import InteropHeader.Module.ForeignTree
import InteropHeader.Module.Naming

/-!
# The modules of one run

Input:
  the module a header is written for, the other host modules, and the full
  names of the foreign modules that declarations refer to.

Algorithm:
  host modules are kept in the order in which they are added, the main module
  first; foreign modules are interned in a tree of their own.

Results:
  * there always is a main module; this is part of the type.
-/

namespace InteropHeader

/-- Every module known to one run. -/
structure ModuleTable where
  /-- The host modules; a handle is a position in this array. -/
  hosts : Array HostModule
  foreigns : ForeignTree := .empty
  importedHeader : Option HostHandle := none
  /-- The toolchain to name in the banner, where it is not the default one. -/
  namedToolchain : Option String := none
  /-- There is a main module. -/
  size_pos : 0 < hosts.size

namespace ModuleTable

/-- The banner text of a run that names no toolchain. -/
def defaultToolchain : String :=
  "clang-header-gen 0.1.0"

/-- The table that knows only its main module. -/
def ofMain (main : HostModule) : ModuleTable where
  hosts := #[main]
  size_pos := by simp

/-- The module headers are written for. -/
def main : HostHandle :=
  ⟨0⟩

/-- Adds a host module and returns its handle. -/
def add (table : ModuleTable) (m : HostModule) : ModuleTable × HostHandle :=
  ({ table with
      hosts := table.hosts.push m
      size_pos := by simp },
    ⟨table.hosts.size⟩)

/-- The module a handle denotes. -/
def host (table : ModuleTable) (handle : HostHandle) : Except Fault HostModule :=
  match table.hosts[handle.index]? with
  | some m => .ok m
  | none => .error (.outOfRange table.hosts.size handle.index)

/-- Changes the module a handle denotes. -/
def edit (table : ModuleTable) (handle : HostHandle) (change : HostModule → HostModule) :
    Except Fault ModuleTable :=
  match table.hosts[handle.index]? with
  | some m =>
      .ok { table with
        hosts := table.hosts.setIfInBounds handle.index (change m)
        size_pos := by simpa using table.size_pos }
  | none => .error (.outOfRange table.hosts.size handle.index)

/-- Finds or adds the foreign module with the given full name. -/
def intern (table : ModuleTable) (path : List String) :
    ModuleTable × Option ForeignHandle :=
  ({ table with foreigns := (table.foreigns.intern path).1 },
    (table.foreigns.intern path).2)

/-- Names the toolchain. -/
def withToolchain (table : ModuleTable) (version : Option String) : ModuleTable :=
  { table with namedToolchain := version }

/-- Names the module that stands for the contents of the bridging header. -/
def withImportedHeader (table : ModuleTable) (handle : Option HostHandle) :
    ModuleTable :=
  { table with importedHeader := handle }

/-- The banner text. -/
def toolchain (table : ModuleTable) : String :=
  table.namedToolchain.getD defaultToolchain

instance : ModuleNaming ModuleTable where
  hostName table handle := (table.host handle).map HostModule.name
  foreignPath table handle := table.foreigns.path handle
  importedHeader table := table.importedHeader
  toolchain table := table.toolchain

end ModuleTable

end InteropHeader
