import InteropHeader.Module.Basic

/-!
# What a header asks about modules

A header is written from references to modules, and all it needs to know is how
the referenced modules are called, which module stands for the bridging header,
and which toolchain to name in the banner.  `ModuleNaming` lists these
questions, so that a header can be written for any collection of modules that
answers them.

`NameTable` is the smallest such collection: host names and foreign full names
in two tables, read by position.
-/

namespace InteropHeader

/-- The questions about modules that a header depends on. -/
class ModuleNaming (κ : Type) where
  hostName : κ → HostHandle → Except Fault String
  /-- The full name of a foreign module, root first. -/
  foreignPath : κ → ForeignHandle → Except Fault (List String)
  /-- The host module that stands for the contents of the bridging header. -/
  importedHeader : κ → Option HostHandle
  /-- The text after "Generated by" in the banner. -/
  toolchain : κ → String

/-- The entry of a list at a position, or the fault of a position beyond it. -/
def entryAt {α : Type} (entries : List α) (index : Nat) : Except Fault α :=
  match entries[index]? with
  | some entry => .ok entry
  | none => .error (.outOfRange entries.length index)

theorem entryAt_eq_ok_iff {α : Type} {entries : List α} {index : Nat} {entry : α} :
    entryAt entries index = .ok entry ↔ entries[index]? = some entry := by
  unfold entryAt
  split <;> simp_all

/-- Modules given by nothing but their names. -/
structure NameTable where
  hosts : List String
  /-- The full names of the foreign modules, root first. -/
  foreigns : List (List String)
  importedHeader : Option HostHandle
  toolchain : String

instance : ModuleNaming NameTable where
  hostName table handle := entryAt table.hosts handle.index
  foreignPath table handle := entryAt table.foreigns handle.index
  importedHeader table := table.importedHeader
  toolchain table := table.toolchain

end InteropHeader
