/-!
# Manifests

A manifest describes the module a header is written for: the module itself, the
other host modules its declarations refer to, and the declarations, already
printed, with the modules that each of them uses.

A module is referred to by its *key*, its `id` if it has one and its name if
not.  A use without a dot is the key of a host module; a use with a dot is the
full name of a foreign submodule.
-/

namespace InteropHeader

/-- A host module as a manifest describes it. -/
structure ModuleEntry where
  name : String
  /-- The key, where it differs from the name. -/
  id : Option String := none
  /-- The name clients see the declarations under, where it differs. -/
  exportedName : Option String := none
  deriving DecidableEq, Repr

namespace ModuleEntry

/-- The key that other entries refer to the module by. -/
def key (entry : ModuleEntry) : String :=
  entry.id.getD entry.name

end ModuleEntry

/-- A declaration as a manifest describes it. -/
structure DeclarationEntry where
  text : String
  uses : List String := []
  deriving DecidableEq, Repr

/-- The description of one header. -/
structure Manifest where
  main : ModuleEntry
  toolchain : Option String := none
  /-- The header to include in place of the underlying module. -/
  bridging : Option String := none
  /-- The key of the module that stands for the contents of the bridging header. -/
  importedHeader : Option String := none
  /-- The other host modules. -/
  modules : List ModuleEntry := []
  objc : List DeclarationEntry := []
  /-- The declarations for C++ alone. -/
  cxx : List DeclarationEntry := []
  deriving DecidableEq, Repr

/-- How a use is to be understood. -/
inductive UseTarget
  | key (key : String)
  /-- The full name of a foreign submodule, its segments separated by dots. -/
  | foreignPath (path : String)
  deriving DecidableEq, Repr

namespace UseTarget

/-- Reads a use: a dot makes it the full name of a foreign submodule. -/
def ofText (raw : String) : UseTarget :=
  if '.' ∈ raw.toList then foreignPath raw else key raw

end UseTarget

end InteropHeader
