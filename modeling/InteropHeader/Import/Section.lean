import InteropHeader.Import.Order
import InteropHeader.Import.References
import InteropHeader.Text.Lines

/-!
# The import section of a header

Input:
  the modules referred to by a module's declarations, the module itself, and
  the bridging header, if there is one; an empty path means that there is none.

Algorithm:
  the references are sorted, and each plays one of five roles.  A reference to
  the module itself is left out.  A reference to the *underlying* module is
  folded into one include: without a bridging header the underlying module is a
  different module of the same name, with one it is the module that stands for
  the header's contents.  A host module that still has the module's own name is
  left out.  Any other host module is imported once per name, and a foreign
  submodule is imported by its full name.
-/

namespace InteropHeader

/-- The module system an import statement speaks of. -/
inductive ImportOrigin
  | host
  | foreign
  deriving DecidableEq, Repr

/-- One import statement. -/
structure ImportStatement where
  name : String
  origin : ImportOrigin
  deriving DecidableEq, Repr

/-- The hand-written header that belongs to the module itself. -/
inductive OwnHeader
  /-- The umbrella header of the framework with the given name. -/
  | umbrella (name : String)
  | bridging (path : String)
  deriving DecidableEq, Repr

/-- What a header imports. -/
structure ImportSection where
  statements : List ImportStatement
  /-- The module's own hand-written header, if it is included. -/
  ownHeader : Option OwnHeader
  deriving DecidableEq, Repr

/-- The part a referenced module plays in an import section. -/
inductive ImportRole
  /-- The module that the header is written for. -/
  | itself
  | underlying
  /-- Another module with the same name. -/
  | namesake
  | host (name : String)
  | foreign (path : List String)
  deriving DecidableEq, Repr

namespace ImportRole

section Roles

variable {κ : Type} [ModuleNaming κ]

/-- Whether a host module other than the one the header is written for is the
underlying module. -/
def isUnderlying (names : κ) (ownName : String) (header : Option String)
    (handle : HostHandle) : Except Fault Bool :=
  match header with
  | none => (· == ownName) <$> ModuleNaming.hostName names handle
  | some _ => return ModuleNaming.importedHeader names == some handle

/-- The part that a reference plays in the import section of a module. -/
def ofReference (names : κ) (own : HostHandle) (ownName : String)
    (header : Option String) : Reference → Except Fault ImportRole
  | .host handle =>
      if handle = own then
        return .itself
      else do
        if ← isUnderlying names ownName header handle then
          return .underlying
        let name ← ModuleNaming.hostName names handle
        return if name = ownName then .namesake else .host name
  | .foreign handle => do
      let (root, next, rest) ← submodulePath names handle
      return .foreign (root :: next :: rest)

end Roles

end ImportRole

namespace ImportSection

/-- The import statements for the given roles, in order; a host name that has
been imported already is skipped. -/
def statementsFor (seen : List String) : List ImportRole → List ImportStatement
  | [] => []
  | .host name :: rest =>
      if name ∈ seen then
        statementsFor seen rest
      else
        ⟨name, .host⟩ :: statementsFor (name :: seen) rest
  | .foreign path :: rest =>
      ⟨Text.join '.' path, .foreign⟩ :: statementsFor seen rest
  | _ :: rest => statementsFor seen rest

/-- The hand-written header of a module with the given name. -/
def ownHeaderFor (ownName : String) : Option String → OwnHeader
  | none => .umbrella ownName
  | some path => .bridging path

/-- The import section for the given roles. -/
def ofRoles (ownName : String) (header : Option String) (roles : List ImportRole) :
    ImportSection where
  statements := statementsFor [] roles
  ownHeader :=
    if .underlying ∈ roles then some (ownHeaderFor ownName header) else none

end ImportSection

/-- The bridging header that a given path stands for. -/
def nonemptyHeader (bridging : Option String) : Option String :=
  bridging.filter (· ≠ "")

namespace ReferenceSet

section Sections

variable {κ : Type} [ModuleNaming κ]

/-- The import section of a module whose declarations refer to the given
modules. -/
def importSection (references : ReferenceSet) (names : κ) (own : HostHandle)
    (bridging : Option String) : Except Fault ImportSection := do
  let header := nonemptyHeader bridging
  let ownName ← ModuleNaming.hostName names own
  let sorted ← sortReferences names references.members
  let roles ← sorted.mapM (ImportRole.ofReference names own ownName header)
  return ImportSection.ofRoles ownName header roles

end Sections

end ReferenceSet

end InteropHeader
