/-!
# Modules and references to them

A *host module* belongs to the module system of the compiled language: it has a
name, perhaps another name it is exported under, and the declarations printed
for it.  A *foreign module* belongs to the native module system; it has a name
and, unless it is a top-level module, a parent.

Handles tell modules apart: two host modules may share a name, and then only
their handles differ.  A handle is a position and need not denote anything, so
every look-up can fail; `Fault` lists how.  Positions have no greatest one here;
where they are kept in 32 bits, they are told apart as long as there are fewer
than 2 ^ 32 modules of each kind.
-/

namespace InteropHeader

/-- Identifies a host module by its position among the host modules, of which there are to
be fewer than 2 ^ 32. -/
structure HostHandle where
  index : Nat
  deriving DecidableEq, Repr

/-- Identifies a foreign module by its position among the foreign modules, of which there
are to be fewer than 2 ^ 32. -/
structure ForeignHandle where
  index : Nat
  deriving DecidableEq, Repr

/-- A module that exported declarations refer to. -/
inductive Reference
  | host (handle : HostHandle)
  | foreign (handle : ForeignHandle)
  deriving DecidableEq, Repr

/-- A declaration printed for a header, with the modules its text refers to. -/
structure Declaration where
  text : String
  uses : List Reference
  deriving DecidableEq, Repr

/-- The languages a header is read by beside C. -/
inductive Language
  | cxx
  | objc
  deriving DecidableEq, Repr

/-- A module of the compiled language. -/
structure HostModule where
  /-- The name used for imports, includes and the include guard. -/
  name : String
  /-- The name clients see the declarations under, where it differs. -/
  exportedAs : Option String := none
  objc : List Declaration := []
  /-- The declarations visible to C++ alone. -/
  cxx : List Declaration := []
  deriving DecidableEq, Repr

namespace HostModule

/-- The name clients see the module's declarations under. -/
def visibleName (m : HostModule) : String :=
  m.exportedAs.getD m.name

/-- The declarations for one language. -/
def declarations (m : HostModule) : Language → List Declaration
  | .cxx => m.cxx
  | .objc => m.objc

/-- Adds declarations for one language after those already there. -/
def declare (m : HostModule) (language : Language) (added : List Declaration) :
    HostModule :=
  match language with
  | .cxx => { m with cxx := m.cxx ++ added }
  | .objc => { m with objc := m.objc ++ added }

end HostModule

/-- A module of the native module system. -/
structure ForeignModule where
  /-- The last segment of the full name. -/
  name : String
  /-- The enclosing module; a top-level module has none. -/
  parent : Option ForeignHandle
  deriving DecidableEq, Repr

namespace ForeignModule

/-- Whether the module lies inside another one. -/
def isNested (m : ForeignModule) : Bool :=
  m.parent.isSome

end ForeignModule

/-- The ways in which modules can be referred to wrongly. -/
inductive Fault
  /-- A top-level foreign module was to be imported by itself. -/
  | topLevelForeign
  | sharedFullName
  | outOfRange (count index : Nat)
  deriving DecidableEq, Repr

namespace Fault

/-- The wording of a fault. -/
def message : Fault → String
  | topLevelForeign =>
      "top-level foreign modules should be imported through their host module"
  | sharedFullName =>
      "distinct foreign modules should not have the same full name"
  | outOfRange count index =>
      "index out of bounds: the len is " ++ toString count ++
        " but the index is " ++ toString index

end Fault

end InteropHeader
