import InteropHeader.Module.Basic

/-!
# Violations of the rules for manifests

A manifest that can be read may still contradict itself.  Each constructor of
`Violation` is one rule broken, with what is needed to report it.
-/

namespace InteropHeader

namespace Language

/-- The name of the language in reports. -/
def label : Language → String
  | cxx => "cxx"
  | objc => "objc"

end Language

/-- A rule for manifests that is broken. -/
inductive Violation
  | namelessModule (key : String)
  | sharedKey (key : String)
  | malformedName (name : String)
  /-- A key is empty or holds a dot. -/
  | malformedKey (key : String)
  /-- A declaration uses a host module that is not described. -/
  | unknownKey (reference : String) (language : Language) (index : Nat)
  /-- The module that stands for the bridging header is not described. -/
  | unknownHeaderModule (key : String)
  /-- The full name of a foreign submodule has an empty segment. -/
  | emptySegment (path : String)
  deriving DecidableEq, Repr

namespace Violation

/-- The wording of a violation. -/
def message : Violation → String
  | namelessModule key => "Module '" ++ key ++ "' has an empty name"
  | sharedKey key =>
      "Duplicate module key '" ++ key ++
        "' (give one of the modules an explicit id)"
  | malformedName name =>
      "Invalid module name '" ++ name ++ "': module names must be identifiers"
  | malformedKey key =>
      "Invalid module key '" ++ key ++
        "': keys must be non-empty and must not contain '.'"
  | unknownKey reference language index =>
      "Unknown module '" ++ reference ++ "' referenced from " ++ language.label ++
        " declaration #" ++ toString index
  | unknownHeaderModule key =>
      "Unknown imported header module '" ++ key ++ "'"
  | emptySegment path =>
      "Malformed foreign module path '" ++ path ++ "'"

end Violation

end InteropHeader
