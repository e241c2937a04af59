import InteropHeader.Manifest.Violation
import InteropHeader.Manifest.Yaml
import InteropHeader.Storage.Access
import InteropHeader.Text.Lines

/-!
# Failures of the commands

A failure says what could not be done and why.  It is reported as a chain, from
the outermost statement to the root cause.

The report prints the outermost statement and the causes below it, indented and,
if there are several, numbered.
-/

namespace InteropHeader

/-- Why a command fails. -/
inductive Failure
  | unreadable (manifest : String) (cause : FileError)
  | invalid (manifest : String) (cause : ManifestError)
  | unresolved (manifest : String) (cause : Violation)
  | uncreated (directory : String) (cause : FileError)
  | unwritten (output : String) (cause : FileError)
  | namelessModule
  | faulty (fault : Fault)
  deriving DecidableEq, Repr

namespace Failure

/-- The outermost statement. -/
def statement : Failure → String
  | unreadable manifest _ => "Failed to read manifest " ++ manifest
  | invalid manifest _ => "Invalid manifest " ++ manifest
  | unresolved manifest _ => "Failed to resolve manifest " ++ manifest
  | uncreated directory _ => "Failed to create " ++ directory
  | unwritten output _ => "Failed to write header to " ++ output
  | namelessModule => "Module name must not be empty"
  | faulty fault => fault.message

/-- The causes, the root cause last. -/
def causes : Failure → List String
  | unreadable _ cause => [cause.message]
  | invalid _ cause => ["Failed to parse manifest YAML", cause.message]
  | unresolved _ cause => [cause.message]
  | uncreated _ cause => [cause.message]
  | unwritten _ cause => [cause.message]
  | namelessModule => []
  | faulty _ => []

/-- The outermost statement with its causes. -/
def chain (failure : Failure) : List String :=
  failure.statement :: failure.causes

/-- A text whose first line follows a label and whose other lines are indented. -/
def indented (label indent text : String) : String :=
  label ++ ("\n" ++ indent).intercalate (Text.pieces '\n' text)

/-- A number at the end of five columns. -/
def numberLabel (number : Nat) : String :=
  String.ofList (List.replicate (5 - (toString number).length) ' ') ++
    toString number ++ ": "

/-- The printed causes. -/
def causeLines : List String → List String
  | [] => []
  | [cause] => ["", "Caused by:", indented "    " "    " cause]
  | causes =>
      ["", "Caused by:"] ++ causes.zipIdx.map fun (cause, number) =>
        indented (numberLabel number) "       " cause

/-- The printed failure. -/
def report (failure : Failure) : String :=
  Text.ofLines (("Error: " ++ failure.statement) :: causeLines failure.causes)

end Failure

end InteropHeader
