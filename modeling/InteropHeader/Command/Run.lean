import InteropHeader.Command.Arguments
import InteropHeader.Command.Header
import InteropHeader.Import.Json

/-!
# Running the program

Input:
  the arguments of the program, a place where files are kept, and a way of
  reading manifests from texts.

Algorithm:
  a request is carried out and its answer printed.  A failure is reported with
  exit code 1, a mistake in the arguments with exit code 2.
-/

namespace InteropHeader

/-- What a run leaves behind beside files. -/
structure Outcome where
  code : Nat := 0
  output : String := ""
  errors : String := ""
  deriving DecidableEq, Repr

namespace Command

/-- The name and the version of the program. -/
def versionLine : String :=
  "clang-header 0.1.0"

/-- How the program is called. -/
def usageLines : List String := [
  "Usage: clang-header [OPTIONS] <COMMAND>",
  "",
  "Commands:",
  "  generate  Generate the header for a module manifest",
  "  imports   Print the sorted and deduplicated import block of a module",
  "  guard     Print the include guard macro for a module name"]

section Running

/-- An import section in the format asked for. -/
def printSection (imports : ImportSection) : SectionFormat → String
  | .text => imports.render
  | .json => imports.toJson.render ++ "\n"

variable {m : Type → Type} [Monad m] [FileAccess m] [ManifestReader]

/-- The printed answer to a request. -/
def answer : Request → ExceptT Failure m String
  | .generate request output => generate request output
  | .imports manifest bridging format => do
      return printSection (← importSection manifest bridging) format
  | .guard name =>
      if name = "" then throw .namelessModule
      else return Header.includeGuard name ++ "\n"
  | .version => return versionLine ++ "\n"
  | .help => return Text.ofLines usageLines

/-- Runs the program. -/
def run (arguments : List String) : m Outcome := do
  match Request.ofArguments arguments with
  | .error error =>
      return { code := 2, errors := "error: " ++ error.message ++ "\n" }
  | .ok request => do
      match ← (answer request).run with
      | .ok output => return { output := output }
      | .error failure => return { code := 1, errors := failure.report }

end Running

end Command

end InteropHeader
