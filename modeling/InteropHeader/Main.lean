import InteropHeader.Command.Run

/-!
# The program

The commands run on the files of the system.
-/

namespace InteropHeader

/-- The reason why the system refuses a request for a file. -/
def FileError.ofSystem : IO.Error → FileError
  | .noFileOrDirectory _ _ _ => .notFound
  | .alreadyExists _ _ _ => .alreadyExists
  | .inappropriateType _ code _ => if code = 20 then .notDirectory else .isDirectory
  | error => .other (toString error)

/-- The result of an action on the system's files. -/
def onSystem {α : Type} (action : IO α) : IO (Except FileError α) := do
  match ← action.toBaseIO with
  | .ok result => return .ok result
  | .error error => return .error (.ofSystem error)

instance : FileAccess IO where
  readText path := do
    match ← onSystem (IO.FS.readBinFile path) with
    | .error error => return .error error
    | .ok content =>
        match String.fromUTF8? content with
        | some text => return .ok text
        | none => return .error .notText
  createDirectories path := onSystem (IO.FS.createDirAll path)
  writeText path text := onSystem (IO.FS.writeFile path text)

end InteropHeader

/-- Runs the program on its arguments. -/
def main (arguments : List String) : IO UInt32 := do
  let outcome ← (InteropHeader.Command.run arguments : IO InteropHeader.Outcome)
  (← IO.getStdout).putStr outcome.output
  (← IO.getStderr).putStr outcome.errors
  return outcome.code.toUInt32
