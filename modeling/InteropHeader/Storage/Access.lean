/-!
# Access to files

What the commands ask of a place where files are kept: to read a text, to create
a directory with all missing directories around it, and to write a text.  Every
request may fail, and `FileError` lists how.
-/

namespace InteropHeader

/-- Why a request for a file fails. -/
inductive FileError
  | notFound
  | notDirectory
  | isDirectory
  | alreadyExists
  | nameTooLong
  | invalidPath
  | notText
  | other (reason : String)
  deriving DecidableEq, Repr

namespace FileError

/-- The wording of an error. -/
def message : FileError → String
  | notFound => "No such file or directory (os error 2)"
  | notDirectory => "Not a directory (os error 20)"
  | isDirectory => "Is a directory (os error 21)"
  | alreadyExists => "File exists (os error 17)"
  | nameTooLong => "File name too long (os error 36)"
  | invalidPath => "file name contained an unexpected NUL byte"
  | notText => "stream did not contain valid UTF-8"
  | other reason => reason

end FileError

/-- A place where files are kept. -/
class FileAccess (m : Type → Type) where
  readText : String → m (Except FileError String)
  /-- Creates a directory and all missing directories around it. -/
  createDirectories : String → m (Except FileError Unit)
  /-- Puts a text into a file in place of what it held. -/
  writeText : String → String → m (Except FileError Unit)

end InteropHeader
