import InteropHeader.Command.Failure
import InteropHeader.Command.Request
import InteropHeader.Header.Document
import InteropHeader.Manifest.Resolution
import InteropHeader.Storage.Path

/-!
# Headers from manifest files

Input:
  a place where files are kept, a way of reading manifests from texts, the path
  of a manifest, and what the user chooses on the command line.

Algorithm:
  the manifest is read, then understood, then resolved, and each step can end
  the command.  A bridging header given on the command line wins over the one in
  the manifest, even if it is empty.  The header is printed before anything is
  written; its directory is created where it is missing.
-/

namespace InteropHeader
namespace Command

section Commands

variable {m : Type → Type} [Monad m] [FileAccess m]

/-- The result of a request for a file, its error understood as a failure. -/
def attempt {α : Type} (failure : FileError → Failure) (action : m (Except FileError α)) :
    ExceptT Failure m α := do
  match ← (action : m (Except FileError α)) with
  | .ok result => return result
  | .error error => throw (failure error)

/-- A result that needs no files, its error understood as a failure. -/
def given {ε α : Type} (failure : ε → Failure) : Except ε α → ExceptT Failure m α
  | .ok result => return result
  | .error error => throw (failure error)

/-- Writes a text to a file, whose directory is created where it is missing. -/
def writeOutput (output text : String) : ExceptT Failure m Unit := do
  match Path.parent? output with
  | none | some "" => pure ()
  | some parent =>
      attempt (.uncreated parent) (FileAccess.createDirectories parent)
  attempt (.unwritten output) (FileAccess.writeText output text)

/-- The bridging header that counts. -/
def chooseBridging (commandLine : Option String) (resolved : ResolvedManifest) :
    Option String :=
  commandLine.or resolved.bridging

variable [ManifestReader]

/-- The manifest in a file. -/
def readManifest (path : String) : ExceptT Failure m Manifest := do
  let text ← attempt (.unreadable path) (FileAccess.readText path)
  given (.invalid path) (ManifestReader.ofText text)

/-- The modules of the manifest in a file. -/
def readTable (path : String) : ExceptT Failure m ResolvedManifest := do
  let manifest ← readManifest path
  given (.unresolved path) manifest.resolve

/-- The import section of the manifest in a file. -/
def importSection (path : String) (bridging : Option String) :
    ExceptT Failure m ImportSection := do
  let resolved ← readTable path
  given .faulty
    (resolved.table.importSection ModuleTable.main (chooseBridging bridging resolved))

/-- The header of the manifest in a file. -/
def header (request : HeaderRequest) : ExceptT Failure m String := do
  let resolved ← readTable request.manifest
  given .faulty
    (resolved.table.header ModuleTable.main
      { bridging := chooseBridging request.bridging resolved
        exposeCxx := request.exposeCxx })

/-- Writes the header of a manifest to a file, or gives it back to be printed. -/
def generate (request : HeaderRequest) (output : Option String) :
    ExceptT Failure m String := do
  let text ← header request
  match output with
  | none => return text
  | some path => do
      writeOutput path text
      return ""

end Commands

end Command
end InteropHeader
