import InteropHeader.Storage.Access
import InteropHeader.Storage.Path

/-!
# File trees

Input:
  files and directories below a root, one of them the working directory, and paths
  to them.

Algorithm:
  an entry stands at a location, the names from the root down.  A path that begins
  with a slash is walked from the root, and any other one from the working
  directory, segment by segment.  Each step starts from a directory: an empty
  segment and `.` stay, `..` goes up, but not beyond the root, and any other
  segment goes down.  A file is written where the last segment says; its directory
  must exist.  A missing directory is created after the missing directories around
  it.

Results:
  * `at?_insert_self` and `at?_insert_of_ne`: inserting an entry changes
    its own location and no other one.
-/

namespace InteropHeader

/-- What stands at a location. -/
inductive FileEntry
  | file (content : ByteArray)
  | directory

/-- The names from the root down to an entry. -/
abbrev Location := List String

/-- The files and directories below a root. -/
structure FileTree where
  /-- The entries with their locations; of several entries at one location the
  first one counts. -/
  entries : List (Location × FileEntry) := []
  /-- Where paths start that do not begin at the root; it need not be a directory. -/
  workingDirectory : Location := []

namespace FileTree

/-- What stands at a location; the root itself always is there. -/
def at? (tree : FileTree) (location : Location) : Option FileEntry :=
  if location = [] then
    some .directory
  else
    (tree.entries.find? (·.1 = location)).map Prod.snd

/-- Puts an entry at a location. -/
def insert (tree : FileTree) (location : Location) (entry : FileEntry) : FileTree :=
  { tree with entries := (location, entry) :: tree.entries }

theorem at?_insert_self {tree : FileTree} {location : Location} {entry : FileEntry}
    (h : location ≠ []) : (tree.insert location entry).at? location = some entry := by
  simp [at?, insert, h]

theorem at?_insert_of_ne {tree : FileTree} {location other : Location}
    {entry : FileEntry} (h : location ≠ other) :
    (tree.insert location entry).at? other = tree.at? other := by
  simp [at?, insert, h]

/-- Whether a name fits into a directory. -/
def nameFits (name : String) : Bool :=
  name.utf8ByteSize ≤ 255

/-- Goes on from a location along the given segments.  Every segment needs a
directory to start from; nothing need stand at the end. -/
def walk (tree : FileTree) (start : Location) :
    List String → Except FileError Location
  | [] => .ok start
  | segment :: rest =>
      match tree.at? start with
      | none => .error .notFound
      | some (.file _) => .error .notDirectory
      | some .directory =>
          if segment = "" ∨ segment = "." then
            tree.walk start rest
          else if segment = ".." then
            tree.walk start.dropLast rest
          else if nameFits segment then
            tree.walk (start ++ [segment]) rest
          else
            .error .nameTooLong

/-- Refuses a path that cannot be a path. -/
def checkPath (path : String) : Except FileError Unit :=
  if '\x00' ∈ path.toList then .error .invalidPath
  else if path = "" then .error .notFound
  else if 4095 < path.utf8ByteSize then .error .nameTooLong
  else .ok ()

/-- Where a path starts. -/
def start (tree : FileTree) (path : String) : Location :=
  if Path.isRooted path then [] else tree.workingDirectory

/-- The location of what a path leads to. -/
def locate (tree : FileTree) (path : String) : Except FileError Location := do
  checkPath path
  tree.walk (tree.start path) (Path.segments path)

/-- Whether a path leads to a directory. -/
def isDirectory (tree : FileTree) (path : String) : Bool :=
  match tree.locate path with
  | .ok location =>
      match tree.at? location with
      | some .directory => true
      | _ => false
  | .error _ => false

/-- The bytes of the file that a path leads to. -/
def read (tree : FileTree) (path : String) : Except FileError ByteArray := do
  let location ← tree.locate path
  match tree.at? location with
  | none => throw .notFound
  | some .directory => throw .isDirectory
  | some (.file content) => return content

/-- The text of the file that a path leads to. -/
def readText (tree : FileTree) (path : String) : Except FileError String := do
  let content ← tree.read path
  match String.fromUTF8? content with
  | some text => return text
  | none => throw .notText

/-- The existing directory in which a path names something, and the name; a path
that ends in `.`, in `..` or at the root names nothing. -/
def place (tree : FileTree) (path : String) :
    Except FileError (Location × Option String) := do
  checkPath path
  match (Path.segments path).reverse.dropWhile (· = "") with
  | [] => return (tree.start path, none)
  | last :: before => do
      let parent ← tree.walk (tree.start path) before.reverse
      match tree.at? parent with
      | none => throw .notFound
      | some (.file _) => throw .notDirectory
      | some .directory =>
          if last = "." ∨ last = ".." then
            return (parent, none)
          else if nameFits last then
            return (parent, some last)
          else
            throw .nameTooLong

/-- Puts bytes into the file that a path names. -/
def write (tree : FileTree) (path : String) (content : ByteArray) :
    Except FileError FileTree := do
  match ← tree.place path with
  | (_, none) => throw .isDirectory
  | (parent, some name) =>
      if (Path.segments path).getLast? = some "" then
        throw .isDirectory
      match tree.at? (parent ++ [name]) with
      | some .directory => throw .isDirectory
      | _ => return tree.insert (parent ++ [name]) (.file content)

/-- Creates the directory that a path names. -/
def createDirectory (tree : FileTree) (path : String) : Except FileError FileTree := do
  match ← tree.place path with
  | (_, none) => throw .alreadyExists
  | (parent, some name) =>
      match tree.at? (parent ++ [name]) with
      | some _ => throw .alreadyExists
      | none => return tree.insert (parent ++ [name]) .directory

/-- Creates a directory unless it is there. -/
def ensureDirectory (tree : FileTree) (path : String) : Except FileError FileTree :=
  match tree.createDirectory path with
  | .ok extended => .ok extended
  | .error error => if tree.isDirectory path then .ok tree else .error error

/-- Creates the first of the given directories, if necessary after the following
ones, which contain it.  What has been created stays, even if a later step
fails. -/
def createLineage (tree : FileTree) : List String → Except FileError Unit × FileTree
  | [] => (.ok (), tree)
  | path :: around =>
      match tree.ensureDirectory path with
      | .ok extended => (.ok (), extended)
      | .error .notFound =>
          match tree.createLineage around with
          | (.error error, partly) => (.error error, partly)
          | (.ok (), extended) =>
              match extended.ensureDirectory path with
              | .ok whole => (.ok (), whole)
              | .error error => (.error error, extended)
      | .error error => (.error error, tree)

/-- Creates the directory that a path names and all missing directories around
it. -/
def createDirectories (tree : FileTree) (path : String) :
    Except FileError Unit × FileTree :=
  tree.createLineage (Path.lineage path)

/-- A tree with a working directory, its ancestors and nothing else. -/
def bare (workingDirectory : Location) : FileTree where
  entries := (List.range workingDirectory.length).map fun depth =>
    (workingDirectory.take (depth + 1), .directory)
  workingDirectory := workingDirectory

example :
    ["x", "../x", "/x"].map (fun path => ((bare ["home", "user"]).locate path).toOption) =
      [some ["home", "user", "x"], some ["home", "x"], some ["x"]] := by
  decide +kernel

/-- A tree in which the given files have been put, together with the directories they
stand in, as far as that is possible. -/
def withFiles (tree : FileTree) (files : List (String × ByteArray)) : FileTree :=
  files.foldl (fun tree (path, content) =>
    let housed :=
      match Path.parent? path with
      | none => tree
      | some parent => (tree.createDirectories parent).2
    match housed.write path content with
    | .ok written => written
    | .error _ => housed) tree

/-- The given files in a working directory of their own. -/
def ofFiles (files : List (String × ByteArray)) : FileTree :=
  (bare ["home", "user"]).withFiles files

instance : FileAccess (StateM FileTree) where
  readText path := do
    return (← get).readText path
  createDirectories path := do
    let (result, tree) := (← get).createDirectories path
    set tree
    return result
  writeText path text := do
    match (← get).write path text.toUTF8 with
    | .ok tree => do
        set tree
        return .ok ()
    | .error error => return .error error

end FileTree

end InteropHeader
