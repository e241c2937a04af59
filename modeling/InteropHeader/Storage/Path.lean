import InteropHeader.Text.Lines

/-!
# Paths

Input:
  the text of a path, its segments separated by slashes.

Algorithm:
  an empty segment and a segment `.` behind another one are silent: they name
  nothing.  The path without its last segment that is not silent is its parent,
  written as in the path; the parent of a single segment is the empty path, or
  the root if the path begins there.
-/

namespace InteropHeader
namespace Path

/-- The segments of a path. -/
def segments (path : String) : List String :=
  Text.pieces '/' path

/-- Whether a path begins at the root. -/
def isRooted (path : String) : Bool :=
  path.toList.head? == some '/'

/-- The parts of a path that end in a segment with a meaning, the longest first;
segments are listed from the last one. -/
def meaningfulParts : List String → List (List String)
  | [] => []
  | segment :: before =>
      if segment = "" ∨ (segment = "." ∧ before ≠ []) then
        meaningfulParts before
      else
        (segment :: before) :: meaningfulParts before

/-- A path and all its ancestors that are neither empty nor the root, the
nearest first. -/
def lineage (path : String) : List String :=
  (meaningfulParts (segments path).reverse).map fun part => Text.join '/' part.reverse

/-- The parent of a path. -/
def parent? (path : String) : Option String :=
  match lineage path with
  | [] => none
  | [_] => some (if isRooted path then "/" else "")
  | _ :: parent :: _ => some parent

example : parent? "" = none ∧ parent? "/" = none := by
  decide

end Path
end InteropHeader
