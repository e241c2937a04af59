import InteropHeader.Yaml.Glyph

/-!
# Folded lines

Inside plain and quoted scalars, blanks and line breaks between words are
folded: blanks on one line are kept, a single line feed becomes a space, further
line breaks are kept, and blanks around line breaks are dropped.

`Gap` is what has been read since the last word, and `Gap.fill` is the text that
it folds to.
-/

namespace InteropHeader
namespace Yaml

/-- What stands between two words of a scalar; characters that have been read
are kept latest first. -/
inductive Gap
  | none
  | blanks (seen : List Char)
  /-- A first line break, which may be escaped and then counts as nothing, and
  the line breaks after it. -/
  | broken (first : Option Char) (more : List Char)
  deriving DecidableEq, Repr

namespace Gap

/-- The gap after another blank. -/
def addBlank (c : Char) : Gap → Gap
  | none => blanks [c]
  | blanks seen => blanks (c :: seen)
  | broken first more => broken first more

/-- The gap after another line break. -/
def addBreak (c : Char) : Gap → Gap
  | broken first more => broken first (c :: more)
  | _ => broken (some c) []

/-- Whether the gap holds a line break. -/
def isBroken : Gap → Bool
  | broken _ _ => true
  | _ => false

/-- The folded text of a gap in front of the text read so far, latest character
first. -/
def fill (gap : Gap) (text : List Char) : List Char :=
  match gap with
  | none => text
  | blanks seen => seen ++ text
  | broken (some '\n') [] => ' ' :: text
  | broken (some '\n') more => more ++ text
  | broken first more => more ++ first.toList ++ text

end Gap

end Yaml
end InteropHeader
