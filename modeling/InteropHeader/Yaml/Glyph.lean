import InteropHeader.Yaml.YamlError

/-!
# Characters in place

Input:
  the text of a YAML stream.

Algorithm:
  one byte order mark at the start is dropped.  Every other character has to be
  printable, a tab or a line break.  A carriage return, alone or before a line
  feed, and a next-line character count as a line feed.  Then each character is
  put in its place, a line and a column counted from zero.
-/

namespace InteropHeader
namespace Yaml

/-- A character with its place in the text. -/
structure Glyph where
  char : Char
  /-- The line, counted from zero. -/
  line : Nat
  /-- The column, counted from zero. -/
  column : Nat
  deriving DecidableEq, Repr

/-- Text that is still to be read. -/
abbrev Source := List Glyph

/-- Whether a character may stand in YAML text. -/
def isPrintable (c : Char) : Bool :=
  let n := c.toNat
  n = 0x09 || n = 0x0A || n = 0x0D || (0x20 ≤ n && n ≤ 0x7E) || n = 0x85 ||
    (0xA0 ≤ n && n ≤ 0xFFFD && n ≠ 0xFEFF) || 0x10000 ≤ n

/-- Whether a character is a space or a tab. -/
def isBlank (c : Char) : Bool :=
  c = ' ' || c = '\t'

/-- Whether a character ends a line. -/
def isBreak (c : Char) : Bool :=
  c = '\n' || c = '\u2028' || c = '\u2029'

/-- Whether a character may stand in the name of an anchor or a tag handle. -/
def isWord (c : Char) : Bool :=
  c.isAlphanum || c = '_' || c = '-'

/-- Every line break that stands for a line feed, as a line feed. -/
def unifyBreaks : List Char → List Char
  | '\r' :: '\n' :: rest => '\n' :: unifyBreaks rest
  | '\r' :: rest => '\n' :: unifyBreaks rest
  | '\u0085' :: rest => '\n' :: unifyBreaks rest
  | c :: rest => c :: unifyBreaks rest
  | [] => []

/-- Characters in place, the first one at the given line and column. -/
def place (line column : Nat) : List Char → Source
  | [] => []
  | c :: rest =>
      ⟨c, line, column⟩ ::
        (if isBreak c then place (line + 1) 0 rest else place line (column + 1) rest)

namespace Source

/-- The characters of a text in place. -/
def ofText (text : String) : Except YamlError Source :=
  let content :=
    match text.toList with
    | '\ufeff' :: rest => rest
    | chars => chars
  if content.all isPrintable then
    .ok (place 0 0 (unifyBreaks content))
  else
    .error .forbiddenCharacter

/-- The character at a distance, if the text goes that far. -/
def char? (source : Source) (distance : Nat) : Option Char :=
  source[distance]?.map Glyph.char

/-- Whether the given character stands at a distance. -/
def has (source : Source) (distance : Nat) (c : Char) : Bool :=
  source.char? distance == some c

/-- Whether a blank, a line break or the end of the text stands at a distance. -/
def endsWord (source : Source) (distance : Nat) : Bool :=
  match source.char? distance with
  | none => true
  | some c => isBlank c || isBreak c

/-- Whether the line ends here. -/
def endsLine (source : Source) : Bool :=
  match source.char? 0 with
  | none => true
  | some c => isBreak c

/-- Whether the text begins with three times the given character at the start of
a line, as a word of its own. -/
def marks (source : Source) (c : Char) : Bool :=
  source.head?.any (·.column = 0) &&
    source.has 0 c && source.has 1 c && source.has 2 c && source.endsWord 3

/-- Whether a document begins or ends here. -/
def atMarker (source : Source) : Bool :=
  source.marks '-' || source.marks '.'

/-- The text as it stands. -/
def toText (source : Source) : String :=
  String.ofList (source.map Glyph.char)

end Source

end Yaml
end InteropHeader
