import InteropHeader.Yaml.Glyph

/-!
# Block scalars

Input:
  the text behind the `|` or `>` of a block scalar, and the indentation of the
  surrounding block.

Algorithm:
  the first line may say how line breaks at the end are treated and how far the
  lines are indented, in either order; a comment may follow.  Without a given
  indentation the first line that is not empty decides, or a longer blank line
  before it.  In a folded scalar a line feed between two lines that do not begin
  with a blank becomes a space, or nothing if empty lines follow.  At the end all
  line breaks are dropped, one is kept, or all are kept.
-/

namespace InteropHeader
namespace Yaml

/-- What happens to line breaks at the end of a block scalar. -/
inductive Chomping
  | strip
  /-- The last line keeps its own. -/
  | clip
  | keep
  deriving DecidableEq, Repr

/-- The first line of a block scalar. -/
structure BlockHeader where
  chomping : Chomping
  /-- How much farther than the surrounding block the lines are indented. -/
  increment : Option Nat
  deriving DecidableEq, Repr

/-- A block scalar that is being read; characters are kept latest first. -/
structure BlockText where
  text : List Char := []
  /-- The line break of the last line. -/
  lineEnd : Option Char := none
  /-- The line breaks of the empty lines after it. -/
  emptyLines : List Char := []
  /-- Whether the last line began with a blank. -/
  afterBlank : Bool := false
  deriving DecidableEq, Repr

namespace BlockText

/-- The text at the start of another line. -/
def startLine (folded startsBlank : Bool) (block : BlockText) : BlockText :=
  let joined :=
    if folded ∧ block.lineEnd = some '\n' ∧ block.afterBlank = false ∧
        startsBlank = false then
      if block.emptyLines = [] then ' ' :: block.text else block.text
    else
      block.lineEnd.toList ++ block.text
  { text := block.emptyLines ++ joined, afterBlank := startsBlank }

/-- The whole text. -/
def finish (chomping : Chomping) (block : BlockText) : String :=
  let chars :=
    match chomping with
    | .strip => block.text
    | .clip => block.lineEnd.toList ++ block.text
    | .keep => block.emptyLines ++ block.lineEnd.toList ++ block.text
  String.ofList chars.reverse

end BlockText

/-- The chomping that a character asks for. -/
def chomping? : Char → Option Chomping
  | '-' => some .strip
  | '+' => some .keep
  | _ => none

/-- An indentation indicator, with the text behind it. -/
def readIncrement (source : Source) : Except YamlError (Option Nat × Source) :=
  match source with
  | glyph :: rest =>
      if glyph.char = '0' then
        .error .malformedBlockHeader
      else if glyph.char.isDigit then
        .ok (some (glyph.char.toNat - '0'.toNat), rest)
      else
        .ok (none, source)
  | [] => .ok (none, [])

/-- A chomping indicator, with the text behind it. -/
def readChomping (source : Source) : Option Chomping × Source :=
  match source with
  | glyph :: rest =>
      match chomping? glyph.char with
      | some chomping => (some chomping, rest)
      | none => (none, source)
  | [] => (none, [])

/-- The text behind blanks, a comment and the line break after them. -/
def skipLineEnd (malformed : YamlError) (source : Source) : Except YamlError Source :=
  let afterBlanks : Source := source.dropWhile fun glyph => isBlank glyph.char
  let afterComment : Source :=
    if afterBlanks.has 0 '#' then
      afterBlanks.dropWhile fun glyph => !isBreak glyph.char
    else
      afterBlanks
  if afterComment.endsLine then
    .ok (afterComment.drop 1)
  else
    .error malformed

/-- Reads the first line of a block scalar behind its indicator. -/
def readBlockHeader (source : Source) : Except YamlError (BlockHeader × Source) := do
  let (first, afterFirst) := readChomping source
  let (increment, afterIncrement) ← readIncrement afterFirst
  let (second, afterSecond) :=
    match first with
    | some _ => (none, afterIncrement)
    | none => if increment.isSome then readChomping afterIncrement else (none, afterIncrement)
  let rest ← skipLineEnd .malformedBlockHeader afterSecond
  return (⟨(first.or second).getD .clip, increment⟩, rest)

/-- Reads the lines of a block scalar that are indented to the given column;
`inLine` tells that a line is under way. -/
def readBlockLines (folded : Bool) (indent : Nat) (inLine : Bool) (block : BlockText) :
    Source → Except YamlError (BlockText × Source)
  | [] => .ok (block, [])
  | glyph :: rest =>
      if inLine then
        if isBreak glyph.char then
          readBlockLines folded indent false { block with lineEnd := some glyph.char } rest
        else
          readBlockLines folded indent true
            { block with text := glyph.char :: block.text } rest
      else if glyph.column < indent ∧ glyph.char = ' ' then
        readBlockLines folded indent false block rest
      else if glyph.column < indent ∧ glyph.char = '\t' then
        .error .tabInIndentation
      else if isBreak glyph.char then
        readBlockLines folded indent false
          { block with emptyLines := glyph.char :: block.emptyLines } rest
      else if glyph.column < indent then
        .ok (block, glyph :: rest)
      else
        let started := block.startLine folded (isBlank glyph.char)
        readBlockLines folded indent true
          { started with text := glyph.char :: started.text } rest

/-- Finds out how far the lines of a block scalar are indented, at least to the
given column, and gathers the line breaks before the first line. -/
def findBlockIndent (longest : Nat) (breaks : List Char) :
    Source → Except YamlError (Nat × List Char × Source)
  | [] => .ok (longest, breaks, [])
  | glyph :: rest =>
      if glyph.char = ' ' then
        findBlockIndent longest breaks rest
      else if glyph.char = '\t' then
        .error .tabInIndentation
      else if isBreak glyph.char then
        findBlockIndent (max longest glyph.column) (glyph.char :: breaks) rest
      else
        .ok (max longest glyph.column, breaks, glyph :: rest)

/-- Reads a block scalar behind its indicator; the lines of the surrounding block
are indented to a column below `outer`. -/
def blockScalar (folded : Bool) (outer : Nat) (source : Source) :
    Except YamlError (String × Source) := do
  let (header, lines) ← readBlockHeader source
  let (block, rest) ←
    match header.increment with
    | some increment =>
        readBlockLines folded (outer - 1 + increment) false {} lines
    | none => do
        let (indent, breaks, text) ← findBlockIndent (max outer 1) [] lines
        readBlockLines folded indent false { emptyLines := breaks } text
  return (block.finish header.chomping, rest)

end Yaml
end InteropHeader
