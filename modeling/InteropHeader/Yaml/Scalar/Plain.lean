import InteropHeader.Yaml.Scalar.Folding

/-!
# Plain scalars

Input:
  the text from the first character of a scalar without quotation marks.

Algorithm:
  words are gathered and the gaps between them folded.  The scalar ends before a
  colon that is a word's end, before a comment, before a document marker, before
  a line that is not indented enough and, inside brackets, before a bracket or a
  comma.
-/

namespace InteropHeader
namespace Yaml

/-- A plain scalar as it has been read. -/
structure PlainScalar where
  text : String
  /-- The text behind the scalar and the blanks after it. -/
  rest : Source
  /-- Whether a line break stands between the scalar and what follows. -/
  broken : Bool

/-- Whether a character is a bracket, a brace or a comma. -/
def isFlowIndicator (c : Char) : Bool :=
  c = ',' || c = '[' || c = ']' || c = '{' || c = '}'

/-- Whether a plain scalar ends in front of the given text, a word being under
way. -/
def endsPlain (inFlow : Bool) (source : Source) : Bool :=
  (source.has 0 ':' && source.endsWord 1) ||
    (inFlow && (source.char? 0).any isFlowIndicator)

/-- Whether a colon stands where a plain scalar inside brackets cannot hold one. -/
def misplacesColon (inFlow : Bool) (source : Source) : Bool :=
  inFlow && source.has 0 ':' &&
    (source.char? 1).any fun c => isFlowIndicator c || c = '?'

/-- Reads a plain scalar; lines inside blocks must be indented to the given
column. -/
def readPlain (inFlow : Bool) (indent : Nat) (gap : Gap) (text : List Char) :
    Source → Except YamlError PlainScalar
  | [] => .ok ⟨String.ofList text.reverse, [], gap.isBroken⟩
  | glyph :: rest =>
      let here := glyph :: rest
      let done := .ok ⟨String.ofList text.reverse, here, gap.isBroken⟩
      if isBlank glyph.char then
        if gap.isBroken ∧ glyph.column < indent ∧ glyph.char = '\t' then
          .error .tabInIndentation
        else
          readPlain inFlow indent (gap.addBlank glyph.char) text rest
      else if isBreak glyph.char then
        readPlain inFlow indent (gap.addBreak glyph.char) text rest
      else if gap ≠ .none ∧ inFlow = false ∧ glyph.column < indent then
        done
      else if gap ≠ .none ∧ (Source.atMarker here ∨ glyph.char = '#') then
        done
      else if misplacesColon inFlow here then
        .error .unexpectedColon
      else if endsPlain inFlow here then
        done
      else
        readPlain inFlow indent .none (glyph.char :: gap.fill text) rest

/-- Reads a plain scalar from its first character. -/
def plainScalar (inFlow : Bool) (indent : Nat) (source : Source) :
    Except YamlError PlainScalar :=
  readPlain inFlow indent .none [] source

end Yaml
end InteropHeader
