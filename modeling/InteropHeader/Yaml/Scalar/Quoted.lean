import InteropHeader.Yaml.Scalar.Folding

/-!
# Quoted scalars

Input:
  the text after an opening quotation mark.

Algorithm:
  words are gathered and the gaps between them folded until the closing
  quotation mark.  Between single quotation marks a doubled one stands for one;
  between double quotation marks a backslash begins an escape sequence, and a
  backslash at the end of a line joins it with the next one.
-/

namespace InteropHeader
namespace Yaml

/-- The two kinds of quotation marks. -/
inductive QuoteStyle
  | single
  | double
  deriving DecidableEq, Repr

namespace QuoteStyle

/-- The quotation mark. -/
def mark : QuoteStyle → Char
  | single => '\''
  | double => '"'

end QuoteStyle

/-- Where the reading of a quoted scalar stands. -/
inductive QuotedState
  | between (gap : Gap)
  | escape
  /-- Inside an escape sequence that wants further hexadecimal digits. -/
  | digits (left value : Nat)
  deriving DecidableEq, Repr

/-- The character that a backslash and a letter stand for. -/
def escapedChar? : Char → Option Char
  | '0' => some '\x00'
  | 'a' => some '\x07'
  | 'b' => some '\x08'
  | 't' => some '\t'
  | '\t' => some '\t'
  | 'n' => some '\n'
  | 'v' => some '\x0b'
  | 'f' => some '\x0c'
  | 'r' => some '\r'
  | 'e' => some '\x1b'
  | ' ' => some ' '
  | '"' => some '"'
  | '/' => some '/'
  | '\\' => some '\\'
  | 'N' => some '\u0085'
  | '_' => some '\u00a0'
  | 'L' => some '\u2028'
  | 'P' => some '\u2029'
  | _ => none

/-- The number of hexadecimal digits that an escape sequence wants. -/
def escapedDigits? : Char → Option Nat
  | 'x' => some 2
  | 'u' => some 4
  | 'U' => some 8
  | _ => none

/-- The value of a hexadecimal digit. -/
def hexValue? (c : Char) : Option Nat :=
  if c.isDigit then some (c.toNat - '0'.toNat)
  else if 'a' ≤ c ∧ c ≤ 'f' then some (c.toNat - 'a'.toNat + 10)
  else if 'A' ≤ c ∧ c ≤ 'F' then some (c.toNat - 'A'.toNat + 10)
  else none

/-- The text of a quoted scalar, latest character first, and the text after its
closing quotation mark. -/
def readQuoted (style : QuoteStyle) (state : QuotedState) (text : List Char) :
    Source → Except YamlError (List Char × Source)
  | [] => .error .unclosedQuote
  | glyph :: rest =>
      match state with
      | .escape =>
          if isBreak glyph.char then
            readQuoted style (.between (.broken none [])) text rest
          else
            match escapedChar? glyph.char, escapedDigits? glyph.char with
            | some c, _ => readQuoted style (.between .none) (c :: text) rest
            | none, some count => readQuoted style (.digits count 0) text rest
            | none, none => .error .unknownEscape
      | .digits left value =>
          match hexValue? glyph.char with
          | none => .error .invalidEscape
          | some digit =>
              let extended := 16 * value + digit
              if 1 < left then
                readQuoted style (.digits (left - 1) extended) text rest
              else if extended.isValidChar then
                readQuoted style (.between .none) (Char.ofNat extended :: text) rest
              else
                .error .invalidEscape
      | .between gap =>
          if isBlank glyph.char then
            readQuoted style (.between (gap.addBlank glyph.char)) text rest
          else if isBreak glyph.char then
            readQuoted style (.between (gap.addBreak glyph.char)) text rest
          else if Source.atMarker (glyph :: rest) then
            .error .markerInQuotes
          else if glyph.char = style.mark then
            match style, rest with
            | .single, next :: others =>
                if next.char = '\'' then
                  readQuoted style (.between .none) ('\'' :: gap.fill text) others
                else
                  .ok (gap.fill text, rest)
            | _, _ => .ok (gap.fill text, rest)
          else if style = .double ∧ glyph.char = '\\' then
            readQuoted style .escape (gap.fill text) rest
          else
            readQuoted style (.between .none) (glyph.char :: gap.fill text) rest

/-- Reads a quoted scalar behind its opening quotation mark. -/
def quotedScalar (style : QuoteStyle) (source : Source) :
    Except YamlError (String × Source) := do
  let (text, rest) ← readQuoted style (.between .none) [] source
  return (String.ofList text.reverse, rest)

end Yaml
end InteropHeader
