import InteropHeader.Yaml.Property
import InteropHeader.Yaml.Scalar.Plain

/-!
# The tokens of YAML text

Input:
  characters in place.

Algorithm:
  blocks are found by indentation: a column beyond the current indentation opens
  a block, a column before it closes all blocks that lie deeper.  A key is known
  for a key only when its colon is met; therefore the place of the last token
  that may be a *simple key* is remembered for every level of brackets, and the
  colon inserts the key there.  A simple key must stand on one line and be at
  most 1024 characters away from its colon.  At the indentation of its block a
  token must be such a key.
-/

namespace InteropHeader
namespace Yaml

/-- A token. -/
inductive Token
  | directive (directive : Directive)
  | documentStart
  | documentEnd
  | blockSequenceStart
  | blockMappingStart
  | blockEnd
  | flowSequenceStart
  | flowSequenceEnd
  | flowMappingStart
  | flowMappingEnd
  | blockEntry
  | flowEntry
  /-- What follows is a key. -/
  | key
  /-- What follows is the value of a key. -/
  | value
  | alias (name : String)
  | anchor (name : String)
  | tag (tag : Tag)
  | scalar (text : String) (plain : Bool)
  deriving DecidableEq, Repr

/-- A token that may turn out to be a key. -/
structure SimpleKey where
  position : Nat
  line : Nat
  column : Nat
  required : Bool
  deriving DecidableEq, Repr

/-- Text that is being cut into tokens. -/
structure TokenReader where
  rest : Source
  tokens : Array Token := #[]
  /-- The columns of the open blocks, the innermost first. -/
  indents : List Nat := []
  keyAllowed : Bool := true
  /-- The token that may be a key outside all brackets, or at the innermost
  level of brackets. -/
  simpleKey : Option SimpleKey := none
  /-- The tokens that may be keys at the levels of brackets around, the innermost
  first; its length is the number of open brackets. -/
  outerKeys : List (Option SimpleKey) := []

namespace TokenReader

/-- Whether a bracket is open. -/
def inFlow (reader : TokenReader) : Bool :=
  !reader.outerKeys.isEmpty

/-- Whether the innermost open block is indented to the given column. -/
def isReached (indents : List Nat) (column : Nat) : Bool :=
  indents.head? == some column

/-- The least column of a line that belongs to the innermost open block. -/
def contentColumn (reader : TokenReader) : Nat :=
  match reader.indents with
  | [] => 0
  | column :: _ => column + 1

/-- Adds a token at the end. -/
def push (reader : TokenReader) (token : Token) : TokenReader :=
  { reader with tokens := reader.tokens.push token }

/-- Goes on behind the given number of characters. -/
def skip (reader : TokenReader) (count : Nat) : TokenReader :=
  { reader with rest := reader.rest.drop count }

/-- Opens a block at a column beyond the current indentation; its first token
comes in at the given position. -/
def openBlock (reader : TokenReader) (column position : Nat) (token : Token) : TokenReader :=
  if reader.inFlow then
    reader
  else if reader.indents.all (· < column) then
    { reader with
      indents := column :: reader.indents
      tokens := reader.tokens.insertIdxIfInBounds position token }
  else
    reader

/-- Closes blocks from the innermost on, as long as they lie deeper than asked
for. -/
def closeBlocks (isDeeper : Nat → Bool) (reader : TokenReader) : TokenReader :=
  if reader.inFlow then
    reader
  else
    let closed := reader.indents.takeWhile isDeeper
    { reader with
      indents := reader.indents.drop closed.length
      tokens := reader.tokens ++ Array.replicate closed.length Token.blockEnd }

/-- Gives up the token that might have been a key. -/
def dropKey (reader : TokenReader) : Except YamlError TokenReader :=
  if reader.simpleKey.any SimpleKey.required then
    .error .missingColon
  else
    .ok { reader with simpleKey := none }

/-- Remembers that the token at the given place may be a key. -/
def saveKey (reader : TokenReader) (glyph : Glyph) : Except YamlError TokenReader :=
  if reader.keyAllowed then do
    let cleared ← reader.dropKey
    return { cleared with
      simpleKey := some {
        position := reader.tokens.size
        line := glyph.line
        column := glyph.column
        required := !reader.inFlow && isReached reader.indents glyph.column } }
  else
    .ok reader

/-- Whether a token can no longer be the key of a colon at the given place. -/
def isStale (glyph : Glyph) (key : SimpleKey) : Bool :=
  key.line < glyph.line || key.column + 1024 < glyph.column

/-- Gives up a token that can no longer be a key. -/
def refreshKey (glyph : Glyph) (key : Option SimpleKey) :
    Except YamlError (Option SimpleKey) :=
  match key.filter (isStale glyph) with
  | none => .ok key
  | some stale => if stale.required then .error .missingColon else .ok none

/-- Gives up all tokens that can no longer be keys. -/
def refreshKeys (reader : TokenReader) (glyph : Glyph) : Except YamlError TokenReader := do
  let simpleKey ← refreshKey glyph reader.simpleKey
  let outerKeys ← reader.outerKeys.mapM (refreshKey glyph)
  return { reader with simpleKey := simpleKey, outerKeys := outerKeys }

/-- The text from the next token on, and whether a simple key may begin there. -/
def skipToToken (inFlow keyAllowed inComment : Bool) : Source → Source × Bool
  | [] => ([], keyAllowed)
  | glyph :: rest =>
      if isBreak glyph.char then
        skipToToken inFlow (keyAllowed || !inFlow) false rest
      else if inComment then
        skipToToken inFlow keyAllowed true rest
      else if glyph.char = ' ' ∨ (glyph.char = '\t' ∧ (inFlow ∨ !keyAllowed)) then
        skipToToken inFlow keyAllowed false rest
      else if glyph.char = '#' then
        skipToToken inFlow keyAllowed true rest
      else
        (glyph :: rest, keyAllowed)

/-- A token that stands for nothing but itself and leaves no key open. -/
def sign (reader : TokenReader) (token : Token) (length : Nat) (keyAllowed : Bool) :
    Except YamlError TokenReader := do
  let cleared ← reader.dropKey
  return { (cleared.push token).skip length with keyAllowed := keyAllowed }

/-- A marker at the start of a line, which ends all blocks. -/
def marker (reader : TokenReader) (token : Token) : Except YamlError TokenReader :=
  (reader.closeBlocks fun _ => true).sign token 3 false

/-- A directive, which ends all blocks. -/
def directive (reader : TokenReader) : Except YamlError TokenReader := do
  let cleared ← (reader.closeBlocks fun _ => true).dropKey
  let (directive, rest) ← readDirective (reader.rest.drop 1)
  return { cleared.push (.directive directive) with rest := rest, keyAllowed := false }

/-- An opening bracket or brace. -/
def openFlow (reader : TokenReader) (glyph : Glyph) (token : Token) :
    Except YamlError TokenReader := do
  let saved ← reader.saveKey glyph
  return { (saved.push token).skip 1 with
    keyAllowed := true
    simpleKey := none
    outerKeys := saved.simpleKey :: saved.outerKeys }

/-- A closing bracket or brace. -/
def closeFlow (reader : TokenReader) (token : Token) : Except YamlError TokenReader := do
  let cleared ← reader.dropKey
  let closed :=
    match cleared.outerKeys with
    | [] => cleared
    | key :: outer => { cleared with simpleKey := key, outerKeys := outer }
  return { (closed.push token).skip 1 with keyAllowed := false }

/-- Opens a block for an entry or key at the given place, where one may begin. -/
def beginInBlock (reader : TokenReader) (glyph : Glyph) (token : Token)
    (misplaced : YamlError) : Except YamlError TokenReader :=
  if reader.inFlow then
    .ok reader
  else if reader.keyAllowed then
    .ok (reader.openBlock glyph.column reader.tokens.size token)
  else
    .error misplaced

/-- The dash of an entry. -/
def entry (reader : TokenReader) (glyph : Glyph) : Except YamlError TokenReader := do
  let opened ← reader.beginInBlock glyph .blockSequenceStart .misplacedEntry
  opened.sign .blockEntry 1 true

/-- The question mark of a key. -/
def complexKey (reader : TokenReader) (glyph : Glyph) : Except YamlError TokenReader := do
  let opened ← reader.beginInBlock glyph .blockMappingStart .misplacedKey
  opened.sign .key 1 (!reader.inFlow)

/-- The colon of a value. -/
def valueSign (reader : TokenReader) (glyph : Glyph) : Except YamlError TokenReader :=
  match reader.simpleKey with
  | some key =>
      let keyed :=
        { reader with
          tokens := reader.tokens.insertIdxIfInBounds key.position .key
          simpleKey := none }
      let opened := keyed.openBlock key.column key.position .blockMappingStart
      .ok { (opened.push .value).skip 1 with keyAllowed := false }
  | none => do
      let opened ← reader.beginInBlock glyph .blockMappingStart .misplacedValue
      return { (opened.push .value).skip 1 with keyAllowed := !reader.inFlow }

/-- An anchor or an alias. -/
def anchor (reader : TokenReader) (glyph : Glyph) (token : String → Token) :
    Except YamlError TokenReader := do
  let saved ← reader.saveKey glyph
  let (name, rest) ← readAnchor (reader.rest.drop 1)
  return { saved.push (token name) with rest := rest, keyAllowed := false }

/-- A tag. -/
def tag (reader : TokenReader) (glyph : Glyph) : Except YamlError TokenReader := do
  let saved ← reader.saveKey glyph
  let (tag, rest) ← readTag reader.inFlow (reader.rest.drop 1)
  return { saved.push (.tag tag) with rest := rest, keyAllowed := false }

/-- A block scalar. -/
def block (reader : TokenReader) (folded : Bool) : Except YamlError TokenReader := do
  let cleared ← reader.dropKey
  let (text, rest) ← blockScalar folded reader.contentColumn (reader.rest.drop 1)
  return { cleared.push (.scalar text false) with rest := rest, keyAllowed := true }

/-- A quoted scalar. -/
def quoted (reader : TokenReader) (glyph : Glyph) (style : QuoteStyle) :
    Except YamlError TokenReader := do
  let saved ← reader.saveKey glyph
  let (text, rest) ← quotedScalar style (reader.rest.drop 1)
  return { saved.push (.scalar text false) with rest := rest, keyAllowed := false }

/-- A plain scalar; a line break behind it lets a simple key begin. -/
def plain (reader : TokenReader) (glyph : Glyph) : Except YamlError TokenReader := do
  let saved ← reader.saveKey glyph
  let scalar ← plainScalar reader.inFlow reader.contentColumn reader.rest
  return { saved.push (.scalar scalar.text true) with
    rest := scalar.rest
    keyAllowed := scalar.broken }

/-- The characters that have a meaning of their own at the start of a token. -/
def indicators : List Char :=
  ['-', '?', ':', ',', '[', ']', '{', '}', '#', '&', '*', '!', '|', '>', '\'', '"',
    '%', '@', '\x60']

/-- Whether a plain scalar may begin with the given text. -/
def beginsPlain (inFlow : Bool) (source : Source) : Bool :=
  match source.char? 0 with
  | none => false
  | some c =>
      (!isBlank c && !isBreak c && c ∉ indicators) ||
        (c = '-' && !(source.char? 1).any isBlank) ||
        (!inFlow && (c = '?' || c = ':') && !source.endsWord 1)

/-- Reads the next token, which begins at the given character. -/
def token (reader : TokenReader) (glyph : Glyph) : Except YamlError TokenReader :=
  let here := reader.rest
  let atWordEnd := here.endsWord 1
  if glyph.column = 0 ∧ glyph.char = '%' then reader.directive
  else if here.marks '-' then reader.marker .documentStart
  else if here.marks '.' then reader.marker .documentEnd
  else if glyph.char = '[' then reader.openFlow glyph .flowSequenceStart
  else if glyph.char = '{' then reader.openFlow glyph .flowMappingStart
  else if glyph.char = ']' then reader.closeFlow .flowSequenceEnd
  else if glyph.char = '}' then reader.closeFlow .flowMappingEnd
  else if glyph.char = ',' then reader.sign .flowEntry 1 true
  else if glyph.char = '-' ∧ atWordEnd then reader.entry glyph
  else if glyph.char = '?' ∧ (reader.inFlow ∨ atWordEnd) then reader.complexKey glyph
  else if glyph.char = ':' ∧ (reader.inFlow ∨ atWordEnd) then reader.valueSign glyph
  else if glyph.char = '*' then reader.anchor glyph .alias
  else if glyph.char = '&' then reader.anchor glyph .anchor
  else if glyph.char = '!' then reader.tag glyph
  else if glyph.char = '|' ∧ !reader.inFlow then reader.block false
  else if glyph.char = '>' ∧ !reader.inFlow then reader.block true
  else if glyph.char = '\'' then reader.quoted glyph .single
  else if glyph.char = '"' then reader.quoted glyph .double
  else if beginsPlain reader.inFlow here then reader.plain glyph
  else .error .unexpectedCharacter

/-- Passes over blanks and comments, and then reads one token; at the end of the
text it closes all blocks. -/
def advance (reader : TokenReader) : Except YamlError TokenReader :=
  let (rest, keyAllowed) :=
    skipToToken reader.inFlow reader.keyAllowed false reader.rest
  let moved := { reader with rest := rest, keyAllowed := keyAllowed }
  match rest with
  | [] => (moved.closeBlocks fun _ => true).dropKey
  | glyph :: _ => do
      let refreshed ← moved.refreshKeys glyph
      (refreshed.closeBlocks fun column => glyph.column < column).token glyph

/-- Reads tokens up to the end of the text; every round reads at least one
character, so the length of the text bounds their number. -/
def run (rounds : Nat) (reader : TokenReader) : Except YamlError (Array Token) :=
  match rounds with
  | 0 => .error .exhausted
  | rounds + 1 => do
      let next ← reader.advance
      if next.rest.isEmpty then
        let ended ← next.advance
        return ended.tokens
      else
        next.run rounds

end TokenReader

/-- The tokens of a text. -/
def tokens (source : Source) : Except YamlError (List Token) :=
  Array.toList <$> ({ rest := source : TokenReader }).run (source.length + 1)

end Yaml
end InteropHeader
