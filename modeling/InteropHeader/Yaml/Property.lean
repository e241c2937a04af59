import InteropHeader.Yaml.Scalar.Block
import InteropHeader.Yaml.Scalar.Quoted

/-!
# Anchors, tags and directives

Input:
  the text behind the `&` or `*` of an anchor or alias, the `!` of a tag, or the
  `%` of a directive.

Algorithm:
  an anchor is a word in front of a blank or an indicator.  A tag is written in
  full between angle brackets, or as a handle and a suffix; octets that are
  written as a percent sign and two digits must form sequences of the right
  length.  A directive gives the version of the format or declares a tag handle,
  and nothing but a comment may follow it on its line.
-/

namespace InteropHeader
namespace Yaml

/-- A tag as it is written. -/
inductive Tag
  | full (text : String)
  | shorthand (handle suffix : String)
  deriving DecidableEq, Repr

/-- A directive in front of a document. -/
inductive Directive
  | version (major minor : Nat)
  | tagHandle (handle text : String)
  deriving DecidableEq, Repr

/-- The longest word at the start of a text, and the text behind it. -/
def readWord (source : Source) : String × Source :=
  (Source.toText (source.takeWhile fun glyph => isWord glyph.char),
    source.dropWhile fun glyph => isWord glyph.char)

/-- The text behind blanks. -/
def skipBlanks (source : Source) : Source :=
  source.dropWhile fun glyph => isBlank glyph.char

/-- Reads the name of an anchor. -/
def readAnchor (source : Source) : Except YamlError (String × Source) :=
  let (name, rest) := readWord source
  let closed :=
    rest.endsWord 0 ||
      (rest.char? 0).any fun c => c ∈ ['?', ':', ',', ']', '}', '%', '@', '\x60']
  if name ≠ "" ∧ closed then .ok (name, rest) else .error .malformedAnchor

/-- Whether a character may stand in a tag. -/
def isTagChar (full : Bool) (c : Char) : Bool :=
  isWord c ||
    c ∈ [';', '/', '?', ':', '@', '&', '=', '+', '$', '.', '!', '~', '*', '\'', '(', ')'] ||
    (full && c ∈ [',', '[', ']'])

/-- The number of octets that follow a first octet. -/
def followingOctets? (octet : Nat) : Option Nat :=
  if octet < 0x80 then some 0
  else if octet / 0x20 = 0x6 then some 1
  else if octet / 0x10 = 0xE then some 2
  else if octet / 0x08 = 0x1E then some 3
  else none

/-- Reads the text of a tag, latest character first, written octets as single
characters; `more` octets still belong to the last sequence. -/
def readTagText (full : Bool) (more : Nat) (text : List Char) :
    Source → Except YamlError (List Char × Source)
  | [] => if more = 0 then .ok (text, []) else .error .malformedTag
  | glyph :: rest =>
      if glyph.char = '%' then
        match rest with
        | high :: low :: others =>
            match hexValue? high.char, hexValue? low.char with
            | some high, some low =>
                let octet := 16 * high + low
                if 0 < more then
                  if octet / 0x40 = 2 then
                    readTagText full (more - 1) (Char.ofNat octet :: text) others
                  else
                    .error .malformedTag
                else
                  match followingOctets? octet with
                  | some count =>
                      readTagText full count (Char.ofNat octet :: text) others
                  | none => .error .malformedTag
            | _, _ => .error .malformedTag
        | _ => .error .malformedTag
      else if 0 < more then
        .error .malformedTag
      else if isTagChar full glyph.char then
        readTagText full 0 (glyph.char :: text) rest
      else
        .ok (text, glyph :: rest)

/-- The text of a tag, in order. -/
def tagText (full : Bool) (source : Source) : Except YamlError (String × Source) := do
  let (text, rest) ← readTagText full 0 [] source
  return (String.ofList text.reverse, rest)

/-- A tag and the text behind it, whatever follows. -/
def readOpenTag (source : Source) : Except YamlError (Tag × Source) :=
  if source.has 0 '<' then do
    let (text, rest) ← tagText true (source.drop 1)
    if text ≠ "" ∧ Source.has rest 0 '>' then
      return (.full text, rest.drop 1)
    else
      throw .malformedTag
  else
    let (word, afterWord) := readWord source
    if afterWord.has 0 '!' then do
      let (suffix, rest) ← tagText false (afterWord.drop 1)
      if suffix = "" then
        throw .malformedTag
      return (.shorthand ("!" ++ word ++ "!") suffix, rest)
    else do
      let (more, rest) ← tagText false afterWord
      let suffix := word ++ more
      return (if suffix = "" then .full "!" else .shorthand "!" suffix, rest)

/-- Reads a tag behind its exclamation mark. -/
def readTag (inFlow : Bool) (source : Source) : Except YamlError (Tag × Source) := do
  let (tag, rest) ← readOpenTag source
  if Source.endsWord rest 0 ∨ (inFlow ∧ Source.has rest 0 ',') then
    return (tag, rest)
  else
    throw .malformedTag

/-- Reads a number of at most nine digits. -/
def readVersionNumber (source : Source) : Except YamlError (Nat × Source) :=
  let digits := source.takeWhile fun glyph => glyph.char.isDigit
  if digits.length = 0 ∨ 9 < digits.length then
    .error .malformedDirective
  else
    .ok (digits.foldl (fun n glyph => 10 * n + (glyph.char.toNat - '0'.toNat)) 0,
      source.drop digits.length)

/-- Reads the two numbers of a version. -/
def readVersion (source : Source) : Except YamlError (Directive × Source) := do
  let (major, afterMajor) ← readVersionNumber (skipBlanks source)
  if Source.has afterMajor 0 '.' then
    let (minor, rest) ← readVersionNumber (afterMajor.drop 1)
    return (.version major minor, rest)
  else
    throw .malformedDirective

/-- Reads a tag handle and what it stands for. -/
def readHandle (source : Source) : Except YamlError (Directive × Source) := do
  let start := skipBlanks source
  if !start.has 0 '!' then
    throw .malformedDirective
  let (word, afterWord) := readWord (start.drop 1)
  let (handle, afterHandle) ←
    if afterWord.has 0 '!' then
      pure ("!" ++ word ++ "!", afterWord.drop 1)
    else if word = "" then
      pure ("!", afterWord)
    else
      throw .malformedDirective
  if !(Source.char? afterHandle 0).any isBlank then
    throw .malformedDirective
  let (text, rest) ← tagText true (skipBlanks afterHandle)
  if text = "" ∨ !Source.endsWord rest 0 then
    throw .malformedDirective
  return (.tagHandle handle text, rest)

/-- Reads a directive behind its percent sign, up to the next line. -/
def readDirective (source : Source) : Except YamlError (Directive × Source) := do
  let (name, afterName) := readWord source
  if !afterName.endsWord 0 then
    throw .malformedDirective
  let (directive, rest) ←
    if name = "YAML" then readVersion afterName
    else if name = "TAG" then readHandle afterName
    else throw .malformedDirective
  return (directive, ← skipLineEnd .malformedDirective rest)

end Yaml
end InteropHeader
