import InteropHeader.Yaml.Token

/-!
# The nodes of a YAML document

Input:
  the tokens of a text.

Algorithm:
  a document is one node, perhaps between markers and behind directives.  A node
  is an alias, or a scalar, sequence or mapping with an anchor and a tag; where
  a node is left out, an empty plain scalar stands for it.

  An anchor gets as its number how many different names have been anchored
  before, and an alias refers to the number that its name has at that point; if
  a number is given twice, the later node has it.
-/

namespace InteropHeader

/-- A node of a document. -/
inductive YamlNode
  | scalar (text : String) (plain : Bool) (tag : Option String)
  | sequence (items : List YamlNode)
  | mapping (entries : List (YamlNode × YamlNode))
  | alias (number : Nat)

/-- A node with an anchor. -/
structure YamlAnchor where
  /-- The number that aliases refer to. -/
  number : Nat
  /-- How many anchors precede this one. -/
  place : Nat
  node : YamlNode

/-- A document. -/
structure YamlDocument where
  root : YamlNode
  anchors : List YamlAnchor

namespace YamlDocument

/-- The node that has a number: among several the last one in the text. -/
def anchored? (document : YamlDocument) (number : Nat) : Option YamlNode :=
  let candidates := document.anchors.filter (·.number = number)
  let latest := candidates.foldl (fun (best : Option YamlAnchor) candidate =>
    match best with
    | some found => if found.place < candidate.place then some candidate else best
    | none => some candidate) none
  latest.map YamlAnchor.node

/-- The node that a node stands for. -/
def target (document : YamlDocument) : YamlNode → YamlNode
  | .alias number => (document.anchored? number).getD (.scalar "" true none)
  | node => node

end YamlDocument

namespace Yaml

/-- Tokens that are being put together to a document. -/
structure PartialDocument where
  tokens : List Token
  /-- The declared tag handles and what they stand for. -/
  handles : List (String × String) := []
  /-- The anchored names with the numbers that are in force. -/
  names : List (String × Nat) := []
  /-- How many anchors there have been. -/
  places : Nat := 0
  anchors : List YamlAnchor := []

/-- A step that puts tokens together. -/
abbrev Assembly := StateT PartialDocument (Except YamlError)

namespace Assembly

/-- The next token. -/
def peek : Assembly (Option Token) := do
  return (← get).tokens.head?

/-- Passes over the next token. -/
def pass : Assembly Unit :=
  modify fun unfinished => { unfinished with tokens := unfinished.tokens.drop 1 }

/-- Passes over the next token if it is the given one, and tells whether it was. -/
def passIf (token : Token) : Assembly Bool := do
  if (← peek) = some token then
    pass
    return true
  else
    return false

/-- Whether the next token is among the given ones. -/
def nextIn (tokens : List Token) : Assembly Bool := do
  return (← peek).any (· ∈ tokens)

/-- A node that is left out. -/
def absent : YamlNode :=
  .scalar "" true none

/-- The handles that need no declaration. -/
def standardHandles : List (String × String) :=
  [("!", "!"), ("!!", "tag:yaml.org,2002:")]

/-- The full text of a tag. -/
def resolveTag : Tag → Assembly String
  | .full text => return text
  | .shorthand handle suffix => do
      match ((← get).handles ++ standardHandles).find? (·.1 = handle) with
      | some (_, text) => return text ++ suffix
      | none => throw .undefinedTagHandle

/-- An anchor and a tag in front of a node, in either order. -/
def properties : Assembly (Option String × Option Tag) := do
  match ← peek with
  | some (.anchor name) => do
      pass
      match ← peek with
      | some (.tag tag) => do
          pass
          return (some name, some tag)
      | _ => return (some name, none)
  | some (.tag tag) => do
      pass
      match ← peek with
      | some (.anchor name) => do
          pass
          return (some name, some tag)
      | _ => return (none, some tag)
  | _ => return (none, none)

/-- Gives an anchored name its number. -/
def begin (name : String) : Assembly (Nat × Nat) := do
  let unfinished ← get
  let number := unfinished.names.length
  set { unfinished with
    names := (name, number) :: unfinished.names.filter (·.1 ≠ name)
    places := unfinished.places + 1 }
  return (number, unfinished.places)

/-- Keeps the node of an anchor. -/
def keep (anchor : Option (Nat × Nat)) (node : YamlNode) : Assembly Unit :=
  match anchor with
  | none => return ()
  | some (number, place) =>
      modify fun unfinished =>
        { unfinished with anchors := ⟨number, place, node⟩ :: unfinished.anchors }

/-- The alias of a name. -/
def aliasOf (name : String) : Assembly YamlNode := do
  match (← get).names.lookup name with
  | some number => return .alias number
  | none => throw (.unknownAlias name)

mutual

/-- A node.  Inside brackets no block may begin; a sequence that is the value of
a mapping may stand at the mapping's own indentation. -/
def node (work : Nat) (inBlock unindented : Bool) : Assembly YamlNode :=
  match work with
  | 0 => throw .exhausted
  | work + 1 => do
      match ← peek with
      | some (.alias name) => do
          pass
          aliasOf name
      | _ => do
          let (name, tag) ← properties
          let tag ← tag.mapM resolveTag
          let anchor ← name.mapM begin
          let result ← content work inBlock unindented (name.isSome || tag.isSome) tag
          keep anchor result
          return result

/-- A node behind its anchor and tag; with one of them the rest may be left out. -/
def content (work : Nat) (inBlock unindented hasProperty : Bool) (tag : Option String) :
    Assembly YamlNode :=
  match work with
  | 0 => throw .exhausted
  | work + 1 => do
      match ← peek, inBlock, unindented with
      | some .blockEntry, _, true => YamlNode.sequence <$> unindentedItems work
      | some (.scalar text plain), _, _ => do
          pass
          return .scalar text plain (tag.filter (· ≠ "!"))
      | some .flowSequenceStart, _, _ => do
          pass
          YamlNode.sequence <$> flowItems work true
      | some .flowMappingStart, _, _ => do
          pass
          YamlNode.mapping <$> flowEntries work true
      | some .blockSequenceStart, true, _ => do
          pass
          YamlNode.sequence <$> blockItems work
      | some .blockMappingStart, true, _ => do
          pass
          YamlNode.mapping <$> blockEntries work
      | _, _, _ =>
          if hasProperty then return .scalar "" true tag else throw .missingNode

/-- A node, or an absent one in front of one of the given tokens. -/
def nodeBefore (work : Nat) (inBlock unindented : Bool) (stops : List Token) :
    Assembly YamlNode :=
  match work with
  | 0 => throw .exhausted
  | work + 1 => do
      if ← nextIn stops then
        return absent
      else
        node work inBlock unindented

/-- The items of an indented sequence. -/
def blockItems (work : Nat) : Assembly (List YamlNode) :=
  match work with
  | 0 => throw .exhausted
  | work + 1 => do
      if ← passIf .blockEntry then
        let item ← nodeBefore work true false [.blockEntry, .blockEnd]
        let rest ← blockItems work
        return item :: rest
      else if ← passIf .blockEnd then
        return []
      else
        throw .malformedBlockSequence

/-- The items of a sequence at the indentation of the mapping around it. -/
def unindentedItems (work : Nat) : Assembly (List YamlNode) :=
  match work with
  | 0 => throw .exhausted
  | work + 1 => do
      if ← passIf .blockEntry then
        let item ← nodeBefore work true false [.blockEntry, .key, .value, .blockEnd]
        let rest ← unindentedItems work
        return item :: rest
      else
        return []

/-- The entries of an indented mapping. -/
def blockEntries (work : Nat) : Assembly (List (YamlNode × YamlNode)) :=
  match work with
  | 0 => throw .exhausted
  | work + 1 => do
      if ← passIf .key then
        let key ← nodeBefore work true true [.key, .value, .blockEnd]
        let value ←
          if ← passIf .value then
            nodeBefore work true true [.key, .value, .blockEnd]
          else
            pure absent
        let rest ← blockEntries work
        return (key, value) :: rest
      else if ← passIf .blockEnd then
        return []
      else
        throw .malformedBlockMapping

/-- The items of a sequence in brackets; every item but the first follows a
comma. -/
def flowItems (work : Nat) (first : Bool) : Assembly (List YamlNode) :=
  match work with
  | 0 => throw .exhausted
  | work + 1 => do
      if ← passIf .flowSequenceEnd then
        return []
      let separated ← if first then pure true else passIf .flowEntry
      if separated then
        if ← passIf .flowSequenceEnd then
          return []
        else if ← passIf .key then
          let entry ← pair work
          let rest ← flowItems work false
          return .mapping [entry] :: rest
        else
          let item ← node work false false
          let rest ← flowItems work false
          return item :: rest
      else
        throw .malformedFlowSequence

/-- A key with its value that is an item of a sequence in brackets.  A key that
is left out takes the token behind the question mark with it. -/
def pair (work : Nat) : Assembly (YamlNode × YamlNode) :=
  match work with
  | 0 => throw .exhausted
  | work + 1 => do
      let key ←
        if ← nextIn [.value, .flowEntry, .flowSequenceEnd] then do
          pass
          pure absent
        else
          node work false false
      let value ←
        if ← passIf .value then
          nodeBefore work false false [.flowEntry, .flowSequenceEnd]
        else
          pure absent
      return (key, value)

/-- The entries of a mapping in braces; every entry but the first follows a
comma. -/
def flowEntries (work : Nat) (first : Bool) : Assembly (List (YamlNode × YamlNode)) :=
  match work with
  | 0 => throw .exhausted
  | work + 1 => do
      if ← passIf .flowMappingEnd then
        return []
      let separated ← if first then pure true else passIf .flowEntry
      if separated then
        if ← passIf .flowMappingEnd then
          return []
        else if ← passIf .key then
          let key ← nodeBefore work false false [.value, .flowEntry, .flowMappingEnd]
          let value ←
            if ← passIf .value then
              nodeBefore work false false [.flowEntry, .flowMappingEnd]
            else
              pure absent
          let rest ← flowEntries work false
          return (key, value) :: rest
        else
          let key ← node work false false
          let rest ← flowEntries work false
          return (key, absent) :: rest
      else
        throw .malformedFlowMapping

end

/-- Whether two directives may not stand in front of one document. -/
def excludes : Directive → Directive → Bool
  | .version _ _, .version _ _ => true
  | .tagHandle handle _, .tagHandle other _ => handle = other
  | _, _ => false

/-- Checks a directive against those before it. -/
def checkDirective (directive : Directive) (before : List Directive) :
    Except YamlError Unit :=
  if before.any (excludes directive) then
    .error .repeatedDirective
  else
    match directive with
    | .version major minor =>
        if major = 1 ∧ (minor = 1 ∨ minor = 2) then .ok () else .error .unsupportedVersion
    | .tagHandle _ _ => .ok ()

/-- The directives in front of a document, in order, with the tokens behind
them. -/
def readDirectives (before : List Directive) :
    List Token → Except YamlError (List Directive × List Token)
  | .directive directive :: rest => do
      checkDirective directive before
      readDirectives (before ++ [directive]) rest
  | tokens => .ok (before, tokens)

/-- The tag handle that a directive declares. -/
def declaredHandle? : Directive → Option (String × String)
  | .version _ _ => none
  | .tagHandle handle text => some (handle, text)

/-- The node of a document whose marker has been read. -/
def markedRoot (work : Nat) : Assembly YamlNode := do
  match ← peek with
  | none | some (.directive _) | some .documentStart | some .documentEnd =>
      return absent
  | _ => node work true false

/-- The node of the only document. -/
def root (work : Nat) : Assembly YamlNode := do
  match ← peek with
  | none => throw .noDocument
  | some (.directive _) | some .documentStart => do
      let (directives, rest) ← readDirectives [] (← get).tokens
      modify fun unfinished =>
        { unfinished with
          tokens := rest
          handles := directives.filterMap declaredHandle? }
      if ← passIf .documentStart then
        markedRoot work
      else
        throw .missingDocumentStart
  | _ => node work true false

end Assembly

/-- The document that the given tokens are. -/
def documentOfTokens (tokens : List Token) : Except YamlError YamlDocument := do
  let (root, unfinished) ← (Assembly.root (4 * tokens.length + 4)).run { tokens := tokens }
  if unfinished.tokens.all (· = .documentEnd) then
    return { root := root, anchors := unfinished.anchors }
  else
    throw .severalDocuments

end Yaml

namespace YamlDocument

/-- Reads the only document of a text. -/
def ofText (text : String) : Except YamlError YamlDocument := do
  let source ← Yaml.Source.ofText text
  let tokens ← Yaml.tokens source
  Yaml.documentOfTokens tokens

end YamlDocument

end InteropHeader
