/-!
# Errors in YAML text

Each constructor of `YamlError` is one way in which a text is no YAML document,
or one that cannot be read here.
-/

namespace InteropHeader

/-- Why a text is not read as one YAML document. -/
inductive YamlError
  | forbiddenCharacter
  | unexpectedCharacter
  | missingColon
  | misplacedEntry
  | misplacedKey
  | misplacedValue
  | malformedAnchor
  | malformedTag
  | undefinedTagHandle
  | malformedDirective
  | repeatedDirective
  /-- A version of the format other than 1.1 and 1.2. -/
  | unsupportedVersion
  | malformedBlockHeader
  | tabInIndentation
  | unclosedQuote
  | markerInQuotes
  | unknownEscape
  | invalidEscape
  /-- A colon in a place where a plain scalar cannot hold one. -/
  | unexpectedColon
  | missingNode
  | malformedBlockSequence
  | malformedBlockMapping
  | malformedFlowSequence
  | malformedFlowMapping
  | missingDocumentStart
  | unknownAlias (name : String)
  | noDocument
  | severalDocuments
  /-- A text that exceeds the work set aside for it. -/
  | exhausted
  deriving DecidableEq, Repr

namespace YamlError

/-- The wording of an error. -/
def message : YamlError → String
  | forbiddenCharacter => "control characters are not allowed"
  | unexpectedCharacter => "found character that cannot start any token"
  | missingColon => "could not find expected ':'"
  | misplacedEntry => "block sequence entries are not allowed in this context"
  | misplacedKey => "mapping keys are not allowed in this context"
  | misplacedValue => "mapping values are not allowed in this context"
  | malformedAnchor => "did not find expected alphabetic or numeric character"
  | malformedTag => "did not find expected tag URI"
  | undefinedTagHandle => "found undefined tag handle"
  | malformedDirective => "found unknown directive name"
  | repeatedDirective => "found duplicate directive"
  | unsupportedVersion => "found incompatible YAML document"
  | malformedBlockHeader => "did not find expected comment or line break"
  | tabInIndentation => "found a tab character that violates indentation"
  | unclosedQuote => "found unexpected end of stream"
  | markerInQuotes => "found unexpected document indicator"
  | unknownEscape => "found unknown escape character"
  | invalidEscape => "found invalid Unicode character escape code"
  | unexpectedColon => "found unexpected ':'"
  | missingNode => "did not find expected node content"
  | malformedBlockSequence => "did not find expected '-' indicator"
  | malformedBlockMapping => "did not find expected key"
  | malformedFlowSequence => "did not find expected ',' or ']'"
  | malformedFlowMapping => "did not find expected ',' or '\x7d'"
  | missingDocumentStart => "did not find expected <document start>"
  | unknownAlias name => "unknown anchor " ++ name
  | noDocument => "end of stream"
  | severalDocuments => "more than one document"
  | exhausted => "exceeded the work limit"

end YamlError

end InteropHeader
