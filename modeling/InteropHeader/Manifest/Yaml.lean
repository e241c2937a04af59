import InteropHeader.Manifest.Record
import InteropHeader.Yaml.Node

/-!
# Manifests in YAML

Input:
  the text of a manifest.

Algorithm:
  every scalar is a text, whatever it looks like.  An optional text is absent
  where the value is plain and empty or a spelling of null; only a tag that is
  not the one of null makes such a value a text.  An empty plain scalar is an
  empty list.  A record is a mapping whose keys are all scalars.  An alias stands
  for the node with its anchor.  The commands ask for a reader of manifests, and
  this one is the instance.
-/

namespace InteropHeader

/-- A node together with the document that its aliases refer to. -/
structure YamlValue where
  document : YamlDocument
  node : YamlNode

namespace YamlValue

/-- The spellings of null. -/
def nullSpellings : List String :=
  ["null", "Null", "NULL", "~"]

/-- The tag of null. -/
def nullTag : String :=
  "tag:yaml.org,2002:null"

/-- The text that a node is. -/
def text? (value : YamlValue) : Option String :=
  match value.document.target value.node with
  | .scalar text _ _ => some text
  | _ => none

/-- The text that a node is, or that there is none. -/
def optionalText? (value : YamlValue) : Option (Option String) :=
  match value.document.target value.node with
  | .scalar text false _ => some (some text)
  | .scalar text true none =>
      if text = "" ∨ text ∈ nullSpellings then some none else some (some text)
  | .scalar text true (some tag) =>
      if tag = nullTag then
        if text ∈ nullSpellings then some none else none
      else
        some (some text)
  | _ => none

/-- The items of a sequence. -/
def items? (value : YamlValue) : Option (List YamlValue) :=
  match value.document.target value.node with
  | .sequence items => some (items.map fun item => ⟨value.document, item⟩)
  | .scalar "" true _ => some []
  | _ => none

/-- The entry of a mapping whose key is a scalar. -/
def keyed? (document : YamlDocument) (entry : YamlNode × YamlNode) :
    Option (String × YamlValue) :=
  (text? ⟨document, entry.1⟩).map fun key => (key, ⟨document, entry.2⟩)

/-- The entries of a mapping. -/
def fields? (value : YamlValue) : Option (List (String × YamlValue)) :=
  match value.document.target value.node with
  | .mapping entries => entries.mapM (keyed? value.document)
  | _ => none

instance : RecordFormat YamlValue where
  text? := text?
  optionalText? := optionalText?
  items? := items?
  fields? := fields?

end YamlValue

/-- Why a text is no manifest. -/
inductive ManifestError
  | malformed (error : YamlError)
  | unfit (error : RecordError)
  deriving DecidableEq, Repr

namespace ManifestError

/-- The wording of an error. -/
def message : ManifestError → String
  | malformed error => error.message
  | unfit error => error.message

end ManifestError

namespace Manifest

/-- Reads a manifest from YAML text. -/
def ofYaml (text : String) : Except ManifestError Manifest :=
  match YamlDocument.ofText text with
  | .error error => .error (.malformed error)
  | .ok document =>
      match read (⟨document, document.root⟩ : YamlValue) with
      | .error error => .error (.unfit error)
      | .ok manifest => .ok manifest

end Manifest

/-- A way of reading manifests from texts. -/
class ManifestReader where
  ofText : String → Except ManifestError Manifest

/-- Manifests are written in YAML. -/
instance : ManifestReader where
  ofText := Manifest.ofYaml

end InteropHeader
