import InteropHeader.Json.Value
import InteropHeader.Manifest.Record

/-!
# Manifests in JSON

Input:
  a JSON value, or a manifest.

Algorithm:
  only a string is a text, a null optional text is absent, only an array is a
  list and only an object is a record.  An array that lists the fields of a record
  by their positions is left out, although other readers may take it for a record.
  A manifest is written with its fields in a fixed order, absent texts left out
  and lists always given.
-/

namespace InteropHeader

/-- Records are objects, whose fields have keys; an array of fields is none. -/
instance : RecordFormat JsonValue where
  text?
    | .string value => some value
    | _ => none
  optionalText?
    | .string value => some (some value)
    | .null => some none
    | _ => none
  items?
    | .array items => some items
    | _ => none
  fields?
    | .object fields => some fields
    | _ => none

/-- The field of an optional text: none where the text is absent. -/
def optionalField (field : String) : Option String → List (String × JsonValue)
  | none => []
  | some value => [(field, .string value)]

namespace ModuleEntry

/-- The description of a module as a JSON value. -/
def toJson (entry : ModuleEntry) : JsonValue :=
  .object (
    [("name", .string entry.name)] ++
    optionalField "id" entry.id ++
    optionalField "exported-name" entry.exportedName)

end ModuleEntry

namespace DeclarationEntry

/-- The description of a declaration as a JSON value. -/
def toJson (entry : DeclarationEntry) : JsonValue :=
  .object [
    ("text", .string entry.text),
    ("uses", .array (entry.uses.map JsonValue.string))]

end DeclarationEntry

namespace Manifest

/-- A manifest as a JSON value. -/
def toJson (manifest : Manifest) : JsonValue :=
  .object (
    [("module", manifest.main.toJson)] ++
    optionalField "toolchain-version" manifest.toolchain ++
    optionalField "bridging-header" manifest.bridging ++
    optionalField "imported-header-module" manifest.importedHeader ++
    [("modules", .array (manifest.modules.map ModuleEntry.toJson)),
      ("objc-declarations",
        .array (manifest.objc.map DeclarationEntry.toJson)),
      ("cxx-declarations",
        .array (manifest.cxx.map DeclarationEntry.toJson))])

/-- Reads a manifest from a JSON value. -/
def ofJson (value : JsonValue) : Except RecordError Manifest :=
  read value

end Manifest

end InteropHeader
