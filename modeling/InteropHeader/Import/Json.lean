import InteropHeader.Import.Section
import InteropHeader.Json.Value

/-!
# Import sections in JSON

An import section is an object with the list of imports, each with its name and
its kind, and with the module's own header, whose kind comes first, or null.
-/

namespace InteropHeader

namespace ImportOrigin

/-- The name of an origin. -/
def label : ImportOrigin → String
  | host => "host"
  | foreign => "foreign-submodule"

end ImportOrigin

namespace ImportStatement

/-- An import statement as a JSON value. -/
def toJson (statement : ImportStatement) : JsonValue :=
  .object [
    ("name", .string statement.name),
    ("kind", .string statement.origin.label)]

end ImportStatement

namespace OwnHeader

/-- A module's own header as a JSON value. -/
def toJson : OwnHeader → JsonValue
  | umbrella name =>
      .object [("kind", .string "framework"), ("module", .string name)]
  | bridging path =>
      .object [("kind", .string "bridging-header"), ("path", .string path)]

end OwnHeader

namespace ImportSection

/-- An import section as a JSON value. -/
def toJson (imports : ImportSection) : JsonValue :=
  .object [
    ("imports", .array (imports.statements.map ImportStatement.toJson)),
    ("underlying",
      match imports.ownHeader with
      | none => .null
      | some header => header.toJson)]

end ImportSection

end InteropHeader
