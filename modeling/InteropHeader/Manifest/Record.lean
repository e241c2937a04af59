import InteropHeader.Manifest.Basic

/-!
# Reading a manifest from a data format

Input:
  a value of a data format, seen through four questions: is it a text, is it a
  text or absent, is it a list, is it a record?

Algorithm:
  a record is read field by field.  Unknown fields are passed over; a known
  field may stand only once; a missing list is empty, a missing optional text is
  absent, and any other missing field is an error.
-/

namespace InteropHeader

/-- Why a value is no manifest. -/
inductive RecordError
  | missing (field : String)
  | repeated (field : String)
  | mismatch (field expected : String)
  deriving DecidableEq, Repr

namespace RecordError

/-- The wording of an error. -/
def message : RecordError → String
  | missing field => "missing field '" ++ field ++ "'"
  | repeated field => "duplicate field '" ++ field ++ "'"
  | mismatch field expected => field ++ ": expected " ++ expected

end RecordError

/-- The view of a data format that manifests are read through. -/
class RecordFormat (α : Type) where
  text? : α → Option String
  /-- The text that a value is, or that there is none; nothing for other values. -/
  optionalText? : α → Option (Option String)
  items? : α → Option (List α)
  /-- The fields of a record in order. -/
  fields? : α → Option (List (String × α))

namespace RecordFormat

section Fields

variable {α : Type} [RecordFormat α]

/-- The result of a question, or the error that a field holds something else. -/
def expect {β : Type} (field expected : String) :
    Option β → Except RecordError β
  | some answer => .ok answer
  | none => .error (.mismatch field expected)

/-- The value of a field that stands at most once. -/
def field? (fields : List (String × α)) (field : String) :
    Except RecordError (Option α) :=
  match fields.filter (·.1 = field) with
  | [] => .ok none
  | [entry] => .ok (some entry.2)
  | _ => .error (.repeated field)

/-- The text of a required field. -/
def requiredText (fields : List (String × α)) (field : String) :
    Except RecordError String := do
  match ← field? fields field with
  | none => throw (.missing field)
  | some value => expect field "a string" (text? value)

/-- The text of an optional field. -/
def optionalText (fields : List (String × α)) (field : String) :
    Except RecordError (Option String) := do
  match ← field? fields field with
  | none => return none
  | some value => expect field "a string or nothing" (optionalText? value)

/-- The items of a list field, read one by one. -/
def list {β : Type} (fields : List (String × α)) (field : String)
    (read : α → Except RecordError β) : Except RecordError (List β) := do
  match ← field? fields field with
  | none => return []
  | some value =>
      let items ← expect field "a list" (items? value)
      items.mapM read

/-- The fields of a value that must be a record. -/
def record (field : String) (value : α) :
    Except RecordError (List (String × α)) :=
  expect field "a record" (fields? value)

end Fields

end RecordFormat

open RecordFormat

namespace ModuleEntry

/-- Reads the description of a module. -/
def read {α : Type} [RecordFormat α] (value : α) : Except RecordError ModuleEntry := do
  let fields ← record "module" value
  let name ← requiredText fields "name"
  let id ← optionalText fields "id"
  let exportedName ← optionalText fields "exported-name"
  return { name := name, id := id, exportedName := exportedName }

end ModuleEntry

namespace DeclarationEntry

/-- Reads the description of a declaration. -/
def read {α : Type} [RecordFormat α] (value : α) :
    Except RecordError DeclarationEntry := do
  let fields ← record "declaration" value
  let content ← requiredText fields "text"
  let uses ← list fields "uses" fun use => expect "uses" "a string" (text? use)
  return { text := content, uses := uses }

end DeclarationEntry

namespace Manifest

/-- Reads a manifest. -/
def read {α : Type} [RecordFormat α] (value : α) : Except RecordError Manifest := do
  let fields ← record "manifest" value
  let main ← match ← field? fields "module" with
    | none => throw (.missing "module")
    | some entry => ModuleEntry.read entry
  let toolchain ← optionalText fields "toolchain-version"
  let bridging ← optionalText fields "bridging-header"
  let importedHeader ← optionalText fields "imported-header-module"
  let modules ← list fields "modules" ModuleEntry.read
  let objc ← list fields "objc-declarations" DeclarationEntry.read
  let cxx ← list fields "cxx-declarations" DeclarationEntry.read
  return {
    main := main
    toolchain := toolchain
    bridging := bridging
    importedHeader := importedHeader
    modules := modules
    objc := objc
    cxx := cxx }

end Manifest

end InteropHeader
