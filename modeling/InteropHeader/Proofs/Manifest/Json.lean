import Mathlib.Data.List.Forall2
import InteropHeader.Manifest.Json
import InteropHeader.Proofs.Outcome

/-!
# Manifests to JSON and back

Input:
  a manifest, or a JSON value that a manifest is read from.

Algorithm:
  a record is *tidied* by a list of shapes, one for each field it knows: a field
  without a shape is dropped, a given value is kept as its shape says, and the
  shape of a list gives an empty list where the field is missing.

Results:
  * `perm_tidyFields`: up to order, the fields of a tidied record are what each
    shape makes of the record;
  * `read_eq_ok_iff`, for each kind of record: how a record is read;
  * `Manifest.ofJson_toJson`: a manifest is read back from what is written of it;
  * `Manifest.toJson_same_of_read`: what is written of a manifest is the value it was
    read from, tidied;
  * `Manifest.survivesJson`: the two together, for manifests and for the records in them.
-/

namespace InteropHeader

namespace JsonValue

/-- Equality of values up to the order of the fields in their objects. -/
inductive Same : JsonValue → JsonValue → Prop
  | null : Same null null
  | bool (value : Bool) : Same (bool value) (bool value)
  | number (value : Int) : Same (number value) (number value)
  | string (value : String) : Same (string value) (string value)
  | array {items others : List JsonValue} (h : List.Forall₂ Same items others) :
      Same (array items) (array others)
  /-- Key by key and value by value, the fields are those of the other object in
  some order. -/
  | object {fields ordered others : List (String × JsonValue)}
      (hkeys : fields.map Prod.fst = ordered.map Prod.fst)
      (hvalues : List.Forall₂ Same (fields.map Prod.snd) (ordered.map Prod.snd))
      (order : ordered.Perm others) :
      Same (object fields) (object others)

/-- Fields with the same keys, in the same order, and with the same values. -/
def SameFields : List (String × JsonValue) → List (String × JsonValue) → Prop :=
  List.Forall₂ fun field other => field.1 = other.1 ∧ Same field.2 other.2

namespace SameFields

theorem append
    {first second third fourth : List (String × JsonValue)}
    (h : SameFields first second) (hnext : SameFields third fourth) :
    SameFields (first ++ third) (second ++ fourth) :=
  List.rel_append h hnext

theorem same_object
    {fields ordered others : List (String × JsonValue)}
    (h : SameFields fields ordered) (order : ordered.Perm others) :
    Same (object fields) (object others) := by
  refine .object ?_ ?_ order
  · rw [← List.forall₂_eq_eq_eq, List.forall₂_map_left_iff, List.forall₂_map_right_iff]
    exact h.imp fun _ _ hfield => hfield.1
  · rw [List.forall₂_map_left_iff, List.forall₂_map_right_iff]
    exact h.imp fun _ _ hfield => hfield.2

end SameFields

end JsonValue

open JsonValue

/-- What a record knows of one of its fields. -/
structure FieldShape where
  key : String
  /-- What a given value is kept as, if it is kept. -/
  keep : JsonValue → Option JsonValue
  /-- The value where none is given, if there is one. -/
  default? : Option JsonValue

namespace FieldShape

/-- A field that is always given. -/
def required (key : String) (tidy : JsonValue → JsonValue := fun value => value) :
    FieldShape where
  key := key
  keep value := some (tidy value)
  default? := none

/-- A field that may be missing; null stands for a missing one. -/
def optional (key : String) : FieldShape where
  key := key
  keep
    | .null => none
    | value => some value
  default? := none

/-- A list that is empty where it is missing. -/
def list (key : String) (tidy : JsonValue → JsonValue := fun value => value) :
    FieldShape where
  key := key
  keep
    | .array items => some (.array (items.map tidy))
    | value => some value
  default? := some (.array [])

/-- A field of a record as a shape keeps it, if it is the field of the shape. -/
def keepField (shape : FieldShape) (field : String × JsonValue) :
    Option (String × JsonValue) :=
  if field.1 = shape.key then (shape.keep field.2).map (shape.key, ·) else none

/-- What a shape adds to a record without its field. -/
def addedTo (shape : FieldShape) (fields : List (String × JsonValue)) :
    Option (String × JsonValue) :=
  if shape.key ∈ fields.map Prod.fst then none else shape.default?.map (shape.key, ·)

/-- The fields of a record without those that have no shape and those that are
not kept, and with the missing ones that a shape adds. -/
def tidyFields (shapes : List FieldShape) (fields : List (String × JsonValue)) :
    List (String × JsonValue) :=
  fields.filterMap (fun field => shapes.findSome? (·.keepField field)) ++
    shapes.filterMap (·.addedTo fields)

/-- A record tidied by the shapes of its fields. -/
def tidy (shapes : List FieldShape) : JsonValue → JsonValue
  | .object fields => .object (tidyFields shapes fields)
  | value => value

end FieldShape

/-- The description of a module, tidied. -/
def ModuleEntry.tidy : JsonValue → JsonValue :=
  FieldShape.tidy [.required "name", .optional "id", .optional "exported-name"]

/-- The description of a declaration, tidied. -/
def DeclarationEntry.tidy : JsonValue → JsonValue :=
  FieldShape.tidy [.required "text", .list "uses"]

/-- A manifest, tidied. -/
def Manifest.tidy : JsonValue → JsonValue :=
  FieldShape.tidy [
    .required "module" ModuleEntry.tidy,
    .optional "toolchain-version",
    .optional "bridging-header",
    .optional "imported-header-module",
    .list "modules" ModuleEntry.tidy,
    .list "objc-declarations" DeclarationEntry.tidy,
    .list "cxx-declarations" DeclarationEntry.tidy]

namespace FieldShape

/-- All that a shape makes of a record. -/
def writtenOf (shape : FieldShape) (fields : List (String × JsonValue)) :
    List (String × JsonValue) :=
  fields.filterMap shape.keepField ++ (shape.addedTo fields).toList

theorem findSome?_keepField_eq_none
    {shapes : List FieldShape} {field : String × JsonValue}
    (h : ∀ shape ∈ shapes, field.1 ≠ shape.key) :
    shapes.findSome? (·.keepField field) = none := by
  rw [List.findSome?_eq_none_iff]
  intro shape hshape
  exact if_neg (h shape hshape)

/-- The fields kept by one shape can be taken out of those kept by all. -/
theorem perm_keepField_cons
    {shape : FieldShape} {rest : List FieldShape}
    (h : ∀ other ∈ rest, shape.key ≠ other.key)
    (fields : List (String × JsonValue)) :
    (fields.filterMap fun field =>
      (shape :: rest).findSome? (·.keepField field)).Perm
        (fields.filterMap shape.keepField ++
          fields.filterMap fun field => rest.findSome? (·.keepField field)) := by
  induction fields with
  | nil =>
      exact .nil
  | cons field fields ih =>
      cases hkept : shape.keepField field with
      | none =>
          cases hrest : rest.findSome? (·.keepField field) with
          | none =>
              simpa [hkept, hrest] using ih
          | some kept =>
              simpa [hkept, hrest] using
                (ih.cons kept).trans List.perm_middle.symm
      | some kept =>
          have hkey : field.1 = shape.key := by
            by_contra hne
            simp [keepField, hne] at hkept
          have hrest : rest.findSome? (·.keepField field) = none :=
            findSome?_keepField_eq_none fun other hother => hkey ▸ h other hother
          simpa [hkept, hrest] using ih.cons kept

/-- Up to order, a tidied record is what each shape makes of the record. -/
theorem perm_tidyFields
    {shapes : List FieldShape} (h : (shapes.map key).Nodup)
    (fields : List (String × JsonValue)) :
    (tidyFields shapes fields).Perm (shapes.flatMap (·.writtenOf fields)) := by
  induction shapes with
  | nil =>
      simp [tidyFields]
  | cons shape rest ih =>
      rw [List.map_cons, List.nodup_cons] at h
      have hkey : ∀ other ∈ rest, shape.key ≠ other.key := fun other hother heq =>
        h.1 (heq ▸ List.mem_map_of_mem hother)
      have hadded :
          (shape :: rest).filterMap (·.addedTo fields) =
            (shape.addedTo fields).toList ++ rest.filterMap (·.addedTo fields) := by
        cases hone : shape.addedTo fields <;> simp [hone]
      have hmoved :
          (tidyFields (shape :: rest) fields).Perm
            (shape.writtenOf fields ++ tidyFields rest fields) := by
        refine ((perm_keepField_cons hkey fields).append_right _).trans ?_
        rw [hadded, tidyFields, writtenOf]
        simpa only [List.append_assoc] using
          (List.perm_append_comm_assoc _ _ _).append_left (fields.filterMap shape.keepField)
      rw [List.flatMap_cons]
      exact hmoved.trans ((ih h.2).append_left _)

end FieldShape

namespace RecordFormat

variable {fields : List (String × JsonValue)} {key : String}

theorem field?_eq_ok_iff {given : Option JsonValue} :
    field? fields key = .ok given
      ↔
    fields.filter (·.1 = key) = (given.map (key, ·)).toList := by
  rw [field?]
  cases hfilter : fields.filter (·.1 = key) with
  | nil =>
      cases given <;> simp
  | cons field rest =>
      have hkey : field.1 = key := by
        have hmem : field ∈ fields.filter (·.1 = key) := by
          simp [hfilter]
        simpa using (List.mem_filter.1 hmem).2
      obtain ⟨_, value⟩ := field
      cases hkey
      cases rest <;> cases given <;> simp

theorem requiredText_eq_ok_iff {text : String} :
    requiredText fields key = .ok text
      ↔
    field? fields key = .ok (some (.string text)) := by
  rw [requiredText, Outcome.bind_eq_ok_iff]
  constructor
  · rintro ⟨given, hgiven, h⟩
    rcases given with _ | _ | _ | _ | _ | _ | _ <;> cases h
    exact hgiven
  · intro h
    exact ⟨_, h, rfl⟩

theorem optionalText_eq_ok_iff {text : Option String} :
    optionalText fields key = .ok text
      ↔
    (text = none ∧ (field? fields key = .ok none ∨ field? fields key = .ok (some .null))) ∨
      ∃ value, text = some value ∧ field? fields key = .ok (some (.string value)) := by
  rw [optionalText, Outcome.bind_eq_ok_iff]
  constructor
  · rintro ⟨given, hgiven, h⟩
    rcases given with _ | _ | _ | _ | value | _ | _ <;> cases h
    · exact .inl ⟨rfl, .inl hgiven⟩
    · exact .inl ⟨rfl, .inr hgiven⟩
    · exact .inr ⟨value, rfl, hgiven⟩
  · rintro (⟨rfl, h | h⟩ | ⟨value, rfl, h⟩) <;> exact ⟨_, h, rfl⟩

theorem list_eq_ok_iff
    {β : Type} {read : JsonValue → Except RecordError β} {members : List β} :
    RecordFormat.list fields key read = .ok members
      ↔
    (members = [] ∧ field? fields key = .ok none) ∨
      ∃ items, field? fields key = .ok (some (.array items)) ∧
        items.mapM read = .ok members := by
  rw [RecordFormat.list, Outcome.bind_eq_ok_iff]
  constructor
  · rintro ⟨given, hgiven, h⟩
    rcases given with _ | _ | _ | _ | _ | items | _
    · cases h
      exact .inl ⟨rfl, hgiven⟩
    · cases h
    · cases h
    · cases h
    · cases h
    · exact .inr ⟨items, hgiven, h⟩
    · cases h
  · rintro (⟨rfl, h⟩ | ⟨items, h, hitems⟩)
    · exact ⟨_, h, rfl⟩
    · exact ⟨_, h, hitems⟩

end RecordFormat

open RecordFormat

section Writing

variable {fields : List (String × JsonValue)} {key : String}

@[simp] theorem filter_optionalField (field key : String) (text : Option String) :
    (optionalField field text).filter (·.1 = key) =
      if field = key then optionalField field text else [] := by
  cases text <;> by_cases h : field = key <;> simp [optionalField, h]

theorem requiredText_of_filter
    {text : String} (h : fields.filter (·.1 = key) = [(key, .string text)]) :
    requiredText fields key = .ok text :=
  requiredText_eq_ok_iff.2 (field?_eq_ok_iff.2 h)

theorem optionalText_of_filter
    {text : Option String} (h : fields.filter (·.1 = key) = optionalField key text) :
    optionalText fields key = .ok text := by
  cases text with
  | none =>
      exact optionalText_eq_ok_iff.2 (.inl ⟨rfl, .inl (field?_eq_ok_iff.2 h)⟩)
  | some value =>
      exact optionalText_eq_ok_iff.2 (.inr ⟨value, rfl, field?_eq_ok_iff.2 h⟩)

/-- A list is read back from what is written of it if each of its members is. -/
theorem list_of_filter
    {β : Type} {read : JsonValue → Except RecordError β} {write : β → JsonValue}
    {members : List β} (hread : ∀ member, read (write member) = .ok member)
    (h : fields.filter (·.1 = key) = [(key, .array (members.map write))]) :
    RecordFormat.list fields key read = .ok members := by
  refine list_eq_ok_iff.2 (.inr ⟨_, field?_eq_ok_iff.2 h, ?_⟩)
  rw [Outcome.mapM_eq_ok_iff, List.forall₂_map_left_iff, List.forall₂_same]
  exact fun member _ => hread member

end Writing

theorem record_eq_ok_iff
    {field : String} {value : JsonValue} {fields : List (String × JsonValue)} :
    record field value = .ok fields ↔ value = .object fields := by
  cases value with
  | object others =>
      simp [record, expect, fields?]
  | _ =>
      exact iff_of_false nofun nofun

theorem ModuleEntry.read_eq_ok_iff {value : JsonValue} {entry : ModuleEntry} :
    ModuleEntry.read value = .ok entry
      ↔
    ∃ fields, value = .object fields ∧
      requiredText fields "name" = .ok entry.name ∧
      optionalText fields "id" = .ok entry.id ∧
      optionalText fields "exported-name" = .ok entry.exportedName := by
  rw [read, Outcome.bind_eq_ok_iff]
  constructor
  · rintro ⟨fields, hfields, h⟩
    obtain ⟨name, hname, h⟩ := Outcome.bind_eq_ok_iff.1 h
    obtain ⟨id, hid, h⟩ := Outcome.bind_eq_ok_iff.1 h
    obtain ⟨exportedName, hexported, h⟩ := Outcome.bind_eq_ok_iff.1 h
    cases h
    exact ⟨fields, record_eq_ok_iff.1 hfields, hname, hid, hexported⟩
  · rintro ⟨fields, rfl, hname, hid, hexported⟩
    refine ⟨fields, rfl, ?_⟩
    rw [hname, Outcome.ok_bind, hid, Outcome.ok_bind, hexported, Outcome.ok_bind]
    rfl

/-- How the items of a list of uses are read. -/
def DeclarationEntry.readUse (use : JsonValue) : Except RecordError String :=
  expect "uses" "a string" (text? use)

theorem DeclarationEntry.readUse_string (use : String) :
    readUse (.string use) = .ok use := by
  rfl

theorem DeclarationEntry.read_eq_ok_iff {value : JsonValue} {entry : DeclarationEntry} :
    DeclarationEntry.read value = .ok entry
      ↔
    ∃ fields, value = .object fields ∧
      requiredText fields "text" = .ok entry.text ∧
      RecordFormat.list fields "uses" readUse = .ok entry.uses := by
  rw [read, Outcome.bind_eq_ok_iff]
  constructor
  · rintro ⟨fields, hfields, h⟩
    obtain ⟨content, hcontent, h⟩ := Outcome.bind_eq_ok_iff.1 h
    obtain ⟨uses, huses, h⟩ := Outcome.bind_eq_ok_iff.1 h
    cases h
    exact ⟨fields, record_eq_ok_iff.1 hfields, hcontent, huses⟩
  · rintro ⟨fields, rfl, hcontent, huses⟩
    refine ⟨fields, rfl, ?_⟩
    rw [hcontent, Outcome.ok_bind]
    exact Outcome.bind_eq_ok_iff.2 ⟨_, huses, rfl⟩

theorem Manifest.read_eq_ok_iff {value : JsonValue} {manifest : Manifest} :
    Manifest.read value = .ok manifest
      ↔
    ∃ fields, value = .object fields ∧
      (∃ main, field? fields "module" = .ok (some main) ∧
        ModuleEntry.read main = .ok manifest.main) ∧
      optionalText fields "toolchain-version" = .ok manifest.toolchain ∧
      optionalText fields "bridging-header" = .ok manifest.bridging ∧
      optionalText fields "imported-header-module" = .ok manifest.importedHeader ∧
      RecordFormat.list fields "modules" ModuleEntry.read = .ok manifest.modules ∧
      RecordFormat.list fields "objc-declarations" DeclarationEntry.read =
        .ok manifest.objc ∧
      RecordFormat.list fields "cxx-declarations" DeclarationEntry.read =
        .ok manifest.cxx := by
  rw [read, Outcome.bind_eq_ok_iff]
  constructor
  · rintro ⟨fields, hfields, h⟩
    obtain ⟨given, hgiven, h⟩ := Outcome.bind_eq_ok_iff.1 h
    cases given with
    | none =>
        cases h
    | some value =>
        obtain ⟨main, hmain, h⟩ := Outcome.bind_eq_ok_iff.1 h
        obtain ⟨toolchain, htoolchain, h⟩ := Outcome.bind_eq_ok_iff.1 h
        obtain ⟨bridging, hbridging, h⟩ := Outcome.bind_eq_ok_iff.1 h
        obtain ⟨importedHeader, himported, h⟩ := Outcome.bind_eq_ok_iff.1 h
        obtain ⟨modules, hmodules, h⟩ := Outcome.bind_eq_ok_iff.1 h
        obtain ⟨objc, hobjc, h⟩ := Outcome.bind_eq_ok_iff.1 h
        obtain ⟨cxx, hcxx, h⟩ := Outcome.bind_eq_ok_iff.1 h
        cases h
        exact ⟨fields, record_eq_ok_iff.1 hfields, ⟨value, hgiven, hmain⟩, htoolchain,
          hbridging, himported, hmodules, hobjc, hcxx⟩
  · rintro ⟨fields, rfl, ⟨value, hgiven, hmain⟩, htoolchain, hbridging, himported, hmodules,
      hobjc, hcxx⟩
    refine ⟨fields, rfl, Outcome.bind_eq_ok_iff.2 ⟨some value, hgiven, ?_⟩⟩
    refine Outcome.bind_eq_ok_iff.2 ⟨_, hmain, ?_⟩
    dsimp only
    rw [htoolchain, Outcome.ok_bind, hbridging, Outcome.ok_bind, himported, Outcome.ok_bind,
      hmodules, Outcome.ok_bind, hobjc, Outcome.ok_bind, hcxx, Outcome.ok_bind]
    rfl

theorem ModuleEntry.read_toJson (entry : ModuleEntry) :
    ModuleEntry.read entry.toJson = .ok entry := by
  refine read_eq_ok_iff.2 ⟨_, rfl, requiredText_of_filter ?_, optionalText_of_filter ?_,
    optionalText_of_filter ?_⟩ <;> simp

theorem DeclarationEntry.read_toJson (entry : DeclarationEntry) :
    DeclarationEntry.read entry.toJson = .ok entry := by
  refine read_eq_ok_iff.2 ⟨_, rfl, requiredText_of_filter ?_,
    list_of_filter readUse_string ?_⟩ <;> simp

/-- A manifest is read back from what is written of it. -/
theorem Manifest.ofJson_toJson (manifest : Manifest) :
    Manifest.ofJson manifest.toJson = .ok manifest := by
  refine read_eq_ok_iff.2 ⟨_, rfl, ⟨_, field?_eq_ok_iff.2 ?_, manifest.main.read_toJson⟩,
    optionalText_of_filter ?_, optionalText_of_filter ?_, optionalText_of_filter ?_,
    list_of_filter ModuleEntry.read_toJson ?_,
    list_of_filter DeclarationEntry.read_toJson ?_,
    list_of_filter DeclarationEntry.read_toJson ?_⟩ <;> simp

section Tidying

variable {fields : List (String × JsonValue)} {key : String}

/-- A field that stands at most once is kept or added as its shape says. -/
theorem FieldShape.writtenOf_eq
    {shape : FieldShape} {given : Option JsonValue}
    (h : field? fields shape.key = .ok given) :
    shape.writtenOf fields =
      ((given.elim shape.default? shape.keep).map (shape.key, ·)).toList := by
  rw [field?_eq_ok_iff] at h
  have hkept :
      fields.filterMap shape.keepField =
        (fields.filter (·.1 = shape.key)).filterMap
          fun field => (shape.keep field.2).map (shape.key, ·) := by
    simp only [List.filterMap_filter, decide_eq_true_eq]
    exact List.filterMap_congr fun field _ => rfl
  rw [writtenOf, hkept, addedTo, h]
  cases given with
  | none =>
      have hmissing : shape.key ∉ fields.map Prod.fst := by
        intro hmem
        obtain ⟨field, hfield, hkey⟩ := List.mem_map.1 hmem
        exact List.filter_eq_nil_iff.1 h field hfield (by simpa using hkey)
      simp [hmissing]
  | some value =>
      have hfield : (shape.key, value) ∈ fields := by
        have hmem : (shape.key, value) ∈ fields.filter (·.1 = shape.key) := by
          simp [h]
        exact (List.mem_filter.1 hmem).1
      have hstands : shape.key ∈ fields.map Prod.fst :=
        List.mem_map_of_mem hfield
      cases hvalue : shape.keep value <;> simp [hstands, hvalue]

theorem sameFields_required
    {tidy : JsonValue → JsonValue} {value written : JsonValue}
    (h : field? fields key = .ok (some value)) (hwritten : Same written (tidy value)) :
    SameFields [(key, written)] ((FieldShape.required key tidy).writtenOf fields) := by
  rw [FieldShape.writtenOf_eq h]
  exact .cons ⟨rfl, hwritten⟩ .nil

theorem sameFields_requiredText
    {text : String} (h : requiredText fields key = .ok text) :
    SameFields [(key, .string text)] ((FieldShape.required key).writtenOf fields) :=
  sameFields_required (requiredText_eq_ok_iff.1 h) (.string text)

theorem sameFields_optionalText
    {text : Option String} (h : optionalText fields key = .ok text) :
    SameFields (optionalField key text) ((FieldShape.optional key).writtenOf fields) := by
  rcases optionalText_eq_ok_iff.1 h with ⟨rfl, hgiven | hgiven⟩ | ⟨value, rfl, hgiven⟩ <;>
    rw [FieldShape.writtenOf_eq hgiven]
  · exact .nil
  · exact .nil
  · exact .cons ⟨rfl, .string value⟩ .nil

theorem sameFields_list
    {β : Type} {read : JsonValue → Except RecordError β} {write : β → JsonValue}
    {tidy : JsonValue → JsonValue} {members : List β}
    (hread : ∀ {value : JsonValue} {member : β},
      read value = .ok member → Same (write member) (tidy value))
    (h : RecordFormat.list fields key read = .ok members) :
    SameFields [(key, .array (members.map write))]
      ((FieldShape.list key tidy).writtenOf fields) := by
  rcases list_eq_ok_iff.1 h with ⟨rfl, hgiven⟩ | ⟨items, hgiven, hitems⟩
  · rw [FieldShape.writtenOf_eq hgiven]
    exact .cons ⟨rfl, .array .nil⟩ .nil
  · rw [FieldShape.writtenOf_eq hgiven]
    refine .cons ⟨rfl, .array ?_⟩ .nil
    rw [List.forall₂_map_left_iff, List.forall₂_map_right_iff]
    exact (Outcome.mapM_eq_ok_iff.1 hitems).flip.imp fun _ _ => hread

/-- What is written field by field as the shapes say is the tidied record. -/
theorem FieldShape.same_tidy
    {shapes : List FieldShape} (hkeys : (shapes.map FieldShape.key).Nodup)
    {written : List (String × JsonValue)}
    (h : SameFields written (shapes.flatMap (·.writtenOf fields))) :
    Same (.object written) (tidy shapes (.object fields)) :=
  h.same_object (perm_tidyFields hkeys fields).symm

theorem ModuleEntry.toJson_same_of_read
    {value : JsonValue} {entry : ModuleEntry} (h : ModuleEntry.read value = .ok entry) :
    Same entry.toJson (tidy value) := by
  obtain ⟨fields, rfl, hname, hid, hexported⟩ := read_eq_ok_iff.1 h
  refine FieldShape.same_tidy (by decide) ?_
  simpa [List.flatMap_cons] using
    (sameFields_requiredText hname).append
      ((sameFields_optionalText hid).append (sameFields_optionalText hexported))

theorem DeclarationEntry.same_of_readUse
    {value : JsonValue} {use : String} (h : readUse value = .ok use) :
    Same (.string use) value := by
  cases value <;> cases h
  exact .string use

theorem DeclarationEntry.toJson_same_of_read
    {value : JsonValue} {entry : DeclarationEntry}
    (h : DeclarationEntry.read value = .ok entry) :
    Same entry.toJson (tidy value) := by
  obtain ⟨fields, rfl, htext, huses⟩ := read_eq_ok_iff.1 h
  refine FieldShape.same_tidy (by decide) ?_
  simpa [List.flatMap_cons] using
    (sameFields_requiredText htext).append (sameFields_list same_of_readUse huses)

/-- What is written of a manifest is the value it was read from, tidied. -/
theorem Manifest.toJson_same_of_read
    {value : JsonValue} {manifest : Manifest} (h : Manifest.read value = .ok manifest) :
    Same manifest.toJson (tidy value) := by
  obtain ⟨fields, rfl, ⟨main, hgiven, hmain⟩, htoolchain, hbridging, himported, hmodules,
    hobjc, hcxx⟩ := read_eq_ok_iff.1 h
  refine FieldShape.same_tidy (by decide) ?_
  simpa [List.flatMap_cons] using
    (sameFields_required hgiven (ModuleEntry.toJson_same_of_read hmain)).append
      ((sameFields_optionalText htoolchain).append
        ((sameFields_optionalText hbridging).append
          ((sameFields_optionalText himported).append
            ((sameFields_list ModuleEntry.toJson_same_of_read hmodules).append
              ((sameFields_list DeclarationEntry.toJson_same_of_read hobjc).append
                (sameFields_list DeclarationEntry.toJson_same_of_read hcxx))))))

end Tidying

/-- A value read as a record and written again. -/
def rewritten {β : Type} (read : JsonValue → Except RecordError β) (write : β → JsonValue)
    (value : JsonValue) : Except RecordError JsonValue :=
  write <$> read value

/-- Nothing is lost between records and JSON, in either direction. -/
structure SurvivesJson {β : Type} (read : JsonValue → Except RecordError β)
    (write : β → JsonValue) (tidy : JsonValue → JsonValue) : Prop where
  read_write : ∀ entry, read (write entry) = .ok entry
  write_read : ∀ value entry, read value = .ok entry → Same (write entry) (tidy value)
  /-- Once a value has been rewritten, doing so again changes nothing. -/
  rewritten_rewritten : ∀ value,
    (rewritten read write value >>= rewritten read write) = rewritten read write value

theorem SurvivesJson.of_read_write
    {β : Type} {read : JsonValue → Except RecordError β} {write : β → JsonValue}
    {tidy : JsonValue → JsonValue}
    (hwrite : ∀ entry, read (write entry) = .ok entry)
    (hread : ∀ value entry, read value = .ok entry → Same (write entry) (tidy value)) :
    SurvivesJson read write tidy where
  read_write := hwrite
  write_read := hread
  rewritten_rewritten value := by
    cases h : read value with
    | error fault =>
        rw [rewritten, h]
        rfl
    | ok entry =>
        have hvalue : rewritten read write value = .ok (write entry) := by
          rw [rewritten, h, Outcome.map_ok]
        rw [hvalue, Outcome.ok_bind, rewritten, hwrite, Outcome.map_ok]

/-- **Manifests survive being written as JSON.**  Whatever texts and lists a manifest
holds, it is read back from the JSON value that is written of it.  Whatever value a
manifest is read from, what is written of it is that value up to the order of fields,
without unknown fields and without null for an absent text, with an empty list for each
missing one and otherwise unchanged.  The same holds of the modules and of the
declarations in it. -/
theorem Manifest.survivesJson :
    SurvivesJson Manifest.ofJson Manifest.toJson Manifest.tidy ∧
    SurvivesJson ModuleEntry.read ModuleEntry.toJson ModuleEntry.tidy ∧
    SurvivesJson DeclarationEntry.read DeclarationEntry.toJson DeclarationEntry.tidy :=
  ⟨.of_read_write Manifest.ofJson_toJson fun _ _ => Manifest.toJson_same_of_read,
    .of_read_write ModuleEntry.read_toJson fun _ _ => ModuleEntry.toJson_same_of_read,
    .of_read_write DeclarationEntry.read_toJson fun _ _ =>
      DeclarationEntry.toJson_same_of_read⟩

/-- A value with fields out of order, an unknown one, a null one and missing lists. -/
def untidy : JsonValue :=
  .object [
    ("objc-declarations",
      .array [.object [("text", .string "@class Foo;"), ("line", .number 1)]]),
    ("comment", .null),
    ("toolchain-version", .null),
    ("module", .object [("id", .null), ("name", .string "Foo")])]

theorem untidy_survivesJson :
    ∃ manifest, Manifest.ofJson untidy = .ok manifest ∧
      Same manifest.toJson (Manifest.tidy untidy) :=
  ⟨_, rfl, Manifest.survivesJson.1.write_read _ _ rfl⟩

end InteropHeader
