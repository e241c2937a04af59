import InteropHeader.Proofs.Manifest.Resolved

/-!
# Resolved manifests are faithful

Input:
  a manifest that has been resolved.

Algorithm:
  uses are resolved one after another, and each may add foreign modules to those that
  earlier uses have interned.  What an earlier use denotes is not touched by that, so in
  the end every use is compared with every other one, whatever their places are.

Results:
  * `contains_iff_of_resolve`: the foreign modules are the prefixes of the dotted uses;
  * `exists_isFaithful_of_resolve`: nothing that the manifest says is lost, changed or
    added.
-/

namespace InteropHeader

section Stateful

variable {σ ε α β γ : Type} {Holds : σ → γ → Prop} {Adds : α → γ → Prop}

/-- Steps that share a growing state: what holds in the end has held before or is added
by one of the steps. -/
theorem holds_iff_of_run_mapM
    {step : α → StateT σ (Except ε) β}
    (hstep : ∀ a earlier b later, (step a).run earlier = .ok (b, later) →
      ∀ x, Holds later x ↔ Holds earlier x ∨ Adds a x)
    {members : List α} {s : σ} {results : List β} {later : σ}
    (h : (members.mapM step).run s = .ok (results, later)) (x : γ) :
    Holds later x ↔ Holds s x ∨ ∃ a ∈ members, Adds a x := by
  induction members generalizing s results with
  | nil =>
      rw [List.mapM_nil] at h
      cases h
      simp
  | cons a rest ih =>
      obtain ⟨b, bs, next, rfl, hb, hbs⟩ := Outcome.run_mapM_cons_eq_ok_iff.1 h
      rw [ih hbs, hstep a s b next hb, or_assoc, List.exists_mem_cons_iff]

end Stateful

/-- What stands at a position on the left has a counterpart at the same position on the
right. -/
theorem exists_getElem?_of_forall₂
    {α β : Type} {R : α → β → Prop} {as : List α} {bs : List β}
    (h : List.Forall₂ R as bs) {i : Nat} {a : α} (ha : as[i]? = some a) :
    ∃ b, bs[i]? = some b ∧ R a b := by
  induction h generalizing i with
  | nil =>
      simp at ha
  | cons hab _ ih =>
      cases i with
      | zero =>
          cases ha
          exact ⟨_, rfl, hab⟩
      | succ i =>
          exact ih ha

/-- A place where a declaration uses a module. -/
structure UsePlace where
  language : Language
  /-- The position among the declarations for the language. -/
  declaration : Nat
  /-- The position among the uses of the declaration. -/
  position : Nat
  deriving DecidableEq, Repr

/-- The use at a place of a manifest. -/
def Manifest.useAt? (manifest : Manifest) (place : UsePlace) : Option String :=
  (manifest.declarations place.language)[place.declaration]?.bind fun entry =>
    entry.uses[place.position]?

/-- The reference at a place of a module's declarations. -/
def HostModule.referenceAt? (m : HostModule) (place : UsePlace) : Option Reference :=
  (m.declarations place.language)[place.declaration]?.bind fun declaration =>
    declaration.uses[place.position]?

namespace Manifest

variable {manifest : Manifest} {resolved : ResolvedManifest}

theorem exists_useAt?_iff {use : String} :
    (∃ place, manifest.useAt? place = some use)
      ↔
    ∃ language, ∃ entry ∈ manifest.declarations language, use ∈ entry.uses := by
  constructor
  · rintro ⟨place, huse⟩
    obtain ⟨entry, hentry, huse⟩ := Option.bind_eq_some_iff.1 huse
    exact ⟨place.language, entry, List.mem_of_getElem? hentry, List.mem_of_getElem? huse⟩
  · rintro ⟨language, entry, hentry, huse⟩
    obtain ⟨declaration, hdeclaration⟩ := List.getElem?_of_mem hentry
    obtain ⟨position, hposition⟩ := List.getElem?_of_mem huse
    refine ⟨⟨language, declaration, position⟩, ?_⟩
    simp [useAt?, hdeclaration, hposition]

/-- At the place of a use stands what the use denotes. -/
theorem exists_referenceAt?
    {foreigns : ForeignTree} {m : HostModule}
    (himages : ∀ language, List.Forall₂ (manifest.DeclarationImage foreigns)
      (manifest.declarations language) (m.declarations language))
    {place : UsePlace} {use : String} (huse : manifest.useAt? place = some use) :
    ∃ ref, m.referenceAt? place = some ref ∧ manifest.Denotes foreigns use ref := by
  obtain ⟨entry, hentry, huse⟩ := Option.bind_eq_some_iff.1 huse
  obtain ⟨declaration, hdeclaration, himage⟩ :=
    exists_getElem?_of_forall₂ (himages place.language) hentry
  obtain ⟨ref, href, hdenotes⟩ := exists_getElem?_of_forall₂ himage.uses huse
  refine ⟨ref, ?_, hdenotes⟩
  simp [HostModule.referenceAt?, hdeclaration, href]

section Contents

/-- The full name of a foreign module that a use asks for, or of one around it. -/
def AsksFor (use : String) (path : List String) : Prop :=
  '.' ∈ use.toList ∧ path ≠ [] ∧ path <+: Text.pieces '.' use

theorem contains_iff_of_resolveUse
    {language : Language} {index : Nat} {use : String}
    {foreigns later : ForeignTree} {ref : Reference}
    (h : (manifest.resolveUse language index use).run foreigns = .ok (ref, later))
    (path : List String) :
    later.Contains path ↔ foreigns.Contains path ∨ AsksFor use path := by
  rcases resolveUse_cases h with ⟨hdot, rfl, _⟩ | ⟨hdot, _, rfl, _⟩
  · simp [AsksFor, hdot]
  · rw [ForeignTree.contains_intern_iff, AsksFor, and_iff_right hdot]

theorem contains_iff_of_resolveEntry
    {language : Language} {entry : DeclarationEntry × Nat}
    {foreigns later : ForeignTree} {declaration : Declaration}
    (h : (manifest.resolveEntry language entry).run foreigns =
      .ok (declaration, later)) (path : List String) :
    later.Contains path
      ↔
    foreigns.Contains path ∨ ∃ use ∈ entry.1.uses, AsksFor use path := by
  obtain ⟨uses, next, huses, h⟩ := Outcome.run_bind_eq_ok_iff.1 h
  cases h
  exact holds_iff_of_run_mapM
    (fun _ _ _ _ hstep => contains_iff_of_resolveUse hstep) huses path

theorem contains_iff_of_resolveLanguage
    {language : Language} {foreigns later : ForeignTree}
    {declarations : List Declaration}
    (h : (manifest.resolveLanguage language).run foreigns =
      .ok (declarations, later)) (path : List String) :
    later.Contains path
      ↔
    foreigns.Contains path ∨
      ∃ entry ∈ manifest.declarations language, ∃ use ∈ entry.uses, AsksFor use path := by
  rw [holds_iff_of_run_mapM
    (fun _ _ _ _ hstep => contains_iff_of_resolveEntry hstep) h path]
  refine or_congr_right ⟨?_, ?_⟩
  · rintro ⟨⟨entry, index⟩, hindexed, hasks⟩
    exact ⟨entry, List.fst_mem_of_mem_zipIdx hindexed, hasks⟩
  · rintro ⟨entry, hentry, hasks⟩
    obtain ⟨index, hindexed⟩ := exists_mem_zipIdx_of_mem hentry
    exact ⟨(entry, index), hindexed, hasks⟩

/-- The foreign modules are those that uses ask for and those around them. -/
theorem contains_iff_of_resolve
    (h : manifest.resolve = .ok resolved) (path : List String) :
    resolved.table.foreigns.Contains path
      ↔
    ∃ place use, manifest.useAt? place = some use ∧ AsksFor use path := by
  obtain ⟨objc, cxx, afterObjc, hobjc, hcxx, _⟩ := exists_steps_of_resolve h
  have hcontains := contains_iff_of_resolveLanguage hcxx path
  rw [contains_iff_of_resolveLanguage hobjc path,
    or_iff_right (ForeignTree.not_contains_empty path)] at hcontains
  refine hcontains.trans ?_
  constructor
  · rintro (⟨entry, hentry, use, huse, hasks⟩ | ⟨entry, hentry, use, huse, hasks⟩)
    · obtain ⟨place, hplace⟩ := exists_useAt?_iff.2 ⟨.objc, entry, hentry, huse⟩
      exact ⟨place, use, hplace, hasks⟩
    · obtain ⟨place, hplace⟩ := exists_useAt?_iff.2 ⟨.cxx, entry, hentry, huse⟩
      exact ⟨place, use, hplace, hasks⟩
  · rintro ⟨place, use, hplace, hasks⟩
    obtain ⟨language, entry, hentry, huse⟩ := exists_useAt?_iff.1 ⟨place, hplace⟩
    cases language with
    | objc => exact Or.inl ⟨entry, hentry, use, huse, hasks⟩
    | cxx => exact Or.inr ⟨entry, hentry, use, huse, hasks⟩

end Contents

/-- A resolved manifest that says what the manifest says, with handles in place of
texts. -/
structure IsFaithful
    (manifest : Manifest) (resolved : ResolvedManifest) (main : HostModule) : Prop where
  main_eq : resolved.table.host ModuleTable.main = .ok main
  /-- A handle is the position of the module's entry, and beyond the entries it denotes
  nothing. -/
  host_eq : ∀ handle,
    (resolved.table.host handle).toOption.map (fun m => (m.name, m.exportedAs)) =
      manifest.entries[handle.index]?.map fun entry => (entry.name, entry.exportedName)
  /-- Only the main module has declarations. -/
  declarations_eq_nil : ∀ handle m, handle ≠ ModuleTable.main →
    resolved.table.host handle = .ok m → ∀ language, m.declarations language = []
  declarations_eq : ∀ language,
    (main.declarations language).map (fun declaration =>
        (declaration.text, declaration.uses.length)) =
      (manifest.declarations language).map fun entry => (entry.text, entry.uses.length)
  /-- A use without a dot refers to the host module with that key, the only one. -/
  key_use : ∀ place use, manifest.useAt? place = some use → '.' ∉ use.toList →
    ∃ handle, main.referenceAt? place = some (.host handle) ∧
      ∀ i, manifest.keys[i]? = some use ↔ i = handle.index
  /-- A use with a dot refers to the foreign module with that full name. -/
  dotted_use : ∀ place use, manifest.useAt? place = some use → '.' ∈ use.toList →
    ∃ handle path, main.referenceAt? place = some (.foreign handle) ∧
      resolved.table.foreigns.path handle = .ok path ∧
      2 ≤ path.length ∧ Text.join '.' path = use
  /-- Different texts stand for different modules, whatever the places are. -/
  reference_eq_iff : ∀ first second use other,
    manifest.useAt? first = some use → manifest.useAt? second = some other →
    (main.referenceAt? first = main.referenceAt? second ↔ use = other)
  /-- The foreign modules are the prefixes of the full names that are used. -/
  foreign_iff : ∀ path, (∃ handle, resolved.table.foreigns.path handle = .ok path) ↔
    ∃ place use, manifest.useAt? place = some use ∧
      '.' ∈ use.toList ∧ path ≠ [] ∧ path <+: Text.pieces '.' use
  foreign_injective : ∀ first second path,
    resolved.table.foreigns.path first = .ok path →
    resolved.table.foreigns.path second = .ok path → first = second
  importedHeader_eq :
    (resolved.table.importedHeader.map fun handle => manifest.keys[handle.index]?) =
      manifest.importedHeader.map some
  toolchain_eq : resolved.table.namedToolchain = manifest.toolchain
  bridging_eq : resolved.bridging = manifest.bridging

section Hosts

theorem IsImage.host_eq
    (h : manifest.IsImage resolved) (handle : HostHandle) :
    (resolved.table.host handle).toOption.map (fun m => (m.name, m.exportedAs)) =
      manifest.entries[handle.index]?.map fun entry =>
        (entry.name, entry.exportedName) := by
  obtain ⟨objc, cxx, hhosts, _, _⟩ := h.hosts_eq
  have hentries : manifest.entries.map (fun entry => (entry.name, entry.exportedName)) =
      resolved.table.hosts.toList.map fun m => (m.name, m.exportedAs) := by
    rw [hhosts]
    simp [entries, ModuleEntry.toHost, Function.comp_def]
  rw [← List.getElem?_map, hentries, List.getElem?_map, Array.getElem?_toList]
  unfold ModuleTable.host
  cases resolved.table.hosts[handle.index]? <;> rfl

theorem IsImage.declarations_eq_nil
    (h : manifest.IsImage resolved) {handle : HostHandle} {m : HostModule}
    (hne : handle ≠ ModuleTable.main) (hm : resolved.table.host handle = .ok m)
    (language : Language) :
    m.declarations language = [] := by
  obtain ⟨objc, cxx, hhosts, _, _⟩ := h.hosts_eq
  have hget : resolved.table.hosts.toList[handle.index]? = some m := by
    unfold ModuleTable.host at hm
    rw [Array.getElem?_toList]
    split at hm
    · rename_i found hfound
      cases hm
      exact hfound
    · cases hm
  obtain ⟨i⟩ := handle
  cases i with
  | zero => exact absurd rfl hne
  | succ i =>
      rw [hhosts, List.getElem?_cons_succ, List.getElem?_map,
        Option.map_eq_some_iff] at hget
      obtain ⟨entry, _, rfl⟩ := hget
      cases language <;> rfl

/-- Images of declarations agree with them in everything but the references. -/
theorem map_declarations_eq
    {foreigns : ForeignTree} {entries : List DeclarationEntry}
    {declarations : List Declaration}
    (h : List.Forall₂ (manifest.DeclarationImage foreigns) entries declarations) :
    (declarations.map fun declaration => (declaration.text, declaration.uses.length)) =
      entries.map fun entry => (entry.text, entry.uses.length) := by
  induction h with
  | nil =>
      rfl
  | cons himage _ ih =>
      rw [List.map_cons, List.map_cons, ih, himage.text_eq, himage.uses.length_eq]

end Hosts

/-- **A resolved manifest is a faithful image of the manifest.**  Its host modules are the
described ones in order; its main module has the declarations, and every use in them
refers to the module with that key or with that full name, so that two uses refer to the
same module only if they are the same text; its foreign modules are those that the uses
need; and what else the manifest says is kept. -/
theorem exists_isFaithful_of_resolve
    (h : manifest.resolve = .ok resolved) :
    ∃ main, manifest.IsFaithful resolved main := by
  have himage := isImage_of_resolve h
  have hkeys := (isValid_of_resolve h).keys_nodup
  obtain ⟨main, hmain, _, himages⟩ := himage.host_main
  refine ⟨main, {
    main_eq := hmain
    host_eq := himage.host_eq
    declarations_eq_nil := fun handle m => himage.declarations_eq_nil
    declarations_eq := fun language => map_declarations_eq (himages language)
    key_use := ?_
    dotted_use := ?_
    reference_eq_iff := ?_
    foreign_iff := contains_iff_of_resolve h
    foreign_injective := fun first second path => himage.noTwins.path_injective
    importedHeader_eq := himage.importedHeader_map_key
    toolchain_eq := himage.toolchain_eq
    bridging_eq := himage.bridging_eq }⟩
  · intro place use hplace hdot
    obtain ⟨ref, href, hdenotes⟩ := exists_referenceAt? himages hplace
    cases ref with
    | foreign handle => exact absurd hdenotes.1 hdot
    | host handle =>
        refine ⟨handle, href, fun i => ⟨fun hi => ?_, ?_⟩⟩
        · have hlt := (List.getElem?_eq_some_iff.1 hi).1
          exact (List.getElem?_inj hlt hkeys).1 (hi.trans hdenotes.2.symm)
        · rintro rfl
          exact hdenotes.2
  · intro place use hplace hdot
    obtain ⟨ref, href, hdenotes⟩ := exists_referenceAt? himages hplace
    cases ref with
    | host handle => exact absurd hdot hdenotes.1
    | foreign handle =>
        exact ⟨handle, Text.pieces '.' use, href, hdenotes.2.2,
          Text.two_le_length_pieces hdot, Text.join_pieces '.' use⟩
  · intro first second use other hfirst hsecond
    obtain ⟨ref, href, hdenotes⟩ := exists_referenceAt? himages hfirst
    obtain ⟨ref', href', hdenotes'⟩ := exists_referenceAt? himages hsecond
    rw [href, href', Option.some.injEq]
    constructor
    · rintro rfl
      exact hdenotes.use_eq hdenotes'
    · rintro rfl
      exact hdenotes.unique hkeys himage.noTwins hdenotes'

/-- A manifest with two modules named `Foo`, and with foreign modules used for both
languages that lie inside each other. -/
def entangled : Manifest where
  main := { name := "Foo", exportedName := some "FooKit" }
  toolchain := some "Test toolchain 1.0"
  bridging := some "Foo-Bridging.h"
  importedHeader := some "foo-clang"
  modules := [{ name := "Foo", id := some "foo-clang" }, { name := "Bar" }]
  objc := [
    { text := "@class A;", uses := ["Foo", "foo-clang", "Baz.Sub.Deep"] },
    { text := "@class B;" }]
  cxx := [{ text := "class C;", uses := ["Baz.Sub", "Baz.Other", "foo-clang"] }]

/-- The modules of `entangled`. -/
theorem entangled_isFaithful :
    ∃ resolved,
      entangled.resolve = .ok resolved ∧
      ∃ main, entangled.IsFaithful resolved main := by
  obtain ⟨resolved, h⟩ : ∃ resolved, entangled.resolve = .ok resolved :=
    exists_resolve_of_kept (by decide)
  exact ⟨resolved, h, exists_isFaithful_of_resolve h⟩

end Manifest

end InteropHeader
