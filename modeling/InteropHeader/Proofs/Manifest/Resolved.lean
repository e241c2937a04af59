import InteropHeader.Proofs.Import.Section
import InteropHeader.Proofs.Manifest.Valid
import InteropHeader.Proofs.Module.ForeignTree
import InteropHeader.Proofs.Text.Lines
import Mathlib.Data.List.Forall2

/-!
# The modules of a resolved manifest

Input:
  a manifest that has been resolved.

Results:
  * `resolveUse_cases`, `exists_steps_of_resolve`: what the steps of a resolution do;
  * `IsImage`: what the resolved manifest has in common with the manifest: its
    modules, the texts of its declarations, and what every use denotes;
  * `isImage_of_resolve`: resolution gives such an image;
  * `Denotes.unique`, `Denotes.use_eq`: a use denotes one reference, and no other use
    denotes the same one.
-/

namespace InteropHeader

section Stateful

variable {σ ε α β : Type} {le : σ → σ → Prop} {P : σ → α → β → Prop}

/-- Steps that share a growing state: what holds of each result when it is made
holds of all results in the end. -/
theorem forall₂_of_run_mapM
    (hrefl : ∀ state, le state state)
    (htrans : ∀ first second third,
      le third second → le second first → le third first)
    (hmono : ∀ later earlier a b, le later earlier → P earlier a b → P later a b)
    {step : α → StateT σ (Except ε) β}
    (hstep : ∀ a earlier b later, (step a).run earlier = .ok (b, later) →
      le later earlier ∧ P later a b)
    {members : List α} {s : σ} {results : List β} {later : σ}
    (h : (members.mapM step).run s = .ok (results, later)) :
    le later s ∧ List.Forall₂ (P later) members results := by
  induction members generalizing s results with
  | nil =>
      rw [List.mapM_nil] at h
      cases h
      exact ⟨hrefl _, List.Forall₂.nil⟩
  | cons a rest ih =>
      obtain ⟨b, bs, next, rfl, hb, hbs⟩ := Outcome.run_mapM_cons_eq_ok_iff.1 h
      obtain ⟨hnext, hPb⟩ := hstep a s b next hb
      obtain ⟨hlast, hPbs⟩ := ih hbs
      exact ⟨htrans _ _ _ hlast hnext,
        List.Forall₂.cons (hmono _ _ a b hlast hPb) hPbs⟩

end Stateful

namespace ForeignTree

/-- A later tree that keeps every module, and that has no twins if the earlier
one had none. -/
def Grows (later tree : ForeignTree) : Prop :=
  later.Extends tree ∧ (tree.NoTwins → later.NoTwins)

theorem Grows.refl (tree : ForeignTree) : tree.Grows tree :=
  ⟨Extends.refl tree, id⟩

theorem Grows.trans
    {first second third : ForeignTree}
    (h₁ : third.Grows second) (h₂ : second.Grows first) :
    third.Grows first :=
  ⟨h₁.1.trans h₂.1, fun h => h₁.2 (h₂.2 h)⟩

theorem intern_grows (tree : ForeignTree) (path : List String) :
    (tree.intern path).1.Grows tree :=
  ⟨tree.intern_extends path, fun h => h.intern path⟩

end ForeignTree

namespace Manifest

/-- The reference that a use stands for: without a dot the module with that key,
with a dot the foreign module with that full name. -/
def Denotes
    (manifest : Manifest) (foreigns : ForeignTree) (use : String) :
    Reference → Prop
  | .host handle =>
      '.' ∉ use.toList ∧ manifest.keys[handle.index]? = some use
  | .foreign handle =>
      '.' ∈ use.toList ∧ "" ∉ Text.pieces '.' use ∧
        foreigns.path handle = .ok (Text.pieces '.' use)

/-- A declaration with the text of an entry that refers to what the entry's uses
stand for. -/
structure DeclarationImage
    (manifest : Manifest) (foreigns : ForeignTree)
    (entry : DeclarationEntry) (declaration : Declaration) : Prop where
  text_eq : declaration.text = entry.text
  uses : List.Forall₂ (manifest.Denotes foreigns) entry.uses declaration.uses

variable {manifest : Manifest}

/-- A use keeps what it stands for. -/
theorem Denotes.mono
    {later foreigns : ForeignTree} (hgrows : later.Grows foreigns)
    {use : String} {ref : Reference}
    (h : manifest.Denotes foreigns use ref) :
    manifest.Denotes later use ref := by
  cases ref with
  | host handle =>
      exact h
  | foreign handle =>
      obtain ⟨hdot, hsegments, hpath⟩ := h
      exact ⟨hdot, hsegments, hgrows.1.path_eq hpath⟩

theorem DeclarationImage.mono
    {later foreigns : ForeignTree} (hgrows : later.Grows foreigns)
    {entry : DeclarationEntry} {declaration : Declaration}
    (h : manifest.DeclarationImage foreigns entry declaration) :
    manifest.DeclarationImage later entry declaration :=
  ⟨h.text_eq, h.uses.imp fun _ _ h => h.mono hgrows⟩

/-- No two uses denote the same reference. -/
theorem Denotes.use_eq
    {foreigns : ForeignTree} {use other : String} {ref : Reference}
    (h : manifest.Denotes foreigns use ref) (hother : manifest.Denotes foreigns other ref) :
    use = other := by
  cases ref with
  | host handle =>
      exact Option.some.inj (h.2.symm.trans hother.2)
  | foreign handle =>
      have hpieces : Text.pieces '.' use = Text.pieces '.' other :=
        Except.ok.inj (h.2.2.symm.trans hother.2.2)
      rw [← Text.join_pieces '.' use, hpieces, Text.join_pieces]

/-- While keys are not repeated, a key belongs to one module. -/
theorem handle_eq_of_key
    (hkeys : manifest.keys.Nodup) {first second : HostHandle} {key : String}
    (hfirst : manifest.keys[first.index]? = some key)
    (hsecond : manifest.keys[second.index]? = some key) :
    first = second := by
  have hindex : first.index = second.index :=
    (List.getElem?_inj (List.getElem?_eq_some_iff.1 hfirst).1 hkeys).1
      (hfirst.trans hsecond.symm)
  cases first
  cases second
  cases hindex
  rfl

/-- While keys and foreign modules are not repeated, a use denotes one reference. -/
theorem Denotes.unique
    {foreigns : ForeignTree} (hkeys : manifest.keys.Nodup) (htwins : foreigns.NoTwins)
    {use : String} {ref other : Reference}
    (h : manifest.Denotes foreigns use ref) (hother : manifest.Denotes foreigns use other) :
    ref = other := by
  cases ref with
  | host handle =>
      cases other with
      | host another =>
          rw [handle_eq_of_key hkeys h.2 hother.2]
      | foreign another =>
          exact absurd hother.1 h.1
  | foreign handle =>
      cases other with
      | host another =>
          exact absurd h.1 hother.1
      | foreign another =>
          rw [htwins.path_injective h.2.2 hother.2.2]

theorem getElem?_of_hostWithKey?
    {key : String} {handle : HostHandle}
    (h : manifest.hostWithKey? key = some handle) :
    manifest.keys[handle.index]? = some key := by
  simp only [hostWithKey?, Option.map_eq_some_iff] at h
  obtain ⟨i, hi, rfl⟩ := h
  obtain ⟨hlt, heq, _⟩ := List.idxOf?_eq_some_iff.1 hi
  exact List.getElem?_eq_some_iff.2 ⟨hlt, heq⟩

/-- How a use is resolved: without a dot it is looked up among the keys, with a dot it is
interned. -/
theorem resolveUse_cases
    {language : Language} {index : Nat} {use : String}
    {foreigns later : ForeignTree} {ref : Reference}
    (h : (manifest.resolveUse language index use).run foreigns = .ok (ref, later)) :
    ('.' ∉ use.toList ∧ later = foreigns ∧
      ∃ handle, ref = .host handle ∧ manifest.hostWithKey? use = some handle) ∨
    ('.' ∈ use.toList ∧ "" ∉ Text.pieces '.' use ∧
      later = (foreigns.intern (Text.pieces '.' use)).1 ∧
      ∃ handle, ref = .foreign handle ∧
        (foreigns.intern (Text.pieces '.' use)).2 = some handle) := by
  unfold resolveUse UseTarget.ofText StateT.run at h
  by_cases hdot : '.' ∈ use.toList
  · simp only [hdot, if_true] at h
    by_cases hempty : "" ∈ Text.pieces '.' use
    · simp only [hempty, if_true] at h
      cases h
    · simp only [hempty, if_false] at h
      split at h
      · rename_i extended handle hintern
        cases h
        exact Or.inr ⟨hdot, hempty, by rw [hintern], handle, rfl, by rw [hintern]⟩
      · cases h
  · simp only [hdot, if_false] at h
    cases hhost : manifest.hostWithKey? use with
    | none =>
        rw [hhost] at h
        cases h
    | some handle =>
        rw [hhost] at h
        cases h
        exact Or.inl ⟨hdot, rfl, handle, rfl, rfl⟩

/-- A use is resolved to what it stands for. -/
theorem denotes_of_resolveUse
    {language : Language} {index : Nat} {use : String}
    {foreigns later : ForeignTree} {ref : Reference}
    (h : (manifest.resolveUse language index use).run foreigns = .ok (ref, later)) :
    later.Grows foreigns ∧ manifest.Denotes later use ref := by
  rcases resolveUse_cases h with
    ⟨hdot, rfl, handle, rfl, hhost⟩ | ⟨hdot, hempty, rfl, handle, rfl, hhandle⟩
  · exact ⟨ForeignTree.Grows.refl _, hdot, getElem?_of_hostWithKey? hhost⟩
  · exact ⟨foreigns.intern_grows _, hdot, hempty, ForeignTree.path_intern hhandle⟩

theorem declarationImage_of_resolveEntry
    {language : Language} {entry : DeclarationEntry × Nat}
    {foreigns later : ForeignTree} {declaration : Declaration}
    (h : (manifest.resolveEntry language entry).run foreigns =
      .ok (declaration, later)) :
    later.Grows foreigns ∧
      manifest.DeclarationImage later entry.1 declaration := by
  obtain ⟨uses, next, huses, h⟩ := Outcome.run_bind_eq_ok_iff.1 h
  cases h
  obtain ⟨hgrows, hdenotes⟩ :=
    forall₂_of_run_mapM ForeignTree.Grows.refl
      (fun _ _ _ h₁ h₂ => h₁.trans h₂) (fun _ _ _ _ hgrows h => h.mono hgrows)
      (fun _ _ _ _ => denotes_of_resolveUse) huses
  exact ⟨hgrows, rfl, hdenotes⟩

theorem forall₂_of_resolveLanguage
    {language : Language} {foreigns later : ForeignTree}
    {declarations : List Declaration}
    (h : (manifest.resolveLanguage language).run foreigns =
      .ok (declarations, later)) :
    later.Grows foreigns ∧
      List.Forall₂ (manifest.DeclarationImage later)
        (manifest.declarations language) declarations := by
  have hmono : ∀ (tree earlier : ForeignTree) (entry : DeclarationEntry × Nat)
      (declaration : Declaration), tree.Grows earlier →
      manifest.DeclarationImage earlier entry.1 declaration →
      manifest.DeclarationImage tree entry.1 declaration :=
    fun _ _ _ _ hgrows h => h.mono hgrows
  obtain ⟨hgrows, himages⟩ :=
    forall₂_of_run_mapM ForeignTree.Grows.refl
      (fun _ _ _ h₁ h₂ => h₁.trans h₂) hmono
      (fun _ _ _ _ => declarationImage_of_resolveEntry) h
  have hfst : ((manifest.declarations language).zipIdx).map Prod.fst =
      manifest.declarations language :=
    List.zipIdx_map_fst 0 _
  rw [← hfst, List.forall₂_map_left_iff]
  exact ⟨hgrows, himages⟩

/-- What a resolved manifest has in common with the manifest. -/
structure IsImage (manifest : Manifest) (resolved : ResolvedManifest) : Prop where
  bridging_eq : resolved.bridging = manifest.bridging
  toolchain_eq : resolved.table.namedToolchain = manifest.toolchain
  /-- The module that stands for the bridging header has the given key. -/
  importedHeader_eq : manifest.resolveImportedHeader = .ok resolved.table.importedHeader
  /-- The modules stand in the order of their entries; only the main module has
  declarations, and those are images of the entries. -/
  hosts_eq :
    ∃ objc cxx,
      resolved.table.hosts.toList =
        { manifest.main.toHost with objc := objc, cxx := cxx } ::
          manifest.modules.map ModuleEntry.toHost ∧
      List.Forall₂ (manifest.DeclarationImage resolved.table.foreigns)
        manifest.objc objc ∧
      List.Forall₂ (manifest.DeclarationImage resolved.table.foreigns)
        manifest.cxx cxx
  noTwins : resolved.table.foreigns.NoTwins

/-- What resolution does: the uses for Objective-C are resolved first, and those for C++
with the foreign modules interned so far. -/
theorem exists_steps_of_resolve
    {resolved : ResolvedManifest} (h : manifest.resolve = .ok resolved) :
    ∃ objc cxx afterObjc,
      (manifest.resolveLanguage .objc).run .empty = .ok (objc, afterObjc) ∧
      (manifest.resolveLanguage .cxx).run afterObjc =
        .ok (cxx, resolved.table.foreigns) ∧
      manifest.resolveImportedHeader = .ok resolved.table.importedHeader ∧
      resolved.table.hosts.toList =
        { manifest.main.toHost with objc := objc, cxx := cxx } ::
          manifest.modules.map ModuleEntry.toHost ∧
      resolved.table.namedToolchain = manifest.toolchain ∧
      resolved.bridging = manifest.bridging := by
  unfold resolve at h
  obtain ⟨_, _, h⟩ := Outcome.bind_eq_ok_iff.1 h
  obtain ⟨importedHeader, himported, h⟩ := Outcome.bind_eq_ok_iff.1 h
  obtain ⟨⟨objc, afterObjc⟩, hobjc, h⟩ := Outcome.bind_eq_ok_iff.1 h
  obtain ⟨⟨cxx, foreigns⟩, hcxx, h⟩ := Outcome.bind_eq_ok_iff.1 h
  cases h
  exact ⟨objc, cxx, afterObjc, hobjc, hcxx, himported, rfl, rfl, rfl⟩

/-- Resolution gives an image of the manifest. -/
theorem isImage_of_resolve
    {resolved : ResolvedManifest} (h : manifest.resolve = .ok resolved) :
    manifest.IsImage resolved := by
  obtain ⟨objc, cxx, afterObjc, hobjc, hcxx, himported, hhosts, htoolchain, hbridging⟩ :=
    exists_steps_of_resolve h
  obtain ⟨hgrowsObjc, hobjc⟩ := forall₂_of_resolveLanguage hobjc
  obtain ⟨hgrowsCxx, hcxx⟩ := forall₂_of_resolveLanguage hcxx
  exact {
    bridging_eq := hbridging
    toolchain_eq := htoolchain
    importedHeader_eq := himported
    hosts_eq := ⟨objc, cxx, hhosts, hobjc.imp fun _ _ h => h.mono hgrowsCxx, hcxx⟩
    noTwins := (hgrowsCxx.trans hgrowsObjc).2 ForeignTree.noTwins_empty }

section Images

variable {resolved : ResolvedManifest}

/-- The main module of a resolved manifest. -/
theorem IsImage.host_main (h : manifest.IsImage resolved) :
    ∃ m, resolved.table.host ModuleTable.main = .ok m ∧
      m.name = manifest.main.name ∧
      ∀ language,
        List.Forall₂ (manifest.DeclarationImage resolved.table.foreigns)
          (manifest.declarations language) (m.declarations language) := by
  obtain ⟨objc, cxx, hhosts, hobjc, hcxx⟩ := h.hosts_eq
  refine ⟨{ manifest.main.toHost with objc := objc, cxx := cxx }, ?_, rfl, ?_⟩
  · have hget : resolved.table.hosts[0]? =
        some { manifest.main.toHost with objc := objc, cxx := cxx } := by
      rw [← Array.getElem?_toList, hhosts]
      rfl
    simp [ModuleTable.host, ModuleTable.main, hget]
  · intro language
    cases language with
    | cxx => exact hcxx
    | objc => exact hobjc

/-- The host modules have the names of the entries, position by position. -/
theorem IsImage.hostName_eq_ok_iff
    (h : manifest.IsImage resolved) {handle : HostHandle} {name : String} :
    ModuleNaming.hostName resolved.table handle = .ok name
      ↔
    ∃ entry, manifest.entries[handle.index]? = some entry ∧ entry.name = name := by
  obtain ⟨objc, cxx, hhosts, _, _⟩ := h.hosts_eq
  have hnames : manifest.entries.map ModuleEntry.name =
      resolved.table.hosts.toList.map HostModule.name := by
    rw [hhosts]
    simp [entries, ModuleEntry.toHost, Function.comp_def]
  rw [← Option.map_eq_some_iff, ← List.getElem?_map, hnames, List.getElem?_map,
    Array.getElem?_toList]
  show (resolved.table.host handle).map HostModule.name = .ok name ↔ _
  unfold ModuleTable.host
  cases resolved.table.hosts[handle.index]? with
  | none => simp [Except.map]
  | some m => simp [Except.map]

theorem IsImage.hostName_eq
    (h : manifest.IsImage resolved) {handle : HostHandle} {entry : ModuleEntry}
    (hentry : manifest.entries[handle.index]? = some entry) :
    ModuleNaming.hostName resolved.table handle = .ok entry.name :=
  h.hostName_eq_ok_iff.2 ⟨entry, hentry, rfl⟩

theorem IsImage.hostName_main (h : manifest.IsImage resolved) :
    ModuleNaming.hostName resolved.table ModuleTable.main = .ok manifest.main.name :=
  h.hostName_eq rfl

/-- The module that stands for the bridging header has the key that the manifest gives,
if it gives one. -/
theorem IsImage.importedHeader_map_key (h : manifest.IsImage resolved) :
    (resolved.table.importedHeader.map fun handle => manifest.keys[handle.index]?) =
      manifest.importedHeader.map some := by
  have heq := h.importedHeader_eq
  unfold resolveImportedHeader at heq
  split at heq
  · rename_i hnone
    rw [← Except.ok.inj heq, hnone]
    rfl
  · rename_i key hkey
    split at heq
    · rename_i handle hhandle
      rw [← Except.ok.inj heq, hkey, Option.map_some, Option.map_some,
        getElem?_of_hostWithKey? hhandle]
    · cases heq

theorem IsImage.importedHeader_eq_some_iff
    (h : manifest.IsImage resolved) (hkeys : manifest.keys.Nodup)
    {handle : HostHandle} {key : String}
    (hkey : manifest.keys[handle.index]? = some key) :
    resolved.table.importedHeader = some handle ↔ manifest.importedHeader = some key := by
  have hmap := h.importedHeader_map_key
  constructor
  · intro himported
    rw [himported, Option.map_some, hkey] at hmap
    cases hmanifest : manifest.importedHeader with
    | none => simp [hmanifest] at hmap
    | some other => simpa [hmanifest, eq_comm] using hmap
  · intro hmanifest
    rw [hmanifest, Option.map_some, Option.map_eq_some_iff] at hmap
    obtain ⟨other, hother, hsame⟩ := hmap
    rw [hother, handle_eq_of_key hkeys hsame hkey]

/-- What a use stands for can be imported. -/
theorem IsImage.wellNamed
    (h : manifest.IsImage resolved) {references : ReferenceSet}
    (hdenoted : ∀ ref ∈ references,
      ∃ use, manifest.Denotes resolved.table.foreigns use ref) :
    references.WellNamed resolved.table where
  host_named := by
    intro handle href
    obtain ⟨use, _, hkey⟩ := hdenoted _ href
    obtain ⟨entry, hentry, _⟩ := getElem?_keys_eq_some_iff.1 hkey
    exact ⟨entry.name, h.hostName_eq hentry⟩
  foreign_nested := by
    intro handle href
    obtain ⟨use, hdot, _, hpath⟩ := hdenoted _ href
    exact ⟨_, hpath, Text.two_le_length_pieces hdot⟩
  path_injective := by
    intro first second path _ _ hfirst hsecond
    exact h.noTwins.path_injective hfirst hsecond

end Images

end Manifest

end InteropHeader
