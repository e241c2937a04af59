import InteropHeader.Header.Document
import InteropHeader.Proofs.Manifest.Resolved

/-!
# The import section of a manifest

Input:
  a manifest that has been resolved, and the bridging header, if there is one.

Algorithm:
  what the Objective-C declarations mention is read off the manifest: the keys of
  described modules and the full names of foreign modules.  Handles only stand
  between the two, so the import section is the one that these texts call for.

Results:
  * `isImportPlan_of_resolve`: the import section of the main module exists and is the
    one that its declarations call for;
  * `exists_isPlan_of_resolve`: it holds what the manifest says, without handles;
  * `IsPlan.unique`: no other import section does;
  * `statement_of_resolve`, `ownHeader_of_resolve`: which texts of the manifest are printed
    into it.
-/

namespace InteropHeader

namespace PrintedDeclarations

theorem mem_uses_ofDeclarations
    {declarations : List Declaration} {ref : Reference} :
    ref ∈ (ofDeclarations declarations).uses ↔
      ∃ declaration ∈ declarations, ref ∈ declaration.uses := by
  induction declarations with
  | nil =>
      simp [ofDeclarations, empty]
  | cons declaration rest ih =>
      simp [ofDeclarations, ih]

end PrintedDeclarations

/-- What the Objective-C declarations of a module refer to. -/
def HostModule.references (m : HostModule) : ReferenceSet :=
  .ofList (PrintedDeclarations.ofDeclarations m.objc).uses

theorem HostModule.mem_references {m : HostModule} {ref : Reference} :
    ref ∈ m.references ↔ ∃ declaration ∈ m.objc, ref ∈ declaration.uses := by
  rw [HostModule.references, ReferenceSet.mem_ofList,
    PrintedDeclarations.mem_uses_ofDeclarations]

theorem ModuleTable.importSection_of_host
    {table : ModuleTable} {handle : HostHandle} {m : HostModule}
    (hm : table.host handle = .ok m) (bridging : Option String) :
    table.importSection handle bridging =
      m.references.importSection table handle bridging := by
  simp only [ModuleTable.importSection, ModuleTable.printed, hm, Except.map,
    Outcome.ok_bind]
  rfl

/-- Whatever stands on the right has a counterpart on the left. -/
theorem exists_mem_of_forall₂
    {α β : Type} {R : α → β → Prop} {as : List α} {bs : List β}
    (h : List.Forall₂ R as bs) {b : β} (hb : b ∈ bs) :
    ∃ a ∈ as, R a b := by
  induction h with
  | nil =>
      cases hb
  | cons hab _ ih =>
      rcases List.mem_cons.1 hb with rfl | hb
      · exact ⟨_, by simp, hab⟩
      · obtain ⟨a, ha, hab⟩ := ih hb
        exact ⟨a, by simp [ha], hab⟩

namespace Manifest

variable {manifest : Manifest} {resolved : ResolvedManifest}

/-- A reference in a declaration is what some use stands for. -/
theorem exists_use_of_mem_uses
    {foreigns : ForeignTree} {entries : List DeclarationEntry}
    {declarations : List Declaration}
    (himages : List.Forall₂ (manifest.DeclarationImage foreigns) entries declarations)
    {declaration : Declaration} (hdeclaration : declaration ∈ declarations)
    {ref : Reference} (href : ref ∈ declaration.uses) :
    ∃ entry ∈ entries, ∃ use ∈ entry.uses, manifest.Denotes foreigns use ref := by
  obtain ⟨entry, hentry, himage⟩ := exists_mem_of_forall₂ himages hdeclaration
  obtain ⟨use, huse, hdenotes⟩ := exists_mem_of_forall₂ himage.uses href
  exact ⟨entry, hentry, use, huse, hdenotes⟩

/-- The import section of a resolved manifest's main module exists and is the one
that its declarations call for. -/
theorem isImportPlan_of_resolve
    (h : manifest.resolve = .ok resolved) (bridging : Option String) :
    ∃ m imports,
      resolved.table.host ModuleTable.main = .ok m ∧
      resolved.table.importSection ModuleTable.main bridging = .ok imports ∧
      IsImportPlan m.references resolved.table ModuleTable.main
        (nonemptyHeader bridging) imports := by
  have himage := isImage_of_resolve h
  obtain ⟨m, hm, _, himages⟩ := himage.host_main
  have hnamed : m.references.WellNamed resolved.table := by
    refine himage.wellNamed fun ref href => ?_
    obtain ⟨declaration, hdeclaration, href⟩ := HostModule.mem_references.1 href
    obtain ⟨_, _, use, _, hdenotes⟩ :=
      exists_use_of_mem_uses (himages .objc) hdeclaration href
    exact ⟨use, hdenotes⟩
  obtain ⟨imports, himports, hplan⟩ :=
    isImportPlan_of_wellNamed himage.hostName_main hnamed bridging
  refine ⟨m, imports, hm, ?_, hplan⟩
  rw [ModuleTable.importSection_of_host hm, himports]

/-- A use that an Objective-C declaration has. -/
def Mentions (manifest : Manifest) (use : String) : Prop :=
  ∃ entry ∈ manifest.objc, use ∈ entry.uses

/-- Whether a module beside the main one is the underlying module. -/
def IsUnderlyingEntry
    (manifest : Manifest) (header : Option String) (entry : ModuleEntry) : Prop :=
  match header with
  | none => entry.name = manifest.main.name
  | some _ => manifest.importedHeader = some entry.key

/-- What a manifest imports: the modules that it mentions and that have a name of their
own, and the foreign modules that it mentions. -/
def Imports (manifest : Manifest) (header : Option String) : ImportTarget → Prop
  | .host name =>
      name ≠ manifest.main.name ∧
      ∃ entry ∈ manifest.modules,
        entry.name = name ∧ manifest.Mentions entry.key ∧
          ¬ manifest.IsUnderlyingEntry header entry
  | .foreign path =>
      ∃ use, manifest.Mentions use ∧ '.' ∈ use.toList ∧ path = Text.pieces '.' use

/-- Whether a manifest mentions the underlying module. -/
def MentionsUnderlying (manifest : Manifest) (header : Option String) : Prop :=
  ∃ entry ∈ manifest.modules,
    manifest.Mentions entry.key ∧ manifest.IsUnderlyingEntry header entry

/-- An import section that holds what the manifest says. -/
structure IsPlan
    (manifest : Manifest) (header : Option String) (imports : ImportSection) : Prop where
  statements_eq :
    ∃ targets : List ImportTarget,
      imports.statements = targets.map ImportTarget.statement ∧
      (targets.Pairwise fun a b => a.segments < b.segments) ∧
      ∀ target, target ∈ targets ↔ manifest.Imports header target
  ownHeader_eq_some_iff :
    ∀ ownHeader, imports.ownHeader = some ownHeader ↔
      ownHeader = ImportSection.ownHeaderFor manifest.main.name header ∧
        manifest.MentionsUnderlying header

section Handles

variable {m : HostModule} {handle : HostHandle} {entry : ModuleEntry}

theorem mem_modules_iff :
    entry ∈ manifest.modules
      ↔
    ∃ handle : HostHandle, handle ≠ ModuleTable.main ∧
      manifest.entries[handle.index]? = some entry := by
  constructor
  · intro hentry
    obtain ⟨i, hi⟩ := List.getElem?_of_mem hentry
    exact ⟨⟨i + 1⟩, by simp [ModuleTable.main], hi⟩
  · rintro ⟨⟨i⟩, hne, hentry⟩
    cases i with
    | zero => exact absurd rfl hne
    | succ i => exact List.mem_of_getElem? hentry

/-- Whatever an Objective-C declaration uses is referred to. -/
theorem exists_reference_of_mentions
    (h : manifest.resolve = .ok resolved)
    (hm : resolved.table.host ModuleTable.main = .ok m)
    {use : String} (hmentions : manifest.Mentions use) :
    ∃ ref ∈ m.references, manifest.Denotes resolved.table.foreigns use ref := by
  obtain ⟨entry, hentry, huse⟩ := hmentions
  obtain ⟨m', hm', _, himages⟩ := (isImage_of_resolve h).host_main
  cases hm.symm.trans hm'
  obtain ⟨declaration, hdeclaration, himage⟩ :=
    exists_mem_of_forall₂ (himages .objc).flip hentry
  obtain ⟨ref, href, hdenotes⟩ := exists_mem_of_forall₂ himage.uses.flip huse
  exact ⟨ref, HostModule.mem_references.2 ⟨declaration, hdeclaration, href⟩, hdenotes⟩

/-- The Objective-C declarations refer to what their uses denote. -/
theorem mem_references_iff
    (h : manifest.resolve = .ok resolved)
    (hm : resolved.table.host ModuleTable.main = .ok m) {ref : Reference} :
    ref ∈ m.references
      ↔
    ∃ use, manifest.Mentions use ∧
      manifest.Denotes resolved.table.foreigns use ref := by
  have himage := isImage_of_resolve h
  constructor
  · intro href
    obtain ⟨m', hm', _, himages⟩ := himage.host_main
    cases hm.symm.trans hm'
    obtain ⟨declaration, hdeclaration, href⟩ := HostModule.mem_references.1 href
    obtain ⟨entry, hentry, use, huse, hdenotes⟩ :=
      exists_use_of_mem_uses (himages .objc) hdeclaration href
    exact ⟨use, ⟨entry, hentry, huse⟩, hdenotes⟩
  · rintro ⟨use, hmentions, hdenotes⟩
    obtain ⟨other, hother, hdenotes'⟩ := exists_reference_of_mentions h hm hmentions
    have hsame : other = ref :=
      hdenotes'.unique (isValid_of_resolve h).keys_nodup himage.noTwins hdenotes
    exact hsame ▸ hother

/-- A host module is referred to if its key is mentioned. -/
theorem host_mem_references_iff
    (h : manifest.resolve = .ok resolved)
    (hm : resolved.table.host ModuleTable.main = .ok m)
    (hentry : manifest.entries[handle.index]? = some entry) :
    .host handle ∈ m.references ↔ manifest.Mentions entry.key := by
  have hkey : manifest.keys[handle.index]? = some entry.key :=
    getElem?_keys_eq_some_iff.2 ⟨entry, hentry, rfl⟩
  have hvalid := (isValid_of_resolve h).entries entry (List.mem_of_getElem? hentry)
  rw [mem_references_iff h hm]
  constructor
  · rintro ⟨use, hmentions, _, huse⟩
    cases huse.symm.trans hkey
    exact hmentions
  · intro hmentions
    exact ⟨entry.key, hmentions, hvalid.dot_notMem_key, hkey⟩

/-- A foreign module is referred to if its full name is mentioned. -/
theorem exists_foreign_mem_references_iff
    (h : manifest.resolve = .ok resolved)
    (hm : resolved.table.host ModuleTable.main = .ok m) {path : List String} :
    (∃ handle, .foreign handle ∈ m.references ∧
        resolved.table.foreigns.path handle = .ok path)
      ↔
    ∃ use, manifest.Mentions use ∧ '.' ∈ use.toList ∧ path = Text.pieces '.' use := by
  constructor
  · rintro ⟨handle, href, hpath⟩
    obtain ⟨use, hmentions, hdot, _, huse⟩ := (mem_references_iff h hm).1 href
    exact ⟨use, hmentions, hdot, Except.ok.inj (hpath.symm.trans huse)⟩
  · rintro ⟨use, hmentions, hdot, rfl⟩
    obtain ⟨ref, href, hdenotes⟩ := exists_reference_of_mentions h hm hmentions
    cases ref with
    | host other => exact absurd hdot hdenotes.1
    | foreign handle => exact ⟨handle, href, hdenotes.2.2⟩

theorem isUnderlying_iff
    (h : manifest.resolve = .ok resolved) (header : Option String)
    (hentry : manifest.entries[handle.index]? = some entry) :
    IsUnderlying resolved.table ModuleTable.main header handle
      ↔
    handle ≠ ModuleTable.main ∧ manifest.IsUnderlyingEntry header entry := by
  have himage := isImage_of_resolve h
  refine and_congr_right fun _ => ?_
  cases header with
  | none =>
      show ModuleNaming.hostName resolved.table handle = _ ↔ _
      rw [himage.hostName_eq hentry, himage.hostName_main, Except.ok.injEq]
      rfl
  | some path =>
      exact himage.importedHeader_eq_some_iff (isValid_of_resolve h).keys_nodup
        (getElem?_keys_eq_some_iff.2 ⟨entry, hentry, rfl⟩)

/-- What is imported can be read off the manifest. -/
theorem exists_importedAs_iff
    (h : manifest.resolve = .ok resolved)
    (hm : resolved.table.host ModuleTable.main = .ok m)
    (header : Option String) (target : ImportTarget) :
    (∃ ref ∈ m.references,
        ImportedAs resolved.table ModuleTable.main header ref target)
      ↔
    manifest.Imports header target := by
  have himage := isImage_of_resolve h
  cases target with
  | host name =>
      constructor
      · rintro ⟨ref, href, himported⟩
        cases ref with
        | foreign other => exact himported.elim
        | host handle =>
            obtain ⟨hne, hunder, hname, hown⟩ := himported
            obtain ⟨entry, hentry, rfl⟩ := himage.hostName_eq_ok_iff.1 hname
            rw [isUnderlying_iff h header hentry] at hunder
            refine ⟨fun heq => hown (heq ▸ himage.hostName_main), entry,
              mem_modules_iff.2 ⟨handle, hne, hentry⟩, rfl, ?_,
              fun hentry => hunder ⟨hne, hentry⟩⟩
            exact (host_mem_references_iff h hm hentry).1 href
      · rintro ⟨hown, entry, hmem, rfl, hmentions, hunder⟩
        obtain ⟨handle, hne, hentry⟩ := mem_modules_iff.1 hmem
        refine ⟨.host handle, (host_mem_references_iff h hm hentry).2 hmentions,
          hne, ?_, himage.hostName_eq hentry, ?_⟩
        · rw [isUnderlying_iff h header hentry]
          exact fun hboth => hunder hboth.2
        · rw [himage.hostName_main]
          exact fun heq => hown (Except.ok.inj heq).symm
  | foreign path =>
      refine Iff.trans ?_ (exists_foreign_mem_references_iff h hm)
      constructor
      · rintro ⟨ref, href, himported⟩
        cases ref with
        | host other => exact himported.elim
        | foreign handle => exact ⟨handle, href, himported⟩
      · rintro ⟨handle, href, hpath⟩
        exact ⟨.foreign handle, href, hpath⟩

theorem exists_isUnderlying_iff
    (h : manifest.resolve = .ok resolved)
    (hm : resolved.table.host ModuleTable.main = .ok m) (header : Option String) :
    (∃ handle, .host handle ∈ m.references ∧
        IsUnderlying resolved.table ModuleTable.main header handle)
      ↔
    manifest.MentionsUnderlying header := by
  constructor
  · rintro ⟨handle, href, hunder⟩
    obtain ⟨use, _, _, hkey⟩ := (mem_references_iff h hm).1 href
    obtain ⟨entry, hentry, _⟩ := getElem?_keys_eq_some_iff.1 hkey
    obtain ⟨hne, hunderlying⟩ := (isUnderlying_iff h header hentry).1 hunder
    exact ⟨entry, mem_modules_iff.2 ⟨handle, hne, hentry⟩,
      (host_mem_references_iff h hm hentry).1 href, hunderlying⟩
  · rintro ⟨entry, hmem, hmentions, hunderlying⟩
    obtain ⟨handle, hne, hentry⟩ := mem_modules_iff.1 hmem
    exact ⟨handle, (host_mem_references_iff h hm hentry).2 hmentions,
      (isUnderlying_iff h header hentry).2 ⟨hne, hunderlying⟩⟩

end Handles

theorem isOwnHeader_iff
    (h : manifest.resolve = .ok resolved) (header : Option String)
    (ownHeader : OwnHeader) :
    IsOwnHeader resolved.table ModuleTable.main header ownHeader
      ↔
    ownHeader = ImportSection.ownHeaderFor manifest.main.name header := by
  have hname := (isImage_of_resolve h).hostName_main
  cases header <;> cases ownHeader <;>
    simp [IsOwnHeader, ImportSection.ownHeaderFor, hname, eq_comm]

/-- The import section of a resolved manifest holds what the manifest says. -/
theorem exists_isPlan_of_resolve
    (h : manifest.resolve = .ok resolved) (bridging : Option String) :
    ∃ imports,
      resolved.table.importSection ModuleTable.main bridging = .ok imports ∧
      manifest.IsPlan (nonemptyHeader bridging) imports := by
  obtain ⟨m, imports, hm, himports, hplan⟩ := isImportPlan_of_resolve h bridging
  obtain ⟨targets, hstatements, hincreasing, htargets⟩ := hplan.statements_eq
  refine ⟨imports, himports, ⟨targets, hstatements, hincreasing, fun target => ?_⟩,
    fun ownHeader => ?_⟩
  · rw [htargets target, exists_importedAs_iff h hm]
  · rw [hplan.ownHeader_eq_some_iff, isOwnHeader_iff h, exists_isUnderlying_iff h hm]

/-- The manifest determines the import section. -/
theorem IsPlan.unique
    {header : Option String} {first second : ImportSection}
    (hfirst : manifest.IsPlan header first) (hsecond : manifest.IsPlan header second) :
    first = second := by
  obtain ⟨targets, hstatements, hincreasing, htargets⟩ := hfirst.statements_eq
  obtain ⟨others, hstatements', hincreasing', hothers⟩ := hsecond.statements_eq
  refine ImportSection.eq_of_increasing hstatements hstatements' hincreasing hincreasing'
    (fun target => (htargets target).trans (hothers target).symm) fun ownHeader => ?_
  rw [hfirst.ownHeader_eq_some_iff, hsecond.ownHeader_eq_some_iff]

section Statements

variable {bridging : Option String} {imports : ImportSection}

theorem isPlan_of_importSection
    (h : manifest.resolve = .ok resolved)
    (himports :
      resolved.table.importSection ModuleTable.main bridging = .ok imports) :
    manifest.IsPlan (nonemptyHeader bridging) imports := by
  obtain ⟨imports', himports', hplan⟩ := exists_isPlan_of_resolve h bridging
  cases himports.symm.trans himports'
  exact hplan

/-- An import statement names a module of the manifest, or it consists of a
dotted use of an Objective-C declaration. -/
theorem statement_of_resolve
    (h : manifest.resolve = .ok resolved)
    (himports :
      resolved.table.importSection ModuleTable.main bridging = .ok imports)
    {statement : ImportStatement} (hmem : statement ∈ imports.statements) :
    (∃ entry ∈ manifest.entries, statement = ⟨entry.name, .host⟩) ∨
    (∃ entry ∈ manifest.objc, ∃ use ∈ entry.uses,
      '.' ∈ use.toList ∧ statement = ⟨use, .foreign⟩) := by
  obtain ⟨targets, hstatements, _, htargets⟩ :=
    (isPlan_of_importSection h himports).statements_eq
  rw [hstatements, List.mem_map] at hmem
  obtain ⟨target, htarget, rfl⟩ := hmem
  have himported := (htargets target).1 htarget
  cases target with
  | host name =>
      obtain ⟨_, entry, hentry, rfl, _⟩ := himported
      exact Or.inl ⟨entry, List.mem_cons_of_mem _ hentry, rfl⟩
  | foreign path =>
      obtain ⟨use, ⟨entry, hentry, huse⟩, hdot, rfl⟩ := himported
      refine Or.inr ⟨entry, hentry, use, huse, hdot, ?_⟩
      rw [ImportTarget.statement, Text.join_pieces]

/-- The header included for the underlying module is the umbrella header of the
main module or the bridging header. -/
theorem ownHeader_of_resolve
    (h : manifest.resolve = .ok resolved)
    (himports :
      resolved.table.importSection ModuleTable.main bridging = .ok imports)
    {ownHeader : OwnHeader} (hown : imports.ownHeader = some ownHeader) :
    ownHeader = .umbrella manifest.main.name ∨
      ∃ path, bridging = some path ∧ ownHeader = .bridging path := by
  obtain ⟨rfl, _⟩ :=
    ((isPlan_of_importSection h himports).ownHeader_eq_some_iff ownHeader).1 hown
  cases hheader : nonemptyHeader bridging with
  | none => exact Or.inl rfl
  | some path => exact Or.inr ⟨path, (Option.filter_eq_some_iff.1 hheader).1, rfl⟩

end Statements

end Manifest

end InteropHeader
