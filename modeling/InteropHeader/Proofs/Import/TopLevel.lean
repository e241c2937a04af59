import InteropHeader.Header.Document
import InteropHeader.Proofs.Import.AnyOrder
import InteropHeader.Proofs.Manifest.Plan
import InteropHeader.Proofs.Module.History

/-!
# Faults of a table of modules

Input:
  a table that a history of changes leads to, and references to its modules.

Algorithm:
  a history makes no two foreign modules of the same full name, and a full name has one
  segment exactly if its module has no parent.  So of the ways in which a comparison can
  fail, one is left to references that denote modules: a top-level foreign module meets
  another reference.

Results:
  * `two_le_length_pathAt_iff`: which foreign modules have more than one segment;
  * `compareReferences_error_iff`: when a comparison fails;
  * `compareReferences_ne_sharedFullName`: how it never fails;
  * `exists_importSectionBy`, `exists_render`: what is planned and printed
    without a fault;
  * `faultsAtTopLevelOnly_of_history`: what this means for sorting, import sections and
    headers.
-/

namespace InteropHeader

namespace ForeignTree

/-- A full name has more than one segment exactly if the module has a parent. -/
theorem two_le_length_pathAt_iff
    (tree : ForeignTree) (i : Nat) (h : i < tree.size) :
    2 ≤ (tree.pathAt i h).length ↔ tree.modules[i].parent ≠ none := by
  obtain ⟨stem, hstem, heq⟩ := tree.exists_stem i h
  have hlength : (tree.pathAt i h).length = stem.length + 1 := by
    rw [heq, List.length_append, List.length_singleton]
  cases hparent : tree.modules[i].parent with
  | none =>
      rw [hparent] at hstem
      have hempty : stem = [] := hstem
      simp [hlength, hempty]
  | some p =>
      rw [hparent] at hstem
      obtain ⟨hp, hpath⟩ := path_eq_ok_iff.1 hstem
      have hne : stem.length ≠ 0 := by
        intro hzero
        rw [List.length_eq_zero_iff] at hzero
        exact tree.pathAt_ne_nil p.index hp (hpath.trans hzero)
      refine iff_of_true ?_ (by simp)
      omega

end ForeignTree

namespace ModuleTable

/-- Whether a reference denotes a module of the table. -/
def Knows (table : ModuleTable) : Reference → Prop
  | .host handle => handle.index < table.hosts.size
  | .foreign handle => handle.index < table.foreigns.size

/-- Whether a reference denotes a foreign module that has no parent. -/
def IsTopLevel (table : ModuleTable) : Reference → Prop
  | .host _ => False
  | .foreign handle => ∃ m, table.foreigns.lookup handle = .ok m ∧ m.parent = none

/-- Whether a reference denotes a module that is imported by itself: a host module, or a
foreign one inside another one. -/
def CanImport (table : ModuleTable) (ref : Reference) : Prop :=
  table.Knows ref ∧ ¬ table.IsTopLevel ref

section FullNames

variable {table : ModuleTable} {ref left right : Reference} {fault : Fault}

theorem exists_host_of_knows
    {handle : HostHandle} (h : table.Knows (.host handle)) :
    ∃ m, table.host handle = .ok m := by
  have hlt : handle.index < table.hosts.size := h
  exact ⟨table.hosts[handle.index], by rw [host, Array.getElem?_eq_getElem hlt]⟩

theorem hostName_of_host
    {handle : HostHandle} {m : HostModule} (h : table.host handle = .ok m) :
    ModuleNaming.hostName table handle = .ok m.name := by
  show (table.host handle).map HostModule.name = .ok m.name
  rw [h]
  rfl

theorem not_isTopLevel_iff
    {handle : ForeignHandle} (h : handle.index < table.foreigns.size) :
    ¬ table.IsTopLevel (.foreign handle) ↔
      table.foreigns.modules[handle.index].parent ≠ none := by
  have hlookup := ForeignTree.lookup_of_lt h
  refine not_congr ⟨?_, fun hparent => ⟨_, hlookup, hparent⟩⟩
  rintro ⟨m, hm, hparent⟩
  cases hlookup.symm.trans hm
  exact hparent

/-- A module that can be imported has a full name. -/
theorem CanImport.exists_fullName (h : table.CanImport ref) :
    ∃ path, fullName table ref = .ok path := by
  obtain ⟨hknows, hbelow⟩ := h
  cases ref with
  | host handle =>
      obtain ⟨m, hm⟩ := exists_host_of_knows hknows
      exact ⟨_, fullName_host_eq_ok_iff.2 ⟨m.name, hostName_of_host hm, rfl⟩⟩
  | foreign handle =>
      have hlt : handle.index < table.foreigns.size := hknows
      refine ⟨table.foreigns.pathAt handle.index hlt, fullName_foreign_eq_ok_iff.2 ⟨?_, ?_⟩⟩
      · exact ForeignTree.path_eq_ok_iff.2 ⟨hlt, rfl⟩
      · exact (table.foreigns.two_le_length_pathAt_iff _ hlt).2 ((not_isTopLevel_iff hlt).1 hbelow)

/-- A top-level foreign module has no full name that it could be imported by. -/
theorem IsTopLevel.fullName_ne_ok (h : table.IsTopLevel ref) (path : List String) :
    fullName table ref ≠ .ok path := by
  intro hpath
  cases ref with
  | host handle =>
      exact h
  | foreign handle =>
      obtain ⟨hforeign, hlength⟩ := fullName_foreign_eq_ok_iff.1 hpath
      obtain ⟨hlt, rfl⟩ := ForeignTree.path_eq_ok_iff.1 hforeign
      exact (not_isTopLevel_iff hlt).2
        ((table.foreigns.two_le_length_pathAt_iff _ hlt).1 hlength) h

/-- What keeps a reference from having a full name: it denotes nothing, or a top-level
foreign module. -/
theorem fullName_error_cases (h : fullName table ref = .error fault) :
    fault = .topLevelForeign ∨ ∃ count index, fault = .outOfRange count index := by
  cases ref with
  | host handle =>
      have hname : (table.host handle).map HostModule.name = .error fault :=
        Outcome.map_eq_error_iff.1 h
      have hhost : table.host handle = .error fault := Outcome.map_eq_error_iff.1 hname
      unfold host at hhost
      split at hhost
      · cases hhost
      · cases hhost
        exact Or.inr ⟨_, _, rfl⟩
  | foreign handle =>
      have hpath : submodulePath table handle = .error fault := Outcome.map_eq_error_iff.1 h
      unfold submodulePath at hpath
      split at hpath
      · cases hpath
      · cases hpath
        exact Or.inl rfl
      · rename_i other hother
        cases hpath
        have hforeign : table.foreigns.path handle = .error fault := hother
        unfold ForeignTree.path at hforeign
        split at hforeign
        · cases hforeign
        · cases hforeign
          exact Or.inr ⟨_, _, rfl⟩

theorem fullName_ne_sharedFullName : fullName table ref ≠ .error .sharedFullName := by
  intro h
  rcases fullName_error_cases h with heq | ⟨_, _, heq⟩
  · cases heq
  · cases heq

theorem hostName_ne_sharedFullName (own : HostHandle) :
    ModuleNaming.hostName table own ≠ .error .sharedFullName := by
  intro h
  have hfull : fullName table (.host own) = .error .sharedFullName :=
    Outcome.map_eq_error_iff.2 h
  exact fullName_ne_sharedFullName hfull

/-- A reference that denotes a module lacks a full name only as a top-level foreign
module. -/
theorem Knows.isTopLevel_of_error
    (hknows : table.Knows ref) (h : fullName table ref = .error fault) :
    table.IsTopLevel ref ∧ fault = .topLevelForeign := by
  have htop : table.IsTopLevel ref := by
    by_contra hbelow
    obtain ⟨path, hpath⟩ := CanImport.exists_fullName ⟨hknows, hbelow⟩
    rw [hpath] at h
    cases h
  refine ⟨htop, ?_⟩
  cases ref with
  | host handle =>
      exact htop.elim
  | foreign handle =>
      have hlt : handle.index < table.foreigns.size := hknows
      have hforeign : ModuleNaming.foreignPath table handle =
          .ok (table.foreigns.pathAt handle.index hlt) :=
        ForeignTree.path_eq_ok_iff.2 ⟨hlt, rfl⟩
      have hpath : submodulePath table handle = .error fault := Outcome.map_eq_error_iff.1 h
      unfold submodulePath at hpath
      rw [hforeign] at hpath
      split at hpath
      · cases hpath
      · cases hpath
        rfl
      · rename_i hother
        cases hother

end FullNames

section Comparing

variable {table : ModuleTable} (htwins : table.foreigns.NoTwins)
  {left right : Reference} {fault : Fault}
include htwins

theorem eq_of_fullName
    {f g : ForeignHandle} {path : List String}
    (hf : fullName table (.foreign f) = .ok path)
    (hg : fullName table (.foreign g) = .ok path) :
    f = g :=
  htwins.path_injective (fullName_foreign_eq_ok_iff.1 hf).1 (fullName_foreign_eq_ok_iff.1 hg).1

/-- A comparison fails only as one of its references fails to have a full name. -/
theorem fullName_eq_error_of_compareReferences
    (h : compareReferences table left right = .error fault) :
    fullName table left = .error fault ∨ fullName table right = .error fault := by
  rcases compareReferences_error_cases h with hleft | hright | ⟨_, f, g, path, rfl, rfl, hne, hf, hg⟩
  · exact Or.inl hleft
  · exact Or.inr hright
  · exact absurd (eq_of_fullName htwins hf hg) hne

/-- No two references are found to be different foreign modules of one full name, whether
or not they denote anything. -/
theorem compareReferences_ne_sharedFullName :
    compareReferences table left right ≠ .error .sharedFullName := by
  intro h
  rcases fullName_eq_error_of_compareReferences htwins h with hleft | hright
  · exact fullName_ne_sharedFullName hleft
  · exact fullName_ne_sharedFullName hright

/-- References that can be imported compare as their full names do. -/
theorem comparesBy
    {refs : List Reference} (hrefs : ∀ ref ∈ refs, table.CanImport ref) :
    ComparesBy table (segmentsOf table) refs := by
  intro a ha b hb
  obtain ⟨pathA, hpathA⟩ := (hrefs a ha).exists_fullName
  obtain ⟨pathB, hpathB⟩ := (hrefs b hb).exists_fullName
  rw [segmentsOf_eq hpathA, segmentsOf_eq hpathB]
  refine compareReferences_of_fullName hpathA hpathB fun f g hf hg heq => ?_
  subst hf hg heq
  exact eq_of_fullName htwins hpathA hpathB

/-- Comparing two references that denote modules fails exactly if they differ and one of
them is a top-level foreign module. -/
theorem compareReferences_error_iff
    (hleft : table.Knows left) (hright : table.Knows right) :
    (∃ fault, compareReferences table left right = .error fault)
      ↔
    left ≠ right ∧ (table.IsTopLevel left ∨ table.IsTopLevel right) := by
  constructor
  · rintro ⟨fault, h⟩
    refine ⟨?_, ?_⟩
    · rintro rfl
      cases left with
      | host handle =>
          have himport : table.CanImport (.host handle) := ⟨hleft, id⟩
          have hself := comparesBy htwins (List.forall_mem_singleton.2 himport)
            _ (List.mem_singleton_self _) _ (List.mem_singleton_self _)
          rw [hself] at h
          cases h
      | foreign handle =>
          rw [compareReferences_self_foreign] at h
          cases h
    · rcases fullName_eq_error_of_compareReferences htwins h with herror | herror
      · exact Or.inl (hleft.isTopLevel_of_error herror).1
      · exact Or.inr (hright.isTopLevel_of_error herror).1
  · rintro ⟨hne, htop⟩
    cases hcompare : compareReferences table left right with
    | error fault =>
        exact ⟨fault, rfl⟩
    | ok order =>
        obtain ⟨pathL, pathR, hpathL, hpathR, _⟩ :=
          exists_fullName_of_compareReferences hcompare hne
        rcases htop with htop | htop
        · exact absurd hpathL (htop.fullName_ne_ok pathL)
        · exact absurd hpathR (htop.fullName_ne_ok pathR)

end Comparing

section Sections

variable {table : ModuleTable} {references : ReferenceSet} {own : HostHandle}
  {bridging : Option String}

/-- What part a reference plays cannot be told only if it has no full name. -/
theorem fullName_eq_error_of_ofReference
    {ownName : String} {header : Option String} {ref : Reference} {fault : Fault}
    (h : ImportRole.ofReference table own ownName header ref = .error fault) :
    fullName table ref = .error fault := by
  cases ref with
  | host handle =>
      by_cases hself : handle = own
      · rw [ImportRole.ofReference, if_pos hself] at h
        cases h
      · rw [ImportRole.ofReference, if_neg hself] at h
        refine Outcome.map_eq_error_iff.2 ?_
        rcases Outcome.bind_eq_error_iff.1 h with hunder | ⟨decision, _, h⟩
        · cases header with
          | none => exact Outcome.map_eq_error_iff.1 hunder
          | some path => cases hunder
        · cases decision with
          | true => cases h
          | false =>
              rcases Outcome.bind_eq_error_iff.1 h with hname | ⟨_, _, h⟩
              · exact hname
              · cases h
  | foreign handle =>
      rcases Outcome.bind_eq_error_iff.1 h with hpath | ⟨_, _, h⟩
      · exact Outcome.map_eq_error_iff.2 hpath
      · cases h

/-- Whatever modules are referred to, and however references are sorted, an import section
never fails because two foreign modules share their full name. -/
theorem importSectionBy_ne_sharedFullName
    (htwins : table.foreigns.NoTwins) (sort : ComparisonSort Reference) :
    references.importSectionBy sort table own bridging ≠ .error .sharedFullName := by
  intro h
  rcases Outcome.bind_eq_error_iff.1 h with hname | ⟨ownName, _, h⟩
  · exact hostName_ne_sharedFullName own hname
  · rcases Outcome.bind_eq_error_iff.1 h with hsort | ⟨sorted, _, h⟩
    · obtain ⟨left, right, hcompare⟩ := Comparing.exists_of_run_eq_error hsort
      exact compareReferences_ne_sharedFullName htwins hcompare
    · rcases Outcome.bind_eq_error_iff.1 h with hroles | ⟨_, _, h⟩
      · obtain ⟨ref, _, hrole⟩ := Outcome.exists_of_mapM_eq_error hroles
        exact fullName_ne_sharedFullName (fullName_eq_error_of_ofReference hrole)
      · cases h

theorem wellNamed_of_noTwins
    (htwins : table.foreigns.NoTwins) (hrefs : ∀ ref ∈ references, table.CanImport ref) :
    references.WellNamed table where
  host_named := by
    intro handle href
    obtain ⟨_, hpath⟩ := (hrefs _ href).exists_fullName
    obtain ⟨name, hname, _⟩ := fullName_host_eq_ok_iff.1 hpath
    exact ⟨name, hname⟩
  foreign_nested := by
    intro handle href
    obtain ⟨path, hpath⟩ := (hrefs _ href).exists_fullName
    exact ⟨path, fullName_foreign_eq_ok_iff.1 hpath⟩
  path_injective := fun _ _ _ _ _ => htwins.path_injective

/-- The import section of modules that can all be imported is planned without a fault, and
it is the same with every way of sorting them. -/
theorem exists_importSectionBy
    (htwins : table.foreigns.NoTwins) (hown : table.Knows (.host own))
    (hrefs : ∀ ref ∈ references, table.CanImport ref) (bridging : Option String) :
    ∃ imports, references.importSection table own bridging = .ok imports ∧
      ∀ sort : ComparisonSort Reference,
        references.importSectionBy sort table own bridging = .ok imports := by
  obtain ⟨m, hm⟩ := exists_host_of_knows hown
  have hname := hostName_of_host hm
  have hnamed := wellNamed_of_noTwins htwins hrefs
  obtain ⟨imports, himports, hplan⟩ := isImportPlan_of_wellNamed hname hnamed bridging
  refine ⟨imports, himports, fun sort => ?_⟩
  obtain ⟨others, hothers, hother⟩ :=
    ReferenceSet.isImportPlan_importSectionBy sort bridging hname hnamed
  rw [hothers, hother.unique hplan]

/-- Nor does a header. -/
theorem render_ne_sharedFullName
    (htwins : table.foreigns.NoTwins) (own : HostHandle)
    (objc cxx : PrintedDeclarations) (options : Header.Options) :
    Header.render table own objc cxx options ≠ .error .sharedFullName := by
  intro h
  have hdraft : Header.draft table own objc cxx options = .error .sharedFullName :=
    Outcome.map_eq_error_iff.1 h
  rcases Outcome.bind_eq_error_iff.1 hdraft with hname | ⟨name, _, hrest⟩
  · exact hostName_ne_sharedFullName own hname
  · rcases Outcome.bind_eq_error_iff.1 hrest with himports | ⟨_, _, hdone⟩
    · rw [← ReferenceSet.importSectionBy_insertion] at himports
      exact importSectionBy_ne_sharedFullName htwins .insertion himports
    · cases hdone

/-- The header around declarations that refer to modules that can all be imported. -/
theorem exists_render
    (htwins : table.foreigns.NoTwins) (hown : table.Knows (.host own))
    {objc : PrintedDeclarations} (hrefs : ∀ ref ∈ objc.uses, table.CanImport ref)
    (cxx : PrintedDeclarations) (options : Header.Options) :
    ∃ text, Header.render table own objc cxx options = .ok text := by
  obtain ⟨m, hm⟩ := exists_host_of_knows hown
  have hmembers : ∀ ref ∈ ReferenceSet.ofList objc.uses, table.CanImport ref :=
    fun ref href => hrefs ref (ReferenceSet.mem_ofList.1 href)
  obtain ⟨imports, himports, _⟩ :=
    exists_importSectionBy htwins hown hmembers options.bridging
  rw [Header.render, Header.draft, hostName_of_host hm, Outcome.ok_bind, himports,
    Outcome.ok_bind]
  exact ⟨_, rfl⟩

end Sections

/-- A table whose references fail to be imported as top-level foreign modules alone. -/
structure FaultsAtTopLevelOnly (table : ModuleTable) : Prop where
  compare_error_iff : ∀ left right, table.Knows left → table.Knows right →
    ((∃ fault, compareReferences table left right = .error fault) ↔
      left ≠ right ∧ (table.IsTopLevel left ∨ table.IsTopLevel right))
  compare_error_eq : ∀ left right fault, table.Knows left → table.Knows right →
    compareReferences table left right = .error fault → fault = .topLevelForeign
  /-- No references, denoting modules or not, are found to share a full name. -/
  compare_ne_shared : ∀ left right,
    compareReferences table left right ≠ .error .sharedFullName
  section_ne_shared : ∀ (sort : ComparisonSort Reference) (references : ReferenceSet)
    (own : HostHandle) (bridging : Option String),
    references.importSectionBy sort table own bridging ≠ .error .sharedFullName
  header_ne_shared : ∀ (own : HostHandle) (objc cxx : PrintedDeclarations)
    (options : Header.Options),
    Header.render table own objc cxx options ≠ .error .sharedFullName
  /-- Modules that can be imported are sorted, by insertion or otherwise. -/
  exists_sorted : ∀ refs : List Reference, (∀ ref ∈ refs, table.CanImport ref) →
    (∃ sorted, sortReferences table refs = .ok sorted) ∧
    ∀ sort : ComparisonSort Reference,
      ∃ sorted, (sort.sort refs).run (compareReferences table) = .ok sorted
  exists_section : ∀ (references : ReferenceSet) (own : HostHandle)
    (bridging : Option String), table.Knows (.host own) →
    (∀ ref ∈ references, table.CanImport ref) →
    ∃ imports, references.importSection table own bridging = .ok imports ∧
      ∀ sort : ComparisonSort Reference,
        references.importSectionBy sort table own bridging = .ok imports
  /-- A header is printed around any declarations that refer to such modules. -/
  exists_header : ∀ (own : HostHandle) (objc cxx : PrintedDeclarations)
    (options : Header.Options), table.Knows (.host own) →
    (∀ ref ∈ objc.uses, table.CanImport ref) →
    ∃ text, Header.render table own objc cxx options = .ok text
  /-- So is the header around the declarations of a module of the table. -/
  exists_ownHeader : ∀ (own : HostHandle) (m : HostModule) (options : Header.Options),
    table.host own = .ok m →
    (∀ declaration ∈ m.objc, ∀ ref ∈ declaration.uses, table.CanImport ref) →
    ∃ text, table.header own options = .ok text

/-- **Only top-level foreign modules cannot be imported.**  In every table that a history
of changes leads to, whatever modules have been added, renamed and named alike and whatever
full names interned, comparing references that denote modules fails exactly if they differ
and one of them is a foreign module without a parent.  That two different foreign modules
have the same full name is never found, and what refers to host modules and to foreign
modules inside other ones alone is sorted, planned and printed without a fault. -/
theorem faultsAtTopLevelOnly_of_history
    {table : ModuleTable} {main : HostModule} {changes : List TableChange}
    (h : (ofMain main).applyAll changes = .ok table) :
    table.FaultsAtTopLevelOnly := by
  have htwins := noTwins_of_history h
  refine {
    compare_error_iff := fun _ _ => compareReferences_error_iff htwins
    compare_error_eq := ?_
    compare_ne_shared := fun _ _ => compareReferences_ne_sharedFullName htwins
    section_ne_shared := fun sort _ _ _ =>
      importSectionBy_ne_sharedFullName htwins sort
    header_ne_shared := render_ne_sharedFullName htwins
    exists_sorted := ?_
    exists_section := fun _ _ bridging hown hrefs =>
      exists_importSectionBy htwins hown hrefs bridging
    exists_header := fun _ _ cxx options hown hrefs =>
      exists_render htwins hown hrefs cxx options
    exists_ownHeader := ?_ }
  · intro left right fault hleft hright hfault
    rcases fullName_eq_error_of_compareReferences htwins hfault with herror | herror
    · exact (hleft.isTopLevel_of_error herror).2
    · exact (hright.isTopLevel_of_error herror).2
  · intro refs hrefs
    have hcompares := comparesBy htwins hrefs
    refine ⟨?_, fun sort => ?_⟩
    · obtain ⟨sorted, hsort, _⟩ := sortReferences_of_compares hcompares
      exact ⟨sorted, hsort⟩
    · obtain ⟨sorted, hsort, _⟩ :=
        sort.exists_run_eq_ok (compareOn (segmentsOf table)) hcompares
      exact ⟨sorted, hsort⟩
  · intro own m options hm hrefs
    have hown : table.Knows (.host own) := by
      by_contra hout
      have hnone : table.hosts[own.index]? = none :=
        Array.getElem?_eq_none (Nat.le_of_not_lt hout)
      rw [host, hnone] at hm
      cases hm
    have huses : ∀ ref ∈ (PrintedDeclarations.ofDeclarations m.objc).uses,
        table.CanImport ref := by
      intro ref href
      obtain ⟨declaration, hdeclaration, href⟩ := PrintedDeclarations.mem_uses_ofDeclarations.1 href
      exact hrefs declaration hdeclaration ref href
    obtain ⟨text, htext⟩ := exists_render htwins hown huses
      (PrintedDeclarations.ofDeclarations m.cxx) options
    refine ⟨text, ?_⟩
    rw [header, printed, printed, hm]
    exact htext

/-- In the table that `eventful` leads to, `Baz` has no parent, and the last module has a
name with a dot and a parent without a name. -/
theorem eventful_faultsAtTopLevelOnly :
    ∃ table, (ofMain { name := "Foo" }).applyAll eventful = .ok table ∧
      table.IsTopLevel (.foreign ⟨0⟩) ∧ table.CanImport (.foreign ⟨3⟩) ∧
      table.FaultsAtTopLevelOnly := by
  have hends : ∃ table, (ofMain { name := "Foo" }).applyAll eventful = .ok table ∧
      table.foreigns.modules[0]? = some ⟨"Baz", none⟩ ∧
      table.foreigns.modules[3]? = some ⟨"a.b", some ⟨2⟩⟩ :=
    ⟨_, rfl, by decide +kernel, by decide +kernel⟩
  obtain ⟨table, h, hroot, hlast⟩ := hends
  obtain ⟨hlt, hm⟩ := Array.getElem?_eq_some_iff.1 hlast
  have htop : table.IsTopLevel (.foreign ⟨0⟩) :=
    ⟨⟨"Baz", none⟩, by rw [ForeignTree.lookup, hroot], rfl⟩
  have hbelow : ¬ table.IsTopLevel (.foreign ⟨3⟩) :=
    (not_isTopLevel_iff hlt).2 (by simp [hm])
  exact ⟨table, h, htop, ⟨hlt, hbelow⟩, faultsAtTopLevelOnly_of_history h⟩

end ModuleTable
end InteropHeader
