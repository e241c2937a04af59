import InteropHeader.Proofs.Import.Section

/-!
# Import sections without an order of insertion

Input:
  references in the order in which they were inserted, repetitions among them; names
  may be missing, and foreign modules may share one.

Algorithm:
  the import section is planned with any sort that only compares.  The order of insertion
  decides in which order references are compared, and so which fault is met first.

Results:
  * `exists_error_of_not_wellNamed`: two references or more, not all of which can be
    imported, have no import section;
  * `importSection_ignoresInsertionOrder`: whether there is an import section, and
    which one, depends on nothing but the set of references.
-/

namespace InteropHeader

variable {κ : Type} [ModuleNaming κ]

section Follows

variable {names : κ}

/-- A reference that cannot be imported compares with no other one, so it may stand
before all of them, or behind them. -/
theorem follows_of_unnamed
    {ref : Reference} (href : ∀ path, fullName names ref ≠ .ok path)
    {place : Reference → Reference → Ordering} [Std.TransCmp place]
    (hplace : ∀ x y, (x = ref ↔ y = ref) → place x y = .eq) :
    Comparing.Follows (compareLex place (compareOn (segmentsOf names)))
      (compareReferences names) := by
  intro left right order h
  rcases compareReferences_cases h with ⟨rfl, rfl⟩ | ⟨pathL, pathR, hl, hr, _, rfl⟩
  · exact Std.ReflCmp.compare_self
  · have hleft : left ≠ ref := by
      rintro rfl
      exact href pathL hl
    have hright : right ≠ ref := by
      rintro rfl
      exact href pathR hr
    have hsame := hplace left right (iff_of_false hleft hright)
    rw [compareLex, hsame, compareOn, segmentsOf_eq hl, segmentsOf_eq hr]
    rfl

/-- A foreign submodule compares with no other one of its full name, so it may stand
before all of them, or behind them. -/
theorem follows_of_foreign
    (handle : ForeignHandle)
    {place : Reference → Reference → Ordering} [Std.TransCmp place]
    (hplace : ∀ x y, (x = .foreign handle ↔ y = .foreign handle) → place x y = .eq) :
    Comparing.Follows (compareLex (compareOn (segmentsOf names)) place)
      (compareReferences names) := by
  intro left right order h
  rcases compareReferences_cases h with ⟨rfl, rfl⟩ | ⟨pathL, pathR, hl, hr, hdistinct, rfl⟩
  · exact Std.ReflCmp.compare_self
  · rw [compareLex, compareOn, segmentsOf_eq hl, segmentsOf_eq hr]
    by_cases hsame : pathL = pathR
    · subst hsame
      have hneither : left ≠ .foreign handle ∧ right ≠ .foreign handle := by
        constructor
        · rintro rfl
          cases right with
          | host host => exact fullName_foreign_ne_host hl hr
          | foreign other => exact hdistinct handle other rfl rfl rfl
        · rintro rfl
          cases left with
          | host host => exact fullName_foreign_ne_host hr hl
          | foreign other => exact hdistinct other handle rfl rfl rfl
      rw [hplace left right (iff_of_false hneither.1 hneither.2), Std.ReflOrd.compare_self]
      rfl
    · have hne : compare pathL pathR ≠ .eq :=
        mt Std.LawfulEqOrd.compare_eq_iff_eq.1 hsame
      cases horder : compare pathL pathR with
      | eq => exact absurd horder hne
      | lt => rfl
      | gt => rfl

end Follows

namespace ReferenceSet

variable {references first second : ReferenceSet} {names : κ} {own : HostHandle}
  {bridging : Option String}

/-- What keeps references from being imported: one has no full name, or two foreign ones
share theirs. -/
theorem cases_of_not_wellNamed (h : ¬ references.WellNamed names) :
    (∃ ref ∈ references, ∀ path, fullName names ref ≠ .ok path) ∨
    ∃ f g path, f ≠ g ∧ .foreign f ∈ references ∧ .foreign g ∈ references ∧
      fullName names (.foreign f) = .ok path ∧ fullName names (.foreign g) = .ok path := by
  by_cases hnamed : ∀ ref ∈ references, ∃ path, fullName names ref = .ok path
  · right
    by_contra hshared
    refine h { host_named := ?_, foreign_nested := ?_, path_injective := ?_ }
    · intro handle hmem
      obtain ⟨path, hpath⟩ := hnamed _ hmem
      obtain ⟨name, hname, _⟩ := fullName_host_eq_ok_iff.1 hpath
      exact ⟨name, hname⟩
    · intro handle hmem
      obtain ⟨path, hpath⟩ := hnamed _ hmem
      exact ⟨path, fullName_foreign_eq_ok_iff.1 hpath⟩
    · intro f g path hf hg hpathF hpathG
      by_contra hne
      obtain ⟨full, hfull⟩ := hnamed _ hf
      obtain ⟨hpath, hlength⟩ := fullName_foreign_eq_ok_iff.1 hfull
      obtain rfl : path = full := Except.ok.inj (hpathF.symm.trans hpath)
      exact hshared ⟨f, g, path, hne, hf, hg, hfull,
        fullName_foreign_eq_ok_iff.2 ⟨hpathG, hlength⟩⟩
  · simp only [not_forall, not_exists, exists_prop] at hnamed
    exact Or.inl hnamed

theorem WellNamed.of_mem_iff
    (h : first.WellNamed names) (hmem : ∀ ref, ref ∈ first ↔ ref ∈ second) :
    second.WellNamed names where
  host_named handle hhandle := h.host_named handle ((hmem _).2 hhandle)
  foreign_nested handle hhandle := h.foreign_nested handle ((hmem _).2 hhandle)
  path_injective f g path hf hg :=
    h.path_injective f g path ((hmem _).2 hf) ((hmem _).2 hg)

/-- Two references or more, not all of which can be imported, cannot be sorted. -/
theorem exists_error_of_not_wellNamed
    (sort : ComparisonSort Reference) (h : ¬ references.WellNamed names)
    {a b : Reference} (ha : a ∈ references) (hb : b ∈ references) (hab : a ≠ b) :
    ∃ fault, (sort.sort references.members).run (compareReferences names) =
      .error fault := by
  rcases cases_of_not_wellNamed h with ⟨ref, href, hunnamed⟩ | ⟨f, g, path, hne, hf, hg, hpf, hpg⟩
  · obtain ⟨other, hother, hne⟩ : ∃ other ∈ references, other ≠ ref := by
      by_cases hsame : a = ref
      · exact ⟨b, hb, fun heq => hab (hsame.trans heq.symm)⟩
      · exact ⟨a, ha, hsame⟩
    refine sort.exists_error_of_opposed
      (follows_of_unnamed hunnamed fun _ _ => ComparisonSort.before_eq_eq)
      (follows_of_unnamed hunnamed fun _ _ => ComparisonSort.behind_eq_eq)
      href hother ?_ ?_
    · rw [compareLex, ComparisonSort.before_eq_lt hne]
      rfl
    · rw [compareLex, ComparisonSort.behind_eq_lt hne]
      rfl
  · have hdistinct : Reference.foreign g ≠ .foreign f := by
      rintro heq
      cases heq
      exact hne rfl
    refine sort.exists_error_of_opposed
      (follows_of_foreign f fun _ _ => ComparisonSort.before_eq_eq)
      (follows_of_foreign f fun _ _ => ComparisonSort.behind_eq_eq)
      hf hg ?_ ?_
    · rw [compareLex, compareOn, segmentsOf_eq hpf, segmentsOf_eq hpg,
        Std.ReflOrd.compare_self, ComparisonSort.before_eq_lt hdistinct]
      rfl
    · rw [compareLex, compareOn, segmentsOf_eq hpf, segmentsOf_eq hpg,
        Std.ReflOrd.compare_self, ComparisonSort.behind_eq_lt hdistinct]
      rfl

/-- The import section of a module, planned with the given sort. -/
def importSectionBy
    (sort : ComparisonSort Reference) (references : ReferenceSet) (names : κ)
    (own : HostHandle) (bridging : Option String) : Except Fault ImportSection := do
  let header := nonemptyHeader bridging
  let ownName ← ModuleNaming.hostName names own
  let sorted ← (sort.sort references.members).run (compareReferences names)
  let roles ← sorted.mapM (ImportRole.ofReference names own ownName header)
  return ImportSection.ofRoles ownName header roles

theorem importSectionBy_insertion :
    references.importSectionBy .insertion names own bridging =
      references.importSection names own bridging := by
  rw [importSectionBy, importSection]
  simp only [sortReferences_eq_run]

theorem importSectionBy_error_of_not_wellNamed
    (sort : ComparisonSort Reference) (own : HostHandle) (bridging : Option String)
    (h : ¬ references.WellNamed names)
    {a b : Reference} (ha : a ∈ references) (hb : b ∈ references) (hab : a ≠ b) :
    ∃ fault, references.importSectionBy sort names own bridging = .error fault := by
  cases hown : ModuleNaming.hostName names own with
  | error fault =>
      exact ⟨fault, by simp only [importSectionBy, hown]; rfl⟩
  | ok ownName =>
      obtain ⟨fault, hsort⟩ := exists_error_of_not_wellNamed sort h ha hb hab
      exact ⟨fault, by simp only [importSectionBy, hown, hsort]; rfl⟩

/-- Whatever sort is used, references that can all be imported have the import section
that they call for. -/
theorem isImportPlan_importSectionBy
    (sort : ComparisonSort Reference) (bridging : Option String) {ownName : String}
    (hown : ModuleNaming.hostName names own = .ok ownName)
    (hnamed : references.WellNamed names) :
    ∃ imports,
      references.importSectionBy sort names own bridging = .ok imports ∧
      IsImportPlan references names own (nonemptyHeader bridging) imports := by
  obtain ⟨sorted, hsort, hperm, hsorted⟩ :=
    sort.exists_run_eq_ok (compareOn (segmentsOf names)) hnamed.comparesBy
  obtain ⟨roles, hroles, hplan⟩ := isImportPlan_of_sorted hown hnamed hperm hsorted
  refine ⟨_, ?_, hplan⟩
  simp only [importSectionBy, hown, hsort, Outcome.ok_bind, hroles]
  rfl

end ReferenceSet

theorem IsImportPlan.of_mem_iff
    {first second : ReferenceSet} {names : κ} {own : HostHandle} {header : Option String}
    {imports : ImportSection} (h : IsImportPlan first names own header imports)
    (hmem : ∀ ref, ref ∈ first ↔ ref ∈ second) :
    IsImportPlan second names own header imports where
  statements_eq := by
    obtain ⟨targets, hstatements, hincreasing, htargets⟩ := h.statements_eq
    exact ⟨targets, hstatements, hincreasing, fun target => by simp only [htargets, hmem]⟩
  ownHeader_eq_some_iff ownHeader := by
    simp only [h.ownHeader_eq_some_iff, hmem]

namespace ReferenceSet

variable {names : κ} {own : HostHandle} {bridging : Option String}

theorem eq_of_subsingleton
    {first second : ReferenceSet} (hmem : ∀ ref, ref ∈ first ↔ ref ∈ second)
    (h : ∀ a ∈ first, ∀ b ∈ first, a = b) : first = second := by
  have hperm : first.members.Perm second.members :=
    (List.perm_ext_iff_of_nodup first.nodup second.nodup).2 hmem
  have hany : ∀ refs : List Reference, refs.Pairwise fun _ _ => True :=
    fun _ => List.pairwise_of_forall fun _ _ => trivial
  have hmembers : first.members = second.members :=
    hperm.eq_of_pairwise (fun a b ha hb _ _ => h a ha b ((hmem b).2 hb)) (hany _) (hany _)
  cases first
  cases second
  cases hmembers
  rfl

/-- Sets of the same references have the same import section, or none. -/
theorem importSectionBy_of_mem_iff
    (sort : ComparisonSort Reference) {first second : ReferenceSet}
    (hmem : ∀ ref, ref ∈ first ↔ ref ∈ second) :
    (first.importSectionBy sort names own bridging).toOption =
      (second.importSectionBy sort names own bridging).toOption := by
  cases hown : ModuleNaming.hostName names own with
  | error fault =>
      simp only [importSectionBy, hown]
      rfl
  | ok ownName =>
      by_cases hnamed : first.WellNamed names
      · obtain ⟨imports, himports, hplan⟩ :=
          isImportPlan_importSectionBy sort bridging hown hnamed
        obtain ⟨others, hothers, hother⟩ :=
          isImportPlan_importSectionBy sort bridging hown
            (hnamed.of_mem_iff hmem)
        rw [himports, hothers, (hplan.of_mem_iff hmem).unique hother]
      · have hsecond : ¬ second.WellNamed names := fun h =>
          hnamed (h.of_mem_iff fun ref => (hmem ref).symm)
        by_cases hpair : ∃ a ∈ first, ∃ b ∈ first, a ≠ b
        · obtain ⟨a, ha, b, hb, hab⟩ := hpair
          obtain ⟨fault, hfault⟩ := importSectionBy_error_of_not_wellNamed sort
            own bridging hnamed ha hb hab
          obtain ⟨other, hother⟩ := importSectionBy_error_of_not_wellNamed sort
            own bridging hsecond
            ((hmem a).1 ha) ((hmem b).1 hb) hab
          rw [hfault, hother]
          rfl
        · -- a single reference is not compared, and may even have an import section
          obtain rfl : first = second := eq_of_subsingleton hmem
            fun a ha b hb => by_contra fun hab => hpair ⟨a, ha, b, hb, hab⟩
          rfl

end ReferenceSet

/-- A way to plan imports for which the order of insertion does not matter. -/
structure IgnoresInsertionOrder
    (names : κ) (plan : ReferenceSet → Except Fault ImportSection) : Prop where
  /-- The same references have the same import section or none, in whatever order and
  how often they are inserted. -/
  toOption_eq : ∀ first second : List Reference, (∀ ref, ref ∈ first ↔ ref ∈ second) →
    (plan (.ofList first)).toOption = (plan (.ofList second)).toOption
  /-- Foreign modules that share their full name are never imported together. -/
  exists_error : ∀ (refs : List Reference) (f g : ForeignHandle) (path : List String),
    f ≠ g → .foreign f ∈ refs → .foreign g ∈ refs →
    ModuleNaming.foreignPath names f = .ok path →
    ModuleNaming.foreignPath names g = .ok path →
    ∃ fault, plan (.ofList refs) = .error fault

theorem importSectionBy_ignoresInsertionOrder
    (sort : ComparisonSort Reference) (names : κ) (own : HostHandle)
    (bridging : Option String) :
    IgnoresInsertionOrder names fun references =>
      references.importSectionBy sort names own bridging where
  toOption_eq first second hmem := by
    refine ReferenceSet.importSectionBy_of_mem_iff sort fun ref => ?_
    rw [ReferenceSet.mem_ofList, ReferenceSet.mem_ofList]
    exact hmem ref
  exists_error refs f g path hne hf hg hpathF hpathG := by
    have hf := ReferenceSet.mem_ofList.2 hf
    have hg := ReferenceSet.mem_ofList.2 hg
    refine ReferenceSet.importSectionBy_error_of_not_wellNamed sort own bridging
      (fun hnamed => ?_) hf hg fun heq => hne (Reference.foreign.inj heq)
    exact hne (hnamed.path_injective f g path hf hg hpathF hpathG)

/-- **The order of insertion never matters, not even for faults.**  This holds of import
sections, and it would hold with any other sort that only compares: whatever modules
lack a name or share one, every order makes the sort meet a fault or none does. -/
theorem importSection_ignoresInsertionOrder
    (names : κ) (own : HostHandle) (bridging : Option String) :
    (IgnoresInsertionOrder names fun references =>
      references.importSection names own bridging) ∧
    ∀ sort : ComparisonSort Reference, IgnoresInsertionOrder names fun references =>
      references.importSectionBy sort names own bridging := by
  refine ⟨?_, fun sort => importSectionBy_ignoresInsertionOrder sort names own bridging⟩
  have h := importSectionBy_ignoresInsertionOrder .insertion names own bridging
  simp only [ReferenceSet.importSectionBy_insertion] at h
  exact h

/-- A reference without a name is imported as the bridging header, but not together with
another one. -/
example :
    let names : NameTable := ⟨["Foo", "Bar"], [], some ⟨7⟩, ""⟩
    let plan? (refs : List Reference) :=
      ((ReferenceSet.ofList refs).importSection names ⟨0⟩ (some "Foo.h")).toOption
    plan? [.host ⟨7⟩] = some ⟨[], some (.bridging "Foo.h")⟩ ∧
      plan? [.host ⟨7⟩, .host ⟨1⟩] = none := by
  decide

end InteropHeader
