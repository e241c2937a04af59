import InteropHeader.Import.Order
import InteropHeader.Proofs.Import.Sorting

/-!
# Imports in the order of their full names

Input:
  references to modules that can all be imported: every host module has a name,
  and every foreign submodule has a full name of at least two segments that no
  other one has.

Results:
  * `compareReferences_of_fullName`: such references compare as their full names
    do, segment by segment, a host module by its name alone;
  * `compareReferences_cases`: where references compare at all, they do so;
  * `compareReferences_error_cases`: why references do not compare;
  * `sortReferences_of_compares`: they are sorted without a fault, and none is
    lost, added or repeated.
-/

namespace InteropHeader

theorem compare_eq_lt_iff {first second : String} :
    compare first second = .lt ↔ first < second :=
  compareOfLessAndEq_eq_lt

/-- Lists of segments compare lexicographically. -/
theorem compare_segments_eq_lt_iff
    {first second : List String} :
    compare first second = .lt ↔ first < second := by
  induction first generalizing second with
  | nil =>
      cases second with
      | nil =>
          simp
      | cons segment rest =>
          simp
  | cons segment rest ih =>
      cases second with
      | nil =>
          simp
      | cons other others =>
          rw [List.compare_cons_cons, Ordering.then_eq_lt, compare_eq_lt_iff,
            Std.LawfulEqOrd.compare_eq_iff_eq, ih, List.cons_lt_cons_iff]

section FullNames

variable {κ : Type} [ModuleNaming κ]

/-- The full name that a reference stands for; a host module stands for its name
alone. -/
def fullName (names : κ) : Reference → Except Fault (List String)
  | .host handle =>
      (fun name => [name]) <$> ModuleNaming.hostName names handle
  | .foreign handle =>
      (fun (root, next, rest) => root :: next :: rest) <$>
        submodulePath names handle

theorem fullName_host_eq_ok_iff
    {names : κ} {handle : HostHandle} {path : List String} :
    fullName names (.host handle) = .ok path
      ↔
    ∃ name, ModuleNaming.hostName names handle = .ok name ∧ [name] = path := by
  exact Outcome.map_eq_ok_iff

theorem submodulePath_eq_ok_iff
    {names : κ} {handle : ForeignHandle}
    {root next : String} {rest : List String} :
    submodulePath names handle = .ok (root, next, rest)
      ↔
    ModuleNaming.foreignPath names handle = .ok (root :: next :: rest) := by
  unfold submodulePath
  split
  · rename_i heq
    simp [heq]
  · rename_i path hshort heq
    rw [heq]
    constructor
    · intro h
      simp at h
    · intro h
      cases h
      exact absurd rfl (hshort root next rest)
  · rename_i fault heq
    simp [heq]

/-- A foreign module can be imported by its full name if that has at least two
segments. -/
theorem fullName_foreign_eq_ok_iff
    {names : κ} {handle : ForeignHandle} {path : List String} :
    fullName names (.foreign handle) = .ok path
      ↔
    ModuleNaming.foreignPath names handle = .ok path ∧ 2 ≤ path.length := by
  unfold fullName
  rw [Outcome.map_eq_ok_iff]
  constructor
  · rintro ⟨⟨root, next, rest⟩, hpath, rfl⟩
    exact ⟨submodulePath_eq_ok_iff.1 hpath, by simp⟩
  · rintro ⟨hpath, hlength⟩
    match path, hlength with
    | root :: next :: rest, _ =>
        exact ⟨(root, next, rest), submodulePath_eq_ok_iff.2 hpath, rfl⟩

/-- A foreign submodule compares with a host module as its full name compares
with the host's name: the two are never equal. -/
theorem compareForeignHost_of_fullName
    {names : κ} {left : ForeignHandle} {right : HostHandle}
    {leftPath rightPath : List String}
    (hleft : fullName names (.foreign left) = .ok leftPath)
    (hright : fullName names (.host right) = .ok rightPath) :
    compareForeignHost names left right = .ok (compare leftPath rightPath) := by
  unfold fullName at hleft
  rw [Outcome.map_eq_ok_iff] at hleft
  obtain ⟨⟨root, next, rest⟩, hpath, rfl⟩ := hleft
  obtain ⟨name, hname, rfl⟩ := fullName_host_eq_ok_iff.1 hright
  have hcompare :
      compare (root :: next :: rest) [name] = (compare root name).then .gt := by
    rw [List.compare_cons_cons, List.compare_cons_nil]
  unfold compareForeignHost
  rw [hpath, hname, hcompare]
  simp only [Outcome.ok_bind]
  cases compare root name <;> rfl

/-- References that can be imported compare as their full names do. -/
theorem compareReferences_of_fullName
    {names : κ} {left right : Reference}
    {leftPath rightPath : List String}
    (hleft : fullName names left = .ok leftPath)
    (hright : fullName names right = .ok rightPath)
    (hdistinct : ∀ f g, left = .foreign f → right = .foreign g →
      leftPath = rightPath → f = g) :
    compareReferences names left right = .ok (compare leftPath rightPath) := by
  cases left with
  | host left =>
      cases right with
      | host right =>
          obtain ⟨leftName, hl, rfl⟩ := fullName_host_eq_ok_iff.1 hleft
          obtain ⟨rightName, hr, rfl⟩ := fullName_host_eq_ok_iff.1 hright
          have hcompare :
              compare [leftName] [rightName] = compare leftName rightName := by
            rw [List.compare_cons_cons]
            simp
          simp only [compareReferences, hl, hr, Outcome.ok_bind, hcompare]
          rfl
      | foreign right =>
          have h := compareForeignHost_of_fullName hright hleft
          simp only [compareReferences, h, Outcome.map_ok]
          rw [← Std.OrientedOrd.eq_swap]
  | foreign left =>
      cases right with
      | host right =>
          exact compareForeignHost_of_fullName hleft hright
      | foreign right =>
          by_cases hsame : left = right
          · subst hsame
            have hpaths : leftPath = rightPath := by
              rw [hleft] at hright
              exact Except.ok.inj hright
            subst hpaths
            rw [compareReferences_self_foreign, Std.ReflOrd.compare_self]
          · unfold fullName at hleft hright
            rw [Outcome.map_eq_ok_iff] at hleft hright
            obtain ⟨⟨leftRoot, leftNext, leftRest⟩, hl, rfl⟩ := hleft
            obtain ⟨⟨rightRoot, rightNext, rightRest⟩, hr, rfl⟩ := hright
            have hne :
                leftRoot :: leftNext :: leftRest ≠
                  rightRoot :: rightNext :: rightRest :=
              fun heq => hsame (hdistinct left right rfl rfl heq)
            simp only [compareReferences, hsame, hl, hr, Outcome.ok_bind, hne,
              if_false]
            rfl

/-- A foreign submodule and a host module do not have the same full name. -/
theorem fullName_foreign_ne_host
    {names : κ} {foreign : ForeignHandle} {host : HostHandle} {path : List String}
    (hforeign : fullName names (.foreign foreign) = .ok path) :
    fullName names (.host host) ≠ .ok path := by
  intro hhost
  obtain ⟨name, _, rfl⟩ := fullName_host_eq_ok_iff.1 hhost
  have hlength := (fullName_foreign_eq_ok_iff.1 hforeign).2
  simp at hlength

theorem exists_fullName_of_compareForeignHost
    {names : κ} {left : ForeignHandle} {right : HostHandle} {order : Ordering}
    (h : compareForeignHost names left right = .ok order) :
    ∃ leftPath rightPath, fullName names (.foreign left) = .ok leftPath ∧
      fullName names (.host right) = .ok rightPath := by
  obtain ⟨⟨root, next, rest⟩, hpath, h⟩ := Outcome.bind_eq_ok_iff.1 h
  obtain ⟨name, hname, _⟩ := Outcome.bind_eq_ok_iff.1 h
  exact ⟨_, _, Outcome.map_eq_ok_iff.2 ⟨_, hpath, rfl⟩,
    fullName_host_eq_ok_iff.2 ⟨name, hname, rfl⟩⟩

/-- Only references that can be imported compare, and only a foreign submodule is
compared with itself without a look at its full name. -/
theorem exists_fullName_of_compareReferences
    {names : κ} {left right : Reference} {order : Ordering}
    (h : compareReferences names left right = .ok order) (hne : left ≠ right) :
    ∃ leftPath rightPath, fullName names left = .ok leftPath ∧
      fullName names right = .ok rightPath ∧
      ∀ f g, left = .foreign f → right = .foreign g → leftPath ≠ rightPath := by
  cases left with
  | host left =>
      cases right with
      | host right =>
          obtain ⟨leftName, hleft, h⟩ := Outcome.bind_eq_ok_iff.1 h
          obtain ⟨rightName, hright, _⟩ := Outcome.bind_eq_ok_iff.1 h
          exact ⟨_, _, fullName_host_eq_ok_iff.2 ⟨leftName, hleft, rfl⟩,
            fullName_host_eq_ok_iff.2 ⟨rightName, hright, rfl⟩, nofun⟩
      | foreign right =>
          obtain ⟨swapped, h, _⟩ := Outcome.map_eq_ok_iff.1 h
          obtain ⟨rightPath, leftPath, hright, hleft⟩ :=
            exists_fullName_of_compareForeignHost h
          exact ⟨leftPath, rightPath, hleft, hright, nofun⟩
  | foreign left =>
      cases right with
      | host right =>
          obtain ⟨leftPath, rightPath, hleft, hright⟩ :=
            exists_fullName_of_compareForeignHost h
          exact ⟨leftPath, rightPath, hleft, hright, nofun⟩
      | foreign right =>
          have hdistinct : left ≠ right := fun heq => hne (congrArg _ heq)
          rw [compareReferences, if_neg hdistinct] at h
          obtain ⟨⟨leftRoot, leftNext, leftRest⟩, hleft, h⟩ := Outcome.bind_eq_ok_iff.1 h
          obtain ⟨⟨rightRoot, rightNext, rightRest⟩, hright, h⟩ :=
            Outcome.bind_eq_ok_iff.1 h
          refine ⟨_, _, Outcome.map_eq_ok_iff.2 ⟨_, hleft, rfl⟩,
            Outcome.map_eq_ok_iff.2 ⟨_, hright, rfl⟩, fun f g _ _ hsame => ?_⟩
          dsimp only at h
          rw [if_pos hsame] at h
          cases h

/-- Where references compare at all, they compare as their full names do. -/
theorem compareReferences_cases
    {names : κ} {left right : Reference} {order : Ordering}
    (h : compareReferences names left right = .ok order) :
    (left = right ∧ order = .eq) ∨
    ∃ leftPath rightPath, fullName names left = .ok leftPath ∧
      fullName names right = .ok rightPath ∧
      (∀ f g, left = .foreign f → right = .foreign g → leftPath ≠ rightPath) ∧
      order = compare leftPath rightPath := by
  by_cases hsame : left = right
  · subst hsame
    refine Or.inl ⟨rfl, ?_⟩
    cases left with
    | host handle =>
        obtain ⟨name, hname, h⟩ := Outcome.bind_eq_ok_iff.1 h
        rw [hname] at h
        cases h
        exact Std.ReflOrd.compare_self
    | foreign handle =>
        rw [compareReferences_self_foreign] at h
        exact (Except.ok.inj h).symm
  · obtain ⟨leftPath, rightPath, hleft, hright, hdistinct⟩ :=
      exists_fullName_of_compareReferences h hsame
    have hcompare := compareReferences_of_fullName hleft hright
      fun f g hf hg heq => absurd heq (hdistinct f g hf hg)
    rw [hcompare] at h
    exact Or.inr ⟨leftPath, rightPath, hleft, hright, hdistinct, (Except.ok.inj h).symm⟩

theorem fullName_eq_error_of_compareForeignHost
    {names : κ} {left : ForeignHandle} {right : HostHandle} {fault : Fault}
    (h : compareForeignHost names left right = .error fault) :
    fullName names (.foreign left) = .error fault ∨
      fullName names (.host right) = .error fault := by
  rcases Outcome.bind_eq_error_iff.1 h with hpath | ⟨_, _, h⟩
  · exact Or.inl (Outcome.map_eq_error_iff.2 hpath)
  · rcases Outcome.bind_eq_error_iff.1 h with hname | ⟨_, _, h⟩
    · exact Or.inr (Outcome.map_eq_error_iff.2 hname)
    · cases h

/-- A comparison fails because one of the two references cannot be imported, or because
they are different foreign submodules that share their full name. -/
theorem compareReferences_error_cases
    {names : κ} {left right : Reference} {fault : Fault}
    (h : compareReferences names left right = .error fault) :
    fullName names left = .error fault ∨ fullName names right = .error fault ∨
    fault = .sharedFullName ∧ ∃ f g path, left = .foreign f ∧ right = .foreign g ∧
      f ≠ g ∧ fullName names left = .ok path ∧ fullName names right = .ok path := by
  cases left with
  | host left =>
      cases right with
      | host right =>
          rcases Outcome.bind_eq_error_iff.1 h with hleft | ⟨_, _, h⟩
          · exact Or.inl (Outcome.map_eq_error_iff.2 hleft)
          · rcases Outcome.bind_eq_error_iff.1 h with hright | ⟨_, _, h⟩
            · exact Or.inr (Or.inl (Outcome.map_eq_error_iff.2 hright))
            · cases h
      | foreign right =>
          rcases fullName_eq_error_of_compareForeignHost (Outcome.map_eq_error_iff.1 h) with
            hright | hleft
          · exact Or.inr (Or.inl hright)
          · exact Or.inl hleft
  | foreign left =>
      cases right with
      | host right =>
          rcases fullName_eq_error_of_compareForeignHost h with hleft | hright
          · exact Or.inl hleft
          · exact Or.inr (Or.inl hright)
      | foreign right =>
          by_cases hsame : left = right
          · rw [hsame, compareReferences_self_foreign] at h
            cases h
          · rw [compareReferences, if_neg hsame] at h
            rcases Outcome.bind_eq_error_iff.1 h with hleft | ⟨leftParts, hleft, h⟩
            · exact Or.inl (Outcome.map_eq_error_iff.2 hleft)
            · rcases Outcome.bind_eq_error_iff.1 h with hright | ⟨rightParts, hright, h⟩
              · exact Or.inr (Or.inl (Outcome.map_eq_error_iff.2 hright))
              · dsimp only at h
                split at h
                · rename_i hpaths
                  cases h
                  exact Or.inr (Or.inr ⟨rfl, left, right, _, rfl, rfl, hsame,
                    Outcome.map_eq_ok_iff.2 ⟨leftParts, hleft, rfl⟩,
                    Outcome.map_eq_ok_iff.2 ⟨rightParts, hright, hpaths.symm⟩⟩)
                · cases h

end FullNames

section Sorting

variable {κ : Type} [ModuleNaming κ] {names : κ} {key : Reference → List String}

/-- References whose comparison follows a key. -/
def ComparesBy
    (names : κ) (key : Reference → List String) (refs : List Reference) : Prop :=
  ∀ a ∈ refs, ∀ b ∈ refs,
    compareReferences names a b = .ok (compare (key a) (key b))

theorem insertReference_eq_run (names : κ) (ref : Reference) (down : List Reference) :
    insertReference names ref down =
      (ComparisonSort.insertDown ref down).run (compareReferences names) := by
  induction down with
  | nil =>
      rfl
  | cons last before ih =>
      rw [insertReference, ComparisonSort.insertDown, Comparing.run]
      refine bind_congr fun order => ?_
      cases order with
      | lt =>
          dsimp only
          rw [ih, Comparing.run_bind]
          rfl
      | eq => rfl
      | gt => rfl

theorem foldlM_insertReference_eq_run (names : κ) (down refs : List Reference) :
    refs.foldlM (fun sorted ref => insertReference names ref sorted) down =
      (ComparisonSort.insertAll down refs).run (compareReferences names) := by
  induction refs generalizing down with
  | nil =>
      rfl
  | cons ref rest ih =>
      rw [List.foldlM_cons, insertReference_eq_run, ComparisonSort.insertAll,
        Comparing.run_bind]
      exact bind_congr ih

/-- References are sorted by insertion. -/
theorem sortReferences_eq_run (names : κ) (refs : List Reference) :
    sortReferences names refs =
      (ComparisonSort.insertion.sort refs).run (compareReferences names) := by
  rw [sortReferences, foldlM_insertReference_eq_run, ComparisonSort.insertion,
    Comparing.run_bind]
  rfl

/-- References whose comparison follows a key are sorted by it, and the result
holds the same references. -/
theorem sortReferences_of_compares
    {refs : List Reference}
    (hcompares : ComparesBy names key refs) :
    ∃ sorted,
      sortReferences names refs = .ok sorted ∧
      sorted.Perm refs ∧
      sorted.Pairwise fun a b => (compare (key a) (key b)).isLE := by
  rw [sortReferences_eq_run]
  exact ComparisonSort.insertion.exists_run_eq_ok (compareOn key) hcompares

end Sorting

end InteropHeader
