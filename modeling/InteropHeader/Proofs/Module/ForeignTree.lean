import InteropHeader.Module.ForeignTree

/-!
# Full names of foreign modules

Input:
  a tree of foreign modules, and full names interned into it one after another.

Results:
  * `Extends`: a later tree keeps every module in its place, so a handle keeps
    its full name (`Extends.path_eq`);
  * `path_intern`: the handle of an interned full name denotes that full name;
  * `path_injective`: while no two modules share both parent and name, different
    handles have different full names, interning keeps it so (`NoTwins.intern`),
    and interning the full name of a module changes nothing (`NoTwins.intern_path`);
  * `contains_intern_iff`: interning a full name adds exactly its prefixes;
  * `walk_pathAt`: the walk from a module to its root ends.
-/

namespace InteropHeader
namespace ForeignTree

/-- A handle, or none for the root, whose full name is the given one. -/
def Reaches (tree : ForeignTree) : Option ForeignHandle → List String → Prop
  | none, path => path = []
  | some handle, path => tree.path handle = .ok path

theorem reaches_root (tree : ForeignTree) : tree.Reaches none [] :=
  rfl

theorem path_eq_ok_iff
    {tree : ForeignTree} {handle : ForeignHandle} {path : List String} :
    tree.path handle = .ok path
      ↔
    ∃ h : handle.index < tree.size, tree.pathAt handle.index h = path := by
  unfold ForeignTree.path
  split
  · rename_i h
    simp [h]
  · rename_i h
    simp [h]

/-- A full name is that of the parent followed by the module's own name. -/
theorem exists_stem
    (tree : ForeignTree) (i : Nat) (h : i < tree.size) :
    ∃ stem, tree.Reaches tree.modules[i].parent stem ∧
      tree.pathAt i h = stem ++ [tree.modules[i].name] := by
  rw [pathAt]
  split
  · rename_i hparent
    exact ⟨[], by simp [hparent, Reaches], rfl⟩
  · rename_i p hparent
    have hlt := tree.parent_lt i h p hparent
    refine ⟨tree.pathAt p.index (Nat.lt_trans hlt h), ?_, rfl⟩
    rw [hparent]
    exact path_eq_ok_iff.2 ⟨Nat.lt_trans hlt h, rfl⟩

theorem pathAt_ne_nil
    (tree : ForeignTree) (i : Nat) (h : i < tree.size) :
    tree.pathAt i h ≠ [] := by
  obtain ⟨stem, _, heq⟩ := tree.exists_stem i h
  simp [heq]

theorem Reaches.unique
    {tree : ForeignTree} {place : Option ForeignHandle} {first second : List String}
    (hfirst : tree.Reaches place first) (hsecond : tree.Reaches place second) :
    first = second := by
  cases place with
  | none =>
      exact hfirst.trans hsecond.symm
  | some handle =>
      exact Except.ok.inj (hfirst.symm.trans hsecond)

/-- The full name of a module from its entry and the full name of its parent. -/
theorem path_of_parent
    {tree : ForeignTree} {i : Nat} {m : ForeignModule} {stem : List String}
    (hm : tree.modules[i]? = some m) (hstem : tree.Reaches m.parent stem) :
    tree.path ⟨i⟩ = .ok (stem ++ [m.name]) := by
  obtain ⟨h, rfl⟩ := Array.getElem?_eq_some_iff.1 hm
  obtain ⟨other, hother, heq⟩ := tree.exists_stem i h
  rw [path_eq_ok_iff]
  refine ⟨h, ?_⟩
  rw [heq, hother.unique hstem]

section Growth

/-- A later tree that keeps every module in its place. -/
structure Extends (later tree : ForeignTree) : Prop where
  size_le : tree.size ≤ later.size
  getElem?_eq : ∀ i, i < tree.size → later.modules[i]? = tree.modules[i]?

theorem Extends.refl (tree : ForeignTree) : tree.Extends tree :=
  ⟨Nat.le_refl _, fun _ _ => rfl⟩

theorem Extends.trans
    {first second third : ForeignTree}
    (h₁ : third.Extends second) (h₂ : second.Extends first) :
    third.Extends first := by
  refine ⟨Nat.le_trans h₂.size_le h₁.size_le, fun i hi => ?_⟩
  rw [h₁.getElem?_eq i (Nat.lt_of_lt_of_le hi h₂.size_le), h₂.getElem?_eq i hi]

theorem push_extends
    (tree : ForeignTree) (parent : Option ForeignHandle) (name : String)
    (hp : tree.IsParent parent) :
    (tree.push parent name hp).Extends tree := by
  refine ⟨by simp, fun i hi => ?_⟩
  have hne : i ≠ tree.modules.size := Nat.ne_of_lt hi
  simp [push, Array.getElem?_push, hne]

theorem Extends.pathAt_eq
    {later tree : ForeignTree} (h : later.Extends tree) :
    ∀ (i : Nat) (hi : i < tree.size),
      later.pathAt i (Nat.lt_of_lt_of_le hi h.size_le) = tree.pathAt i hi := by
  intro i
  induction i using Nat.strongRecOn with
  | _ i ih =>
      intro hi
      have hlater : i < later.modules.size :=
        Nat.lt_of_lt_of_le hi h.size_le
      have hsame : later.modules[i] = tree.modules[i] := by
        have := h.getElem?_eq i hi
        rw [Array.getElem?_eq_getElem hi, Array.getElem?_eq_getElem hlater] at this
        exact Option.some.inj this
      obtain ⟨stem, hstem, heq⟩ := tree.exists_stem i hi
      obtain ⟨other, hother, heq'⟩ :=
        later.exists_stem i (Nat.lt_of_lt_of_le hi h.size_le)
      rw [heq, heq', hsame]
      rw [hsame] at hother
      cases hparent : tree.modules[i].parent with
      | none =>
          rw [hparent] at hstem hother
          rw [show stem = [] from hstem, show other = [] from hother]
      | some p =>
          rw [hparent] at hstem hother
          have hlt := tree.parent_lt i hi p hparent
          obtain ⟨hp, rfl⟩ := path_eq_ok_iff.1 hstem
          obtain ⟨hp', rfl⟩ := path_eq_ok_iff.1 hother
          rw [ih p.index hlt hp]

/-- A handle keeps its full name. -/
theorem Extends.path_eq
    {later tree : ForeignTree} (h : later.Extends tree)
    {handle : ForeignHandle} {path : List String}
    (hpath : tree.path handle = .ok path) :
    later.path handle = .ok path := by
  obtain ⟨hi, heq⟩ := path_eq_ok_iff.1 hpath
  rw [path_eq_ok_iff]
  exact ⟨Nat.lt_of_lt_of_le hi h.size_le, (h.pathAt_eq handle.index hi).trans heq⟩

theorem Extends.reaches
    {later tree : ForeignTree} (h : later.Extends tree)
    {place : Option ForeignHandle} {path : List String}
    (hpath : tree.Reaches place path) :
    later.Reaches place path := by
  cases place with
  | none =>
      exact hpath
  | some handle =>
      exact h.path_eq hpath

end Growth

section Interning

/-- The child found below a parent has the parent and the name asked for. -/
theorem getElem?_of_child?
    {tree : ForeignTree} {parent : Option ForeignHandle} {name : String}
    {child : ForeignHandle}
    (h : tree.child? parent name = some child) :
    tree.modules[child.index]? = some ⟨name, parent⟩ := by
  simp only [child?, Option.map_eq_some_iff] at h
  obtain ⟨i, hi, rfl⟩ := h
  obtain ⟨hlt, hfound, _⟩ := Array.findIdx?_eq_some_iff_getElem.1 hi
  simp only [Bool.and_eq_true, decide_eq_true_eq] at hfound
  rw [Array.getElem?_eq_getElem hlt, ← hfound.1, ← hfound.2]

theorem getElem?_push_size
    (tree : ForeignTree) (parent : Option ForeignHandle) (name : String)
    (hp : tree.IsParent parent) :
    (tree.push parent name hp).modules[tree.size]? = some ⟨name, parent⟩ := by
  simp [push]

/-- Interning below a parent keeps every module and reaches the full name that
continues the parent's. -/
theorem internBelow_reaches
    {segments : List String} {tree : ForeignTree}
    {parent : Option ForeignHandle} {hp : tree.IsParent parent}
    {stem : List String} (hstem : tree.Reaches parent stem) :
    (tree.internBelow parent hp segments).1.Extends tree ∧
    (tree.internBelow parent hp segments).1.Reaches
      (tree.internBelow parent hp segments).2 (stem ++ segments) := by
  induction segments generalizing tree parent stem with
  | nil =>
      rw [internBelow, List.append_nil]
      exact ⟨Extends.refl tree, hstem⟩
  | cons segment rest ih =>
      have hassoc : stem ++ segment :: rest = (stem ++ [segment]) ++ rest := by
        simp
      rw [internBelow, hassoc]
      split
      · rename_i child hchild
        exact ih (path_of_parent (getElem?_of_child? hchild) hstem)
      · have hextends := tree.push_extends parent segment hp
        have hnew : (tree.push parent segment hp).Reaches (some ⟨tree.size⟩)
            (stem ++ [segment]) :=
          path_of_parent (tree.getElem?_push_size parent segment hp)
            (hextends.reaches hstem)
        obtain ⟨hlater, hreaches⟩ := ih hnew
        exact ⟨hlater.trans hextends, hreaches⟩

/-- Interning keeps every module in its place. -/
theorem intern_extends (tree : ForeignTree) (path : List String) :
    (tree.intern path).1.Extends tree :=
  (internBelow_reaches tree.reaches_root).1

theorem intern_reaches (tree : ForeignTree) (path : List String) :
    (tree.intern path).1.Reaches (tree.intern path).2 path :=
  (internBelow_reaches tree.reaches_root).2

/-- The handle of an interned full name denotes that full name. -/
theorem path_intern
    {tree : ForeignTree} {path : List String} {handle : ForeignHandle}
    (h : (tree.intern path).2 = some handle) :
    (tree.intern path).1.path handle = .ok path := by
  have hreaches := tree.intern_reaches path
  rw [h] at hreaches
  exact hreaches

/-- Every full name but the empty one has a handle. -/
theorem exists_handle_of_ne_nil
    (tree : ForeignTree) {path : List String} (h : path ≠ []) :
    ∃ handle, (tree.intern path).2 = some handle := by
  cases hhandle : (tree.intern path).2 with
  | none =>
      have hreaches := tree.intern_reaches path
      rw [hhandle] at hreaches
      exact absurd hreaches h
  | some handle =>
      exact ⟨handle, rfl⟩

end Interning

section Twins

/-- No two modules have both the same parent and the same name. -/
def NoTwins (tree : ForeignTree) : Prop :=
  ∀ (i j : Nat) (m : ForeignModule),
    tree.modules[i]? = some m → tree.modules[j]? = some m → i = j

theorem noTwins_empty : NoTwins empty := by
  intro i j m hi
  simp [empty] at hi

theorem NoTwins.push
    {tree : ForeignTree} (h : tree.NoTwins)
    {parent : Option ForeignHandle} {name : String}
    (hp : tree.IsParent parent) (hnone : tree.child? parent name = none) :
    (tree.push parent name hp).NoTwins := by
  have hnew : ∀ i : Nat,
      tree.modules[i]? ≠ some (⟨name, parent⟩ : ForeignModule) := by
    intro i hi
    obtain ⟨hlt, heq⟩ := Array.getElem?_eq_some_iff.1 hi
    simp only [child?, Option.map_eq_none_iff, Array.findIdx?_eq_none_iff] at hnone
    have := hnone tree.modules[i] (Array.getElem_mem hlt)
    simp [heq] at this
  intro i j m hi hj
  simp only [ForeignTree.push, Array.getElem?_push] at hi hj
  split at hi
  · split at hj
    · omega
    · cases hi
      exact absurd hj (hnew j)
  · split at hj
    · cases hj
      exact absurd hi (hnew i)
    · exact h i j m hi hj

theorem NoTwins.internBelow
    {segments : List String} {tree : ForeignTree} (h : tree.NoTwins)
    {parent : Option ForeignHandle} {hp : tree.IsParent parent} :
    (tree.internBelow parent hp segments).1.NoTwins := by
  induction segments generalizing tree parent with
  | nil =>
      rw [ForeignTree.internBelow]
      exact h
  | cons segment rest ih =>
      rw [ForeignTree.internBelow]
      split
      · exact ih h
      · rename_i hnone
        exact ih (h.push hp hnone)

/-- Interning makes no twins. -/
theorem NoTwins.intern
    {tree : ForeignTree} (h : tree.NoTwins) (path : List String) :
    (tree.intern path).1.NoTwins :=
  h.internBelow

theorem NoTwins.pathAt_injective
    {tree : ForeignTree} (h : tree.NoTwins) :
    ∀ (i j : Nat) (hi : i < tree.size) (hj : j < tree.size),
      tree.pathAt i hi = tree.pathAt j hj → i = j := by
  intro i
  induction i using Nat.strongRecOn with
  | _ i ih =>
      intro j hi hj hpaths
      obtain ⟨stem, hstem, heq⟩ := tree.exists_stem i hi
      obtain ⟨other, hother, heq'⟩ := tree.exists_stem j hj
      rw [heq, heq'] at hpaths
      obtain ⟨hstems, hnames⟩ := List.append_inj' hpaths rfl
      have hname : tree.modules[i].name = tree.modules[j].name := by
        simpa using hnames
      subst hstems
      have hparent : tree.modules[i].parent = tree.modules[j].parent := by
        cases hi' : tree.modules[i].parent with
        | none =>
            rw [hi'] at hstem
            cases hj' : tree.modules[j].parent with
            | none =>
                rfl
            | some q =>
                rw [hj', show stem = [] from hstem] at hother
                obtain ⟨hq, hempty⟩ := path_eq_ok_iff.1 hother
                exact absurd hempty (tree.pathAt_ne_nil q.index hq)
        | some p =>
            rw [hi'] at hstem
            obtain ⟨hp, hpathP⟩ := path_eq_ok_iff.1 hstem
            cases hj' : tree.modules[j].parent with
            | none =>
                rw [hj'] at hother
                rw [show stem = [] from hother] at hpathP
                exact absurd hpathP (tree.pathAt_ne_nil p.index hp)
            | some q =>
                rw [hj'] at hother
                obtain ⟨hq, hpathQ⟩ := path_eq_ok_iff.1 hother
                have hpq := ih p.index (tree.parent_lt i hi p hi') q.index hp hq
                  (hpathP.trans hpathQ.symm)
                cases p
                cases q
                simpa using hpq
      refine h i j tree.modules[i] (Array.getElem?_eq_getElem hi) ?_
      rw [Array.getElem?_eq_getElem hj]
      cases hmi : tree.modules[i]
      cases hmj : tree.modules[j]
      simp_all

/-- Different handles have different full names. -/
theorem NoTwins.path_injective
    {tree : ForeignTree} (h : tree.NoTwins)
    {first second : ForeignHandle} {path : List String}
    (hfirst : tree.path first = .ok path)
    (hsecond : tree.path second = .ok path) :
    first = second := by
  obtain ⟨hi, heq⟩ := path_eq_ok_iff.1 hfirst
  obtain ⟨hj, heq'⟩ := path_eq_ok_iff.1 hsecond
  have hindex :=
    h.pathAt_injective first.index second.index hi hj (heq.trans heq'.symm)
  cases first
  cases second
  simpa using hindex

/-- While there are no twins, a module is the child found by its parent and its name. -/
theorem NoTwins.child?_eq
    {tree : ForeignTree} (h : tree.NoTwins) {i : Nat} {m : ForeignModule}
    (hm : tree.modules[i]? = some m) :
    tree.child? m.parent m.name = some ⟨i⟩ := by
  cases hchild : tree.child? m.parent m.name with
  | some child =>
      have hindex : i = child.index :=
        h i child.index m hm (getElem?_of_child? hchild)
      rw [hindex]
  | none =>
      obtain ⟨hlt, rfl⟩ := Array.getElem?_eq_some_iff.1 hm
      simp only [child?, Option.map_eq_none_iff, Array.findIdx?_eq_none_iff] at hchild
      have := hchild tree.modules[i] (Array.getElem_mem hlt)
      simp at this

/-- Interning below a parent goes segment by segment. -/
theorem internBelow_append
    {tree later : ForeignTree} {parent place : Option ForeignHandle}
    {hp : tree.IsParent parent} {first : List String}
    (hfirst : tree.internBelow parent hp first = (later, place)) (second : List String) :
    ∃ hplace : later.IsParent place,
      tree.internBelow parent hp (first ++ second) =
        later.internBelow place hplace second := by
  induction first generalizing tree parent with
  | nil =>
      rw [internBelow] at hfirst
      cases hfirst
      exact ⟨hp, rfl⟩
  | cons segment rest ih =>
      rw [internBelow] at hfirst
      rw [List.cons_append, internBelow]
      split at hfirst
      · exact ih hfirst
      · exact ih hfirst

/-- While there are no twins, interning the full name of a module finds that module and
adds nothing. -/
theorem NoTwins.intern_pathAt
    {tree : ForeignTree} (h : tree.NoTwins) (i : Nat) (hi : i < tree.size) :
    tree.intern (tree.pathAt i hi) = (tree, some ⟨i⟩) := by
  induction i using Nat.strongRecOn with
  | _ i ih =>
      obtain ⟨stem, hstem, heq⟩ := tree.exists_stem i hi
      have hparent : tree.intern stem = (tree, tree.modules[i].parent) := by
        cases hp : tree.modules[i].parent with
        | none =>
            rw [hp] at hstem
            rw [show stem = [] from hstem, intern_nil]
        | some p =>
            rw [hp] at hstem
            obtain ⟨hlt, rfl⟩ := path_eq_ok_iff.1 hstem
            exact ih p.index (tree.parent_lt i hi p hp) hlt
      obtain ⟨_, happend⟩ := internBelow_append hparent [tree.modules[i].name]
      have hchild : tree.child? tree.modules[i].parent tree.modules[i].name = some ⟨i⟩ :=
        h.child?_eq (Array.getElem?_eq_getElem hi)
      rw [heq, ForeignTree.intern, happend, ForeignTree.internBelow]
      split
      · rename_i child hfound
        rw [hchild] at hfound
        cases hfound
        rfl
      · rename_i hnone
        rw [hchild] at hnone
        cases hnone

theorem NoTwins.intern_path
    {tree : ForeignTree} (h : tree.NoTwins) {handle : ForeignHandle} {path : List String}
    (hpath : tree.path handle = .ok path) :
    tree.intern path = (tree, some handle) := by
  obtain ⟨hlt, rfl⟩ := path_eq_ok_iff.1 hpath
  exact h.intern_pathAt handle.index hlt

end Twins

section Contents

variable {tree : ForeignTree}

/-- Some module has the given full name. -/
def Contains (tree : ForeignTree) (path : List String) : Prop :=
  ∃ handle, tree.path handle = .ok path

/-- A full name met on the way from a stem along the given segments. -/
def LiesAlong (stem segments path : List String) : Prop :=
  ∃ front, front ≠ [] ∧ front <+: segments ∧ path = stem ++ front

theorem not_liesAlong_nil (stem path : List String) : ¬ LiesAlong stem [] path := by
  rintro ⟨front, hne, hprefix, _⟩
  exact hne (List.prefix_nil.1 hprefix)

theorem liesAlong_cons_iff
    {stem rest path : List String} {segment : String} :
    LiesAlong stem (segment :: rest) path
      ↔
    path = stem ++ [segment] ∨ LiesAlong (stem ++ [segment]) rest path := by
  constructor
  · rintro ⟨front, hne, hprefix, rfl⟩
    rcases List.prefix_cons_iff.1 hprefix with rfl | ⟨others, rfl, hothers⟩
    · exact absurd rfl hne
    · by_cases hnil : others = []
      · subst hnil
        exact Or.inl rfl
      · exact Or.inr ⟨others, hnil, hothers, by simp⟩
  · rintro (rfl | ⟨front, _, hprefix, rfl⟩)
    · exact ⟨[segment], by simp, by simp, rfl⟩
    · refine ⟨segment :: front, by simp, ?_, by simp⟩
      exact List.prefix_cons_iff.2 (Or.inr ⟨front, rfl, hprefix⟩)

theorem not_contains_empty (path : List String) : ¬ empty.Contains path := by
  rintro ⟨handle, hpath⟩
  obtain ⟨h, _⟩ := path_eq_ok_iff.1 hpath
  exact absurd h (Nat.not_lt_zero _)

/-- A new module adds its own full name and no other one. -/
theorem contains_push_iff
    {parent : Option ForeignHandle} {name : String} {hp : tree.IsParent parent}
    {stem path : List String} (hstem : tree.Reaches parent stem) :
    (tree.push parent name hp).Contains path
      ↔
    tree.Contains path ∨ path = stem ++ [name] := by
  have hextends := tree.push_extends parent name hp
  have hnew : (tree.push parent name hp).path ⟨tree.size⟩ = .ok (stem ++ [name]) :=
    path_of_parent (tree.getElem?_push_size parent name hp) (hextends.reaches hstem)
  constructor
  · rintro ⟨⟨i⟩, hpath⟩
    obtain ⟨hi, heq⟩ := path_eq_ok_iff.1 hpath
    rw [size_push] at hi
    rcases Nat.lt_succ_iff_lt_or_eq.1 hi with hold | rfl
    · refine Or.inl ⟨⟨i⟩, path_eq_ok_iff.2 ⟨hold, ?_⟩⟩
      rw [← heq, hextends.pathAt_eq i hold]
    · exact Or.inr (Except.ok.inj (hpath.symm.trans hnew))
  · rintro (⟨handle, hpath⟩ | rfl)
    · exact ⟨handle, hextends.path_eq hpath⟩
    · exact ⟨⟨tree.size⟩, hnew⟩

/-- Interning below a parent adds the full names on the way and no others. -/
theorem contains_internBelow_iff
    {segments : List String} {parent : Option ForeignHandle} {hp : tree.IsParent parent}
    {stem path : List String} (hstem : tree.Reaches parent stem) :
    (tree.internBelow parent hp segments).1.Contains path
      ↔
    tree.Contains path ∨ LiesAlong stem segments path := by
  induction segments generalizing tree parent stem with
  | nil =>
      rw [internBelow]
      exact (or_iff_left (not_liesAlong_nil stem path)).symm
  | cons segment rest ih =>
      rw [internBelow, liesAlong_cons_iff, ← or_assoc]
      split
      · rename_i child hchild
        have hfound : tree.Reaches (some child) (stem ++ [segment]) :=
          path_of_parent (getElem?_of_child? hchild) hstem
        have hknown : tree.Contains path ∨ path = stem ++ [segment] ↔
            tree.Contains path :=
          or_iff_left_of_imp fun heq => ⟨child, heq ▸ hfound⟩
        rw [hknown]
        exact ih hfound
      · have hnew : (tree.push parent segment hp).Reaches (some ⟨tree.size⟩)
            (stem ++ [segment]) :=
          path_of_parent (tree.getElem?_push_size parent segment hp)
            ((tree.push_extends parent segment hp).reaches hstem)
        exact (ih hnew).trans (or_congr_left (contains_push_iff hstem))

/-- Interning a full name adds its prefixes, itself among them, and nothing else. -/
theorem contains_intern_iff {segments path : List String} :
    (tree.intern segments).1.Contains path
      ↔
    tree.Contains path ∨ (path ≠ [] ∧ path <+: segments) := by
  have hroot : LiesAlong [] segments path ↔ path ≠ [] ∧ path <+: segments := by
    simp [LiesAlong]
  rw [← hroot]
  exact contains_internBelow_iff tree.reaches_root

end Contents

section Walks

variable {tree : ForeignTree}

/-- A walk from a module to its root, parent by parent, with the names that are met,
the root's first. -/
inductive Walk (tree : ForeignTree) : ForeignHandle → List String → Prop
  | root {handle : ForeignHandle} {m : ForeignModule}
      (hm : tree.lookup handle = .ok m) (hparent : m.parent = none) :
      Walk tree handle [m.name]
  | step {handle parent : ForeignHandle} {m : ForeignModule} {names : List String}
      (hm : tree.lookup handle = .ok m) (hparent : m.parent = some parent)
      (rest : Walk tree parent names) :
      Walk tree handle (names ++ [m.name])

theorem lookup_eq_ok_iff {handle : ForeignHandle} {m : ForeignModule} :
    tree.lookup handle = .ok m
      ↔
    ∃ h : handle.index < tree.size, tree.modules[handle.index] = m := by
  unfold lookup
  constructor
  · intro h
    split at h
    · rename_i found hfound
      cases h
      exact Array.getElem?_eq_some_iff.1 hfound
    · cases h
  · rintro ⟨hlt, rfl⟩
    rw [Array.getElem?_eq_getElem hlt]

theorem lookup_of_lt {i : Nat} (h : i < tree.size) :
    tree.lookup ⟨i⟩ = .ok tree.modules[i] :=
  lookup_eq_ok_iff.2 ⟨h, rfl⟩

/-- From every module there is a walk to its root, and it meets the full name. -/
theorem walk_pathAt (i : Nat) (h : i < tree.size) :
    tree.Walk ⟨i⟩ (tree.pathAt i h) := by
  induction i using Nat.strongRecOn with
  | _ i ih =>
      rw [pathAt]
      split
      · rename_i hparent
        exact .root (lookup_of_lt h) hparent
      · rename_i p hparent
        have hlt := tree.parent_lt i h p hparent
        exact .step (lookup_of_lt h) hparent (ih p.index hlt (Nat.lt_trans hlt h))

/-- A walk takes no more steps than there are modules up to its start. -/
theorem Walk.length_le
    {handle : ForeignHandle} {names : List String} (h : tree.Walk handle names) :
    names.length ≤ handle.index + 1 := by
  induction h with
  | root hm hparent =>
      simp
  | @step handle parent m names hm hparent rest ih =>
      obtain ⟨hlt, rfl⟩ := lookup_eq_ok_iff.1 hm
      have := tree.parent_lt handle.index hlt parent hparent
      simp only [List.length_append, List.length_singleton]
      omega

end Walks

end ForeignTree
end InteropHeader
