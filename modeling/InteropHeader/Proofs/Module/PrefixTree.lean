import InteropHeader.Proofs.Module.History
import Mathlib.Data.Finset.Card
import Mathlib.Data.List.Infix
import Mathlib.Data.List.Nodup

/-!
# The foreign modules that a history leaves behind

Input:
  a history of a table of modules.

Algorithm:
  the foreign modules of the table depend on the full names alone that are interned in it,
  in their order.  Interning a full name goes through its prefixes, the shortest first, and
  adds those that no module has yet.

Results:
  * `ForeignTree.Lists.internBelow`: what one full name adds behind the modules there are;
  * `foreigns_of_history`: a history does to the foreign modules what its full names do;
  * `isPrefixTree_of_history`: the foreign modules are the prefixes of the full names, in the
    order of their first appearance.
-/

namespace InteropHeader

/-- The prefixes of a full name but for the empty one, the shortest first. -/
def prefixes (path : List String) : List (List String) :=
  path.inits.tail

theorem mem_prefixes_iff {front path : List String} :
    front ∈ prefixes path
      ↔
    front ≠ [] ∧ front <+: path := by
  cases path with
  | nil =>
      simp [prefixes]
  | cons segment rest =>
      rw [prefixes, List.inits_cons, List.tail_cons, List.mem_map]
      constructor
      · rintro ⟨others, hothers, rfl⟩
        exact ⟨by simp, List.cons_prefix_cons.2 ⟨rfl, (List.mem_inits _ _).1 hothers⟩⟩
      · rintro ⟨hne, hprefix⟩
        rcases List.prefix_cons_iff.1 hprefix with rfl | ⟨others, rfl, hothers⟩
        · exact absurd rfl hne
        · exact ⟨others, (List.mem_inits _ _).2 hothers, rfl⟩

/-- What interning goes through below a stem: first the module of the first segment, and then
what is below that one. -/
theorem map_prefixes_cons (stem : List String) (segment : String) (rest : List String) :
    (prefixes (segment :: rest)).map (stem ++ ·) =
      (stem ++ [segment]) :: (prefixes rest).map (stem ++ [segment] ++ ·) := by
  have hinits : rest.inits = [] :: prefixes rest := by
    cases rest <;> simp [prefixes]
  rw [prefixes, List.inits_cons, List.tail_cons, hinits]
  simp

/-- A new last entry stays unless it has appeared before. -/
theorem eraseDups_concat (seen : List (List String)) (path : List String) :
    (seen ++ [path]).eraseDups =
      if path ∈ seen then seen.eraseDups else seen.eraseDups ++ [path] := by
  rw [List.eraseDups_append]
  by_cases hmem : path ∈ seen
  · simp [List.removeAll, hmem]
  · simp [List.removeAll, List.eraseDups_cons, hmem]

namespace ForeignTree

variable {tree : ForeignTree}

/-- The full names of all modules, in the order of their handles. -/
def Lists (tree : ForeignTree) (names : List (List String)) : Prop :=
  (List.range tree.size).map (fun i => tree.path ⟨i⟩) = names.map .ok

theorem lists_empty : empty.Lists [] :=
  rfl

namespace Lists

variable {names : List (List String)} (h : tree.Lists names)
include h

theorem length_eq : names.length = tree.size := by
  simpa using (congrArg List.length h).symm

theorem mem_iff_contains {path : List String} :
    path ∈ names
      ↔
    tree.Contains path := by
  have hmem : path ∈ names ↔ (.ok path : Except Fault _) ∈ names.map .ok := by
    simp
  rw [hmem, ← h, List.mem_map]
  constructor
  · rintro ⟨i, _, hpath⟩
    exact ⟨⟨i⟩, hpath⟩
  · rintro ⟨handle, hpath⟩
    obtain ⟨hlt, _⟩ := path_eq_ok_iff.1 hpath
    exact ⟨handle.index, List.mem_range.2 hlt, hpath⟩

theorem nodup (htwins : tree.NoTwins) : names.Nodup := by
  refine List.Nodup.of_map (Except.ok : _ → Except Fault _) ?_
  rw [← h]
  refine List.nodup_range.map_on fun i hi j hj hpath => ?_
  have hok : tree.path ⟨i⟩ = .ok (tree.pathAt i (List.mem_range.1 hi)) :=
    path_eq_ok_iff.2 ⟨List.mem_range.1 hi, rfl⟩
  have hhandle := htwins.path_injective hok (hpath.symm.trans hok)
  injection hhandle

theorem push
    {parent : Option ForeignHandle} {hp : tree.IsParent parent} {stem : List String}
    (hstem : tree.Reaches parent stem) (name : String) :
    (tree.push parent name hp).Lists (names ++ [stem ++ [name]]) := by
  have hextends := tree.push_extends parent name hp
  have hnew : (tree.push parent name hp).path ⟨tree.size⟩ = .ok (stem ++ [name]) :=
    path_of_parent (tree.getElem?_push_size parent name hp) (hextends.reaches hstem)
  have hold : ∀ i ∈ List.range tree.size,
      (tree.push parent name hp).path ⟨i⟩ = tree.path ⟨i⟩ := by
    intro i hi
    have hpath : tree.path ⟨i⟩ = .ok (tree.pathAt i (List.mem_range.1 hi)) :=
      path_eq_ok_iff.2 ⟨List.mem_range.1 hi, rfl⟩
    rw [hextends.path_eq hpath, hpath]
  rw [Lists, size_push, List.range_succ, List.map_append, List.map_congr_left hold, h,
    List.map_append, List.map_singleton, List.map_singleton, hnew]

end Lists

/-- While there are no twins, a place is told from its full name. -/
theorem NoTwins.reaches_injective
    (h : tree.NoTwins) {first second : Option ForeignHandle} {path : List String}
    (hfirst : tree.Reaches first path) (hsecond : tree.Reaches second path) :
    first = second := by
  have hnil : ∀ handle, ¬ tree.Reaches (some handle) [] := by
    intro handle hpath
    obtain ⟨hlt, hempty⟩ := path_eq_ok_iff.1 hpath
    exact tree.pathAt_ne_nil handle.index hlt hempty
  cases first with
  | none =>
      cases hfirst
      cases second with
      | none => rfl
      | some handle => exact absurd hsecond (hnil handle)
  | some handle =>
      cases second with
      | none =>
          cases hsecond
          exact absurd hfirst (hnil handle)
      | some other =>
          rw [h.path_injective hfirst hsecond]

/-- While there are no twins, a module that is not found below a parent is nowhere. -/
theorem NoTwins.not_contains_of_child?
    (h : tree.NoTwins) {parent : Option ForeignHandle} {stem : List String} {name : String}
    (hstem : tree.Reaches parent stem) (hnone : tree.child? parent name = none) :
    ¬ tree.Contains (stem ++ [name]) := by
  rintro ⟨handle, hpath⟩
  obtain ⟨hlt, heq⟩ := path_eq_ok_iff.1 hpath
  obtain ⟨other, hother, heq'⟩ := tree.exists_stem handle.index hlt
  obtain ⟨rfl, hname⟩ := List.append_inj' (heq'.symm.trans heq) rfl
  have hparent := h.reaches_injective hother hstem
  have hchild := h.child?_eq (Array.getElem?_eq_getElem hlt)
  rw [hparent, show tree.modules[handle.index].name = name by simpa using hname, hnone] at hchild
  cases hchild

/-- Interning below a parent appends the prefixes on the way that no module has yet. -/
theorem Lists.internBelow
    {seen : List (List String)} (h : tree.Lists seen.eraseDups) (htwins : tree.NoTwins)
    {parent : Option ForeignHandle} {hp : tree.IsParent parent} {stem : List String}
    (hstem : tree.Reaches parent stem) (segments : List String) :
    (tree.internBelow parent hp segments).1.Lists
      (seen ++ (prefixes segments).map (stem ++ ·)).eraseDups := by
  induction segments generalizing tree parent stem seen with
  | nil =>
      rw [ForeignTree.internBelow]
      simpa [prefixes] using h
  | cons segment rest ih =>
      have hmem : stem ++ [segment] ∈ seen ↔ tree.Contains (stem ++ [segment]) :=
        List.mem_eraseDups.symm.trans h.mem_iff_contains
      have hassoc : seen ++ (prefixes (segment :: rest)).map (stem ++ ·) =
          (seen ++ [stem ++ [segment]]) ++ (prefixes rest).map (stem ++ [segment] ++ ·) := by
        rw [map_prefixes_cons, List.append_assoc, List.singleton_append]
      rw [ForeignTree.internBelow, hassoc]
      split
      · rename_i child hchild
        have hfound : tree.Reaches (some child) (stem ++ [segment]) :=
          path_of_parent (getElem?_of_child? hchild) hstem
        refine ih ?_ htwins hfound
        rwa [eraseDups_concat, if_pos (hmem.2 ⟨child, hfound⟩)]
      · rename_i hnone
        have hnew : (tree.push parent segment hp).Reaches (some ⟨tree.size⟩)
            (stem ++ [segment]) :=
          path_of_parent (tree.getElem?_push_size parent segment hp)
            ((tree.push_extends parent segment hp).reaches hstem)
        refine ih ?_ (htwins.push hp hnone) hnew
        rw [eraseDups_concat, if_neg (mt hmem.1 (htwins.not_contains_of_child? hstem hnone))]
        exact h.push hstem segment

/-- The tree after full names are interned one after another. -/
def internAll (tree : ForeignTree) (paths : List (List String)) : ForeignTree :=
  paths.foldl (fun now path => (now.intern path).1) tree

theorem NoTwins.internAll (h : tree.NoTwins) (paths : List (List String)) :
    (tree.internAll paths).NoTwins := by
  induction paths generalizing tree with
  | nil =>
      exact h
  | cons path rest ih =>
      exact ih (h.intern path)

theorem Lists.internAll
    {seen : List (List String)} (h : tree.Lists seen.eraseDups) (htwins : tree.NoTwins)
    (paths : List (List String)) :
    (tree.internAll paths).Lists (seen ++ paths.flatMap prefixes).eraseDups := by
  induction paths generalizing tree seen with
  | nil =>
      simpa [ForeignTree.internAll] using h
  | cons path rest ih =>
      have hpath : (tree.intern path).1.Lists (seen ++ prefixes path).eraseDups := by
        simpa [intern] using h.internBelow htwins tree.reaches_root path
      rw [List.flatMap_cons, ← List.append_assoc]
      exact ih hpath (htwins.intern path)

/-- A tree of exactly the prefixes of full names, in the order of their first appearance. -/
structure IsPrefixTree (tree : ForeignTree) (paths : List (List String)) : Prop where
  /-- Handle by handle, the full names are those that have not appeared before. -/
  map_path : (List.range tree.size).map (fun i => tree.path ⟨i⟩) =
    (paths.flatMap prefixes).eraseDups.map .ok
  size_eq : tree.size = (paths.flatMap prefixes).toFinset.card
  contains_iff : ∀ path, tree.Contains path ↔
    path ≠ [] ∧ ∃ whole ∈ paths, path <+: whole

theorem isPrefixTree_internAll (paths : List (List String)) :
    (empty.internAll paths).IsPrefixTree paths := by
  have hempty : empty.Lists ([] : List (List String)).eraseDups :=
    lists_empty
  have hlists : (empty.internAll paths).Lists (paths.flatMap prefixes).eraseDups := by
    simpa using hempty.internAll noTwins_empty paths
  have htwins : (empty.internAll paths).NoTwins :=
    noTwins_empty.internAll paths
  have hset : (paths.flatMap prefixes).eraseDups.toFinset =
      (paths.flatMap prefixes).toFinset := by
    ext path
    simp
  refine ⟨hlists, ?_, fun path => ?_⟩
  · rw [← hlists.length_eq, ← hset, List.toFinset_card_of_nodup (hlists.nodup htwins)]
  · rw [← hlists.mem_iff_contains, List.mem_eraseDups, List.mem_flatMap]
    constructor
    · rintro ⟨whole, hwhole, hmem⟩
      obtain ⟨hne, hprefix⟩ := mem_prefixes_iff.1 hmem
      exact ⟨hne, whole, hwhole, hprefix⟩
    · rintro ⟨hne, whole, hwhole, hprefix⟩
      exact ⟨whole, hwhole, mem_prefixes_iff.2 ⟨hne, hprefix⟩⟩

end ForeignTree

namespace TableChange

/-- The full name that a change interns, if it does. -/
def path? : TableChange → Option (List String)
  | intern path => some path
  | _ => none

/-- A change does to the foreign modules what the full name does that it interns. -/
theorem foreigns_eq {table later : ModuleTable} {change : TableChange}
    (h : change.apply table = .ok later) :
    later.foreigns = table.foreigns.internAll change.path?.toList := by
  have hother : ¬ change.Names table .foreigns → later.foreigns = table.foreigns :=
    agreesOn_of_not_names h
  cases change with
  | intern path =>
      cases h
      rfl
  | add m => exact hother nofun
  | edit handle f => exact hother nofun
  | nameImportedHeader handle => exact hother nofun
  | nameToolchain version => exact hother nofun

end TableChange

namespace ModuleTable

variable {table later : ModuleTable} {changes : List TableChange}

/-- The full names that a history interns, in order. -/
def interned (changes : List TableChange) : List (List String) :=
  changes.filterMap TableChange.path?

/-- A history does to the foreign modules what the full names do that it interns. -/
theorem foreigns_of_history (h : table.applyAll changes = .ok later) :
    later.foreigns = table.foreigns.internAll (interned changes) := by
  induction changes generalizing table with
  | nil =>
      cases h
      rfl
  | cons change rest ih =>
      obtain ⟨next, hnext, hrest⟩ := applyAll_cons_eq_ok_iff.1 h
      rw [ih hrest, TableChange.foreigns_eq hnext]
      cases hpath : change.path? with
      | none => simp [interned, hpath, ForeignTree.internAll]
      | some path => simp [interned, hpath, ForeignTree.internAll]

/-- **The foreign modules are the prefixes of the full names that are interned, in the order
of their first appearance.**  Whatever else a history does plays no part; and which full
names there are does not depend on the order in which they are interned. -/
theorem isPrefixTree_of_history
    {main : HostModule} (h : (ofMain main).applyAll changes = .ok table) :
    table.foreigns.IsPrefixTree (interned changes) ∧
      ∀ (main : HostModule) (others : List TableChange) (other : ModuleTable),
        (ofMain main).applyAll others = .ok other →
        (interned others).Perm (interned changes) →
        ∀ path, other.foreigns.Contains path ↔ table.foreigns.Contains path := by
  have htree : ∀ {main : HostModule} {changes : List TableChange} {table : ModuleTable},
      (ofMain main).applyAll changes = .ok table →
      table.foreigns.IsPrefixTree (interned changes) := by
    intro main changes table hchanges
    rw [foreigns_of_history hchanges]
    exact ForeignTree.isPrefixTree_internAll _
  refine ⟨htree h, fun main others other hothers hperm path => ?_⟩
  rw [(htree hothers).contains_iff, (htree h).contains_iff]
  simp only [hperm.mem_iff]

/-- The foreign modules that `eventful` leaves behind, and those that its full names do in
the opposite order. -/
theorem eventful_isPrefixTree :
    ∃ table other : ModuleTable,
      (ofMain { name := "Foo" }).applyAll eventful = .ok table ∧
      (ofMain { name := "Foo" }).applyAll ((interned eventful).reverse.map .intern) =
        .ok other ∧
      (List.range table.foreigns.size).map (fun i => table.foreigns.path ⟨i⟩) =
        [.ok ["Baz"], .ok ["Baz", "Sub"], .ok ["Baz", ""], .ok ["Baz", "", "a.b"]] ∧
      table.foreigns.size = 4 ∧
      ∀ path, other.foreigns.Contains path ↔ table.foreigns.Contains path := by
  have hends : ∃ table, (ofMain { name := "Foo" }).applyAll eventful = .ok table :=
    ⟨_, rfl⟩
  have hreversed : ∃ other,
      (ofMain { name := "Foo" }).applyAll ((interned eventful).reverse.map .intern) =
        .ok other :=
    ⟨_, rfl⟩
  obtain ⟨table, h⟩ := hends
  obtain ⟨other, hother⟩ := hreversed
  obtain ⟨htree, hsame⟩ := isPrefixTree_of_history h
  refine ⟨table, other, h, hother, ?_, ?_, hsame _ _ other hother (by decide)⟩
  · rw [htree.map_path]
    decide
  · rw [htree.size_eq]
    decide

end ModuleTable

end InteropHeader
