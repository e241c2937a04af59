import InteropHeader.Module.Basic

/-!
# Sets of referenced modules

Input:
  the references met while declarations are printed.

Algorithm:
  a reference is kept at its first mention, so the members stand in the order
  of their first mention and none stands twice.

Results:
  * no member is repeated; this is part of the type;
  * `mem_insert`, `mem_extend`: what the members are after an addition.
-/

namespace InteropHeader

/-- A set of referenced modules in the order of their first mention. -/
structure ReferenceSet where
  members : List Reference := []
  nodup : members.Nodup := by simp

namespace ReferenceSet

/-- The set without members. -/
def empty : ReferenceSet :=
  {}

instance : Membership Reference ReferenceSet :=
  ⟨fun set ref => ref ∈ set.members⟩

instance (ref : Reference) (set : ReferenceSet) : Decidable (ref ∈ set) :=
  inferInstanceAs (Decidable (ref ∈ set.members))

/-- The number of members. -/
def size (set : ReferenceSet) : Nat :=
  set.members.length

/-- Whether there is no member. -/
def isEmpty (set : ReferenceSet) : Bool :=
  set.members.isEmpty

/-- Adds a reference at the end unless it is a member already. -/
def insert (set : ReferenceSet) (ref : Reference) : ReferenceSet :=
  if h : ref ∈ set.members then
    set
  else
    { members := set.members ++ [ref]
      nodup := by
        rw [List.nodup_append]
        refine ⟨set.nodup, by simp, ?_⟩
        intro a ha b hb
        rw [List.mem_singleton] at hb
        subst hb
        exact fun hab => h (hab ▸ ha) }

/-- Adds references one after the other. -/
def extend (set : ReferenceSet) (refs : List Reference) : ReferenceSet :=
  refs.foldl insert set

/-- The set of the given references. -/
def ofList (refs : List Reference) : ReferenceSet :=
  empty.extend refs

theorem mem_insert {set : ReferenceSet} {ref other : Reference} :
    other ∈ set.insert ref ↔ other ∈ set ∨ other = ref := by
  show other ∈ (set.insert ref).members ↔ other ∈ set.members ∨ other = ref
  unfold insert
  split
  · rename_i h
    constructor
    · exact Or.inl
    · rintro (hmem | rfl)
      · exact hmem
      · exact h
  · simp

theorem mem_extend {set : ReferenceSet} {refs : List Reference} {other : Reference} :
    other ∈ set.extend refs ↔ other ∈ set ∨ other ∈ refs := by
  induction refs generalizing set with
  | nil => simp [extend]
  | cons ref rest ih =>
      have step : set.extend (ref :: rest) = (set.insert ref).extend rest := rfl
      rw [step, ih, mem_insert, List.mem_cons, or_assoc]

theorem mem_ofList {refs : List Reference} {ref : Reference} :
    ref ∈ ofList refs ↔ ref ∈ refs := by
  rw [ofList, mem_extend]
  exact or_iff_right List.not_mem_nil

end ReferenceSet

end InteropHeader
