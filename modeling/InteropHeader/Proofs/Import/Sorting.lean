import InteropHeader.Proofs.Outcome
import Mathlib.Data.List.Pairwise

/-!
# Sorting by comparisons that may fail

Input:
  a list, and a comparison of its members that may end with an error.

Algorithm:
  a computation that compares is a tree: at a node it asks how two members compare, and
  the answer says which branch it goes on with; a leaf holds its result.  A comparison
  that fails ends it.

Results:
  * `Comparing.run_eq_answer`: a run in which no question fails has the result that the
    answers lead to;
  * `Comparing.answer_eq_of_run`: a run that ends follows every order that agrees with
    the comparison wherever that does not fail;
  * `Comparing.exists_of_run_eq_error`: a run that fails does so in a comparison;
  * `ComparisonSort.insertion`: insertion sorts;
  * `ComparisonSort.exists_error_of_opposed`: no sort of two members ends that may stand
    either way round as far as the comparison says.
-/

namespace InteropHeader

/-- A computation that may ask how members of `α` compare. -/
inductive Comparing (α β : Type)
  | done (result : β)
  | ask (left right : α) (next : Ordering → Comparing α β)

namespace Comparing

variable {α β γ ε : Type}

/-- The result if no comparison fails. -/
def answer (cmp : α → α → Ordering) : Comparing α β → β
  | done result => result
  | ask left right next => (next (cmp left right)).answer cmp

/-- What is compared on the way to the result if no comparison fails. -/
def questions (cmp : α → α → Ordering) : Comparing α β → List (α × α)
  | done _ => []
  | ask left right next => (left, right) :: (next (cmp left right)).questions cmp

/-- Runs a computation with comparisons that may fail. -/
def run (compared : α → α → Except ε Ordering) : Comparing α β → Except ε β
  | done result => .ok result
  | ask left right next => compared left right >>= fun order => (next order).run compared

/-- One computation after another. -/
def bind : Comparing α β → (β → Comparing α γ) → Comparing α γ
  | done result, following => following result
  | ask left right next, following =>
      ask left right fun order => (next order).bind following

theorem answer_bind
    (cmp : α → α → Ordering) (first : Comparing α β) (following : β → Comparing α γ) :
    (first.bind following).answer cmp = (following (first.answer cmp)).answer cmp := by
  induction first with
  | done result =>
      rfl
  | ask left right next ih =>
      exact ih (cmp left right)

theorem questions_bind
    (cmp : α → α → Ordering) (first : Comparing α β) (following : β → Comparing α γ) :
    (first.bind following).questions cmp =
      first.questions cmp ++ (following (first.answer cmp)).questions cmp := by
  induction first with
  | done result =>
      rfl
  | ask left right next ih =>
      exact congrArg _ (ih (cmp left right))

theorem run_bind
    (compared : α → α → Except ε Ordering)
    (first : Comparing α β) (following : β → Comparing α γ) :
    (first.bind following).run compared =
      first.run compared >>= fun result => (following result).run compared := by
  induction first with
  | done result =>
      rfl
  | ask left right next ih =>
      rw [bind, run, run, bind_assoc]
      exact bind_congr ih

theorem run_eq_answer
    {compared : α → α → Except ε Ordering} {cmp : α → α → Ordering}
    {computation : Comparing α β}
    (h : ∀ question ∈ computation.questions cmp,
      compared question.1 question.2 = .ok (cmp question.1 question.2)) :
    computation.run compared = .ok (computation.answer cmp) := by
  induction computation with
  | done result =>
      rfl
  | ask left right next ih =>
      have hfirst := h (left, right) (List.mem_cons_self ..)
      rw [run, hfirst]
      exact ih _ fun question hquestion => h question (List.mem_cons_of_mem _ hquestion)

/-- A run that fails does so in a comparison. -/
theorem exists_of_run_eq_error
    {compared : α → α → Except ε Ordering} {computation : Comparing α β} {fault : ε}
    (h : computation.run compared = .error fault) :
    ∃ left right, compared left right = .error fault := by
  induction computation with
  | done result =>
      cases h
  | ask left right next ih =>
      rcases Outcome.bind_eq_error_iff.1 h with hfault | ⟨order, _, hnext⟩
      · exact ⟨left, right, hfault⟩
      · exact ih order hnext

/-- An order that agrees with a comparison wherever that does not fail. -/
def Follows (cmp : α → α → Ordering) (compared : α → α → Except ε Ordering) : Prop :=
  ∀ left right order, compared left right = .ok order → cmp left right = order

theorem answer_eq_of_run
    {compared : α → α → Except ε Ordering} {cmp : α → α → Ordering}
    (hfollows : Follows cmp compared) {computation : Comparing α β} {result : β}
    (h : computation.run compared = .ok result) :
    computation.answer cmp = result := by
  induction computation with
  | done final =>
      cases h
      rfl
  | ask left right next ih =>
      obtain ⟨order, horder, hnext⟩ := Outcome.bind_eq_ok_iff.1 h
      rw [answer, hfollows left right order horder]
      exact ih order hnext

end Comparing

/-- A sort that sees its input through comparisons alone; it may be stable or not. -/
structure ComparisonSort (α : Type) where
  sort : List α → Comparing α (List α)
  /-- It compares nothing but members of its input. -/
  asks_members : ∀ (cmp : α → α → Ordering) [Std.TransCmp cmp] (members : List α),
    ∀ question ∈ (sort members).questions cmp,
      question.1 ∈ members ∧ question.2 ∈ members
  perm : ∀ (cmp : α → α → Ordering) [Std.TransCmp cmp] (members : List α),
    ((sort members).answer cmp).Perm members
  sorted : ∀ (cmp : α → α → Ordering) [Std.TransCmp cmp] (members : List α),
    ((sort members).answer cmp).Pairwise fun a b => (cmp a b).isLE

namespace ComparisonSort

variable {α ε : Type}

section Insertion

/-- Inserts a member into a list that is sorted downwards, in front of the first one that
it is not smaller than. -/
def insertDown (a : α) : List α → Comparing α (List α)
  | [] => .done [a]
  | last :: before =>
      .ask a last fun
        | .lt => (insertDown a before).bind fun rest => .done (last :: rest)
        | _ => .done (a :: last :: before)

/-- Inserts members one after another. -/
def insertAll (down : List α) : List α → Comparing α (List α)
  | [] => .done down
  | a :: rest => (insertDown a down).bind fun next => insertAll next rest

variable {cmp : α → α → Ordering}

theorem questions_insertDown {a : α} {down : List α} {question : α × α}
    (h : question ∈ (insertDown a down).questions cmp) :
    question.1 = a ∧ question.2 ∈ down := by
  induction down with
  | nil =>
      exact absurd h List.not_mem_nil
  | cons last before ih =>
      rcases List.mem_cons.1 h with rfl | hnext
      · exact ⟨rfl, List.mem_cons_self ..⟩
      · dsimp only at hnext
        split at hnext
        · rw [Comparing.questions_bind, List.mem_append] at hnext
          obtain ⟨hleft, hright⟩ := ih (hnext.resolve_right List.not_mem_nil)
          exact ⟨hleft, List.mem_cons_of_mem _ hright⟩
        · exact absurd hnext List.not_mem_nil

/-- Insertion adds nothing but the member. -/
theorem perm_insertDown (cmp : α → α → Ordering) (a : α) (down : List α) :
    ((insertDown a down).answer cmp).Perm (a :: down) := by
  induction down with
  | nil =>
      exact List.Perm.refl _
  | cons last before ih =>
      rw [insertDown, Comparing.answer]
      split
      · rw [Comparing.answer_bind]
        exact (ih.cons last).trans (List.Perm.swap a last before)
      · exact List.Perm.refl _

/-- Insertion keeps a list sorted downwards. -/
theorem sorted_insertDown [Std.TransCmp cmp] {a : α} {down : List α}
    (hdown : down.Pairwise fun x y => (cmp y x).isLE) :
    ((insertDown a down).answer cmp).Pairwise fun x y => (cmp y x).isLE := by
  induction down with
  | nil =>
      exact List.pairwise_singleton _ a
  | cons last before ih =>
      obtain ⟨hlast, hbefore⟩ := List.pairwise_cons.1 hdown
      rw [insertDown, Comparing.answer]
      split
      · rename_i hlt
        rw [Comparing.answer_bind]
        refine List.pairwise_cons.2 ⟨fun other hother => ?_, ih hbefore⟩
        rcases List.mem_cons.1 ((perm_insertDown cmp a before).mem_iff.1 hother) with
          rfl | hmem
        · simp [hlt]
        · exact hlast other hmem
      · rename_i hlt
        have hle : (cmp last a).isLE := by
          have hswap : cmp last a = (cmp a last).swap := Std.OrientedCmp.eq_swap
          rw [hswap]
          cases h : cmp a last <;> simp_all
        refine List.pairwise_cons.2 ⟨fun other hother => ?_, hdown⟩
        rcases List.mem_cons.1 hother with rfl | hmem
        · exact hle
        · exact Std.TransCmp.isLE_trans (hlast other hmem) hle

theorem perm_insertAll (cmp : α → α → Ordering) (down members : List α) :
    ((insertAll down members).answer cmp).Perm (members ++ down) := by
  induction members generalizing down with
  | nil =>
      exact List.Perm.refl _
  | cons a rest ih =>
      rw [insertAll, Comparing.answer_bind]
      exact (ih _).trans
        (((perm_insertDown cmp a down).append_left rest).trans List.perm_middle)

theorem sorted_insertAll [Std.TransCmp cmp] {down members : List α}
    (hdown : down.Pairwise fun x y => (cmp y x).isLE) :
    ((insertAll down members).answer cmp).Pairwise fun x y => (cmp y x).isLE := by
  induction members generalizing down with
  | nil =>
      exact hdown
  | cons a rest ih =>
      rw [insertAll, Comparing.answer_bind]
      exact ih (sorted_insertDown hdown)

theorem questions_insertAll {down members : List α} {question : α × α}
    (h : question ∈ (insertAll down members).questions cmp) :
    question.1 ∈ members ∧ question.2 ∈ members ++ down := by
  induction members generalizing down with
  | nil =>
      exact absurd h List.not_mem_nil
  | cons a rest ih =>
      rw [insertAll, Comparing.questions_bind, List.mem_append] at h
      rcases h with hinsert | hrest
      · obtain ⟨rfl, hright⟩ := questions_insertDown hinsert
        exact ⟨List.mem_cons_self .., List.mem_append_right _ hright⟩
      · obtain ⟨hleft, hright⟩ := ih hrest
        have hperm := (perm_insertDown cmp a down).append_left rest
        exact ⟨List.mem_cons_of_mem _ hleft,
          (hperm.trans List.perm_middle).mem_iff.1 hright⟩

/-- Sorting by inserting one member after another, each behind everything it is not
smaller than. -/
def insertion : ComparisonSort α where
  sort members := (insertAll [] members).bind fun down => .done down.reverse
  asks_members cmp _ members question h := by
    rw [Comparing.questions_bind, List.mem_append] at h
    obtain ⟨hleft, hright⟩ := questions_insertAll (h.resolve_right List.not_mem_nil)
    rw [List.append_nil] at hright
    exact ⟨hleft, hright⟩
  perm cmp _ members := by
    have hperm := perm_insertAll cmp [] members
    rw [List.append_nil] at hperm
    rw [Comparing.answer_bind]
    exact (List.reverse_perm _).trans hperm
  sorted cmp _ members := by
    rw [Comparing.answer_bind]
    exact List.pairwise_reverse.2 (sorted_insertAll List.Pairwise.nil)

end Insertion

variable (sort : ComparisonSort α) {compared : α → α → Except ε Ordering}
  {members : List α}

/-- Members whose comparison follows an order are sorted by it. -/
theorem exists_run_eq_ok
    (cmp : α → α → Ordering) [Std.TransCmp cmp]
    (h : ∀ a ∈ members, ∀ b ∈ members, compared a b = .ok (cmp a b)) :
    ∃ sorted, (sort.sort members).run compared = .ok sorted ∧
      sorted.Perm members ∧ sorted.Pairwise fun a b => (cmp a b).isLE := by
  refine ⟨_, Comparing.run_eq_answer fun question hquestion => ?_, sort.perm cmp members,
    sort.sorted cmp members⟩
  obtain ⟨hleft, hright⟩ := sort.asks_members cmp members question hquestion
  exact h _ hleft _ hright

/-- In a list that two orders sort, the orders do not put different members the opposite
way round. -/
theorem not_opposed
    {first second : α → α → Ordering} [Std.TransCmp first] [Std.TransCmp second]
    (hfirst : members.Pairwise fun a b => (first a b).isLE)
    (hsecond : members.Pairwise fun a b => (second a b).isLE)
    {a b : α} (ha : a ∈ members) (hb : b ∈ members) (hab : first a b = .lt) :
    second b a ≠ .lt := by
  intro hba
  have hne : a ≠ b := by
    rintro rfl
    have hself : first a a = .eq := Std.ReflCmp.compare_self
    cases hself.symm.trans hab
  let EitherWay (x y : α) : Prop :=
    (first x y).isLE ∧ (second x y).isLE ∨ (first y x).isLE ∧ (second y x).isLE
  have : Std.Symm EitherWay := ⟨fun _ _ => Or.symm⟩
  have heither : members.Pairwise EitherWay := (hfirst.and hsecond).imp Or.inl
  rcases heither.forall ha hb hne with ⟨_, hle⟩ | ⟨hle, _⟩
  · have hswap : second a b = (second b a).swap := Std.OrientedCmp.eq_swap
    rw [hswap, hba] at hle
    cases hle
  · have hswap : first b a = (first a b).swap := Std.OrientedCmp.eq_swap
    rw [hswap, hab] at hle
    cases hle

/-- **A sort has to ask about members that could stand either way round.**  If orders
that put two members the opposite way round both agree with a comparison wherever it does
not fail, then the comparison fails in every sort of a list with these members. -/
theorem exists_error_of_opposed
    {first second : α → α → Ordering} [Std.TransCmp first] [Std.TransCmp second]
    (hfirst : Comparing.Follows first compared) (hsecond : Comparing.Follows second compared)
    {a b : α} (ha : a ∈ members) (hb : b ∈ members)
    (hab : first a b = .lt) (hba : second b a = .lt) :
    ∃ fault, (sort.sort members).run compared = .error fault := by
  cases hrun : (sort.sort members).run compared with
  | error fault =>
      exact ⟨fault, rfl⟩
  | ok sorted =>
      have hby := sort.sorted first members
      have hother := sort.sorted second members
      have hperm := sort.perm first members
      rw [Comparing.answer_eq_of_run hfirst hrun] at hby hperm
      rw [Comparing.answer_eq_of_run hsecond hrun] at hother
      exact absurd hba
        (not_opposed hby hother (hperm.mem_iff.2 ha) (hperm.mem_iff.2 hb) hab)

section Placement

variable [DecidableEq α]

/-- The order in which one member comes before all others, which are equal. -/
def before (a : α) : α → α → Ordering :=
  compareOn fun b => decide (b ≠ a)

/-- The order in which one member comes behind all others, which are equal. -/
def behind (a : α) : α → α → Ordering :=
  compareOn fun b => decide (b = a)

instance (a : α) : Std.TransCmp (before a) :=
  inferInstanceAs (Std.TransCmp (compareOn fun b => decide (b ≠ a)))

instance (a : α) : Std.TransCmp (behind a) :=
  inferInstanceAs (Std.TransCmp (compareOn fun b => decide (b = a)))

theorem before_eq_lt {a b : α} (h : b ≠ a) : before a a b = .lt := by
  simp only [before, compareOn, h, ne_eq, not_true, not_false_eq_true, decide_false,
    decide_true]
  rfl

theorem behind_eq_lt {a b : α} (h : b ≠ a) : behind a b a = .lt := by
  simp only [behind, compareOn, h, decide_false, decide_true]
  rfl

theorem before_eq_eq {a x y : α} (h : x = a ↔ y = a) : before a x y = .eq := by
  simp [before, compareOn, h]

theorem behind_eq_eq {a x y : α} (h : x = a ↔ y = a) : behind a x y = .eq := by
  simp [behind, compareOn, h]

end Placement

end ComparisonSort

end InteropHeader
