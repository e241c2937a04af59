import Mathlib.Data.List.Forall2

/-!
# Computations that may fail

Input:
  a computation that ends with a value or with an error, and what follows it.

Results:
  * `bind_eq_ok_iff`, `bind_eq_error_iff`: how two steps in a row end with a value, and how
    with an error;
  * `map_eq_ok_iff`, `mapError_eq_ok_iff`: how a step ends whose value or error is
    transformed;
  * `mapM_eq_ok_iff`, `mapM_eq_ok_map`: a list is mapped without an error if no member
    has one;
  * `exists_of_mapM_eq_error`: an error of a list is the error of a member;
  * `run_mapM_cons_eq_ok_iff`: with a state, the members of a list are mapped one after
    another.
-/

namespace InteropHeader
namespace Outcome

variable {ε α β : Type}

theorem bind_eq_ok_iff
    {first : Except ε α} {next : α → Except ε β} {result : β} :
    (first >>= next) = .ok result
      ↔
    ∃ value, first = .ok value ∧ next value = .ok result := by
  cases first with
  | error fault =>
      simp [bind, Except.bind]
  | ok value =>
      simp [bind, Except.bind]

theorem bind_eq_error_iff
    {first : Except ε α} {next : α → Except ε β} {fault : ε} :
    (first >>= next) = .error fault
      ↔
    first = .error fault ∨ ∃ value, first = .ok value ∧ next value = .error fault := by
  cases first with
  | error other =>
      simp [bind, Except.bind]
  | ok value =>
      simp [bind, Except.bind]

@[simp] theorem ok_bind
    (value : α) (next : α → Except ε β) :
    ((.ok value : Except ε α) >>= next) = next value := by
  rfl

theorem map_eq_ok_iff
    {first : Except ε α} {f : α → β} {result : β} :
    (f <$> first) = .ok result
      ↔
    ∃ value, first = .ok value ∧ f value = result := by
  cases first with
  | error fault =>
      simp [Functor.map, Except.map]
  | ok value =>
      simp [Functor.map, Except.map]

theorem map_eq_error_iff
    {first : Except ε α} {f : α → β} {fault : ε} :
    (f <$> first) = .error fault ↔ first = .error fault := by
  cases first with
  | error other =>
      simp [Functor.map, Except.map]
  | ok value =>
      simp [Functor.map, Except.map]

theorem mapError_eq_ok_iff
    {δ : Type} {first : Except ε α} {f : ε → δ} {result : α} :
    first.mapError f = .ok result ↔ first = .ok result := by
  cases first with
  | error fault =>
      exact iff_of_false nofun nofun
  | ok value =>
      have hmap : (.ok value : Except ε α).mapError f = .ok value :=
        rfl
      rw [hmap, Except.ok.injEq, Except.ok.injEq]

@[simp] theorem map_ok
    (f : α → β) (value : α) :
    (f <$> (.ok value : Except ε α)) = .ok (f value) := by
  rfl

theorem mapM_eq_ok_iff
    {f : α → Except ε β} {members : List α} {results : List β} :
    members.mapM f = .ok results
      ↔
    List.Forall₂ (fun a b => f a = .ok b) members results := by
  induction members generalizing results with
  | nil =>
      rw [List.forall₂_nil_left_iff, List.mapM_nil]
      exact ⟨fun h => (Except.ok.inj h).symm, fun h => h ▸ rfl⟩
  | cons a rest ih =>
      rw [List.mapM_cons, bind_eq_ok_iff, List.forall₂_cons_left_iff]
      constructor
      · rintro ⟨b, hb, h⟩
        obtain ⟨bs, hbs, h⟩ := bind_eq_ok_iff.1 h
        cases h
        exact ⟨b, bs, hb, ih.1 hbs, rfl⟩
      · rintro ⟨b, bs, hb, hbs, rfl⟩
        exact ⟨b, hb, bind_eq_ok_iff.2 ⟨bs, ih.2 hbs, rfl⟩⟩

theorem mapM_eq_ok_map
    {f : α → Except ε β} {g : α → β} {members : List α}
    (h : ∀ a ∈ members, f a = .ok (g a)) :
    members.mapM f = .ok (members.map g) := by
  induction members with
  | nil =>
      rfl
  | cons a rest ih =>
      have ha := h a (by simp)
      have hrest := ih fun b hb => h b (by simp [hb])
      rw [List.mapM_cons, ha, hrest]
      rfl

theorem exists_of_mapM_eq_error
    {f : α → Except ε β} {members : List α} {fault : ε}
    (h : members.mapM f = .error fault) :
    ∃ a ∈ members, f a = .error fault := by
  induction members with
  | nil =>
      cases h
  | cons a rest ih =>
      rw [List.mapM_cons, bind_eq_error_iff] at h
      rcases h with hfirst | ⟨_, _, h⟩
      · exact ⟨a, by simp, hfirst⟩
      · rcases bind_eq_error_iff.1 h with hrest | ⟨_, _, h⟩
        · obtain ⟨b, hb, hfault⟩ := ih hrest
          exact ⟨b, by simp [hb], hfault⟩
        · cases h

section State

variable {σ : Type}

theorem run_bind_eq_ok_iff
    {first : StateT σ (Except ε) α} {next : α → StateT σ (Except ε) β}
    {s : σ} {result : β × σ} :
    (first >>= next).run s = .ok result
      ↔
    ∃ value later, first.run s = .ok (value, later) ∧ (next value).run later = .ok result := by
  rw [StateT.run_bind, bind_eq_ok_iff, Prod.exists]

theorem run_mapM_cons_eq_ok_iff
    {step : α → StateT σ (Except ε) β} {a : α} {rest : List α}
    {s last : σ} {results : List β} :
    ((a :: rest).mapM step).run s = .ok (results, last)
      ↔
    ∃ b bs later, results = b :: bs ∧ (step a).run s = .ok (b, later) ∧
      (rest.mapM step).run later = .ok (bs, last) := by
  rw [List.mapM_cons, run_bind_eq_ok_iff]
  constructor
  · rintro ⟨b, later, hb, h⟩
    rw [run_bind_eq_ok_iff] at h
    obtain ⟨bs, last, hbs, h⟩ := h
    cases h
    exact ⟨b, bs, later, rfl, hb, hbs⟩
  · rintro ⟨b, bs, later, rfl, hb, hbs⟩
    refine ⟨b, later, hb, ?_⟩
    rw [run_bind_eq_ok_iff]
    exact ⟨bs, last, hbs, rfl⟩

end State

end Outcome
end InteropHeader
