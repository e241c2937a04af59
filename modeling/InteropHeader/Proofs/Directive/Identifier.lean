import InteropHeader.Proofs.Directive.Scan
import InteropHeader.Text.Identifier
import Mathlib.Data.List.Forall2

/-!
# The characters of identifiers

Input:
  a character, and its upper case if it is a small ASCII letter; every other character
  is its own.

Results:
  * `not_isBlank_of_continuesName`: blanks end an identifier;
  * `continuesName_toUpper`: in upper case an identifier goes on as far as before;
  * `sameLetters_iff`: texts have the same upper case if they differ at most in the case
    of ASCII letters, and only then.
-/

namespace InteropHeader

namespace Text

/-- What holds of the small letters and of all characters that are their own upper case
holds of every character and its upper case. -/
theorem forall_toUpper
    {P : Char → Char → Prop}
    (hletters : ∀ code < 123, P (Char.ofNat code) (Char.ofNat code).toUpper)
    (hself : ∀ c, P c c) (c : Char) :
    P c c.toUpper := by
  by_cases h : c.toNat < 123
  · have hcode := hletters c.toNat h
    rwa [Char.ofNat_toNat] at hcode
  · -- behind the small letters nothing has another upper case
    have hnot : ¬ ('a'.val ≤ c.val ∧ c.val ≤ 'z'.val) := by
      rintro ⟨_, hle⟩
      exact h (Nat.lt_succ_of_le hle)
    have hsame : c.toUpper = c :=
      dif_neg hnot
    rw [hsame]
    exact hself c

/-- The upper case of an identifier is an identifier but for its first character. -/
theorem continuesName_toUpper {c : Char} (h : continuesName c = true) :
    continuesName c.toUpper = true :=
  forall_toUpper (P := fun c upper => continuesName c = true → continuesName upper = true)
    (by decide) (fun _ => id) c h

/-- The two cases of each ASCII letter. -/
def letterCases : List (Char × Char) :=
  "ABCDEFGHIJKLMNOPQRSTUVWXYZ".toList.zip "abcdefghijklmnopqrstuvwxyz".toList

/-- Characters that differ at most in the case of an ASCII letter. -/
def SameLetter (c d : Char) : Prop :=
  c = d ∨ (c, d) ∈ letterCases ∨ (d, c) ∈ letterCases

/-- Texts that differ at most in the case of ASCII letters. -/
def SameLetters (first second : String) : Prop :=
  List.Forall₂ SameLetter first.toList second.toList

theorem toUpper_cases (c : Char) : c.toUpper = c ∨ (c.toUpper, c) ∈ letterCases :=
  forall_toUpper (P := fun c upper => upper = c ∨ (upper, c) ∈ letterCases) (by decide)
    (fun _ => Or.inl rfl) c

theorem sameLetter_iff {c d : Char} : SameLetter c d ↔ c.toUpper = d.toUpper := by
  have hupper : ∀ cases ∈ letterCases, cases.1.toUpper = cases.2.toUpper := by
    decide
  have hinjective : ∀ first ∈ letterCases, ∀ second ∈ letterCases,
      first.1 = second.1 → first.2 = second.2 := by
    decide
  constructor
  · rintro (rfl | hcases | hcases)
    · rfl
    · exact hupper _ hcases
    · exact (hupper _ hcases).symm
  · intro h
    rcases toUpper_cases c with hc | hc
    · rcases toUpper_cases d with hd | hd
      · exact Or.inl (hc.symm.trans (h.trans hd))
      · rw [← h, hc] at hd
        exact Or.inr (Or.inl hd)
    · rcases toUpper_cases d with hd | hd
      · rw [h, hd] at hc
        exact Or.inr (Or.inr hc)
      · exact Or.inl (hinjective _ hc _ hd h)

theorem sameLetters_iff {first second : String} :
    SameLetters first second ↔ first.map Char.toUpper = second.map Char.toUpper := by
  have hletter : SameLetter = fun c d => c.toUpper = d.toUpper :=
    funext fun _ => funext fun _ => propext sameLetter_iff
  rw [SameLetters, hletter, ← String.toList_inj, String.toList_map, String.toList_map,
    ← List.forall₂_eq_eq_eq, List.forall₂_map_left_iff, List.forall₂_map_right_iff]

/-- Identifiers hold no blanks. -/
theorem not_isBlank_of_continuesName
    {c : Char} (h : continuesName c = true) :
    isBlank c = false := by
  have hcodes : ∀ code ∈ blankCodes, continuesName (Char.ofNat code) = false := by
    decide +kernel
  cases hblank : isBlank c with
  | false =>
      rfl
  | true =>
      have hcode : c.toNat ∈ blankCodes := by
        simpa [isBlank] using hblank
      have hnot := hcodes c.toNat hcode
      rw [Char.ofNat_toNat, h] at hnot
      cases hnot

theorem skipBlanks_of_not_isBlank
    {text : List Char} (h : ∀ c ∈ text, isBlank c = false) :
    skipBlanks text = text := by
  cases text with
  | nil =>
      rfl
  | cons c rest =>
      simp [skipBlanks, h c (by simp)]

end Text

end InteropHeader
