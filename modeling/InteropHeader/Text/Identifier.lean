import InteropHeader.Text.Numeric

/-!
# Identifiers

Input:
  the name of a module.

Algorithm:
  the first character is an underscore or alphabetic, every later one is an
  underscore, alphabetic or numeric.

Results:
  * `isName_ne_empty`: the empty text is no identifier;
  * `not_mem_of_isName`: a character that may not continue an identifier
    does not occur in one.
-/

namespace InteropHeader
namespace Text

/-- A character that an identifier may begin with. -/
def startsName (c : Char) : Bool :=
  c == '_' || isAlphabetic c

/-- A character that an identifier may hold after its first. -/
def continuesName (c : Char) : Bool :=
  c == '_' || isAlphabetic c || isNumeric c

/-- Whether a text is one identifier. -/
def isName (name : String) : Bool :=
  match name.toList with
  | [] => false
  | first :: rest => startsName first && rest.all continuesName

theorem isName_ne_empty {name : String} (h : isName name = true) :
    name ≠ "" := by
  rintro rfl
  simp [isName] at h

theorem continuesName_of_startsName {c : Char}
    (h : startsName c = true) : continuesName c = true := by
  simp only [startsName, Bool.or_eq_true] at h
  simp only [continuesName, Bool.or_eq_true]
  exact Or.inl h

theorem continuesName_of_mem {name : String} {c : Char}
    (h : isName name = true) (hc : c ∈ name.toList) :
    continuesName c = true := by
  unfold isName at h
  split at h
  · simp at h
  · rename_i first rest heq
    simp only [Bool.and_eq_true, List.all_eq_true] at h
    rw [heq] at hc
    rcases List.mem_cons.1 hc with rfl | hmem
    · exact continuesName_of_startsName h.1
    · exact h.2 c hmem

theorem not_mem_of_isName {name : String} {c : Char}
    (h : isName name = true) (hc : continuesName c = false) :
    c ∉ name.toList := by
  intro hmem
  rw [continuesName_of_mem h hmem] at hc
  exact absurd hc (by decide)

/-- A dot never occurs in an identifier. -/
theorem continuesName_dot : continuesName '.' = false := by
  decide

/-- A line feed never occurs in an identifier. -/
theorem continuesName_newline : continuesName '\n' = false := by
  decide

end Text
end InteropHeader
