import InteropHeader.Header.IncludeGuard
import InteropHeader.Proofs.Directive.Identifier

/-!
# Include guards

Input:
  a module name that is an identifier.

Results:
  * `includeGuard_eq_iff_sameLetters`: guards are shared by names that differ at most in
    the case of ASCII letters;
  * `newline_notMem_includeGuard`: the guard takes up one line;
  * `ofLine?_ifndef_includeGuard`: the line that asks for the guard is understood
    so.
-/

namespace InteropHeader

namespace Header

section Guards

variable {name : String}

theorem continuesName_of_mem_includeGuard
    (h : Text.isName name = true) {c : Char} (hc : c ∈ (includeGuard name).toList) :
    Text.continuesName c = true := by
  rw [includeGuard, String.toList_append, List.mem_append, String.toList_map,
    List.mem_map] at hc
  rcases hc with ⟨d, hd, rfl⟩ | hc
  · exact Text.continuesName_toUpper (Text.continuesName_of_mem h hd)
  · have hsuffix : guardSuffix.toList.all Text.continuesName = true := by decide
    exact List.all_eq_true.1 hsuffix c hc

theorem not_isBlank_of_mem_includeGuard
    (h : Text.isName name = true) {c : Char} (hc : c ∈ (includeGuard name).toList) :
    Text.isBlank c = false :=
  Text.not_isBlank_of_continuesName (continuesName_of_mem_includeGuard h hc)

theorem newline_notMem_includeGuard (h : Text.isName name = true) :
    '\n' ∉ (includeGuard name).toList := by
  intro hmem
  have hblank := not_isBlank_of_mem_includeGuard h hmem
  exact absurd hblank (by decide)

/-- The first line of an include guard asks for the guard. -/
theorem ofLine?_ifndef_includeGuard (h : Text.isName name = true) :
    Directive.ofLine? ("#ifndef " ++ includeGuard name) =
      some (.opening (.undefined (includeGuard name))) := by
  have hskip : Text.skipBlanks (includeGuard name).toList = (includeGuard name).toList :=
    Text.skipBlanks_of_not_isBlank fun _ hc => not_isBlank_of_mem_includeGuard h hc
  rw [Directive.ofLine?_ifndef, hskip, String.ofList_toList]

/-- Guards are equal if and only if the names differ at most in the case of ASCII
letters. -/
theorem includeGuard_eq_iff_sameLetters {first second : String} :
    includeGuard first = includeGuard second ↔ Text.SameLetters first second := by
  rw [includeGuard_eq_iff, Text.sameLetters_iff]

end Guards

end Header

end InteropHeader
