import InteropHeader.Directive.MacroTable
import InteropHeader.Proofs.Directive.Block

/-!
# Printed macros

Input:
  a guarded macro whose texts take up one line each and whose verbatim lines make up a
  balanced text.

Results:
  * `wellFormed_block`: the block that defines the macro is well-formed;
  * `eachLine_block`: which lines there are in the texts of the block;
  * `wellFormed_standardBlock`: so is the block of all standard macros.
-/

namespace InteropHeader

namespace Replacement

/-- The texts take up one line each, and verbatim lines are balanced. -/
def Tidy : Replacement → Prop
  | .value text => '\n' ∉ text.toList
  | .choice condition text otherwise =>
      '\n' ∉ condition.toList ∧ '\n' ∉ text.toList ∧ '\n' ∉ otherwise.toList
  | .verbatim lines => LeadsTo 0 0 lines
  | .valueFor _ text => '\n' ∉ text.toList
  | .choiceFor _ text otherwise => '\n' ∉ text.toList ∧ '\n' ∉ otherwise.toList
  | .verbatimFor _ lines => LeadsTo 0 0 lines

/-- The texts take up one line each, and verbatim lines make up a balanced text. -/
def WellFormed : Replacement → Prop
  | .value text => '\n' ∉ text.toList
  | .choice condition text otherwise =>
      '\n' ∉ condition.toList ∧ '\n' ∉ text.toList ∧ '\n' ∉ otherwise.toList
  | .verbatim lines => Balanced (Text.ofLines lines)
  | .valueFor _ text => '\n' ∉ text.toList
  | .choiceFor _ text otherwise => '\n' ∉ text.toList ∧ '\n' ∉ otherwise.toList
  | .verbatimFor _ lines => Balanced (Text.ofLines lines)

/-- Lines that lead back to where they began are balanced. -/
theorem Tidy.wellFormed {replacement : Replacement} (h : replacement.Tidy) :
    replacement.WellFormed := by
  cases replacement with
  | value text => exact h
  | choice condition text otherwise => exact h
  | verbatim lines => exact h.balanced_ofLines
  | valueFor language text => exact h
  | choiceFor language text otherwise => exact h
  | verbatimFor language lines => exact h.balanced_ofLines

/-- The lines that are printed as they stand. -/
def verbatimLines : Replacement → List String
  | .verbatim lines => lines
  | .verbatimFor _ lines => lines
  | _ => []

end Replacement

namespace GuardedMacro

/-- All texts of the macro take up one line each, and verbatim lines are
balanced. -/
def Tidy (m : GuardedMacro) : Prop :=
  '\n' ∉ m.name.toList ∧ '\n' ∉ m.parameters.toList ∧ m.replacement.Tidy

/-- All texts of the macro take up one line each, and verbatim lines make up a balanced
text; a verbatim line may hold further lines. -/
def WellFormed (m : GuardedMacro) : Prop :=
  '\n' ∉ m.name.toList ∧ '\n' ∉ m.parameters.toList ∧ m.replacement.WellFormed

theorem Tidy.wellFormed {m : GuardedMacro} (h : m.Tidy) : m.WellFormed :=
  ⟨h.1, h.2.1, h.2.2.wellFormed⟩

section Lines

variable {m : GuardedMacro} {indent value : String}

theorem ofLine?_defineLine
    (hindent : Directive.isPlainStart ("#" ++ indent ++ "define ").toList = true) :
    Directive.ofLine? (m.defineLine indent value) = none := by
  have hstart := Directive.ofLine?_of_isPlainStart hindent
    (m.name ++ (m.parameters ++ (" " ++ value)))
  rw [String.ofList_toList] at hstart
  simpa [defineLine, String.append_assoc] using hstart

theorem newline_notMem_defineLine
    (hindent : '\n' ∉ indent.toList) (h : m.WellFormed) (hvalue : '\n' ∉ value.toList) :
    '\n' ∉ (m.defineLine indent value).toList := by
  simp [defineLine, hindent, h.1, h.2.1, hvalue]

/-- The definition by one value. -/
theorem wellFormed_defineLine (h : m.WellFormed) (hvalue : '\n' ∉ value.toList) :
    (Block.lines [m.defineLine " " value]).WellFormed := by
  refine Block.wellFormed_lines (.of_plain ?_)
  intro line hline
  rw [List.mem_singleton.1 hline]
  exact ⟨newline_notMem_defineLine (by decide) h hvalue, ofLine?_defineLine (by decide)⟩

theorem wellFormed_ifUndefined
    {body : Block} (h : m.WellFormed) (hbody : body.WellFormed) :
    (m.ifUndefined body).WellFormed :=
  ⟨by simp [h.1], hbody⟩

end Lines

theorem newline_notMem_condition (language : Language) :
    '\n' ∉ language.condition.toList := by
  cases language <;> decide

/-- The block that defines a macro is well-formed. -/
theorem wellFormed_block {m : GuardedMacro} (h : m.WellFormed) : m.block.WellFormed := by
  have hreplacement := h.2.2
  unfold block
  cases hm : m.replacement with
  | value value =>
      rw [hm] at hreplacement
      exact wellFormed_ifUndefined h (wellFormed_defineLine h hreplacement)
  | choice condition value otherwise =>
      rw [hm] at hreplacement
      obtain ⟨hcondition, hvalue, hotherwise⟩ := hreplacement
      have hif : lineDepth 0 ("# if " ++ condition) = some 1 := by
        simp [lineDepth, Directive.ofLine?_spacedIf, Directive.depthBehind,
          Directive.depthAfter]
      have hline : ∀ text, '\n' ∉ text.toList →
          '\n' ∉ (m.defineLine "  " text).toList ∧
            lineDepth 1 (m.defineLine "  " text) = some 1 :=
        fun _ htext =>
          ⟨newline_notMem_defineLine (by decide) h htext,
            lineDepth_of_plain (ofLine?_defineLine (by decide)) 1⟩
      refine wellFormed_ifUndefined h (Block.wellFormed_lines ?_)
      exact .cons (by simp [hcondition]) hif
        (.cons (hline value hvalue).1 (hline value hvalue).2
          (.cons_ofList (by decide) rfl
            (.cons (hline otherwise hotherwise).1 (hline otherwise hotherwise).2
              (.cons_ofList (by decide) rfl .nil))))
  | verbatim lines =>
      rw [hm] at hreplacement
      exact wellFormed_ifUndefined h
        ⟨Text.terminated_ofLines lines, hreplacement⟩
  | valueFor language value =>
      rw [hm] at hreplacement
      exact ⟨newline_notMem_condition language,
        wellFormed_ifUndefined h (wellFormed_defineLine h hreplacement)⟩
  | choiceFor language value otherwise =>
      rw [hm] at hreplacement
      exact wellFormed_ifUndefined h ⟨newline_notMem_condition language,
        wellFormed_defineLine h hreplacement.1, wellFormed_defineLine h hreplacement.2⟩
  | verbatimFor language lines =>
      rw [hm] at hreplacement
      exact ⟨newline_notMem_condition language,
        Text.terminated_ofLines lines, hreplacement⟩

/-- What holds of the lines that a macro may be defined by holds of each line of its
block. -/
theorem eachLine_block
    {P : String → Prop} {m : GuardedMacro} (h : m.Tidy)
    (hdefine : ∀ indent ∈ [" ", "  "], ∀ value, P (m.defineLine indent value))
    (hif : ∀ condition, P ("# if " ++ condition)) (helse : P "# else") (hendif : P "# endif")
    (hverbatim : ∀ line ∈ m.replacement.verbatimLines, P line) :
    m.block.EachLine P := by
  have hreplacement := h.2.2
  have hline : ∀ value, '\n' ∉ value.toList →
      (Block.lines [m.defineLine " " value]).EachLine P := by
    intro value hvalue
    refine Block.eachLine_lines fun line hline => ?_
    rw [List.mem_singleton.1 hline]
    exact ⟨newline_notMem_defineLine (by decide) h.wellFormed hvalue, hdefine _ (by simp) value⟩
  unfold block
  cases hm : m.replacement with
  | value value =>
      rw [hm] at hreplacement
      exact hline value hreplacement
  | choice condition value otherwise =>
      rw [hm] at hreplacement
      obtain ⟨hcondition, hvalue, hotherwise⟩ := hreplacement
      refine Block.eachLine_lines ?_
      simp only [List.forall_mem_cons, List.not_mem_nil, false_implies, implies_true,
        and_true]
      exact ⟨⟨by simp [hcondition], hif condition⟩,
        ⟨newline_notMem_defineLine (by decide) h.wellFormed hvalue, hdefine _ (by simp) value⟩,
        ⟨by decide, helse⟩,
        ⟨newline_notMem_defineLine (by decide) h.wellFormed hotherwise,
          hdefine _ (by simp) otherwise⟩,
        ⟨by decide, hendif⟩⟩
  | verbatim lines =>
      rw [hm] at hreplacement hverbatim
      exact Block.eachLine_lines fun line hline =>
        ⟨hreplacement.newline_notMem line hline, hverbatim line hline⟩
  | valueFor language value =>
      rw [hm] at hreplacement
      exact hline value hreplacement
  | choiceFor language value otherwise =>
      rw [hm] at hreplacement
      exact ⟨hline value hreplacement.1, hline otherwise hreplacement.2⟩
  | verbatimFor language lines =>
      rw [hm] at hreplacement hverbatim
      exact Block.eachLine_lines fun line hline =>
        ⟨hreplacement.newline_notMem line hline, hverbatim line hline⟩

set_option maxRecDepth 2000 in
theorem standard_tidy : ∀ m ∈ standard, m.Tidy := by
  simp only [standard, List.forall_mem_cons, List.not_mem_nil, false_implies,
    implies_true, and_true, Tidy, Replacement.Tidy]
  and_intros
  all_goals first
    | exact Text.notMem_ofList (by decide)
    | repeat refine LeadsTo.cons_ofList (by decide) rfl ?_
  all_goals exact .nil

/-- The block of all standard macros is well-formed. -/
theorem wellFormed_standardBlock : standardBlock.WellFormed := by
  refine Block.wellFormed_all fun block hblock => ?_
  obtain ⟨m, hm, rfl⟩ := List.mem_map.1 hblock
  exact wellFormed_block (standard_tidy m hm).wellFormed

end GuardedMacro
end InteropHeader
