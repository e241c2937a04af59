import InteropHeader.Proofs.Directive.Macro
import InteropHeader.Proofs.Directive.Processing

/-!
# Processing guarded macros

Input:
  a guarded macro with its name an identifier, and the macros that are defined before.

Results:
  * `read_ifUndefined`, `read_forLanguage`, `read_byLanguage`: the guards ask for what they
    are named after;
  * `definedAsSaid_read`: processing the text of a macro does what its replacement says;
  * `definedAsSaid_process`: and but for verbatim lines it does nothing more when it is done
    again.
-/

namespace InteropHeader

namespace Replacement

/-- Whether the replacement is given by verbatim lines. -/
def isVerbatim : Replacement → Bool
  | .verbatim _ => true
  | .verbatimFor _ _ => true
  | _ => false

/-- The language whose readers alone the replacement is for. -/
def language? : Replacement → Option Language
  | .valueFor language _ => some language
  | .verbatimFor language _ => some language
  | _ => none

end Replacement

namespace Processing

/-- One line has been read, and all it has done is to define a macro that had not been
defined. -/
structure AddsOnly (before after : Processing) (name behind : String) : Prop where
  definition?_eq : after.definition? = Function.update before.definition? name (some behind)
  redefined_eq : after.redefined = before.redefined
  exists_line : ∃ line, after.kept = before.kept ++ [line]

theorem AddsOnly.isDefined
    {before after : Processing} {name behind : String}
    (h : before.AddsOnly after name behind) :
    after.isDefined name = true := by
  simp [Processing.isDefined, h.definition?_eq]

theorem AddsOnly.definesAll
    {before after : Processing} {name behind : String}
    (h : before.AddsOnly after name behind) (hundefined : before.isDefined name = false) :
    before.DefinesAll after [name] where
  isDefined := by simpa using h.isDefined
  redefined_eq := by simpa [hundefined] using h.redefined_eq
  definition?_eq other hother := by
    rw [h.definition?_eq, Function.update_of_ne (by simpa using hother)]

end Processing

namespace GuardedMacro

open Processing

/-- Nothing happens where the macro is defined, and elsewhere it is defined, with its
parameters, as the given value. -/
def Adds (m : GuardedMacro) (value : String) (before after : Processing) : Prop :=
  if before.isDefined m.name then
    after = before
  else
    before.AddsOnly after m.name (m.parameters ++ " " ++ value)

/-- What has to come of processing the text of a macro, by its replacement. -/
def DefinedAsSaid
    (m : GuardedMacro) (truth : Condition → Bool) (before after : Processing) : Prop :=
  match m.replacement with
  | .value value => m.Adds value before after
  | .choice condition value otherwise =>
      m.Adds (if before.holds truth (.ofText condition) then value else otherwise) before after
  | .verbatim lines =>
      after =
        if before.isDefined m.name then before
        else before.process truth (Text.ofLines lines)
  | .valueFor language value =>
      if before.isDefined language.macroName then m.Adds value before after
      else after = before
  | .choiceFor language value otherwise =>
      m.Adds (if before.isDefined language.macroName then value else otherwise) before after
  | .verbatimFor language lines =>
      after =
        if before.isDefined language.macroName then before.process truth (Text.ofLines lines)
        else before

/-- Whether nothing is to be done for a macro: it is defined, or it is not for the language
that the header is read in. -/
def passes (m : GuardedMacro) (now : Processing) : Bool :=
  now.isDefined m.name ||
    m.replacement.language?.any fun language => !now.isDefined language.macroName

section Guards

variable {truth : Condition → Bool} {now : Processing}

theorem read_ifUndefined {m : GuardedMacro} (hnamed : m.WellNamed) (body : Block) :
    (m.ifUndefined body).read (reader truth) now =
      if now.isDefined m.name then now else body.read (reader truth) now := by
  rw [ifUndefined, Block.read, holds_reader, holds_notDefined hnamed.name]
  cases now.isDefined m.name <;> rfl

theorem read_forLanguage (language : Language) (body : Block) :
    (Block.forLanguage language body).read (reader truth) now =
      if now.isDefined language.macroName then body.read (reader truth) now else now := by
  rw [Block.forLanguage, Block.read, holds_reader, holds_language]

theorem read_byLanguage (language : Language) (body alternative : Block) :
    (Block.byLanguage language body alternative).read (reader truth) now =
      if now.isDefined language.macroName then body.read (reader truth) now
      else alternative.read (reader truth) now := by
  rw [Block.byLanguage, Block.read, holds_reader, holds_language]

end Guards

section Values

variable {m : GuardedMacro} {truth : Condition → Bool} {now : Processing} {value : String}

/-- The line that defines a macro adds its definition. -/
theorem addsOnly_readLine
    (hnamed : m.WellNamed) (hundefined : now.isDefined m.name = false)
    {indent : String} (hindent : ∀ c ∈ indent.toList, Text.isBlank c = true) (value : String) :
    now.AddsOnly (now.readLine (m.defineLine indent value)) m.name
      (m.parameters ++ " " ++ value) := by
  rw [readLine_of_define (hnamed.ofLine?_defineLine hindent value)]
  exact {
    definition?_eq := rfl
    redefined_eq := by simp [define, hundefined]
    exists_line := ⟨_, rfl⟩ }

theorem does_defineLine
    {indent : String}
    (hindent : Directive.isPlainStart ("#" ++ indent ++ "define ").toList = true)
    (hnewline : '\n' ∉ indent.toList) (h : m.WellFormed) (hvalue : '\n' ∉ value.toList) :
    (reader truth).Does [m.defineLine indent value] fun now =>
      now.readLine (m.defineLine indent value) :=
  .line (newline_notMem_defineLine hnewline h hvalue) (ofLine?_defineLine hindent)

theorem read_defineLine (h : m.WellFormed) (hvalue : '\n' ∉ value.toList) :
    (Block.lines [m.defineLine " " value]).read (reader truth) now =
      now.readLine (m.defineLine " " value) :=
  Block.read_lines (does_defineLine (by decide) (by decide) h hvalue)

/-- A choice reads the line with the value that its condition selects. -/
theorem read_choiceLines
    {condition otherwise : String} (h : m.WellFormed)
    (hcondition : '\n' ∉ condition.toList) (hvalue : '\n' ∉ value.toList)
    (hotherwise : '\n' ∉ otherwise.toList) :
    (Block.lines [
      "# if " ++ condition,
      m.defineLine "  " value,
      "# else",
      m.defineLine "  " otherwise,
      "# endif"]).read (reader truth) now =
      now.readLine (m.defineLine "  "
        (if now.holds truth (.ofText condition) then value else otherwise)) := by
  have hline : ∀ text, '\n' ∉ text.toList →
      (reader truth).Does [m.defineLine "  " text] fun now =>
        now.readLine (m.defineLine "  " text) :=
    fun _ => does_defineLine (by decide) (by decide) h
  have hchoice := Reader.Does.ifElse (Directive.ofLine?_spacedIf condition)
    Directive.ofLine?_spacedElse Directive.ofLine?_spacedEndif
    ⟨by simp [hcondition], by decide, by decide⟩ (hline value hvalue)
    (hline otherwise hotherwise)
  refine (Block.read_lines hchoice).trans ?_
  rw [holds_reader]
  split <;> rfl

/-- Where the guard asks for the macro, one definition is added or none. -/
theorem adds_ifUndefined
    (hnamed : m.WellNamed) {body : Block}
    (hbody : now.isDefined m.name = false →
      now.AddsOnly (body.read (reader truth) now) m.name (m.parameters ++ " " ++ value)) :
    m.Adds value now ((m.ifUndefined body).read (reader truth) now) := by
  rw [Adds, read_ifUndefined hnamed]
  by_cases hdefined : now.isDefined m.name
  · rw [if_pos hdefined, if_pos hdefined]
  · rw [if_neg hdefined, if_neg hdefined]
    exact hbody (by simpa using hdefined)

theorem adds_ifUndefined_defineLine
    (hnamed : m.WellNamed) (h : m.WellFormed) (hvalue : '\n' ∉ value.toList) :
    m.Adds value now
      ((m.ifUndefined (.lines [m.defineLine " " value])).read (reader truth) now) := by
  refine adds_ifUndefined hnamed fun hundefined => ?_
  rw [read_defineLine h hvalue]
  exact addsOnly_readLine hnamed hundefined (Text.forall_mem_ofList (by decide)) value

end Values

section Replacements

variable {m : GuardedMacro} {truth : Condition → Bool} {now : Processing}

/-- Reading the block of a macro does what its replacement says. -/
theorem definedAsSaid_read (hnamed : m.WellNamed) (h : m.WellFormed) :
    m.DefinedAsSaid truth now (m.block.read (reader truth) now) := by
  have hreplacement := h.2.2
  unfold DefinedAsSaid block
  cases hm : m.replacement with
  | value value =>
      rw [hm] at hreplacement
      exact adds_ifUndefined_defineLine hnamed h hreplacement
  | choice condition value otherwise =>
      rw [hm] at hreplacement
      obtain ⟨hcondition, hvalue, hotherwise⟩ := hreplacement
      refine adds_ifUndefined hnamed fun hundefined => ?_
      rw [read_choiceLines h hcondition hvalue hotherwise]
      exact addsOnly_readLine hnamed hundefined (Text.forall_mem_ofList (by decide)) _
  | verbatim lines =>
      exact read_ifUndefined hnamed _
  | valueFor language value =>
      rw [hm] at hreplacement
      simp only [read_forLanguage]
      split
      · exact adds_ifUndefined_defineLine hnamed h hreplacement
      · rfl
  | choiceFor language value otherwise =>
      rw [hm] at hreplacement
      refine adds_ifUndefined hnamed fun hundefined => ?_
      rw [read_byLanguage]
      split
      · rw [read_defineLine h hreplacement.1]
        exact addsOnly_readLine hnamed hundefined (Text.forall_mem_ofList (by decide)) _
      · rw [read_defineLine h hreplacement.2]
        exact addsOnly_readLine hnamed hundefined (Text.forall_mem_ofList (by decide)) _
  | verbatimFor language lines =>
      exact read_forLanguage language _

variable {before after : Processing} {value : String}

theorem Adds.addsOnly
    (h : m.Adds value before after) (hundefined : ¬ before.isDefined m.name = true) :
    before.AddsOnly after m.name (m.parameters ++ " " ++ value) := by
  rwa [Adds, if_neg hundefined] at h

/-- But for verbatim lines, either the macro passes and nothing happens, or one definition of
it is added. -/
theorem DefinedAsSaid.exists_value
    (h : m.DefinedAsSaid truth before after) (hvalue : m.replacement.isVerbatim = false) :
    ∃ value,
      if m.passes before then after = before
      else before.AddsOnly after m.name (m.parameters ++ " " ++ value) := by
  unfold DefinedAsSaid at h
  cases hm : m.replacement with
  | value value =>
      rw [hm] at h
      exact ⟨value, by simpa [passes, hm, Replacement.language?, Adds] using h⟩
  | choice condition value otherwise =>
      rw [hm] at h
      exact ⟨_, by simpa [passes, hm, Replacement.language?, Adds] using h⟩
  | choiceFor language value otherwise =>
      rw [hm] at h
      exact ⟨_, by simpa [passes, hm, Replacement.language?, Adds] using h⟩
  | valueFor language value =>
      simp only [hm] at h
      refine ⟨value, ?_⟩
      cases hlanguage : before.isDefined language.macroName with
      | true => simpa [passes, hm, Replacement.language?, hlanguage, Adds] using h
      | false => simpa [passes, hm, Replacement.language?, hlanguage] using h
  | verbatim lines =>
      simp [hm, Replacement.isVerbatim] at hvalue
  | verbatimFor language lines =>
      simp [hm, Replacement.isVerbatim] at hvalue

/-- But for verbatim lines, a macro that passes changes nothing. -/
theorem DefinedAsSaid.eq_of_passes
    (h : m.DefinedAsSaid truth before after) (hvalue : m.replacement.isVerbatim = false)
    (hpasses : m.passes before = true) :
    after = before := by
  obtain ⟨value, hsaid⟩ := h.exists_value hvalue
  rwa [if_pos hpasses] at hsaid

/-- But for verbatim lines, a macro that does not pass is defined, and that is all. -/
theorem DefinedAsSaid.exists_addsOnly
    (h : m.DefinedAsSaid truth before after) (hvalue : m.replacement.isVerbatim = false)
    (hpasses : m.passes before = false) :
    ∃ value, before.AddsOnly after m.name (m.parameters ++ " " ++ value) := by
  obtain ⟨value, hsaid⟩ := h.exists_value hvalue
  exact ⟨value, by simpa [hpasses] using hsaid⟩

theorem passes_of_isDefined {now : Processing} (h : now.isDefined m.name = true) :
    m.passes now = true := by
  simp [passes, h]

/-- **A macro is defined exactly when and how its replacement says.**  This holds whatever
macros are defined before and whatever other conditions hold; and but for verbatim lines the
text of a macro changes nothing when it is processed again. -/
theorem definedAsSaid_process
    (hnamed : m.WellNamed) (h : m.WellFormed) (truth : Condition → Bool)
    (before : Processing) :
    let after := before.process truth m.render
    m.DefinedAsSaid truth before after ∧
      (m.replacement.isVerbatim = false → after.process truth m.render = after) := by
  have hprocess : ∀ now : Processing,
      now.process truth m.render = m.block.read (reader truth) now :=
    fun _ => process_render (wellFormed_block h)
  have hsaid : ∀ now : Processing, m.DefinedAsSaid truth now (now.process truth m.render) := by
    intro now
    rw [hprocess]
    exact definedAsSaid_read hnamed h
  refine ⟨hsaid before, fun hvalue => ?_⟩
  cases hpasses : m.passes before with
  | true =>
      rw [(hsaid before).eq_of_passes hvalue hpasses]
      exact (hsaid before).eq_of_passes hvalue hpasses
  | false =>
      obtain ⟨value, hadds⟩ := (hsaid before).exists_addsOnly hvalue hpasses
      exact (hsaid _).eq_of_passes hvalue (passes_of_isDefined hadds.isDefined)

/-- A macro with parameters whose value depends on another macro. -/
def limit : GuardedMacro :=
  ⟨"LIMIT", "(x, ...)", .choice "defined(WIDE)" "x, __VA_ARGS__" "x"⟩

/-- What `limit` is defined as where `WIDE` is defined, and that it stays so. -/
theorem limit_definedAsSaid :
    let wide : Processing := ⟨fun name => if name = "WIDE" then some " 1" else none, [], []⟩
    limit.WellNamed ∧ limit.WellFormed ∧
      ∀ truth : Condition → Bool,
        let after := wide.process truth limit.render
        after.definition? "LIMIT" = some "(x, ...) x, __VA_ARGS__" ∧
        after.definition? "WIDE" = some " 1" ∧
        after.process truth limit.render = after := by
  intro wide
  have hnamed : limit.WellNamed :=
    wellNamed_ofList (by decide) (by decide) (by decide)
  have h : limit.WellFormed :=
    ⟨by decide, by decide, by decide, by decide, by decide⟩
  refine ⟨hnamed, h, fun truth => ?_⟩
  obtain ⟨hsaid, hagain⟩ := definedAsSaid_process hnamed h truth wide
  have hcondition : "defined(WIDE)" = "defined(" ++ "WIDE" ++ ")" := by
    decide
  have hholds : wide.holds truth (.ofText "defined(WIDE)") = true := by
    rw [hcondition, holds_defined (Text.forall_mem_ofList (by decide))]
    rfl
  have hadds := Adds.addsOnly (m := limit) hsaid (by decide)
  rw [if_pos hholds] at hadds
  refine ⟨?_, ?_, hagain rfl⟩
  · rw [hadds.definition?_eq]
    decide
  · rw [hadds.definition?_eq]
    decide

end Replacements

end GuardedMacro

end InteropHeader
