import InteropHeader.Proofs.Directive.GuardedMacro
import Mathlib.Data.List.Flatten
import Mathlib.Data.List.Nodup

/-!
# Processing the table of macros

Input:
  a list of guarded macros, and the macros that are defined before.

Algorithm:
  the blocks of the macros are read one after the other.  A macro may define others beside
  itself in its verbatim lines; these companions have no guard of their own.  As no two
  macros of the table touch a common name, what one of them does depends on what was defined
  before the table alone.

Results:
  * `Settles.append`, `settles_all`: what macros do one after the other, if they touch
    different names;
  * `settles_of_mem_standard`: what each standard macro does;
  * `redefined_process_standardBlock`: which macros the standard block defines although they
    are defined, and that nothing is defined when it is processed again.
-/

namespace InteropHeader

namespace GuardedMacro

open Processing

/-- The macros that the standard table defines under the guard of another macro, behind that
one. -/
def guardedByOther : List (String × String) := [
  ("SWIFT_PASTE", "SWIFT_PASTE_HELPER"),
  ("SWIFT_ENUM", "SWIFT_ENUM_NAMED")]

/-- The macros that are defined in the verbatim lines of a macro beside it. -/
def companions (m : GuardedMacro) : List String :=
  (guardedByOther.filter fun pair => pair.1 = m.name).map Prod.snd

/-- The macros that the block of a macro may define. -/
def touched (m : GuardedMacro) : List String :=
  m.name :: m.companions

/-- The macros that the block of a macro defines although they are defined. -/
def clashes (m : GuardedMacro) (now : Processing) : List String :=
  if m.passes now then [] else m.companions.filter now.isDefined

/-- What the blocks of some macros do. -/
structure Settles (table : List GuardedMacro) (before after : Processing) : Prop where
  definition?_eq : ∀ name, name ∉ table.flatMap touched →
    after.definition? name = before.definition? name
  redefined_eq : after.redefined = before.redefined ++ table.flatMap fun m => m.clashes before
  keeps : ∀ name behind, before.definition? name = some behind →
    name ∉ table.flatMap (fun m => m.clashes before) → after.definition? name = some behind
  /-- Nothing is left to be done. -/
  passes : ∀ m ∈ table, m.passes after = true
  eq_of_passes : (∀ m ∈ table, m.passes before = true) → after = before

section Independence

variable {m : GuardedMacro} {now later : Processing}

/-- Whether a macro passes depends on itself and on the language. -/
theorem passes_congr
    (hname : later.definition? m.name = now.definition? m.name)
    (hlanguage : ∀ language : Language,
      later.definition? language.macroName = now.definition? language.macroName) :
    m.passes later = m.passes now := by
  simp only [GuardedMacro.passes, isDefined, hname, hlanguage]

theorem clashes_congr
    (htouched : ∀ name ∈ m.touched, later.definition? name = now.definition? name)
    (hlanguage : ∀ language : Language,
      later.definition? language.macroName = now.definition? language.macroName) :
    m.clashes later = m.clashes now := by
  have hcompanions : m.companions.filter later.isDefined = m.companions.filter now.isDefined := by
    refine List.filter_congr fun name hname => ?_
    rw [isDefined, isDefined, htouched name (List.mem_cons_of_mem _ hname)]
  rw [clashes, clashes, passes_congr (htouched m.name List.mem_cons_self) hlanguage, hcompanions]

end Independence

namespace Settles

variable {first second : List GuardedMacro} {before middle after : Processing}

theorem nil (now : Processing) : Settles [] now now where
  definition?_eq _ _ := rfl
  redefined_eq := by simp
  keeps _ _ h _ := h
  passes := by simp
  eq_of_passes _ := rfl

/-- Macros that touch different names do not meddle with one another. -/
theorem append
    (hfirst : Settles first before middle) (hsecond : Settles second middle after)
    (hdisjoint : (first.flatMap touched).Disjoint (second.flatMap touched))
    (hlanguage : ∀ language : Language,
      language.macroName ∉ (first ++ second).flatMap touched) :
    Settles (first ++ second) before after := by
  rw [List.flatMap_append] at hlanguage
  simp only [List.mem_append, not_or] at hlanguage
  -- the first macros leave alone what the second ones ask for, and the other way round
  have hmiddle : ∀ m ∈ second, ∀ name ∈ m.touched,
      middle.definition? name = before.definition? name := by
    intro m hm name hname
    exact hfirst.definition?_eq name fun hmem =>
      hdisjoint hmem (List.mem_flatMap.2 ⟨m, hm, hname⟩)
  have hafter : ∀ m ∈ first, after.definition? m.name = middle.definition? m.name := by
    intro m hm
    exact hsecond.definition?_eq m.name fun hmem =>
      hdisjoint (List.mem_flatMap.2 ⟨m, hm, List.mem_cons_self⟩) hmem
  have hclashes : (second.flatMap fun m => m.clashes middle) =
      second.flatMap fun m => m.clashes before := by
    refine List.flatMap_congr fun m hm => clashes_congr (hmiddle m hm) fun language => ?_
    exact hfirst.definition?_eq _ (hlanguage language).1
  refine ⟨fun name hname => ?_, ?_, fun name behind hname hclash => ?_, fun m hm => ?_,
    fun hpasses => ?_⟩
  · rw [List.flatMap_append, List.mem_append, not_or] at hname
    rw [hsecond.definition?_eq name hname.2, hfirst.definition?_eq name hname.1]
  · rw [hsecond.redefined_eq, hfirst.redefined_eq, hclashes, List.flatMap_append,
      List.append_assoc]
  · rw [List.flatMap_append, List.mem_append, not_or, ← hclashes] at hclash
    exact hsecond.keeps name behind (hfirst.keeps name behind hname hclash.1) hclash.2
  · rcases List.mem_append.1 hm with hm | hm
    · rw [passes_congr (hafter m hm) fun language =>
        hsecond.definition?_eq _ (hlanguage language).2]
      exact hfirst.passes m hm
    · exact hsecond.passes m hm
  · have hsame : middle = before :=
      hfirst.eq_of_passes fun m hm => hpasses m (List.mem_append_left _ hm)
    rw [hsame] at hsecond
    exact hsecond.eq_of_passes fun m hm => hpasses m (List.mem_append_right _ hm)

end Settles

section Single

variable {m : GuardedMacro} {before after : Processing}

theorem Settles.refl_of_passes (h : m.passes before = true) : Settles [m] before before where
  definition?_eq _ _ := rfl
  redefined_eq := by simp [clashes, h]
  keeps _ _ hname _ := hname
  passes := by simpa using h
  eq_of_passes _ := rfl

section Defining

variable {names : List String} (hnames : names.filter (· ≠ m.name) = m.companions)
include hnames

theorem mem_touched_of_mem {name : String} (h : name ∈ names) : name ∈ m.touched := by
  rw [touched, List.mem_cons, ← hnames, List.mem_filter]
  by_cases hsame : name = m.name
  · exact Or.inl hsame
  · exact Or.inr ⟨h, by simpa using hsame⟩

/-- A macro that is not defined before is among no clashes. -/
theorem filter_isDefined_of_undefined (h : before.isDefined m.name = false) :
    names.filter before.isDefined = m.companions.filter before.isDefined := by
  rw [← hnames, List.filter_filter]
  refine List.filter_congr fun name _ => ?_
  by_cases hsame : name = m.name
  · simp [hsame, h]
  · simp [hsame]

/-- A macro that does not pass settles by defining itself and its companions. -/
theorem Settles.of_definesAll
    (h : before.DefinesAll after names) (hpasses : m.passes before = false)
    (hmem : m.name ∈ names) :
    Settles [m] before after := by
  have hundefined : before.isDefined m.name = false :=
    (Bool.or_eq_false_iff.1 hpasses).1
  have hclashes : m.clashes before = m.companions.filter before.isDefined := by
    simp [clashes, hpasses]
  refine ⟨fun name hname => ?_, ?_, fun name behind hname hclash => ?_, ?_, fun hall => ?_⟩
  · rw [List.flatMap_singleton] at hname
    exact h.definition?_eq name fun hmem => hname (mem_touched_of_mem hnames hmem)
  · rw [h.redefined_eq, filter_isDefined_of_undefined hnames hundefined,
      List.flatMap_singleton, hclashes]
  · have hdefined : before.isDefined name = true := by
      simp [isDefined, hname]
    rw [List.flatMap_singleton, hclashes, List.mem_filter] at hclash
    rw [h.definition?_eq name fun hmem => ?_]
    · exact hname
    · rcases List.mem_cons.1 (mem_touched_of_mem hnames hmem) with rfl | hcompanion
      · rw [hundefined] at hdefined
        cases hdefined
      · exact hclash ⟨hcompanion, hdefined⟩
  · simpa using passes_of_isDefined (h.isDefined m.name hmem)
  · rw [hall m (by simp)] at hpasses
    cases hpasses

/-- A macro settles if it does nothing where it passes, and defines itself and its companions
where it does not. -/
theorem settles_single
    (hpass : m.passes before = true → after = before)
    (hdefines : m.passes before = false → before.DefinesAll after names)
    (hmem : m.name ∈ names) :
    Settles [m] before after := by
  cases hpasses : m.passes before with
  | true =>
      rw [hpass hpasses]
      exact .refl_of_passes hpasses
  | false =>
      exact .of_definesAll hnames (hdefines hpasses) hpasses hmem

end Defining

variable {truth : Condition → Bool} {now : Processing}

/-- A macro without verbatim lines settles, and it has no companions. -/
theorem settles_of_value
    (hnamed : m.WellNamed) (h : m.WellFormed) (hvalue : m.replacement.isVerbatim = false)
    (hcompanions : m.companions = []) :
    Settles [m] now (m.block.read (reader truth) now) := by
  have hsaid : m.DefinedAsSaid truth now (m.block.read (reader truth) now) :=
    definedAsSaid_read hnamed h
  have hdefines : m.passes now = false →
      now.DefinesAll (m.block.read (reader truth) now) [m.name] := by
    intro hpasses
    obtain ⟨value, hadds⟩ := hsaid.exists_addsOnly hvalue hpasses
    exact hadds.definesAll (Bool.or_eq_false_iff.1 hpasses).1
  exact settles_single (by simp [hcompanions]) (hsaid.eq_of_passes hvalue) hdefines (by simp)

/-- Verbatim lines settle if they define the macro and its companions. -/
theorem settles_of_verbatim
    (names : List String) {lines : List String} (hm : m.replacement = .verbatim lines)
    (hnamed : m.WellNamed) (hlines : LinesDefine lines names) (hmem : m.name ∈ names)
    (hnames : names.filter (· ≠ m.name) = m.companions) :
    Settles [m] now (m.block.read (reader truth) now) := by
  obtain ⟨f, hdoes, hdefines⟩ := hlines truth
  have hread : m.block.read (reader truth) now = if m.passes now then now else f now := by
    rw [block, hm, read_ifUndefined hnamed, Block.read_lines hdoes]
    simp [GuardedMacro.passes, hm, Replacement.language?]
  rw [hread]
  refine settles_single hnames (fun hpasses => ?_) (fun hpasses => ?_) hmem
  · rw [if_pos hpasses]
  · simpa [hpasses] using hdefines now

/-- Verbatim lines for one language settle if they are a guarded definition. -/
theorem settles_of_verbatimFor
    {language : Language} {opening line : String}
    (hm : m.replacement = .verbatimFor language [opening, line, "# endif"])
    (hname : ∀ c ∈ m.name.toList, Text.continuesName c = true)
    (hopening : Directive.ofLine? opening =
      some (.opening (.ofText ("!defined(" ++ m.name ++ ")"))))
    (hnewline : '\n' ∉ opening.toList) (hline : LinesDefine [line] [m.name])
    (hcompanions : m.companions = []) :
    Settles [m] now (m.block.read (reader truth) now) := by
  obtain ⟨f, hdoes, hdefines⟩ := hline truth
  have hguarded := Reader.Does.onlyIf hopening Directive.ofLine?_spacedEndif
    ⟨hnewline, by decide⟩ hdoes
  have hbody : (Block.lines [opening, line, "# endif"]).read (reader truth) now =
      if now.isDefined m.name then now else f now := by
    refine (Block.read_lines hguarded).trans ?_
    rw [holds_reader, holds_notDefined hname]
    cases now.isDefined m.name <;> rfl
  have hread : m.block.read (reader truth) now = if m.passes now then now else f now := by
    rw [block, hm, read_forLanguage, hbody]
    cases hlanguage : now.isDefined language.macroName <;>
      simp [GuardedMacro.passes, hm, Replacement.language?, hlanguage]
  rw [hread]
  refine settles_single (by simp [hcompanions]) (fun hpasses => ?_) (fun hpasses => ?_)
    (List.mem_singleton_self _)
  · rw [if_pos hpasses]
  · simpa [hpasses] using hdefines now

end Single

section Standard

variable {truth : Condition → Bool} {now : Processing}

theorem companions_of_value :
    ∀ m ∈ standard, m.replacement.isVerbatim = false → m.companions = [] := by
  decide

set_option maxRecDepth 2000 in
theorem settles_of_verbatim_standard :
    ∀ m ∈ standard, m.replacement.isVerbatim = true →
      Settles [m] now (m.block.read (reader truth) now) := by
  simp only [standard, List.forall_mem_cons, Replacement.isVerbatim, Bool.false_eq_true,
    false_implies, true_implies, true_and, and_true, List.not_mem_nil, implies_true]
  refine ⟨?_, ?_, ?_, ?_⟩
  · exact settles_of_verbatim ["SWIFT_PASTE_HELPER", "SWIFT_PASTE"] rfl
      (wellNamed_ofList (by decide) (by decide) (by decide))
      (.cons_ofList (by decide) (by decide) (.ofList (by decide) (by decide)) (by decide))
      (by decide) (by decide)
  · exact settles_of_verbatim ["SWIFT_ENUM", "SWIFT_ENUM_NAMED"] rfl
      (wellNamed_ofList (by decide) (by decide) (by decide))
      (.cons_ofList (by decide) (by decide)
        (.choice rfl (by decide) (.ofList (by decide) (by decide))
          (.ofList (by decide) (by decide)))
        (by decide))
      (by decide) (by decide)
  · exact settles_of_verbatim ["SWIFT_EXTERN"] rfl
      (wellNamed_ofList (by decide) (by decide) (by decide))
      (.choice rfl (by decide) (.ofList (by decide) (by decide))
        (.ofList (by decide) (by decide)))
      (by decide) (by decide)
  · exact settles_of_verbatimFor rfl (Text.forall_mem_ofList (by decide)) (by decide) (by decide)
      (.ofList (by decide) (by decide)) (by decide)

/-- Every standard macro settles. -/
theorem settles_of_mem_standard {m : GuardedMacro} (hm : m ∈ standard) (now : Processing) :
    Settles [m] now (m.block.read (reader truth) now) := by
  cases hverbatim : m.replacement.isVerbatim with
  | true =>
      exact settles_of_verbatim_standard m hm hverbatim
  | false =>
      exact settles_of_value (standard_wellNamed m hm) (standard_tidy m hm).wellFormed hverbatim
        (companions_of_value m hm hverbatim)

/-- Macros that settle and touch different names settle one after the other. -/
theorem settles_all
    {table : List GuardedMacro}
    (h : ∀ m ∈ table, ∀ now, Settles [m] now (m.block.read (reader truth) now))
    (hdistinct : (table.flatMap touched).Nodup)
    (hlanguage : ∀ language : Language, language.macroName ∉ table.flatMap touched)
    (now : Processing) :
    Settles table now ((Block.all (table.map block)).read (reader truth) now) := by
  induction table generalizing now with
  | nil =>
      exact .nil now
  | cons m rest ih =>
      rw [List.flatMap_cons, List.nodup_append'] at hdistinct
      obtain ⟨-, hrest, hdisjoint⟩ := hdistinct
      have hlater : ∀ language : Language, language.macroName ∉ rest.flatMap touched := by
        intro language hmem
        refine hlanguage language ?_
        rw [List.flatMap_cons]
        exact List.mem_append_right _ hmem
      have hfirst := h m List.mem_cons_self now
      have hsecond := ih (fun other hother => h other (List.mem_cons_of_mem _ hother)) hrest
        hlater (m.block.read (reader truth) now)
      refine hfirst.append hsecond ?_ hlanguage
      rwa [List.flatMap_singleton]

theorem nodup_touched : (standard.flatMap touched).Nodup := by
  decide +kernel

theorem macroName_notMem_touched (language : Language) :
    language.macroName ∉ standard.flatMap touched := by
  cases language <;> decide +kernel

/-- What some of the standard macros do one after the other. -/
theorem settles_of_sublist
    {table : List GuardedMacro} (h : table.Sublist standard) (now : Processing) :
    Settles table now ((Block.all (table.map block)).read (reader truth) now) := by
  have htouched : (table.flatMap touched).Sublist (standard.flatMap touched) :=
    h.flatMap touched
  exact settles_all (fun _ hm => settles_of_mem_standard (h.subset hm))
    (nodup_touched.sublist htouched)
    (fun language hmem => macroName_notMem_touched language (htouched.subset hmem)) now

/-- The macros that the standard block defines although they are defined: those that stand
behind the guard of another macro, where that one is not defined. -/
def behindOtherGuard (now : Processing) : List String :=
  (guardedByOther.filter fun pair =>
    !now.isDefined pair.1 && now.isDefined pair.2).map Prod.snd

theorem flatMap_clashes_standard (now : Processing) :
    (standard.flatMap fun m => m.clashes now) = behindOtherGuard now := by
  have hclashes : (standard.flatMap fun m => m.clashes now) =
      (if now.isDefined "SWIFT_PASTE" then [] else
        ["SWIFT_PASTE_HELPER"].filter now.isDefined) ++
      (if now.isDefined "SWIFT_ENUM" then [] else
        ["SWIFT_ENUM_NAMED"].filter now.isDefined) := by
    simp [standard, clashes, companions, guardedByOther, passes, Replacement.language?]
  rw [hclashes, behindOtherGuard, guardedByOther]
  cases hpaste : now.isDefined "SWIFT_PASTE" <;>
    cases henum : now.isDefined "SWIFT_ENUM" <;>
    cases hhelper : now.isDefined "SWIFT_PASTE_HELPER" <;>
    simp [hpaste, henum, hhelper, List.filter_cons, apply_ite (List.map Prod.snd)]

/-- **The standard block redefines no macro but those that stand behind the guard of
another one.**  All other macros that are defined before it keep their definitions, whatever
conditions hold; and when the block is processed again it changes nothing. -/
theorem redefined_process_standardBlock (truth : Condition → Bool) (before : Processing) :
    let after := before.process truth standardBlock.render
    after.redefined = before.redefined ++ behindOtherGuard before ∧
      (∀ name behind, before.definition? name = some behind →
        name ∉ behindOtherGuard before → after.definition? name = some behind) ∧
      after.process truth standardBlock.render = after := by
  have hprocess : ∀ now : Processing,
      Settles standard now (now.process truth standardBlock.render) := by
    intro now
    rw [process_render wellFormed_standardBlock]
    exact settles_of_sublist (List.Sublist.refl standard) now
  have hfirst := hprocess before
  refine ⟨?_, fun name behind hname hother => ?_, ?_⟩
  · rw [hfirst.redefined_eq, flatMap_clashes_standard]
  · rw [← flatMap_clashes_standard] at hother
    exact hfirst.keeps name behind hname hother
  · exact (hprocess _).eq_of_passes hfirst.passes

/-- Where only the helper of `SWIFT_PASTE` is defined, it is redefined and loses its
definition. -/
theorem helper_redefined :
    let mine : Processing :=
      ⟨fun name => if name = "SWIFT_PASTE_HELPER" then some " mine" else none, [], []⟩
    ∀ truth : Condition → Bool,
      let after := mine.process truth standardBlock.render
      mine.definition? "SWIFT_PASTE_HELPER" = some " mine" ∧
        after.definition? "SWIFT_PASTE_HELPER" = some "(x, y) x##y" ∧
        after.redefined = ["SWIFT_PASTE_HELPER"] := by
  intro mine truth after
  have hafter : after = standardBlock.read (reader truth) mine :=
    process_render wellFormed_standardBlock
  have hsettles : Settles standard mine after :=
    hafter ▸ settles_of_sublist (List.Sublist.refl standard) mine
  refine ⟨by decide, ?_, ?_⟩
  · -- the first macro redefines the helper, and no other one touches it
    let first : Processing := (Block.all ((standard.take 1).map block)).read (reader truth) mine
    have hlater : after =
        (Block.all ((standard.drop 1).map block)).read (reader truth) first := by
      rw [hafter, ← Block.read_all_append, ← List.map_append, List.take_append_drop,
        standardBlock]
    have hrest : Settles (standard.drop 1) first after :=
      hlater ▸ settles_of_sublist (List.drop_sublist 1 standard) first
    rw [hrest.definition?_eq _ (by decide +kernel)]
    rfl
  · rw [hsettles.redefined_eq, flatMap_clashes_standard]
    decide

end Standard

end GuardedMacro

end InteropHeader
