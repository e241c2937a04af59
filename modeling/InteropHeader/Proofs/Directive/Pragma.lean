import InteropHeader.Proofs.Directive.Block
import InteropHeader.Proofs.Directive.Definition

/-!
# Pragmas that save and restore

Input:
  the lines of a text that are read, and the state that they find.

Algorithm:
  the silenced diagnostics and the definition of the macro `any` are registers: a push saves
  the value, and a pop puts back what was saved last.  The attributes given to all that
  follows are a stack.  A pop where nothing has been saved has no result.

Results:
  * `exists_step_of_permits`: a pragma that stands where it may has a result, and what was
    found is still there or saved;
  * `Runs.append`, `Runs.exists_of_append_cons`: runs part by part;
  * `restores_of_runs`: if each pragma of some lines stands where it may and the state that
    they find comes back, the lines restore it.
-/

namespace InteropHeader

/-- A line that changes what pragmas save and restore. -/
inductive Pragma
  | pushDiagnostics
  | silence (diagnostic : String)
  | popDiagnostics
  | pushAny
  /-- Defines the macro `any`, or ends its definition. -/
  | setAny (definition : Option String)
  | popAny
  | pushAttribute (content : String)
  | popAttribute
  deriving DecidableEq, Repr

/-- What a macro stands for behind a directive. -/
def MacroDirective.definition : MacroDirective → Option String
  | define _ behind => some behind
  | undefine _ => none

namespace Pragma

/-- What the word `pragma` stands in front of. -/
def ofOperand? (operand : List Char) : Option Pragma :=
  if operand = "clang diagnostic push".toList then some pushDiagnostics
  else if operand = "clang diagnostic pop".toList then some popDiagnostics
  else if operand = "push_macro(\"any\")".toList then some pushAny
  else if operand = "pop_macro(\"any\")".toList then some popAny
  else if operand = "clang attribute pop".toList then some popAttribute
  else if "clang diagnostic ignored ".toList.isPrefixOf operand then
    some (silence (String.ofList (operand.drop "clang diagnostic ignored ".length)))
  else if "clang attribute push".toList.isPrefixOf operand then
    some (pushAttribute (String.ofList (operand.drop "clang attribute push".length)))
  else none

/-- What the characters of a line change. -/
def ofChars? (line : List Char) : Option Pragma :=
  match MacroDirective.ofChars? line with
  | some directive =>
      if directive.name = "any" then some (setAny directive.definition) else none
  | none =>
      (Directive.body? line).bind fun body =>
        if String.ofList (body.takeWhile Char.isAlpha) = "pragma" then
          ofOperand? (Text.skipBlanks (body.dropWhile Char.isAlpha))
        else none

/-- What a line changes. -/
def ofLine? (line : String) : Option Pragma :=
  ofChars? line.toList

/-- A fixed line is read by its characters. -/
theorem ofLine?_ofList {line : List Char} {pragma : Option Pragma} (h : ofChars? line = pragma) :
    ofLine? (String.ofList line) = pragma := by
  rw [ofLine?, String.toList_ofList, h]

/-- The pragmas in lines, in order. -/
def inLines (lines : List String) : List Pragma :=
  lines.filterMap ofLine?

theorem inLines_append (first second : List String) :
    inLines (first ++ second) = inLines first ++ inLines second :=
  List.filterMap_append

/-- Whether a pragma silences a diagnostic. -/
def isSilence : Pragma → Bool
  | silence _ => true
  | _ => false

/-- Pragmas that silence diagnostics, one and all. -/
def OnlySilence (pragmas : List Pragma) : Prop :=
  ∀ pragma ∈ pragmas, pragma.isSilence = true

instance (pragmas : List Pragma) : Decidable (OnlySilence pragmas) :=
  inferInstanceAs (Decidable (∀ pragma ∈ pragmas, pragma.isSilence = true))

namespace OnlySilence

theorem append {first second : List Pragma} (hfirst : OnlySilence first)
    (hsecond : OnlySilence second) : OnlySilence (first ++ second) :=
  List.forall_mem_append.2 ⟨hfirst, hsecond⟩

theorem inLines_cons_ofList
    {line : List Char} {rest : List String} (h : (ofChars? line).all isSilence = true)
    (hrest : OnlySilence (inLines rest)) :
    OnlySilence (inLines (String.ofList line :: rest)) := by
  have hline : ofLine? (String.ofList line) = ofChars? line := ofLine?_ofList rfl
  rw [inLines, List.filterMap_cons, hline]
  cases hpragma : ofChars? line with
  | none => exact hrest
  | some pragma =>
      rw [hpragma] at h
      exact List.forall_mem_cons.2 ⟨h, hrest⟩

end OnlySilence

section Silence

/-- A line that changes nothing. -/
def Silent (line : String) : Prop :=
  ofLine? line = none

theorem inLines_of_silent {lines : List String} (h : ∀ line ∈ lines, Silent line) :
    inLines lines = [] :=
  List.filterMap_eq_nil_iff.2 h

theorem silent_ofList {line : List Char} (h : ofChars? line = none) :
    Silent (String.ofList line) :=
  ofLine?_ofList h

theorem silent_of_body?_eq_none {line : String} (h : Directive.body? line.toList = none) :
    Silent line := by
  rw [Silent, ofLine?, ofChars?, MacroDirective.ofChars?, h]
  rfl

theorem silent_of_directive
    {line : String} {directive : MacroDirective}
    (h : MacroDirective.ofLine? line = some directive) (hname : directive.name ≠ "any") :
    Silent line := by
  have hchars : MacroDirective.ofChars? line.toList = some directive := h
  rw [Silent, ofLine?, ofChars?, hchars]
  exact if_neg hname

/-- Whether a line changes nothing because of how it starts. -/
def isSilentStart (start : List Char) : Bool :=
  Directive.excludes start fun word =>
    word = "pragma" || (MacroDirective.ofWord? word "" "").isSome

theorem silent_of_isSilentStart
    {start : List Char} (h : isSilentStart start = true) (rest : String) :
    Silent (String.ofList start ++ rest) := by
  have hword : ∀ body, Directive.body? (start ++ rest.toList) = some body →
      (MacroDirective.ofWord? (String.ofList (body.takeWhile Char.isAlpha)) "" "" = none) ∧
        String.ofList (body.takeWhile Char.isAlpha) ≠ "pragma" := by
    intro body hbody
    have hallowed := Directive.word_of_excludes h hbody
    simpa [and_comm] using hallowed
  rw [Silent, ofLine?, String.toList_append, String.toList_ofList, ofChars?,
    MacroDirective.ofChars?]
  cases hbody : Directive.body? (start ++ rest.toList) with
  | none => rfl
  | some body =>
      obtain ⟨hdefines, hpragma⟩ := hword body hbody
      simp [MacroDirective.ofWord?_eq_none hdefines, hpragma]

end Silence

end Pragma

/-- A value, and the values that have been saved, the last one first. -/
structure Register (α : Type) where
  value : α
  saved : List α
  deriving DecidableEq, Repr

namespace Register

variable {α : Type}

def push (register : Register α) : Register α :=
  ⟨register.value, register.value :: register.saved⟩

def set (register : Register α) (value : α) : Register α :=
  ⟨value, register.saved⟩

def pop? (register : Register α) : Option (Register α) :=
  match register.saved with
  | [] => none
  | value :: rest => some ⟨value, rest⟩

/-- More values have been saved than in the register that was found. -/
def Deeper (base register : Register α) : Prop :=
  base.saved.length < register.saved.length

/-- What was found is still there, or saved. -/
def Within (base register : Register α) : Prop :=
  (base.value :: base.saved) <:+ (register.value :: register.saved)

variable {base register : Register α}

theorem Within.refl (base : Register α) : base.Within base :=
  List.suffix_rfl

theorem Within.push (h : base.Within register) : base.Within register.push :=
  h.trans (List.suffix_cons ..)

/-- Outside all pairs of a push and a pop, the register is as it was found. -/
theorem Within.eq_or_deeper (h : base.Within register) :
    register = base ∨ base.Deeper register := by
  rcases List.suffix_cons_iff.1 h with heq | hsaved
  · obtain ⟨hvalue, hsaved⟩ := List.cons.inj heq
    left
    cases register
    cases base
    simp_all
  · right
    have hlength := hsaved.length_le
    rw [List.length_cons] at hlength
    exact hlength

theorem Within.suffix_saved (h : base.Within register) (hdeeper : base.Deeper register) :
    (base.value :: base.saved) <:+ register.saved := by
  rcases List.suffix_cons_iff.1 h with heq | hsaved
  · have hlength := congrArg List.length (List.cons.inj heq).2
    have : base.saved.length < register.saved.length := hdeeper
    omega
  · exact hsaved

theorem Within.set (h : base.Within register) (hdeeper : base.Deeper register) (value : α) :
    base.Within (register.set value) :=
  (h.suffix_saved hdeeper).trans (List.suffix_cons ..)

theorem Within.exists_pop (h : base.Within register) (hdeeper : base.Deeper register) :
    ∃ next, register.pop? = some next ∧ base.Within next := by
  have hsaved := h.suffix_saved hdeeper
  cases hregister : register.saved with
  | nil =>
      rw [hregister] at hsaved
      exact absurd (List.suffix_nil.1 hsaved) (by simp)
  | cons value rest =>
      rw [hregister] at hsaved
      exact ⟨⟨value, rest⟩, by rw [pop?, hregister], hsaved⟩

end Register

/-- What pragmas save and restore. -/
structure PragmaState where
  silenced : Register (List String)
  /-- The definition of the macro `any`. -/
  any : Register (Option String)
  attributes : List String
  deriving DecidableEq, Repr

namespace PragmaState

def step (state : PragmaState) : Pragma → Option PragmaState
  | .pushDiagnostics => some { state with silenced := state.silenced.push }
  | .silence diagnostic =>
      some { state with
        silenced := state.silenced.set (diagnostic :: state.silenced.value) }
  | .popDiagnostics =>
      state.silenced.pop?.map fun silenced => { state with silenced := silenced }
  | .pushAny => some { state with any := state.any.push }
  | .setAny definition => some { state with any := state.any.set definition }
  | .popAny => state.any.pop?.map fun any => { state with any := any }
  | .pushAttribute content => some { state with attributes := content :: state.attributes }
  | .popAttribute =>
      match state.attributes with
      | [] => none
      | _ :: rest => some { state with attributes := rest }

/-- The state behind lines; there is none if a pop finds nothing saved. -/
def run (state : PragmaState) (lines : List String) : Option PragmaState :=
  (Pragma.inLines lines).foldlM step state

/-- Where a pragma may stand: a pop only behind a push, a diagnostic is silenced only between
them, and the macro `any` is changed and an attribute pushed only while its definition is
saved. -/
def Permits (base state : PragmaState) : Pragma → Prop
  | .pushDiagnostics | .pushAny => True
  | .silence _ | .popDiagnostics => base.silenced.Deeper state.silenced
  | .setAny _ | .popAny | .pushAttribute _ => base.any.Deeper state.any
  | .popAttribute => base.attributes.length < state.attributes.length

/-- What was found is still there, or saved. -/
structure Within (base state : PragmaState) : Prop where
  silenced : base.silenced.Within state.silenced
  any : base.any.Within state.any
  attributes : base.attributes <:+ state.attributes

variable {base state next last : PragmaState}

theorem Within.refl (base : PragmaState) : base.Within base :=
  ⟨.refl _, .refl _, List.suffix_rfl⟩

/-- A pragma that stands where it may has a result, and what was found is still there or
saved. -/
theorem exists_step_of_permits
    {pragma : Pragma} (h : base.Within state) (hpermits : base.Permits state pragma) :
    ∃ next, state.step pragma = some next ∧ base.Within next := by
  cases pragma with
  | pushDiagnostics =>
      exact ⟨_, rfl, h.silenced.push, h.any, h.attributes⟩
  | silence diagnostic =>
      exact ⟨_, rfl, h.silenced.set hpermits _, h.any, h.attributes⟩
  | popDiagnostics =>
      obtain ⟨silenced, hpop, hsilenced⟩ := h.silenced.exists_pop hpermits
      exact ⟨{ state with silenced := silenced }, by rw [step, hpop]; rfl, hsilenced, h.any,
        h.attributes⟩
  | pushAny =>
      exact ⟨_, rfl, h.silenced, h.any.push, h.attributes⟩
  | setAny definition =>
      exact ⟨_, rfl, h.silenced, h.any.set hpermits _, h.attributes⟩
  | popAny =>
      obtain ⟨any, hpop, hany⟩ := h.any.exists_pop hpermits
      exact ⟨{ state with any := any }, by rw [step, hpop]; rfl, h.silenced, hany,
        h.attributes⟩
  | pushAttribute content =>
      exact ⟨_, rfl, h.silenced, h.any, h.attributes.trans (List.suffix_cons ..)⟩
  | popAttribute =>
      have hlength : base.attributes.length < state.attributes.length := hpermits
      cases hattributes : state.attributes with
      | nil =>
          simp [hattributes] at hlength
      | cons content rest =>
          have hrest : base.attributes <:+ rest := by
            have hsuffix := hattributes ▸ h.attributes
            rcases List.suffix_cons_iff.1 hsuffix with heq | hrest
            · rw [hattributes, heq] at hlength
              exact absurd hlength (Nat.lt_irrefl _)
            · exact hrest
          exact ⟨{ state with attributes := rest }, by rw [step, hattributes], h.silenced, h.any,
            hrest⟩

/-- Runs in which each pragma stands where it may. -/
inductive Runs (base : PragmaState) : PragmaState → List Pragma → PragmaState → Prop
  | nil (state : PragmaState) : Runs base state [] state
  | cons {state next last : PragmaState} {pragma : Pragma} {rest : List Pragma}
      (permits : base.Permits state pragma) (step_eq : state.step pragma = some next)
      (h : Runs base next rest last) :
      Runs base state (pragma :: rest) last

namespace Runs

variable {first second : List Pragma}

theorem append (h : Runs base state first next) (hnext : Runs base next second last) :
    Runs base state (first ++ second) last := by
  induction h with
  | nil => exact hnext
  | cons permits step_eq _ ih => exact .cons permits step_eq (ih hnext)

theorem foldlM_eq (h : Runs base state first last) : first.foldlM step state = some last := by
  induction h with
  | nil => rfl
  | cons _ step_eq _ ih =>
      rw [List.foldlM_cons, step_eq]
      exact ih

/-- A run comes by each of its parts. -/
theorem exists_of_append (h : Runs base state (first ++ second) last) :
    ∃ next, Runs base state first next ∧ Runs base next second last := by
  induction first generalizing state with
  | nil =>
      exact ⟨state, .nil state, h⟩
  | cons pragma first ih =>
      cases h with
      | cons permits step_eq h =>
          obtain ⟨next, hfirst, hsecond⟩ := ih h
          exact ⟨next, .cons permits step_eq hfirst, hsecond⟩

/-- Between a push and a pop, diagnostics may be silenced; nothing else changes. -/
theorem exists_of_onlySilence
    (h : Pragma.OnlySilence first) (hdeeper : base.silenced.Deeper state.silenced) :
    ∃ value, Runs base state first
      { state with silenced := state.silenced.set value } := by
  induction first generalizing state with
  | nil =>
      exact ⟨state.silenced.value, .nil state⟩
  | cons pragma rest ih =>
      obtain ⟨hpragma, hrest⟩ := List.forall_mem_cons.1 h
      cases pragma with
      | silence diagnostic =>
          obtain ⟨value, hruns⟩ := @ih { state with
            silenced := state.silenced.set (diagnostic :: state.silenced.value) } hrest hdeeper
          exact ⟨value, .cons hdeeper rfl hruns⟩
      | _ => cases hpragma

theorem within (h : Runs base state first last) (hstate : base.Within state) :
    base.Within last := by
  induction h with
  | nil => exact hstate
  | cons permits step_eq _ ih =>
      obtain ⟨next, hnext, hwithin⟩ := exists_step_of_permits hstate permits
      cases step_eq.symm.trans hnext
      exact ih hwithin

end Runs

/-- Lines that restore what they find: no pop finds nothing saved, and in front of each line
the registers are as they were found or that is saved, and a pragma in the line stands where
it may. -/
structure Restores (base : PragmaState) (lines : List String) : Prop where
  run_eq : base.run lines = some base
  exists_run : ∀ front line back, lines = front ++ line :: back →
    ∃ state, base.run front = some state ∧
      (state.silenced = base.silenced ∨ base.silenced.Deeper state.silenced) ∧
      (state.any = base.any ∨ base.any.Deeper state.any) ∧
      ∀ pragma, Pragma.ofLine? line = some pragma → base.Permits state pragma

/-- If each pragma stands where it may and the state comes back, the lines restore it. -/
theorem restores_of_runs {lines : List String} (h : Runs base base (Pragma.inLines lines) base) :
    base.Restores lines where
  run_eq := h.foldlM_eq
  exists_run front line back hlines := by
    rw [hlines, Pragma.inLines_append] at h
    obtain ⟨state, hfront, hback⟩ := h.exists_of_append
    have hwithin := hfront.within (.refl base)
    refine ⟨state, hfront.foldlM_eq, hwithin.silenced.eq_or_deeper, hwithin.any.eq_or_deeper,
      fun pragma hpragma => ?_⟩
    rw [Pragma.inLines, List.filterMap_cons_some hpragma] at hback
    cases hback with
    | cons permits _ _ => exact permits

/-- What one text leaves behind, another one may not take away. -/
example :
    PragmaState.run ⟨⟨[], []⟩, ⟨none, []⟩, []⟩
      ["# pragma push_macro(\"any\")", "# pragma clang diagnostic pop"] = none := by
  decide

end PragmaState

end InteropHeader
