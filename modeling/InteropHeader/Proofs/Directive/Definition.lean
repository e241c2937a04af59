import InteropHeader.Directive.MacroTable
import InteropHeader.Proofs.Directive.Identifier

/-!
# Directives that define macros

Input:
  a line of a text.

Algorithm:
  the word of the directive tells whether the line defines a macro or undoes a
  definition; behind the word and any blanks stands the name of the macro, which goes on
  as far as an identifier does, and behind the name whatever the macro is to stand for.

Results:
  * `ofChars?_define`: the name of a macro is read as it was written;
  * `ofChars?_of_isOtherStart`: the start of a line can settle that it defines nothing;
  * `standard_wellNamed`: the standard macros are defined by their names.
-/

namespace InteropHeader

/-- A directive that changes which macros are defined. -/
inductive MacroDirective
  /-- Defines a macro by what stands behind its name. -/
  | define (name behind : String)
  | undefine (name : String)
  deriving DecidableEq, Repr

namespace MacroDirective

/-- The macro that is defined or undefined. -/
def name : MacroDirective → String
  | define name _ => name
  | undefine name => name

/-- The directive with the given word, name and rest. -/
def ofWord? (word name behind : String) : Option MacroDirective :=
  match word with
  | "define" => some (define name behind)
  | "undef" => some (undefine name)
  | _ => none

/-- The directive that the characters of a line make up. -/
def ofChars? (line : List Char) : Option MacroDirective :=
  (Directive.body? line).bind fun body =>
    let operand := Text.skipBlanks (body.dropWhile Char.isAlpha)
    ofWord? (String.ofList (body.takeWhile Char.isAlpha))
      (String.ofList (operand.takeWhile Text.continuesName))
      (String.ofList (operand.dropWhile Text.continuesName))

/-- The directive in a line. -/
def ofLine? (line : String) : Option MacroDirective :=
  ofChars? line.toList

/-- A line that is no directive at all defines nothing. -/
theorem ofLine?_of_body?_eq_none
    {line : String} (h : Directive.body? line.toList = none) : ofLine? line = none := by
  rw [ofLine?, ofChars?, h, Option.bind_none]

/-- What stands behind a word does not make a definition of it. -/
theorem ofWord?_eq_none
    {word name behind : String} (h : ofWord? word name behind = none)
    (otherName otherBehind : String) :
    ofWord? word otherName otherBehind = none := by
  unfold ofWord? at h ⊢
  split at h <;> simp_all

/-- A line that defines a macro or undoes a definition is no conditional directive. -/
theorem directive_ofLine?_eq_none
    {line : String} {directive : MacroDirective} (h : ofLine? line = some directive) :
    Directive.ofLine? line = none := by
  rw [ofLine?, ofChars?, Option.bind_eq_some_iff] at h
  obtain ⟨body, hbody, hword⟩ := h
  rw [Directive.ofLine?, Directive.ofChars?, hbody, Option.bind_some]
  unfold ofWord? at hword
  split at hword
  · rename_i hdefine
    rw [hdefine]
    rfl
  · rename_i hundef
    rw [hundef]
    rfl
  · cases hword

/-- A line that defines the given macro. -/
def Defines (line name : String) : Prop :=
  ∃ behind, ofLine? line = some (define name behind)

/-- The macro that a directive defines. -/
def defined? : MacroDirective → Option String
  | define name _ => some name
  | undefine _ => none

/-- What a fixed line defines is told from its characters. -/
theorem defines_ofList
    {line : List Char} {name : String} (h : (ofChars? line).bind defined? = some name) :
    Defines (String.ofList line) name := by
  rw [Option.bind_eq_some_iff] at h
  obtain ⟨directive, hline, hdefined⟩ := h
  cases directive with
  | define other behind =>
      cases hdefined
      exact ⟨behind, by rw [ofLine?, String.toList_ofList, hline]⟩
  | undefine other =>
      cases hdefined

/-- Whether a line defines nothing because of how it starts. -/
def isOtherStart (start : List Char) : Bool :=
  Directive.excludes start fun word => (ofWord? word "" "").isSome

theorem ofChars?_of_isOtherStart
    {start : List Char} (h : isOtherStart start = true) (rest : List Char) :
    ofChars? (start ++ rest) = none := by
  rw [ofChars?, Option.bind_eq_none_iff]
  intro body hbody
  exact ofWord?_eq_none (by simpa using Directive.word_of_excludes h hbody) _ _

theorem ofLine?_of_isOtherStart
    {start : List Char} (h : isOtherStart start = true) (rest : String) :
    ofLine? (String.ofList start ++ rest) = none := by
  rw [ofLine?, String.toList_append, String.toList_ofList]
  exact ofChars?_of_isOtherStart h rest.toList

/-- The name of a macro is read as it was written. -/
theorem ofChars?_define
    {indent name behind : List Char} (hindent : ∀ c ∈ indent, Text.isBlank c = true)
    (hname : ∀ c ∈ name, Text.continuesName c = true) (hne : name ≠ [])
    (hbehind : ∀ c ∈ behind.head?, Text.continuesName c = false) :
    ofChars? ('#' :: (indent ++ ("define ".toList ++ (name ++ behind)))) =
      some (define (String.ofList name) (String.ofList behind)) := by
  have hword : "define ".toList = ['d', 'e', 'f', 'i', 'n', 'e', ' '] := by
    decide
  have hbody : Directive.body? ('#' :: (indent ++ ("define ".toList ++ (name ++ behind)))) =
      some ("define ".toList ++ (name ++ behind)) := by
    have hskip : Text.skipBlanks ("define ".toList ++ (name ++ behind)) =
        "define ".toList ++ (name ++ behind) := by
      rw [hword]
      rfl
    show some (Text.skipBlanks (indent ++ _)) = _
    rw [Text.skipBlanks, List.dropWhile_append_of_pos hindent, ← Text.skipBlanks, hskip]
  have hoperand : Text.skipBlanks (name ++ behind) = name ++ behind := by
    obtain ⟨first, rest, rfl⟩ := List.exists_cons_of_ne_nil hne
    have hfirst := Text.not_isBlank_of_continuesName (hname first (by simp))
    rw [Text.skipBlanks, List.cons_append, List.dropWhile_cons_of_neg (by simp [hfirst])]
  have hend : behind.takeWhile Text.continuesName = [] ∧
      behind.dropWhile Text.continuesName = behind := by
    cases behind with
    | nil => exact ⟨rfl, rfl⟩
    | cons first rest => simp [hbehind first rfl]
  have hskip : Text.skipBlanks (' ' :: (name ++ behind)) = name ++ behind := by
    exact hoperand
  rw [ofChars?, hbody, hword, Option.bind_some]
  show ofWord? "define"
    (String.ofList ((Text.skipBlanks (' ' :: (name ++ behind))).takeWhile Text.continuesName))
    (String.ofList ((Text.skipBlanks (' ' :: (name ++ behind))).dropWhile Text.continuesName)) =
      _
  rw [hskip, List.takeWhile_append_of_pos hname, List.dropWhile_append_of_pos hname,
    hend.1, hend.2, List.append_nil]
  rfl

end MacroDirective

namespace GuardedMacro

/-- The name of a macro goes on as identifiers do, and a parameter list has
parentheses. -/
structure WellNamed (m : GuardedMacro) : Prop where
  name_ne_nil : m.name.toList ≠ []
  name : ∀ c ∈ m.name.toList, Text.continuesName c = true
  parameters : ∀ c ∈ m.parameters.toList.head?, c = '('

theorem wellNamed_ofList
    {name parameters : List Char} {replacement : Replacement} (hne : name ≠ [])
    (hname : name.all Text.continuesName = true)
    (hparameters : parameters.head?.all (· == '(') = true) :
    WellNamed ⟨String.ofList name, String.ofList parameters, replacement⟩ where
  name_ne_nil := by simpa using hne
  name := by simpa using hname
  parameters := by simpa [Option.all_eq_true] using hparameters

/-- The line that defines a macro is understood so. -/
theorem WellNamed.ofLine?_defineLine
    {m : GuardedMacro} (h : m.WellNamed) {indent : String}
    (hindent : ∀ c ∈ indent.toList, Text.isBlank c = true) (value : String) :
    MacroDirective.ofLine? (m.defineLine indent value) =
      some (.define m.name (m.parameters ++ " " ++ value)) := by
  have hchars : (m.defineLine indent value).toList =
      '#' :: (indent.toList ++ ("define ".toList ++
        (m.name.toList ++ (m.parameters ++ " " ++ value).toList))) := by
    simp [defineLine]
  have hbehind : ∀ c ∈ (m.parameters ++ " " ++ value).toList.head?,
      Text.continuesName c = false := by
    intro c hc
    cases hparameters : m.parameters.toList with
    | nil =>
        simp [hparameters] at hc
        subst hc
        decide
    | cons first rest =>
        have hfirst := h.parameters first (by simp [hparameters])
        simp [hparameters] at hc
        rw [← hc, hfirst]
        decide
  rw [MacroDirective.ofLine?, hchars,
    MacroDirective.ofChars?_define hindent h.name h.name_ne_nil hbehind,
    String.ofList_toList, String.ofList_toList]

theorem standard_wellNamed : ∀ m ∈ standard, m.WellNamed := by
  simp only [standard, List.forall_mem_cons, List.not_mem_nil, false_implies,
    implies_true, and_true]
  and_intros
  all_goals exact wellNamed_ofList (by decide) (by decide) (by decide)

end GuardedMacro

end InteropHeader
