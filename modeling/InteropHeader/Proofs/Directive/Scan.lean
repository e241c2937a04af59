import InteropHeader.Proofs.Text.Lines

/-!
# Conditional directives

Input:
  the lines of a text.

Algorithm:
  a directive is a line whose first character, blanks apart, is a number sign;
  behind it and any further blanks stands a word of ASCII letters.  Six words
  make a conditional directive; what it asks is the rest of the line from the
  first character that is no blank.  Counting the directives that open and close
  a conditional gives the depth of nesting, which no directive may take below
  zero and which only an open conditional may be branched at.

Results:
  * `ofLine?_of_isPlainStart`: the start of a line can settle that it is no
    conditional directive;
  * `depthAfter_append` and `depthAfter_add`: the depth is counted part by part,
    and alike from every depth;
  * `balanced_append`: balanced texts stay balanced one after the other;
  * `DirectiveFree.balanced`: a text without directives is balanced.
-/

namespace InteropHeader

namespace Text

/-- The code points with the property `White_Space` of Unicode. -/
def blankCodes : List Nat :=
  [0x9, 0xA, 0xB, 0xC, 0xD, 0x20, 0x85, 0xA0, 0x1680, 0x2000, 0x2001, 0x2002, 0x2003,
   0x2004, 0x2005, 0x2006, 0x2007, 0x2008, 0x2009, 0x200A, 0x2028, 0x2029, 0x202F,
   0x205F, 0x3000]

/-- Whether a character is blank. -/
def isBlank (c : Char) : Bool :=
  blankCodes.contains c.toNat

/-- The characters from the first one on that is no blank. -/
def skipBlanks (text : List Char) : List Char :=
  text.dropWhile isBlank

end Text

/-- What a conditional directive asks. -/
inductive Condition
  | test (text : String)
  | defined (name : String)
  | undefined (name : String)
  deriving DecidableEq, Repr

namespace Condition

/-- The condition that is written as the given text. -/
def ofText (text : String) : Condition :=
  test (String.ofList (Text.skipBlanks text.toList))

end Condition

/-- A conditional directive. -/
inductive Directive
  | opening (condition : Condition)
  /-- Begins a further branch that has a condition of its own. -/
  | alternative (condition : Condition)
  /-- Begins the branch for all other cases. -/
  | otherwise
  | closing
  deriving DecidableEq, Repr

namespace Directive

/-- The conditional directive with the given word and what it is about. -/
def ofWord? (word operand : String) : Option Directive :=
  match word with
  | "if" => some (opening (.test operand))
  | "ifdef" => some (opening (.defined operand))
  | "ifndef" => some (opening (.undefined operand))
  | "elif" => some (alternative (.test operand))
  | "else" => some otherwise
  | "endif" => some closing
  | _ => none

/-- What a directive says behind its number sign. -/
def body? (line : List Char) : Option (List Char) :=
  match Text.skipBlanks line with
  | '#' :: rest => some (Text.skipBlanks rest)
  | _ => none

/-- The conditional directive that the characters of a line make up. -/
def ofChars? (line : List Char) : Option Directive :=
  (body? line).bind fun body =>
    ofWord? (String.ofList (body.takeWhile Char.isAlpha))
      (String.ofList (Text.skipBlanks (body.dropWhile Char.isAlpha)))

/-- The conditional directive in a line. -/
def ofLine? (line : String) : Option Directive :=
  ofChars? line.toList

/-- The depth behind a directive at the given depth. -/
def depthAfter (depth : Nat) : Directive → Option Nat
  | opening _ => some (depth + 1)
  | alternative _ => if depth = 0 then none else some depth
  | otherwise => if depth = 0 then none else some depth
  | closing => if depth = 0 then none else some (depth - 1)

/-- The depth behind a line at the given depth, by the directive in the line, if
there is one. -/
def depthBehind (depth : Nat) : Option Directive → Option Nat
  | none => some depth
  | some directive => directive.depthAfter depth

end Directive

theorem Text.skipBlanks_append
    {text : List Char} (h : Text.skipBlanks text ≠ []) (rest : List Char) :
    Text.skipBlanks (text ++ rest) = Text.skipBlanks text ++ rest := by
  unfold Text.skipBlanks at h ⊢
  rw [List.dropWhile_append, if_neg (by simpa using h)]

namespace Directive

theorem ofLine?_if (condition : String) :
    ofLine? ("#if " ++ condition) = some (.opening (.ofText condition)) := by
  rw [ofLine?, String.toList_append]
  rfl

theorem ofLine?_spacedIf (condition : String) :
    ofLine? ("# if " ++ condition) = some (.opening (.ofText condition)) := by
  rw [ofLine?, String.toList_append]
  rfl

theorem ofLine?_ifndef (name : String) :
    ofLine? ("#ifndef " ++ name) =
      some (.opening (.undefined (String.ofList (Text.skipBlanks name.toList)))) := by
  rw [ofLine?, String.toList_append]
  rfl

theorem ofLine?_else : ofLine? "#else" = some .otherwise := by
  decide

theorem ofLine?_endif : ofLine? "#endif" = some .closing := by
  decide

theorem ofLine?_spacedElse : ofLine? "# else" = some .otherwise := by
  decide

theorem ofLine?_spacedEndif : ofLine? "# endif" = some .closing := by
  decide

/-- What stands behind a word does not make a conditional directive of it. -/
theorem ofWord?_eq_none
    {word operand : String} (h : ofWord? word operand = none) (other : String) :
    ofWord? word other = none := by
  unfold ofWord? at h ⊢
  split at h <;> simp_all

/-- Whether the start of a line settles that it is no directive with a word that is
allowed: it is no directive at all, or the word has come to its end and is another one. -/
def excludes (start : List Char) (allowed : String → Bool) : Bool :=
  match Text.skipBlanks start with
  | [] => false
  | '#' :: rest =>
      let body := Text.skipBlanks rest
      let word := body.takeWhile Char.isAlpha
      word.length != body.length && !allowed (String.ofList word)
  | _ :: _ => true

/-- What the start settles does not depend on how the line goes on. -/
theorem word_of_excludes
    {start : List Char} {allowed : String → Bool} (h : excludes start allowed = true)
    {rest body : List Char} (hbody : body? (start ++ rest) = some body) :
    allowed (String.ofList (body.takeWhile Char.isAlpha)) = false := by
  have hne : Text.skipBlanks start ≠ [] := by
    intro heq
    simp [excludes, heq] at h
  rw [body?, Text.skipBlanks_append hne] at hbody
  unfold excludes at h
  split at h
  · cases h
  · rename_i behind hstart
    simp only [Bool.and_eq_true, bne_iff_ne, ne_eq, Bool.not_eq_true'] at h
    obtain ⟨hlength, hword⟩ := h
    have hbehind : Text.skipBlanks behind ≠ [] := by
      intro heq
      simp [heq] at hlength
    rw [hstart, List.cons_append] at hbody
    cases hbody
    rw [Text.skipBlanks_append hbehind, List.takeWhile_append, if_neg hlength]
    exact hword
  · rename_i c others hc hstart
    rw [hstart, List.cons_append] at hbody
    split at hbody
    · rename_i heq
      cases heq
      exact (hc rfl).elim
    · cases hbody

/-- Whether a line is no conditional directive because of how it starts. -/
def isPlainStart (start : List Char) : Bool :=
  excludes start fun word => (ofWord? word "").isSome

theorem ofChars?_of_isPlainStart
    {start : List Char} (h : isPlainStart start = true) (rest : List Char) :
    ofChars? (start ++ rest) = none := by
  rw [ofChars?, Option.bind_eq_none_iff]
  intro body hbody
  exact ofWord?_eq_none (by simpa using word_of_excludes h hbody) _

theorem ofLine?_of_isPlainStart
    {start : List Char} (h : isPlainStart start = true) (rest : String) :
    ofLine? (String.ofList start ++ rest) = none := by
  rw [ofLine?, String.toList_append, String.toList_ofList]
  exact ofChars?_of_isPlainStart h rest.toList

end Directive

/-- The depth behind a line at the given depth. -/
def lineDepth (depth : Nat) (line : String) : Option Nat :=
  Directive.depthBehind depth (Directive.ofLine? line)

/-- The depth behind the given lines; there is none if a directive branches or
ends a conditional that has not begun. -/
def depthAfter (depth : Nat) (lines : List String) : Option Nat :=
  lines.foldlM lineDepth depth

/-- A text in which every conditional that begins ends, and no other one does. -/
def Balanced (text : String) : Prop :=
  depthAfter 0 (Text.lines text) = some 0

instance (text : String) : Decidable (Balanced text) :=
  inferInstanceAs (Decidable (depthAfter 0 (Text.lines text) = some 0))

section Depth

@[simp] theorem depthAfter_nil (depth : Nat) : depthAfter depth [] = some depth :=
  rfl

theorem depthAfter_cons (depth : Nat) (line : String) (rest : List String) :
    depthAfter depth (line :: rest) =
      (lineDepth depth line).bind fun next => depthAfter next rest := by
  rw [depthAfter, List.foldlM_cons]
  rfl

/-- The depth is counted part by part. -/
theorem depthAfter_append (depth : Nat) (first second : List String) :
    depthAfter depth (first ++ second) =
      (depthAfter depth first).bind fun next => depthAfter next second := by
  rw [depthAfter, List.foldlM_append]
  rfl

/-- A line that is no conditional directive leaves the depth alone. -/
theorem lineDepth_of_plain
    {line : String} (h : Directive.ofLine? line = none) (depth : Nat) :
    lineDepth depth line = some depth := by
  simp [lineDepth, h, Directive.depthBehind]

theorem lineDepth_add
    {depth next : Nat} {line : String} (h : lineDepth depth line = some next)
    (outer : Nat) :
    lineDepth (depth + outer) line = some (next + outer) := by
  unfold lineDepth at h ⊢
  cases hline : Directive.ofLine? line with
  | none =>
      rw [hline] at h
      cases h
      rfl
  | some directive =>
      rw [hline] at h
      simp only [Directive.depthBehind] at h ⊢
      cases directive with
      | opening condition =>
          cases h
          simp only [Directive.depthAfter, Option.some.injEq]
          omega
      | alternative condition =>
          simp only [Directive.depthAfter, Option.ite_none_left_eq_some,
            Option.some.injEq] at h ⊢
          omega
      | otherwise =>
          simp only [Directive.depthAfter, Option.ite_none_left_eq_some,
            Option.some.injEq] at h ⊢
          omega
      | closing =>
          simp only [Directive.depthAfter, Option.ite_none_left_eq_some,
            Option.some.injEq] at h ⊢
          omega

/-- Lines are counted alike from every depth. -/
theorem depthAfter_add
    {depth last : Nat} {lines : List String} (h : depthAfter depth lines = some last)
    (outer : Nat) :
    depthAfter (depth + outer) lines = some (last + outer) := by
  induction lines generalizing depth with
  | nil =>
      cases h
      rfl
  | cons line rest ih =>
      rw [depthAfter_cons, Option.bind_eq_some_iff] at h
      obtain ⟨next, hnext, hrest⟩ := h
      rw [depthAfter_cons, lineDepth_add hnext, Option.bind_some]
      exact ih hrest

/-- What can be counted to the end can be counted to every line before. -/
theorem exists_depthAfter_take
    {depth last : Nat} {lines : List String} (h : depthAfter depth lines = some last)
    (count : Nat) :
    ∃ next, depthAfter depth (lines.take count) = some next := by
  rw [← List.take_append_drop count lines, depthAfter_append,
    Option.bind_eq_some_iff] at h
  obtain ⟨next, hnext, _⟩ := h
  exact ⟨next, hnext⟩

theorem balanced_empty : Balanced "" :=
  rfl

/-- Balanced texts stay balanced one after the other. -/
theorem balanced_append
    {first second : String} (hterminated : Text.Terminated first)
    (hfirst : Balanced first) (hsecond : Balanced second) :
    Balanced (first ++ second) := by
  unfold Balanced at hfirst hsecond ⊢
  rw [Text.lines_append hterminated, depthAfter_append, hfirst, Option.bind_some,
    hsecond]

end Depth

/-- Ending the last line of a text, or adding an empty one, keeps it balanced. -/
theorem balanced_append_newline {text : String} (h : Balanced text) :
    Balanced (text ++ "\n") := by
  by_cases hterminated : Text.Terminated text
  · exact balanced_append hterminated h (by decide)
  · rw [Balanced, Text.lines_append_newline hterminated]
    exact h

/-- A text in which no line is a directive of any kind. -/
def DirectiveFree (text : String) : Prop :=
  ∀ line ∈ Text.lines text, Directive.body? line.toList = none

instance (text : String) : Decidable (DirectiveFree text) :=
  inferInstanceAs (Decidable (∀ line ∈ Text.lines text, Directive.body? line.toList = none))

namespace DirectiveFree

theorem empty : DirectiveFree "" :=
  fun _ hline => absurd hline List.not_mem_nil

theorem append
    {first second : String} (hfirst : DirectiveFree first)
    (hterminated : Text.Terminated first) (hsecond : DirectiveFree second) :
    DirectiveFree (first ++ second) := by
  intro line hline
  rw [Text.lines_append hterminated, List.mem_append] at hline
  rcases hline with hline | hline
  · exact hfirst line hline
  · exact hsecond line hline

theorem append_newline {text : String} (h : DirectiveFree text) :
    DirectiveFree (text ++ "\n") := by
  by_cases hterminated : Text.Terminated text
  · exact h.append hterminated (by decide)
  · intro line hline
    rw [Text.lines_append_newline hterminated] at hline
    exact h line hline

/-- Without directives there is no conditional. -/
theorem balanced {text : String} (h : DirectiveFree text) : Balanced text := by
  have hdepth : ∀ lines : List String, (∀ line ∈ lines, Directive.body? line.toList = none) →
      depthAfter 0 lines = some 0 := by
    intro lines hlines
    induction lines with
    | nil =>
        rfl
    | cons line rest ih =>
        have hplain : Directive.ofLine? line = none := by
          rw [Directive.ofLine?, Directive.ofChars?, hlines line (by simp), Option.bind_none]
        rw [depthAfter_cons, lineDepth_of_plain hplain, Option.bind_some]
        exact ih fun other hother => hlines other (by simp [hother])
  exact hdepth _ h

end DirectiveFree

/-- Lines without line feeds and conditional directives. -/
def PlainLines (content : List String) : Prop :=
  ∀ line ∈ content, '\n' ∉ line.toList ∧ Directive.ofLine? line = none

namespace PlainLines

variable {rest : List String}

theorem nil : PlainLines [] := by
  simp [PlainLines]

/-- The lines of a text without directives are plain. -/
theorem of_directiveFree {text : String} (h : DirectiveFree text) :
    PlainLines (Text.lines text) := by
  intro line hline
  refine ⟨Text.newline_notMem_of_mem_lines hline, ?_⟩
  rw [Directive.ofLine?, Directive.ofChars?, h line hline, Option.bind_none]

/-- A fixed line is checked by its characters. -/
theorem cons_ofList
    {line : List Char} (hnewline : '\n' ∉ line) (hplain : Directive.ofChars? line = none)
    (hrest : PlainLines rest) :
    PlainLines (String.ofList line :: rest) := by
  refine List.forall_mem_cons.2 ⟨⟨Text.notMem_ofList hnewline, ?_⟩, hrest⟩
  rw [Directive.ofLine?, String.toList_ofList, hplain]

end PlainLines

/-- Lines that lead from one depth to another one. -/
structure LeadsTo (depth last : Nat) (content : List String) : Prop where
  newline_notMem : ∀ line ∈ content, '\n' ∉ line.toList
  depth_eq : depthAfter depth content = some last

namespace LeadsTo

variable {depth next last : Nat} {rest : List String}

theorem nil : LeadsTo depth depth [] :=
  ⟨by simp, rfl⟩

theorem cons
    {line : String} (hnewline : '\n' ∉ line.toList)
    (hline : lineDepth depth line = some next) (hrest : LeadsTo next last rest) :
    LeadsTo depth last (line :: rest) := by
  refine ⟨?_, ?_⟩
  · rw [List.forall_mem_cons]
    exact ⟨hnewline, hrest.newline_notMem⟩
  · rw [depthAfter_cons, hline, Option.bind_some]
    exact hrest.depth_eq

/-- A fixed line is checked by its characters. -/
theorem cons_ofList
    {line : List Char} (hnewline : '\n' ∉ line)
    (hline : Directive.depthBehind depth (Directive.ofChars? line) = some next)
    (hrest : LeadsTo next last rest) :
    LeadsTo depth last (String.ofList line :: rest) := by
  refine cons (Text.notMem_ofList hnewline) ?_ hrest
  rw [lineDepth, Directive.ofLine?, String.toList_ofList, hline]

theorem append
    {first : List String} (hfirst : LeadsTo depth next first)
    (hrest : LeadsTo next last rest) :
    LeadsTo depth last (first ++ rest) := by
  refine ⟨?_, ?_⟩
  · rw [List.forall_mem_append]
    exact ⟨hfirst.newline_notMem, hrest.newline_notMem⟩
  · rw [depthAfter_append, hfirst.depth_eq, Option.bind_some]
    exact hrest.depth_eq

/-- Plain lines leave the depth alone. -/
theorem of_plain {content : List String} (h : PlainLines content) :
    LeadsTo depth depth content := by
  induction content with
  | nil =>
      exact nil
  | cons line others ih =>
      obtain ⟨hnewline, hplain⟩ := h line (by simp)
      exact cons hnewline (lineDepth_of_plain hplain depth)
        (ih fun other hother => h other (by simp [hother]))

theorem balanced_ofLines (h : LeadsTo 0 0 rest) : Balanced (Text.ofLines rest) := by
  rw [Balanced, Text.lines_ofLines h.newline_notMem, h.depth_eq]

end LeadsTo

end InteropHeader
