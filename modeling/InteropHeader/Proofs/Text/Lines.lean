import InteropHeader.Text.Lines

/-!
# Reading a text line by line

Input:
  a text.

Algorithm:
  a line ends at a line feed or at the end of the text; behind the last line
  feed no further line begins.

Results:
  * `lines_append`: behind a text that ends a line, reading starts afresh;
  * `lines_ofLines`: written lines are read again;
  * `newline_notMem_of_mem_lines`: no line holds a line feed;
  * `two_le_length_pieces`: a separator cuts a text into two pieces at least;
  * `notMem_of_mem_pieces`: no piece holds the separator.
-/

namespace InteropHeader
namespace Text

/-- The lines of a list of characters, without their line ends. -/
def readLines : List Char → List (List Char)
  | [] => []
  | c :: rest =>
      if c = '\n' then
        [] :: readLines rest
      else
        match readLines rest with
        | [] => [[c]]
        | line :: others => (c :: line) :: others

/-- The lines of a text, without their line ends. -/
def lines (text : String) : List String :=
  (readLines text.toList).map String.ofList

/-- A text that is empty or ends in a line feed. -/
def Terminated (text : String) : Prop :=
  ∀ c ∈ text.toList.getLast?, c = '\n'

instance (text : String) : Decidable (Terminated text) :=
  decidable_of_iff (text.toList.getLast?.all (· == '\n') = true) (by
    cases h : text.toList.getLast? <;> simp [Terminated, h])

/-- Whether a character occurs in a text can be told from the list the text is made
of. -/
theorem notMem_ofList {c : Char} {text : List Char} (h : c ∉ text) :
    c ∉ (String.ofList text).toList := by
  rwa [String.toList_ofList]

/-- What all characters of a fixed text are like is told from the list it is made of. -/
theorem forall_mem_ofList {p : Char → Bool} {text : List Char} (h : text.all p = true) :
    ∀ c ∈ (String.ofList text).toList, p c = true := by
  rw [String.toList_ofList]
  exact List.all_eq_true.1 h

theorem readLines_ne_nil {text : List Char} (h : text ≠ []) :
    readLines text ≠ [] := by
  cases text with
  | nil =>
      exact absurd rfl h
  | cons c rest =>
      by_cases hc : c = '\n'
      · simp [readLines, hc]
      · simp only [readLines, hc, if_false]
        split <;> simp

theorem readLines_append
    {first : List Char} (h : ∀ c ∈ first.getLast?, c = '\n') (second : List Char) :
    readLines (first ++ second) = readLines first ++ readLines second := by
  induction first with
  | nil =>
      rfl
  | cons c rest ih =>
      by_cases hc : c = '\n'
      · have hrest : ∀ d ∈ rest.getLast?, d = '\n' := by
          intro d hd
          cases rest with
          | nil => simp at hd
          | cons e others => exact h d (by simpa using hd)
        simp [readLines, hc, ih hrest]
      · -- the line that `c` begins goes on, for the text ends in a line feed
        cases rest with
        | nil =>
            exact absurd (h c rfl) hc
        | cons d others =>
            have hrest : ∀ e ∈ (d :: others).getLast?, e = '\n' := by
              intro e he
              exact h e (by simpa using he)
            cases hlines : readLines (d :: others) with
            | nil => exact absurd hlines (readLines_ne_nil (by simp))
            | cons line more =>
                rw [List.cons_append, readLines, if_neg hc, ih hrest, hlines,
                  readLines, if_neg hc, hlines]
                rfl

/-- A line with its line feed is read as that line. -/
theorem readLines_line
    {line : List Char} (h : '\n' ∉ line) :
    readLines (line ++ ['\n']) = [line] := by
  induction line with
  | nil =>
      rfl
  | cons c rest ih =>
      rw [List.mem_cons, not_or] at h
      rw [List.cons_append, readLines, if_neg (Ne.symm h.1), ih h.2]

/-- A line feed behind a line that has none only ends that line. -/
theorem readLines_append_newline
    {text : List Char} (h : ¬ ∀ c ∈ text.getLast?, c = '\n') :
    readLines (text ++ ['\n']) = readLines text := by
  induction text with
  | nil =>
      simp at h
  | cons c rest ih =>
      cases rest with
      | nil =>
          have hc : c ≠ '\n' := by
            simpa using h
          simp [readLines, hc]
      | cons d others =>
          have hrest : readLines ((d :: others) ++ ['\n']) = readLines (d :: others) :=
            ih (by simpa using h)
          have hcons : ∀ {first second : List Char},
              readLines first = readLines second →
              readLines (c :: first) = readLines (c :: second) := by
            intro first second heq
            rw [readLines, heq, readLines]
          exact hcons hrest

/-- Behind a text that ends a line, reading starts afresh. -/
theorem lines_append
    {first : String} (h : Terminated first) (second : String) :
    lines (first ++ second) = lines first ++ lines second := by
  simp [lines, readLines_append h]

theorem lines_append_newline {text : String} (h : ¬ Terminated text) :
    lines (text ++ "\n") = lines text := by
  have hread : readLines (text.toList ++ ['\n']) = readLines text.toList :=
    readLines_append_newline h
  simp [lines, hread]

theorem lines_line
    {line : String} (h : '\n' ∉ line.toList) :
    lines (line ++ "\n") = [line] := by
  have hread : readLines (line.toList ++ ['\n']) = [line.toList] :=
    readLines_line h
  simp [lines, hread]

theorem terminated_empty : Terminated "" := by
  simp [Terminated]

theorem terminated_newline (text : String) : Terminated (text ++ "\n") := by
  simp [Terminated]

theorem terminated_iff_of_ne_empty {text : String} (hne : text ≠ "") :
    Terminated text
      ↔
    text.toList.getLast? = some '\n' := by
  have hlist : text.toList ≠ [] := by
    simpa using hne
  rw [Terminated, List.getLast?_eq_some_getLast hlist]
  simp

theorem Terminated.append
    {first second : String} (hfirst : Terminated first) (hsecond : Terminated second) :
    Terminated (first ++ second) := by
  intro c hc
  rw [String.toList_append, List.getLast?_append, Option.mem_def,
    Option.or_eq_some_iff] at hc
  rcases hc with hc | ⟨_, hc⟩
  · exact hsecond c hc
  · exact hfirst c hc

/-- Only the end of a text matters. -/
theorem terminated_append_of_ne_empty
    {second : String} (h : Terminated second) (hne : second ≠ "") (first : String) :
    Terminated (first ++ second) := by
  intro c hc
  have hlist : second.toList ≠ [] := by
    simpa using hne
  rw [String.toList_append, List.getLast?_append, List.getLast?_eq_some_getLast hlist,
    Option.some_or, ← List.getLast?_eq_some_getLast] at hc
  exact h c hc

theorem terminated_ofLines (content : List String) : Terminated (ofLines content) := by
  induction content with
  | nil =>
      exact terminated_empty
  | cons line rest ih =>
      exact (terminated_newline line).append ih

/-- Written lines are read again. -/
theorem lines_ofLines
    {content : List String} (h : ∀ line ∈ content, '\n' ∉ line.toList) :
    lines (ofLines content) = content := by
  induction content with
  | nil =>
      rfl
  | cons line rest ih =>
      rw [ofLines, lines_append (terminated_newline line),
        lines_line (h line (by simp)), ih fun other hother => h other (by simp [hother])]
      rfl

/-- No line holds a line feed. -/
theorem newline_notMem_of_mem_lines {text line : String} (h : line ∈ lines text) :
    '\n' ∉ line.toList := by
  have hread : ∀ characters : List Char, ∀ line ∈ readLines characters, '\n' ∉ line := by
    intro characters
    induction characters with
    | nil =>
        simp [readLines]
    | cons c rest ih =>
        by_cases hc : c = '\n'
        · simpa [readLines, hc] using ih
        · cases hrest : readLines rest with
          | nil => simp [readLines, hc, hrest, Ne.symm hc]
          | cons first others =>
              rw [hrest] at ih
              simpa [readLines, hc, hrest, Ne.symm hc] using ih
  obtain ⟨characters, hcharacters, rfl⟩ := List.mem_map.1 h
  exact notMem_ofList (hread _ characters hcharacters)

/-- A separator cuts a text into two pieces at least. -/
theorem two_le_length_pieces
    {separator : Char} {text : String} (h : separator ∈ text.toList) :
    2 ≤ (pieces separator text).length := by
  have hcut : ∀ characters : List Char, separator ∈ characters →
      2 ≤ (cut separator characters).length := by
    intro characters hmem
    induction characters with
    | nil =>
        cases hmem
    | cons c rest ih =>
        by_cases hc : c = separator
        · have := List.length_pos_iff.2 (cut_ne_nil separator rest)
          simp only [cut, hc, if_true, List.length_cons]
          omega
        · have hrest : separator ∈ rest := by
            rcases List.mem_cons.1 hmem with rfl | hrest
            · exact absurd rfl hc
            · exact hrest
          have := ih hrest
          simp only [cut, hc, if_false]
          cases hcut : cut separator rest with
          | nil => simp [hcut] at this
          | cons piece others => simpa [hcut] using this
  rw [pieces, List.length_map]
  exact hcut _ h

/-- No piece holds the separator. -/
theorem notMem_of_mem_pieces
    {separator : Char} {text piece : String} (h : piece ∈ pieces separator text) :
    separator ∉ piece.toList := by
  have hcut : ∀ characters : List Char, ∀ piece ∈ cut separator characters,
      separator ∉ piece := by
    intro characters
    induction characters with
    | nil =>
        simp [cut]
    | cons c rest ih =>
        by_cases hc : c = separator
        · simpa [cut, hc] using ih
        · cases hrest : cut separator rest with
          | nil => exact absurd hrest (cut_ne_nil separator rest)
          | cons first others =>
              rw [hrest] at ih
              simpa [cut, hc, hrest, Ne.symm hc] using ih
  obtain ⟨characters, hcharacters, rfl⟩ := List.mem_map.1 h
  exact notMem_ofList (hcut _ characters hcharacters)

end Text
end InteropHeader
