/-!
# Text made of lines

Input:
  a list of lines without their line ends, or a text and a separator character.

Algorithm:
  a block of fixed text is written as the list of its lines, each closed by a
  line feed; a text is cut at every occurrence of a separator.

Results:
  * `ofLines_append`: writing two lists of lines one after the other is writing
    their concatenation;
  * `join_pieces`: a text cut at a separator and joined again is the text;
  * `pieces_join`: parts without the separator, joined and cut again, are the
    parts.
-/

namespace InteropHeader
namespace Text

/-- The text of a list of lines, each followed by a line feed. -/
def ofLines : List String → String
  | [] => ""
  | line :: rest => line ++ "\n" ++ ofLines rest

theorem ofLines_append (first second : List String) :
    ofLines (first ++ second) = ofLines first ++ ofLines second := by
  induction first with
  | nil => simp [ofLines]
  | cons line rest ih => simp [ofLines, ih, String.append_assoc]

/-- Cuts a list of characters at every separator. -/
def cut (separator : Char) : List Char → List (List Char)
  | [] => [[]]
  | c :: rest =>
      if c = separator then
        [] :: cut separator rest
      else
        match cut separator rest with
        | [] => [[c]]
        | piece :: pieces => (c :: piece) :: pieces

/-- Puts a separator between neighbouring pieces. -/
def glue (separator : Char) : List (List Char) → List Char
  | [] => []
  | [piece] => piece
  | piece :: pieces => piece ++ separator :: glue separator pieces

theorem cut_ne_nil (separator : Char) (text : List Char) :
    cut separator text ≠ [] := by
  cases text with
  | nil => simp [cut]
  | cons c rest =>
      by_cases h : c = separator
      · simp [cut, h]
      · simp only [cut, h, if_false]
        split <;> simp

theorem glue_cut (separator : Char) (text : List Char) :
    glue separator (cut separator text) = text := by
  induction text with
  | nil => rfl
  | cons c rest ih =>
      by_cases h : c = separator
      · subst h
        cases hr : cut c rest with
        | nil => exact absurd hr (cut_ne_nil c rest)
        | cons piece pieces =>
            rw [hr] at ih
            simp [cut, hr, glue, ih]
      · cases hr : cut separator rest with
        | nil => exact absurd hr (cut_ne_nil separator rest)
        | cons piece pieces =>
            rw [hr] at ih
            cases pieces with
            | nil =>
                simp only [glue] at ih
                simp [cut, h, hr, glue, ih]
            | cons next others =>
                simp only [glue] at ih
                simp [cut, h, hr, glue, ih]

theorem cut_of_not_mem {separator : Char} {piece : List Char} (h : separator ∉ piece) :
    cut separator piece = [piece] := by
  induction piece with
  | nil => rfl
  | cons c rest ih =>
      rw [List.mem_cons, not_or] at h
      simp [cut, Ne.symm h.1, ih h.2]

theorem cut_append_separator {separator : Char} {piece : List Char}
    (h : separator ∉ piece) (rest : List Char) :
    cut separator (piece ++ separator :: rest) = piece :: cut separator rest := by
  induction piece with
  | nil => simp [cut]
  | cons c others ih =>
      rw [List.mem_cons, not_or] at h
      simp [cut, Ne.symm h.1, ih h.2]

theorem cut_glue {separator : Char} {pieces : List (List Char)} (hne : pieces ≠ [])
    (h : ∀ piece ∈ pieces, separator ∉ piece) :
    cut separator (glue separator pieces) = pieces := by
  induction pieces with
  | nil => exact absurd rfl hne
  | cons piece rest ih =>
      have hpiece := h piece (by simp)
      cases rest with
      | nil => exact cut_of_not_mem hpiece
      | cons next others =>
          have hrest := ih (by simp) fun p hp => h p (by simp [hp])
          rw [glue, cut_append_separator hpiece, hrest]
          simp

/-- The pieces of a text between the occurrences of a separator; a text without
the separator is its own only piece. -/
def pieces (separator : Char) (text : String) : List String :=
  (cut separator text.toList).map String.ofList

/-- The pieces in order with a separator between neighbours. -/
def join (separator : Char) (parts : List String) : String :=
  String.ofList (glue separator (parts.map String.toList))

theorem join_pieces (separator : Char) (text : String) :
    join separator (pieces separator text) = text := by
  simp [join, pieces, Function.comp_def, glue_cut]

theorem pieces_join {separator : Char} {parts : List String} (hne : parts ≠ [])
    (h : ∀ part ∈ parts, separator ∉ part.toList) :
    pieces separator (join separator parts) = parts := by
  have hcut : cut separator (glue separator (parts.map String.toList)) =
      parts.map String.toList :=
    cut_glue (by simpa using hne) (by simpa using h)
  simp [pieces, join, hcut, Function.comp_def]

end Text
end InteropHeader
