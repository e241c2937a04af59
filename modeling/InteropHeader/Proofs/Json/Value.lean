import Mathlib.Data.List.TakeWhile
import Mathlib.Tactic.SplitIfs
import InteropHeader.Json.Value

/-!
# JSON texts are unambiguous

Input:
  two values, printed in front of any two texts.

Algorithm:
  a character of a string is read back from behind its escape; the contents of a
  string end at the first quotation mark that is not escaped, a number ends where
  its digits end, and the first character of any other value tells its kind.

Results:
  * `readCharacter_escape`: an escaped character is read back;
  * `quote_append_inj`: a printed string ends where it is seen to end;
  * `bracketed_append_inj`: so does a list whose members do;
  * `delimits_pretty`: so does a printed value, unless a number goes on behind it;
  * `render_inj`: different values have different texts.
-/

namespace InteropHeader
namespace JsonValue

section Strings

/-- The number that a hexadecimal digit stands for. -/
def hexValue (c : Char) : Nat :=
  if c.isDigit then c.toNat - '0'.toNat else c.toNat - 'a'.toNat + 10

theorem hexValue_hexDigit {n : Nat} (h : n < 16) : hexValue (hexDigit n) = n := by
  have hall : ∀ n < 16, hexValue (hexDigit n) = n := by
    decide
  exact hall n h

/-- The character that stands behind a backslash, and what follows it. -/
def readEscape : List Char → Option (Char × List Char)
  | 'n' :: rest => some ('\n', rest)
  | 'r' :: rest => some ('\r', rest)
  | 't' :: rest => some ('\t', rest)
  | 'b' :: rest => some ('\x08', rest)
  | 'f' :: rest => some ('\x0c', rest)
  | 'u' :: _ :: _ :: high :: low :: rest =>
      some (Char.ofNat (16 * hexValue high + hexValue low), rest)
  | c :: rest => some (c, rest)
  | [] => none

/-- The first character of the contents of a string, and what follows it. -/
def readCharacter : List Char → Option (Char × List Char)
  | [] => none
  | c :: rest => if c = '\\' then readEscape rest else some (c, rest)

/-- An escaped character is read back. -/
theorem readCharacter_escape (c : Char) (rest : List Char) :
    readCharacter (escape c ++ rest) = some (c, rest) := by
  unfold escape
  split_ifs with hquote hbackslash hline hreturn htab hback hfeed hcontrol
  · subst hquote; rfl
  · subst hbackslash; rfl
  · subst hline; rfl
  · subst hreturn; rfl
  · subst htab; rfl
  · subst hback; rfl
  · subst hfeed; rfl
  · have hvalue : 16 * hexValue (hexDigit (c.toNat / 16)) +
        hexValue (hexDigit (c.toNat % 16)) = c.toNat := by
      rw [hexValue_hexDigit (by omega), hexValue_hexDigit (by omega)]
      omega
    have hread : readCharacter (['\\', 'u', '0', '0', hexDigit (c.toNat / 16),
        hexDigit (c.toNat % 16)] ++ rest) =
          some (Char.ofNat (16 * hexValue (hexDigit (c.toNat / 16)) +
            hexValue (hexDigit (c.toNat % 16))), rest) := by
      rfl
    rw [hread, hvalue, Char.ofNat_toNat]
  · exact if_neg hbackslash

theorem escape_append_inj
    {c d : Char} {rest others : List Char} (h : escape c ++ rest = escape d ++ others) :
    c = d ∧ rest = others := by
  have hread := readCharacter_escape c rest
  rw [h, readCharacter_escape] at hread
  cases hread
  exact ⟨rfl, rfl⟩

/-- No escaped character is taken for the end of the string. -/
theorem escape_append_ne_quote (c : Char) (rest others : List Char) :
    escape c ++ rest ≠ '"' :: others := by
  intro h
  have hread := readCharacter_escape c rest
  rw [h] at hread
  cases hread
  cases h

theorem escaped_append_inj
    {text other rest others : List Char}
    (h : text.flatMap escape ++ '"' :: rest = other.flatMap escape ++ '"' :: others) :
    text = other ∧ rest = others := by
  induction text generalizing other with
  | nil =>
      cases other with
      | nil =>
          exact ⟨rfl, (List.cons.inj h).2⟩
      | cons d other =>
          rw [List.flatMap_cons, List.append_assoc] at h
          exact absurd h.symm (escape_append_ne_quote d _ _)
  | cons c text ih =>
      rw [List.flatMap_cons, List.append_assoc] at h
      cases other with
      | nil =>
          exact absurd h (escape_append_ne_quote c _ _)
      | cons d other =>
          rw [List.flatMap_cons, List.append_assoc] at h
          obtain ⟨rfl, hrest⟩ := escape_append_inj h
          obtain ⟨rfl, hothers⟩ := ih hrest
          exact ⟨rfl, hothers⟩

theorem toList_quote (text : String) :
    (quote text).toList = '"' :: (text.toList.flatMap escape ++ ['"']) := by
  simp [quote]

/-- A printed string ends where it is seen to end. -/
theorem quote_append_inj
    {text other : String} {rest others : List Char}
    (h : (quote text).toList ++ rest = (quote other).toList ++ others) :
    text = other ∧ rest = others := by
  rw [toList_quote, toList_quote] at h
  have hcontents : text.toList.flatMap escape ++ '"' :: rest =
      other.toList.flatMap escape ++ '"' :: others := by
    simpa using h
  obtain ⟨htext, hrest⟩ := escaped_append_inj hcontents
  exact ⟨String.toList_inj.1 htext, hrest⟩

end Strings

section Numbers

/-- Whether a character stands in the text of a number. -/
def isNumeral (c : Char) : Bool :=
  c.isDigit || c = '-'

/-- A text that does not begin with a character of a number. -/
def EndsNumber (text : List Char) : Prop :=
  ∀ c ∈ text.head?, isNumeral c = false

theorem isDigit_of_mem_repr {n : Nat} {c : Char} (h : c ∈ n.repr.toList) :
    c.isDigit = true := by
  rw [Nat.repr_eq_ofList_toDigits, String.toList_ofList] at h
  exact Nat.isDigit_of_mem_toDigits (by decide) (by decide) h

/-- The text of a number: digits, and a sign in front of them if it is negative. -/
theorem toList_toString (n : Int) :
    (toString n).toList =
      if 0 ≤ n then n.toNat.repr.toList else '-' :: (-n).toNat.repr.toList := by
  rw [show toString n = n.repr from rfl, Int.repr_eq_if]
  split <;> simp

theorem toList_toString_ne_nil (n : Int) : (toString n).toList ≠ [] := by
  rw [toList_toString]
  split <;> simp [Nat.repr_eq_ofList_toDigits, Nat.toDigits_ne_nil]

theorem isNumeral_of_mem_toString {n : Int} {c : Char} (h : c ∈ (toString n).toList) :
    isNumeral c = true := by
  rw [toList_toString] at h
  split at h
  · simp [isNumeral, isDigit_of_mem_repr h]
  · rcases List.mem_cons.1 h with rfl | hdigit
    · decide
    · simp [isNumeral, isDigit_of_mem_repr hdigit]

/-- The number that a text stands for. -/
def numberOf : List Char → Int
  | '-' :: digits => -Nat.ofDigitChars 10 digits 0
  | digits => Nat.ofDigitChars 10 digits 0

theorem ofDigitChars_repr (n : Nat) : Nat.ofDigitChars 10 n.repr.toList 0 = n := by
  rw [Nat.repr_eq_ofList_toDigits, String.toList_ofList, Nat.ofDigitChars_ten_toDigits]

theorem numberOf_toString (n : Int) : numberOf (toString n).toList = n := by
  rw [toList_toString]
  split
  · have hsign : ∀ digits, n.toNat.repr.toList ≠ '-' :: digits := by
      intro digits h
      have hdigit : '-'.isDigit = true :=
        isDigit_of_mem_repr (h ▸ List.mem_cons_self)
      exact absurd hdigit (by decide)
    rw [numberOf, ofDigitChars_repr]
    · omega
    · exact hsign
  · rw [numberOf, ofDigitChars_repr]
    omega

/-- Two texts made of one kind of characters end where that kind ends. -/
theorem append_inj_of_all
    {p : Char → Bool} {first second rest others : List Char}
    (hfirst : ∀ c ∈ first, p c = true) (hsecond : ∀ c ∈ second, p c = true)
    (hrest : ∀ c ∈ rest.head?, p c = false) (hothers : ∀ c ∈ others.head?, p c = false)
    (h : first ++ rest = second ++ others) :
    first = second ∧ rest = others := by
  have htake : ∀ {text tail : List Char}, (∀ c ∈ text, p c = true) →
      (∀ c ∈ tail.head?, p c = false) → (text ++ tail).takeWhile p = text := by
    intro text tail htext htail
    rw [List.takeWhile_append_of_pos htext]
    cases tail with
    | nil => simp
    | cons c tail => simp [htail c rfl]
  have heq : first = second := by
    rw [← htake hfirst hrest, h, htake hsecond hothers]
  subst heq
  exact ⟨rfl, List.append_cancel_left h⟩

theorem toString_append_inj
    {n m : Int} {rest others : List Char} (hrest : EndsNumber rest)
    (hothers : EndsNumber others)
    (h : (toString n).toList ++ rest = (toString m).toList ++ others) :
    n = m ∧ rest = others := by
  obtain ⟨htext, htail⟩ := append_inj_of_all (fun _ => isNumeral_of_mem_toString)
    (fun _ => isNumeral_of_mem_toString) hrest hothers h
  refine ⟨?_, htail⟩
  rw [← numberOf_toString n, htext, numberOf_toString]

end Numbers

section Lists

variable {α : Type}

/-- What is printed of `a` ends where it is seen to end, if no number goes on behind it. -/
def Delimits (print : α → List Char) (a : α) : Prop :=
  ∀ b : α, ∀ {rest others : List Char}, EndsNumber rest → EndsNumber others →
    print a ++ rest = print b ++ others → a = b ∧ rest = others

/-- The members of a list, each on a line of its own, with commas between them. -/
def onLines (level : Nat) (print : α → List Char) : List α → List Char
  | [] => []
  | a :: more =>
      (newLine level).toList ++ (print a ++
        ((if more.isEmpty then [] else [',']) ++ onLines level print more))

theorem toList_newLine (level : Nat) :
    (newLine level).toList = '\n' :: List.replicate (2 * level) ' ' := by
  simp [newLine]

theorem toList_prettyItems (level : Nat) (items : List JsonValue) :
    (prettyItems level items).toList =
      onLines level (fun item => (pretty level item).toList) items := by
  induction items with
  | nil =>
      rfl
  | cons item more ih =>
      simp only [prettyItems, onLines, String.toList_append, List.append_assoc, ih]
      cases more <;> simp

/-- A field of an object as it is printed. -/
def prettyField (level : Nat) (field : String × JsonValue) : List Char :=
  (quote field.1).toList ++ (':' :: ' ' :: (pretty level field.2).toList)

theorem toList_prettyFields (level : Nat) (fields : List (String × JsonValue)) :
    (prettyFields level fields).toList = onLines level (prettyField level) fields := by
  induction fields with
  | nil =>
      rfl
  | cons field more ih =>
      simp only [prettyFields, onLines, prettyField, String.toList_append, List.append_assoc,
        List.cons_append, ih]
      cases more <;> simp

/-- Behind a member of a list stands a comma or the end of a line. -/
theorem endsNumber_onLines
    (level : Nat) (print : α → List Char) (more : List α) (rest : List Char) :
    EndsNumber ((if more.isEmpty then [] else [',']) ++
      (onLines level print more ++ '\n' :: rest)) := by
  cases more <;> simp [EndsNumber, onLines] <;> decide

/-- A list ends where it is seen to end if each of its members does. -/
theorem onLines_append_inj
    {level : Nat} {print : α → List Char} {members others : List α}
    (hmembers : ∀ a ∈ members, Delimits print a) (hempty : members = [] ↔ others = [])
    {rest tail : List Char}
    (h : onLines level print members ++ '\n' :: rest =
      onLines level print others ++ '\n' :: tail) :
    members = others ∧ rest = tail := by
  induction members generalizing others with
  | nil =>
      cases hempty.1 rfl
      exact ⟨rfl, (List.cons.inj h).2⟩
  | cons a more ih =>
      cases others with
      | nil =>
          cases hempty.2 rfl
      | cons b others =>
          simp only [onLines, List.append_assoc] at h
          obtain ⟨rfl, hrest⟩ := hmembers a (by simp) b
            (endsNumber_onLines level print more rest)
            (endsNumber_onLines level print others tail) (List.append_cancel_left h)
          -- a comma goes on with the list, the end of a line does not
          cases more with
          | nil =>
              cases others with
              | nil =>
                  exact ⟨rfl, by simpa [onLines] using hrest⟩
              | cons c others =>
                  simp [onLines] at hrest
          | cons c more =>
              cases others with
              | nil =>
                  simp [onLines] at hrest
              | cons d others =>
                  obtain ⟨hmore, htail⟩ := @ih (d :: others)
                    (fun a ha => hmembers a (by simp [ha])) (by simp) (by simpa using hrest)
                  exact ⟨by rw [hmore], htail⟩

/-- A list between brackets, which stand on one line if it is empty. -/
def bracketed (level : Nat) (opening closing : Char) (print : α → List Char)
    (members : List α) : List Char :=
  if members.isEmpty then [opening, closing]
  else opening :: (onLines (level + 1) print members ++ ((newLine level).toList ++ [closing]))

theorem bracketed_append_inj
    {level : Nat} {opening closing : Char} (hclosing : closing ≠ '\n')
    {print : α → List Char} {members others : List α}
    (hmembers : ∀ a ∈ members, Delimits print a) {rest tail : List Char}
    (h : bracketed level opening closing print members ++ rest =
      bracketed level opening closing print others ++ tail) :
    members = others ∧ rest = tail := by
  have hlines : ∀ (a : α) (more text : List Char) (list : List α),
      closing :: more ≠ onLines (level + 1) print (a :: list) ++ text := by
    intro a more text list heq
    rw [onLines, toList_newLine] at heq
    exact hclosing (List.cons.inj heq).1
  cases members with
  | nil =>
      cases others with
      | nil =>
          exact ⟨rfl, List.append_cancel_left h⟩
      | cons b others =>
          simp only [bracketed, List.isEmpty_nil, List.isEmpty_cons, if_true,
            Bool.false_eq_true, if_false, List.cons_append, List.append_assoc] at h
          exact absurd (List.cons.inj h).2 (hlines b _ _ _)
  | cons a members =>
      cases others with
      | nil =>
          simp only [bracketed, List.isEmpty_nil, List.isEmpty_cons, if_true,
            Bool.false_eq_true, if_false, List.cons_append, List.append_assoc] at h
          exact absurd (List.cons.inj h).2.symm (hlines a _ _ _)
      | cons b others =>
          simp only [bracketed, List.isEmpty_cons, Bool.false_eq_true, if_false,
            List.cons_append, List.append_assoc, toList_newLine] at h
          obtain ⟨hall, htail⟩ := onLines_append_inj hmembers (by simp) (List.cons.inj h).2
          exact ⟨hall, by simpa using htail⟩

end Lists

section Values

/-- What the first character of a text tells about the value that it begins. -/
def kindOf (c : Char) : Nat :=
  if c = 'n' then 0
  else if c = 't' ∨ c = 'f' then 1
  else if c = '"' then 3
  else if c = '[' then 4
  else if c = '\x7b' then 5
  else 2

theorem kindOf_of_isNumeral {c : Char} (h : isNumeral c = true) : kindOf c = 2 := by
  have hne : ∀ d : Char, isNumeral d = false → c ≠ d := by
    rintro d hd rfl
    rw [h] at hd
    cases hd
  simp [kindOf, hne 'n' (by decide), hne 't' (by decide), hne 'f' (by decide),
    hne '"' (by decide), hne '[' (by decide), hne '\x7b' (by decide)]

theorem toList_pretty_array (level : Nat) (items : List JsonValue) :
    (pretty level (array items)).toList =
      bracketed level '[' ']' (fun item => (pretty (level + 1) item).toList) items := by
  cases items <;> simp [pretty, bracketed, toList_prettyItems]

theorem toList_pretty_object (level : Nat) (fields : List (String × JsonValue)) :
    (pretty level (object fields)).toList =
      bracketed level '\x7b' '\x7d' (prettyField (level + 1)) fields := by
  cases fields <;> simp [pretty, bracketed, toList_prettyFields]

theorem exists_eq_bracketed
    {α : Type} (level : Nat) (opening closing : Char) (print : α → List Char)
    (members : List α) :
    ∃ rest, bracketed level opening closing print members = opening :: rest := by
  cases members <;> exact ⟨_, rfl⟩

/-- The first character of a printed value tells its kind. -/
theorem exists_head_pretty (level : Nat) (value : JsonValue) :
    ∃ c rest, (pretty level value).toList = c :: rest ∧ kindOf c = value.ctorIdx := by
  cases value with
  | null =>
      exact ⟨'n', ['u', 'l', 'l'], by simp [pretty], rfl⟩
  | bool value =>
      cases value
      · exact ⟨'f', ['a', 'l', 's', 'e'], by simp [pretty], rfl⟩
      · exact ⟨'t', ['r', 'u', 'e'], by simp [pretty], rfl⟩
  | number n =>
      obtain ⟨c, rest, htext⟩ := List.exists_cons_of_ne_nil (toList_toString_ne_nil n)
      have hnumeral : isNumeral c = true :=
        isNumeral_of_mem_toString (by rw [htext]; exact List.mem_cons_self)
      exact ⟨c, rest, htext, kindOf_of_isNumeral hnumeral⟩
  | string text =>
      exact ⟨'"', _, toList_quote text, rfl⟩
  | array items =>
      obtain ⟨rest, h⟩ := exists_eq_bracketed level '[' ']' _ items
      exact ⟨'[', rest, (toList_pretty_array level items).trans h, rfl⟩
  | object fields =>
      obtain ⟨rest, h⟩ := exists_eq_bracketed level '\x7b' '\x7d' _ fields
      exact ⟨'\x7b', rest, (toList_pretty_object level fields).trans h, rfl⟩

/-- Values that are printed alike are of one kind. -/
theorem ctorIdx_eq_of_pretty_append
    {level : Nat} {value other : JsonValue} {rest others : List Char}
    (h : (pretty level value).toList ++ rest = (pretty level other).toList ++ others) :
    value.ctorIdx = other.ctorIdx := by
  obtain ⟨c, text, htext, hc⟩ := exists_head_pretty level value
  obtain ⟨d, otherText, hother, hd⟩ := exists_head_pretty level other
  rw [htext, hother] at h
  rw [← hc, ← hd, (List.cons.inj h).1]

theorem delimits_prettyField
    {level : Nat} {key : String} {value : JsonValue}
    (h : Delimits (fun value => (pretty level value).toList) value) :
    Delimits (prettyField level) (key, value) := by
  rintro ⟨otherKey, other⟩ rest others hrest hothers heq
  simp only [prettyField, List.append_assoc] at heq
  obtain ⟨rfl, heq⟩ := quote_append_inj heq
  obtain ⟨rfl, htail⟩ := h other hrest hothers (by simpa using heq)
  exact ⟨rfl, htail⟩

section Constructors

variable {level : Nat}

theorem delimits_null : Delimits (fun value => (pretty level value).toList) null := by
  intro other rest others _ _ h
  have hkind := ctorIdx_eq_of_pretty_append h
  cases other with
  | null => exact ⟨rfl, List.append_cancel_left h⟩
  | _ => cases hkind

theorem delimits_bool (value : Bool) :
    Delimits (fun value => (pretty level value).toList) (bool value) := by
  intro other rest others _ _ h
  have hkind := ctorIdx_eq_of_pretty_append h
  cases other with
  | bool second => cases value <;> cases second <;> simp_all [pretty]
  | _ => cases hkind

theorem delimits_number (n : Int) :
    Delimits (fun value => (pretty level value).toList) (number n) := by
  intro other rest others hrest hothers h
  have hkind := ctorIdx_eq_of_pretty_append h
  cases other with
  | number m =>
      obtain ⟨rfl, htail⟩ := toString_append_inj hrest hothers h
      exact ⟨rfl, htail⟩
  | _ => cases hkind

theorem delimits_string (text : String) :
    Delimits (fun value => (pretty level value).toList) (string text) := by
  intro other rest others _ _ h
  have hkind := ctorIdx_eq_of_pretty_append h
  cases other with
  | string second =>
      obtain ⟨rfl, htail⟩ := quote_append_inj h
      exact ⟨rfl, htail⟩
  | _ => cases hkind

theorem delimits_array
    {items : List JsonValue}
    (hitems : ∀ item ∈ items, Delimits (fun item => (pretty (level + 1) item).toList) item) :
    Delimits (fun value => (pretty level value).toList) (array items) := by
  intro other rest others _ _ h
  have hkind := ctorIdx_eq_of_pretty_append h
  cases other with
  | array second =>
      dsimp only at h
      rw [toList_pretty_array, toList_pretty_array] at h
      obtain ⟨rfl, htail⟩ := bracketed_append_inj (by decide) hitems h
      exact ⟨rfl, htail⟩
  | _ => cases hkind

theorem delimits_object
    {fields : List (String × JsonValue)}
    (hfields : ∀ field ∈ fields,
      Delimits (fun value => (pretty (level + 1) value).toList) field.2) :
    Delimits (fun value => (pretty level value).toList) (object fields) := by
  intro other rest others _ _ h
  have hkind := ctorIdx_eq_of_pretty_append h
  cases other with
  | object second =>
      dsimp only at h
      rw [toList_pretty_object, toList_pretty_object] at h
      obtain ⟨rfl, htail⟩ := bracketed_append_inj (by decide)
        (fun field hfield => delimits_prettyField (hfields field hfield)) h
      exact ⟨rfl, htail⟩
  | _ => cases hkind

end Constructors

/-- A printed value ends where it is seen to end, unless a number goes on behind it. -/
theorem delimits_pretty (level : Nat) : ∀ value : JsonValue,
    Delimits (fun value => (pretty level value).toList) value
  | null => delimits_null
  | bool value => delimits_bool value
  | number n => delimits_number n
  | string text => delimits_string text
  | array items => delimits_array fun item _ => delimits_pretty (level + 1) item
  | object fields => delimits_object fun field _ => delimits_pretty (level + 1) field.2
termination_by value => sizeOf value
decreasing_by
  · rename_i hitem
    have := List.sizeOf_lt_of_mem hitem
    simp only [array.sizeOf_spec]
    omega
  · rename_i hfield
    have := List.sizeOf_lt_of_mem hfield
    have : sizeOf field.2 < sizeOf field := by
      cases field
      simp only [Prod.mk.sizeOf_spec]
      omega
    simp only [object.sizeOf_spec]
    omega

/-- Different values have different texts. -/
theorem render_inj {value other : JsonValue} : value.render = other.render ↔ value = other := by
  refine ⟨fun h => ?_, fun h => h ▸ rfl⟩
  have hends : EndsNumber [] := by
    simp [EndsNumber]
  exact (delimits_pretty 0 value other hends hends (congrArg (·.toList ++ []) h)).1


end Values

end JsonValue
end InteropHeader
