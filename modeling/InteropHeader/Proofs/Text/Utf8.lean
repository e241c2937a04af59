/-!
# Texts in the order of their bytes

Input:
  two texts.

Algorithm:
  a character takes one to four bytes.  A character that takes more of them begins with a
  greater byte, and among those that take as many the bytes are digits of the code points,
  the first one with an offset.  So the bytes of two texts differ first where the
  characters do, and in the same direction.

Results:
  * `compare_utf8`: texts compare as their bytes do;
  * `compare_map_utf8`: so do lists of texts.
-/

namespace InteropHeader
namespace Text

/-- The bytes of a text. -/
def utf8 (text : String) : List UInt8 :=
  text.toUTF8.data.toList

theorem utf8_eq_flatMap (text : String) :
    utf8 text = text.toList.flatMap String.utf8EncodeChar := by
  have hbytes : text.toByteArray = (text.toList.flatMap String.utf8EncodeChar).toByteArray := by
    conv => lhs; rw [← String.ofList_toList (s := text)]
    exact String.toByteArray_ofList
  rw [utf8, String.toUTF8_eq_toByteArray, hbytes, List.data_toByteArray]

theorem compare_ofNat {m n : Nat} (hm : m < 256) (hn : n < 256) :
    compare (UInt8.ofNat m) (UInt8.ofNat n) = compare m n := by
  have htoNat : ∀ k : Nat, k < 256 → (UInt8.ofNat k).toNat = k := by
    intro k hk
    simpa using hk
  rcases Nat.lt_trichotomy m n with h | rfl | h
  · rw [Nat.compare_eq_lt.2 h, Std.compare_eq_lt, UInt8.lt_iff_toNat_lt, htoNat m hm,
      htoNat n hn]
    exact h
  · rw [Std.ReflOrd.compare_self, Std.ReflOrd.compare_self]
  · rw [Nat.compare_eq_gt.2 h, Std.compare_eq_gt, UInt8.lt_iff_toNat_lt, htoNat m hm,
      htoNat n hn]
    exact h

/-- A smaller character has smaller bytes, whatever follows. -/
theorem compare_utf8EncodeChar_append
    {c d : Char} (h : c < d) (rest others : List UInt8) :
    compare (String.utf8EncodeChar c ++ rest) (String.utf8EncodeChar d ++ others) = .lt := by
  have hlt : c.val.toNat < d.val.toNat := h
  have hmax : d.val.toNat < 0x110000 := by
    have hvalid := d.valid
    unfold UInt32.isValidChar Nat.isValidChar at hvalid
    omega
  have hdigits : ∀ n : Nat, n / 4096 = n / 64 / 64 ∧ n / 262144 = n / 64 / 64 / 64 := by
    omega
  unfold String.utf8EncodeChar
  generalize c.val.toNat = v at *
  generalize d.val.toNat = w at *
  dsimp only
  -- one case for each pair of numbers of bytes
  repeat' split
  all_goals
    simp (disch := omega) only [List.cons_append, List.nil_append, List.compare_cons_cons,
      Ordering.then_eq_lt, compare_ofNat, Nat.compare_eq_lt, Nat.compare_eq_eq, hdigits]
    omega

theorem compare_append_left
    {α : Type} [Ord α] [Std.ReflOrd α] (common first second : List α) :
    compare (common ++ first) (common ++ second) = compare first second := by
  induction common with
  | nil =>
      rfl
  | cons a rest ih =>
      rw [List.cons_append, List.cons_append, List.compare_cons_cons,
        Std.ReflOrd.compare_self, ih]
      rfl

theorem compare_flatMap_of_lt {first second : List Char} (h : first < second) :
    compare (first.flatMap String.utf8EncodeChar) (second.flatMap String.utf8EncodeChar) =
      .lt := by
  induction first generalizing second with
  | nil =>
      cases second with
      | nil =>
          exact absurd h (List.lt_irrefl [])
      | cons d ds =>
          rw [List.flatMap_nil, List.flatMap_cons]
          cases hbytes : String.utf8EncodeChar d with
          | nil => exact absurd hbytes String.utf8EncodeChar_ne_nil
          | cons byte bytes => exact List.compare_nil_cons
  | cons c cs ih =>
      cases second with
      | nil =>
          exact absurd h (List.not_lt_nil _)
      | cons d ds =>
          rw [List.flatMap_cons, List.flatMap_cons]
          rcases List.cons_lt_cons_iff.1 h with hlt | ⟨rfl, hrest⟩
          · exact compare_utf8EncodeChar_append hlt _ _
          · rw [compare_append_left, ih hrest]

/-- Texts compare as their bytes do. -/
theorem compare_utf8 (first second : String) :
    compare (utf8 first) (utf8 second) = compare first second := by
  have hsmaller : ∀ a b : String, compare a b = .lt → compare (utf8 a) (utf8 b) = .lt := by
    intro a b h
    have hlt : a < b := compareOfLessAndEq_eq_lt.1 h
    rw [utf8_eq_flatMap, utf8_eq_flatMap]
    exact compare_flatMap_of_lt hlt
  cases horder : compare first second with
  | lt =>
      exact hsmaller _ _ horder
  | eq =>
      rw [Std.LawfulEqOrd.eq_of_compare horder, Std.ReflOrd.compare_self]
  | gt =>
      rw [Std.OrientedOrd.eq_swap, Ordering.swap_eq_gt] at horder
      rw [Std.OrientedOrd.eq_swap, hsmaller _ _ horder]
      rfl

/-- Lists of texts compare as the lists of their bytes do. -/
theorem compare_map_utf8 (first second : List String) :
    compare (first.map utf8) (second.map utf8) = compare first second := by
  induction first generalizing second with
  | nil =>
      cases second <;> rfl
  | cons segment rest ih =>
      cases second with
      | nil => rfl
      | cons other others =>
          rw [List.map_cons, List.map_cons, List.compare_cons_cons, List.compare_cons_cons,
            compare_utf8, ih]

end Text
end InteropHeader
