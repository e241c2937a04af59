import InteropHeader.Proofs.Import.Section
import InteropHeader.Proofs.Text.Utf8

/-!
# The order of references as a total preorder

Input:
  references that can all be imported.

Algorithm:
  a host module and a foreign submodule are compared by the root alone, with the host
  module first if they share it.  That is how their full names compare, for the one of the
  host module is a proper beginning of the other one then.  So a single key orders all
  references, and whatever holds of keys holds of references.

Results:
  * `WellNamed.compareReferences_eq`: references compare as the bytes of their full names;
  * `WellNamed.segmentsOf_eq_iff`: which references share a full name;
  * `WellNamed.preordered`: the order is total, transitive and given by a key.
-/

namespace InteropHeader

variable {κ : Type} [ModuleNaming κ]

/-- Whether references are the same foreign module or host modules of the same name. -/
def NamedAlike (names : κ) : Reference → Reference → Prop
  | .host first, .host second =>
      ∃ name, ModuleNaming.hostName names first = .ok name ∧
        ModuleNaming.hostName names second = .ok name
  | .foreign first, .foreign second => first = second
  | _, _ => False

/-- References that are ordered by a key, a list of segments given by their bytes. -/
structure Preordered
    (names : κ) (references : ReferenceSet) (key : Reference → List (List UInt8)) :
    Prop where
  key_host : ∀ handle, .host handle ∈ references →
    ∃ name, ModuleNaming.hostName names handle = .ok name ∧
      key (.host handle) = [Text.utf8 name]
  key_foreign : ∀ handle, .foreign handle ∈ references →
    ∃ path, ModuleNaming.foreignPath names handle = .ok path ∧
      key (.foreign handle) = path.map Text.utf8
  compare_eq : ∀ a ∈ references, ∀ b ∈ references,
    compareReferences names a b = .ok (compare (key a) (key b))
  swap : ∀ a ∈ references, ∀ b ∈ references, ∀ order,
    compareReferences names a b = .ok order → compareReferences names b a = .ok order.swap
  trans : ∀ a ∈ references, ∀ b ∈ references, ∀ c ∈ references, ∀ first second,
    compareReferences names a b = .ok first → first.isLE →
    compareReferences names b c = .ok second → second.isLE →
    ∃ third, compareReferences names a c = .ok third ∧ third.isLE
  eq_iff : ∀ a ∈ references, ∀ b ∈ references,
    compareReferences names a b = .ok .eq ↔ NamedAlike names a b

namespace ReferenceSet

variable {references : ReferenceSet} {names : κ} {a b : Reference}

/-- The key of a reference: the bytes of its full name, segment by segment. -/
def keyOf (names : κ) (ref : Reference) : List (List UInt8) :=
  (segmentsOf names ref).map Text.utf8

/-- References compare as the bytes of their full names do. -/
theorem WellNamed.compareReferences_eq
    (h : references.WellNamed names) (ha : a ∈ references) (hb : b ∈ references) :
    compareReferences names a b = .ok (compare (keyOf names a) (keyOf names b)) := by
  rw [h.comparesBy a ha b hb, keyOf, keyOf, Text.compare_map_utf8]

/-- A full name is shared by host modules of the same name and by nothing else. -/
theorem WellNamed.segmentsOf_eq_iff
    (h : references.WellNamed names) (ha : a ∈ references) (hb : b ∈ references) :
    segmentsOf names a = segmentsOf names b ↔ NamedAlike names a b := by
  obtain ⟨pathA, hpathA⟩ := h.exists_fullName ha
  obtain ⟨pathB, hpathB⟩ := h.exists_fullName hb
  rw [segmentsOf_eq hpathA, segmentsOf_eq hpathB]
  cases a with
  | host first =>
      obtain ⟨nameA, hnameA, rfl⟩ := fullName_host_eq_ok_iff.1 hpathA
      cases b with
      | host second =>
          obtain ⟨nameB, hnameB, rfl⟩ := fullName_host_eq_ok_iff.1 hpathB
          simp [NamedAlike, hnameA, hnameB, eq_comm]
      | foreign second =>
          refine iff_of_false (fun heq => ?_) id
          exact fullName_foreign_ne_host hpathB (heq ▸ hpathA)
  | foreign first =>
      cases b with
      | host second =>
          refine iff_of_false (fun heq => ?_) id
          exact fullName_foreign_ne_host hpathA (heq ▸ hpathB)
      | foreign second =>
          have hforeignA := (fullName_foreign_eq_ok_iff.1 hpathA).1
          have hforeignB := (fullName_foreign_eq_ok_iff.1 hpathB).1
          constructor
          · rintro rfl
            exact h.path_injective first second pathA ha hb hforeignA hforeignB
          · intro (hsame : first = second)
            subst hsame
            exact Except.ok.inj (hforeignA.symm.trans hforeignB)

/-- **One key orders references of both module systems.**  In every set of references that
can all be imported the comparison is that of the lists of segments by their bytes, a host
module having its name as only segment; so it is total, transitive, reversed if its
arguments are exchanged, and finds nothing equal but references named alike. -/
theorem WellNamed.preordered (h : references.WellNamed names) :
    Preordered names references (keyOf names) where
  key_host := by
    intro handle href
    obtain ⟨name, hname⟩ := h.host_named handle href
    have hfull := fullName_host_eq_ok_iff.2 ⟨name, hname, rfl⟩
    exact ⟨name, hname, by rw [keyOf, segmentsOf_eq hfull]; rfl⟩
  key_foreign := by
    intro handle href
    obtain ⟨path, hpath⟩ := h.foreign_nested handle href
    have hfull := fullName_foreign_eq_ok_iff.2 hpath
    exact ⟨path, hpath.1, by rw [keyOf, segmentsOf_eq hfull]⟩
  compare_eq := fun a ha b hb => h.compareReferences_eq ha hb
  swap := by
    intro a ha b hb order horder
    rw [h.compareReferences_eq ha hb] at horder
    cases horder
    rw [h.compareReferences_eq hb ha, ← Std.OrientedOrd.eq_swap]
  trans := by
    intro a ha b hb c hc first second hfirst hle hsecond hle'
    rw [h.compareReferences_eq ha hb] at hfirst
    rw [h.compareReferences_eq hb hc] at hsecond
    cases hfirst
    cases hsecond
    exact ⟨_, h.compareReferences_eq ha hc, Std.TransOrd.isLE_trans hle hle'⟩
  eq_iff := by
    intro a ha b hb
    rw [h.comparesBy a ha b hb, Except.ok.injEq, Std.LawfulEqOrd.compare_eq_iff_eq,
      h.segmentsOf_eq_iff ha hb]

end ReferenceSet

namespace NameTable

/-- Whether a reference denotes an entry of a table. -/
def describes (table : NameTable) : Reference → Bool
  | .host handle => handle.index < table.hosts.length
  | .foreign handle => handle.index < table.foreigns.length

/-- References into a table of different full names below roots can all be imported. -/
theorem wellNamed
    {table : NameTable} {references : ReferenceSet}
    (hdescribes : ∀ ref ∈ references.members, table.describes ref = true)
    (hnested : ∀ path ∈ table.foreigns, 2 ≤ path.length)
    (hnodup : table.foreigns.Nodup) :
    references.WellNamed table where
  host_named := by
    intro handle href
    have hlt : handle.index < table.hosts.length := by
      simpa [describes] using hdescribes _ href
    exact ⟨_, entryAt_eq_ok_iff.2 (List.getElem?_eq_getElem hlt)⟩
  foreign_nested := by
    intro handle href
    have hlt : handle.index < table.foreigns.length := by
      simpa [describes] using hdescribes _ href
    exact ⟨_, entryAt_eq_ok_iff.2 (List.getElem?_eq_getElem hlt),
      hnested _ (List.getElem_mem hlt)⟩
  path_injective := by
    intro first second path hfirst _ hpath hpath'
    have hlt : first.index < table.foreigns.length := by
      simpa [describes] using hdescribes _ hfirst
    have hsame : table.foreigns[first.index]? = table.foreigns[second.index]? :=
      (entryAt_eq_ok_iff.1 hpath).trans (entryAt_eq_ok_iff.1 hpath').symm
    have hindex := (List.getElem?_inj hlt hnodup).1 hsame
    cases first
    cases second
    cases hindex
    rfl

end NameTable

/-- Host modules and foreign submodules that share their roots, one of them not in ASCII. -/
def mingledTable : NameTable where
  hosts := ["Darwin", "Ünit", "Darwin"]
  foreigns := [["Darwin", "C"], ["Ünit", "C"], ["Darwin", "C", "stdio"]]
  importedHeader := none
  toolchain := ""

/-- References to all modules of `mingledTable`. -/
def mingledReferences : ReferenceSet :=
  .ofList [.foreign ⟨2⟩, .host ⟨1⟩, .host ⟨0⟩, .foreign ⟨1⟩, .host ⟨2⟩, .foreign ⟨0⟩]

/-- The references of `mingledReferences` are ordered by one key. -/
theorem mingled_preordered :
    mingledReferences.WellNamed mingledTable ∧
      Preordered mingledTable mingledReferences (ReferenceSet.keyOf mingledTable) := by
  have hnamed : mingledReferences.WellNamed mingledTable :=
    NameTable.wellNamed (by decide) (by decide) (by decide)
  exact ⟨hnamed, hnamed.preordered⟩

end InteropHeader
