import InteropHeader.Proofs.Manifest.Rules

/-!
# Valid manifests

Input:
  a manifest.

Results:
  * `IsValid`: what a manifest has to be like, without any order of checks;
  * `exists_resolve_iff_isValid`: exactly such manifests are resolved.
-/

namespace InteropHeader

/-- A list has no repetition if no member occurs in front of itself. -/
theorem nodup_iff_notMem_take {α : Type} {members : List α} :
    members.Nodup ↔ ∀ i a, members[i]? = some a → a ∉ members.take i := by
  rw [List.Nodup, List.pairwise_iff_getElem]
  constructor
  · intro h i a ha hmem
    obtain ⟨hi, rfl⟩ := List.getElem?_eq_some_iff.1 ha
    obtain ⟨j, hj, heq⟩ := List.mem_take_iff_getElem.1 hmem
    have hji : j < i := by
      omega
    exact h j i (Nat.lt_trans hji hi) hi hji heq
  · intro h i j hi hj hij heq
    refine h j members[j] (List.getElem?_eq_getElem hj) ?_
    exact List.mem_take_iff_getElem.2 ⟨i, by omega, heq⟩

/-- Every member has a position. -/
theorem exists_mem_zipIdx_of_mem {α : Type} {members : List α} {a : α} (ha : a ∈ members) :
    ∃ i, (a, i) ∈ members.zipIdx := by
  rw [← List.zipIdx_map_fst 0 members, List.mem_map] at ha
  obtain ⟨⟨a, i⟩, hi, rfl⟩ := ha
  exact ⟨i, hi⟩

namespace ModuleEntry

/-- A module that can be described: it is named by an identifier, and its key cannot be
taken for the full name of a foreign module. -/
structure IsValid (entry : ModuleEntry) : Prop where
  name : Text.isName entry.name = true
  key_ne_empty : entry.key ≠ ""
  dot_notMem_key : '.' ∉ entry.key.toList

theorem IsValid.dot_notMem_name {entry : ModuleEntry} (h : entry.IsValid) :
    '.' ∉ entry.name.toList :=
  Text.not_mem_of_isName h.name Text.continuesName_dot

theorem rules_kept_iff {entry : ModuleEntry} :
    (∀ rule ∈ entry.rules, rule.kept = true) ↔ entry.IsValid := by
  constructor
  · intro h
    have hname : Text.isName entry.name = true :=
      h ⟨Text.isName entry.name, .malformedName entry.name⟩ (by simp [rules])
    have hkey : entry.key ≠ "" ∧ '.' ∉ entry.key.toList := by
      simpa [rules] using h ⟨entry.key ≠ "" ∧ '.' ∉ entry.key.toList,
        .malformedKey entry.key⟩ (by simp [rules])
    exact ⟨hname, hkey.1, hkey.2⟩
  · intro h rule hrule
    simp only [rules, List.mem_cons, List.not_mem_nil, or_false] at hrule
    rcases hrule with rfl | rfl | rfl
    · simp [Text.isName_ne_empty h.name]
    · exact h.name
    · simp [h.key_ne_empty, h.dot_notMem_key]

end ModuleEntry

namespace Manifest

variable {manifest : Manifest}

/-- A use that names something: without a dot a described module, with a dot a full
name without empty segments. -/
def Names (manifest : Manifest) (use : String) : Prop :=
  if '.' ∈ use.toList then "" ∉ Text.pieces '.' use else use ∈ manifest.keys

/-- A manifest that describes every module it refers to, each under a key of its
own. -/
structure IsValid (manifest : Manifest) : Prop where
  entries : ∀ entry ∈ manifest.entries, entry.IsValid
  keys_nodup : manifest.keys.Nodup
  importedHeader : ∀ key ∈ manifest.importedHeader, key ∈ manifest.keys
  uses : ∀ language, ∀ entry ∈ manifest.declarations language, ∀ use ∈ entry.uses,
    manifest.Names use

theorem getElem?_keys_eq_some_iff {i : Nat} {key : String} :
    manifest.keys[i]? = some key
      ↔
    ∃ entry, manifest.entries[i]? = some entry ∧ entry.key = key := by
  rw [keys, List.getElem?_map, Option.map_eq_some_iff]

theorem mem_zipIdx_modules {entry : ModuleEntry} {i : Nat} :
    (entry, i) ∈ manifest.modules.zipIdx 1
      ↔
    1 ≤ i ∧ manifest.entries[i]? = some entry := by
  rw [List.mk_mem_zipIdx_iff_le_and_getElem?_sub]
  refine and_congr_right fun hi => ?_
  obtain ⟨i, rfl⟩ := Nat.exists_eq_add_of_le' hi
  simp [entries]

/-- The rules for the modules, all together. -/
theorem moduleRules_kept_iff :
    (∀ rule ∈ manifest.moduleRules, rule.kept = true)
      ↔
    (∀ entry ∈ manifest.entries, entry.IsValid) ∧ manifest.keys.Nodup := by
  constructor
  · intro h
    have hmain : manifest.main.IsValid :=
      ModuleEntry.rules_kept_iff.1 fun rule hrule => h rule (by simp [moduleRules, hrule])
    have hmodules : ∀ i entry, 1 ≤ i → manifest.entries[i]? = some entry →
        ∀ rule ∈ ModuleEntry.rulesAmong manifest.keys (entry, i), rule.kept = true := by
      intro i entry hi hentry rule hrule
      refine h rule (List.mem_append_right _ (List.mem_flatMap.2 ?_))
      exact ⟨(entry, i), mem_zipIdx_modules.2 ⟨hi, hentry⟩, hrule⟩
    constructor
    · intro entry hentry
      obtain ⟨i, hi⟩ := List.getElem?_of_mem hentry
      cases i with
      | zero =>
          cases hi
          exact hmain
      | succ i =>
          exact ModuleEntry.rules_kept_iff.1 fun rule hrule =>
            hmodules (i + 1) entry (by omega) hi rule (List.mem_append_left _ hrule)
    · refine nodup_iff_notMem_take.2 fun i key hkey => ?_
      obtain ⟨entry, hentry, rfl⟩ := getElem?_keys_eq_some_iff.1 hkey
      cases i with
      | zero =>
          simp
      | succ i =>
          have hrule := hmodules (i + 1) entry (by omega) hentry
            (entry.keyRule (manifest.keys.take (i + 1))) (by simp [ModuleEntry.rulesAmong])
          simpa [ModuleEntry.keyRule] using hrule
  · rintro ⟨hentries, hnodup⟩ rule hrule
    rcases List.mem_append.1 hrule with hrule | hrule
    · exact ModuleEntry.rules_kept_iff.2 (hentries manifest.main (by simp [entries]))
        rule hrule
    · obtain ⟨⟨entry, i⟩, hindexed, hrule⟩ := List.mem_flatMap.1 hrule
      obtain ⟨_, hentry⟩ := mem_zipIdx_modules.1 hindexed
      rcases List.mem_append.1 hrule with hrule | hrule
      · exact ModuleEntry.rules_kept_iff.2
          (hentries entry (List.mem_of_getElem? hentry)) rule hrule
      · have hfresh : entry.key ∉ manifest.keys.take i :=
          nodup_iff_notMem_take.1 hnodup i entry.key
            (getElem?_keys_eq_some_iff.2 ⟨entry, hentry, rfl⟩)
        rw [List.mem_singleton] at hrule
        subst hrule
        simpa [ModuleEntry.keyRule] using hfresh

theorem headerRules_kept_iff :
    (∀ rule ∈ manifest.headerRules, rule.kept = true)
      ↔
    ∀ key ∈ manifest.importedHeader, key ∈ manifest.keys := by
  unfold headerRules
  cases manifest.importedHeader <;> simp

theorem useRule_kept_iff (language : Language) (index : Nat) (use : String) :
    (manifest.useRule language index use).kept = true ↔ manifest.Names use := by
  unfold useRule Names
  by_cases hdot : '.' ∈ use.toList <;> simp [hdot]

theorem useRules_kept_iff {language : Language} :
    (∀ rule ∈ manifest.useRules language, rule.kept = true)
      ↔
    ∀ entry ∈ manifest.declarations language, ∀ use ∈ entry.uses,
      manifest.Names use := by
  constructor
  · intro h entry hentry use huse
    obtain ⟨index, hindexed⟩ := exists_mem_zipIdx_of_mem hentry
    refine (useRule_kept_iff language index use).1 (h _ ?_)
    exact List.mem_flatMap.2 ⟨(entry, index), hindexed, List.mem_map_of_mem huse⟩
  · intro h rule hrule
    obtain ⟨⟨entry, index⟩, hindexed, hrule⟩ := List.mem_flatMap.1 hrule
    obtain ⟨use, huse, rfl⟩ := List.mem_map.1 hrule
    have hentry : entry ∈ manifest.declarations language :=
      List.fst_mem_of_mem_zipIdx hindexed
    exact (useRule_kept_iff language index use).2 (h entry hentry use huse)

/-- All rules are kept exactly by the valid manifests. -/
theorem rules_kept_iff :
    (∀ rule ∈ manifest.rules, rule.kept = true) ↔ manifest.IsValid := by
  simp only [rules, List.forall_mem_append, moduleRules_kept_iff, headerRules_kept_iff,
    useRules_kept_iff]
  constructor
  · rintro ⟨⟨⟨⟨hentries, hnodup⟩, himported⟩, hobjc⟩, hcxx⟩
    refine ⟨hentries, hnodup, himported, fun language => ?_⟩
    cases language with
    | cxx => exact hcxx
    | objc => exact hobjc
  · intro h
    exact ⟨⟨⟨⟨h.entries, h.keys_nodup⟩, h.importedHeader⟩, h.uses .objc⟩, h.uses .cxx⟩

/-- Exactly the valid manifests are resolved. -/
theorem exists_resolve_iff_isValid :
    (∃ resolved, manifest.resolve = .ok resolved) ↔ manifest.IsValid := by
  rw [← outcome_eq_ok_iff, outcome_resolve, Rule.check_eq_ok_iff, rules_kept_iff]

theorem exists_resolve_of_kept (h : ∀ rule ∈ manifest.rules, rule.kept = true) :
    ∃ resolved, manifest.resolve = .ok resolved :=
  exists_resolve_iff_isValid.2 (rules_kept_iff.1 h)

section Resolved

variable {resolved : ResolvedManifest}

theorem isValid_of_resolve (h : manifest.resolve = .ok resolved) : manifest.IsValid :=
  exists_resolve_iff_isValid.1 ⟨resolved, h⟩

/-- The modules of a resolved manifest are named by identifiers. -/
theorem isName_of_resolve
    (h : manifest.resolve = .ok resolved)
    {entry : ModuleEntry} (hentry : entry ∈ manifest.entries) :
    Text.isName entry.name = true :=
  ((isValid_of_resolve h).entries entry hentry).name

end Resolved

end Manifest

end InteropHeader
