import InteropHeader.Proofs.Manifest.Plan
import Mathlib.Data.List.Nodup
import Mathlib.Logic.Relation

/-!
# Restated manifests

Input:
  a valid manifest, and another one that says the same in other words.

Algorithm:
  a manifest is restated step by step.  One step lists the modules in another order, gives
  them other keys, distributes the uses over the Objective-C declarations in another way,
  changes what clients see the modules as, or describes further modules.

Results:
  * `MeansSame`: what two manifests have in common if they say the same;
  * `RestatedAs.isValid`, `RestatedAs.meansSame`: one step keeps a manifest valid, and keeps
    what it says;
  * `IsValid.of_restated`: so do any number of steps;
  * `IsPlan.of_meansSame`: manifests that say the same have the same import section.
-/

namespace InteropHeader

namespace ModuleEntry

variable {entry other : ModuleEntry}

/-- The same module under a renamed key. -/
structure IsRekeyed (rename : String → String) (entry other : ModuleEntry) : Prop where
  name_eq : other.name = entry.name
  exportedName_eq : other.exportedName = entry.exportedName
  key_eq : other.key = rename entry.key

/-- The same module under any name that clients see. -/
structure IsReexported (entry other : ModuleEntry) : Prop where
  name_eq : other.name = entry.name
  id_eq : other.id = entry.id

theorem IsReexported.key_eq (h : entry.IsReexported other) : other.key = entry.key := by
  rw [key, key, h.name_eq, h.id_eq]

theorem IsReexported.isValid (h : entry.IsReexported other) (hvalid : entry.IsValid) :
    other.IsValid where
  name := h.name_eq ▸ hvalid.name
  key_ne_empty := h.key_eq ▸ hvalid.key_ne_empty
  dot_notMem_key := h.key_eq ▸ hvalid.dot_notMem_key

theorem map_key_eq {f : String → String} {entries others : List ModuleEntry}
    (h : List.Forall₂ (fun entry other => other.key = f entry.key) entries others) :
    others.map key = (entries.map key).map f := by
  induction h with
  | nil => rfl
  | cons hkey _ ih => rw [List.map_cons, hkey, ih, List.map_cons, List.map_cons]

end ModuleEntry

/-- A renaming of keys to pairwise distinct ones that modules can have. -/
structure GivesKeys (rename : String → String) (keys : List String) : Prop where
  nodup : (keys.map rename).Nodup
  ne_empty : ∀ key ∈ keys, rename key ≠ ""
  dot_notMem : ∀ key ∈ keys, '.' ∉ (rename key).toList

theorem GivesKeys.key_eq
    {rename : String → String} {keys : List String} (h : GivesKeys rename keys)
    {key another : String} (hkey : key ∈ keys) (hanother : another ∈ keys)
    (heq : rename key = rename another) : key = another :=
  List.inj_on_of_nodup_map h.nodup hkey hanother heq

theorem ModuleEntry.IsRekeyed.isValid
    {rename : String → String} {entry other : ModuleEntry}
    (h : entry.IsRekeyed rename other) (hvalid : entry.IsValid)
    {keys : List String} (hgives : GivesKeys rename keys) (hkey : entry.key ∈ keys) :
    other.IsValid where
  name := h.name_eq ▸ hvalid.name
  key_ne_empty := h.key_eq ▸ hgives.ne_empty entry.key hkey
  dot_notMem_key := h.key_eq ▸ hgives.dot_notMem entry.key hkey

/-- A use after a renaming of keys.  The full name of a foreign module is not a key, so it
stays. -/
def renameUse (rename : String → String) (use : String) : String :=
  if '.' ∈ use.toList then use else rename use

theorem renameUse_of_mem {rename : String → String} {use : String} (hdot : '.' ∈ use.toList) :
    renameUse rename use = use :=
  if_pos hdot

theorem renameUse_of_notMem
    {rename : String → String} {use : String} (hdot : '.' ∉ use.toList) :
    renameUse rename use = rename use :=
  if_neg hdot

/-- A declaration after a renaming of keys. -/
def DeclarationEntry.renameUses
    (rename : String → String) (entry : DeclarationEntry) : DeclarationEntry :=
  { entry with uses := entry.uses.map (renameUse rename) }

namespace Manifest

variable {manifest other : Manifest}

section Steps

/-- A manifest whose keys are renamed wherever they stand. -/
def renamed (manifest : Manifest) (rename : String → String)
    (main : ModuleEntry) (modules : List ModuleEntry) : Manifest :=
  { manifest with
    main := main
    importedHeader := manifest.importedHeader.map rename
    modules := modules
    objc := manifest.objc.map (DeclarationEntry.renameUses rename)
    cxx := manifest.cxx.map (DeclarationEntry.renameUses rename) }

/-- One step by which a manifest is restated. -/
inductive RestatedAs : Manifest → Manifest → Prop
  /-- The modules are listed in another order. -/
  | permute {manifest : Manifest} {modules : List ModuleEntry}
      (hperm : modules.Perm manifest.modules) :
      RestatedAs manifest { manifest with modules := modules }
  /-- The keys are renamed wherever they stand. -/
  | rename {manifest : Manifest} {rename : String → String}
      {main : ModuleEntry} {modules : List ModuleEntry}
      (hgives : GivesKeys rename manifest.keys)
      (hmain : manifest.main.IsRekeyed rename main)
      (hmodules : List.Forall₂ (ModuleEntry.IsRekeyed rename) manifest.modules modules) :
      RestatedAs manifest (manifest.renamed rename main modules)
  /-- The Objective-C declarations, taken together, have the same uses. -/
  | rearrange {manifest : Manifest} {objc : List DeclarationEntry}
      (htexts : objc.map DeclarationEntry.text = manifest.objc.map DeclarationEntry.text)
      (huses : ∀ use, (∃ entry ∈ objc, use ∈ entry.uses) ↔ manifest.Mentions use) :
      RestatedAs manifest { manifest with objc := objc }
  /-- Clients see the modules under other names. -/
  | reexport {manifest : Manifest} {main : ModuleEntry} {modules : List ModuleEntry}
      (hmain : manifest.main.IsReexported main)
      (hmodules : List.Forall₂ ModuleEntry.IsReexported manifest.modules modules) :
      RestatedAs manifest { manifest with main := main, modules := modules }
  /-- Further modules are described.  A valid manifest uses only keys that it describes,
  so nothing refers to a module with a fresh key. -/
  | extend {manifest : Manifest} {added : List ModuleEntry}
      (hvalid : ∀ entry ∈ added, entry.IsValid)
      (hfresh : ∀ entry ∈ added, entry.key ∉ manifest.keys)
      (hnodup : (added.map ModuleEntry.key).Nodup) :
      RestatedAs manifest { manifest with modules := manifest.modules ++ added }

end Steps

section Meaning

/-- Whether an Objective-C declaration uses a module of that name that stands for the
bridging header, or one that does not. -/
def MentionsModule (manifest : Manifest) (name : String) (standsForHeader : Bool) : Prop :=
  ∃ entry ∈ manifest.modules,
    entry.name = name ∧ manifest.Mentions entry.key ∧
      decide (manifest.importedHeader = some entry.key) = standsForHeader

/-- Two manifests that say the same, whatever keys they say it with. -/
structure MeansSame (manifest other : Manifest) : Prop where
  name_eq : other.main.name = manifest.main.name
  toolchain_eq : other.toolchain = manifest.toolchain
  bridging_eq : other.bridging = manifest.bridging
  texts_eq : ∀ language,
    (other.declarations language).map DeclarationEntry.text =
      (manifest.declarations language).map DeclarationEntry.text
  mentions_iff : ∀ use, '.' ∈ use.toList → (other.Mentions use ↔ manifest.Mentions use)
  mentionsModule_iff : ∀ name standsForHeader,
    other.MentionsModule name standsForHeader ↔
      manifest.MentionsModule name standsForHeader

theorem MeansSame.refl (manifest : Manifest) : manifest.MeansSame manifest :=
  ⟨rfl, rfl, rfl, fun _ => rfl, fun _ _ => Iff.rfl, fun _ _ => Iff.rfl⟩

theorem MeansSame.trans
    {first second third : Manifest}
    (h₁ : first.MeansSame second) (h₂ : second.MeansSame third) :
    first.MeansSame third where
  name_eq := h₂.name_eq.trans h₁.name_eq
  toolchain_eq := h₂.toolchain_eq.trans h₁.toolchain_eq
  bridging_eq := h₂.bridging_eq.trans h₁.bridging_eq
  texts_eq language := (h₂.texts_eq language).trans (h₁.texts_eq language)
  mentions_iff use hdot := (h₂.mentions_iff use hdot).trans (h₁.mentions_iff use hdot)
  mentionsModule_iff name standsForHeader :=
    (h₂.mentionsModule_iff name standsForHeader).trans
      (h₁.mentionsModule_iff name standsForHeader)

/-- Whether a module is the underlying module, told by its name and by whether it stands
for the bridging header. -/
def UnderlyingBy (ownName : String) (header : Option String)
    (name : String) (standsForHeader : Bool) : Prop :=
  match header with
  | none => name = ownName
  | some _ => standsForHeader = true

theorem isUnderlyingEntry_iff {header : Option String} {entry : ModuleEntry} :
    manifest.IsUnderlyingEntry header entry
      ↔
    UnderlyingBy manifest.main.name header entry.name
      (decide (manifest.importedHeader = some entry.key)) := by
  cases header <;> simp [IsUnderlyingEntry, UnderlyingBy]

theorem imports_host_iff {header : Option String} {name : String} :
    manifest.Imports header (.host name)
      ↔
    name ≠ manifest.main.name ∧
      ∃ standsForHeader, manifest.MentionsModule name standsForHeader ∧
        ¬ UnderlyingBy manifest.main.name header name standsForHeader := by
  refine and_congr_right fun _ => ?_
  constructor
  · rintro ⟨entry, hentry, rfl, hmentions, hunder⟩
    exact ⟨_, ⟨entry, hentry, rfl, hmentions, rfl⟩, fun h => hunder (isUnderlyingEntry_iff.2 h)⟩
  · rintro ⟨_, ⟨entry, hentry, rfl, hmentions, rfl⟩, hunder⟩
    exact ⟨entry, hentry, rfl, hmentions, fun h => hunder (isUnderlyingEntry_iff.1 h)⟩

theorem mentionsUnderlying_iff {header : Option String} :
    manifest.MentionsUnderlying header
      ↔
    ∃ name standsForHeader, manifest.MentionsModule name standsForHeader ∧
      UnderlyingBy manifest.main.name header name standsForHeader := by
  constructor
  · rintro ⟨entry, hentry, hmentions, hunder⟩
    exact ⟨_, _, ⟨entry, hentry, rfl, hmentions, rfl⟩, isUnderlyingEntry_iff.1 hunder⟩
  · rintro ⟨_, _, ⟨entry, hentry, rfl, hmentions, rfl⟩, hunder⟩
    exact ⟨entry, hentry, hmentions, isUnderlyingEntry_iff.2 hunder⟩

theorem MeansSame.imports_iff
    (h : manifest.MeansSame other) (header : Option String) (target : ImportTarget) :
    other.Imports header target ↔ manifest.Imports header target := by
  cases target with
  | host name =>
      simp only [imports_host_iff, h.name_eq, h.mentionsModule_iff]
  | foreign path =>
      refine exists_congr fun use => ?_
      constructor
      · rintro ⟨hmentions, hdot, hpath⟩
        exact ⟨(h.mentions_iff use hdot).1 hmentions, hdot, hpath⟩
      · rintro ⟨hmentions, hdot, hpath⟩
        exact ⟨(h.mentions_iff use hdot).2 hmentions, hdot, hpath⟩

theorem MeansSame.mentionsUnderlying_iff
    (h : manifest.MeansSame other) (header : Option String) :
    other.MentionsUnderlying header ↔ manifest.MentionsUnderlying header := by
  simp only [Manifest.mentionsUnderlying_iff, h.name_eq, h.mentionsModule_iff]

/-- The import section of a manifest is that of any manifest that says the same. -/
theorem IsPlan.of_meansSame
    {header : Option String} {imports : ImportSection}
    (hplan : other.IsPlan header imports) (h : manifest.MeansSame other) :
    manifest.IsPlan header imports := by
  obtain ⟨targets, hstatements, hincreasing, htargets⟩ := hplan.statements_eq
  refine ⟨⟨targets, hstatements, hincreasing, fun target => ?_⟩, fun ownHeader => ?_⟩
  · rw [htargets target, h.imports_iff]
  · rw [hplan.ownHeader_eq_some_iff, h.name_eq, h.mentionsUnderlying_iff]

/-- Two entries of two manifests that stand for the same module. -/
structure Corresponds (manifest other : Manifest) (entry counterpart : ModuleEntry) :
    Prop where
  name_eq : counterpart.name = entry.name
  mentions_iff : other.Mentions counterpart.key ↔ manifest.Mentions entry.key
  importedHeader_iff :
    other.importedHeader = some counterpart.key ↔ manifest.importedHeader = some entry.key

theorem Corresponds.mentionsModule_iff
    (h : List.Forall₂ (manifest.Corresponds other) manifest.modules other.modules)
    (name : String) (standsForHeader : Bool) :
    other.MentionsModule name standsForHeader ↔
      manifest.MentionsModule name standsForHeader := by
  constructor
  · rintro ⟨counterpart, hcounterpart, hname, hmentions, hheader⟩
    obtain ⟨entry, hentry, hsame⟩ := exists_mem_of_forall₂ h hcounterpart
    refine ⟨entry, hentry, hsame.name_eq ▸ hname, hsame.mentions_iff.1 hmentions, ?_⟩
    simpa only [hsame.importedHeader_iff] using hheader
  · rintro ⟨entry, hentry, hname, hmentions, hheader⟩
    obtain ⟨counterpart, hcounterpart, hsame⟩ := exists_mem_of_forall₂ h.flip hentry
    refine ⟨counterpart, hcounterpart, hsame.name_eq.trans hname,
      hsame.mentions_iff.2 hmentions, ?_⟩
    simpa only [hsame.importedHeader_iff] using hheader

end Meaning

section Validity

theorem mem_keys_of_mem_modules
    {entry : ModuleEntry} (hentry : entry ∈ manifest.modules) :
    entry.key ∈ manifest.keys :=
  List.mem_map_of_mem (List.mem_cons_of_mem _ hentry)

theorem IsValid.mem_keys_of_mentions
    (h : manifest.IsValid) {use : String} (hmentions : manifest.Mentions use)
    (hdot : '.' ∉ use.toList) : use ∈ manifest.keys := by
  obtain ⟨entry, hentry, huse⟩ := hmentions
  simpa [Names, hdot] using h.uses .objc entry hentry use huse

/-- A manifest with all the keys of a valid one, and with no other uses, describes
whatever it refers to. -/
theorem IsValid.of_keys_subset
    (h : manifest.IsValid)
    (hentries : ∀ entry ∈ other.entries, entry.IsValid) (hnodup : other.keys.Nodup)
    (hkeys : manifest.keys ⊆ other.keys)
    (hheader : other.importedHeader = manifest.importedHeader)
    (huses : ∀ language, ∀ entry ∈ other.declarations language, ∀ use ∈ entry.uses,
      ∃ entry ∈ manifest.declarations language, use ∈ entry.uses) :
    other.IsValid where
  entries := hentries
  keys_nodup := hnodup
  importedHeader := by
    intro key hkey
    exact hkeys (h.importedHeader key (hheader ▸ hkey))
  uses := by
    intro language entry hentry use huse
    obtain ⟨entry, hentry, huse⟩ := huses language entry hentry use huse
    have hnames := h.uses language entry hentry use huse
    unfold Names at hnames ⊢
    split
    · rename_i hdot
      rwa [if_pos hdot] at hnames
    · rename_i hdot
      rw [if_neg hdot] at hnames
      exact hkeys hnames

end Validity

section Permute

variable {modules : List ModuleEntry}

theorem IsValid.permute (h : manifest.IsValid) (hperm : modules.Perm manifest.modules) :
    IsValid { manifest with modules := modules } := by
  have hentries : (manifest.main :: modules).Perm manifest.entries :=
    hperm.cons _
  have hkeys : ((manifest.main :: modules).map ModuleEntry.key).Perm manifest.keys :=
    hentries.map _
  refine h.of_keys_subset (fun entry hentry => ?_) ?_ hkeys.symm.subset rfl ?_
  · exact h.entries entry (hentries.mem_iff.1 hentry)
  · exact hkeys.nodup_iff.2 h.keys_nodup
  · exact fun _ entry hentry _ huse => ⟨entry, hentry, huse⟩

theorem meansSame_permute (hperm : modules.Perm manifest.modules) :
    manifest.MeansSame { manifest with modules := modules } where
  name_eq := rfl
  toolchain_eq := rfl
  bridging_eq := rfl
  texts_eq _ := rfl
  mentions_iff _ _ := Iff.rfl
  mentionsModule_iff _ _ := exists_congr fun _ => and_congr_left' hperm.mem_iff

end Permute

section Rename

variable {rename : String → String} {main : ModuleEntry} {modules : List ModuleEntry}

theorem declarations_renamed (language : Language) :
    (manifest.renamed rename main modules).declarations language =
      (manifest.declarations language).map (DeclarationEntry.renameUses rename) := by
  cases language <;> rfl

theorem mentions_renamed_iff {use : String} :
    (manifest.renamed rename main modules).Mentions use
      ↔
    ∃ original, manifest.Mentions original ∧ renameUse rename original = use := by
  simp only [Mentions, renamed, List.mem_map, DeclarationEntry.renameUses]
  constructor
  · rintro ⟨_, ⟨entry, hentry, rfl⟩, huse⟩
    obtain ⟨original, horiginal, rfl⟩ := List.mem_map.1 huse
    exact ⟨original, ⟨entry, hentry, horiginal⟩, rfl⟩
  · rintro ⟨original, ⟨entry, hentry, horiginal⟩, rfl⟩
    exact ⟨_, ⟨entry, hentry, rfl⟩, List.mem_map_of_mem horiginal⟩

theorem entries_renamed
    (hmain : manifest.main.IsRekeyed rename main)
    (hmodules : List.Forall₂ (ModuleEntry.IsRekeyed rename) manifest.modules modules) :
    List.Forall₂ (ModuleEntry.IsRekeyed rename) manifest.entries
      (manifest.renamed rename main modules).entries :=
  List.Forall₂.cons hmain hmodules

theorem keys_renamed
    (hmain : manifest.main.IsRekeyed rename main)
    (hmodules : List.Forall₂ (ModuleEntry.IsRekeyed rename) manifest.modules modules) :
    (manifest.renamed rename main modules).keys = manifest.keys.map rename :=
  ModuleEntry.map_key_eq ((entries_renamed hmain hmodules).imp fun _ _ h => h.key_eq)

theorem IsValid.renamed
    (h : manifest.IsValid) (hgives : GivesKeys rename manifest.keys)
    (hmain : manifest.main.IsRekeyed rename main)
    (hmodules : List.Forall₂ (ModuleEntry.IsRekeyed rename) manifest.modules modules) :
    (manifest.renamed rename main modules).IsValid where
  entries := by
    intro other hother
    obtain ⟨entry, hentry, hrekeyed⟩ :=
      exists_mem_of_forall₂ (entries_renamed hmain hmodules) hother
    exact hrekeyed.isValid (h.entries entry hentry) hgives (List.mem_map_of_mem hentry)
  keys_nodup := by
    rw [keys_renamed hmain hmodules]
    exact hgives.nodup
  importedHeader := by
    intro key hkey
    obtain ⟨original, horiginal, rfl⟩ := Option.map_eq_some_iff.1 hkey
    rw [keys_renamed hmain hmodules]
    exact List.mem_map_of_mem (h.importedHeader original horiginal)
  uses := by
    intro language entry hentry renamedUse hrenamed
    rw [declarations_renamed, List.mem_map] at hentry
    obtain ⟨original, horiginal, rfl⟩ := hentry
    obtain ⟨use, huse, rfl⟩ := List.mem_map.1 hrenamed
    have hnames := h.uses language original horiginal use huse
    by_cases hdot : '.' ∈ use.toList
    · rw [renameUse_of_mem hdot]
      simpa [Names, hdot] using hnames
    · have hkey : use ∈ manifest.keys := by
        simpa [Names, hdot] using hnames
      have hdot' : '.' ∉ (rename use).toList :=
        hgives.dot_notMem use hkey
      rw [renameUse_of_notMem hdot, Names, if_neg hdot', keys_renamed hmain hmodules]
      exact List.mem_map_of_mem hkey

/-- A described module is used under its new key if it was used under the old one. -/
theorem IsValid.mentions_rename_iff
    (h : manifest.IsValid) (hgives : GivesKeys rename manifest.keys)
    {key : String} (hkey : key ∈ manifest.keys) (hdot : '.' ∉ key.toList) :
    (manifest.renamed rename main modules).Mentions (rename key)
      ↔
    manifest.Mentions key := by
  rw [mentions_renamed_iff]
  constructor
  · rintro ⟨use, hmentions, heq⟩
    by_cases huseDot : '.' ∈ use.toList
    · -- the full name of a foreign module is no key
      rw [renameUse_of_mem huseDot] at heq
      exact absurd (heq ▸ huseDot) (hgives.dot_notMem key hkey)
    · rw [renameUse_of_notMem huseDot] at heq
      have huse : use ∈ manifest.keys :=
        h.mem_keys_of_mentions hmentions huseDot
      exact hgives.key_eq huse hkey heq ▸ hmentions
  · intro hmentions
    exact ⟨key, hmentions, renameUse_of_notMem hdot⟩

theorem IsValid.mentions_foreign_iff
    (h : manifest.IsValid) (hgives : GivesKeys rename manifest.keys)
    {use : String} (hdot : '.' ∈ use.toList) :
    (manifest.renamed rename main modules).Mentions use ↔ manifest.Mentions use := by
  rw [mentions_renamed_iff]
  constructor
  · rintro ⟨original, hmentions, rfl⟩
    by_cases horiginal : '.' ∈ original.toList
    · rwa [renameUse_of_mem horiginal]
    · -- a new key has no dot
      rw [renameUse_of_notMem horiginal] at hdot
      exact absurd hdot
        (hgives.dot_notMem original (h.mem_keys_of_mentions hmentions horiginal))
  · intro hmentions
    exact ⟨use, hmentions, renameUse_of_mem hdot⟩

theorem IsValid.importedHeader_rename_iff
    (h : manifest.IsValid) (hgives : GivesKeys rename manifest.keys)
    {key : String} (hkey : key ∈ manifest.keys) :
    manifest.importedHeader.map rename = some (rename key)
      ↔
    manifest.importedHeader = some key := by
  rw [Option.map_eq_some_iff]
  constructor
  · rintro ⟨original, horiginal, heq⟩
    rw [horiginal, hgives.key_eq (h.importedHeader original horiginal) hkey heq]
  · intro hheader
    exact ⟨key, hheader, rfl⟩

theorem IsValid.meansSame_renamed
    (h : manifest.IsValid) (hgives : GivesKeys rename manifest.keys)
    (hmain : manifest.main.IsRekeyed rename main)
    (hmodules : List.Forall₂ (ModuleEntry.IsRekeyed rename) manifest.modules modules) :
    manifest.MeansSame (manifest.renamed rename main modules) where
  name_eq := hmain.name_eq
  toolchain_eq := rfl
  bridging_eq := rfl
  texts_eq language := by
    rw [declarations_renamed, List.map_map]
    rfl
  mentions_iff _ hdot := h.mentions_foreign_iff hgives hdot
  mentionsModule_iff := by
    refine Corresponds.mentionsModule_iff ?_
    have hboth := (List.forall₂_and_left _ _).2 ⟨fun entry hentry => hentry, hmodules⟩
    refine hboth.imp fun entry other ⟨hentry, hrekeyed⟩ => ?_
    have hkey : entry.key ∈ manifest.keys :=
      mem_keys_of_mem_modules hentry
    have hvalid := h.entries entry (List.mem_cons_of_mem _ hentry)
    refine ⟨hrekeyed.name_eq, ?_, ?_⟩
    · rw [hrekeyed.key_eq]
      exact h.mentions_rename_iff hgives hkey hvalid.dot_notMem_key
    · rw [hrekeyed.key_eq]
      exact h.importedHeader_rename_iff hgives hkey

end Rename

section Rearrange

variable {objc : List DeclarationEntry}

theorem IsValid.rearrange
    (h : manifest.IsValid)
    (huses : ∀ use, (∃ entry ∈ objc, use ∈ entry.uses) ↔ manifest.Mentions use) :
    IsValid { manifest with objc := objc } := by
  refine h.of_keys_subset h.entries h.keys_nodup (List.Subset.refl _) rfl ?_
  intro language entry hentry use huse
  cases language with
  | cxx => exact ⟨entry, hentry, huse⟩
  | objc => exact (huses use).1 ⟨entry, hentry, huse⟩

theorem meansSame_rearrange
    (htexts : objc.map DeclarationEntry.text = manifest.objc.map DeclarationEntry.text)
    (huses : ∀ use, (∃ entry ∈ objc, use ∈ entry.uses) ↔ manifest.Mentions use) :
    manifest.MeansSame { manifest with objc := objc } where
  name_eq := rfl
  toolchain_eq := rfl
  bridging_eq := rfl
  texts_eq language := by
    cases language with
    | cxx => rfl
    | objc => exact htexts
  mentions_iff use _ := huses use
  mentionsModule_iff :=
    Corresponds.mentionsModule_iff
      (List.forall₂_same.2 fun entry _ => ⟨rfl, huses entry.key, Iff.rfl⟩)

end Rearrange

section Reexport

variable {main : ModuleEntry} {modules : List ModuleEntry}

theorem IsValid.reexport
    (h : manifest.IsValid) (hmain : manifest.main.IsReexported main)
    (hmodules : List.Forall₂ ModuleEntry.IsReexported manifest.modules modules) :
    IsValid { manifest with main := main, modules := modules } := by
  have hall : List.Forall₂ ModuleEntry.IsReexported manifest.entries (main :: modules) :=
    List.Forall₂.cons hmain hmodules
  have hkeys : keys { manifest with main := main, modules := modules } = manifest.keys :=
    (ModuleEntry.map_key_eq (f := id) (hall.imp fun _ _ h => h.key_eq)).trans
      (List.map_id _)
  refine h.of_keys_subset (fun other hother => ?_) ?_ ?_ rfl ?_
  · obtain ⟨entry, hentry, hreexported⟩ := exists_mem_of_forall₂ hall hother
    exact hreexported.isValid (h.entries entry hentry)
  · rw [hkeys]
    exact h.keys_nodup
  · rw [hkeys]
    exact List.Subset.refl _
  · exact fun _ entry hentry _ huse => ⟨entry, hentry, huse⟩

theorem meansSame_reexport
    (hmain : manifest.main.IsReexported main)
    (hmodules : List.Forall₂ ModuleEntry.IsReexported manifest.modules modules) :
    manifest.MeansSame { manifest with main := main, modules := modules } where
  name_eq := hmain.name_eq
  toolchain_eq := rfl
  bridging_eq := rfl
  texts_eq _ := rfl
  mentions_iff _ _ := Iff.rfl
  mentionsModule_iff := by
    refine Corresponds.mentionsModule_iff (hmodules.imp fun entry other h => ?_)
    refine ⟨h.name_eq, ?_, ?_⟩
    · rw [h.key_eq]
      rfl
    · rw [h.key_eq]

end Reexport

section Extend

variable {added : List ModuleEntry}

theorem IsValid.extend
    (h : manifest.IsValid) (hvalid : ∀ entry ∈ added, entry.IsValid)
    (hfresh : ∀ entry ∈ added, entry.key ∉ manifest.keys)
    (hnodup : (added.map ModuleEntry.key).Nodup) :
    IsValid { manifest with modules := manifest.modules ++ added } := by
  have hkeys : keys { manifest with modules := manifest.modules ++ added } =
      manifest.keys ++ added.map ModuleEntry.key := by
    simp [keys, Manifest.entries]
  refine h.of_keys_subset ?_ ?_ ?_ rfl ?_
  · exact List.forall_mem_append.2 ⟨h.entries, hvalid⟩
  · rw [hkeys, List.nodup_append']
    refine ⟨h.keys_nodup, hnodup, fun key hkey hadded => ?_⟩
    obtain ⟨entry, hentry, rfl⟩ := List.mem_map.1 hadded
    exact hfresh entry hentry hkey
  · rw [hkeys]
    exact List.subset_append_left _ _
  · exact fun _ entry hentry _ huse => ⟨entry, hentry, huse⟩

theorem IsValid.meansSame_extend
    (h : manifest.IsValid) (hvalid : ∀ entry ∈ added, entry.IsValid)
    (hfresh : ∀ entry ∈ added, entry.key ∉ manifest.keys) :
    manifest.MeansSame { manifest with modules := manifest.modules ++ added } where
  name_eq := rfl
  toolchain_eq := rfl
  bridging_eq := rfl
  texts_eq _ := rfl
  mentions_iff _ _ := Iff.rfl
  mentionsModule_iff name standsForHeader := by
    constructor
    · rintro ⟨entry, hentry, hname, hmentions, hheader⟩
      rcases List.mem_append.1 hentry with hentry | hentry
      · exact ⟨entry, hentry, hname, hmentions, hheader⟩
      · have hdot := (hvalid entry hentry).dot_notMem_key
        exact absurd (h.mem_keys_of_mentions hmentions hdot) (hfresh entry hentry)
    · rintro ⟨entry, hentry, hmentioned⟩
      exact ⟨entry, List.mem_append_left _ hentry, hmentioned⟩

end Extend

/-- A restated manifest stays valid. -/
theorem RestatedAs.isValid (h : manifest.RestatedAs other) (hvalid : manifest.IsValid) :
    other.IsValid := by
  cases h with
  | permute hperm => exact hvalid.permute hperm
  | rename hgives hmain hmodules => exact hvalid.renamed hgives hmain hmodules
  | rearrange _ huses => exact hvalid.rearrange huses
  | reexport hmain hmodules => exact hvalid.reexport hmain hmodules
  | extend hadded hfresh hnodup => exact hvalid.extend hadded hfresh hnodup

/-- A restated manifest says the same. -/
theorem RestatedAs.meansSame (h : manifest.RestatedAs other) (hvalid : manifest.IsValid) :
    manifest.MeansSame other := by
  cases h with
  | permute hperm => exact meansSame_permute hperm
  | rename hgives hmain hmodules => exact hvalid.meansSame_renamed hgives hmain hmodules
  | rearrange htexts huses => exact meansSame_rearrange htexts huses
  | reexport hmain hmodules => exact meansSame_reexport hmain hmodules
  | extend hadded hfresh _ => exact hvalid.meansSame_extend hadded hfresh

/-- However often it is restated, a manifest stays valid and says the same. -/
theorem IsValid.of_restated
    (hvalid : manifest.IsValid) (h : Relation.ReflTransGen RestatedAs manifest other) :
    other.IsValid ∧ manifest.MeansSame other := by
  induction h with
  | refl => exact ⟨hvalid, MeansSame.refl manifest⟩
  | tail _ hstep ih =>
      obtain ⟨hnext, hsame⟩ := ih
      exact ⟨hstep.isValid hnext, hsame.trans (hstep.meansSame hnext)⟩

end Manifest

end InteropHeader
