import InteropHeader.Proofs.Outcome
import InteropHeader.Proofs.Text.Lines
import InteropHeader.Storage.FileTree

/-!
# Changes of a file tree

Input:
  a file tree, and a path at which a file is written or a directory created.

Algorithm:
  a path that has been walked can be walked again as long as directories stay directories
  and the working directory is the same.
  A file is never put in place of a directory, and a directory only where nothing was, so
  every location that a path led to once is the one that it leads to afterwards.

Results:
  * `walk_of_keepsDirectories`: what a path leads to does not change;
  * `exists_insert_of_write`, `exists_insert_of_createDirectory`: what is changed at most;
  * `extendsBy_createDirectories`: creating directories loses nothing, also where it fails
    half-way, and adds directories around the path alone;
  * `exists_location_of_write`: a file that is written behind such directories is the only
    one that changes;
  * `readText_of_write`: what has been written is read again.
-/

namespace InteropHeader

namespace Path

/-- The paths around a path, the nearest first, without the root. -/
def ancestors (path : String) : List String :=
  (lineage path).tail

/-- Behind the last segment that is not empty there are empty ones alone. -/
theorem exists_silent_of_dropWhile
    {segments before : List String} {last : String}
    (h : segments.reverse.dropWhile (· = "") = last :: before) :
    last ≠ "" ∧
    ∃ silent,
      segments = before.reverse ++ last :: silent ∧ ∀ segment ∈ silent, segment = "" := by
  have hlast := List.head?_dropWhile_not (· = "") segments.reverse
  rw [h] at hlast
  let silent := segments.reverse.takeWhile (· = "")
  have happend : silent ++ last :: before = segments.reverse := by
    rw [← h]
    exact List.takeWhile_append_dropWhile
  refine ⟨by simpa using hlast, silent.reverse, ?_, fun segment hmem => ?_⟩
  · rw [← List.reverse_reverse segments, ← happend]
    simp
  · simpa using List.all_eq_true.1 List.all_takeWhile segment (List.mem_reverse.1 hmem)

/-- What is listed behind some part are the parts of that part. -/
theorem meaningfulParts_of_append
    {segments part : List String} {nearer around : List (List String)}
    (h : meaningfulParts segments = nearer ++ part :: around) :
    part ⊆ segments ∧ meaningfulParts part = part :: around := by
  induction segments generalizing nearer with
  | nil =>
      simp [meaningfulParts] at h
  | cons segment before ih =>
      by_cases hsilent : segment = "" ∨ (segment = "." ∧ before ≠ [])
      · rw [meaningfulParts, if_pos hsilent] at h
        obtain ⟨hsubset, hparts⟩ := ih h
        exact ⟨fun _ hmem => List.mem_cons_of_mem _ (hsubset hmem), hparts⟩
      · rw [meaningfulParts, if_neg hsilent] at h
        cases nearer with
        | nil =>
            obtain ⟨rfl, rfl⟩ := List.cons.inj h
            exact ⟨fun _ hmem => hmem, by rw [meaningfulParts, if_neg hsilent]⟩
        | cons first others =>
            obtain ⟨hsubset, hparts⟩ := ih (List.cons.inj h).2
            exact ⟨fun _ hmem => List.mem_cons_of_mem _ (hsubset hmem), hparts⟩

/-- A part that is written as a path has the parts listed behind it. -/
theorem meaningfulParts_join
    {path : String} {part : List String} {nearer around : List (List String)}
    (h : meaningfulParts (segments path).reverse = nearer ++ part :: around) :
    meaningfulParts (segments (Text.join '/' part.reverse)).reverse = part :: around := by
  obtain ⟨hsubset, hpart⟩ := meaningfulParts_of_append h
  have hne : part.reverse ≠ [] := by
    intro hnil
    rw [List.reverse_eq_nil_iff.1 hnil] at hpart
    cases hpart
  have hslash : ∀ segment ∈ part.reverse, '/' ∉ segment.toList := by
    intro segment hmem
    have hsegment : segment ∈ segments path := by
      simpa using hsubset (List.mem_reverse.1 hmem)
    exact Text.notMem_of_mem_pieces hsegment
  rw [segments, Text.pieces_join hne hslash, List.reverse_reverse, hpart]

/-- The directories to be created for a file are those around it. -/
theorem lineage_parent
    {path parent : String} (h : parent? path = some parent) (hne : parent ≠ "") :
    lineage parent = ancestors path := by
  unfold parent? at h
  split at h
  · cases h
  · rename_i only honly
    rw [ancestors, honly]
    split at h
    · cases h
      have hroot : lineage "/" = [] := by
        decide
      rw [hroot, List.tail_cons]
    · exact absurd (Option.some.inj h).symm hne
  · rename_i first second around hlineage
    cases h
    rw [ancestors, hlineage, List.tail_cons]
    unfold lineage at hlineage ⊢
    obtain ⟨whole, parts, hparts, _, hrest⟩ := List.map_eq_cons_iff.1 hlineage
    obtain ⟨part, others, rfl, rfl, rfl⟩ := List.map_eq_cons_iff.1 hrest
    have happend : meaningfulParts (segments path).reverse = [whole] ++ part :: others :=
      hparts
    rw [meaningfulParts_join happend, List.map_cons]

example : ancestors "out/./deep//Foo.h" = ["out/./deep", "out"] := by
  decide

end Path

namespace FileTree

variable {tree later : FileTree} {path : String} {location : Location}

section Walks

/-- One step along a path. -/
def advance (start : Location) (segment : String) : Option Location :=
  if segment = "" ∨ segment = "." then some start
  else if segment = ".." then some start.dropLast
  else if nameFits segment then some (start ++ [segment])
  else none

theorem walk_cons_eq_ok_iff {start : Location} {segment : String} {rest : List String} :
    tree.walk start (segment :: rest) = .ok location
      ↔
    tree.at? start = some .directory ∧
      ∃ next, advance start segment = some next ∧ tree.walk next rest = .ok location := by
  unfold advance
  rw [walk]
  cases hstart : tree.at? start with
  | none => simp
  | some entry =>
      cases entry with
      | file content => simp
      | directory =>
          by_cases hstay : segment = "" ∨ segment = "."
          · simp [hstay]
          · by_cases hup : segment = ".."
            · simp [hup]
            · by_cases hfits : nameFits segment = true
              · simp [hstay, hup, hfits]
              · simp [hstay, hup, hfits]

/-- Whatever is a directory stays one, and paths start where they started. -/
structure KeepsDirectories (tree later : FileTree) : Prop where
  workingDirectory_eq : later.workingDirectory = tree.workingDirectory
  directory : ∀ location,
    tree.at? location = some .directory → later.at? location = some .directory

theorem start_of_keepsDirectories (h : tree.KeepsDirectories later) (path : String) :
    later.start path = tree.start path := by
  rw [start, start, h.workingDirectory_eq]

theorem walk_of_keepsDirectories
    (hkeeps : tree.KeepsDirectories later) {start : Location} {segments : List String}
    (h : tree.walk start segments = .ok location) :
    later.walk start segments = .ok location := by
  induction segments generalizing start with
  | nil =>
      exact h
  | cons segment rest ih =>
      obtain ⟨hstart, next, hnext, hrest⟩ := walk_cons_eq_ok_iff.1 h
      exact walk_cons_eq_ok_iff.2 ⟨hkeeps.directory start hstart, next, hnext, ih hrest⟩

theorem walk_append_eq_ok
    {start middle : Location} {first second : List String}
    (hfirst : tree.walk start first = .ok middle)
    (hsecond : tree.walk middle second = .ok location) :
    tree.walk start (first ++ second) = .ok location := by
  induction first generalizing start with
  | nil =>
      cases hfirst
      exact hsecond
  | cons segment rest ih =>
      obtain ⟨hstart, next, hnext, hrest⟩ := walk_cons_eq_ok_iff.1 hfirst
      exact walk_cons_eq_ok_iff.2 ⟨hstart, next, hnext, ih hrest⟩

/-- Empty segments lead nowhere else. -/
theorem walk_of_silent
    {silent : List String} (hsilent : ∀ segment ∈ silent, segment = "")
    (h : silent ≠ [] → tree.at? location = some .directory) :
    tree.walk location silent = .ok location := by
  induction silent with
  | nil =>
      rfl
  | cons segment rest ih =>
      have hdirectory := h (by simp)
      rw [hsilent segment (by simp)]
      exact walk_cons_eq_ok_iff.2 ⟨hdirectory, location, rfl,
        ih (fun other hother => hsilent other (by simp [hother])) fun _ => hdirectory⟩

theorem locate_eq_ok_iff :
    tree.locate path = .ok location
      ↔
    checkPath path = .ok () ∧
      tree.walk (tree.start path) (Path.segments path) = .ok location := by
  rw [locate, Outcome.bind_eq_ok_iff]
  constructor
  · rintro ⟨_, hcheck, hwalk⟩
    exact ⟨hcheck, hwalk⟩
  · rintro ⟨hcheck, hwalk⟩
    exact ⟨(), hcheck, hwalk⟩

theorem locate_of_keepsDirectories
    (hkeeps : tree.KeepsDirectories later) (h : tree.locate path = .ok location) :
    later.locate path = .ok location := by
  obtain ⟨hcheck, hwalk⟩ := locate_eq_ok_iff.1 h
  rw [locate_eq_ok_iff, start_of_keepsDirectories hkeeps]
  exact ⟨hcheck, walk_of_keepsDirectories hkeeps hwalk⟩

end Walks

section Places

variable {parent : Location} {name : String} {content : ByteArray}

/-- A path that names something leads to the directory around it, and one step further
from there; behind the name there are empty segments at most. -/
theorem exists_segments_of_place (h : tree.place path = .ok (parent, some name)) :
    checkPath path = .ok () ∧
    ∃ before silent,
      Path.segments path = before ++ name :: silent ∧
      (∀ segment ∈ silent, segment = "") ∧
      tree.walk (tree.start path) before = .ok parent ∧
      tree.at? parent = some .directory ∧
      advance parent name = some (parent ++ [name]) := by
  obtain ⟨_, hcheck, h⟩ := Outcome.bind_eq_ok_iff.1 h
  refine ⟨hcheck, ?_⟩
  split at h
  · cases h
  · rename_i last before hlast
    obtain ⟨location, hwalk, h⟩ := Outcome.bind_eq_ok_iff.1 h
    split at h
    · cases h
    · cases h
    · rename_i hdirectory
      by_cases hdots : last = "." ∨ last = ".."
      · rw [if_pos hdots] at h
        cases h
      · rw [if_neg hdots] at h
        by_cases hfits : nameFits last = true
        · rw [if_pos hfits] at h
          cases h
          obtain ⟨hempty, silent, hsegments, hsilent⟩ :=
            Path.exists_silent_of_dropWhile hlast
          refine ⟨before.reverse, silent, hsegments, hsilent, hwalk, hdirectory, ?_⟩
          rw [not_or] at hdots
          simp [advance, hempty, hdots, hfits]
        · rw [if_neg hfits] at h
          cases h

/-- What a path names is where it leads to afterwards, if it names a directory, or if it
ends in the name. -/
theorem locate_of_place
    (h : tree.place path = .ok (parent, some name)) (hkeeps : tree.KeepsDirectories later)
    (hend : later.at? (parent ++ [name]) = some .directory ∨
      (Path.segments path).getLast? ≠ some "") :
    later.locate path = .ok (parent ++ [name]) := by
  obtain ⟨hcheck, before, silent, hsegments, hsilent, hwalk, hparent, hname⟩ :=
    exists_segments_of_place h
  have hrest : silent ≠ [] → later.at? (parent ++ [name]) = some .directory := by
    intro hne
    refine hend.resolve_right fun hlast => hlast ?_
    have hmem : silent.getLast hne = "" :=
      hsilent _ (List.getLast_mem hne)
    rw [hsegments, List.getLast?_append, List.getLast?_cons,
      List.getLast?_eq_some_getLast hne, hmem]
    rfl
  rw [locate_eq_ok_iff, start_of_keepsDirectories hkeeps, hsegments]
  refine ⟨hcheck, walk_append_eq_ok (walk_of_keepsDirectories hkeeps hwalk) ?_⟩
  exact walk_cons_eq_ok_iff.2
    ⟨hkeeps.directory parent hparent, parent ++ [name], hname,
      walk_of_silent hsilent hrest⟩

theorem keepsDirectories_insert {entry : FileEntry}
    (h : tree.at? location = some .directory → entry = .directory) :
    tree.KeepsDirectories (tree.insert location entry) := by
  refine ⟨rfl, fun other hother => ?_⟩
  by_cases hsame : location = other
  · subst hsame
    by_cases htop : location = []
    · rw [htop]
      rfl
    · rw [at?_insert_self htop, h hother]
  · rwa [at?_insert_of_ne hsame]

/-- A file that has been written stands where its path leads to, and no directory stood
there. -/
theorem exists_insert_of_write (h : tree.write path content = .ok later) :
    ∃ location,
      location ≠ [] ∧
      tree.at? location ≠ some .directory ∧
      later = tree.insert location (.file content) ∧
      later.locate path = .ok location := by
  obtain ⟨⟨parent, named⟩, hplace, h⟩ := Outcome.bind_eq_ok_iff.1 h
  cases named with
  | none => cases h
  | some name =>
      have hne : parent ++ [name] ≠ [] := by
        simp
      dsimp only at h
      by_cases hlast : (Path.segments path).getLast? = some ""
      · rw [hlast] at h
        cases h
      · rw [if_neg hlast] at h
        have hfree : tree.at? (parent ++ [name]) ≠ some .directory := by
          intro hdirectory
          rw [hdirectory] at h
          cases h
        have hlater : later = tree.insert (parent ++ [name]) (.file content) := by
          split at h
          · cases h
          · exact (Except.ok.inj h).symm
        refine ⟨parent ++ [name], hne, hfree, hlater, ?_⟩
        subst hlater
        exact locate_of_place hplace (keepsDirectories_insert fun hdirectory =>
          absurd hdirectory hfree) (Or.inr hlast)

/-- A directory that has been created stands where its path leads to, and nothing stood
there. -/
theorem exists_insert_of_createDirectory (h : tree.createDirectory path = .ok later) :
    ∃ location,
      location ≠ [] ∧
      tree.at? location = none ∧
      later = tree.insert location .directory ∧
      later.locate path = .ok location := by
  obtain ⟨⟨parent, named⟩, hplace, h⟩ := Outcome.bind_eq_ok_iff.1 h
  cases named with
  | none => cases h
  | some name =>
      have hne : parent ++ [name] ≠ [] := by
        simp
      dsimp only at h
      cases hfree : tree.at? (parent ++ [name]) with
      | some entry =>
          rw [hfree] at h
          cases h
      | none =>
          rw [hfree] at h
          cases h
          exact ⟨parent ++ [name], hne, hfree, rfl,
            locate_of_place hplace (keepsDirectories_insert fun _ => rfl)
              (Or.inl (at?_insert_self hne))⟩

end Places

/-- Nothing is lost or changed, and what is new is a directory that one of the given paths
leads to. -/
structure ExtendsBy (paths : List String) (tree later : FileTree) : Prop where
  workingDirectory_eq : later.workingDirectory = tree.workingDirectory
  kept : ∀ {location entry},
    tree.at? location = some entry → later.at? location = some entry
  added : ∀ {location entry},
    tree.at? location = none → later.at? location = some entry →
    entry = .directory ∧ ∃ path ∈ paths, later.locate path = .ok location

namespace ExtendsBy

variable {paths : List String}

theorem keepsDirectories (h : ExtendsBy paths tree later) : tree.KeepsDirectories later :=
  ⟨h.workingDirectory_eq, fun _ => h.kept⟩

theorem refl (paths : List String) (tree : FileTree) : ExtendsBy paths tree tree :=
  ⟨rfl, id, fun hnone hsome => absurd (hnone.symm.trans hsome) (by simp)⟩

theorem mono
    {others : List String} (h : ExtendsBy paths tree later) (hsubset : paths ⊆ others) :
    ExtendsBy others tree later := by
  refine ⟨h.workingDirectory_eq, h.kept, fun hnone hsome => ?_⟩
  obtain ⟨hdirectory, path, hmem, hlocate⟩ := h.added hnone hsome
  exact ⟨hdirectory, path, hsubset hmem, hlocate⟩

theorem trans
    {last : FileTree} (hfirst : ExtendsBy paths tree later)
    (hsecond : ExtendsBy paths later last) :
    ExtendsBy paths tree last := by
  refine ⟨hsecond.workingDirectory_eq.trans hfirst.workingDirectory_eq,
    fun h => hsecond.kept (hfirst.kept h), fun {location entry} hnone hsome => ?_⟩
  cases hlater : later.at? location with
  | none => exact hsecond.added hlater hsome
  | some other =>
      -- the entry came with the first step, and its path still leads there
      obtain ⟨rfl, path, hmem, hlocate⟩ := hfirst.added hnone hlater
      refine ⟨?_, path, hmem, locate_of_keepsDirectories hsecond.keepsDirectories hlocate⟩
      rw [hsecond.kept hlater] at hsome
      exact (Option.some.inj hsome).symm

end ExtendsBy

section Directories

theorem extendsBy_ensureDirectory (h : tree.ensureDirectory path = .ok later) :
    ExtendsBy [path] tree later := by
  unfold ensureDirectory at h
  split at h
  · rename_i extended hcreate
    cases h
    obtain ⟨location, hne, hfree, rfl, hlocate⟩ := exists_insert_of_createDirectory hcreate
    refine ⟨rfl, ?_, ?_⟩
    · intro other entry hother
      have hsame : location ≠ other := by
        rintro rfl
        cases hfree.symm.trans hother
      rwa [at?_insert_of_ne hsame]
    · intro other entry hnone hsome
      by_cases hsame : location = other
      · subst hsame
        rw [at?_insert_self hne] at hsome
        exact ⟨(Option.some.inj hsome).symm, path, by simp, hlocate⟩
      · rw [at?_insert_of_ne hsame, hnone] at hsome
        cases hsome
  · split at h
    · cases h
      exact .refl _ _
    · cases h

/-- Creating directories loses nothing, also where it fails half-way. -/
theorem extendsBy_createLineage (tree : FileTree) (paths : List String) :
    ExtendsBy paths tree (tree.createLineage paths).2 := by
  induction paths with
  | nil =>
      exact .refl _ _
  | cons path around ih =>
      have hpath : [path] ⊆ path :: around := by
        simp
      have haround : around ⊆ path :: around := by
        simp
      unfold createLineage
      split
      · rename_i extended hensure
        exact (extendsBy_ensureDirectory hensure).mono hpath
      · split
        · rename_i partly hlineage
          rw [hlineage] at ih
          exact ih.mono haround
        · rename_i extended hlineage
          rw [hlineage] at ih
          split
          · rename_i whole hensure
            exact (ih.mono haround).trans ((extendsBy_ensureDirectory hensure).mono hpath)
          · exact ih.mono haround
      · exact .refl _ _

theorem extendsBy_createDirectories
    {parent : String} (h : Path.parent? path = some parent) (hne : parent ≠ "") :
    ExtendsBy (Path.ancestors path) tree (tree.createDirectories parent).2 := by
  rw [createDirectories, Path.lineage_parent h hne]
  exact extendsBy_createLineage tree _

end Directories

section Contents

variable {content : ByteArray} {text : String}

/-- A file is written behind the directories around it.  Only its own location can lose what
was there. -/
theorem exists_location_of_write
    {paths : List String} {housed : FileTree} (hextends : ExtendsBy paths tree housed)
    (hwrite : housed.write path content = .ok later) :
    later.workingDirectory = tree.workingDirectory ∧
    ∃ location,
      later.locate path = .ok location ∧
      tree.at? location ≠ some .directory ∧
      later.at? location = some (.file content) ∧
      ∀ other, other ≠ location →
        (∀ entry, tree.at? other = some entry → later.at? other = some entry) ∧
        ∀ entry, tree.at? other = none → later.at? other = some entry →
          entry = .directory ∧ ∃ path ∈ paths, later.locate path = .ok other := by
  obtain ⟨location, hne, hfree, rfl, hlocate⟩ := exists_insert_of_write hwrite
  refine ⟨hextends.workingDirectory_eq, location, hlocate,
    fun hdirectory => hfree (hextends.kept hdirectory), at?_insert_self hne,
    fun other hother => ?_⟩
  rw [at?_insert_of_ne (Ne.symm hother)]
  refine ⟨fun entry => hextends.kept, fun entry hnone hsome => ?_⟩
  obtain ⟨rfl, around, hmem, hothers⟩ := hextends.added hnone hsome
  have hkeeps : housed.KeepsDirectories (housed.insert location (.file content)) :=
    keepsDirectories_insert fun hdirectory => absurd hdirectory hfree
  exact ⟨rfl, around, hmem, locate_of_keepsDirectories hkeeps hothers⟩

theorem read_of_write (h : tree.write path content = .ok later) :
    later.read path = .ok content := by
  obtain ⟨location, hne, _, rfl, hlocate⟩ := exists_insert_of_write h
  rw [read, hlocate, Outcome.ok_bind, at?_insert_self hne]
  rfl

/-- A text that has been written is read again. -/
theorem readText_of_write (h : tree.write path text.toUTF8 = .ok later) :
    later.readText path = .ok text := by
  have htext : String.fromUTF8? text.toUTF8 = some text := by
    have hvalid : text.toUTF8.IsValidUTF8 :=
      text.isValidUTF8
    rw [String.fromUTF8?, dif_pos hvalid]
    rfl
  rw [readText, read_of_write h, Outcome.ok_bind, htext]
  rfl

end Contents

end FileTree

end InteropHeader
