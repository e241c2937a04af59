import InteropHeader.Module.Table
import InteropHeader.Proofs.Module.ForeignTree
import InteropHeader.Proofs.Outcome

/-!
# Histories of a table of modules

Input:
  the main module of a table, and the changes made to the table since then: modules
  added and edited, foreign full names interned, the module that stands for the bridging
  header and the toolchain named.

Algorithm:
  changes are made one after another; editing a module that is not there ends the
  history.  Only interning touches the foreign modules, and it keeps all of them in
  their places.

Results:
  * `TableChange.agreesOn_of_not_names`: a change leaves alone what it does not name;
  * `noTwins_of_history`: no history makes two foreign modules with the same parent and
    name;
  * `keepsPaths_of_history`: a handle of a foreign module denotes one full name for
    ever, and a full name belongs to one handle.
-/

namespace InteropHeader

/-- A change to a table of modules. -/
inductive TableChange
  | add (m : HostModule)
  | edit (handle : HostHandle) (change : HostModule → HostModule)
  | intern (path : List String)
  | nameImportedHeader (handle : Option HostHandle)
  | nameToolchain (version : Option String)

/-- A part of a table that a change may name. -/
inductive TablePart
  /-- What stands at a position among the host modules, if anything does. -/
  | host (handle : HostHandle)
  | foreigns
  | importedHeader
  | toolchain
  deriving DecidableEq, Repr

namespace ModuleTable

/-- Whether a later table has the same part. -/
def AgreesOn (table later : ModuleTable) : TablePart → Prop
  | .host handle => later.hosts[handle.index]? = table.hosts[handle.index]?
  | .foreigns => later.foreigns = table.foreigns
  | .importedHeader => later.importedHeader = table.importedHeader
  | .toolchain => later.namedToolchain = table.namedToolchain

end ModuleTable

namespace TableChange

/-- The table after a change. -/
def apply (table : ModuleTable) : TableChange → Except Fault ModuleTable
  | add m => .ok (table.add m).1
  | edit handle change => table.edit handle change
  | intern path => .ok (table.intern path).1
  | nameImportedHeader handle => .ok (table.withImportedHeader handle)
  | nameToolchain version => .ok (table.withToolchain version)

/-- The part of a table that a change is about; a module is added behind all others. -/
def Names (table : ModuleTable) : TableChange → TablePart → Prop
  | add _, part => part = .host ⟨table.hosts.size⟩
  | edit handle _, part => part = .host handle
  | intern _, part => part = .foreigns
  | nameImportedHeader _, part => part = .importedHeader
  | nameToolchain _, part => part = .toolchain

variable {table later : ModuleTable} {change : TableChange}

theorem agreesOn_edit
    {handle : HostHandle} {f : HostModule → HostModule}
    (h : table.edit handle f = .ok later) {part : TablePart} (hpart : part ≠ .host handle) :
    table.AgreesOn later part := by
  unfold ModuleTable.edit at h
  split at h
  · cases h
    cases part with
    | host other =>
        have hindex : handle.index ≠ other.index := by
          rintro heq
          cases handle
          cases other
          cases heq
          exact hpart rfl
        exact Array.getElem?_setIfInBounds_ne hindex
    | foreigns => rfl
    | importedHeader => rfl
    | toolchain => rfl
  · cases h

/-- A change leaves alone what it does not name. -/
theorem agreesOn_of_not_names
    (h : change.apply table = .ok later) {part : TablePart}
    (hpart : ¬ change.Names table part) :
    table.AgreesOn later part := by
  cases change with
  | edit handle f =>
      exact agreesOn_edit h hpart
  | add m =>
      cases h
      cases part with
      | host other =>
          have hindex : other.index ≠ table.hosts.size := by
            rintro heq
            cases other
            cases heq
            exact hpart rfl
          simp [ModuleTable.AgreesOn, ModuleTable.add, Array.getElem?_push, hindex]
      | foreigns => rfl
      | importedHeader => rfl
      | toolchain => rfl
  | intern path =>
      cases h
      cases part with
      | foreigns => exact absurd rfl hpart
      | host other => rfl
      | importedHeader => rfl
      | toolchain => rfl
  | nameImportedHeader handle =>
      cases h
      cases part with
      | importedHeader => exact absurd rfl hpart
      | host other => rfl
      | foreigns => rfl
      | toolchain => rfl
  | nameToolchain version =>
      cases h
      cases part with
      | toolchain => exact absurd rfl hpart
      | host other => rfl
      | foreigns => rfl
      | importedHeader => rfl

/-- What a change does to the foreign modules: interning apart, nothing. -/
theorem foreigns_cases (h : change.apply table = .ok later) :
    later.foreigns = table.foreigns ∨
    ∃ path, change = .intern path ∧ later.foreigns = (table.foreigns.intern path).1 := by
  by_cases hnames : change.Names table .foreigns
  · cases change with
    | intern path =>
        cases h
        exact Or.inr ⟨path, rfl, rfl⟩
    | add m => cases hnames
    | edit handle f => cases hnames
    | nameImportedHeader handle => cases hnames
    | nameToolchain version => cases hnames
  · exact Or.inl (agreesOn_of_not_names h hnames)

theorem foreigns_extends (h : change.apply table = .ok later) :
    later.foreigns.Extends table.foreigns := by
  rcases foreigns_cases h with heq | ⟨path, _, heq⟩
  · rw [heq]
    exact ForeignTree.Extends.refl _
  · rw [heq]
    exact table.foreigns.intern_extends path

theorem foreigns_noTwins
    (h : change.apply table = .ok later) (htwins : table.foreigns.NoTwins) :
    later.foreigns.NoTwins := by
  rcases foreigns_cases h with heq | ⟨path, _, heq⟩
  · rw [heq]
    exact htwins
  · rw [heq]
    exact htwins.intern path

end TableChange

namespace ModuleTable

variable {table later : ModuleTable} {changes : List TableChange}

/-- The table after changes in order. -/
def applyAll (table : ModuleTable) (changes : List TableChange) :
    Except Fault ModuleTable :=
  changes.foldlM TableChange.apply table

theorem applyAll_cons_eq_ok_iff {change : TableChange} :
    table.applyAll (change :: changes) = .ok later
      ↔
    ∃ next, change.apply table = .ok next ∧ next.applyAll changes = .ok later := by
  rw [applyAll, List.foldlM_cons]
  exact Outcome.bind_eq_ok_iff

/-- What every change keeps, a history keeps. -/
theorem applyAll_of_step
    {P : ModuleTable → Prop}
    (hstep : ∀ change now next, TableChange.apply now change = .ok next → P now → P next)
    (h : table.applyAll changes = .ok later) (hstart : P table) :
    P later := by
  induction changes generalizing table with
  | nil =>
      cases h
      exact hstart
  | cons change rest ih =>
      obtain ⟨next, hnext, hrest⟩ := applyAll_cons_eq_ok_iff.1 h
      exact ih hrest (hstep change table next hnext hstart)

/-- Along a history the foreign modules keep their places. -/
theorem applyAll_extends (h : table.applyAll changes = .ok later) :
    later.foreigns.Extends table.foreigns :=
  applyAll_of_step (P := fun now => now.foreigns.Extends table.foreigns)
    (fun _ _ _ hnext hnow => (TableChange.foreigns_extends hnext).trans hnow)
    h (ForeignTree.Extends.refl _)

/-- No history of a table makes twins. -/
theorem noTwins_of_history
    {main : HostModule} (h : (ofMain main).applyAll changes = .ok table) :
    table.foreigns.NoTwins :=
  applyAll_of_step (P := fun now => now.foreigns.NoTwins)
    (fun _ _ _ hnext => TableChange.foreigns_noTwins hnext) h ForeignTree.noTwins_empty

/-- A table in which handles of foreign modules and full names belong to each other, and
whose changes do not touch what they do not name. -/
structure KeepsPaths (table : ModuleTable) : Prop where
  /-- A parent has a smaller handle than its child. -/
  parent_lt : ∀ handle m parent, table.foreigns.lookup handle = .ok m →
    m.parent = some parent → parent.index < handle.index
  /-- The walk from a module to its root ends, and it meets the full name. -/
  exists_walk : ∀ handle, handle.index < table.foreigns.size →
    ∃ path, table.foreigns.Walk handle path ∧ table.foreigns.path handle = .ok path
  path_intern : ∀ path, path ≠ [] → ∃ handle, (table.intern path).2 = some handle ∧
    (table.intern path).1.foreigns.path handle = .ok path
  path_eq_iff : ∀ first second, first.index < table.foreigns.size →
    second.index < table.foreigns.size →
    (table.foreigns.path first = table.foreigns.path second ↔ first = second)
  /-- Interning the full name of a module finds the module and changes nothing. -/
  intern_path : ∀ handle path, table.foreigns.path handle = .ok path →
    table.intern path = (table, some handle)
  intern_nil : table.intern [] = (table, none)
  /-- A change leaves alone what it does not name. -/
  agreesOn : ∀ change later, TableChange.apply table change = .ok later →
    ∀ part, ¬ change.Names table part → table.AgreesOn later part
  /-- Whatever happens later, a handle keeps its full name. -/
  path_forever : ∀ changes later, table.applyAll changes = .ok later →
    ∀ handle path, table.foreigns.path handle = .ok path →
      later.foreigns.path handle = .ok path

/-- **A handle of a foreign module denotes one full name for ever.**  This holds in every
table that a history of changes leads to, whatever modules have been added and edited and
whatever full names interned. -/
theorem keepsPaths_of_history
    {main : HostModule} (h : (ofMain main).applyAll changes = .ok table) :
    table.KeepsPaths := by
  have htwins := noTwins_of_history h
  refine {
    parent_lt := ?_
    exists_walk := ?_
    path_intern := ?_
    path_eq_iff := ?_
    intern_path := ?_
    intern_nil := rfl
    agreesOn := fun _ _ hchange _ => TableChange.agreesOn_of_not_names hchange
    path_forever := fun _ _ hlater _ _ hpath => (applyAll_extends hlater).path_eq hpath }
  · intro handle m parent hm hparent
    obtain ⟨hlt, rfl⟩ := ForeignTree.lookup_eq_ok_iff.1 hm
    exact table.foreigns.parent_lt handle.index hlt parent hparent
  · intro handle hlt
    exact ⟨_, table.foreigns.walk_pathAt handle.index hlt,
      ForeignTree.path_eq_ok_iff.2 ⟨hlt, rfl⟩⟩
  · intro path hne
    obtain ⟨handle, hhandle⟩ := table.foreigns.exists_handle_of_ne_nil hne
    exact ⟨handle, hhandle, ForeignTree.path_intern hhandle⟩
  · intro first second hfirst hsecond
    have hpath := ForeignTree.path_eq_ok_iff.2 ⟨hsecond, rfl⟩
    constructor
    · intro heq
      exact htwins.path_injective (heq.trans hpath) hpath
    · rintro rfl
      rfl
  · intro handle path hpath
    have hintern := htwins.intern_path hpath
    simp [intern, hintern]

/-- Changes with empty and dotted segments, a module renamed, and a full name interned
twice. -/
def eventful : List TableChange := [
  .intern ["Baz", "Sub"],
  .add { name := "Foo" },
  .intern ["Baz", "", "a.b"],
  .edit ⟨1⟩ fun m => { m with name := "Bar" },
  .nameImportedHeader (some ⟨7⟩),
  .intern ["Baz", "Sub"],
  .intern [],
  .nameToolchain (some "Test toolchain 1.0")]

/-- The table that `eventful` leads to has four foreign modules. -/
theorem eventful_keepsPaths :
    ∃ table, (ofMain { name := "Foo" }).applyAll eventful = .ok table ∧
      table.foreigns.size = 4 ∧ table.KeepsPaths := by
  have hends : ∃ table, (ofMain { name := "Foo" }).applyAll eventful = .ok table ∧
      table.foreigns.size = 4 :=
    ⟨_, rfl, by decide +kernel⟩
  obtain ⟨table, h, hsize⟩ := hends
  exact ⟨table, h, hsize, keepsPaths_of_history h⟩

end ModuleTable

end InteropHeader
