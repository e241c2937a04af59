import InteropHeader.Proofs.Manifest.Plan

/-!
# Names in the import section of a manifest

Input:
  a manifest that has been resolved, and the bridging header, if there is one.

Results:
  * `Imports.pieces_name`: cut at its dots, a printed name is the full name again, for no
    segment holds a dot;
  * `exists_importSection_distinct`: no name is imported twice, and the module is not
    imported by itself.
-/

namespace InteropHeader

theorem ImportStatement.line_eq_iff {first second : ImportStatement} :
    first.line = second.line ↔ first.name = second.name := by
  simp [ImportStatement.line]

namespace Manifest

variable {manifest : Manifest} {resolved : ResolvedManifest}

section Distinctness

variable {header : Option String} {target : ImportTarget}

/-- What is imported has a full name, and a dot only stands between its segments. -/
theorem Imports.pieces_name
    (hvalid : manifest.IsValid) (h : manifest.Imports header target) :
    Text.pieces '.' target.statement.name = target.segments := by
  cases target with
  | host name =>
      obtain ⟨_, entry, hentry, rfl, _⟩ := h
      have hdot := (hvalid.entries entry (List.mem_cons_of_mem _ hentry)).dot_notMem_name
      have hjoin : Text.join '.' [entry.name] = entry.name := by
        simp [Text.join, Text.glue]
      show Text.pieces '.' entry.name = [entry.name]
      rw [← hjoin, Text.pieces_join (by simp) (by simpa using hdot), hjoin]
  | foreign path =>
      obtain ⟨use, _, _, rfl⟩ := h
      show Text.pieces '.' (Text.join '.' (Text.pieces '.' use)) = Text.pieces '.' use
      rw [Text.join_pieces]

/-- An import of a foreign module can be told from one of a host module by its name. -/
theorem Imports.dot_mem_name_iff
    (hvalid : manifest.IsValid) (h : manifest.Imports header target) :
    '.' ∈ target.statement.name.toList ↔ target.statement.origin = .foreign := by
  cases target with
  | host name =>
      obtain ⟨_, entry, hentry, rfl, _⟩ := h
      have hdot := (hvalid.entries entry (List.mem_cons_of_mem _ hentry)).dot_notMem_name
      simp [ImportTarget.statement, hdot]
  | foreign path =>
      obtain ⟨use, _, hdot, rfl⟩ := h
      simp [ImportTarget.statement, Text.join_pieces, hdot]

/-- Nothing is imported under the name of the main module. -/
theorem Imports.name_ne_main
    (hvalid : manifest.IsValid) (h : manifest.Imports header target) :
    target.statement.name ≠ manifest.main.name := by
  cases target with
  | host name =>
      exact h.1
  | foreign path =>
      intro heq
      have hmain : manifest.main.IsValid :=
        hvalid.entries manifest.main (by simp [entries])
      exact hmain.dot_notMem_name (heq ▸ (h.dot_mem_name_iff hvalid).2 rfl)

end Distinctness

/-- **No name is imported twice, and the module does not import itself.**  The main module
of a resolved manifest has an import section; the names in it differ from each other,
whichever module system they belong to, and from the name of the main module, and a name
has a dot exactly if it is that of a foreign module. -/
theorem exists_importSection_distinct
    (h : manifest.resolve = .ok resolved) (bridging : Option String) :
    ∃ imports,
      resolved.table.importSection ModuleTable.main bridging = .ok imports ∧
      (imports.statements.map ImportStatement.name).Nodup ∧
      (imports.statements.map ImportStatement.line).Nodup ∧
      ∀ statement ∈ imports.statements,
        statement.name ≠ manifest.main.name ∧
        ('.' ∈ statement.name.toList ↔ statement.origin = .foreign) := by
  have hvalid := isValid_of_resolve h
  obtain ⟨imports, himports, hplan⟩ := exists_isPlan_of_resolve h bridging
  obtain ⟨targets, hstatements, hincreasing, htargets⟩ := hplan.statements_eq
  have hnames : (imports.statements.map ImportStatement.name).Nodup := by
    rw [hstatements, List.map_map, List.Nodup, List.pairwise_map]
    refine hincreasing.imp_of_mem fun {a b} ha hb hlt heq => ?_
    have hsegments : a.segments = b.segments := by
      rw [← ((htargets a).1 ha).pieces_name hvalid,
        ← ((htargets b).1 hb).pieces_name hvalid]
      exact congrArg (Text.pieces '.') heq
    exact List.lt_irrefl _ (hsegments ▸ hlt)
  have hlines : (imports.statements.map ImportStatement.line).Nodup := by
    rw [List.Nodup, List.pairwise_map] at hnames ⊢
    exact hnames.imp fun hne heq => hne (ImportStatement.line_eq_iff.1 heq)
  refine ⟨imports, himports, hnames, hlines, fun statement hmem => ?_⟩
  rw [hstatements, List.mem_map] at hmem
  obtain ⟨target, htarget, rfl⟩ := hmem
  have himported := (htargets target).1 htarget
  exact ⟨himported.name_ne_main hvalid, himported.dot_mem_name_iff hvalid⟩

/-- A manifest with two modules named `Bar`, another one named as the main module, and
foreign modules that lie inside each other and below `Bar`. -/
def overlaid : Manifest where
  main := { name := "Foo" }
  modules := [
    { name := "Bar" },
    { name := "Bar", id := some "bar-overlay" },
    { name := "Foo", id := some "foo-clang" }]
  objc := [
    { text := "@class A;", uses := ["bar-overlay", "Baz.Sub.Deep", "foo-clang", "Bar"] },
    { text := "@class B;", uses := ["Baz.Sub", "Bar.Sub", "Foo", "Baz.Sub"] }]

/-- The names in the import section of `overlaid` with an empty bridging header. -/
theorem overlaid_importSection_distinct :
    ∃ resolved,
      overlaid.resolve = .ok resolved ∧
      ∃ imports,
        resolved.table.importSection ModuleTable.main (some "") = .ok imports ∧
        (imports.statements.map ImportStatement.name).Nodup ∧
        (imports.statements.map ImportStatement.line).Nodup ∧
        ∀ statement ∈ imports.statements,
          statement.name ≠ "Foo" ∧
          ('.' ∈ statement.name.toList ↔ statement.origin = .foreign) := by
  obtain ⟨resolved, h⟩ : ∃ resolved, overlaid.resolve = .ok resolved :=
    exists_resolve_of_kept (by decide)
  exact ⟨resolved, h, exists_importSection_distinct h (some "")⟩

end Manifest

end InteropHeader
