import InteropHeader.Proofs.Header.Layout
import InteropHeader.Proofs.Manifest.Plan

/-!
# Printable names

Input:
  a manifest that has been resolved, and the bridging header, if there is one.

Algorithm:
  the name of a host module is checked to be an identifier; a use with a dot is cut at its
  dots, and its segments are only checked not to be empty.  Both are printed as they stand.

Results:
  * `isDottedName_iff`: what identifiers with single dots between them are;
  * `oneLineEach_iff`: when every import statement takes up one line of the import section;
  * `forall_statement_iff`: what has to be known about the uses for all names to have a
    property that identifiers have;
  * `exists_importSection_printable_iff`: which manifests lead to printable names only;
  * `injected_importSection`: there are resolved manifests that do not.
-/

namespace InteropHeader

namespace Text

/-- Whether a text is made of identifiers with single dots between them. -/
def isDottedName (text : String) : Bool :=
  (pieces '.' text).all isName

theorem isDottedName_iff {text : String} :
    isDottedName text = true
      ↔
    ∃ parts, parts ≠ [] ∧ (∀ part ∈ parts, isName part = true) ∧ text = join '.' parts := by
  constructor
  · intro h
    refine ⟨pieces '.' text, ?_, List.all_eq_true.1 h, (join_pieces '.' text).symm⟩
    simpa [pieces] using cut_ne_nil '.' text.toList
  · rintro ⟨parts, hne, hnames, rfl⟩
    have hdots : ∀ part ∈ parts, '.' ∉ part.toList :=
      fun part hpart => not_mem_of_isName (hnames part hpart) continuesName_dot
    rw [isDottedName, pieces_join hne hdots]
    exact List.all_eq_true.2 hnames

/-- An identifier is a name without dots. -/
theorem isDottedName_of_isName {text : String} (h : isName text = true) :
    isDottedName text = true :=
  isDottedName_iff.2 ⟨[text], by simp, by simpa using h, by simp [join, glue]⟩

/-- Whatever joined pieces hold, they hold one by one, or it separates them. -/
theorem mem_glue
    {separator c : Char} {pieces : List (List Char)} (h : c ∈ glue separator pieces) :
    c = separator ∨ ∃ piece ∈ pieces, c ∈ piece := by
  induction pieces with
  | nil =>
      cases h
  | cons piece rest ih =>
      cases rest with
      | nil =>
          exact Or.inr ⟨piece, by simp, h⟩
      | cons next others =>
          simp only [glue, List.mem_append, List.mem_cons] at h
          rcases h with hpiece | hseparator | hrest
          · exact Or.inr ⟨piece, by simp, hpiece⟩
          · exact Or.inl hseparator
          · rcases ih hrest with hseparator | ⟨other, hother, hc⟩
            · exact Or.inl hseparator
            · exact Or.inr ⟨other, List.mem_cons_of_mem _ hother, hc⟩

theorem newline_notMem_of_isDottedName {text : String} (h : isDottedName text = true) :
    '\n' ∉ text.toList := by
  intro hmem
  rw [← join_pieces '.' text, join, String.toList_ofList] at hmem
  rcases mem_glue hmem with hdot | ⟨characters, hcharacters, hnewline⟩
  · exact absurd hdot (by decide)
  · obtain ⟨part, hpart, rfl⟩ := List.mem_map.1 hcharacters
    exact not_mem_of_isName (List.all_eq_true.1 h part hpart) continuesName_newline hnewline

end Text

namespace ImportSection

variable {imports : ImportSection}

/-- The lines of an import section in front of its import statements. -/
def frontLines : List String := [
  "#if __has_feature(modules)",
  "#if __has_warning(\"-Watimport-in-framework-header\")",
  Header.importPragma,
  "#endif"]

/-- What follows the import statements of an import section. -/
def back (imports : ImportSection) : String :=
  "#endif\n" ++ "\n" ++
    match imports.ownHeader with
    | none => ""
    | some header => header.line ++ "\n" ++ "\n"

theorem render_eq_around_statements (imports : ImportSection) :
    imports.render =
      Text.ofLines frontLines ++
        (Text.ofLines (imports.statements.map ImportStatement.line) ++ imports.back) := by
  have hfront : Text.ofLines frontLines =
      "#if " ++ "__has_feature(modules)" ++ "\n" ++
        ("#if " ++ "__has_warning(\"-Watimport-in-framework-header\")" ++ "\n" ++
          Text.ofLines [Header.importPragma] ++ "#endif\n") := by
    simp [frontLines, Text.ofLines, Header.importPragma]
  simp only [render, block, Block.all, Block.render_append, Block.render, Block.lines,
    Block.empty, hfront, back, String.append_empty, String.append_assoc, Header.importPragma]
  cases imports.ownHeader <;> simp [Block.render, Text.ofLines, String.append_assoc]

/-- Every import statement is one line of the import section, in order, behind the lines
that open it. -/
def OneLineEach (imports : ImportSection) : Prop :=
  Text.lines imports.render =
    frontLines ++ imports.statements.map ImportStatement.line ++ Text.lines imports.back

/-- The names decide whether the import statements are lines. -/
theorem oneLineEach_iff :
    imports.OneLineEach ↔ ∀ statement ∈ imports.statements, '\n' ∉ statement.name.toList := by
  constructor
  · intro h statement hmem hnewline
    have hline : statement.line ∈ Text.lines imports.render := by
      rw [h]
      exact List.mem_append_left _ (List.mem_append_right _ (List.mem_map_of_mem hmem))
    refine Text.newline_notMem_of_mem_lines hline ?_
    simp [ImportStatement.line, hnewline]
  · intro h
    have hfront : ∀ line ∈ frontLines, '\n' ∉ line.toList := by
      decide
    have hstatements :
        ∀ line ∈ imports.statements.map ImportStatement.line, '\n' ∉ line.toList :=
      fun line hline => (Header.plainLines_statements h line hline).1
    rw [OneLineEach, render_eq_around_statements,
      Text.lines_append (Text.terminated_ofLines _), Text.lines_ofLines hfront,
      Text.lines_append (Text.terminated_ofLines _), Text.lines_ofLines hstatements,
      List.append_assoc]

end ImportSection

namespace Manifest

variable {manifest : Manifest} {resolved : ResolvedManifest}
variable {header : Option String} {imports : ImportSection}

/-- Exactly the dotted uses of Objective-C declarations are imported as foreign modules. -/
theorem IsPlan.foreign_mem_statements_iff
    (h : manifest.IsPlan header imports) {name : String} :
    ⟨name, .foreign⟩ ∈ imports.statements ↔ manifest.Mentions name ∧ '.' ∈ name.toList := by
  obtain ⟨targets, hstatements, _, htargets⟩ := h.statements_eq
  rw [hstatements, List.mem_map]
  constructor
  · rintro ⟨target, htarget, hname⟩
    cases target with
    | host other => cases hname
    | foreign path =>
        obtain ⟨use, hmentions, hdot, rfl⟩ := (htargets _).1 htarget
        rw [ImportTarget.statement, Text.join_pieces] at hname
        cases hname
        exact ⟨hmentions, hdot⟩
  · rintro ⟨hmentions, hdot⟩
    refine ⟨.foreign (Text.pieces '.' name), (htargets _).2 ⟨name, hmentions, hdot, rfl⟩, ?_⟩
    rw [ImportTarget.statement, Text.join_pieces]

/-- Host modules are imported under names that have been checked. -/
theorem IsPlan.isName_of_host
    (hvalid : manifest.IsValid) (h : manifest.IsPlan header imports) {name : String}
    (hmem : ⟨name, .host⟩ ∈ imports.statements) :
    Text.isName name = true := by
  obtain ⟨targets, hstatements, _, htargets⟩ := h.statements_eq
  rw [hstatements, List.mem_map] at hmem
  obtain ⟨target, htarget, hname⟩ := hmem
  cases target with
  | foreign path => cases hname
  | host other =>
      cases hname
      obtain ⟨_, entry, hentry, rfl, _⟩ := (htargets _).1 htarget
      exact (hvalid.entries entry (List.mem_cons_of_mem _ hentry)).name

/-- What holds of identifiers holds of all imported names if it holds of the dotted uses. -/
theorem IsPlan.forall_statement_iff
    (hvalid : manifest.IsValid) (h : manifest.IsPlan header imports) {P : String → Prop}
    (hP : ∀ name, Text.isName name = true → P name) :
    (∀ statement ∈ imports.statements, P statement.name)
      ↔
    ∀ use, manifest.Mentions use → '.' ∈ use.toList → P use := by
  constructor
  · intro hnames use hmentions hdot
    exact hnames ⟨use, .foreign⟩ (h.foreign_mem_statements_iff.2 ⟨hmentions, hdot⟩)
  · rintro huses ⟨name, origin⟩ hmem
    cases origin with
    | host => exact hP name (h.isName_of_host hvalid hmem)
    | foreign =>
        obtain ⟨hmentions, hdot⟩ := h.foreign_mem_statements_iff.1 hmem
        exact huses name hmentions hdot

/-- **Which imports are printable.**  The main module of a resolved manifest has an import
section.  Host modules are imported under identifiers, and foreign modules under the dotted
uses of Objective-C declarations, which have two segments at least and no empty one.
All names are made of identifiers with single dots between them exactly if these uses are;
and every import statement takes up one line exactly if no such use holds a line feed,
for which it is enough that they are made of identifiers. -/
theorem exists_importSection_printable_iff
    (h : manifest.resolve = .ok resolved) (bridging : Option String) :
    ∃ imports,
      resolved.table.importSection ModuleTable.main bridging = .ok imports ∧
      (∀ statement ∈ imports.statements,
        match statement.origin with
        | .host => Text.isName statement.name = true
        | .foreign =>
            2 ≤ (Text.pieces '.' statement.name).length ∧
              "" ∉ Text.pieces '.' statement.name) ∧
      ((∀ statement ∈ imports.statements, Text.isDottedName statement.name = true)
        ↔
      ∀ use, manifest.Mentions use → '.' ∈ use.toList → Text.isDottedName use = true) ∧
      (imports.OneLineEach
        ↔
      ∀ use, manifest.Mentions use → '.' ∈ use.toList → '\n' ∉ use.toList) ∧
      ((∀ statement ∈ imports.statements, Text.isDottedName statement.name = true) →
        imports.OneLineEach) := by
  have hvalid := isValid_of_resolve h
  obtain ⟨imports, himports, hplan⟩ := exists_isPlan_of_resolve h bridging
  refine ⟨imports, himports, ?_, ?_, ?_, ?_⟩
  · rintro ⟨name, origin⟩ hmem
    cases origin with
    | host => exact hplan.isName_of_host hvalid hmem
    | foreign =>
        obtain ⟨⟨entry, hentry, huse⟩, hdot⟩ := hplan.foreign_mem_statements_iff.1 hmem
        have hnames := hvalid.uses .objc entry hentry name huse
        rw [Names, if_pos hdot] at hnames
        exact ⟨Text.two_le_length_pieces hdot, hnames⟩
  · exact hplan.forall_statement_iff hvalid fun _ => Text.isDottedName_of_isName
  · rw [ImportSection.oneLineEach_iff]
    exact hplan.forall_statement_iff hvalid fun _ hname =>
      Text.not_mem_of_isName hname Text.continuesName_newline
  · exact fun hnames => ImportSection.oneLineEach_iff.2 fun statement hmem =>
      Text.newline_notMem_of_isDottedName (hnames statement hmem)

/-- A manifest that mentions host modules, one of them by a key that is no identifier, and
foreign modules. -/
def dotted : Manifest where
  main := { name := "Foo" }
  modules := [{ name := "Bar" }, { name := "_Baz2", id := some "not\nprinted" }]
  objc := [
    { text := "@class A;", uses := ["Bar", "not\nprinted"] },
    { text := "@class B;", uses := ["Bar.Sub", "_Qux.Sub.Deep_1"] }]

/-- All names in the import section of `dotted` are printable. -/
theorem dotted_importSection_printable :
    ∃ resolved imports,
      dotted.resolve = .ok resolved ∧
      resolved.table.importSection ModuleTable.main (some "Foo-Bridging.h") = .ok imports ∧
      (∀ statement ∈ imports.statements, Text.isDottedName statement.name = true) ∧
      imports.OneLineEach := by
  obtain ⟨resolved, h⟩ : ∃ resolved, dotted.resolve = .ok resolved :=
    exists_resolve_of_kept (by decide)
  have huses : ∀ use, dotted.Mentions use → '.' ∈ use.toList →
      Text.isDottedName use = true := by
    rintro use ⟨entry, hentry, huse⟩
    have hall : ∀ entry ∈ dotted.objc, ∀ use ∈ entry.uses, '.' ∈ use.toList →
        Text.isDottedName use = true := by
      decide
    exact hall entry hentry use huse
  obtain ⟨imports, himports, _, hnames, _, hlines⟩ :=
    exists_importSection_printable_iff h (some "Foo-Bridging.h")
  exact ⟨resolved, imports, h, himports, hnames.2 huses, hlines (hnames.2 huses)⟩

/-- A manifest with a use that breaks the line it is printed into. -/
def injected : Manifest where
  main := { name := "Foo" }
  objc := [{ text := "@class A;", uses := ["Baz.Sub\nint x"] }]

/-- It is resolved nevertheless: there is an import statement whose name is not made of
identifiers, and which is more than one line. -/
theorem injected_importSection :
    ∃ resolved imports,
      injected.resolve = .ok resolved ∧
      resolved.table.importSection ModuleTable.main none = .ok imports ∧
      ⟨"Baz.Sub\nint x", .foreign⟩ ∈ imports.statements ∧
      Text.isDottedName "Baz.Sub\nint x" = false ∧
      ¬ imports.OneLineEach := by
  obtain ⟨resolved, h⟩ : ∃ resolved, injected.resolve = .ok resolved :=
    exists_resolve_of_kept (by decide)
  obtain ⟨imports, himports, hplan⟩ := exists_isPlan_of_resolve h none
  have hmem : ⟨"Baz.Sub\nint x", .foreign⟩ ∈ imports.statements :=
    hplan.foreign_mem_statements_iff.2 ⟨⟨_, List.mem_singleton_self _, by decide⟩, by decide⟩
  refine ⟨resolved, imports, h, himports, hmem, by decide, fun hlines => ?_⟩
  exact ImportSection.oneLineEach_iff.1 hlines _ hmem (by decide)

end Manifest

end InteropHeader
