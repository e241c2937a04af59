import InteropHeader.Command.Run
import InteropHeader.Proofs.Json.Value
import InteropHeader.Proofs.Manifest.Printable

/-!
# Import sections from their texts

Input:
  sections of imports, printed in one of the two formats.

Algorithm:
  in JSON, every text is quoted and the kind of an import is written next to its name.  The
  text format has no kinds: a line between the opening lines and the first line that closes
  a conditional is an import, of a foreign module if its name has a dot; a line behind them
  is the include of the module's own header.

Results:
  * `ImportSection.toJson_inj`: different import sections are different JSON values;
  * `ImportSection.render_inj`: legible import sections have different texts;
  * `printSection_lossless`: both formats tell all import sections of resolved manifests
    apart, the text format those without broken lines.
-/

namespace InteropHeader

section Json

theorem ImportStatement.toJson_inj {first second : ImportStatement} :
    first.toJson = second.toJson ↔ first = second := by
  obtain ⟨name, origin⟩ := first
  obtain ⟨other, otherOrigin⟩ := second
  cases origin <;> cases otherOrigin <;> simp [toJson, ImportOrigin.label]

theorem OwnHeader.toJson_inj {first second : OwnHeader} :
    first.toJson = second.toJson ↔ first = second := by
  cases first <;> cases second <;> simp [toJson]

theorem OwnHeader.toJson_ne_null (header : OwnHeader) : header.toJson ≠ .null := by
  cases header <;> nofun

/-- Different import sections are different JSON values. -/
theorem ImportSection.toJson_inj {first second : ImportSection} :
    first.toJson = second.toJson ↔ first = second := by
  refine ⟨fun h => ?_, fun h => h ▸ rfl⟩
  obtain ⟨statements, ownHeader⟩ := first
  obtain ⟨others, otherHeader⟩ := second
  simp only [toJson, JsonValue.object.injEq, List.cons.injEq, Prod.mk.injEq, true_and,
    JsonValue.array.injEq, and_true] at h
  obtain ⟨hstatements, hown⟩ := h
  have hinjective : Function.Injective ImportStatement.toJson :=
    fun _ _ => ImportStatement.toJson_inj.1
  have hheader : ownHeader = otherHeader := by
    cases ownHeader with
    | none =>
        cases otherHeader with
        | none => rfl
        | some other => exact absurd hown.symm other.toJson_ne_null
    | some header =>
        cases otherHeader with
        | none => exact absurd hown header.toJson_ne_null
        | some other => rw [OwnHeader.toJson_inj.1 hown]
  rw [hinjective.list_map hstatements, hheader]

end Json

section Text

/-- The import statement that a printed name stands for. -/
def ImportStatement.ofName (name : String) : ImportStatement where
  name := name
  origin := if '.' ∈ name.toList then .foreign else .host

theorem ImportStatement.line_ne_endif (statement : ImportStatement) :
    statement.line ≠ "#endif" := by
  intro h
  have hhead := congrArg (fun line : String => line.toList.head?) h
  simp [ImportStatement.line] at hhead

theorem OwnHeader.line_ne_endif (header : OwnHeader) : header.line ≠ "#endif" := by
  intro h
  have hsecond := congrArg (fun line : String => line.toList[2]?) h
  cases header <;> simp [OwnHeader.line] at hsecond

/-- Half of a doubled text tells what is doubled. -/
theorem append_separator_self_inj
    {first second : List Char} {separator : Char} {rest : List Char}
    (h : first ++ separator :: (first ++ rest) = second ++ separator :: (second ++ rest)) :
    first = second := by
  have hlength := congrArg List.length h
  simp only [List.length_append, List.length_cons] at hlength
  exact (List.append_inj h (by omega)).1

theorem OwnHeader.line_inj {first second : OwnHeader} :
    first.line = second.line ↔ first = second := by
  refine ⟨fun h => ?_, fun h => h ▸ rfl⟩
  have hlist := congrArg String.toList h
  cases first with
  | umbrella name =>
      cases second with
      | umbrella other =>
          have hdoubled :
              name.toList ++ '/' :: (name.toList ++ ['.', 'h', '>']) =
                other.toList ++ '/' :: (other.toList ++ ['.', 'h', '>']) := by
            simpa [line] using hlist
          rw [String.toList_inj.1 (append_separator_self_inj hdoubled)]
      | bridging other =>
          simp [line] at hlist
  | bridging path =>
      cases second with
      | umbrella other =>
          simp [line] at hlist
      | bridging other =>
          simpa [line] using h

namespace ImportSection

/-- The lines that include the module's own header. -/
def ownLines (imports : ImportSection) : List String :=
  match imports.ownHeader with
  | none => []
  | some header => [header.line, ""]

/-- The lines of an import section. -/
def printedLines (imports : ImportSection) : List String :=
  frontLines ++ (imports.statements.map ImportStatement.line ++
    "#endif" :: "" :: imports.ownLines)

theorem endif_notMem_statements (imports : ImportSection) :
    "#endif" ∉ imports.statements.map ImportStatement.line := by
  intro hmem
  obtain ⟨statement, _, hline⟩ := List.mem_map.1 hmem
  exact statement.line_ne_endif hline

theorem endif_notMem_ownLines (imports : ImportSection) : "#endif" ∉ "" :: imports.ownLines := by
  rw [ownLines]
  cases imports.ownHeader with
  | none => decide
  | some header => simp [header.line_ne_endif.symm]

/-- The include of the module's own header is told from its lines. -/
theorem ownHeader_eq_of_ownLines {first second : ImportSection}
    (h : first.ownLines = second.ownLines) : first.ownHeader = second.ownHeader := by
  rw [ownLines, ownLines] at h
  cases hfirst : first.ownHeader <;> cases hsecond : second.ownHeader <;>
    simp_all [OwnHeader.line_inj]

theorem render_eq_ofLines (imports : ImportSection) :
    imports.render = Text.ofLines imports.printedLines := by
  have hend : "#endif\n" = "#endif" ++ "\n" := by
    decide
  rw [render_eq_around_statements, printedLines, Text.ofLines_append, Text.ofLines_append,
    back, ownLines, hend]
  cases imports.ownHeader <;>
    simp only [Text.ofLines, String.append_assoc, String.append_empty, String.empty_append]

/-- No line of an import section is broken, and a dot in a name tells that the module is a
foreign one. -/
structure Legible (imports : ImportSection) : Prop where
  names : ∀ statement ∈ imports.statements, '\n' ∉ statement.name.toList
  origins : ∀ statement ∈ imports.statements, statement = .ofName statement.name
  ownHeader : ∀ header ∈ imports.ownHeader, '\n' ∉ header.line.toList

namespace Legible

variable {imports first second : ImportSection}

theorem statements_eq (h : imports.Legible) :
    imports.statements = (imports.statements.map (·.name)).map ImportStatement.ofName := by
  calc imports.statements
      = imports.statements.map id :=
        (List.map_id _).symm
    _ = imports.statements.map (ImportStatement.ofName ∘ (·.name)) :=
        List.map_congr_left h.origins
    _ = (imports.statements.map (·.name)).map ImportStatement.ofName :=
        List.map_map.symm

theorem lines_render (h : imports.Legible) : Text.lines imports.render = imports.printedLines := by
  rw [render_eq_ofLines]
  refine Text.lines_ofLines fun line hline => ?_
  rw [printedLines, List.mem_append, List.mem_append, List.mem_cons, List.mem_cons] at hline
  rcases hline with hfront | hstatement | rfl | rfl | hown
  · exact (show ∀ line ∈ frontLines, '\n' ∉ line.toList by decide) line hfront
  · exact (Header.plainLines_statements h.names line hstatement).1
  · decide
  · decide
  · rw [ownLines] at hown
    cases hheader : imports.ownHeader with
    | none =>
        simp [hheader] at hown
    | some header =>
        rw [hheader] at hown
        rcases List.mem_cons.1 hown with rfl | hempty
        · exact h.ownHeader header hheader
        · rw [List.mem_singleton.1 hempty]
          decide

/-- Legible import sections have different texts if they are different. -/
theorem render_inj (hfirst : first.Legible) (hsecond : second.Legible) :
    first.render = second.render ↔ first = second := by
  refine ⟨fun h => ?_, fun h => h ▸ rfl⟩
  have hlines := congrArg Text.lines h
  rw [hfirst.lines_render, hsecond.lines_render] at hlines
  obtain ⟨hstatements, _, hown⟩ :=
    (List.append_cons_inj_of_notMem first.endif_notMem_statements
      first.endif_notMem_ownLines).1 (List.append_cancel_left hlines)
  have hnames : first.statements.map (·.name) = second.statements.map (·.name) := by
    have hinjective : Function.Injective fun name : String => "@import " ++ name ++ ";" := by
      intro name other
      simp
    refine hinjective.list_map ?_
    rw [List.map_map, List.map_map]
    exact hstatements
  have hall : first.statements = second.statements := by
    rw [hfirst.statements_eq, hnames, ← hsecond.statements_eq]
  have hheader : first.ownHeader = second.ownHeader :=
    ownHeader_eq_of_ownLines (List.cons.inj hown).2
  obtain ⟨statements, ownHeader⟩ := first
  obtain ⟨others, otherHeader⟩ := second
  cases hall
  cases hheader
  rfl

end Legible

end ImportSection

end Text

namespace Manifest

variable {manifest : Manifest} {resolved : ResolvedManifest} {bridging : Option String}

/-- No text that is printed as it stands breaks a line of the import section. -/
structure KeepsLines (manifest : Manifest) (bridging : Option String) : Prop where
  uses : ∀ use, manifest.Mentions use → '.' ∈ use.toList → '\n' ∉ use.toList
  bridging : ∀ path ∈ nonemptyHeader bridging, '\n' ∉ path.toList

/-- The import section of a resolved manifest is legible: the names of its host modules
have been checked, and only a name with a dot is that of a foreign one. -/
theorem exists_legible_of_resolve
    (h : manifest.resolve = .ok resolved) (hlines : manifest.KeepsLines bridging) :
    ∃ imports,
      resolved.table.importSection ModuleTable.main bridging = .ok imports ∧
      imports.Legible := by
  have hvalid := isValid_of_resolve h
  obtain ⟨imports, himports, hplan⟩ := exists_isPlan_of_resolve h bridging
  refine ⟨imports, himports, ?_, ?_, ?_⟩
  · exact (hplan.forall_statement_iff hvalid fun _ hname =>
      Text.not_mem_of_isName hname Text.continuesName_newline).2 hlines.uses
  · rintro ⟨name, origin⟩ hmem
    cases origin with
    | host =>
        have hdot : '.' ∉ name.toList :=
          Text.not_mem_of_isName (hplan.isName_of_host hvalid hmem) Text.continuesName_dot
        simp [ImportStatement.ofName, hdot]
    | foreign =>
        simp [ImportStatement.ofName, (hplan.foreign_mem_statements_iff.1 hmem).2]
  · intro header hheader
    obtain ⟨rfl, _⟩ := (hplan.ownHeader_eq_some_iff header).1 hheader
    cases hbridging : nonemptyHeader bridging with
    | none =>
        have hname : '\n' ∉ manifest.main.name.toList :=
          Text.not_mem_of_isName (isName_of_resolve h (by simp [entries]))
            Text.continuesName_newline
        simp [ImportSection.ownHeaderFor, OwnHeader.line, hname]
    | some path =>
        simp [ImportSection.ownHeaderFor, OwnHeader.line, hlines.bridging path hbridging]

end Manifest

namespace Command

/-- **Both formats are lossless.**  Printed as JSON, import sections are equal only if they
are the same, whatever their names, modules and paths hold.  Printed as text, the import
sections of the main modules of two resolved manifests are equal only if they are the same,
with the kinds of all imports and the include of the module's own header, unless a line feed
in a dotted use or in the bridging header breaks a line. -/
theorem printSection_lossless :
    (∀ first second : ImportSection,
      printSection first .json = printSection second .json ↔ first = second) ∧
    ∀ (manifest other : Manifest) (resolved otherResolved : ResolvedManifest)
      (bridging otherBridging : Option String),
      manifest.resolve = .ok resolved → other.resolve = .ok otherResolved →
      manifest.KeepsLines bridging → other.KeepsLines otherBridging →
      ∃ first second,
        resolved.table.importSection ModuleTable.main bridging = .ok first ∧
        otherResolved.table.importSection ModuleTable.main otherBridging = .ok second ∧
        (printSection first .text = printSection second .text ↔ first = second) := by
  refine ⟨fun first second => ?_, ?_⟩
  · rw [printSection, printSection, String.append_left_inj, JsonValue.render_inj,
      ImportSection.toJson_inj]
  · intro manifest other resolved otherResolved bridging otherBridging h hother hlines
      hotherLines
    obtain ⟨first, hfirst, hlegible⟩ := Manifest.exists_legible_of_resolve h hlines
    obtain ⟨second, hsecond, hotherLegible⟩ :=
      Manifest.exists_legible_of_resolve hother hotherLines
    exact ⟨first, second, hfirst, hsecond, hlegible.render_inj hotherLegible⟩

/-- A manifest that mentions a host module and, as the underlying one, the module that
stands for its bridging header. -/
def bridged : Manifest where
  main := { name := "Foo" }
  importedHeader := some "contents"
  modules := [{ name := "Bar" }, { name := "Foo", id := some "contents" }]
  objc := [{ text := "@class A;", uses := ["Bar", "contents"] }]

/-- A manifest that mentions a foreign module. -/
def submodular : Manifest where
  main := { name := "Foo" }
  objc := [{ text := "@class A;", uses := ["Bar.Sub"] }]

theorem bridged_submodular_lossless :
    ∃ resolved otherResolved first second,
      bridged.resolve = .ok resolved ∧ submodular.resolve = .ok otherResolved ∧
      resolved.table.importSection ModuleTable.main (some "Foo \"1\".h") = .ok first ∧
      otherResolved.table.importSection ModuleTable.main none = .ok second ∧
      (printSection first .text = printSection second .text ↔ first = second) := by
  obtain ⟨resolved, h⟩ : ∃ resolved, bridged.resolve = .ok resolved :=
    Manifest.exists_resolve_of_kept (by decide)
  obtain ⟨otherResolved, hother⟩ : ∃ resolved, submodular.resolve = .ok resolved :=
    Manifest.exists_resolve_of_kept (by decide)
  have hlines : bridged.KeepsLines (some "Foo \"1\".h") := by
    refine ⟨?_, by decide⟩
    rintro use ⟨entry, hentry, huse⟩
    exact (show ∀ entry ∈ bridged.objc, ∀ use ∈ entry.uses,
      '.' ∈ use.toList → '\n' ∉ use.toList by decide) entry hentry use huse
  have hotherLines : submodular.KeepsLines none := by
    refine ⟨?_, by decide⟩
    rintro use ⟨entry, hentry, huse⟩
    exact (show ∀ entry ∈ submodular.objc, ∀ use ∈ entry.uses,
      '.' ∈ use.toList → '\n' ∉ use.toList by decide) entry hentry use huse
  obtain ⟨first, second, hfirst, hsecond, hiff⟩ :=
    printSection_lossless.2 bridged submodular resolved otherResolved (some "Foo \"1\".h") none
      h hother hlines hotherLines
  exact ⟨resolved, otherResolved, first, second, h, hother, hfirst, hsecond, hiff⟩

end Command

end InteropHeader
