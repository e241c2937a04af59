import InteropHeader.Header.Document
import InteropHeader.Proofs.Directive.Macro
import InteropHeader.Proofs.Header.IncludeGuard

/-!
# The lines of a header

Input:
  what a header is printed from, where no line feed stands in a text that takes
  up one line, and where the printed declarations are balanced.

Algorithm:
  the banner and the two lines that begin the include guard come first, and the
  line that ends it comes last; what lies between is one well-formed block.

Results:
  * `render_eq_parts`: the six parts of a header, one behind the other;
  * `lines_render`: the lines of a header are these;
  * `run_render`: a header is read up to its banner alone where its guard is
    defined, and otherwise as the block between is.
-/

namespace InteropHeader
namespace Header

/-- What the opening part holds inside the include guard. -/
def openingBody : Block :=
  .all [
    .lines probeLines,
    standardIncludes,
    .lines typedefLines,
    GuardedMacro.standardBlock]

/-- The pragma in front of the import statements. -/
def importPragma : String :=
  "#pragma clang diagnostic ignored \"-Watimport-in-framework-header\""

/-- What the closing part holds inside the include guard. -/
def closingBody : Block :=
  .all [
    .onlyIf "__has_attribute(external_source_symbol)"
      (.lines ["# pragma clang attribute pop"]),
    .lines ["#pragma clang diagnostic pop"]]

theorem render_opening (toolchain guard : String) :
    (opening toolchain guard).render =
      Text.ofLines (openingLines toolchain guard) ++ openingBody.render :=
  rfl

theorem render_closing : closing.render = closingBody.render ++ "#endif\n" := by
  rfl

section FixedParts

theorem wellFormed_probeLines : (Block.lines probeLines).WellFormed := by
  refine Block.wellFormed_lines ?_
  unfold probeLines
  repeat refine LeadsTo.cons_ofList (by decide) rfl ?_
  exact .nil

theorem wellFormed_standardIncludes : standardIncludes.WellFormed := by
  refine ⟨⟨GuardedMacro.newline_notMem_condition _, Block.wellFormed_lines ?_⟩,
    ⟨GuardedMacro.newline_notMem_condition _, Block.wellFormed_lines ?_, Block.wellFormed_lines ?_⟩⟩
  all_goals repeat refine LeadsTo.cons_ofList (by decide) rfl ?_
  all_goals exact .nil

/-- The definitions of vector types are no directives. -/
theorem plainLines_vectorTypedefs : PlainLines vectorTypedefs := by
  have hscalars : ∀ entry ∈ vectorScalars,
      '\n' ∉ entry.1.toList ∧ '\n' ∉ entry.2.toList := by
    decide
  have hwidths : ∀ width ∈ vectorWidths, '\n' ∉ (toString width).toList := by
    decide
  intro line hline
  simp only [vectorTypedefs, List.mem_flatMap, List.mem_map] at hline
  obtain ⟨⟨stem, scalar⟩, hentry, width, hwidth, rfl⟩ := hline
  have hstem := (hscalars _ hentry).1
  have hscalar := (hscalars _ hentry).2
  have hwidth := hwidths width hwidth
  constructor
  · simp only [String.toList_append, List.mem_append, not_or, hstem, hscalar, hwidth,
      not_false_eq_true, and_true]
    and_intros
    all_goals exact Text.notMem_ofList (by decide)
  · simp only [String.append_assoc]
    exact Directive.ofLine?_of_isPlainStart (by decide) _

theorem wellFormed_typedefLines : (Block.lines typedefLines).WellFormed := by
  have hvectors : LeadsTo 1 1 vectorTypedefs :=
    .of_plain plainLines_vectorTypedefs
  refine Block.wellFormed_lines (.append (.append ?_ hvectors) ?_)
  · repeat refine LeadsTo.cons_ofList (by decide) rfl ?_
    exact .nil
  · repeat refine LeadsTo.cons_ofList (by decide) rfl ?_
    exact .nil

theorem wellFormed_openingBody : openingBody.WellFormed :=
  ⟨wellFormed_probeLines, wellFormed_standardIncludes, wellFormed_typedefLines,
    GuardedMacro.wellFormed_standardBlock, Block.wellFormed_empty⟩

/-- The attribution of what follows names the module in one line. -/
theorem wellFormed_attribution {name : String} (h : '\n' ∉ name.toList) :
    (attribution name).WellFormed := by
  have hattribute : ∀ {line : String} {rest : List String},
      '\n' ∉ line.toList → Directive.ofLine? line = none → LeadsTo 1 0 rest →
      LeadsTo 1 0 (line :: rest) :=
    fun hnewline hplain hrest => .cons hnewline (lineDepth_of_plain hplain 1) hrest
  refine Block.wellFormed_lines ?_
  repeat refine LeadsTo.cons_ofList (by decide) rfl ?_
  refine hattribute ?_ ?_ ?_
  · simp only [String.toList_append, List.mem_append, not_or, h, not_false_eq_true,
      and_true]
    and_intros
    all_goals exact Text.notMem_ofList (by decide)
  · simp only [String.append_assoc]
    exact Directive.ofLine?_of_isPlainStart (by decide) _
  · repeat refine LeadsTo.cons_ofList (by decide) rfl ?_
    exact .nil

theorem plainLines_closing :
    PlainLines ["# pragma clang attribute pop"] ∧
      PlainLines ["#pragma clang diagnostic pop"] := by
  constructor
  all_goals
    intro line hline
    rw [List.mem_singleton.1 hline]
    exact ⟨by decide, by decide⟩

theorem wellFormed_closingBody : closingBody.WellFormed :=
  ⟨⟨Text.notMem_ofList (by decide),
      Block.wellFormed_lines (.of_plain plainLines_closing.1)⟩,
    Block.wellFormed_lines (.of_plain plainLines_closing.2), Block.wellFormed_empty⟩

end FixedParts

section Imports

variable {imports : ImportSection}

theorem plainLines_statements
    (h : ∀ statement ∈ imports.statements, '\n' ∉ statement.name.toList) :
    PlainLines (imports.statements.map ImportStatement.line) := by
  intro line hline
  obtain ⟨statement, hstatement, rfl⟩ := List.mem_map.1 hline
  constructor
  · simp [ImportStatement.line, h statement hstatement]
  · rw [ImportStatement.line, String.append_assoc]
    exact Directive.ofLine?_of_isPlainStart (by decide) _

theorem plainLines_ownHeader
    {header : OwnHeader} (h : '\n' ∉ header.line.toList) :
    PlainLines [header.line, ""] := by
  have hplain : Directive.ofLine? header.line = none := by
    cases header with
    | umbrella name =>
        simp only [OwnHeader.line, String.append_assoc]
        exact Directive.ofLine?_of_isPlainStart (by decide) _
    | bridging path =>
        rw [OwnHeader.line, String.append_assoc]
        exact Directive.ofLine?_of_isPlainStart (by decide) _
  intro line hline
  rcases List.mem_cons.1 hline with rfl | hline
  · exact ⟨h, hplain⟩
  · rw [List.mem_singleton.1 hline]
    exact ⟨by decide, by decide⟩

theorem plainLines_empty : PlainLines [""] := by
  intro line hline
  rw [List.mem_singleton.1 hline]
  exact ⟨by decide, by decide⟩

theorem plainLines_importPragma : PlainLines [importPragma] := by
  intro line hline
  rw [List.mem_singleton.1 hline]
  exact ⟨Text.notMem_ofList (by decide), by decide⟩

/-- The import section of statements and a header that take up one line each. -/
theorem wellFormed_importSection
    (hstatements : ∀ statement ∈ imports.statements, '\n' ∉ statement.name.toList)
    (hown : ∀ header ∈ imports.ownHeader, '\n' ∉ header.line.toList) :
    imports.block.WellFormed := by
  have hlines : ∀ {content : List String}, PlainLines content →
      (Block.lines content).WellFormed :=
    fun h => Block.wellFormed_lines (.of_plain h)
  refine ⟨⟨Text.notMem_ofList (by decide),
      ⟨Text.notMem_ofList (by decide), hlines plainLines_importPragma⟩,
      hlines (plainLines_statements hstatements), Block.wellFormed_empty⟩,
    hlines plainLines_empty, ?_, Block.wellFormed_empty⟩
  cases howner : imports.ownHeader with
  | none => exact Block.wellFormed_empty
  | some header => exact hlines (plainLines_ownHeader (hown header howner))

end Imports

namespace Draft

/-- Texts that take up one line hold no line feed, and the printed declarations
are balanced full lines. -/
structure Tidy (draft : Draft) : Prop where
  toolchain : '\n' ∉ draft.toolchain.toList
  name : Text.isName draft.name = true
  statements : ∀ statement ∈ draft.imports.statements, '\n' ∉ statement.name.toList
  ownHeader : ∀ header ∈ draft.imports.ownHeader, '\n' ∉ header.line.toList
  objc : (Block.text draft.objc).WellFormed
  cxx : (Block.text draft.cxx).WellFormed

/-- What stands inside the include guard. -/
def body (draft : Draft) : Block :=
  .all [openingBody, draft.part .imports, draft.part .attribution, draft.part .objc,
    draft.part .cxx, closingBody]

/-- The banner. -/
def banner (draft : Draft) : String :=
  "// Generated by " ++ draft.toolchain

/-- The include guard. -/
def guard (draft : Draft) : String :=
  includeGuard draft.name

theorem banner_eq (draft : Draft) : draft.banner = "// Generated by " ++ draft.toolchain :=
  rfl

theorem ofLine?_banner (draft : Draft) : Directive.ofLine? draft.banner = none := by
  show Directive.ofLine? ("// Generated by " ++ draft.toolchain) = none
  exact Directive.ofLine?_of_isPlainStart (by decide) _

theorem render_eq (draft : Draft) :
    draft.render =
      Text.ofLines (openingLines draft.toolchain draft.guard) ++
        (draft.body.render ++ "#endif\n") := by
  have hempty : Block.empty.render = "" :=
    rfl
  simp only [render, block, parts, List.map_cons, List.map_nil, Block.all, body,
    Block.render_append, hempty, String.append_empty]
  have hopening : draft.part .opening = opening draft.toolchain draft.guard :=
    rfl
  have hclosing : draft.part .closing = closing :=
    rfl
  rw [hopening, hclosing, render_opening, render_closing]
  simp only [String.append_assoc]

/-- The parts of a printed header; the imports stand behind the opening. -/
theorem render_eq_parts (draft : Draft) :
    draft.render =
      (opening draft.toolchain draft.guard).render ++
        "#if defined(__OBJC__)\n" ++ draft.imports.render ++ "#endif\n" ++
        (attribution draft.name).render ++
        "#if defined(__OBJC__)\n" ++ draft.objc ++ "#endif\n" ++
        "#if defined(__cplusplus)\n" ++ draft.cxx ++ "#endif\n" ++
        closing.render := by
  have hobjc : "#if " ++ Language.objc.condition ++ "\n" = "#if defined(__OBJC__)\n" := by
    decide
  have hcxx : "#if " ++ Language.cxx.condition ++ "\n" = "#if defined(__cplusplus)\n" := by
    decide
  simp only [render, block, parts, List.map_cons, List.map_nil, part, Block.all,
    Block.render_append, Block.forLanguage, Block.render, hobjc, hcxx, Block.empty,
    String.append_empty, String.append_assoc]
  rfl

variable {draft : Draft}

theorem newline_notMem_openingLines (h : draft.Tidy) :
    ∀ line ∈ openingLines draft.toolchain draft.guard, '\n' ∉ line.toList := by
  have hguard : '\n' ∉ draft.guard.toList :=
    newline_notMem_includeGuard h.name
  simp [openingLines, h.toolchain, hguard]

/-- What stands inside the include guard is well-formed. -/
theorem wellFormed_body (h : draft.Tidy) : draft.body.WellFormed := by
  have hname : '\n' ∉ draft.name.toList :=
    Text.not_mem_of_isName h.name Text.continuesName_newline
  exact ⟨wellFormed_openingBody,
    ⟨GuardedMacro.newline_notMem_condition _,
      wellFormed_importSection h.statements h.ownHeader⟩,
    wellFormed_attribution hname,
    ⟨GuardedMacro.newline_notMem_condition _, h.objc⟩,
    ⟨GuardedMacro.newline_notMem_condition _, h.cxx⟩,
    wellFormed_closingBody, Block.wellFormed_empty⟩

/-- Behind the opening lines a text goes on in a line of its own. -/
theorem lines_openingLines_append (h : draft.Tidy) (text : String) :
    Text.lines (Text.ofLines (openingLines draft.toolchain draft.guard) ++ text) =
      draft.banner :: ("#ifndef " ++ draft.guard) :: ("#define " ++ draft.guard) ::
        Text.lines text := by
  rw [Text.lines_append (Text.terminated_ofLines _),
    Text.lines_ofLines (newline_notMem_openingLines h)]
  simp only [openingLines, banner_eq, List.cons_append, List.nil_append]

/-- The lines of a header. -/
theorem lines_render (h : draft.Tidy) :
    Text.lines draft.render =
      draft.banner :: ("#ifndef " ++ draft.guard) :: ("#define " ++ draft.guard) ::
        (Text.lines draft.body.render ++ ["#endif"]) := by
  have hendif : Text.lines "#endif\n" = ["#endif"] :=
    rfl
  rw [render_eq, lines_openingLines_append h,
    Text.lines_append (Block.terminated_render (wellFormed_body h)), hendif]

section Reading

variable {σ : Type} {reader : Reader σ} {state : σ}

theorem step_banner :
    reader.step ⟨[], state⟩ draft.banner = ⟨[], reader.read state draft.banner⟩ := by
  rw [Reader.step, ofLine?_banner]
  rfl

theorem step_ifndef (h : draft.Tidy) :
    reader.step ⟨[], state⟩ ("#ifndef " ++ draft.guard) =
      ⟨[if reader.holds state (.undefined draft.guard) then .taken else .waiting],
        state⟩ := by
  have hline : Directive.ofLine? ("#ifndef " ++ draft.guard) =
      some (.opening (.undefined draft.guard)) :=
    ofLine?_ifndef_includeGuard h.name
  simp [Reader.step, hline, Reader.follow, isActive, Branch.first]

theorem step_define (branch : Branch) :
    reader.step ⟨[branch], state⟩ ("#define " ++ draft.guard) =
      ⟨[branch],
        if branch = .taken then reader.read state ("#define " ++ draft.guard)
        else state⟩ := by
  have hplain : Directive.ofLine? ("#define " ++ draft.guard) = none :=
    Directive.ofLine?_of_isPlainStart (by decide) _
  cases branch <;> simp [Reader.step, hplain, isActive]

/-- Behind the opening lines reading goes on inside the guard. -/
theorem run_openingLines (h : draft.Tidy) (rest : List String) :
    reader.run ⟨[], state⟩
        (draft.banner :: ("#ifndef " ++ draft.guard) ::
          ("#define " ++ draft.guard) :: rest) =
      if reader.holds (reader.read state draft.banner) (.undefined draft.guard) then
        reader.run
          ⟨[.taken],
            reader.read (reader.read state draft.banner) ("#define " ++ draft.guard)⟩
          rest
      else
        reader.run ⟨[.waiting], reader.read state draft.banner⟩ rest := by
  rw [Reader.run_cons, step_banner, Reader.run_cons, step_ifndef h, Reader.run_cons,
    step_define]
  by_cases hholds :
      reader.holds (reader.read state draft.banner) (.undefined draft.guard)
  · rw [if_pos hholds, if_pos hholds, if_pos rfl]
  · rw [if_neg hholds, if_neg hholds, if_neg (by decide)]

/-- What reading a header leads to. -/
def read (reader : Reader σ) (draft : Draft) (state : σ) : σ :=
  let behindBanner := reader.read state draft.banner
  if reader.holds behindBanner (.undefined draft.guard) then
    draft.body.read reader (reader.read behindBanner ("#define " ++ draft.guard))
  else
    behindBanner

/-- Where its guard is defined, a header is read up to its banner alone, and
otherwise as the block inside the guard is. -/
theorem run_render (h : draft.Tidy) :
    reader.run ⟨[], state⟩ (Text.lines draft.render) = ⟨[], draft.read reader state⟩ := by
  have hbody := wellFormed_body h
  rw [lines_render h, run_openingLines h, read]
  by_cases hholds :
      reader.holds (reader.read state draft.banner) (.undefined draft.guard)
  · rw [if_pos hholds, if_pos hholds, Reader.run_append, Block.run_render hbody rfl,
      Reader.run_cons, Reader.step_closing Directive.ofLine?_endif, Reader.run_nil]
  · rw [if_neg hholds, if_neg hholds, Reader.run_append,
      Reader.run_of_skipped _ _ rfl (Block.balanced_render hbody), Reader.run_cons,
      Reader.step_closing Directive.ofLine?_endif, Reader.run_nil]

end Reading

end Draft

end Header
end InteropHeader
