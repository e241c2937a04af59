import InteropHeader.Proofs.Header.Manifest

/-!
# What is kept of a header

Input:
  a manifest that has been resolved, what the user chooses, and a fixed truth of all
  conditions.

Algorithm:
  the header is read line by line with its conditionals, and each of its parts is
  kept or left out as a whole: what is meant for readers of one language is kept for
  them alone.

Results:
  * `select_importSection`: the import statements are kept with module support, the
    include of the own header with and without it;
  * `exists_header_gated`: what is kept of the header of a manifest, part by part.
-/

namespace InteropHeader

/-- The lines that are kept of an import section. -/
def ImportSection.kept (truth : Truth) (imports : ImportSection) : List String :=
  (if truth.test "__has_feature(modules)" then
    (if truth.test "__has_warning(\"-Watimport-in-framework-header\")" then
      [Header.importPragma]
    else
      []) ++
      imports.statements.map ImportStatement.line
  else
    []) ++
  [""] ++
  match imports.ownHeader with
  | none => []
  | some header => [header.line, ""]

theorem Language.condition_objc : Language.objc.condition = "defined(__OBJC__)" :=
  rfl

theorem Language.condition_cxx : Language.cxx.condition = "defined(__cplusplus)" :=
  rfl

namespace Header

variable {truth : Truth}

/-- A condition that does not start with a blank is asked for as it is written. -/
theorem holds_ofText
    {condition : List Char} (h : Text.skipBlanks condition = condition) :
    truth.holds (.ofText (String.ofList condition)) =
      truth.test (String.ofList condition) := by
  rw [Condition.ofText, String.toList_ofList, h]
  rfl

theorem holds_language (language : Language) :
    truth.holds (.ofText language.condition) = truth.test language.condition := by
  cases language
  · exact holds_ofText (by decide)
  · exact holds_ofText (by decide)

/-- With module support the import statements are kept, and the include of the own
header is kept with and without it. -/
theorem select_importSection
    {imports : ImportSection}
    (hstatements : ∀ statement ∈ imports.statements, '\n' ∉ statement.name.toList)
    (hown : ∀ header ∈ imports.ownHeader, '\n' ∉ header.line.toList) :
    imports.block.select truth = imports.kept truth := by
  have hmodules : truth.holds (.ofText "__has_feature(modules)") =
      truth.test "__has_feature(modules)" :=
    holds_ofText (by decide)
  have hwarning :
      truth.holds (.ofText "__has_warning(\"-Watimport-in-framework-header\")") =
        truth.test "__has_warning(\"-Watimport-in-framework-header\")" :=
    holds_ofText (by decide)
  have hpragma : (Block.lines [importPragma]).select truth = [importPragma] :=
    Block.select_lines plainLines_importPragma
  have hlines :
      (Block.lines (imports.statements.map ImportStatement.line)).select truth =
        imports.statements.map ImportStatement.line :=
    Block.select_lines (plainLines_statements hstatements)
  have hempty : (Block.lines [""]).select truth = [""] :=
    Block.select_lines plainLines_empty
  have hrest : Block.select truth
      (match imports.ownHeader with
        | none => .empty
        | some header => .lines [header.line, ""]) =
      match imports.ownHeader with
        | none => []
        | some header => [header.line, ""] := by
    cases howner : imports.ownHeader with
    | none => rfl
    | some header => exact Block.select_lines (plainLines_ownHeader (hown header howner))
  have hblock : imports.block = .all [
      .onlyIf "__has_feature(modules)" (.all [
        .onlyIf "__has_warning(\"-Watimport-in-framework-header\")"
          (.lines [importPragma]),
        .lines (imports.statements.map ImportStatement.line)]),
      .lines [""],
      match imports.ownHeader with
        | none => .empty
        | some header => .lines [header.line, ""]] :=
    rfl
  rw [hblock, ImportSection.kept, Block.select_all, List.flatMap_cons,
    List.flatMap_cons, List.flatMap_cons, List.flatMap_nil, List.append_nil, hempty,
    hrest, Block.select, hmodules, Block.select_all, List.flatMap_cons,
    List.flatMap_cons, List.flatMap_nil, List.append_nil, hlines, Block.select,
    hwarning, hpragma, List.append_assoc]

theorem select_closingBody :
    closingBody.select truth =
      (if truth.test "__has_attribute(external_source_symbol)" then
        ["# pragma clang attribute pop"]
      else
        []) ++
      ["#pragma clang diagnostic pop"] := by
  have hattribute :
      truth.holds (.ofText "__has_attribute(external_source_symbol)") =
        truth.test "__has_attribute(external_source_symbol)" :=
    holds_ofText (by decide)
  rw [closingBody, Block.select_all, List.flatMap_cons, List.flatMap_cons,
    List.flatMap_nil, List.append_nil, Block.select, hattribute,
    Block.select_lines plainLines_closing.1, Block.select_lines plainLines_closing.2]

namespace Draft

variable {draft : Draft}

/-- Where the guard is defined, nothing but the banner is kept of a header. -/
theorem kept_render_of_defined
    (h : draft.Tidy) (hguard : truth.isDefined draft.guard = true) :
    truth.kept draft.render = [draft.banner] := by
  have hholds : truth.holds (.undefined draft.guard) = false := by
    simp [Truth.holds, hguard]
  rw [Truth.kept, Truth.keptOf, run_render h, read]
  simp [Truth.keeper, hholds]

/-- Where the guard is not defined, the block inside it is kept behind the banner
and the definition of the guard. -/
theorem kept_render_of_undefined
    (h : draft.Tidy) (hguard : truth.isDefined draft.guard = false) :
    truth.kept draft.render =
      [draft.banner, "#define " ++ draft.guard] ++ draft.body.select truth := by
  have hholds : truth.keeper.holds [draft.banner] (.undefined draft.guard) = true := by
    simp [Truth.keeper, Truth.holds, hguard]
  rw [Truth.kept, Truth.keptOf, run_render h, read, ← Block.read_keeper]
  exact if_pos hholds

/-- The same for the opening part by itself. -/
theorem kept_opening
    (h : draft.Tidy) (hguard : truth.isDefined draft.guard = false) :
    truth.kept (opening draft.toolchain draft.guard).render =
      [draft.banner, "#define " ++ draft.guard] ++ openingBody.select truth := by
  have hholds : truth.keeper.holds [draft.banner] (.undefined draft.guard) = true := by
    simp [Truth.keeper, Truth.holds, hguard]
  rw [Truth.kept, Truth.keptOf, render_opening, lines_openingLines_append h,
    run_openingLines h]
  refine (congrArg Reading.state (if_pos hholds)).trans ?_
  rw [Block.run_render wellFormed_openingBody rfl, Block.read_keeper]
  rfl

/-- What is kept of the block inside the guard, part by part. -/
theorem select_body (h : draft.Tidy) :
    draft.body.select truth =
      openingBody.select truth ++
      (if truth.test Language.objc.condition then draft.imports.kept truth else []) ++
      truth.kept (attribution draft.name).render ++
      (if truth.test Language.objc.condition then truth.kept draft.objc else []) ++
      (if truth.test Language.cxx.condition then truth.kept draft.cxx else []) ++
      closingBody.select truth := by
  have himports : (draft.part .imports).select truth =
      if truth.test Language.objc.condition then draft.imports.kept truth else [] := by
    rw [part, Block.forLanguage, Block.select, holds_language,
      select_importSection h.statements h.ownHeader]
  have hobjc : (draft.part .objc).select truth =
      if truth.test Language.objc.condition then truth.kept draft.objc else [] := by
    rw [part, Block.forLanguage, Block.select, holds_language, Block.select]
  have hcxx : (draft.part .cxx).select truth =
      if truth.test Language.cxx.condition then truth.kept draft.cxx else [] := by
    rw [part, Block.forLanguage, Block.select, holds_language, Block.select]
  have hname : '\n' ∉ draft.name.toList :=
    Text.not_mem_of_isName h.name Text.continuesName_newline
  have hattribution : (draft.part .attribution).select truth =
      truth.kept (attribution draft.name).render :=
    (Block.kept_render (wellFormed_attribution hname)).symm
  rw [body, Block.select_all]
  simp only [List.flatMap_cons, List.flatMap_nil, List.append_nil, himports, hobjc, hcxx,
    hattribution, List.append_assoc]

/-- What is kept of a header, part by part. -/
theorem kept_render (h : draft.Tidy) :
    truth.kept draft.render =
      if truth.isDefined draft.guard then
        [draft.banner]
      else
        truth.kept (opening draft.toolchain draft.guard).render ++
        (if truth.test Language.objc.condition then draft.imports.kept truth else []) ++
        truth.kept (attribution draft.name).render ++
        (if truth.test Language.objc.condition then truth.kept draft.objc else []) ++
        (if truth.test Language.cxx.condition then truth.kept draft.cxx else []) ++
        closingBody.select truth := by
  cases hguard : truth.isDefined draft.guard with
  | true =>
      rw [if_pos rfl, kept_render_of_defined h hguard]
  | false =>
      rw [if_neg (by decide), kept_render_of_undefined h hguard, kept_opening h hguard,
        select_body h]
      simp only [List.append_assoc]

end Draft

end Header

namespace Manifest

variable {manifest : Manifest} {options : Header.Options} {imports : ImportSection}

theorem draft_guard :
    (manifest.draft options imports).guard = Header.includeGuard manifest.main.name :=
  rfl

end Manifest

end InteropHeader
