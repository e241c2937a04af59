import InteropHeader.Proofs.Directive.Pragma
import InteropHeader.Proofs.Header.Gating
import InteropHeader.Proofs.Header.Reinclusion

/-!
# Pragmas of a header

Input:
  a manifest that has been resolved, its declarations free of directives, and a fixed truth
  of all conditions.

Algorithm:
  the pragmas are gathered from the lines that are kept, part by part.  In front of the
  declarations the silenced diagnostics are saved, some are added, and the attribute of the
  module is pushed while the macro `any` is saved; behind them the attribute is popped and
  the silenced diagnostics come back.  The two conditionals about the attribute ask the same,
  so under a fixed truth it is pushed and popped, or neither.

Results:
  * `select_attribution`, `inLines_openingBody`, `onlySilence_imports`, `inLines_closingBody`:
    the pragmas of each part;
  * `exists_runs_front`, `runs_closingBody`: the run up to the declarations, and the one
    behind them;
  * `restores_kept_render`, `attributed_declarations`: the same for the whole header, and for
    the lines of the declarations;
  * `exists_header_restores`: the header of a manifest leaves the state of pragmas as it found
    it.
-/

namespace InteropHeader

open Pragma

namespace GuardedMacro

set_option maxRecDepth 2000 in
/-- No standard macro is called `any`, and no line printed as it stands is a pragma. -/
theorem standard_silent :
    ∀ m ∈ standard, m.name ≠ "any" ∧ ∀ line ∈ m.replacement.verbatimLines, Silent line := by
  have hname : ∀ {name : List Char}, name ≠ "any".toList → String.ofList name ≠ "any" := by
    rintro name hne heq
    exact hne (by rw [← heq, String.toList_ofList])
  simp only [standard, List.forall_mem_cons, List.not_mem_nil, false_implies, implies_true,
    and_true, Replacement.verbatimLines]
  and_intros
  all_goals first
    | exact hname (by decide)
    | exact silent_ofList (by decide)

theorem silent_standardBlock : standardBlock.EachLine Silent := by
  refine Block.eachLine_all fun block hblock => ?_
  obtain ⟨m, hm, rfl⟩ := List.mem_map.1 hblock
  obtain ⟨hname, hverbatim⟩ := standard_silent m hm
  refine eachLine_block (standard_tidy m hm) ?_ ?_ (silent_ofList (by decide))
    (silent_ofList (by decide)) hverbatim
  · intro indent hindent value
    have hblank : [" ", "  "].all (·.toList.all Text.isBlank) = true := by decide
    exact silent_of_directive ((standard_wellNamed m hm).ofLine?_defineLine
      (List.all_eq_true.1 (List.all_eq_true.1 hblank indent hindent)) value) hname
  · exact silent_of_isSilentStart (by decide)

end GuardedMacro

namespace Header

/-- The probes: lines in conditionals, between pragmas that are always kept. -/
def probes : List String := [
  "",
  "#if !defined(__has_include)",
  "# define __has_include(x) 0",
  "#endif",
  "#if !defined(__has_attribute)",
  "# define __has_attribute(x) 0",
  "#endif",
  "#if !defined(__has_feature)",
  "# define __has_feature(x) 0",
  "#endif",
  "#if !defined(__has_warning)",
  "# define __has_warning(x) 0",
  "#endif",
  "",
  "#if __has_include(<swift/objc-prologue.h>)",
  "# include <swift/objc-prologue.h>",
  "#endif",
  ""]

theorem probeLines_eq :
    probeLines =
      ["#pragma clang diagnostic push",
        "#pragma clang diagnostic ignored \"-Wgcc-compat\""] ++
      (probes ++ ["#pragma clang diagnostic ignored \"-Wauto-import\""]) :=
  rfl

theorem silent_probes : ∀ line ∈ probes, Silent line := by
  simp only [probes, List.forall_mem_cons, List.not_mem_nil, false_implies, implies_true,
    and_true]
  and_intros
  all_goals exact silent_ofList (by decide)

theorem silent_standardIncludes : standardIncludes.EachLine Silent := by
  refine ⟨?_, ?_, ?_⟩
  all_goals
    refine Block.eachLine_lines ?_
    simp only [List.forall_mem_cons, List.not_mem_nil, false_implies, implies_true, and_true]
    and_intros
  all_goals first
    | exact Text.notMem_ofList (by decide)
    | exact silent_ofList (by decide)

theorem silent_typedefLines : (Block.lines typedefLines).EachLine Silent := by
  have hvectors : ∀ line ∈ vectorTypedefs, '\n' ∉ line.toList ∧ Silent line := by
    intro line hline
    refine ⟨(plainLines_vectorTypedefs line hline).1, ?_⟩
    simp only [vectorTypedefs, List.mem_flatMap, List.mem_map] at hline
    obtain ⟨⟨stem, scalar⟩, _, width, _, rfl⟩ := hline
    simp only [String.append_assoc]
    exact silent_of_isSilentStart (by decide) _
  refine Block.eachLine_lines ?_
  simp only [typedefLines, List.forall_mem_append, List.forall_mem_cons, List.not_mem_nil,
    false_implies, implies_true, and_true]
  and_intros
  all_goals first
    | exact Text.notMem_ofList (by decide)
    | exact silent_ofList (by decide)
    | exact hvectors

theorem leadsTo_probes : LeadsTo 0 0 probes := by
  unfold probes
  repeat refine LeadsTo.cons_ofList (by decide) rfl ?_
  exact .nil

/-- The opening part saves the silenced diagnostics and silences two. -/
theorem inLines_openingBody (truth : Truth) :
    inLines (openingBody.select truth) =
      [.pushDiagnostics, .silence "\"-Wgcc-compat\"", .silence "\"-Wauto-import\""] := by
  have hfirst : PlainLines ["#pragma clang diagnostic push",
      "#pragma clang diagnostic ignored \"-Wgcc-compat\""] :=
    .cons_ofList (by decide) (by decide) (.cons_ofList (by decide) (by decide) .nil)
  have hlast : PlainLines ["#pragma clang diagnostic ignored \"-Wauto-import\""] :=
    .cons_ofList (by decide) (by decide) .nil
  have hpush : ofLine? "#pragma clang diagnostic push" = some .pushDiagnostics :=
    ofLine?_ofList (by decide)
  have hfirstSilence : ofLine? "#pragma clang diagnostic ignored \"-Wgcc-compat\"" =
      some (.silence "\"-Wgcc-compat\"") :=
    ofLine?_ofList (by decide)
  have hlastSilence : ofLine? "#pragma clang diagnostic ignored \"-Wauto-import\"" =
      some (.silence "\"-Wauto-import\"") :=
    ofLine?_ofList (by decide)
  have hprobes : truth.Keeps probes (truth.keptOf probes) :=
    ⟨leadsTo_probes, rfl⟩
  have hsilent : ∀ {block : Block}, block.EachLine Silent →
      inLines (block.select truth) = [] :=
    fun h => inLines_of_silent (Block.forall_mem_select h)
  rw [openingBody, Block.select_all]
  simp only [List.flatMap_cons, List.flatMap_nil, List.append_nil, inLines_append,
    hsilent silent_standardIncludes, hsilent silent_typedefLines,
    hsilent GuardedMacro.silent_standardBlock]
  rw [probeLines_eq, Block.select_lines_of_keeps
      ((Truth.Keeps.of_plain hfirst).append (hprobes.append (.of_plain hlast))),
    inLines_append, inLines_append, inLines_of_silent (Truth.forall_mem_keptOf silent_probes),
    inLines, List.filterMap_cons_some hpush, List.filterMap_cons_some hfirstSilence]
  exact congrArg _ (congrArg _ (List.filterMap_cons_some hlastSilence))

/-- The attribute that names the module. -/
def swiftAttribute (name : String) : String :=
  "(__attribute__((external_source_symbol(" ++
    ("language=\"Swift\", defined_in=\"" ++ (name ++ ("\",generated_declaration))), " ++
      "apply_to=any(function,enum,objc_interface,objc_category,objc_protocol))")))

/-- The attributes that the declarations of a module get. -/
def moduleAttributes (name : String) (truth : Truth) : List String :=
  if truth.test "__has_attribute(external_source_symbol)" then [swiftAttribute name] else []

/-- The lines that push the attribute, behind the definition of `any`. -/
def attributeLines (name : String) : List String := [
  "# pragma push_macro(\"any\")",
  "# undef any",
  "# pragma clang attribute push" ++ swiftAttribute name,
  "# pragma pop_macro(\"any\")"]

theorem ofLine?_pushAttribute (content : String) :
    ofLine? ("# pragma clang attribute push" ++ content) = some (.pushAttribute content) := by
  have hchars : ofChars? ("# pragma clang attribute push".toList ++ content.toList) =
      some (.pushAttribute (String.ofList content.toList)) := by
    rfl
  rw [ofLine?, String.toList_append, hchars, String.ofList_toList]

theorem inLines_attributeLines (name : String) :
    inLines (attributeLines name) =
      [.pushAny, .setAny none, .pushAttribute (swiftAttribute name), .popAny] := by
  have hpush : ofLine? "# pragma push_macro(\"any\")" = some .pushAny :=
    ofLine?_ofList (by decide)
  have hundef : ofLine? "# undef any" = some (.setAny none) :=
    ofLine?_ofList (by decide)
  have hpop : ofLine? "# pragma pop_macro(\"any\")" = some .popAny :=
    ofLine?_ofList (by decide)
  rw [inLines, attributeLines, List.filterMap_cons_some hpush,
    List.filterMap_cons_some hundef, List.filterMap_cons_some (ofLine?_pushAttribute _),
    List.filterMap_cons_some hpop, List.filterMap_nil]

theorem attributeLine_eq (name : String) :
    "# pragma clang attribute push(__attribute__((external_source_symbol(" ++
      "language=\"Swift\", defined_in=\"" ++ name ++ "\",generated_declaration))), " ++
      "apply_to=any(function,enum,objc_interface,objc_category,objc_protocol))" =
        "# pragma clang attribute push" ++ swiftAttribute name := by
  have hsplit :
      "# pragma clang attribute push(__attribute__((external_source_symbol(" =
        "# pragma clang attribute push" ++ "(__attribute__((external_source_symbol(" := by
    simp
  have hassoc : ∀ a b c d e f : String,
      a ++ b ++ c ++ d ++ e ++ f = a ++ (b ++ (c ++ (d ++ (e ++ f)))) := by
    intros
    simp only [String.append_assoc]
  exact (congrArg (fun start => start ++ _ ++ _ ++ _ ++ _) hsplit).trans (hassoc ..)

theorem attribution_eq (name : String) :
    attribution name = .lines (
      ["#pragma clang diagnostic ignored \"-Wproperty-attribute-mismatch\"",
        "#pragma clang diagnostic ignored \"-Wduplicate-method-arg\""] ++
      ("#if __has_warning(\"-Wpragma-clang-attribute\")" ::
        (["# pragma clang diagnostic ignored \"-Wpragma-clang-attribute\""] ++ ["#endif"]) ++
      (["#pragma clang diagnostic ignored \"-Wunknown-pragmas\"",
        "#pragma clang diagnostic ignored \"-Wnullability\"",
        "#pragma clang diagnostic ignored \"-Wdollar-in-identifier-extension\"",
        ""] ++
      ("#if __has_attribute(external_source_symbol)" ::
        (attributeLines name ++ ["#endif"]) ++
      [""])))) := by
  rw [attribution, attributeLine_eq]
  simp only [attributeLines, List.cons_append, List.nil_append]

theorem plainLines_attributeLines {name : String} (h : '\n' ∉ name.toList) :
    PlainLines (attributeLines name) := by
  have happend : ∀ {first second : String}, '\n' ∉ first.toList → '\n' ∉ second.toList →
      '\n' ∉ (first ++ second).toList := by
    intro first second hfirst hsecond
    rw [String.toList_append, List.mem_append, not_or]
    exact ⟨hfirst, hsecond⟩
  have hfixed : ∀ {start : List Char} {rest : String}, '\n' ∉ start → '\n' ∉ rest.toList →
      '\n' ∉ (String.ofList start ++ rest).toList :=
    fun hstart => happend (Text.notMem_ofList hstart)
  have hnewline : '\n' ∉ ("# pragma clang attribute push" ++ swiftAttribute name).toList := by
    refine hfixed (by decide) (hfixed (by decide) (hfixed (by decide) (happend h ?_)))
    exact hfixed (by decide) (Text.notMem_ofList (by decide))
  have hplain : Directive.ofLine? ("# pragma clang attribute push" ++ swiftAttribute name) =
      none :=
    Directive.ofLine?_of_isPlainStart (by decide) _
  unfold attributeLines
  refine PlainLines.cons_ofList (by decide) (by decide)
    (PlainLines.cons_ofList (by decide) (by decide) ?_)
  refine List.forall_mem_cons.2 ⟨⟨hnewline, hplain⟩, ?_⟩
  exact PlainLines.cons_ofList (by decide) (by decide) PlainLines.nil

/-- The lines behind the imports that silence diagnostics. -/
def silencingLines (truth : Truth) : List String :=
  ["#pragma clang diagnostic ignored \"-Wproperty-attribute-mismatch\"",
    "#pragma clang diagnostic ignored \"-Wduplicate-method-arg\""] ++
  ((if truth.test "__has_warning(\"-Wpragma-clang-attribute\")" then
    ["# pragma clang diagnostic ignored \"-Wpragma-clang-attribute\""]
  else
    []) ++
  ["#pragma clang diagnostic ignored \"-Wunknown-pragmas\"",
    "#pragma clang diagnostic ignored \"-Wnullability\"",
    "#pragma clang diagnostic ignored \"-Wdollar-in-identifier-extension\"",
    ""])

theorem onlySilence_silencingLines (truth : Truth) :
    OnlySilence (inLines (silencingLines truth)) := by
  have hempty : OnlySilence (inLines []) := by
    decide
  rw [silencingLines, inLines_append, inLines_append]
  refine .append ?_ (.append ?_ ?_)
  · exact .inLines_cons_ofList (by decide) (.inLines_cons_ofList (by decide) hempty)
  · split
    · exact .inLines_cons_ofList (by decide) hempty
    · exact hempty
  · exact .inLines_cons_ofList (by decide) (.inLines_cons_ofList (by decide)
      (.inLines_cons_ofList (by decide) (.inLines_cons_ofList (by decide) hempty)))

/-- The part behind the imports silences diagnostics, and pushes the attribute where there is
one. -/
theorem select_attribution
    {name : String} (h : '\n' ∉ name.toList) (truth : Truth) :
    (attribution name).select truth =
      silencingLines truth ++
      ((if truth.test "__has_attribute(external_source_symbol)" then attributeLines name
        else []) ++
      [""]) := by
  have hfirst : PlainLines ["#pragma clang diagnostic ignored \"-Wproperty-attribute-mismatch\"",
      "#pragma clang diagnostic ignored \"-Wduplicate-method-arg\""] :=
    .cons_ofList (by decide) (by decide) (.cons_ofList (by decide) (by decide) .nil)
  have hwarning : PlainLines
      ["# pragma clang diagnostic ignored \"-Wpragma-clang-attribute\""] :=
    .cons_ofList (by decide) (by decide) .nil
  have hsecond : PlainLines ["#pragma clang diagnostic ignored \"-Wunknown-pragmas\"",
      "#pragma clang diagnostic ignored \"-Wnullability\"",
      "#pragma clang diagnostic ignored \"-Wdollar-in-identifier-extension\"",
      ""] :=
    .cons_ofList (by decide) (by decide) (.cons_ofList (by decide) (by decide)
      (.cons_ofList (by decide) (by decide) (.cons_ofList (by decide) (by decide) .nil)))
  have hwarningTest : Directive.ofLine? "#if __has_warning(\"-Wpragma-clang-attribute\")" =
      some (.opening (.test "__has_warning(\"-Wpragma-clang-attribute\")")) := by
    decide
  have hattributeTest : Directive.ofLine? "#if __has_attribute(external_source_symbol)" =
      some (.opening (.test "__has_attribute(external_source_symbol)")) := by
    decide
  have hkeepsWarning : truth.Keeps _ _ :=
    .onlyIf hwarningTest Directive.ofLine?_endif ⟨Text.notMem_ofList (by decide), by decide⟩
      hwarning
  have hkeepsAttribute : truth.Keeps _ _ :=
    .onlyIf hattributeTest Directive.ofLine?_endif ⟨Text.notMem_ofList (by decide), by decide⟩
      (plainLines_attributeLines h)
  rw [attribution_eq, Block.select_lines_of_keeps ((Truth.Keeps.of_plain hfirst).append
    (hkeepsWarning.append ((Truth.Keeps.of_plain hsecond).append
      (hkeepsAttribute.append (.of_plain plainLines_empty)))))]
  simp only [silencingLines, List.append_assoc]
  rfl

section Parts

variable {truth : Truth}

/-- The imports silence one diagnostic at most. -/
theorem onlySilence_imports (imports : ImportSection) :
    OnlySilence (inLines (imports.kept truth)) := by
  have hstatements : inLines (imports.statements.map ImportStatement.line) = [] := by
    refine inLines_of_silent fun line hline => ?_
    obtain ⟨statement, _, rfl⟩ := List.mem_map.1 hline
    rw [ImportStatement.line, String.append_assoc]
    exact silent_of_isSilentStart (by decide) _
  have hempty : Silent "" := silent_ofList (by decide)
  have hown : ∀ header : OwnHeader, inLines [header.line, ""] = [] := by
    intro header
    have hline : Silent header.line := by
      cases header with
      | umbrella name =>
          simp only [OwnHeader.line, String.append_assoc]
          exact silent_of_isSilentStart (by decide) _
      | bridging path =>
          rw [OwnHeader.line, String.append_assoc]
          exact silent_of_isSilentStart (by decide) _
    exact inLines_of_silent (by simp [hline, hempty])
  rw [ImportSection.kept, inLines_append, inLines_append]
  refine .append (.append ?_ (by decide)) ?_
  · split
    · rw [inLines_append, hstatements, List.append_nil]
      split
      · exact .inLines_cons_ofList (by decide) (by decide)
      · decide
    · decide
  · cases imports.ownHeader with
    | none => decide
    | some header =>
        rw [hown]
        decide

theorem inLines_closingBody :
    inLines (closingBody.select truth) =
      (if truth.test "__has_attribute(external_source_symbol)" then [.popAttribute] else []) ++
      [.popDiagnostics] := by
  rw [select_closingBody, inLines_append]
  cases truth.test "__has_attribute(external_source_symbol)" with
  | true => decide
  | false => decide

theorem inLines_attribution {name : String} (h : '\n' ∉ name.toList) :
    inLines ((attribution name).select truth) =
      inLines (silencingLines truth) ++
      if truth.test "__has_attribute(external_source_symbol)" then
        [.pushAny, .setAny none, .pushAttribute (swiftAttribute name), .popAny]
      else
        [] := by
  have hempty : inLines [""] = [] := by
    decide
  rw [select_attribution h, inLines_append, inLines_append, hempty, List.append_nil,
    apply_ite inLines, inLines_attributeLines]
  rfl

end Parts

/-- Declarations among kept lines: in front of them no attribute is popped and behind them none
is pushed, and each of their lines is read while the given attributes are pushed on top of those
that were found. -/
structure Attributed (attributes front declarations back : List String) : Prop where
  pushAttribute_notMem : ∀ content, .pushAttribute content ∉ inLines (declarations ++ back)
  popAttribute_notMem : .popAttribute ∉ inLines (front ++ declarations)
  exists_run : ∀ before line after, declarations = before ++ line :: after →
    ∀ base : PragmaState, ∃ state,
      base.run (front ++ before) = some state ∧ state.attributes = attributes ++ base.attributes

/-- No declaration is kept, and nothing pushes or pops an attribute. -/
theorem Attributed.of_silent
    {attributes front : List String} (h : inLines front = []) :
    Attributed attributes front [] [] where
  pushAttribute_notMem _ := List.not_mem_nil
  popAttribute_notMem := by
    rw [List.append_nil, h]
    exact List.not_mem_nil
  exists_run before line after hsplit := by
    simp at hsplit

/-- The state between the first and the last pragma of a header: the silenced diagnostics have
been saved, and the given attributes are set. -/
def between (base : PragmaState) (silenced : List String) (attributes : List String) :
    PragmaState :=
  { base with silenced := base.silenced.push.set silenced, attributes := attributes }

namespace Draft

variable {draft : Draft} {truth : Truth}

/-- What is kept in front of the declarations. -/
def front (draft : Draft) (truth : Truth) : List String :=
  [draft.banner, "#define " ++ draft.guard] ++ openingBody.select truth ++
  (if truth.test Language.objc.condition then draft.imports.kept truth else []) ++
  (attribution draft.name).select truth

/-- What is kept of the declarations. -/
def declarations (draft : Draft) (truth : Truth) : List String :=
  (if truth.test Language.objc.condition then truth.kept draft.objc else []) ++
  (if truth.test Language.cxx.condition then truth.kept draft.cxx else [])

theorem kept_render_eq_front (h : draft.Tidy) (hguard : truth.isDefined draft.guard = false) :
    truth.kept draft.render =
      draft.front truth ++ draft.declarations truth ++ closingBody.select truth := by
  have hname : '\n' ∉ draft.name.toList :=
    Text.not_mem_of_isName h.name Text.continuesName_newline
  rw [kept_render_of_undefined h hguard, select_body h,
    Block.kept_render (wellFormed_attribution hname), front, declarations]
  simp only [List.append_assoc]

/-- The guard is not the macro `any`. -/
theorem guard_ne_any (draft : Draft) : draft.guard ≠ "any" := by
  intro heq
  have hsuffix := draft.suffix_guard
  rw [heq] at hsuffix
  exact absurd hsuffix (by decide)

theorem silent_banner (draft : Draft) : Silent draft.banner := by
  rw [banner_eq]
  exact silent_of_isSilentStart (by decide) _

/-- In front of the declarations the silenced diagnostics are saved before some are added, and
the attribute is pushed last. -/
theorem exists_inLines_front (h : draft.Tidy) (truth : Truth) :
    ∃ silences, OnlySilence silences ∧
      inLines (draft.front truth) = .pushDiagnostics :: (silences ++
        if truth.test "__has_attribute(external_source_symbol)" then
          [.pushAny, .setAny none, .pushAttribute (swiftAttribute draft.name), .popAny]
        else
          []) := by
  have hname : '\n' ∉ draft.name.toList :=
    Text.not_mem_of_isName h.name Text.continuesName_newline
  have hdefine : Silent ("#define " ++ draft.guard) :=
    silent_of_directive (ofLine?_define h) draft.guard_ne_any
  have hstart : inLines [draft.banner, "#define " ++ draft.guard] = [] :=
    inLines_of_silent (by simp [draft.silent_banner, hdefine])
  have himports : OnlySilence (inLines
      (if truth.test Language.objc.condition then draft.imports.kept truth else [])) := by
    split
    · exact onlySilence_imports draft.imports
    · decide
  refine ⟨[.silence "\"-Wgcc-compat\"", .silence "\"-Wauto-import\""] ++
    inLines (if truth.test Language.objc.condition then draft.imports.kept truth else []) ++
    inLines (silencingLines truth), ?_, ?_⟩
  · exact .append (.append (by decide) himports) (onlySilence_silencingLines truth)
  · rw [front, inLines_append, inLines_append, inLines_append, hstart, inLines_openingBody,
      inLines_attribution hname]
    simp only [List.nil_append, List.cons_append, List.append_assoc]

/-- In front of the declarations each pragma stands where it may. -/
theorem exists_runs_front (h : draft.Tidy) (truth : Truth) (base : PragmaState) :
    ∃ silenced, base.Runs base (inLines (draft.front truth))
      (between base silenced (moduleAttributes draft.name truth ++ base.attributes)) := by
  obtain ⟨silences, hsilences, hfront⟩ := exists_inLines_front h truth
  let saved : PragmaState := { base with silenced := base.silenced.push }
  have hdeeper : base.silenced.Deeper saved.silenced := Nat.lt_succ_self _
  have hany : base.any.Deeper base.any.push := Nat.lt_succ_self _
  obtain ⟨silenced, hruns⟩ := PragmaState.Runs.exists_of_onlySilence hsilences hdeeper
  refine ⟨silenced, ?_⟩
  rw [hfront, moduleAttributes]
  refine .cons trivial rfl (hruns.append ?_)
  -- the attribute is pushed while `any` is saved, and the pop brings its definition back
  cases truth.test "__has_attribute(external_source_symbol)" with
  | true =>
      exact .cons trivial rfl (.cons hany rfl (.cons hany rfl (.cons hany rfl (.nil _))))
  | false => exact .nil _

/-- Behind the declarations too, and the state that was found comes back. -/
theorem runs_closingBody (base : PragmaState) (silenced : List String) (name : String) :
    base.Runs (between base silenced (moduleAttributes name truth ++ base.attributes))
      (inLines (closingBody.select truth)) base := by
  have hdeeper : base.silenced.Deeper (base.silenced.push.set silenced) := Nat.lt_succ_self _
  rw [inLines_closingBody, moduleAttributes]
  cases truth.test "__has_attribute(external_source_symbol)" with
  | true => exact .cons (Nat.lt_succ_self _) rfl (.cons hdeeper rfl (.nil _))
  | false => exact .cons hdeeper rfl (.nil _)

theorem inLines_declarations
    (hobjc : DirectiveFree draft.objc) (hcxx : DirectiveFree draft.cxx) (truth : Truth) :
    inLines (draft.declarations truth) = [] := by
  have hsilent : ∀ {text : String}, DirectiveFree text → inLines (truth.kept text) = [] :=
    fun h => inLines_of_silent (Truth.forall_mem_keptOf fun line hline =>
      silent_of_body?_eq_none (h line hline))
  rw [declarations, inLines_append, apply_ite inLines, apply_ite inLines, hsilent hobjc,
    hsilent hcxx]
  simp [inLines]

/-- Each pragma that is kept of a header stands where it may, and the state that was found comes
back. -/
theorem restores_kept_render
    (h : draft.Tidy) (hobjc : DirectiveFree draft.objc) (hcxx : DirectiveFree draft.cxx)
    (truth : Truth) (base : PragmaState) :
    base.Restores (truth.kept draft.render) := by
  refine PragmaState.restores_of_runs ?_
  cases hguard : truth.isDefined draft.guard with
  | true =>
      rw [kept_render_of_defined h hguard, inLines_of_silent (by simpa using draft.silent_banner)]
      exact .nil base
  | false =>
      obtain ⟨silenced, hfront⟩ := exists_runs_front h truth base
      rw [kept_render_eq_front h hguard, inLines_append, inLines_append,
        inLines_declarations hobjc hcxx truth, List.append_nil]
      exact hfront.append (runs_closingBody base silenced draft.name)

/-- Among the lines kept of a header the declarations have the attribute of the module. -/
theorem attributed_declarations
    (h : draft.Tidy) (hobjc : DirectiveFree draft.objc) (hcxx : DirectiveFree draft.cxx)
    (truth : Truth) :
    Attributed (moduleAttributes draft.name truth) (draft.front truth) (draft.declarations truth)
      (closingBody.select truth) where
  pushAttribute_notMem content := by
    rw [inLines_append, inLines_declarations hobjc hcxx truth, inLines_closingBody]
    cases truth.test "__has_attribute(external_source_symbol)" with
    | true => simp
    | false => simp
  popAttribute_notMem := by
    obtain ⟨silences, hsilences, hfront⟩ := exists_inLines_front h truth
    have hpop : .popAttribute ∉ silences := by
      intro hmem
      cases hsilences _ hmem
    rw [inLines_append, inLines_declarations hobjc hcxx truth, List.append_nil, hfront]
    cases truth.test "__has_attribute(external_source_symbol)" with
    | true => simp [hpop]
    | false => simp [hpop]
  exists_run before line after hsplit base := by
    obtain ⟨silenced, hfront⟩ := exists_runs_front h truth base
    have hbefore : inLines before = [] := by
      have hall := inLines_declarations hobjc hcxx truth
      rw [hsplit, inLines_append] at hall
      exact (List.append_eq_nil_iff.1 hall).1
    refine ⟨between base silenced _, ?_, rfl⟩
    rw [PragmaState.run, inLines_append, hbefore, List.append_nil]
    exact hfront.foldlM_eq

/-- The lines kept of a header around those of the declarations, which have the attribute of
the module. -/
theorem exists_attributed
    (h : draft.Tidy) (hobjc : DirectiveFree draft.objc) (hcxx : DirectiveFree draft.cxx)
    (truth : Truth) :
    ∃ front back,
      truth.kept draft.render =
        front ++ (if truth.isDefined draft.guard then [] else draft.declarations truth) ++
          back ∧
      Attributed (moduleAttributes draft.name truth) front
        (if truth.isDefined draft.guard then [] else draft.declarations truth) back := by
  cases hguard : truth.isDefined draft.guard with
  | true =>
      refine ⟨[draft.banner], [], kept_render_of_defined h hguard, .of_silent ?_⟩
      exact inLines_of_silent (by simpa using draft.silent_banner)
  | false =>
      exact ⟨draft.front truth, closingBody.select truth, kept_render_eq_front h hguard,
        attributed_declarations h hobjc hcxx truth⟩

end Draft

end Header

namespace Manifest

variable {manifest : Manifest} {options : Header.Options}

/-- The lines of declarations that are to be kept of the header of a manifest: none where the
guard is defined, and otherwise those for the language at hand, with the empty lines that
separate them. -/
def keptDeclarations (manifest : Manifest) (options : Header.Options) (truth : Truth) :
    List String :=
  if truth.isDefined (Header.includeGuard manifest.main.name) then
    []
  else
    (if truth.test "defined(__OBJC__)" then
      manifest.objc.flatMap fun entry => Text.lines entry.text ++ entry.emptyLines
    else
      []) ++
    (if truth.test "defined(__cplusplus)" ∧ options.exposeCxx then
      manifest.cxx.flatMap fun entry => Text.lines entry.text ++ entry.emptyLines
    else
      [])

theorem DirectiveFree.declarations_draft
    (h : manifest.DirectiveFree options) (imports : ImportSection) (truth : Truth) :
    (if truth.isDefined (manifest.draft options imports).guard then []
      else (manifest.draft options imports).declarations truth) =
      manifest.keptDeclarations options truth := by
  have hobjc : truth.kept (manifest.draft options imports).objc =
      manifest.objc.flatMap fun entry => Text.lines entry.text ++ entry.emptyLines := by
    rw [Truth.kept_of_directiveFree h.draft_objc]
    exact DeclarationEntry.lines_renderAll manifest.objc
  have hcxx : truth.kept (manifest.draft options imports).cxx =
      if options.exposeCxx then
        manifest.cxx.flatMap fun entry => Text.lines entry.text ++ entry.emptyLines
      else [] := by
    rw [Truth.kept_of_directiveFree h.draft_cxx, draft, apply_ite Text.lines,
      DeclarationEntry.lines_renderAll]
    rfl
  rw [Header.Draft.declarations, keptDeclarations, draft_guard, hobjc, hcxx,
    Language.condition_objc, Language.condition_cxx, ite_and]

/-- **A header leaves the state of pragmas as it found it.**  Of the header of a resolved
manifest whose declarations are free of directives, whatever conditions hold, the lines that are
kept restore the silenced diagnostics, the macro `any` and the attributes that they find; and
the declarations stand where the attribute of the module is set, if there is one. -/
theorem exists_header_restores
    {resolved : ResolvedManifest} (h : manifest.resolve = .ok resolved)
    (hfree : manifest.DirectiveFree options) :
    ∃ header,
      resolved.table.header ModuleTable.main options = .ok header ∧
      ∀ truth : Truth,
        (∀ base : PragmaState, base.Restores (truth.kept header)) ∧
        ∃ front back,
          truth.kept header = front ++ manifest.keptDeclarations options truth ++ back ∧
          Header.Attributed (Header.moduleAttributes manifest.main.name truth) front
            (manifest.keptDeclarations options truth) back := by
  obtain ⟨_, imports, _, himports, _⟩ := isImportPlan_of_resolve h options.bridging
  have htidy := hfree.tidy_draft h himports
  have hobjc : InteropHeader.DirectiveFree (manifest.draft options imports).objc :=
    hfree.draft_objc
  have hcxx : InteropHeader.DirectiveFree (manifest.draft options imports).cxx :=
    hfree.draft_cxx
  refine ⟨_, header_of_resolve h himports, fun truth => ⟨fun base =>
    Header.Draft.restores_kept_render htidy hobjc hcxx truth base, ?_⟩⟩
  rw [← hfree.declarations_draft imports truth]
  exact Header.Draft.exists_attributed htidy hobjc hcxx truth

/-- A manifest with imports and a declaration for each language. -/
def surrounded : Manifest where
  main := { name := "Foo" }
  toolchain := some "Test toolchain 1.0"
  modules := [{ name := "Bar" }, { name := "Foo", id := some "foo-clang" }]
  objc := [{ text := "@class X;\n@class Y;", uses := ["Bar", "foo-clang", "Baz.Sub"] }]
  cxx := [{ text := "class X;\n" }]

/-- The header of `surrounded` with its declarations for C++. -/
theorem surrounded_header_restores :
    ∃ resolved,
      surrounded.resolve = .ok resolved ∧
      surrounded.DirectiveFree { bridging := some "Foo.h", exposeCxx := true } ∧
      ∃ header,
        resolved.table.header ModuleTable.main
          { bridging := some "Foo.h", exposeCxx := true } = .ok header ∧
        ∀ truth : Truth,
          (∀ base : PragmaState, base.Restores (truth.kept header)) ∧
          ∃ front back,
            truth.kept header =
              front ++
                surrounded.keptDeclarations { bridging := some "Foo.h", exposeCxx := true }
                  truth ++
                back ∧
            Header.Attributed (Header.moduleAttributes "Foo" truth) front
              (surrounded.keptDeclarations { bridging := some "Foo.h", exposeCxx := true } truth)
              back := by
  obtain ⟨resolved, hresolve⟩ : ∃ resolved, surrounded.resolve = .ok resolved :=
    exists_resolve_of_kept (by decide)
  have hfree : surrounded.DirectiveFree { bridging := some "Foo.h", exposeCxx := true } :=
    ⟨⟨by decide, by decide, by decide⟩, by decide, by decide⟩
  exact ⟨resolved, hresolve, hfree, exists_header_restores hresolve hfree⟩

end Manifest

end InteropHeader
