import InteropHeader.Proofs.Directive.Definition
import InteropHeader.Proofs.Header.Manifest

/-!
# Including headers one after another

Input:
  headers of resolved manifests whose declarations hold no directives, the macros that
  are defined before, and a fixed truth of all conditions but those about the guards.

Algorithm:
  a header is read line by line; a line that is read may define a macro or undo its
  definition, and the guards are asked for among the macros defined so far.  Inside its
  guard a header defines no macro that is named like a guard, so behind a header the
  guards of other modules are defined if and only if they were before.

Results:
  * `eachLine_body`: no line inside the guard of a header touches a guard;
  * `ofText_render_of_defined`, `keepsGuards_ofText_render`: what including a header keeps
    and which guards it defines;
  * `exists_header_included_once`: behind a first header, a second one is kept beyond its
    banner if and only if the names differ in more than the case of ASCII letters.
-/

namespace InteropHeader

/-- A line that does not change which macros are defined that are named like guards. -/
def LeavesGuards (line : String) : Prop :=
  ∀ directive, MacroDirective.ofLine? line = some directive →
    ¬ Header.guardSuffix.toList <:+ directive.name.toList

section Lines

theorem leavesGuards_of_ofLine?_eq_none
    {line : String} (h : MacroDirective.ofLine? line = none) : LeavesGuards line := by
  intro directive hdirective
  rw [h] at hdirective
  cases hdirective

theorem leavesGuards_of_isOtherStart
    {start : List Char} (h : MacroDirective.isOtherStart start = true) (rest : String) :
    LeavesGuards (String.ofList start ++ rest) :=
  leavesGuards_of_ofLine?_eq_none (MacroDirective.ofLine?_of_isOtherStart h rest)

/-- Whether a fixed line leaves guards alone is told from its characters. -/
def leavesGuards (line : List Char) : Bool :=
  (Directive.body? line).all fun body =>
    (MacroDirective.ofWord? (String.ofList (body.takeWhile Char.isAlpha)) "" "").isNone ||
      !Header.guardSuffix.toList.isSuffixOf
        ((Text.skipBlanks (body.dropWhile Char.isAlpha)).takeWhile Text.continuesName)

theorem leavesGuards_ofList {line : List Char} (h : leavesGuards line = true) :
    LeavesGuards (String.ofList line) := by
  intro directive hdirective
  rw [MacroDirective.ofLine?, String.toList_ofList, MacroDirective.ofChars?,
    Option.bind_eq_some_iff] at hdirective
  obtain ⟨body, hbody, hword⟩ := hdirective
  simp only [leavesGuards, hbody, Option.all_some, Bool.or_eq_true, Option.isNone_iff_eq_none,
    Bool.not_eq_true', ← Bool.not_eq_true, List.isSuffixOf_iff_suffix] at h
  rcases h with hother | hname
  · rw [MacroDirective.ofWord?_eq_none hother] at hword
    cases hword
  · have hnamed : directive.name.toList =
        (Text.skipBlanks (body.dropWhile Char.isAlpha)).takeWhile Text.continuesName := by
      unfold MacroDirective.ofWord? at hword
      split at hword
      · cases hword
        exact String.toList_ofList
      · cases hword
        exact String.toList_ofList
      · cases hword
    rwa [hnamed]

end Lines

namespace GuardedMacro

set_option maxRecDepth 2000 in
/-- The names of the standard macros are no guards, and neither are those in lines printed
as they stand. -/
theorem standard_leavesGuards :
    ∀ m ∈ standard, ¬ Header.guardSuffix.toList <:+ m.name.toList ∧
      ∀ line ∈ m.replacement.verbatimLines, LeavesGuards line := by
  have hname : ∀ {name : List Char}, Header.guardSuffix.toList.isSuffixOf name = false →
      ¬ Header.guardSuffix.toList <:+ (String.ofList name).toList := by
    intro name h hsuffix
    rw [String.toList_ofList, ← List.isSuffixOf_iff_suffix, h] at hsuffix
    cases hsuffix
  simp only [standard, List.forall_mem_cons, List.not_mem_nil, false_implies, implies_true,
    and_true, Replacement.verbatimLines]
  and_intros
  all_goals first
    | exact hname (by decide)
    | exact leavesGuards_ofList (by decide)

theorem eachLine_standardBlock : standardBlock.EachLine LeavesGuards := by
  refine Block.eachLine_all fun block hblock => ?_
  obtain ⟨m, hm, rfl⟩ := List.mem_map.1 hblock
  obtain ⟨hname, hverbatim⟩ := standard_leavesGuards m hm
  refine eachLine_block (standard_tidy m hm) ?_ ?_ (leavesGuards_ofList (by decide))
    (leavesGuards_ofList (by decide)) hverbatim
  · intro indent hindent value directive hdirective
    have hblank : [" ", "  "].all (·.toList.all Text.isBlank) = true := by decide
    rw [(standard_wellNamed m hm).ofLine?_defineLine
      (List.all_eq_true.1 (List.all_eq_true.1 hblank indent hindent))] at hdirective
    cases hdirective
    exact hname
  · intro condition
    exact leavesGuards_of_isOtherStart (by decide) condition

end GuardedMacro

namespace Header

section FixedLines

theorem eachLine_openingBody : openingBody.EachLine LeavesGuards := by
  have hvectors : ∀ line ∈ vectorTypedefs, '\n' ∉ line.toList ∧ LeavesGuards line := by
    intro line hline
    refine ⟨(plainLines_vectorTypedefs line hline).1, ?_⟩
    simp only [vectorTypedefs, List.mem_flatMap, List.mem_map] at hline
    obtain ⟨⟨stem, scalar⟩, _, width, _, rfl⟩ := hline
    simp only [String.append_assoc]
    exact leavesGuards_of_isOtherStart (by decide) _
  refine ⟨?_, ⟨?_, ?_, ?_⟩, ?_, GuardedMacro.eachLine_standardBlock, Block.eachLine_empty⟩
  all_goals
    refine Block.eachLine_lines ?_
    simp only [probeLines, typedefLines, List.forall_mem_append, List.forall_mem_cons,
      List.not_mem_nil, false_implies, implies_true, and_true]
    and_intros
  all_goals first
    | exact Text.notMem_ofList (by decide)
    | exact leavesGuards_ofList (by decide)
    | exact hvectors

theorem eachLine_closingBody : closingBody.EachLine LeavesGuards := by
  refine ⟨?_, ?_, Block.eachLine_empty⟩
  all_goals
    refine Block.eachLine_lines ?_
    simp only [List.forall_mem_cons, List.not_mem_nil, false_implies, implies_true, and_true]
    exact ⟨Text.notMem_ofList (by decide), leavesGuards_ofList (by decide)⟩

theorem eachLine_attribution {name : String} (h : '\n' ∉ name.toList) :
    (attribution name).EachLine LeavesGuards := by
  refine Block.eachLine_lines ?_
  simp only [List.forall_mem_cons, List.not_mem_nil, false_implies, implies_true, and_true,
    String.toList_append, List.mem_append, not_or, h, not_false_eq_true]
  and_intros
  -- one line is put together from the name and what stands around it
  all_goals first
    | simp only [String.append_assoc]
      exact leavesGuards_of_isOtherStart (by decide) _
    | exact Text.notMem_ofList (by decide)
    | exact leavesGuards_ofList (by decide)

theorem eachLine_importSection
    {imports : ImportSection}
    (hstatements : ∀ statement ∈ imports.statements, '\n' ∉ statement.name.toList)
    (hown : ∀ header ∈ imports.ownHeader, '\n' ∉ header.line.toList) :
    imports.block.EachLine LeavesGuards := by
  have hempty : LeavesGuards "" := leavesGuards_ofList (by decide)
  refine ⟨⟨?_, ?_, Block.eachLine_empty⟩, ?_, ?_, Block.eachLine_empty⟩
  · refine Block.eachLine_lines fun line hline => ?_
    rw [List.mem_singleton.1 hline]
    exact ⟨Text.notMem_ofList (by decide), leavesGuards_ofList (by decide)⟩
  · refine Block.eachLine_lines fun line hline => ?_
    refine ⟨(plainLines_statements hstatements line hline).1, ?_⟩
    obtain ⟨statement, _, rfl⟩ := List.mem_map.1 hline
    rw [ImportStatement.line, String.append_assoc]
    exact leavesGuards_of_isOtherStart (by decide) _
  · refine Block.eachLine_lines fun line hline => ?_
    rw [List.mem_singleton.1 hline]
    exact ⟨by decide, hempty⟩
  · cases howner : imports.ownHeader with
    | none => exact Block.eachLine_empty
    | some header =>
        refine Block.eachLine_lines ?_
        simp only [List.forall_mem_cons, List.not_mem_nil, false_implies, implies_true,
          and_true]
        refine ⟨⟨hown header howner, ?_⟩, by decide, hempty⟩
        cases header with
        | umbrella name =>
            simp only [OwnHeader.line, String.append_assoc]
            exact leavesGuards_of_isOtherStart (by decide) _
        | bridging path =>
            rw [OwnHeader.line, String.append_assoc]
            exact leavesGuards_of_isOtherStart (by decide) _

end FixedLines

theorem eachLine_of_directiveFree {text : String} (h : DirectiveFree text) :
    (Block.text text).EachLine LeavesGuards :=
  fun line hline => leavesGuards_of_ofLine?_eq_none
    (MacroDirective.ofLine?_of_body?_eq_none (h line hline))

/-- No line inside the guard of a header touches a guard. -/
theorem Draft.eachLine_body
    {draft : Draft} (h : draft.Tidy) (hobjc : DirectiveFree draft.objc)
    (hcxx : DirectiveFree draft.cxx) :
    draft.body.EachLine LeavesGuards := by
  have hname : '\n' ∉ draft.name.toList :=
    Text.not_mem_of_isName h.name Text.continuesName_newline
  exact ⟨eachLine_openingBody, eachLine_importSection h.statements h.ownHeader,
    eachLine_attribution hname, eachLine_of_directiveFree hobjc,
    eachLine_of_directiveFree hcxx, eachLine_closingBody, Block.eachLine_empty⟩

end Header

/-- What is left of including texts: the macros that are defined, and the lines of the last
text that were kept. -/
structure Inclusion where
  defined : List String
  kept : List String
  deriving DecidableEq, Repr

namespace Inclusion

/-- The macros that are defined behind a line. -/
def definedBehind (defined : List String) (line : String) : List String :=
  match MacroDirective.ofLine? line with
  | some (.define name _) => name :: defined
  | some (.undefine name) => defined.filter (· ≠ name)
  | none => defined

/-- Whether a macro is defined: a guard if a line has defined it, and any other one as the
fixed truth has it. -/
def isDefined (guards : List String) (truth : Truth) (defined : List String) (name : String) :
    Bool :=
  if name ∈ guards then decide (name ∈ defined) else truth.isDefined name

/-- The reader that keeps track of the macros in the given list. -/
def reader (guards : List String) (truth : Truth) : Reader Inclusion where
  holds state
    | .test text => truth.test text
    | .defined name => isDefined guards truth state.defined name
    | .undefined name => !isDefined guards truth state.defined name
  read state line := ⟨definedBehind state.defined line, state.kept ++ [line]⟩

/-- Includes a text. -/
def ofText (guards : List String) (truth : Truth) (defined : List String) (text : String) :
    Inclusion :=
  ((reader guards truth).run ⟨[], ⟨defined, []⟩⟩ (Text.lines text)).state

variable {guards defined : List String} {truth : Truth}

/-- A line that leaves guards alone leaves defined and undefined what is named like one. -/
theorem mem_definedBehind_iff
    {line name : String} (h : LeavesGuards line)
    (hname : Header.guardSuffix.toList <:+ name.toList) :
    name ∈ definedBehind defined line ↔ name ∈ defined := by
  have hne : ∀ directive, MacroDirective.ofLine? line = some directive →
      name ≠ directive.name := by
    rintro directive hline rfl
    exact h directive hline hname
  unfold definedBehind
  split
  · rename_i other behind hline
    have hother : name ≠ other := hne _ hline
    simp [hother]
  · rename_i other hline
    have hother : name ≠ other := hne _ hline
    simp [hother]
  · rfl

/-- What may have happened between two lines that are not about guards: lines have been
kept, and what is named like a guard is defined or not as before. -/
structure KeepsGuards (state later : Inclusion) : Prop where
  mem_defined_iff : ∀ name, Header.guardSuffix.toList <:+ name.toList →
    (name ∈ later.defined ↔ name ∈ state.defined)
  kept_before : state.kept <+: later.kept

/-- A block that leaves guards alone may be read between. -/
theorem keepsGuards_read
    {block : Block} (h : block.EachLine LeavesGuards) (state : Inclusion) :
    state.KeepsGuards (block.read (reader guards truth) state) := by
  refine Block.read_of_eachLine ?_ h ⟨fun _ _ => Iff.rfl, List.prefix_rfl⟩
  intro later line hline hlater
  refine ⟨fun name hname => ?_, hlater.kept_before.trans (List.prefix_append ..)⟩
  exact (mem_definedBehind_iff hline hname).trans (hlater.mem_defined_iff name hname)

end Inclusion

namespace Header.Draft

open Inclusion

variable {draft : Draft} {guards defined : List String} {truth : Truth}

theorem suffix_guard (draft : Draft) : guardSuffix.toList <:+ draft.guard.toList := by
  rw [guard, includeGuard, String.toList_append]
  exact List.suffix_append ..

theorem definedBehind_banner (draft : Draft) (defined : List String) :
    definedBehind defined draft.banner = defined := by
  have hbanner : MacroDirective.ofLine? draft.banner = none :=
    MacroDirective.ofLine?_of_isOtherStart (by decide) draft.toolchain
  rw [definedBehind, hbanner]

/-- The line that defines the guard is understood so. -/
theorem ofLine?_define (h : draft.Tidy) :
    MacroDirective.ofLine? ("#define " ++ draft.guard) = some (.define draft.guard "") := by
  have hchars : ("#define " ++ draft.guard).toList =
      '#' :: ([] ++ ("define ".toList ++ (draft.guard.toList ++ []))) := by
    simp
  have hname : ∀ c ∈ draft.guard.toList, Text.continuesName c = true :=
    fun _ hc => continuesName_of_mem_includeGuard h.name hc
  have hne : draft.guard.toList ≠ [] := by
    intro heq
    have hsuffix := draft.suffix_guard
    rw [heq] at hsuffix
    exact absurd hsuffix (by decide)
  rw [MacroDirective.ofLine?, hchars,
    MacroDirective.ofChars?_define (fun _ hc => by cases hc) hname hne
      (fun _ hc => by cases hc), String.ofList_toList]

theorem definedBehind_define (h : draft.Tidy) :
    definedBehind defined ("#define " ++ draft.guard) = draft.guard :: defined := by
  rw [definedBehind, ofLine?_define h]

/-- Behind the banner a header asks for its guard among the macros defined before. -/
theorem ofText_render
    (h : draft.Tidy) (hguards : draft.guard ∈ guards) :
    ofText guards truth defined draft.render =
      if draft.guard ∈ defined then
        ⟨defined, [draft.banner]⟩
      else
        draft.body.read (reader guards truth)
          ⟨draft.guard :: defined, [draft.banner, "#define " ++ draft.guard]⟩ := by
  have hbanner : (reader guards truth).read ⟨defined, []⟩ draft.banner =
      ⟨defined, [draft.banner]⟩ := by
    simp [reader, definedBehind_banner]
  have hdefine : (reader guards truth).read ⟨defined, [draft.banner]⟩
      ("#define " ++ draft.guard) =
        ⟨draft.guard :: defined, [draft.banner, "#define " ++ draft.guard]⟩ := by
    simp [reader, definedBehind_define h]
  have hholds : (reader guards truth).holds ⟨defined, [draft.banner]⟩
      (.undefined draft.guard) = !decide (draft.guard ∈ defined) := by
    simp [reader, isDefined, hguards]
  rw [ofText, run_render h]
  by_cases hdefined : draft.guard ∈ defined
  · simp [read, hbanner, hholds, hdefined]
  · simp [read, hbanner, hholds, hdefined, hdefine]

/-- Where its guard is defined, including a header keeps its banner alone. -/
theorem ofText_render_of_defined
    (h : draft.Tidy) (hguards : draft.guard ∈ guards) (hdefined : draft.guard ∈ defined) :
    ofText guards truth defined draft.render = ⟨defined, [draft.banner]⟩ := by
  rw [ofText_render h hguards, if_pos hdefined]

/-- Where it is not, including a header defines it and no other guard, and it keeps more
than the banner. -/
theorem keepsGuards_ofText_render
    (truth : Truth) (h : draft.Tidy) (hbody : draft.body.EachLine LeavesGuards)
    (hguards : draft.guard ∈ guards) (hdefined : draft.guard ∉ defined) :
    KeepsGuards ⟨draft.guard :: defined, [draft.banner, "#define " ++ draft.guard]⟩
      (ofText guards truth defined draft.render) := by
  rw [ofText_render h hguards, if_neg hdefined]
  exact keepsGuards_read hbody _

/-- Behind a header another one is kept beyond its banner if it has another guard, and only
then. -/
theorem exists_kept_eq_cons
    {first second : Draft} (hfirst : first.Tidy) (hsecond : second.Tidy)
    (hbody : first.body.EachLine LeavesGuards)
    (hbodySecond : second.body.EachLine LeavesGuards)
    (hguards : first.guard ∈ guards ∧ second.guard ∈ guards)
    (hdefined : first.guard ∉ defined ∧ second.guard ∉ defined) :
    ∃ rest,
      (ofText guards truth (ofText guards truth defined first.render).defined
        second.render).kept = second.banner :: rest ∧
      (rest ≠ [] ↔ first.guard ≠ second.guard) := by
  have hkeeps := keepsGuards_ofText_render truth hfirst hbody hguards.1 hdefined.1
  have hbehind := hkeeps.mem_defined_iff second.guard second.suffix_guard
  rw [List.mem_cons, or_iff_left hdefined.2] at hbehind
  by_cases hsame : second.guard = first.guard
  · refine ⟨[], ?_, by simp [hsame]⟩
    rw [ofText_render_of_defined hsecond hguards.2 (hbehind.2 hsame)]
  · obtain ⟨rest, hrest⟩ := (keepsGuards_ofText_render truth hsecond hbodySecond
      hguards.2 (mt hbehind.1 hsame)).kept_before
    exact ⟨("#define " ++ second.guard) :: rest, hrest.symm, by simp [Ne.symm hsame]⟩

end Header.Draft

namespace Manifest

/-- **Guards stop a second inclusion, and only that.**  The headers of two resolved
manifests, their declarations free of directives, are included one after the other, and
neither guard is defined before.  Of the second header a line is kept beside its banner if
and only if the names of the main modules differ in more than the case of ASCII letters. -/
theorem exists_header_included_once
    {first second : Manifest} {resolved resolvedSecond : ResolvedManifest}
    (hfirst : first.resolve = .ok resolved) (hsecond : second.resolve = .ok resolvedSecond)
    {options others : Header.Options}
    (hfree : first.DirectiveFree options) (hfreeSecond : second.DirectiveFree others)
    {guards defined : List String}
    (hguards : Header.includeGuard first.main.name ∈ guards ∧
      Header.includeGuard second.main.name ∈ guards)
    (hdefined : Header.includeGuard first.main.name ∉ defined ∧
      Header.includeGuard second.main.name ∉ defined)
    (truth : Truth) :
    ∃ header next,
      resolved.table.header ModuleTable.main options = .ok header ∧
      resolvedSecond.table.header ModuleTable.main others = .ok next ∧
      let behind := (Inclusion.ofText guards truth defined header).defined
      ∃ rest,
        (Inclusion.ofText guards truth behind next).kept =
          ("// Generated by " ++ second.toolchain.getD ModuleTable.defaultToolchain) :: rest ∧
        (rest ≠ [] ↔ ¬ Text.SameLetters first.main.name second.main.name) := by
  obtain ⟨_, imports, _, himports, _⟩ := isImportPlan_of_resolve hfirst options.bridging
  obtain ⟨_, importsSecond, _, himportsSecond, _⟩ :=
    isImportPlan_of_resolve hsecond others.bridging
  have htidy := hfree.tidy_draft hfirst himports
  have htidySecond := hfreeSecond.tidy_draft hsecond himportsSecond
  have hbody := Header.Draft.eachLine_body htidy hfree.draft_objc hfree.draft_cxx
  have hbodySecond :=
    Header.Draft.eachLine_body htidySecond hfreeSecond.draft_objc hfreeSecond.draft_cxx
  refine ⟨_, _, header_of_resolve hfirst himports, header_of_resolve hsecond himportsSecond,
    ?_⟩
  rw [← Header.includeGuard_eq_iff_sameLetters]
  exact Header.Draft.exists_kept_eq_cons htidy htidySecond hbody hbodySecond hguards hdefined

/-- A manifest whose name has letters inside and outside ASCII. -/
def accented : Manifest where
  main := { name := "Größe" }
  modules := [{ name := "Bar" }]
  objc := [{ text := "@class X;\n@class Y;", uses := ["Bar", "Baz.Sub"] }]

/-- A manifest whose name differs from that of `accented` in ASCII letters alone. -/
def capitalised : Manifest where
  main := { name := "GRößE" }
  cxx := [{ text := "class X;\n" }]

/-- The header of `capitalised` behind that of `accented`. -/
theorem accented_header_included_once :
    ∃ resolved resolvedSecond,
      accented.resolve = .ok resolved ∧
      capitalised.resolve = .ok resolvedSecond ∧
      accented.DirectiveFree {} ∧
      capitalised.DirectiveFree { bridging := some "Foo.h", exposeCxx := true } ∧
      ∀ truth : Truth, ∃ header next,
        resolved.table.header ModuleTable.main {} = .ok header ∧
        resolvedSecond.table.header ModuleTable.main
          { bridging := some "Foo.h", exposeCxx := true } = .ok next ∧
        let guards := ["GRößE_SWIFT_H"]
        let behind := (Inclusion.ofText guards truth ["SWIFT_PASTE"] header).defined
        ∃ rest,
          (Inclusion.ofText guards truth behind next).kept =
            "// Generated by clang-header-gen 0.1.0" :: rest ∧
          (rest ≠ [] ↔ ¬ Text.SameLetters "Größe" "GRößE") := by
  obtain ⟨resolved, hfirst⟩ : ∃ resolved, accented.resolve = .ok resolved :=
    exists_resolve_of_kept (by decide)
  obtain ⟨resolvedSecond, hsecond⟩ : ∃ resolved, capitalised.resolve = .ok resolved :=
    exists_resolve_of_kept (by decide)
  have hfree : accented.DirectiveFree {} :=
    ⟨⟨by decide, by decide, by decide⟩, by decide, by decide⟩
  have hfreeSecond :
      capitalised.DirectiveFree { bridging := some "Foo.h", exposeCxx := true } :=
    ⟨⟨by decide, by decide, by decide⟩, by decide, by decide⟩
  have hguard : ∀ m ∈ [accented, capitalised],
      Header.includeGuard m.main.name = "GRößE_SWIFT_H" := by
    intro m hm
    rw [← String.toList_inj, Header.includeGuard, String.toList_append, String.toList_map]
    revert m
    decide
  refine ⟨resolved, resolvedSecond, hfirst, hsecond, hfree, hfreeSecond, fun truth => ?_⟩
  refine exists_header_included_once hfirst hsecond hfree hfreeSecond ?_ ?_ truth
  · rw [hguard accented (by simp), hguard capitalised (by simp)]
    decide
  · rw [hguard accented (by simp), hguard capitalised (by simp)]
    decide

end Manifest

end InteropHeader
