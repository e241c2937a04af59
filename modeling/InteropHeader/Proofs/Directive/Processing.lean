import InteropHeader.Proofs.Directive.Block
import InteropHeader.Proofs.Directive.Definition
import Mathlib.Logic.Function.Basic

/-!
# Processing a text

Input:
  a text, the macros that are defined before it, and a fixed truth of all conditions but
  those that ask whether a macro is defined.

Algorithm:
  a line that is read may define a macro, which from then on stands for what is written
  behind its name, or undo a definition.  Whether a macro is defined is asked of the
  macros as they stand, be it by `#ifdef` and `#ifndef` or by a condition `defined(X)` or
  `!defined(X)`.  Beside the macros it is noted which of them have been defined while they
  were defined, and which lines have been read.

Results:
  * `holds_defined`, `holds_notDefined`: the conditions about macros that headers are
    written with are understood so;
  * `process_render`: processing a printed block does what the block means;
  * `readLine_of_define`: what a line does that defines a macro;
  * `LinesDefine.cons_ofList`, `LinesDefine.choice`: fixed lines that define macros, each of
    them once.
-/

namespace InteropHeader

namespace Language

/-- The macro that is defined where a header is read in the language. -/
def macroName : Language → String
  | cxx => "__cplusplus"
  | objc => "__OBJC__"

theorem condition_eq (language : Language) :
    language.condition = "defined(" ++ language.macroName ++ ")" := by
  cases language <;> rfl

theorem continuesName_of_mem_macroName
    (language : Language) : ∀ c ∈ language.macroName.toList, Text.continuesName c = true := by
  cases language with
  | cxx => exact Text.forall_mem_ofList (by decide)
  | objc => exact Text.forall_mem_ofList (by decide)

end Language

namespace Condition

/-- The name in a text `defined(X)`. -/
def definedName? (text : List Char) : Option (List Char) :=
  let name := (text.drop "defined(".length).dropLast
  if text = "defined(".toList ++ name ++ [')'] ∧ name.all Text.continuesName then
    some name
  else
    none

/-- The macro that a text asks for, and whether it is to be defined. -/
def textQuestion? : List Char → Option (String × Bool)
  | '!' :: rest => (definedName? rest).map fun name => (String.ofList name, false)
  | text => (definedName? text).map fun name => (String.ofList name, true)

/-- The macro that a condition asks for, and whether it is to be defined; most conditions
ask for none. -/
def question? : Condition → Option (String × Bool)
  | defined operand =>
      some (String.ofList (operand.toList.takeWhile Text.continuesName), true)
  | undefined operand =>
      some (String.ofList (operand.toList.takeWhile Text.continuesName), false)
  | test text => textQuestion? text.toList

section Questions

variable {name : String} (h : ∀ c ∈ name.toList, Text.continuesName c = true)
include h

theorem definedName?_eq_some :
    definedName? ("defined(".toList ++ name.toList ++ [')']) = some name.toList := by
  have hname : (("defined(".toList ++ name.toList ++ [')']).drop
      "defined(".length).dropLast = name.toList := by
    rw [List.append_assoc, ← String.length_toList, List.drop_left, List.dropLast_concat]
  rw [definedName?, hname, if_pos ⟨rfl, by simpa using h⟩]

theorem question?_defined :
    question? (.ofText ("defined(" ++ name ++ ")")) = some (name, true) := by
  have hfound := definedName?_eq_some h
  have htext : question? (.ofText ("defined(" ++ name ++ ")")) =
      (definedName? ("defined(".toList ++ name.toList ++ [')'])).map
        fun name => (String.ofList name, true) := by
    rw [Condition.ofText, question?, String.toList_ofList, String.toList_append,
      String.toList_append]
    rfl
  rw [htext, hfound, Option.map_some, String.ofList_toList]

theorem question?_notDefined :
    question? (.ofText ("!defined(" ++ name ++ ")")) = some (name, false) := by
  have hfound := definedName?_eq_some h
  have htext : question? (.ofText ("!defined(" ++ name ++ ")")) =
      (definedName? ("defined(".toList ++ name.toList ++ [')'])).map
        fun name => (String.ofList name, false) := by
    rw [Condition.ofText, question?, String.toList_ofList, String.toList_append,
      String.toList_append]
    rfl
  rw [htext, hfound, Option.map_some, String.ofList_toList]

end Questions

end Condition

/-- How far processing has got. -/
structure Processing where
  /-- What is written behind the name of a macro where it is defined. -/
  definition? : String → Option String
  /-- The macros that have been defined while they were defined already. -/
  redefined : List String
  /-- The lines that have been read. -/
  kept : List String

namespace Processing

/-- Whether a macro is defined. -/
def isDefined (now : Processing) (name : String) : Bool :=
  (now.definition? name).isSome

/-- Defines a macro. -/
def define (now : Processing) (name behind : String) : Processing where
  definition? := Function.update now.definition? name (some behind)
  redefined := if now.isDefined name then now.redefined ++ [name] else now.redefined
  kept := now.kept

/-- Undoes the definition of a macro, if there is one. -/
def undefine (now : Processing) (name : String) : Processing where
  definition? := Function.update now.definition? name none
  redefined := now.redefined
  kept := now.kept

/-- Does what a directive says. -/
def obey (now : Processing) : MacroDirective → Processing
  | .define name behind => now.define name behind
  | .undefine name => now.undefine name

/-- Reads a line, which may hold a directive. -/
def readLine (now : Processing) (line : String) : Processing :=
  let next := (MacroDirective.ofLine? line).elim now now.obey
  ⟨next.definition?, next.redefined, next.kept ++ [line]⟩

/-- Whether a condition holds: it asks for a macro, or its truth is fixed. -/
def holds (truth : Condition → Bool) (now : Processing) (condition : Condition) : Bool :=
  match condition.question? with
  | some (name, expected) => now.isDefined name == expected
  | none => truth condition

/-- The reader that processes what it reads. -/
def reader (truth : Condition → Bool) : Reader Processing where
  holds now condition := now.holds truth condition
  read := readLine

@[simp] theorem holds_reader
    (truth : Condition → Bool) (now : Processing) (condition : Condition) :
    (reader truth).holds now condition = now.holds truth condition :=
  rfl

/-- Processes a text. -/
def process (truth : Condition → Bool) (now : Processing) (text : String) : Processing :=
  ((reader truth).run ⟨[], now⟩ (Text.lines text)).state

variable {truth : Condition → Bool} {now : Processing}

/-- Processing a printed block does what the block means. -/
theorem process_render {block : Block} (h : block.WellFormed) :
    now.process truth block.render = block.read (reader truth) now := by
  rw [process, Block.run_render h rfl]

section Conditions

variable {name : String}

theorem holds_defined (h : ∀ c ∈ name.toList, Text.continuesName c = true) :
    now.holds truth (.ofText ("defined(" ++ name ++ ")")) = now.isDefined name := by
  rw [holds, Condition.question?_defined h]
  simp

theorem holds_notDefined (h : ∀ c ∈ name.toList, Text.continuesName c = true) :
    now.holds truth (.ofText ("!defined(" ++ name ++ ")")) = !now.isDefined name := by
  rw [holds, Condition.question?_notDefined h]
  simp

theorem holds_language (language : Language) :
    now.holds truth (.ofText language.condition) = now.isDefined language.macroName := by
  rw [language.condition_eq]
  exact holds_defined language.continuesName_of_mem_macroName

end Conditions

section Definitions

variable {line name behind : String}

theorem readLine_of_define (h : MacroDirective.ofLine? line = some (.define name behind)) :
    now.readLine line =
      ⟨(now.define name behind).definition?, (now.define name behind).redefined,
        now.kept ++ [line]⟩ := by
  rw [readLine, h]
  rfl

/-- What lines have done that define the given macros, each of them once. -/
structure DefinesAll (before after : Processing) (names : List String) : Prop where
  isDefined : ∀ name ∈ names, after.isDefined name = true
  redefined_eq : after.redefined = before.redefined ++ names.filter before.isDefined
  definition?_eq : ∀ name, name ∉ names → after.definition? name = before.definition? name

theorem DefinesAll.nil (now : Processing) : now.DefinesAll now [] where
  isDefined := by simp
  redefined_eq := by simp
  definition?_eq _ _ := rfl

/-- Definitions of different macros are made one after the other. -/
theorem DefinesAll.trans
    {before middle after : Processing} {first second : List String}
    (hfirst : before.DefinesAll middle first) (hsecond : middle.DefinesAll after second)
    (hdisjoint : first.Disjoint second) :
    before.DefinesAll after (first ++ second) := by
  refine ⟨fun name hname => ?_, ?_, fun name hname => ?_⟩
  · by_cases hmem : name ∈ second
    · exact hsecond.isDefined name hmem
    · rw [Processing.isDefined, hsecond.definition?_eq name hmem]
      exact hfirst.isDefined name ((List.mem_append.1 hname).resolve_right hmem)
  · have hfilter : second.filter middle.isDefined = second.filter before.isDefined := by
      refine List.filter_congr fun name hname => ?_
      rw [Processing.isDefined, hfirst.definition?_eq name fun hmem => hdisjoint hmem hname,
        Processing.isDefined]
    rw [hsecond.redefined_eq, hfirst.redefined_eq, hfilter, List.filter_append,
      List.append_assoc]
  · rw [List.mem_append, not_or] at hname
    rw [hsecond.definition?_eq name hname.2, hfirst.definition?_eq name hname.1]

theorem DefinesAll.of_readLine (h : MacroDirective.Defines line name) :
    now.DefinesAll (now.readLine line) [name] := by
  obtain ⟨behind, hline⟩ := h
  rw [readLine_of_define hline]
  refine ⟨by simp [Processing.isDefined, define], ?_, fun other hother => ?_⟩
  · by_cases hdefined : now.isDefined name
    · simp [define, hdefined]
    · simp [define, hdefined]
  · exact Function.update_of_ne (by simpa using hother) _ _

theorem does_readLine (hnewline : '\n' ∉ line.toList) (h : MacroDirective.Defines line name) :
    (reader truth).Does [line] fun now => now.readLine line := by
  obtain ⟨behind, hline⟩ := h
  exact .line hnewline (MacroDirective.directive_ofLine?_eq_none hline)

/-- Lines that define the given macros, each of them once, whatever conditions hold. -/
def LinesDefine (lines names : List String) : Prop :=
  ∀ truth : Condition → Bool, ∃ f : Processing → Processing,
    (reader truth).Does lines f ∧ ∀ now : Processing, now.DefinesAll (f now) names

theorem LinesDefine.nil : LinesDefine [] [] :=
  fun _ => ⟨_, .nil, .nil⟩

/-- One more line defines one more macro; what a fixed line defines is told from its
characters. -/
theorem LinesDefine.cons_ofList
    {line : List Char} {rest names : List String} (hnewline : '\n' ∉ line)
    (h : (MacroDirective.ofChars? line).bind MacroDirective.defined? = some name)
    (hrest : LinesDefine rest names) (hname : name ∉ names) :
    LinesDefine (String.ofList line :: rest) (name :: names) := by
  have hline : MacroDirective.Defines (String.ofList line) name :=
    MacroDirective.defines_ofList h
  intro truth
  obtain ⟨f, hdoes, hdefines⟩ := hrest truth
  refine ⟨_, (does_readLine (Text.notMem_ofList hnewline) hline).append hdoes, fun now => ?_⟩
  exact (DefinesAll.of_readLine hline).trans (hdefines _) (by simpa using hname)

theorem LinesDefine.ofList
    {line : List Char} (hnewline : '\n' ∉ line)
    (h : (MacroDirective.ofChars? line).bind MacroDirective.defined? = some name) :
    LinesDefine [String.ofList line] [name] :=
  .cons_ofList hnewline h .nil List.not_mem_nil

/-- Both branches of a conditional may define the same macro in different ways. -/
theorem LinesDefine.choice
    {opening body alternative : String} {condition : Condition}
    (hopening : Directive.ofLine? opening = some (.opening condition))
    (hnewline : '\n' ∉ opening.toList) (hbody : LinesDefine [body] [name])
    (halternative : LinesDefine [alternative] [name]) :
    LinesDefine [opening, body, "# else", alternative, "# endif"] [name] := by
  intro truth
  obtain ⟨f, hf, hdefines⟩ := hbody truth
  obtain ⟨g, hg, hdefines'⟩ := halternative truth
  have hdoes := Reader.Does.ifElse hopening Directive.ofLine?_spacedElse
    Directive.ofLine?_spacedEndif ⟨hnewline, by decide, by decide⟩ hf hg
  refine ⟨_, hdoes, fun now => ?_⟩
  split
  · exact hdefines now
  · exact hdefines' now

end Definitions

end Processing

end InteropHeader
