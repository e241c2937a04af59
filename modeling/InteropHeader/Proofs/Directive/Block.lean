import InteropHeader.Directive.Block
import InteropHeader.Proofs.Directive.Reader

/-!
# Reading a printed block

Input:
  a tree of texts and conditionals in which every text is balanced and ends its
  last line, and every condition takes up one line.

Algorithm:
  the tree has a meaning of its own: of a conditional, one branch counts or none,
  and the texts that count are read one after the other.

Results:
  * `balanced_render`: the printed block is balanced;
  * `run_render`: reading the printed block does what the tree means, inside any
    branches that are taken;
  * `read_of_eachLine`: what reading each line of a block keeps, reading the block
    keeps;
  * `kept_render`: under a fixed truth of all conditions, what is kept of the
    printed block is what is kept of the texts that count;
  * `kept_render_eq_flatMap_leaves`: the same with the texts that count as a list.
-/

namespace InteropHeader
namespace Block

/-- Every text is balanced and ends its last line, and every condition takes up
one line. -/
def WellFormed : Block → Prop
  | text content => Text.Terminated content ∧ Balanced content
  | append first second => first.WellFormed ∧ second.WellFormed
  | onlyIf condition body => '\n' ∉ condition.toList ∧ body.WellFormed
  | ifElse condition body alternative =>
      '\n' ∉ condition.toList ∧ body.WellFormed ∧ alternative.WellFormed

instance decidableWellFormed : (block : Block) → Decidable block.WellFormed
  | text content =>
      inferInstanceAs (Decidable (Text.Terminated content ∧ Balanced content))
  | append first second =>
      have := decidableWellFormed first
      have := decidableWellFormed second
      inferInstanceAs (Decidable (first.WellFormed ∧ second.WellFormed))
  | onlyIf condition body =>
      have := decidableWellFormed body
      inferInstanceAs (Decidable ('\n' ∉ condition.toList ∧ body.WellFormed))
  | ifElse condition body alternative =>
      have := decidableWellFormed body
      have := decidableWellFormed alternative
      inferInstanceAs (Decidable
        ('\n' ∉ condition.toList ∧ body.WellFormed ∧ alternative.WellFormed))

theorem wellFormed_lines {content : List String} (h : LeadsTo 0 0 content) :
    (lines content).WellFormed :=
  ⟨Text.terminated_ofLines content, h.balanced_ofLines⟩

theorem wellFormed_empty : empty.WellFormed :=
  ⟨Text.terminated_empty, balanced_empty⟩

theorem wellFormed_all
    {blocks : List Block} (h : ∀ block ∈ blocks, block.WellFormed) :
    (all blocks).WellFormed := by
  induction blocks with
  | nil =>
      exact wellFormed_empty
  | cons block rest ih =>
      exact ⟨h block (by simp), ih fun other hother => h other (by simp [hother])⟩

section Printing

theorem terminated_render {block : Block} (h : block.WellFormed) :
    Text.Terminated block.render := by
  induction block with
  | text content =>
      exact h.1
  | append first second ihFirst ihSecond =>
      exact (ihFirst h.1).append (ihSecond h.2)
  | onlyIf condition body ih =>
      exact Text.terminated_append_of_ne_empty (by decide) (by decide) _
  | ifElse condition body alternative ihBody ihAlternative =>
      exact Text.terminated_append_of_ne_empty (by decide) (by decide) _

theorem lines_opening
    {condition : String} (h : '\n' ∉ condition.toList) :
    Text.lines ("#if " ++ condition ++ "\n") = ["#if " ++ condition] := by
  refine Text.lines_line ?_
  rw [String.toList_append, List.mem_append, not_or]
  exact ⟨by decide, h⟩

theorem lines_render_append
    {first second : Block} (h : first.WellFormed) :
    Text.lines (append first second).render =
      Text.lines first.render ++ Text.lines second.render :=
  Text.lines_append (terminated_render h) _

theorem lines_render_onlyIf
    {condition : String} {body : Block} (h : (onlyIf condition body).WellFormed) :
    Text.lines (onlyIf condition body).render =
      ("#if " ++ condition) :: (Text.lines body.render ++ ["#endif"]) := by
  have hopening := Text.terminated_newline ("#if " ++ condition)
  have hbody := terminated_render h.2
  rw [render, Text.lines_append (hopening.append hbody),
    Text.lines_append hopening, lines_opening h.1]
  rfl

theorem lines_render_ifElse
    {condition : String} {body alternative : Block}
    (h : (ifElse condition body alternative).WellFormed) :
    Text.lines (ifElse condition body alternative).render =
      ("#if " ++ condition) ::
        (Text.lines body.render ++
          "#else" :: (Text.lines alternative.render ++ ["#endif"])) := by
  have hopening := Text.terminated_newline ("#if " ++ condition)
  have hbody := terminated_render h.2.1
  have halternative := terminated_render h.2.2
  have helse : Text.Terminated "#else\n" := by
    decide
  rw [render,
    Text.lines_append (((hopening.append hbody).append helse).append halternative),
    Text.lines_append ((hopening.append hbody).append helse),
    Text.lines_append (hopening.append hbody), Text.lines_append hopening,
    lines_opening h.1, List.append_assoc, List.append_assoc, List.append_assoc]
  rfl

/-- A printed block is balanced. -/
theorem balanced_render {block : Block} (h : block.WellFormed) :
    Balanced block.render := by
  induction block with
  | text content =>
      exact h.2
  | append first second ihFirst ihSecond =>
      exact balanced_append (terminated_render h.1) (ihFirst h.1) (ihSecond h.2)
  | onlyIf condition body ih =>
      have hbody : depthAfter 1 (Text.lines body.render) = some 1 :=
        depthAfter_add (ih h.2) 1
      rw [Balanced, lines_render_onlyIf h, depthAfter_cons]
      simp only [lineDepth, Directive.ofLine?_if, Directive.depthBehind,
        Directive.depthAfter,
        Option.bind_some, depthAfter_append, Nat.zero_add, hbody]
      decide
  | ifElse condition body alternative ihBody ihAlternative =>
      have hbody : depthAfter 1 (Text.lines body.render) = some 1 :=
        depthAfter_add (ihBody h.2.1) 1
      have halternative : depthAfter 1 (Text.lines alternative.render) = some 1 :=
        depthAfter_add (ihAlternative h.2.2) 1
      have helse : lineDepth 1 "#else" = some 1 := by
        decide
      rw [Balanced, lines_render_ifElse h, depthAfter_cons]
      simp only [lineDepth, Directive.ofLine?_if, Directive.depthBehind,
        Directive.depthAfter,
        Option.bind_some, depthAfter_append, Nat.zero_add, hbody]
      rw [depthAfter_cons, helse, Option.bind_some, depthAfter_append, halternative,
        Option.bind_some]
      decide

end Printing

section Reading

variable {σ : Type}

/-- What reading a block means: of a conditional, the branch that its condition
tells. -/
def read (reader : Reader σ) : Block → σ → σ
  | text content, state => (reader.run ⟨[], state⟩ (Text.lines content)).state
  | append first second, state => second.read reader (first.read reader state)
  | onlyIf condition body, state =>
      if reader.holds state (.ofText condition) then body.read reader state else state
  | ifElse condition body alternative, state =>
      if reader.holds state (.ofText condition) then body.read reader state
      else alternative.read reader state

variable {reader : Reader σ} {branches : List Branch} {state : σ}

theorem read_lines {content : List String} {f : σ → σ} (h : reader.Does content f) :
    (lines content).read reader state = f state := by
  rw [lines, read, Text.lines_ofLines h.newline_notMem, h.run_eq]

theorem read_all_append (first second : List Block) :
    (all (first ++ second)).read reader state =
      (all second).read reader ((all first).read reader state) := by
  induction first generalizing state with
  | nil =>
      rfl
  | cons block rest ih =>
      exact ih

/-- Reading a printed block does what the tree means. -/
theorem run_render
    {block : Block} (h : block.WellFormed) (hactive : isActive branches = true) :
    reader.run ⟨branches, state⟩ (Text.lines block.render) =
      ⟨branches, block.read reader state⟩ := by
  induction block generalizing branches state with
  | text content =>
      exact Reader.run_of_active _ _ hactive h.2
  | append first second ihFirst ihSecond =>
      rw [lines_render_append h.1, Reader.run_append, ihFirst h.1 hactive,
        ihSecond h.2 hactive]
      rfl
  | onlyIf condition body ih =>
      rw [lines_render_onlyIf h,
        Reader.run_onlyIf (Directive.ofLine?_if condition) Directive.ofLine?_endif
          (balanced_render h.2) hactive, ih h.2 rfl]
      rfl
  | ifElse condition body alternative ihBody ihAlternative =>
      rw [lines_render_ifElse h,
        Reader.run_ifElse (Directive.ofLine?_if condition) Directive.ofLine?_else
          Directive.ofLine?_endif (balanced_render h.2.1) (balanced_render h.2.2) hactive,
        ihBody h.2.1 rfl, ihAlternative h.2.2 rfl]
      rfl

end Reading

section EachLine

variable {P : String → Prop}

/-- Whether something holds of every line of every text. -/
def EachLine (P : String → Prop) : Block → Prop
  | text content => ∀ line ∈ Text.lines content, P line
  | append first second => first.EachLine P ∧ second.EachLine P
  | onlyIf _ body => body.EachLine P
  | ifElse _ body alternative => body.EachLine P ∧ alternative.EachLine P

theorem eachLine_empty : empty.EachLine P :=
  fun _ hline => absurd hline List.not_mem_nil

theorem eachLine_lines
    {content : List String} (h : ∀ line ∈ content, '\n' ∉ line.toList ∧ P line) :
    (lines content).EachLine P := by
  intro line hline
  rw [Text.lines_ofLines fun line hline => (h line hline).1] at hline
  exact (h line hline).2

theorem eachLine_all
    {blocks : List Block} (h : ∀ block ∈ blocks, block.EachLine P) :
    (all blocks).EachLine P := by
  induction blocks with
  | nil =>
      exact eachLine_empty
  | cons block rest ih =>
      exact ⟨h block (by simp), ih fun other hother => h other (by simp [hother])⟩

/-- What reading each line of a block keeps, reading the block keeps. -/
theorem read_of_eachLine
    {σ : Type} {reader : Reader σ} {I : σ → Prop}
    (hread : ∀ state line, P line → I state → I (reader.read state line))
    {block : Block} (h : block.EachLine P) {state : σ} (hstart : I state) :
    I (block.read reader state) := by
  induction block generalizing state with
  | text content =>
      exact Reader.run_of_read hread h hstart
  | append first second ihFirst ihSecond =>
      exact ihSecond h.2 (ihFirst h.1 hstart)
  | onlyIf condition body ih =>
      rw [read]
      split
      · exact ih h hstart
      · exact hstart
  | ifElse condition body alternative ihBody ihAlternative =>
      rw [read]
      split
      · exact ihBody h.1 hstart
      · exact ihAlternative h.2 hstart

end EachLine

section Keeping

/-- The kept lines of the texts that count. -/
def select (truth : Truth) : Block → List String
  | text content => truth.kept content
  | append first second => first.select truth ++ second.select truth
  | onlyIf condition body =>
      if truth.holds (.ofText condition) then body.select truth else []
  | ifElse condition body alternative =>
      if truth.holds (.ofText condition) then body.select truth
      else alternative.select truth

variable {truth : Truth}

theorem read_keeper
    (block : Block) (earlier : List String) :
    block.read truth.keeper earlier = earlier ++ block.select truth := by
  induction block generalizing earlier with
  | text content =>
      have happend :=
        Truth.run_keeper_append truth [] earlier [] (Text.lines content)
      rw [List.append_nil] at happend
      rw [read, happend]
      rfl
  | append first second ihFirst ihSecond =>
      rw [read, ihFirst, ihSecond, select, List.append_assoc]
  | onlyIf condition body ih =>
      by_cases hholds : truth.holds (.ofText condition)
      · simp [read, select, Truth.keeper, hholds, ← ih]
      · simp [read, select, Truth.keeper, hholds]
  | ifElse condition body alternative ihBody ihAlternative =>
      by_cases hholds : truth.holds (.ofText condition)
      · simp [read, select, Truth.keeper, hholds, ← ihBody]
      · simp [read, select, Truth.keeper, hholds, ← ihAlternative]

/-- What holds of each line of a block holds of those that are kept. -/
theorem forall_mem_select
    {P : String → Prop} {block : Block} (h : block.EachLine P) :
    ∀ line ∈ block.select truth, P line := by
  have hselect : ∀ line ∈ block.read truth.keeper [], P line :=
    read_of_eachLine Truth.forall_mem_read_keeper h (by simp)
  rwa [read_keeper, List.nil_append] at hselect

/-- What is kept of a printed block is what is kept of the texts that count. -/
theorem kept_render {block : Block} (h : block.WellFormed) :
    truth.kept block.render = block.select truth := by
  rw [Truth.kept, Truth.keptOf, run_render h rfl, read_keeper, List.nil_append]

/-- Plain lines all count. -/
theorem select_lines {content : List String} (h : PlainLines content) :
    (lines content).select truth = content := by
  show truth.keptOf (Text.lines (Text.ofLines content)) = content
  rw [Text.lines_ofLines fun line hline => (h line hline).1, Truth.keptOf_plain h]

theorem select_lines_of_keeps {content kept : List String} (h : truth.Keeps content kept) :
    (lines content).select truth = kept := by
  rw [lines, select, Truth.kept, Text.lines_ofLines h.leadsTo.newline_notMem, h.keptOf_eq]

theorem select_all (blocks : List Block) :
    (all blocks).select truth = blocks.flatMap (select truth) := by
  induction blocks with
  | nil =>
      rfl
  | cons block rest ih =>
      rw [List.flatMap_cons, ← ih]
      rfl

end Keeping

section Leaves

variable {truth : Truth}

/-- The texts that count, in order: of a conditional, those of the branch that its
condition tells. -/
def leaves (truth : Truth) : Block → List String
  | text content => [content]
  | append first second => first.leaves truth ++ second.leaves truth
  | onlyIf condition body =>
      if truth.holds (.ofText condition) then body.leaves truth else []
  | ifElse condition body alternative =>
      if truth.holds (.ofText condition) then body.leaves truth
      else alternative.leaves truth

theorem select_eq_flatMap_leaves (block : Block) :
    block.select truth = (block.leaves truth).flatMap truth.kept := by
  induction block with
  | text content =>
      simp [select, leaves]
  | append first second ihFirst ihSecond =>
      rw [select, leaves, List.flatMap_append, ihFirst, ihSecond]
  | onlyIf condition body ih =>
      rw [select, leaves, ih]
      split <;> rfl
  | ifElse condition body alternative ihBody ihAlternative =>
      rw [select, leaves, ihBody, ihAlternative]
      split <;> rfl

/-- **Conditionals keep their meaning however they are nested.**  A printed block is
balanced, and line by line exactly those lines of it are kept that are kept of the texts
that count, in order. -/
theorem kept_render_eq_flatMap_leaves {block : Block} (h : block.WellFormed) :
    Balanced block.render ∧
      ∀ truth : Truth, truth.kept block.render = (block.leaves truth).flatMap truth.kept := by
  refine ⟨balanced_render h, fun truth => ?_⟩
  rw [kept_render h, select_eq_flatMap_leaves]

/-- Conditionals in both branches of a conditional, an empty branch, and a text that
has conditionals of its own. -/
def interleaved : Block :=
  forLanguage .cxx
    (byLanguage .objc
      (onlyIf "__has_feature(modules)" (text "@import Foundation;\n"))
      (ifElse "A" empty
        (text "# ifndef B\nstruct X;\n# elif C\nstruct Y;\n# endif\n" ++ text "int x;\n"))) ++
  forLanguage .objc empty

/-- What is kept of `interleaved` in C++ where neither `A` nor `B` is defined. -/
theorem interleaved_kept_render :
    interleaved.WellFormed ∧ Balanced interleaved.render ∧
      Truth.kept ⟨(· = "defined(__cplusplus)"), fun _ => false⟩ interleaved.render =
        ["struct X;", "int x;"] := by
  have h : interleaved.WellFormed := by
    decide
  obtain ⟨hbalanced, hkept⟩ := kept_render_eq_flatMap_leaves h
  refine ⟨h, hbalanced, ?_⟩
  rw [hkept]
  decide

end Leaves

end Block
end InteropHeader
