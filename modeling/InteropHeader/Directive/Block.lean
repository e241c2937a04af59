import InteropHeader.Module.Basic
import InteropHeader.Text.Lines

/-!
# Conditional blocks

Input:
  a tree of texts and preprocessor conditionals around them.

Algorithm:
  a conditional is printed as `#if`, its body, an `#else` part only if there is
  one, and `#endif`; everything else is printed as it stands.  Each conditional
  closes what it opens, so blocks nest freely.

Results:
  * `render_append`: printing goes block by block.
-/

namespace InteropHeader

namespace Language

/-- The condition that holds when a header is read in the language. -/
def condition : Language → String
  | cxx => "defined(__cplusplus)"
  | objc => "defined(__OBJC__)"

end Language

/-- A piece of a header with its conditionals. -/
inductive Block
  | text (content : String)
  | append (first second : Block)
  | onlyIf (condition : String) (body : Block)
  | ifElse (condition : String) (body alternative : Block)
  deriving DecidableEq, Repr

namespace Block

instance : Append Block :=
  ⟨append⟩

/-- The block that prints nothing. -/
def empty : Block :=
  text ""

instance : Inhabited Block :=
  ⟨empty⟩

/-- Full lines. -/
def lines (content : List String) : Block :=
  text (Text.ofLines content)

/-- Blocks one after the other. -/
def all : List Block → Block
  | [] => empty
  | block :: rest => block ++ all rest

/-- A block for readers of one language. -/
def forLanguage (language : Language) (body : Block) : Block :=
  onlyIf language.condition body

/-- One block for readers of a language and another one for all other readers. -/
def byLanguage (language : Language) (body alternative : Block) : Block :=
  ifElse language.condition body alternative

/-- The printed block. -/
def render : Block → String
  | text content => content
  | append first second => first.render ++ second.render
  | onlyIf condition body =>
      "#if " ++ condition ++ "\n" ++ body.render ++ "#endif\n"
  | ifElse condition body alternative =>
      "#if " ++ condition ++ "\n" ++ body.render ++ "#else\n" ++
        alternative.render ++ "#endif\n"

@[simp] theorem render_append (first second : Block) :
    (first ++ second).render = first.render ++ second.render :=
  rfl

end Block

end InteropHeader
