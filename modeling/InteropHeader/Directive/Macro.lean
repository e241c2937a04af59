import InteropHeader.Directive.Block

/-!
# Guarded macros

Input:
  the name of a macro, its parameter list and what it is replaced by.

Algorithm:
  a macro is defined only where its name is not defined yet.  The replacement is
  one value, a choice between two values, or given by verbatim lines.  Each of
  the three may depend on the language a header is read by; verbatim lines for
  one language guard themselves.
-/

namespace InteropHeader

/-- What a macro is replaced by. -/
inductive Replacement
  | value (value : String)
  | choice (condition value otherwise : String)
  | verbatim (lines : List String)
  /-- A value for readers of one language; for others there is no macro. -/
  | valueFor (language : Language) (value : String)
  | choiceFor (language : Language) (value otherwise : String)
  /-- Whatever the given lines define for readers of one language; the lines
  guard themselves. -/
  | verbatimFor (language : Language) (lines : List String)
  deriving DecidableEq, Repr

/-- A macro that a header defines unless the including file already did.  Only its own name
is asked for: what verbatim lines define beside it replaces an earlier definition. -/
structure GuardedMacro where
  name : String
  /-- The parameter list with its parentheses; empty for a macro without one. -/
  parameters : String
  replacement : Replacement
  deriving DecidableEq, Repr

namespace GuardedMacro

/-- The line that defines the macro, indented by the given blanks. -/
def defineLine (m : GuardedMacro) (indent value : String) : String :=
  "#" ++ indent ++ "define " ++ m.name ++ m.parameters ++ " " ++ value

/-- A block that counts only while the macro is undefined. -/
def ifUndefined (m : GuardedMacro) (body : Block) : Block :=
  .onlyIf ("!defined(" ++ m.name ++ ")") body

/-- The definition with its guards. -/
def block (m : GuardedMacro) : Block :=
  match m.replacement with
  | .value value => m.ifUndefined (.lines [m.defineLine " " value])
  | .choice condition value otherwise =>
      m.ifUndefined (.lines [
        "# if " ++ condition,
        m.defineLine "  " value,
        "# else",
        m.defineLine "  " otherwise,
        "# endif"])
  | .verbatim lines => m.ifUndefined (.lines lines)
  | .valueFor language value =>
      .forLanguage language (m.ifUndefined (.lines [m.defineLine " " value]))
  | .choiceFor language value otherwise =>
      m.ifUndefined (.byLanguage language
        (.lines [m.defineLine " " value]) (.lines [m.defineLine " " otherwise]))
  | .verbatimFor language lines => .forLanguage language (.lines lines)

/-- The printed definition. -/
def render (m : GuardedMacro) : String :=
  m.block.render

end GuardedMacro

end InteropHeader
