import InteropHeader.Import.References
import InteropHeader.Module.Table

/-!
# The printed declarations of a module

Input:
  the declarations of a module for one language.

Algorithm:
  each text is closed by a line feed unless it ends in one, and an empty line
  follows; the modules that the texts refer to are gathered on the way.
-/

namespace InteropHeader

/-- Printed declarations with the modules they refer to. -/
structure PrintedDeclarations where
  text : String
  /-- The modules referred to, in order and with repetitions. -/
  uses : List Reference
  deriving DecidableEq, Repr

namespace Declaration

/-- The printed declaration. -/
def render (declaration : Declaration) : String :=
  if declaration.text.toList.getLast? = some '\n' then
    declaration.text ++ "\n"
  else
    declaration.text ++ "\n\n"

end Declaration

namespace PrintedDeclarations

/-- No declarations. -/
def empty : PrintedDeclarations :=
  ⟨"", []⟩

/-- The given declarations, printed in order. -/
def ofDeclarations : List Declaration → PrintedDeclarations
  | [] => empty
  | declaration :: rest =>
      { text := declaration.render ++ (ofDeclarations rest).text
        uses := declaration.uses ++ (ofDeclarations rest).uses }

end PrintedDeclarations

namespace ModuleTable

/-- The printed declarations of a module for one language. -/
def printed (table : ModuleTable) (language : Language) (handle : HostHandle) :
    Except Fault PrintedDeclarations :=
  (table.host handle).map fun m =>
    PrintedDeclarations.ofDeclarations (m.declarations language)

end ModuleTable

end InteropHeader
