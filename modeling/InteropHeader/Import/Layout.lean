import InteropHeader.Directive.Block
import InteropHeader.Import.Section

/-!
# The printed import section

Input:
  an import section.

Algorithm:
  the import statements stand inside a conditional that asks for module
  support, behind a pragma that is itself guarded by a conditional; an empty
  line follows, and then, independent of module support, the include of the
  module's own header with another empty line.
-/

namespace InteropHeader

namespace ImportStatement

/-- The line of an import statement. -/
def line (statement : ImportStatement) : String :=
  "@import " ++ statement.name ++ ";"

end ImportStatement

namespace OwnHeader

/-- The line that includes a module's own header. -/
def line : OwnHeader → String
  | umbrella name => "#import <" ++ name ++ "/" ++ name ++ ".h>"
  | bridging path => "#import \"" ++ path ++ "\""

end OwnHeader

namespace ImportSection

/-- The import section with its conditionals. -/
def block (imports : ImportSection) : Block :=
  .all [
    .onlyIf "__has_feature(modules)" (.all [
      .onlyIf "__has_warning(\"-Watimport-in-framework-header\")" (.lines [
        "#pragma clang diagnostic ignored \"-Watimport-in-framework-header\""]),
      .lines (imports.statements.map ImportStatement.line)]),
    .lines [""],
    match imports.ownHeader with
    | none => .empty
    | some header => .lines [header.line, ""]]

/-- The printed import section. -/
def render (imports : ImportSection) : String :=
  imports.block.render

end ImportSection

end InteropHeader
