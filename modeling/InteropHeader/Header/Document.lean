import InteropHeader.Header.Printed
import InteropHeader.Header.Scaffold
import InteropHeader.Import.Layout

/-!
# The header of a module

Input:
  how modules are called, the printed declarations of the module, the bridging
  header, and whether declarations for C++ alone are to be shown.

Algorithm:
  the references of the Objective-C declarations give the import section; then
  six parts are printed in a fixed order.  The imports and the Objective-C
  declarations count for Objective-C alone, the C++ declarations for C++ alone.
  What the C++ declarations refer to is not imported.
-/

namespace InteropHeader
namespace Header

/-- A part of a header. -/
inductive Part
  /-- The guard, the probes, the standard includes and the macros. -/
  | opening
  | imports
  /-- The diagnostics silenced and the attribute set for the declarations. -/
  | attribution
  | objc
  | cxx
  /-- The end of what the first and the third part began. -/
  | closing
  deriving DecidableEq, Repr

/-- The parts in the order in which they are printed. -/
def parts : List Part :=
  [.opening, .imports, .attribution, .objc, .cxx, .closing]

/-- What a header is printed from. -/
structure Draft where
  /-- The text after "Generated by" in the banner. -/
  toolchain : String
  name : String
  imports : ImportSection
  objc : String
  /-- The declarations for C++; empty if they are not shown. -/
  cxx : String

namespace Draft

/-- One part of the header. -/
def part (draft : Draft) : Part → Block
  | .opening => Header.opening draft.toolchain (includeGuard draft.name)
  | .imports => .forLanguage .objc draft.imports.block
  | .attribution => Header.attribution draft.name
  | .objc => .forLanguage .objc (.text draft.objc)
  | .cxx => .forLanguage .cxx (.text draft.cxx)
  | .closing => Header.closing

/-- The header. -/
def block (draft : Draft) : Block :=
  .all (parts.map draft.part)

/-- The printed header. -/
def render (draft : Draft) : String :=
  draft.block.render

end Draft

/-- What the user of a header may choose. -/
structure Options where
  /-- The header to include in place of the underlying module. -/
  bridging : Option String := none
  exposeCxx : Bool := false

section Documents

variable {κ : Type} [ModuleNaming κ]

/-- What the header of a module is printed from. -/
def draft (names : κ) (handle : HostHandle) (objc cxx : PrintedDeclarations)
    (options : Options) : Except Fault Draft := do
  let name ← ModuleNaming.hostName names handle
  let imports ←
    (ReferenceSet.ofList objc.uses).importSection names handle options.bridging
  return {
    toolchain := ModuleNaming.toolchain names
    name := name
    imports := imports
    objc := objc.text
    cxx := if options.exposeCxx then cxx.text else "" }

/-- The header of a module. -/
def render (names : κ) (handle : HostHandle) (objc cxx : PrintedDeclarations)
    (options : Options) : Except Fault String :=
  Draft.render <$> draft names handle objc cxx options

end Documents

/-- The number of bytes that a header takes in a place with room for a limited
number of bytes; nothing if it does not fit. -/
def write? (room : Nat) (header : String) : Option Nat :=
  if header.utf8ByteSize ≤ room then some header.utf8ByteSize else none

end Header

namespace ModuleTable

/-- The import section of a module of the table. -/
def importSection (table : ModuleTable) (handle : HostHandle) (bridging : Option String) :
    Except Fault ImportSection := do
  let objc ← table.printed .objc handle
  (ReferenceSet.ofList objc.uses).importSection table handle bridging

/-- The header of a module of the table. -/
def header (table : ModuleTable) (handle : HostHandle) (options : Header.Options) :
    Except Fault String := do
  let objc ← table.printed .objc handle
  let cxx ← table.printed .cxx handle
  Header.render table handle objc cxx options

end ModuleTable

end InteropHeader
