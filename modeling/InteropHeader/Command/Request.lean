/-!
# Requests

What the user of the command line may ask for.
-/

namespace InteropHeader

/-- How an import section is printed. -/
inductive SectionFormat
  | text
  | json
  deriving DecidableEq, Repr

namespace SectionFormat

/-- The format with a name. -/
def ofName? : String → Option SectionFormat
  | "text" => some text
  | "json" => some json
  | _ => none

end SectionFormat

/-- What a header is to be made of. -/
structure HeaderRequest where
  manifest : String
  bridging : Option String := none
  exposeCxx : Bool := false
  deriving DecidableEq, Repr

/-- A request to the program. -/
inductive Request
  /-- Print a header, or write it to a file. -/
  | generate (header : HeaderRequest) (output : Option String)
  | imports (manifest : String) (bridging : Option String) (format : SectionFormat)
  | guard (name : String)
  | version
  | help
  deriving DecidableEq, Repr

end InteropHeader
