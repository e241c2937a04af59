/-!
# JSON values

A value of the data format, and its text with one entry per line: two blanks of
indentation per level, a blank after each colon, and empty lists and objects on
one line.  In a string, quotation marks, backslashes and control characters
below U+0020 are escaped, with the short escape where there is one; every other
character stands for itself.
-/

namespace InteropHeader

/-- A JSON value; the fields of an object stand in order. -/
inductive JsonValue
  | null
  | bool (value : Bool)
  | number (value : Int)
  | string (value : String)
  | array (items : List JsonValue)
  | object (fields : List (String × JsonValue))

namespace JsonValue

instance : Inhabited JsonValue :=
  ⟨null⟩

/-- The hexadecimal digit of a number below sixteen. -/
def hexDigit (n : Nat) : Char :=
  if n < 10 then Char.ofNat ('0'.toNat + n) else Char.ofNat ('a'.toNat + (n - 10))

/-- The characters that stand for one character inside a string. -/
def escape (c : Char) : List Char :=
  if c = '"' then ['\\', '"']
  else if c = '\\' then ['\\', '\\']
  else if c = '\n' then ['\\', 'n']
  else if c = '\r' then ['\\', 'r']
  else if c = '\t' then ['\\', 't']
  else if c = '\x08' then ['\\', 'b']
  else if c = '\x0c' then ['\\', 'f']
  else if c.toNat < 0x20 then
    ['\\', 'u', '0', '0', hexDigit (c.toNat / 16), hexDigit (c.toNat % 16)]
  else [c]

/-- A text between quotation marks. -/
def quote (text : String) : String :=
  "\"" ++ String.ofList (text.toList.flatMap escape) ++ "\""

/-- The start of a line at a level of nesting. -/
def newLine (level : Nat) : String :=
  "\n" ++ String.ofList (List.replicate (2 * level) ' ')

mutual

/-- The text of a value whose line starts at the given level. -/
def pretty (level : Nat) : JsonValue → String
  | null => "null"
  | bool value => if value then "true" else "false"
  | number value => toString value
  | string value => quote value
  | array items =>
      if items.isEmpty then "[]"
      else "[" ++ prettyItems (level + 1) items ++ newLine level ++ "]"
  | object fields =>
      if fields.isEmpty then "\x7b\x7d"
      else "\x7b" ++ prettyFields (level + 1) fields ++ newLine level ++ "\x7d"

/-- The items of a list, each on a line of its own. -/
def prettyItems (level : Nat) : List JsonValue → String
  | [] => ""
  | item :: rest =>
      newLine level ++ pretty level item ++ (if rest.isEmpty then "" else ",") ++
        prettyItems level rest

/-- The fields of an object, each on a line of its own. -/
def prettyFields (level : Nat) : List (String × JsonValue) → String
  | [] => ""
  | (key, value) :: rest =>
      newLine level ++ quote key ++ ": " ++ pretty level value ++
        (if rest.isEmpty then "" else ",") ++ prettyFields level rest

end

/-- The text of a value. -/
def render (value : JsonValue) : String :=
  value.pretty 0

end JsonValue

end InteropHeader
