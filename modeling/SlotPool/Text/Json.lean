/-!
Laying out JSON for people: two spaces of indentation, one member a line, an empty list on one line.
-/

namespace SlotPool.Text.Json

/-- A value that stands on one line. -/
inductive Scalar
  | number (value : Nat)
  | text (value : String)
  deriving DecidableEq

/-- One of the sixteen hexadecimal digits, in lower case. -/
def hexDigit (n : Nat) : Char :=
  if n < 10 then Char.ofNat ('0'.toNat + n) else Char.ofNat ('a'.toNat + (n - 10))

/-- How a character stands inside quotes. Quotes, backslashes and control characters are escaped. -/
def escape (c : Char) : List Char :=
  if c = '"' then ['\\', '"']
  else if c = '\\' then ['\\', '\\']
  else if c = '\n' then ['\\', 'n']
  else if c = '\r' then ['\\', 'r']
  else if c = '\t' then ['\\', 't']
  else if c.toNat = 8 then ['\\', 'b']
  else if c.toNat = 12 then ['\\', 'f']
  else if c.toNat < 32 then ['\\', 'u', '0', '0', hexDigit (c.toNat / 16), hexDigit (c.toNat % 16)]
  else [c]

/-- A text between quotes. -/
def quote (text : String) : String :=
  "\"" ++ String.ofList (text.toList.flatMap escape) ++ "\""

/-- A number in digits, a text in quotes. -/
def Scalar.render : Scalar → String
  | .number value => toString value
  | .text value => quote value

/-- Two spaces for each level. -/
def indentation (level : Nat) : String :=
  String.ofList (List.replicate (2 * level) ' ')

/-- An object whose opening brace stands at the given level. -/
def object (level : Nat) (members : List (String × Scalar)) : String :=
  let lines := members.map fun (name, value) =>
    indentation (level + 1) ++ quote name ++ ": " ++ value.render
  "\x7b\n" ++ String.intercalate ",\n" lines ++ "\n" ++ indentation level ++ "\x7d"

/-- A list of objects at the outermost level. -/
def objects (items : List (List (String × Scalar))) : String :=
  if items.isEmpty then "[]"
  else
    let lines := items.map fun members => indentation 1 ++ object 1 members
    "[\n" ++ String.intercalate ",\n" lines ++ "\n]"

end SlotPool.Text.Json
