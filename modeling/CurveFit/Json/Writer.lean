import CurveFit.Text.Number

/-!
# Writing JSON

The values a program writes, and their two layouts: on one line without blanks, and indented by two
spaces with one member or item a line.
-/

namespace CurveFit.Json

/-- A value to be written.  Members keep the order they are given in. -/
inductive Output where
  | null
  | bool (b : Bool)
  | count (n : Nat)
  | real (x : Float)
  | string (s : String)
  | array (items : List Output)
  | object (members : List (String × Output))

/-- The lower-case hexadecimal digit of a value below sixteen. -/
def hexDigit (n : Nat) : Char := if n < 10 then Char.ofNat (48 + n) else Char.ofNat (87 + n)

/-- A character inside a string: quotes, backslashes and control characters are escaped. -/
def escapeChar (c : Char) : List Char :=
  if c = '"' then ['\\', '"']
  else if c = '\\' then ['\\', '\\']
  else if c = '\x08' then ['\\', 'b']
  else if c = '\x0c' then ['\\', 'f']
  else if c = '\n' then ['\\', 'n']
  else if c = '\x0d' then ['\\', 'r']
  else if c = '\t' then ['\\', 't']
  else if c.toNat < 32 then
    ['\\', 'u', '0', '0', hexDigit (c.toNat / 16), hexDigit (c.toNat % 16)]
  else [c]

/-- A string in quotes. -/
def quoted (s : String) : String :=
  "\"" ++ String.ofList (s.toList.flatMap escapeChar) ++ "\""

mutual

/-- The value on one line. -/
def Output.compact : Output → String
  | .null => "null"
  | .bool b => if b then "true" else "false"
  | .count n => toString n
  | .real x => CurveFit.Text.NumberStyle.json.render x
  | .string s => quoted s
  | .array items => "[" ++ compactItems items ++ "]"
  | .object members => "\x7b" ++ compactMembers members ++ "\x7d"

/-- The items between commas. -/
def compactItems : List Output → String
  | [] => ""
  | [v] => v.compact
  | v :: rest => v.compact ++ "," ++ compactItems rest

/-- The members between commas. -/
def compactMembers : List (String × Output) → String
  | [] => ""
  | [(k, v)] => quoted k ++ ":" ++ v.compact
  | (k, v) :: rest => quoted k ++ ":" ++ v.compact ++ "," ++ compactMembers rest

end

/-- A new line with its indentation. -/
def newLine (level : Nat) : String := "\n" ++ CurveFit.Text.copies (2 * level) ' '

mutual

/-- The value indented; `level` is the depth it stands at. -/
def Output.pretty (level : Nat) : Output → String
  | .array [] => "[]"
  | .array items => "[" ++ prettyItems (level + 1) items ++ newLine level ++ "]"
  | .object [] => "\x7b\x7d"
  | .object members => "\x7b" ++ prettyMembers (level + 1) members ++ newLine level ++ "\x7d"
  | .null => "null"
  | .bool b => if b then "true" else "false"
  | .count n => toString n
  | .real x => CurveFit.Text.NumberStyle.json.render x
  | .string s => quoted s

/-- The items, one a line. -/
def prettyItems (level : Nat) : List Output → String
  | [] => ""
  | [v] => newLine level ++ v.pretty level
  | v :: rest => newLine level ++ v.pretty level ++ "," ++ prettyItems level rest

/-- The members, one a line. -/
def prettyMembers (level : Nat) : List (String × Output) → String
  | [] => ""
  | [(k, v)] => newLine level ++ quoted k ++ ": " ++ v.pretty level
  | (k, v) :: rest =>
    newLine level ++ quoted k ++ ": " ++ v.pretty level ++ "," ++ prettyMembers level rest

end

end CurveFit.Json
