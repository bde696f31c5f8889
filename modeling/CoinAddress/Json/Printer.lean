import CoinAddress.Json.Value

/-!
# Writing JSON

Two layouts: everything on one line without blanks, and one item a line with two blanks of
indentation for each level. In both an empty array or object has nothing between its brackets.

In a string, the quotation mark, the backslash and the control characters are escaped, nothing
else; the control characters that have a short escape get it.
-/

namespace CoinAddress.Json

/-- A digit of a number escape. -/
def hexDigit (d : Nat) : Char := if d < 10 then Char.ofNat (0x30 + d) else Char.ofNat (0x57 + d)

/-- A character inside a string. -/
def escape (c : Char) : Text :=
  if c = '"' then ['\\', '"']
  else if c = '\\' then ['\\', '\\']
  else if c = '\x08' then ['\\', 'b']
  else if c = '\x0c' then ['\\', 'f']
  else if c = '\n' then ['\\', 'n']
  else if c = '\r' then ['\\', 'r']
  else if c = '\t' then ['\\', 't']
  else if c.toNat < 0x20 then
    ['\\', 'u', '0', '0', hexDigit (c.toNat / 16), hexDigit (c.toNat % 16)]
  else [c]

/-- A string with its quotation marks. -/
def quoted (s : Text) : Text := ['"'] ++ s.flatMap escape ++ ['"']

/-- A value that is no array and no object; what has no text is written as null. -/
def scalar : Json → Text
  | .bool true => "true".toList
  | .bool false => "false".toList
  | .num s => s
  | .str s => quoted s
  | _ => "null".toList

/-! ## On one line -/

mutual

/-- The value on one line. -/
def compact : Json → Text
  | .arr items => ['['] ++ compactItems items ++ [']']
  | .obj fields => ['\x7b'] ++ compactFields fields ++ ['\x7d']
  | v => scalar v

/-- The items of an array with commas between them. -/
def compactItems : List Json → Text
  | [] => []
  | [v] => compact v
  | v :: vs => compact v ++ [','] ++ compactItems vs

/-- The fields of an object with commas between them. -/
def compactFields : List (Text × Json) → Text
  | [] => []
  | [(name, v)] => quoted name ++ [':'] ++ compact v
  | (name, v) :: fs => quoted name ++ [':'] ++ compact v ++ [','] ++ compactFields fs

end

/-! ## On many lines -/

/-- The start of a line at a level. -/
def newLine (level : Nat) : Text := '\n' :: List.replicate (2 * level) ' '

mutual

/-- The value on many lines, at a level. -/
def prettyAt (level : Nat) : Json → Text
  | .arr [] => ['[', ']']
  | .obj [] => ['\x7b', '\x7d']
  | .arr items => ['['] ++ prettyItems (level + 1) items ++ newLine level ++ [']']
  | .obj fields => ['\x7b'] ++ prettyFields (level + 1) fields ++ newLine level ++ ['\x7d']
  | v => scalar v

/-- The items of an array, each on a line of its own. -/
def prettyItems (level : Nat) : List Json → Text
  | [] => []
  | [v] => newLine level ++ prettyAt level v
  | v :: vs => newLine level ++ prettyAt level v ++ [','] ++ prettyItems level vs

/-- The fields of an object, each on a line of its own. -/
def prettyFields (level : Nat) : List (Text × Json) → Text
  | [] => []
  | [(name, v)] => newLine level ++ quoted name ++ [':', ' '] ++ prettyAt level v
  | (name, v) :: fs =>
    newLine level ++ quoted name ++ [':', ' '] ++ prettyAt level v ++ [','] ++
      prettyFields level fs

end

/-- The value on many lines. -/
def pretty (v : Json) : Text := prettyAt 0 v

end CoinAddress.Json
