import PromptStudio.Json.Basic
import PromptStudio.Number.Decimal

/-!
# Writing JSON texts

A value is written on one line by `Json.compact`, and by `Json.indented` with one item or member on
a line, two blanks deeper than its container. Quotes, backslashes and control characters are
escaped and all else is written as it is; a double that is not finite is written `null`.
-/

namespace PromptStudio.Json

/-- The hexadecimal digit of a number below sixteen. -/
def hexDigit (n : Nat) : Char :=
  if n < 10 then Char.ofNat (0x30 + n) else Char.ofNat (0x57 + n)

/-- A character inside quotes. -/
def quotedChar (c : Char) : List Char :=
  if c = '"' then ['\\', '"']
  else if c = '\\' then ['\\', '\\']
  else if c = '\n' then ['\\', 'n']
  else if c = '\r' then ['\\', 'r']
  else if c = '\t' then ['\\', 't']
  else if c.toNat = 0x08 then ['\\', 'b']
  else if c.toNat = 0x0C then ['\\', 'f']
  else if c.toNat < 0x20 then
    ['\\', 'u', '0', '0', hexDigit (c.toNat / 16), hexDigit (c.toNat % 16)]
  else [c]

/-- A text in quotes. -/
def quoted (s : String) : String :=
  String.ofList ('"' :: (s.toList.flatMap quotedChar ++ ['"']))

/-- A number. -/
def numberText : Number → String
  | .whole n => toString n
  | .below n => "-" ++ toString (n + 1)
  | .double x => if x.isFinite then compactText x else "null"

mutual

/-- Writes a value on one line. -/
def compact : Json → String
  | .null => "null"
  | .bool b => if b then "true" else "false"
  | .num n => numberText n
  | .str s => quoted s
  | .arr items => "[" ++ compactItems "" items ++ "]"
  | .obj members => "\x7b" ++ compactMembers "" members ++ "\x7d"

/-- Writes items, the first behind `gap` and the others behind a comma. -/
def compactItems (gap : String) : List Json → String
  | [] => ""
  | j :: js => gap ++ compact j ++ compactItems "," js

/-- Writes members, the first behind `gap` and the others behind a comma. -/
def compactMembers (gap : String) : List (String × Json) → String
  | [] => ""
  | (name, j) :: ms => gap ++ quoted name ++ ":" ++ compact j ++ compactMembers "," ms

end

/-- A new line, `depth` steps deep. -/
def newLine (depth : Nat) : String := String.ofList ('\n' :: List.replicate (2 * depth) ' ')

mutual

/-- Writes a value over several lines; its first line is `depth` steps deep. -/
def indented (depth : Nat) : Json → String
  | .arr [] => "[]"
  | .arr items => "[" ++ indentedItems (depth + 1) "" items ++ newLine depth ++ "]"
  | .obj [] => "\x7b\x7d"
  | .obj members => "\x7b" ++ indentedMembers (depth + 1) "" members ++ newLine depth ++ "\x7d"
  | .null => "null"
  | .bool b => if b then "true" else "false"
  | .num n => numberText n
  | .str s => quoted s

/-- Writes items on lines of their own. -/
def indentedItems (depth : Nat) (gap : String) : List Json → String
  | [] => ""
  | j :: js => gap ++ newLine depth ++ indented depth j ++ indentedItems depth "," js

/-- Writes members on lines of their own. -/
def indentedMembers (depth : Nat) (gap : String) : List (String × Json) → String
  | [] => ""
  | (name, j) :: ms =>
    gap ++ newLine depth ++ quoted name ++ ": " ++ indented depth j ++ indentedMembers depth "," ms

end

example : (Json.obj [("a", .arr [nat 1, .null]), ("b", .str "x\n")]).compact =
    "\x7b\"a\":[1,null],\"b\":\"x\\n\"\x7d" := by decide +kernel

end PromptStudio.Json
