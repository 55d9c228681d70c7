import Tracing.Json.Basic
import Tracing.Decimal.Text
import Tracing.Text.Hex

/-!
# Writing JSON

The compact text of a value. Of all characters only quotes, backslashes and control characters below the
space are escaped, the common ones by a letter.
-/

namespace Tracing.Json

open Text

/-- A character inside a string literal. -/
def escapeChar (c : Char) : List Char :=
  if c = '"' then ['\\', '"']
  else if c = '\\' then ['\\', '\\']
  else if c = '\n' then ['\\', 'n']
  else if c = '\r' then ['\\', 'r']
  else if c = '\t' then ['\\', 't']
  else if c = '\x08' then ['\\', 'b']
  else if c = '\x0c' then ['\\', 'f']
  else if c.toNat < 32 then ['\\', 'u'] ++ Hex.write 4 c.toNat
  else [c]

/-- The literal of a string. -/
def writeString (s : List Char) : List Char := '"' :: s.flatMap escapeChar ++ ['"']

mutual

/-- The compact text of a value. -/
def write : Json → List Char
  | null => "null".toList
  | bool true => "true".toList
  | bool false => "false".toList
  | int n => Integer.writeInt n
  | float x => if x.isNaN || x.isInf then "null".toList else Decimal.json.write x
  | str s => writeString s.toList
  | arr items => '[' :: writeItems items ++ [']']
  | obj members => '\x7b' :: writeMembers members ++ ['\x7d']

/-- The items of an array with commas between them. -/
def writeItems : List Json → List Char
  | [] => []
  | [item] => write item
  | item :: items => write item ++ ',' :: writeItems items

/-- The members of an object with commas between them. -/
def writeMembers : List (String × Json) → List Char
  | [] => []
  | [(name, value)] => writeString name.toList ++ ':' :: write value
  | (name, value) :: members =>
    writeString name.toList ++ ':' :: write value ++ ',' :: writeMembers members

end

/-- The compact text of a value. -/
def text (j : Json) : String := String.ofList j.write

end Tracing.Json
