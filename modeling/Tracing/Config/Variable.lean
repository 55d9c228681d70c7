import Tracing.Json.Basic
import Tracing.Decimal.Text
import Tracing.Text.Hex

/-!
# Values of environment variables

A variable holds a truth value, a number, a quoted text, one character in single quotes, a list in
brackets, a table in braces, or else plain text. A text that does not follow this grammar to its end is
taken as it stands.
-/

namespace Tracing.Variable

open Text

/-- Blanks between the parts of a value. -/
def isSpace (c : Char) : Bool := c = ' ' || c = '\t'

def skipSpace (text : List Char) : List Char := text.dropWhile isSpace

/-- Characters that end plain text. -/
def isSeparator (c : Char) : Bool :=
  c = ',' || c = '\x7b' || c = '\x7d' || c = '[' || c = ']'

/-- Characters of a plain key. -/
def isKeyChar (c : Char) : Bool := c.isAlphanum || c = '_' || c = '-'

/-! ### Quoted text -/

/-- The text up to a quote that is not escaped, and what follows that quote. -/
def takeQuoted : List Char → Option (List Char × List Char)
  | [] => none
  | '"' :: rest => some ([], rest)
  | '\\' :: c :: rest => (takeQuoted rest).map fun (inner, rest) => ('\\' :: c :: inner, rest)
  | c :: rest => (takeQuoted rest).map fun (inner, rest) => (c :: inner, rest)

/-- The character with a code point given by hexadecimal digits. -/
def readCode (width : Nat) (digits : List Char) : Option Char :=
  if digits.length = width then
    (Hex.readNat digits).bind fun n => if n.isValidChar then some (Char.ofNat n) else none
  else none

/-- The character that an escape by one letter stands for. -/
def letterEscape : Char → Option Char
  | '"' => some '"'
  | '\\' => some '\\'
  | 'b' => some '\x08'
  | 'f' => some '\x0c'
  | 'n' => some '\n'
  | 'r' => some '\r'
  | 't' => some '\t'
  | _ => none

/-- Whether a character may stand in quoted text without an escape. -/
def isQuotable (c : Char) : Bool := c = '\t' || (32 ≤ c.toNat && c.toNat ≠ 127)

/-- Resolves the escapes of a quoted text. -/
def unescape : (fuel : Nat) → List Char → Option (List Char)
  | _, [] => some []
  | 0, _ => none
  | fuel + 1, '\\' :: c :: rest =>
    if c = 'u' ∨ c = 'U' then
      let width := if c = 'u' then 4 else 8
      do
        let d ← readCode width (rest.take width)
        let tail ← unescape fuel (rest.drop width)
        return d :: tail
    else do
      let d ← letterEscape c
      let tail ← unescape fuel rest
      return d :: tail
  | fuel + 1, c :: rest =>
    if c ≠ '\\' ∧ isQuotable c then (unescape fuel rest).map (c :: ·) else none

/-- Reads quoted text behind its opening quote. -/
def readQuoted (text : List Char) : Option (List Char × List Char) := do
  let (inner, rest) ← takeQuoted text
  let value ← unescape inner.length inner
  return (value, rest)

/-! ### Values -/

/-- What a plain text stands for: a number with a point, a whole number of 64 bits, or itself. -/
def readPlain (text : List Char) : Json :=
  let number := if text.contains '.' then (Decimal.readFloat text).map Json.float else none
  match number with
  | some x => x
  | none =>
    match Integer.readBelow (1 <<< 64) text with
    | some n => .int n
    | none =>
      match (Integer.readInt text).filter fun n => -Int.ofNat (1 <<< 63) ≤ n && n < Int.ofNat (1 <<< 63) with
      | some n => .int n
      | none => .str (String.ofList text)

/-- Reads a key: quoted text or at least one plain character. -/
def readKey : List Char → Option (List Char × List Char)
  | '"' :: rest => readQuoted rest
  | text =>
    let key := text.takeWhile isKeyChar
    if key.isEmpty then none else some (key, text.dropWhile isKeyChar)

mutual

/-- Reads a value and the blanks around it. -/
def readValue : (fuel : Nat) → List Char → Option (Json × List Char)
  | 0, _ => none
  | fuel + 1, text =>
    (readBare fuel (skipSpace text)).map fun (value, rest) => (value, skipSpace rest)

/-- Reads a value without blanks in front of it. -/
def readBare : (fuel : Nat) → List Char → Option (Json × List Char)
  | 0, _ => none
  | fuel + 1, text =>
    match dropLead? "true".toList text, dropLead? "false".toList text with
    | some rest, _ => some (.bool true, rest)
    | none, some rest => some (.bool false, rest)
    | none, none =>
      match text with
      | '\x7b' :: rest =>
        (readEntries fuel [] rest).map fun (members, rest) => (Json.ofMembers members, rest)
      | '[' :: rest => (readItems fuel [] rest).map fun (items, rest) => (.arr items, rest)
      | '"' :: rest => (readQuoted rest).map fun (s, rest) => (.str (String.ofList s), rest)
      | '\'' :: c :: '\'' :: rest => some (.str (String.ofList [c]), rest)
      | '\'' :: _ => none
      | text =>
        some (readPlain (trim (text.takeWhile (!isSeparator ·))), text.dropWhile (!isSeparator ·))

/-- Reads the items of a list up to its closing bracket. -/
def readItems : (fuel : Nat) → List Json → List Char → Option (List Json × List Char)
  | 0, _, _ => none
  | _ + 1, read, ']' :: rest => some (read.reverse, rest)
  | fuel + 1, read, text => do
    let (item, rest) ← readValue fuel text
    match rest with
    | ',' :: rest => readItems fuel (item :: read) rest
    | ']' :: rest => some ((item :: read).reverse, rest)
    | _ => none

/-- Reads the entries of a table up to its closing brace. -/
def readEntries : (fuel : Nat) → List (String × Json) → List Char →
    Option (List (String × Json) × List Char)
  | 0, _, _ => none
  | _ + 1, read, '\x7d' :: rest => some (read.reverse, rest)
  | fuel + 1, read, text => do
    let (key, rest) ← readKey (skipSpace text)
    match skipSpace rest with
    | '=' :: rest =>
      let (value, rest) ← readValue fuel rest
      let entry := (String.ofList key, value)
      match rest with
      | ',' :: rest => readEntries fuel (entry :: read) rest
      | '\x7d' :: rest => some ((entry :: read).reverse, rest)
      | _ => none
    | _ => none

end

/-- The value that a variable's text stands for. -/
def read (text : List Char) : Json :=
  match readValue (2 * text.length + 2) text with
  | some (value, []) => value
  | _ => .str (String.ofList text)

end Tracing.Variable
