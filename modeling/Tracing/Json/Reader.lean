import Tracing.Json.Basic
import Tracing.Decimal.Text
import Tracing.Text.Hex

/-!
# Reading JSON

A text is read as one value with blanks around it. Numbers too large for 64 bits become floating-point,
a number beyond the floating-point range is refused, and so is nesting of 128 levels or more. Of members
with one name the last stays.
-/

namespace Tracing.Json

open Text

/-! ### Blanks and strings -/

/-- The blanks of the format. -/
def isSpace (c : Char) : Bool := c = ' ' || c = '\n' || c = '\t' || c = '\r'

def skipSpace (text : List Char) : List Char := text.dropWhile isSpace

/-- The number of a four-digit escape and the text behind it. -/
def readUnit : List Char → Option (Nat × List Char)
  | a :: b :: c :: d :: rest => (Hex.readNat [a, b, c, d]).map fun n => (n, rest)
  | _ => none

/-- The character that an escape by one letter stands for. -/
def letterEscape : Char → Option Char
  | '"' => some '"'
  | '\\' => some '\\'
  | '/' => some '/'
  | 'b' => some '\x08'
  | 'f' => some '\x0c'
  | 'n' => some '\n'
  | 'r' => some '\r'
  | 't' => some '\t'
  | _ => none

/-- The character of a `\u` escape behind its `u`; a character outside the basic plane is written as two
escapes, and neither half may stand alone. -/
def readCodeEscape (text : List Char) : Option (Char × List Char) := do
  let (unit, rest) ← readUnit text
  if 0xd800 ≤ unit ∧ unit < 0xdc00 then
    match rest with
    | '\\' :: 'u' :: rest =>
      let (low, rest) ← readUnit rest
      if 0xdc00 ≤ low ∧ low < 0xe000 then
        some (Char.ofNat (0x10000 + (unit - 0xd800) * 1024 + (low - 0xdc00)), rest)
      else none
    | _ => none
  else if 0xdc00 ≤ unit ∧ unit < 0xe000 then none
  else some (Char.ofNat unit, rest)

/-- The characters up to the closing quote and the text behind it. -/
def readChars : (fuel : Nat) → List Char → List Char → Option (List Char × List Char)
  | 0, _, _ => none
  | _, _, [] => none
  | fuel + 1, read, c :: rest =>
    if c = '"' then some (read.reverse, rest)
    else if c = '\\' then
      match rest with
      | [] => none
      | e :: rest =>
        if e = 'u' then do
          let (d, rest) ← readCodeEscape rest
          readChars fuel (d :: read) rest
        else do
          let d ← letterEscape e
          readChars fuel (d :: read) rest
    else if c.toNat < 32 then none
    else readChars fuel (c :: read) rest

/-- The string behind its opening quote. -/
def readString (text : List Char) : Option (String × List Char) :=
  (readChars (text.length + 1) [] text).map fun (cs, rest) => (String.ofList cs, rest)

/-! ### Numbers -/

/-- The largest significand that is kept exactly. -/
def maxSignificand : Nat := (1 <<< 64) - 1

/-- Adds digits to a significand as long as it fits in 64 bits; the count of those added, and those left
over. -/
def pushDigits : (significand added : Nat) → List Char → Nat × Nat × List Char
  | significand, added, [] => (significand, added, [])
  | significand, added, c :: rest =>
    let next := 10 * significand + (c.toNat - 48)
    if maxSignificand < next then (significand, added, c :: rest)
    else pushDigits next (added + 1) rest

/-- A power of ten up to `10 ^ 308`. -/
def powerOfTen (n : Nat) : Float := Float.ofScientific 1 false n

/-- `f * 10 ^ exponent`, by at most one multiplication or by divisions in steps of `10 ^ 308`, each
rounded; nothing if the product is infinite. -/
def scaleByTen : (steps : Nat) → Float → Int → Option Float
  | 0, _, _ => none
  | steps + 1, f, exponent =>
    if exponent.natAbs ≤ 308 then
      if 0 ≤ exponent then
        let product := f * powerOfTen exponent.natAbs
        if product.isInf then none else some product
      else some (f / powerOfTen exponent.natAbs)
    else if f == 0 then some f
    else if 0 ≤ exponent then none
    else scaleByTen steps (f / powerOfTen 308) (exponent + 308)

/-- The number with a given significand and exponent. Exponents are kept within 32 bits. -/
def ofParts (negative : Bool) (significand : Nat) (exponent : Int) : Option Float :=
  let bounded := max (-2147483648) (min 2147483647 exponent)
  (scaleByTen 5 (Float.ofNat significand) bounded).map fun f => if negative then -f else f

/-- The digits of the fraction behind a point, and the text behind them. -/
def takeFraction : List Char → Option (List Char × List Char)
  | '.' :: rest =>
    let digits := rest.takeWhile Char.isDigit
    if digits.isEmpty then none else some (digits, rest.dropWhile Char.isDigit)
  | text => some ([], text)

/-- The exponent behind `e`, and the text behind it. -/
def takeExponent : List Char → Option (Option Int × List Char)
  | c :: rest =>
    if c = 'e' ∨ c = 'E' then
      let (negative, rest) := Decimal.splitSign rest
      (Integer.readNat (rest.takeWhile Char.isDigit)).map fun n =>
        (some (if negative then -Int.ofNat n else Int.ofNat n), rest.dropWhile Char.isDigit)
    else some (none, c :: rest)
  | [] => some (none, [])

/-- The value of a number in its parts. -/
def ofNumberParts (negative : Bool) (whole fraction : List Char) (exponent : Option Int) : Option Json :=
  let (significand, _, left) := pushDigits 0 0 whole
  if fraction.isEmpty ∧ exponent.isNone ∧ left.isEmpty then
    if !negative then some (int significand)
    else if 0 < significand ∧ significand ≤ 1 <<< 63 then some (int (-Int.ofNat significand))
    else some (float (-Float.ofNat significand))
  else
    let (significand, added, _) := pushDigits significand 0 fraction
    let exponent := exponent.getD 0
    if 1 <<< 31 ≤ exponent.natAbs then
      if significand ≠ 0 ∧ 0 ≤ exponent then none
      else some (float (if negative then -0.0 else 0))
    else (ofParts negative significand (Int.ofNat left.length - added + exponent)).map float

/-- Reads a number: digits without needless zeros, with an optional sign, fraction and exponent. -/
def readNumber (text : List Char) : Option (Json × List Char) := do
  let (negative, body) := match text with
    | '-' :: rest => (true, rest)
    | text => (false, text)
  let whole := body.takeWhile Char.isDigit
  if whole.isEmpty ∨ (whole.head? = some '0' ∧ whole.length ≠ 1) then none
  let (fraction, rest) ← takeFraction (body.dropWhile Char.isDigit)
  let (exponent, rest) ← takeExponent rest
  let value ← ofNumberParts negative whole fraction exponent
  return (value, rest)

/-! ### Values -/

/-- Reads a literal word. -/
def readWord (word : String) (value : Json) (text : List Char) : Option (Json × List Char) :=
  (dropLead? word.toList text).map fun rest => (value, rest)

mutual

/-- Reads a value at the start of a text. `depth` is how many levels may still open. -/
def readValue : (fuel depth : Nat) → List Char → Option (Json × List Char)
  | 0, _, _ => none
  | fuel + 1, depth, text =>
    match skipSpace text with
    | [] => none
    | '"' :: rest => (readString rest).map fun (s, rest) => (str s, rest)
    | '[' :: rest =>
      if depth ≤ 1 then none
      else match skipSpace rest with
        | ']' :: rest => some (arr [], rest)
        | rest => (readItems fuel (depth - 1) [] rest).map fun (items, rest) => (arr items, rest)
    | '\x7b' :: rest =>
      if depth ≤ 1 then none
      else match skipSpace rest with
        | '\x7d' :: rest => some (obj [], rest)
        | rest => (readMembers fuel (depth - 1) [] rest).map fun (ms, rest) => (ofMembers ms, rest)
    | 'n' :: rest => readWord "ull" null rest
    | 't' :: rest => readWord "rue" (bool true) rest
    | 'f' :: rest => readWord "alse" (bool false) rest
    | c :: rest => readNumber (c :: rest)

/-- Reads the items of an array up to its closing bracket. -/
def readItems : (fuel depth : Nat) → List Json → List Char → Option (List Json × List Char)
  | 0, _, _, _ => none
  | fuel + 1, depth, read, text => do
    let (item, rest) ← readValue fuel depth text
    match skipSpace rest with
    | ',' :: rest => readItems fuel depth (item :: read) rest
    | ']' :: rest => some ((item :: read).reverse, rest)
    | _ => none

/-- Reads the members of an object up to its closing brace. -/
def readMembers : (fuel depth : Nat) → List (String × Json) → List Char →
    Option (List (String × Json) × List Char)
  | 0, _, _, _ => none
  | fuel + 1, depth, read, text => do
    match skipSpace text with
    | '"' :: rest =>
      let (name, rest) ← readString rest
      match skipSpace rest with
      | ':' :: rest =>
        let (value, rest) ← readValue fuel depth rest
        match skipSpace rest with
        | ',' :: rest => readMembers fuel depth ((name, value) :: read) rest
        | '\x7d' :: rest => some (((name, value) :: read).reverse, rest)
        | _ => none
      | _ => none
    | _ => none

end

/-- Levels of nesting that are refused. -/
def maxDepth : Nat := 128

/-- The value that a text denotes. -/
def read? (text : List Char) : Option Json := do
  let (value, rest) ← readValue (text.length + 1) maxDepth text
  if (skipSpace rest).isEmpty then some value else none

end Tracing.Json
