import Tracing.Decimal.Shortest
import Tracing.Text.Case
import Tracing.Text.Integer

/-!
# Decimal text of floating-point numbers

Reading rounds to the nearest number; writing gives the shortest decimal that reads back, in one of three
layouts: always positional (`plain`), positional in a middle range with at least one place (`detailed`),
and the layout of JSON numbers (`json`).
-/

namespace Tracing.Decimal

open Text

/-! ### Reading -/

/-- A decimal `digits * 10 ^ exponent`, with its sign. -/
structure Scientific where
  negative : Bool
  digits : Nat
  exponent : Int
deriving DecidableEq, Repr

namespace Scientific

/-- The nearest floating-point number. Beyond the range of exponents it is infinite or zero. -/
def toFloat (s : Scientific) : Float :=
  let size := Int.ofNat (Nat.toDigits 10 s.digits).length + s.exponent
  let magnitude : Float :=
    if s.digits = 0 then 0
    else if 400 < size then 1 / 0
    else if size < -400 then 0
    else Float.ofScientific s.digits (s.exponent < 0) s.exponent.natAbs
  if s.negative then -magnitude else magnitude

end Scientific

/-- A sign at the start of a text, and the rest. -/
def splitSign : List Char → Bool × List Char
  | '-' :: rest => (true, rest)
  | '+' :: rest => (false, rest)
  | text => (false, text)

/-- The exponent part of a number: nothing, or `e` and an integer with an optional sign. -/
def readExponent : List Char → Option Int
  | [] => some 0
  | c :: rest => if c = 'e' ∨ c = 'E' then Integer.readInt rest else none

/-- Reads digits with an optional point among them and an optional exponent. -/
def readUnsigned (negative : Bool) (text : List Char) : Option Scientific := do
  let whole := text.takeWhile Char.isDigit
  let rest := text.dropWhile Char.isDigit
  let (fraction, rest) := match rest with
    | '.' :: rest => (rest.takeWhile Char.isDigit, rest.dropWhile Char.isDigit)
    | _ => ([], rest)
  let digits ← Integer.readNat (whole ++ fraction)
  let exponent ← readExponent rest
  return ⟨negative, digits, exponent - fraction.length⟩

/-- Reads a decimal, `inf`, `infinity` or `nan` in any case, each with an optional sign. -/
def readFloat (text : List Char) : Option Float :=
  let (negative, body) := splitSign text
  let word := body.map lowerAscii
  if word = "inf".toList ∨ word = "infinity".toList then
    some (if negative then -1 / 0 else 1 / 0)
  else if word = "nan".toList then some (0 / 0)
  else (readUnsigned negative body).map Scientific.toFloat

/-! ### Writing -/

/-- The decimal `d * 10 ^ k` without an exponent. -/
def positional (d : Nat) (k : Int) : List Char :=
  let digits := Integer.writeNat d
  if 0 ≤ k then digits ++ List.replicate k.toNat '0'
  else
    let places := (-k).toNat
    let padded := List.replicate (places + 1 - digits.length) '0' ++ digits
    padded.take (padded.length - places) ++ '.' :: padded.drop (padded.length - places)

/-- The decimal `d * 10 ^ k` with one digit before the point and an exponent; `plusSign` tells whether an
exponent that is not negative has a sign. -/
def exponential (plusSign : Bool) (d : Nat) (k : Int) : List Char :=
  let digits := Integer.writeNat d
  let exponent := k + Int.ofNat digits.length - 1
  let mantissa := match digits with
    | [] => []
    | [c] => [c]
    | c :: rest => c :: '.' :: rest
  mantissa ++ 'e' :: (if plusSign && 0 ≤ exponent then ['+'] else []) ++ Integer.writeInt exponent

/-- How a layout writes numbers. `positional` tells, from the number of digits before the point, whether
there is no exponent; `pointZero` adds `.0` to positional whole numbers. -/
structure Layout where
  isPositional : Int → Bool
  pointZero : Bool
  plusSign : Bool := false
  nan : String := "NaN"
  infinity : String := "inf"

/-- Always positional, and no point in whole numbers. -/
def plain : Layout where
  isPositional := fun _ => true
  pointZero := false

/-- Positional from `10 ^ -4` up to `10 ^ 16`, and always with a point. -/
def detailed : Layout where
  isPositional := fun n => -3 ≤ n && n ≤ 16
  pointZero := true

/-- Positional from `10 ^ -5` up to `10 ^ 16`, and always with a point. -/
def json : Layout where
  isPositional := fun n => -4 ≤ n && n ≤ 16
  pointZero := true
  plusSign := true
  nan := "null"
  infinity := "null"

/-- The text of a finite number without its sign. -/
def Layout.writeMagnitude (layout : Layout) (x : Float) : List Char :=
  let (d, k) := if x == 0 then (0, 0) else (binaryOf x).shortest
  if layout.isPositional (k + (Integer.writeNat d).length) then
    let text := positional d k
    if layout.pointZero && 0 ≤ k then text ++ ['.', '0'] else text
  else exponential layout.plusSign d k

/-- The text of a number: the shortest decimal that reads back as it. -/
def Layout.write (layout : Layout) (x : Float) : List Char :=
  if x.isNaN then layout.nan.toList
  else
    (if signBit x then ['-'] else [])
      ++ if x.isInf then layout.infinity.toList else layout.writeMagnitude x

def plainText (x : Float) : String := String.ofList (plain.write x)

def detailedText (x : Float) : String := String.ofList (detailed.write x)

end Tracing.Decimal
