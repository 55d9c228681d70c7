import Tracing.Text.Split

/-!
# Integers as decimal text

Reading numbers that are all digits, with an optional sign, and writing them without leading zeros.
-/

namespace Tracing.Text.Integer

/-- The value of a text of decimal digits, behind a number already read. -/
def readDigits : Nat → List Char → Option Nat
  | n, [] => some n
  | n, c :: rest => if c.isDigit then readDigits (10 * n + (c.toNat - 48)) rest else none

/-- The number that a text of at least one decimal digit denotes. -/
def readNat : List Char → Option Nat
  | [] => none
  | text => readDigits 0 text

/-- A number with an optional plus sign. -/
def readUnsigned : List Char → Option Nat
  | '+' :: text => readNat text
  | text => readNat text

/-- A number below `bound` with an optional plus sign. -/
def readBelow (bound : Nat) (text : List Char) : Option Nat :=
  (readUnsigned text).filter (· < bound)

/-- A number with an optional sign. -/
def readInt : List Char → Option Int
  | '+' :: text => (readNat text).map Int.ofNat
  | '-' :: text => (readNat text).map fun n => -Int.ofNat n
  | text => (readNat text).map Int.ofNat

/-- The decimal digits of a number. -/
def writeNat (n : Nat) : List Char := Nat.toDigits 10 n

/-- The decimal digits of a number behind a minus sign if it is negative. -/
def writeInt : Int → List Char
  | .ofNat n => writeNat n
  | .negSucc n => '-' :: writeNat (n + 1)

end Tracing.Text.Integer
