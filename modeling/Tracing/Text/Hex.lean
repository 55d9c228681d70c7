/-!
# Hexadecimal text

Numbers as hexadecimal digits of a fixed width. Reading takes digits of either case, writing gives the
lower case.
-/

namespace Tracing.Text.Hex

/-- The value of a hexadecimal digit of either case. -/
def digitValue? (c : Char) : Option Nat :=
  if '0' ≤ c ∧ c ≤ '9' then some (c.toNat - 48)
  else if 'a' ≤ c ∧ c ≤ 'f' then some (c.toNat - 87)
  else if 'A' ≤ c ∧ c ≤ 'F' then some (c.toNat - 55)
  else none

def isDigit (c : Char) : Bool := (digitValue? c).isSome

/-- One more digit behind a number already read. -/
def pushDigit (read : Option Nat) (c : Char) : Option Nat := do
  let n ← read
  let d ← digitValue? c
  return 16 * n + d

/-- The number that a text of hexadecimal digits denotes; no other character is allowed. -/
def readNat (text : List Char) : Option Nat := text.foldl pushDigit (some 0)

/-- The lowercase digit of a value below sixteen. -/
def digit (d : Nat) : Char := if d < 10 then Char.ofNat (48 + d) else Char.ofNat (87 + d)

/-- The last `width` digits of a number. -/
def write : (width : Nat) → Nat → List Char
  | 0, _ => []
  | width + 1, n => write width (n / 16) ++ [digit (n % 16)]

/-- The digits of a number without leading zeros. -/
def writeShort (n : Nat) : List Char := Nat.toDigits 16 n

theorem length_write (width n : Nat) : (write width n).length = width := by
  induction width generalizing n with
  | zero => rfl
  | succ width ih => simp [write, ih]

theorem digitValue?_digit {d : Nat} (h : d < 16) : digitValue? (digit d) = some d := by
  have : ∀ d : Fin 16, digitValue? (digit d.val) = some d.val := by decide
  exact this ⟨d, h⟩

theorem readNat_concat (text : List Char) (c : Char) :
    readNat (text ++ [c]) = pushDigit (readNat text) c := by
  simp [readNat]

end Tracing.Text.Hex
