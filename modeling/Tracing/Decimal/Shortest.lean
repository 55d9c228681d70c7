/-!
# Shortest decimals

The decimal with the fewest digits among those that round to a given binary number, and of those the
nearest. A binary number is `mantissa * 2 ^ exponent`; the reals that round to it form an interval whose
ends belong to it exactly when the mantissa is even. Everything is decided in exact arithmetic.
-/

namespace Tracing.Decimal

/-- A positive binary number `mantissa * 2 ^ exponent`. `lowerNear` says that the next smaller number is
only half as far away as the next larger one. -/
structure Binary where
  mantissa : Nat
  exponent : Int
  lowerNear : Bool := false
deriving DecidableEq, Repr

/-- The numerator that brings `n * 2 ^ e * 10 ^ (-k)` over the denominator of `denominator e k`. -/
def scaled (n : Nat) (e k : Int) : Nat := (n <<< e.toNat) * Nat.pow 10 (-k).toNat

/-- The denominator under `scaled`. -/
def denominator (e k : Int) : Nat := (1 <<< (-e).toNat) * Nat.pow 10 k.toNat

namespace Binary

/-- Whether `d * 10 ^ k` rounds to `b`: it lies between the midpoints to the two neighbours. -/
def roundsFrom (b : Binary) (d : Nat) (k : Int) : Bool :=
  let e := b.exponent - 2
  let x := d * denominator e k
  let low := scaled (4 * b.mantissa - if b.lowerNear then 1 else 2) e k
  let high := scaled (4 * b.mantissa + 2) e k
  if b.mantissa % 2 = 0 then low ≤ x && x ≤ high else low < x && x < high

/-- The multiple of `10 ^ k` that rounds to `b`, the nearer one of two, if there is one. -/
def onGrid (b : Binary) (k : Int) : Option Nat :=
  let e := b.exponent - 2
  let value := scaled (4 * b.mantissa) e k
  let den := denominator e k
  let below := value / den
  match 0 < below && b.roundsFrom below k, b.roundsFrom (below + 1) k with
  | true, true => some (if 2 * (value % den) ≤ den then below else below + 1)
  | true, false => some below
  | false, true => some (below + 1)
  | false, false => none

/-- The first grid from `10 ^ k` downwards that holds a decimal which rounds to `b`. -/
def searchGrids (b : Binary) : (steps : Nat) → (k : Int) → Nat × Int
  | 0, k => (b.mantissa, k)
  | steps + 1, k =>
    match b.onGrid k with
    | some d => (d, k)
    | none => searchGrids b steps (k - 1)

/-- An exponent of ten that is too large for the first digit of `b`. -/
def topGrid (b : Binary) : Int :=
  (b.exponent + b.mantissa.log2 + 1) * 30103 / 100000 + 2

/-- The shortest decimal `d * 10 ^ k` that rounds to `b`. -/
def shortest (b : Binary) : Nat × Int := b.searchGrids 40 b.topGrid

end Binary

/-! ### Floating-point numbers -/

/-- The absolute value of a finite floating-point number that is not zero. -/
def binaryOf (x : Float) : Binary :=
  let bits := x.toBits.toNat
  let fraction := bits % (1 <<< 52)
  let biased := (bits >>> 52) % (1 <<< 11)
  if biased = 0 then ⟨fraction, -1074, false⟩
  else ⟨fraction + (1 <<< 52), Int.ofNat biased - 1075, fraction == 0 && 1 < biased⟩

/-- Whether the sign bit is set. -/
def signBit (x : Float) : Bool := 1 <<< 63 ≤ x.toBits.toNat

end Tracing.Decimal
