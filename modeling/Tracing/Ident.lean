import Tracing.Text.Hex

/-!
# Trace and span identifiers

A trace id has 128 bits, a span id 64; zero stands for "absent" in both. Many formats carry only the lower
half of a trace id, so ids split into halves and join again. Fresh ids stay below `2 ^ 63`, so that peers
with signed integers keep them.
-/

namespace Tracing

open Text

/-! ### Trace ids -/

/-- The identity of a trace. -/
structure TraceId where
  bits : BitVec 128
deriving DecidableEq, Inhabited

namespace TraceId

def zero : TraceId := ⟨0⟩

def toNat (t : TraceId) : Nat := t.bits.toNat

/-- The id with a given number, taken modulo `2 ^ 128`. -/
def ofNat (n : Nat) : TraceId := ⟨BitVec.ofNat 128 n⟩

/-- The id made of two halves. -/
def ofParts (higher lower : BitVec 64) : TraceId := ⟨(higher ++ lower : BitVec (64 + 64))⟩

/-- The upper 64 bits. -/
def higher (t : TraceId) : BitVec 64 := t.bits.extractLsb' 64 64

/-- The lower 64 bits. -/
def lower (t : TraceId) : BitVec 64 := t.bits.extractLsb' 0 64

def isZero (t : TraceId) : Bool := t.bits == 0

/-- Always 32 hexadecimal digits. -/
def toHex128 (t : TraceId) : List Char := Hex.write 32 t.toNat

/-- 16 hexadecimal digits when the upper half is zero, else 32. -/
def toHex (t : TraceId) : List Char :=
  if t.higher = 0 then Hex.write 16 t.lower.toNat else t.toHex128

/-- Reads 16 or 32 hexadecimal digits of either case; zero is absent. -/
def ofHex? (text : List Char) : Option TraceId :=
  if text.length = 16 ∨ text.length = 32 then
    match Hex.readNat text with
    | some n => if n = 0 then none else some (ofNat n)
    | none => none
  else none

instance : ToString TraceId := ⟨fun t => String.ofList t.toHex⟩

theorem ext_toNat {a b : TraceId} (h : a.toNat = b.toNat) : a = b := by
  cases a; cases b
  exact congrArg TraceId.mk (BitVec.eq_of_toNat_eq h)

end TraceId

/-! ### Span ids -/

/-- The identity of a span within its trace. -/
structure SpanId where
  bits : BitVec 64
deriving DecidableEq, Inhabited

namespace SpanId

def zero : SpanId := ⟨0⟩

def toNat (s : SpanId) : Nat := s.bits.toNat

/-- The id with a given number, taken modulo `2 ^ 64`. -/
def ofNat (n : Nat) : SpanId := ⟨BitVec.ofNat 64 n⟩

def isZero (s : SpanId) : Bool := s.bits == 0

/-- Always 16 hexadecimal digits. -/
def toHex (s : SpanId) : List Char := Hex.write 16 s.toNat

/-- Reads 16 hexadecimal digits of either case; zero is absent. -/
def ofHex? (text : List Char) : Option SpanId :=
  if text.length = 16 then
    match Hex.readNat text with
    | some n => if n = 0 then none else some (ofNat n)
    | none => none
  else none

instance : ToString SpanId := ⟨fun s => String.ofList s.toHex⟩

theorem ext_toNat {a b : SpanId} (h : a.toNat = b.toNat) : a = b := by
  cases a; cases b
  exact congrArg SpanId.mk (BitVec.eq_of_toNat_eq h)

end SpanId

/-! ### Fresh ids -/

/-- The largest number drawn for a fresh id. -/
def maxFresh : Nat := (1 <<< 63) - 1

/-- Brings an arbitrary random number into the range of fresh ids. -/
def freshBits (random : Nat) : BitVec 64 := BitVec.ofNat 64 (random % maxFresh + 1)

/-- The upper half of a wide fresh id: the seconds since the epoch in its upper 32 bits, zero before
the epoch. -/
def freshHigher (wide : Bool) (unixSeconds : Int) : BitVec 64 :=
  if wide then BitVec.ofNat 64 ((unixSeconds.toNat % (1 <<< 32)) <<< 32) else 0

/-- A fresh trace id from a random number; a wide one also holds the time. -/
def TraceId.fresh (wide : Bool) (unixSeconds : Int) (random : Nat) : TraceId :=
  .ofParts (freshHigher wide unixSeconds) (freshBits random)

/-- A fresh span id from a random number. -/
def SpanId.fresh (random : Nat) : SpanId := ⟨freshBits random⟩

end Tracing
