import Tracing.Ident

/-!
# Keeping a share of all traces

A rate keeps a trace when a hash of the lower half of its id falls below a threshold. All services hash
alike, so they agree on each trace.
-/

namespace Tracing

namespace Rate

/-- The odd factor by which ids are hashed. -/
def hashFactor : Nat := 1111111111111111111

/-- The hash of the lower half of a trace id. -/
def hash (lower : BitVec 64) : BitVec 64 := lower * BitVec.ofNat 64 hashFactor

/-- The threshold of a rate between zero and one: its share of `2 ^ 64`. -/
def threshold (rate : Float) : Nat := (rate * 18446744073709551616).toUInt64.toNat

/-- Whether a rate keeps a trace. A rate of one or more keeps all; one of zero or less, or one that is no
number, keeps none. -/
def keeps (traceId : TraceId) (rate : Float) : Bool :=
  if 1 ≤ rate then true
  else if rate ≤ 0 || rate.isNaN then false
  else (hash traceId.lower).toNat < threshold rate

/-- The nearest rate between zero and one. -/
def clamp (rate : Float) : Float := if rate < 0 then 0 else if 1 < rate then 1 else rate

end Rate

end Tracing
