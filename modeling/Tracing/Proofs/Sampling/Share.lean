import Tracing.Proofs.Decimal.Unpacked
import Tracing.Proofs.Ident
import Tracing.Sampling.Rate

/-!
# The share that a rate keeps

The hash factor is odd, so hashing permutes the lower halves of trace ids (`hash_injective`), and as many of
them hash below a number as there are numbers below it (`card_hash_lt`). Hence a rate between zero and one
keeps exactly its threshold of them, whatever the upper half, and a higher threshold keeps whatever a lower
one does (`keeps_share`).
-/

namespace Tracing

namespace Rate

open Decimal

/-! ### The hash -/

/-- The inverse of the hash factor modulo `2 ^ 64`. -/
def hashInverse : BitVec 64 := 3396998997810348023#64

theorem hashFactor_mul_inverse : BitVec.ofNat 64 hashFactor * hashInverse = 1 := by decide

/-- **No two lower halves hash alike.** -/
theorem hash_injective : Function.Injective hash := by
  intro a b h
  calc a = hash a * hashInverse := by rw [hash, mul_assoc, hashFactor_mul_inverse, mul_one]
    _ = hash b * hashInverse := by rw [h]
    _ = b := by rw [hash, mul_assoc, hashFactor_mul_inverse, mul_one]

/-- **As many lower halves hash below a number as there are numbers below it.** -/
theorem card_hash_lt {n : Nat} (h : n ≤ 2 ^ 64) :
    (Finset.univ.filter fun lower : BitVec 64 => (hash lower).toNat < n).card = n := by
  have hsurjective : Function.Surjective hash := Finite.injective_iff_surjective.mp hash_injective
  refine (Finset.card_bij (fun lower _ => (hash lower).toNat) ?below ?injective ?reached).trans
    (Finset.card_range n)
  case below =>
    intro lower hlower
    exact Finset.mem_range.mpr (Finset.mem_filter.mp hlower).2
  case injective =>
    intro a _ b _ hab
    exact hash_injective (BitVec.eq_of_toNat_eq hab)
  case reached =>
    intro k hk
    have hkn : k < n := Finset.mem_range.mp hk
    obtain ⟨lower, hlower⟩ := hsurjective (BitVec.ofNat 64 k)
    have hhash : (hash lower).toNat = k := by
      rw [hlower, BitVec.toNat_ofNat, Nat.mod_eq_of_lt (Nat.lt_of_lt_of_le hkn h)]
    exact ⟨lower, Finset.mem_filter.mpr ⟨Finset.mem_univ _, hhash ▸ hkn⟩, hhash⟩

/-! ### Keeping -/

variable {rate : Float}

theorem keeps_of_one_le (h : 1 ≤ rate) (traceId : TraceId) : keeps traceId rate = true := if_pos h

theorem keeps_of_le_zero (h : rate ≤ 0 ∨ rate.isNaN = true) (traceId : TraceId) :
    keeps traceId rate = false := by
  have hnone : (rate ≤ 0 || rate.isNaN) = true := by simpa using h
  rw [keeps, if_neg (not_one_le h), if_pos hnone]

theorem keeps_iff (hpos : 0 < rate) (hlt : rate < 1) (traceId : TraceId) :
    keeps traceId rate = true ↔ (hash traceId.lower).toNat < threshold rate := by
  obtain ⟨hone, hzero, hnumber⟩ := between_zero_and_one hpos hlt
  have hsome : ¬ (rate ≤ 0 || rate.isNaN) = true := by
    rw [hnumber, Bool.or_false, decide_eq_true_iff]
    exact hzero
  rw [keeps, if_neg hone, if_neg hsome, decide_eq_true_iff]

/-- The upper half of an id has no part in the decision. -/
theorem keeps_congr {traceId traceId' : TraceId} (h : traceId.lower = traceId'.lower) (rate : Float) :
    keeps traceId rate = keeps traceId' rate := by
  rw [keeps, keeps, h]

/-- The threshold of a rate is its share of `2 ^ 64`, rounded down. -/
theorem threshold_eq (hpos : 0 < rate) (hlt : rate < 1) :
    threshold rate = ⌊(binaryOf rate).value * 2 ^ 64⌋₊ := toNat_scaled hpos hlt

theorem card_keeps (hpos : 0 < rate) (hlt : rate < 1) (higher : BitVec 64) :
    (Finset.univ.filter fun lower => keeps (.ofParts higher lower) rate).card = threshold rate := by
  have hbound : threshold rate ≤ 2 ^ 64 := Nat.le_of_lt (UInt64.toNat_lt _)
  simp only [keeps_iff hpos hlt, TraceId.lower_ofParts]
  exact card_hash_lt hbound

/-- **A rate keeps exactly its share of the traces, and services agree on which.** Of the lower halves of ids
it keeps as many as its threshold says, its share of `2 ^ 64` rounded down; a rate with a threshold as high
keeps the same traces and maybe more. -/
theorem keeps_share :
    (∀ rate : Float, 0 < rate → rate < 1 →
      threshold rate = ⌊(binaryOf rate).value * 2 ^ 64⌋₊ ∧
      ∀ higher, (Finset.univ.filter fun lower => keeps (.ofParts higher lower) rate).card = threshold rate) ∧
    (∀ (rate : Float) (traceId traceId' : TraceId), traceId.lower = traceId'.lower →
      keeps traceId rate = keeps traceId' rate) ∧
    (∀ rate rate' : Float, 0 < rate → rate < 1 → 0 < rate' → rate' < 1 → threshold rate ≤ threshold rate' →
      ∀ traceId, keeps traceId rate = true → keeps traceId rate' = true) ∧
    (∀ rate : Float, 1 ≤ rate → ∀ traceId, keeps traceId rate = true) ∧
    ∀ rate : Float, rate ≤ 0 ∨ rate.isNaN = true → ∀ traceId, keeps traceId rate = false := by
  refine ⟨fun rate hpos hlt => ⟨threshold_eq hpos hlt, card_keeps hpos hlt⟩,
    fun rate traceId traceId' h => keeps_congr h rate, ?monotone,
    fun rate h => keeps_of_one_le h, fun rate h => keeps_of_le_zero h⟩
  case monotone =>
    intro rate rate' hpos hlt hpos' hlt' hle traceId hkept
    rw [keeps_iff hpos hlt] at hkept
    rw [keeps_iff hpos' hlt']
    exact Nat.lt_of_lt_of_le hkept hle

/-- A rate of a half keeps half of all lower halves, and what a rate of a quarter keeps. -/
theorem keeps_share_half :
    (threshold 0.5 = 2 ^ 63 ∧
      ∀ higher, (Finset.univ.filter fun lower => keeps (.ofParts higher lower) 0.5).card = 2 ^ 63) ∧
    keeps (.ofParts 7 3) 0.5 = keeps (.ofParts 0 3) 0.5 ∧
    (∀ traceId, keeps traceId 0.25 = true → keeps traceId 0.5 = true) ∧
    keeps ⟨5⟩ 1 = true ∧ keeps ⟨5⟩ 0 = false ∧ keeps ⟨5⟩ Float.nan = false := by
  obtain ⟨hshare, hlower, hmonotone, hall, hnone⟩ := keeps_share
  have hhalf : threshold 0.5 = 2 ^ 63 := by decide +kernel
  refine ⟨⟨hhalf, fun higher => ?_⟩, hlower 0.5 _ _ (by decide), ?_, hall 1 (by decide +kernel) _,
    hnone 0 (.inl (by decide +kernel)) _, hnone Float.nan (.inr (by decide +kernel)) _⟩
  · rw [← hhalf]
    exact (hshare 0.5 (by decide +kernel) (by decide +kernel)).2 higher
  · exact hmonotone 0.25 0.5 (by decide +kernel) (by decide +kernel) (by decide +kernel)
      (by decide +kernel) (by decide +kernel)

end Rate

end Tracing
