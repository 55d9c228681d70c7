import Tracing.Proofs.Ident
import Tracing.Proofs.Text.Reading
import Tracing.Propagation.TraceContext

/-!
# The parent header comes back

The fields of a parent header stand in fixed places, so what is written is read back field by field
(`readFields_writeParent`); ids other than zero pass the checks (`readParent_writeParent`).
-/

namespace Tracing.TraceContext

open Text

variable {out : Outgoing}

/-- Whether the trace of a context is kept, as far as the sampled flag tells. -/
def isSampled (out : Outgoing) : Bool := (out.priority.map Priority.isKeep).getD false

/-! ### Fields -/

/-- The flags of a context: one if it is sampled. -/
def flags (out : Outgoing) : Nat := if isSampled out then 1 else 0

theorem takeHex_write (width : Nat) {n : Nat} (h : n < 16 ^ width) (rest : List Char) :
    takeHex width (Hex.write width n ++ rest) = some (Hex.write width n, n, rest) := by
  have hlength := Hex.length_write width n
  have htake : (Hex.write width n ++ rest).take width = Hex.write width n := List.take_left' hlength
  have hdrop : (Hex.write width n ++ rest).drop width = rest := List.drop_left' hlength
  unfold takeHex
  simp only [htake, hdrop, hlength, if_true, Hex.readNat_write, Nat.mod_eq_of_lt h, Option.map_some]

theorem writeParent_eq (out : Outgoing) : writeParent out =
    Hex.write 2 0 ++ '-' :: (Hex.write 32 out.traceId.toNat ++ '-' :: (Hex.write 16 out.spanId.toNat ++
      '-' :: (Hex.write 2 (flags out) ++ []))) := by
  have hflags : (if isSampled out then "-01".toList else "-00".toList) = '-' :: Hex.write 2 (flags out) := by
    unfold flags
    cases isSampled out <;> decide
  have hversion : "00-".toList = Hex.write 2 0 ++ ['-'] := by decide
  change "00-".toList ++ Hex.write 32 out.traceId.toNat ++ '-' :: Hex.write 16 out.spanId.toNat ++
    (if isSampled out then "-01".toList else "-00".toList) = _
  rw [hflags, hversion]
  simp only [List.append_assoc, List.cons_append, List.nil_append, List.append_nil]

theorem readFields_writeParent (out : Outgoing) : readFields (writeParent out) =
    some ⟨['0', '0'], out.traceId.toNat, out.spanId.toNat, flags out, []⟩ := by
  have hversion : 0 < 16 ^ 2 := by decide
  have htrace : out.traceId.toNat < 16 ^ 32 := out.traceId.bits.isLt
  have hspan : out.spanId.toNat < 16 ^ 16 := out.spanId.bits.isLt
  have hflags : flags out < 16 ^ 2 := by
    unfold flags
    split <;> decide
  rw [writeParent_eq]
  unfold readFields
  simp only [takeHex_write 2 hversion, takeHex_write 32 htrace, takeHex_write 16 hspan,
    takeHex_write 2 hflags, takeDash, Option.bind_eq_bind, Option.bind_some, isTail, if_true]
  rfl

/-! ### The header -/

theorem trim_writeParent (out : Outgoing) : trim (writeParent out) = writeParent out := by
  have hhex : ∀ {width n c}, c ∈ Hex.write width n → 0x21 ≤ c.toNat ∧ c.toNat ≤ 0x7e := fun hc => by
    have hvisible := Hex.visible_of_mem_write hc
    omega
  refine trim_of_visible fun c hc => ?_
  rw [writeParent_eq] at hc
  simp only [List.mem_append, List.mem_cons, List.not_mem_nil, or_false] at hc
  rcases hc with hc | rfl | hc | rfl | hc | rfl | hc
  · exact hhex hc
  · decide
  · exact hhex hc
  · decide
  · exact hhex hc
  · decide
  · exact hhex hc

/-- **The ids and the flag come back** if no id is zero. -/
theorem readParent_writeParent (htrace : out.traceId.isZero = false) (hspan : out.spanId.isZero = false) :
    (readParent (writeParent out)).value = .ok ⟨['0', '0'], out.traceId, out.spanId, isSampled out⟩ := by
  have hflag : decide (flags out % 2 = 1) = isSampled out := by
    unfold flags
    cases isSampled out <;> rfl
  unfold readParent
  rw [readFields_writeParent]
  simp [checkVersion, TraceId.toNat_ne_zero htrace, SpanId.toNat_ne_zero hspan, TraceId.ofNat_toNat,
    SpanId.ofNat_toNat, hflag]

end Tracing.TraceContext
