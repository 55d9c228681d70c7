import Mathlib
import Tracing.Ident
import Tracing.Proofs.Text.Numerals

/-!
# Identifiers as numbers

The halves of a trace id are the quotient and the remainder by `2 ^ 64` (`toNat_higher`, `toNat_lower`),
and an id is made of its halves (`ofParts_higher_lower`, `higher_ofParts`). In hexadecimal text an id is the digits
of its number, which are read back unless it is zero; which texts are read as ids, and how these are written, is said
by `hex_text_of_ids`.
-/

namespace Tracing

open Text

namespace TraceId

theorem toNat_ofNat {n : Nat} (h : n < 2 ^ 128) : (ofNat n).toNat = n := by
  rw [ofNat, toNat, BitVec.toNat_ofNat, Nat.mod_eq_of_lt h]

theorem ofNat_toNat (t : TraceId) : ofNat t.toNat = t := ext_toNat (toNat_ofNat t.bits.isLt)

theorem isZero_of_lower {t : TraceId} (h : t.lower ≠ 0) : t.isZero = false := by
  unfold isZero
  rw [beq_eq_false_iff_ne]
  intro hzero
  refine h ?_
  unfold lower
  rw [hzero]
  rfl

theorem toNat_ne_zero {t : TraceId} (h : t.isZero = false) : t.toNat ≠ 0 := fun hzero => by
  have hbits : t.bits = 0 := BitVec.eq_of_toNat_eq hzero
  simp [isZero, hbits] at h

theorem toNat_lower (t : TraceId) : t.lower.toNat = t.toNat % 2 ^ 64 := by
  simp [lower, toNat]

theorem toNat_higher (t : TraceId) : t.higher.toNat = t.toNat / 2 ^ 64 := by
  have : t.bits.toNat < 2 ^ 128 := t.bits.isLt
  simp only [higher, toNat, BitVec.extractLsb'_toNat, Nat.shiftRight_eq_div_pow]
  omega

theorem toNat_ofParts (higher lower : BitVec 64) :
    (ofParts higher lower).toNat = higher.toNat * 2 ^ 64 + lower.toNat := by
  simp only [ofParts, toNat, BitVec.toNat_append]
  rw [← Nat.shiftLeft_add_eq_or_of_lt lower.isLt, Nat.shiftLeft_eq]

theorem ofParts_higher_lower (t : TraceId) : ofParts t.higher t.lower = t := by
  apply ext_toNat
  rw [toNat_ofParts, toNat_higher, toNat_lower]
  omega

theorem higher_ofParts (higher lower : BitVec 64) : (ofParts higher lower).higher = higher := by
  have hlower := lower.isLt
  refine BitVec.eq_of_toNat_eq ?_
  rw [toNat_higher, toNat_ofParts]
  omega

theorem lower_ofParts (higher lower : BitVec 64) : (ofParts higher lower).lower = lower := by
  have hlower := lower.isLt
  refine BitVec.eq_of_toNat_eq ?_
  rw [toNat_lower, toNat_ofParts]
  omega

end TraceId

namespace SpanId

theorem toNat_ofNat {n : Nat} (h : n < 2 ^ 64) : (ofNat n).toNat = n := by
  rw [ofNat, toNat, BitVec.toNat_ofNat, Nat.mod_eq_of_lt h]

theorem ofNat_toNat (s : SpanId) : ofNat s.toNat = s := by
  unfold ofNat toNat
  rw [BitVec.ofNat_toNat, BitVec.setWidth_eq]

theorem toNat_ne_zero {s : SpanId} (h : s.isZero = false) : s.toNat ≠ 0 := fun hzero => by
  have hbits : s.bits = 0 := BitVec.eq_of_toNat_eq hzero
  simp [isZero, hbits] at h

end SpanId

/-! ### Hexadecimal text -/

namespace TraceId

/-- A trace id is written as the digits of its number, in one of two widths. -/
theorem toHex_eq (t : TraceId) : ∃ width, (width = 16 ∨ width = 32) ∧ t.toNat < 16 ^ width ∧
    t.toHex = Hex.write width t.toNat := by
  unfold toHex
  split
  · next hzero =>
    have hhigher : t.toNat / 2 ^ 64 = 0 := by
      rw [← toNat_higher, hzero]
      rfl
    have hlower : t.lower.toNat = t.toNat := by
      rw [toNat_lower]
      omega
    exact ⟨16, .inl rfl, by omega, by rw [hlower]⟩
  · exact ⟨32, .inr rfl, t.bits.isLt, rfl⟩

theorem readNat_toHex (t : TraceId) : Hex.readNat t.toHex = some t.toNat := by
  obtain ⟨width, -, hlt, hid⟩ := t.toHex_eq
  rw [hid, Hex.readNat_write, Nat.mod_eq_of_lt hlt]

theorem toHex_injective {t t' : TraceId} (h : t.toHex = t'.toHex) : t = t' := by
  refine ext_toNat (Option.some.inj ?_)
  rw [← readNat_toHex, ← readNat_toHex, h]

/-- **The digits of a trace id are read back.** -/
theorem ofHex?_toHex {t : TraceId} (h : t.isZero = false) : ofHex? t.toHex = some t := by
  have hlength : t.toHex.length = 16 ∨ t.toHex.length = 32 := by
    obtain ⟨width, hwidth, -, hid⟩ := t.toHex_eq
    rwa [hid, Hex.length_write]
  unfold ofHex?
  rw [if_pos hlength, readNat_toHex]
  simp only [if_neg (toNat_ne_zero h), ofNat_toNat]

theorem isPlain_toHex (t : TraceId) : isPlain t.toHex = true ∧ '-' ∉ t.toHex := by
  obtain ⟨width, -, -, hid⟩ := t.toHex_eq
  rw [hid]
  exact Hex.isPlain_write width t.toNat

end TraceId

namespace SpanId

theorem readNat_toHex (s : SpanId) : Hex.readNat s.toHex = some s.toNat := by
  have hlt : s.toNat < 16 ^ 16 := s.bits.isLt
  rw [toHex, Hex.readNat_write, Nat.mod_eq_of_lt hlt]

theorem toHex_injective {s s' : SpanId} (h : s.toHex = s'.toHex) : s = s' := by
  refine ext_toNat (Option.some.inj ?_)
  rw [← readNat_toHex, ← readNat_toHex, h]

theorem ofHex?_toHex {s : SpanId} (h : s.isZero = false) : ofHex? s.toHex = some s := by
  have hlength : s.toHex.length = 16 := Hex.length_write 16 s.toNat
  unfold ofHex?
  rw [if_pos hlength, readNat_toHex]
  simp only [if_neg (toNat_ne_zero h), ofNat_toNat]

theorem isPlain_toHex (s : SpanId) : isPlain s.toHex = true ∧ '-' ∉ s.toHex := Hex.isPlain_write 16 s.toNat

end SpanId

/-! ### Texts that are ids -/

section

variable {text : List Char}

/-- 16 or 32 hexadecimal digits for a trace id other than zero. -/
def TraceId.IsHex (text : List Char) (t : TraceId) : Prop :=
  (Hex.IsNumeral 16 text t.toNat ∨ Hex.IsNumeral 32 text t.toNat) ∧ t.toNat ≠ 0

/-- 16 hexadecimal digits for a span id other than zero. -/
def SpanId.IsHex (text : List Char) (s : SpanId) : Prop := Hex.IsNumeral 16 text s.toNat ∧ s.toNat ≠ 0

/-- Digits of a suitable width stand for an id, unless they are those of zero. -/
theorem readId_eq_some_iff {α : Type} {suitable : Prop} [Decidable suitable] {ofNat : Nat → α} {a : α} :
    (if suitable then
        match Hex.readNat text with
        | some n => if n = 0 then none else some (ofNat n)
        | none => none
      else none) = some a ↔ ∃ n, suitable ∧ Hex.readNat text = some n ∧ n ≠ 0 ∧ ofNat n = a := by
  by_cases hsuitable : suitable
  · cases Hex.readNat text with
    | none => simp
    | some n => by_cases hzero : n = 0 <;> simp [hsuitable, hzero]
  · simp [hsuitable]

theorem TraceId.ofHex?_eq_some_iff {t : TraceId} : ofHex? text = some t ↔ IsHex text t := by
  have hnumeral (n : Nat) : (text.length = 16 ∨ text.length = 32) ∧ Hex.readNat text = some n ↔
      Hex.IsNumeral 16 text n ∨ Hex.IsNumeral 32 text n := by
    rw [Hex.isNumeral_iff, Hex.isNumeral_iff, or_and_right]
  refine readId_eq_some_iff.trans ?_
  simp only [← and_assoc, hnumeral]
  constructor
  · rintro ⟨n, ⟨hread, hzero⟩, rfl⟩
    have hlt : n < 2 ^ 128 :=
      hread.elim (fun h => Nat.lt_of_lt_of_le h.lt (by decide)) fun h => h.lt
    rw [IsHex, toNat_ofNat hlt]
    exact ⟨hread, hzero⟩
  · exact fun h => ⟨t.toNat, h, ofNat_toNat t⟩

theorem SpanId.ofHex?_eq_some_iff {s : SpanId} : ofHex? text = some s ↔ IsHex text s := by
  refine readId_eq_some_iff.trans ?_
  simp only [← and_assoc, ← Hex.isNumeral_iff]
  constructor
  · rintro ⟨n, ⟨hread, hzero⟩, rfl⟩
    rw [IsHex, toNat_ofNat hread.lt]
    exact ⟨hread, hzero⟩
  · exact fun h => ⟨s.toNat, h, ofNat_toNat s⟩

/-- The wide form of an id is the lower case of any text that is read as the id. -/
theorem TraceId.IsHex.toHex128_eq {t : TraceId} (h : IsHex text t) :
    t.toHex128 = List.replicate (32 - text.length) '0' ++ text.map Char.toLower := by
  rcases h.1 with h | h
  · rw [h.length]
    exact h.write_eq (by decide)
  · rw [h.length]
    exact h.write_eq (Nat.le_refl 32)

theorem SpanId.IsHex.toHex_eq {s : SpanId} (h : IsHex text s) : s.toHex = text.map Char.toLower :=
  h.1.write_eq (Nat.le_refl 16)

theorem TraceId.ofHex?_toHex128 {t : TraceId} (h : t.isZero = false) : ofHex? t.toHex128 = some t :=
  ofHex?_eq_some_iff.mpr ⟨.inr (Hex.isNumeral_write t.bits.isLt), toNat_ne_zero h⟩

theorem TraceId.length_toHex (t : TraceId) : t.toHex.length = if t.higher = 0 then 16 else 32 := by
  unfold toHex
  split
  · exact Hex.length_write 16 _
  · exact Hex.length_write 32 _

/-- **Ids and their hexadecimal text.** Both texts of a trace id that is not zero are read back as the id; the
short one has 16 digits if the upper half is zero, else 32. Exactly the texts of 16 or 32 hexadecimal digits
of either case with a value other than zero are read as trace ids, and the id of such a text is written as the
lower case of the text, behind zeros up to 32 digits. So it is with span ids and 16 digits. The halves of a
trace id make the id. -/
theorem hex_text_of_ids :
    (∀ t : TraceId, t.isZero = false → TraceId.ofHex? t.toHex = some t ∧ TraceId.ofHex? t.toHex128 = some t) ∧
    (∀ t : TraceId, t.toHex.length = if t.higher = 0 then 16 else 32) ∧
    (∀ (text : List Char) (t : TraceId), TraceId.ofHex? text = some t ↔ TraceId.IsHex text t) ∧
    (∀ (text : List Char) (t : TraceId), TraceId.ofHex? text = some t →
      t.toHex128 = List.replicate (32 - text.length) '0' ++ text.map Char.toLower) ∧
    (∀ s : SpanId, s.isZero = false → SpanId.ofHex? s.toHex = some s) ∧
    (∀ (text : List Char) (s : SpanId), SpanId.ofHex? text = some s ↔ SpanId.IsHex text s) ∧
    (∀ (text : List Char) (s : SpanId), SpanId.ofHex? text = some s → s.toHex = text.map Char.toLower) ∧
    (∀ t : TraceId, TraceId.ofParts t.higher t.lower = t) := by
  refine ⟨fun t ht => ⟨TraceId.ofHex?_toHex ht, TraceId.ofHex?_toHex128 ht⟩, TraceId.length_toHex,
    fun text t => TraceId.ofHex?_eq_some_iff, fun text t hread => ?_, fun s hs => SpanId.ofHex?_toHex hs,
    fun text s => SpanId.ofHex?_eq_some_iff, fun text s hread => ?_, TraceId.ofParts_higher_lower⟩
  · exact (TraceId.ofHex?_eq_some_iff.mp hread).toHex128_eq
  · exact (SpanId.ofHex?_eq_some_iff.mp hread).toHex_eq

/-- Digits in capitals are read, and written in lower case behind zeros; a trace id with an upper half comes
back from both of its texts. -/
theorem hex_text_of_ids_capitals :
    let digits := "00F067AA0BA902B7".toList
    let t := TraceId.ofParts 1 10
    TraceId.ofHex? digits = some (.ofNat 0xf067aa0ba902b7) ∧
      (TraceId.ofNat 0xf067aa0ba902b7).toHex128 = "000000000000000000f067aa0ba902b7".toList ∧
      SpanId.ofHex? digits = some (.ofNat 0xf067aa0ba902b7) ∧
      (SpanId.ofNat 0xf067aa0ba902b7).toHex = "00f067aa0ba902b7".toList ∧
      t.isZero = false ∧ TraceId.ofHex? t.toHex = some t ∧ TraceId.ofHex? t.toHex128 = some t := by
  intro digits t
  have htrace : TraceId.ofHex? digits = some (.ofNat 0xf067aa0ba902b7) := by decide +kernel
  have hspan : SpanId.ofHex? digits = some (.ofNat 0xf067aa0ba902b7) := by decide +kernel
  have hzero : t.isZero = false := by decide
  obtain ⟨hback, -, -, hwide, -, -, hlower, -⟩ := hex_text_of_ids
  exact ⟨htrace, (hwide _ _ htrace).trans (by decide +kernel), hspan,
    (hlower _ _ hspan).trans (by decide +kernel), hzero, hback t hzero⟩

end

end Tracing
