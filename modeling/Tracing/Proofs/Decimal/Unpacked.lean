import Mathlib
import Tracing.Decimal.Shortest

/-!
# Floating-point numbers as mantissa and exponent

The arithmetic of `Float` unpacks a number, computes exactly, rounds and packs the result. The mantissa and
the exponent that it works on are those of `binaryOf` (`unpack_finite`). From this come what a comparison with
zero and one says, that nothing comes of a multiplication by zero (`capped_zero`), and that a number between
zero and one times `2 ^ 64` is not rounded at all (`unpack_scaled`): a power of two only moves the exponent.
-/

namespace Tracing

namespace Decimal

open Float.Model

/-! ### What is read off the bits -/

/-- A finite number has the mantissa and the exponent that are read off its bits. -/
theorem unpack_finite {x : Float} {sign : UnpackedFloat.Sign} {m : Nat} {e : Int} {h : 0 < m}
    (hx : x.toModel.unpack = .finite sign m e h) :
    m = (binaryOf x).mantissa ∧ e = (binaryOf x).exponent := by
  let mantissa := @UnpackedFloat.unpackMantissa Format.binary64 x.toModel.toBits.toBitVec
  let exponent := @UnpackedFloat.unpackExponent Format.binary64 x.toModel.toBits.toBitVec
  have hmantissa : mantissa.toNat = x.toBits.toNat % (1 <<< 52) := by
    simp [mantissa, UnpackedFloat.unpackMantissa, Float.toBits]
  have hexponent : exponent.toNat = (x.toBits.toNat >>> 52) % (1 <<< 11) := by
    simp [exponent, UnpackedFloat.unpackExponent, Float.toBits]
  have hlead : (1#1 ++ mantissa).toNat = mantissa.toNat + 1 <<< 52 := by
    change 2 ^ 52 ||| mantissa.toNat = _
    rw [Nat.or_comm, Nat.or_two_pow_eq_add_of_lt mantissa.isLt]
    rfl
  unfold binaryOf
  simp only [← hmantissa, ← hexponent]
  change (if exponent = -1#11 then if mantissa = 0#52 then _ else _
    else if exponent = 0#11 then if h : mantissa = 0#52 then _ else _ else _) = _ at hx
  split at hx
  · split at hx <;> cases hx
  · split at hx
    · next hzero =>
      split at hx
      · cases hx
      · obtain ⟨-, rfl, rfl⟩ := UnpackedFloat.finite.inj hx
        have hbiased : exponent.toNat = 0 := by rw [hzero]; rfl
        rw [if_pos hbiased, hbiased]
        exact ⟨rfl, rfl⟩
    · next hzero =>
      obtain ⟨-, rfl, rfl⟩ := UnpackedFloat.finite.inj hx
      have hbiased : exponent.toNat ≠ 0 := fun h0 => hzero (BitVec.eq_of_toNat_eq h0)
      rw [if_neg hbiased]
      exact ⟨hlead, rfl⟩

/-- The mantissa of a number has at most 53 bits, and exactly that many unless the exponent is the least. -/
theorem mantissa_bounds (x : Float) :
    (binaryOf x).mantissa < 2 ^ 53 ∧ ((binaryOf x).exponent = -1074 ∨ 2 ^ 52 ≤ (binaryOf x).mantissa) := by
  have hlead : (1 : Nat) <<< 52 = 2 ^ 52 := rfl
  have hfraction : x.toBits.toNat % (1 <<< 52) < 2 ^ 52 := Nat.mod_lt _ (by decide)
  unfold binaryOf
  simp only
  split
  · exact ⟨Nat.lt_trans hfraction (by decide), .inl rfl⟩
  · simp only [hlead] at hfraction ⊢
    exact ⟨by omega, .inr (by omega)⟩

theorem le_exponent (x : Float) : -1074 ≤ (binaryOf x).exponent := by
  unfold binaryOf
  simp only
  split
  · exact le_rfl
  · simp only [Int.ofNat_eq_natCast]
    omega

/-! ### Comparisons -/

theorem lt_iff_unpack {x y : Float} : x < y ↔ x.toModel.unpack.lt y.toModel.unpack = true := by
  have hmodel : x < y ↔ x.toModel.lt y.toModel = true := by simp [Float.lt, LT.lt]
  exact hmodel

theorem le_iff_unpack {x y : Float} : x ≤ y ↔ x.toModel.unpack.le y.toModel.unpack = true := by
  have hmodel : x ≤ y ↔ x.toModel.le y.toModel = true := by simp [Float.le, LE.le]
  exact hmodel

theorem unpack_zero : (Float.toModel 0).unpack = .zero .positive := rfl

theorem unpack_one : (Float.toModel 1).unpack = .finite .positive (2 ^ 52) (-52) (by decide) := rfl

theorem unpack_of_pos {x : Float} (hpos : 0 < x) :
    x.toModel.unpack = .infinity .positive ∨ ∃ m e h, x.toModel.unpack = .finite .positive m e h := by
  rw [lt_iff_unpack, unpack_zero] at hpos
  cases hx : x.toModel.unpack with
  | notANumber | zero =>
    rw [hx] at hpos
    cases hpos
  | infinity sign =>
    cases sign with
    | negative =>
      rw [hx] at hpos
      cases hpos
    | positive => exact .inl rfl
  | finite sign m e h =>
    cases sign with
    | negative =>
      rw [hx] at hpos
      cases hpos
    | positive => exact .inr ⟨m, e, h, rfl⟩

theorem exists_unpack {x : Float} (hfinite : x.isFinite = true) (hpos : 0 < x) :
    ∃ m e h, x.toModel.unpack = .finite .positive m e h := by
  rcases unpack_of_pos hpos with hx | hx
  · change x.toModel.unpack.isFinite = true at hfinite
    rw [hx] at hfinite
    cases hfinite
  · exact hx

theorem isFinite_of_lt_one {x : Float} (hpos : 0 < x) (hlt : x < 1) : x.isFinite = true := by
  rw [lt_iff_unpack, unpack_one] at hlt
  change x.toModel.unpack.isFinite = true
  rcases unpack_of_pos hpos with hx | ⟨m, e, h, hx⟩
  · rw [hx] at hlt
    cases hlt
  · rw [hx]
    rfl

theorem not_one_le {x : Float} (h : x ≤ 0 ∨ x.isNaN = true) : ¬ 1 ≤ x := by
  intro hone
  rw [le_iff_unpack, unpack_one] at hone
  rw [le_iff_unpack, unpack_zero] at h
  change _ ∨ x.toModel.unpack.isNaN = true at h
  cases hx : x.toModel.unpack with
  | notANumber | zero =>
    rw [hx] at hone
    cases hone
  | infinity sign | finite sign =>
    rw [hx] at hone h
    cases sign with
    | negative => cases hone
    | positive => rcases h with h | h <;> cases h

theorem not_le_of_isNaN {x y : Float} (h : y.isNaN = true) : ¬ x ≤ y := by
  change y.toModel.unpack.isNaN = true at h
  rw [le_iff_unpack]
  cases hy : y.toModel.unpack with
  | notANumber => cases x.toModel.unpack <;> exact Bool.false_ne_true
  | _ =>
    rw [hy] at h
    cases h

theorem exponent_lt_of_lt_one {x : Float} {m : Nat} {e : Int} {h : 0 < m}
    (hx : x.toModel.unpack = .finite .positive m e h) (hlt : x < 1) : e < -52 := by
  obtain ⟨hm, he⟩ := unpack_finite hx
  obtain ⟨-, hfull⟩ := mantissa_bounds x
  rw [← hm, ← he] at hfull
  rw [lt_iff_unpack, unpack_one, hx] at hlt
  simp only [UnpackedFloat.lt, UnpackedFloat.compare, compare, compareOfLessAndEq, beq_iff_eq,
    Option.some.injEq] at hlt
  split at hlt
  · assumption
  · split at hlt
    · split at hlt
      · omega
      · split at hlt <;> cases hlt
    · cases hlt

theorem between_zero_and_one {x : Float} (hpos : 0 < x) (hlt : x < 1) :
    ¬ 1 ≤ x ∧ ¬ x ≤ 0 ∧ x.isNaN = false := by
  obtain ⟨m, e, h, hx⟩ := exists_unpack (isFinite_of_lt_one hpos hlt) hpos
  have he : e < -52 := exponent_lt_of_lt_one hx hlt
  rw [le_iff_unpack, le_iff_unpack, unpack_zero, unpack_one]
  change _ ∧ _ ∧ x.toModel.unpack.isNaN = false
  rw [hx]
  refine ⟨?_, by simp [UnpackedFloat.le, UnpackedFloat.compare], rfl⟩
  have hless : ¬ (-52 < e) := by omega
  have hne : ¬ (-52 = e) := by omega
  simp [UnpackedFloat.le, UnpackedFloat.compare, compare, compareOfLessAndEq, hless, hne]

/-! ### Multiplication by zero -/

theorem unpack_of_zero {x : Float} (hge : 0 ≤ x) (hle : x ≤ 0) : ∃ sign, x.toModel.unpack = .zero sign := by
  rw [le_iff_unpack, unpack_zero] at hge hle
  cases hx : x.toModel.unpack with
  | notANumber =>
    rw [hx] at hge
    cases hge
  | zero sign => exact ⟨sign, rfl⟩
  | infinity sign | finite sign =>
    rw [hx] at hge hle
    cases sign with
    | negative => cases hge
    | positive => cases hle

theorem mul_zero_cases (x : UnpackedFloat) (sign : UnpackedFloat.Sign) :
    (∃ sign', x.mul .binary64 (.zero sign) = .zero sign') ∨ x.mul .binary64 (.zero sign) = .notANumber := by
  cases x with
  | notANumber => exact .inr rfl
  | infinity sign' => exact .inr rfl
  | zero sign' => exact .inl ⟨_, rfl⟩
  | finite sign' m e h => exact .inl ⟨_, rfl⟩

/-- Nothing flows at a rate of zero: what is added to zero and capped by zero is zero. -/
theorem capped_zero (x : Float) {y : Float} (hge : 0 ≤ y) (hle : y ≤ 0) :
    (if 0 + x * y ≤ 0 then 0 + x * y else 0) = 0 := by
  obtain ⟨sign, hy⟩ := unpack_of_zero hge hle
  have hproduct : x * y = .ofModel (Float.Model.pack (x.toModel.unpack.mul .binary64 (.zero sign))) := by
    rw [← hy]
    rfl
  rw [hproduct]
  rcases mul_zero_cases x.toModel.unpack sign with ⟨sign', hzero⟩ | hnan
  · rw [hzero]
    cases sign' <;> decide +kernel
  · rw [hnan]
    decide +kernel

/-! ### Rounding -/

theorem mantissa_shiftRight (em : UnpackedFloat.ExtendedMantissa) (n : Nat) :
    (em >>> n).mantissa = em.mantissa / 2 ^ n := by
  change (n.repeat _ em).mantissa = _
  induction n with
  | zero => simp [Nat.repeat]
  | succ n ih =>
    change (n.repeat UnpackedFloat.ExtendedMantissa.shiftRightOne em).mantissa / 2 = _
    rw [ih, Nat.div_div_eq_div_mul, pow_succ]

theorem shiftRight_exact (m n : Nat) :
    (⟨m * 2 ^ n, false, false⟩ : UnpackedFloat.ExtendedMantissa) >>> n = ⟨m, false, false⟩ := by
  change n.repeat UnpackedFloat.ExtendedMantissa.shiftRightOne _ = _
  induction n generalizing m with
  | zero => simp [Nat.repeat]
  | succ n ih =>
    have hih := ih (m * 2)
    rw [mul_assoc, ← pow_succ'] at hih
    rw [Nat.repeat, hih]
    simp [UnpackedFloat.ExtendedMantissa.shiftRightOne]

theorem roundToInt_eq (m : Nat) (e : Int) :
    UnpackedFloat.roundToInt .positive m e = ⌊(m : ℚ) * 2 ^ e⌋ := by
  have hmantissa : UnpackedFloat.roundToInt .positive m e =
      ((m * 2 ^ e.toNat / 2 ^ (-e).toNat : Nat) : Int) := by
    have hshift : (0 - (e - (e.toNat : Int))).toNat = (-e).toNat := by omega
    unfold UnpackedFloat.roundToInt UnpackedFloat.decreaseExponent UnpackedFloat.shiftToExponent
    simp only [Int.sub_zero, hshift, mantissa_shiftRight, Nat.shiftLeft_eq]
    rfl
  rw [hmantissa]
  rcases Int.le_total 0 e with he | he
  · obtain ⟨n, rfl⟩ := Int.eq_ofNat_of_zero_le he
    have hcast : (m : ℚ) * 2 ^ (n : Int) = ((m * 2 ^ n : Nat) : ℚ) := by push_cast; rw [zpow_natCast]
    rw [hcast, Int.floor_natCast]
    simp
  · obtain ⟨n, rfl⟩ : ∃ n : Nat, e = -(n : Int) := ⟨(-e).toNat, by omega⟩
    have hcast : (m : ℚ) * 2 ^ (-(n : Int)) = (m : ℚ) / ((2 ^ n : Nat) : ℚ) := by
      push_cast; rw [zpow_neg, zpow_natCast, div_eq_mul_inv]
    rw [hcast, Rat.floor_natCast_div_natCast]
    simp

/-- Rounding keeps a mantissa of full width and only drops the zeros behind it. -/
theorem roundWithAccuracy_exact {m n : Nat} {e : Int} (hm : 2 ^ 52 ≤ m ∧ m < 2 ^ 53) (he : -1074 ≤ e + n) :
    UnpackedFloat.roundWithAccuracy .binary64 .positive (m * 2 ^ n) e .exact =
      .finite .positive m (e + n) (Nat.lt_of_lt_of_le (by decide) hm.1) := by
  have hne : m ≠ 0 := by omega
  have hlog : ∀ k, (m * 2 ^ k).log2 = 52 + k := by
    intro k
    refine (Nat.log2_eq_iff (Nat.mul_ne_zero hne (by positivity))).mpr ⟨?_, ?_⟩
    · rw [pow_add]
      exact Nat.mul_le_mul_right _ hm.1
    · rw [show 52 + k + 1 = 53 + k by omega, pow_add]
      exact Nat.mul_lt_mul_of_pos_right hm.2 (by positivity)
  have hshift : ∀ (k : Nat) (e' : Int), -1074 ≤ e' + k →
      UnpackedFloat.shiftToTargetExponent .binary64 (m * 2 ^ k) e' .exact = (⟨m, false, false⟩, e' + k) := by
    intro k e' he'
    have htarget : (Format.binary64.targetExponent (totalExponent (m * 2 ^ k) e') - e').toNat = k := by
      unfold Format.targetExponent totalExponent
      rw [hlog]
      change (max (((52 + k : Nat) : Int) + 1 + e' - 53) (-1074) - e').toNat = k
      omega
    unfold UnpackedFloat.shiftToTargetExponent UnpackedFloat.shiftToExponent
    simp only [htarget]
    exact congrArg (·, e' + (k : Int)) (shiftRight_exact m k)
  -- the result is shifted a second time in case rounding carried, which it did not
  have hfirst := hshift n e he
  have hsecond := hshift 0 (e + n) (by omega)
  rw [pow_zero, Nat.mul_one, Nat.cast_zero, Int.add_zero] at hsecond
  have hrounded : (⟨m, false, false⟩ : UnpackedFloat.ExtendedMantissa).roundedMantissa = m := rfl
  unfold UnpackedFloat.roundWithAccuracy
  simp only [hfirst, hrounded, hsecond, hne, dite_false]

/-- A number whose mantissa has full width is unpacked as it was packed. -/
theorem unpack_pack {m : Nat} {e : Int} (h : 0 < m) (hm : 2 ^ 52 ≤ m ∧ m < 2 ^ 53) (he : -1074 ≤ e ∧ e ≤ 971) :
    (Float.Model.pack (.finite .positive m e h)).unpack = .finite .positive m e h := by
  obtain ⟨biased, hbiased, hpos, hlt⟩ : ∃ biased : Nat, e = biased - 1075 ∧ 0 < biased ∧ biased < 2047 :=
    ⟨(e + 1075).toNat, by omega, by omega, by omega⟩
  have hnat : (BitVec.ofNat 11 biased).toNat = biased := by
    rw [BitVec.toNat_ofNat, Nat.mod_eq_of_lt (by omega)]
  have hlog : m.log2 = 52 := (Nat.log2_eq_iff (by omega)).mpr ⟨hm.1, hm.2⟩
  have hpack : UnpackedFloat.pack .binary64 (.finite .positive m e h) =
      UnpackedFloat.packComponents .binary64 .positive (BitVec.ofNat 11 biased) (BitVec.ofNat 52 m) := by
    have hexp : (e + Format.binary64.exponentBias + Format.binary64.mantissaBitsWithoutImplicit).toNat = biased := by
      change (e + 1023 + 52).toNat = biased
      omega
    unfold UnpackedFloat.pack
    simp only [hexp, hlog]
    rw [if_neg (by change ¬ 2048 ≤ biased + 1; omega)]
    exact if_pos rfl
  change UnpackedFloat.unpack .binary64 (UnpackedFloat.pack .binary64 (.finite .positive m e h)) = _
  rw [hpack]
  unfold UnpackedFloat.unpack
  have hones : BitVec.ofNat 11 biased ≠ -1#11 := by
    intro hones
    rw [hones] at hnat
    change 2047 = biased at hnat
    omega
  have hzero : BitVec.ofNat 11 biased ≠ 0#11 := by
    intro hzero
    rw [hzero] at hnat
    change 0 = biased at hnat
    omega
  have hlead : (1#1 ++ BitVec.ofNat 52 m).toNat = m := by
    change 2 ^ 52 ||| (BitVec.ofNat 52 m).toNat = m
    rw [Nat.or_comm, Nat.or_two_pow_eq_add_of_lt (BitVec.isLt _), BitVec.toNat_ofNat]
    omega
  simp only [UnpackedFloat.unpackMantissa_packComponents, UnpackedFloat.unpackExponent_packComponents,
    UnpackedFloat.unpackSign_packComponents, UnpackedFloat.Sign.ofBitVec_toBitVec]
  refine (if_neg hones).trans ((if_neg hzero).trans ?_)
  have hexp : ((BitVec.ofNat 11 biased).toNat : Int) - (1023 + 52) = e := by omega
  exact (UnpackedFloat.finite.injEq ..).mpr ⟨rfl, hlead, hexp⟩

/-! ### Scaling by a power of two -/

/-- The rational number that a binary number is. -/
def Binary.value (b : Binary) : ℚ := b.mantissa * 2 ^ b.exponent

theorem full_width {m : Nat} (h : 0 < m) (hlt : m < 2 ^ 53) :
    m.log2 ≤ 52 ∧ 2 ^ 52 ≤ m * 2 ^ (52 - m.log2) ∧ m * 2 ^ (52 - m.log2) < 2 ^ 53 := by
  have hlog : m.log2 ≤ 52 := Nat.le_of_lt_succ ((Nat.log2_lt h.ne').mpr hlt)
  refine ⟨hlog, ?_, ?_⟩
  · calc 2 ^ 52 = 2 ^ m.log2 * 2 ^ (52 - m.log2) := by rw [← pow_add, Nat.add_sub_cancel' hlog]
      _ ≤ m * 2 ^ (52 - m.log2) := Nat.mul_le_mul_right _ (Nat.log2_self_le h.ne')
  · calc m * 2 ^ (52 - m.log2) < 2 ^ (m.log2 + 1) * 2 ^ (52 - m.log2) :=
          Nat.mul_lt_mul_of_pos_right Nat.lt_log2_self (by positivity)
      _ = 2 ^ 53 := by rw [← pow_add]; congr 1; omega

/-- **Scaling by `2 ^ 64` is exact.** -/
theorem unpack_scaled {x : Float} {m : Nat} {e : Int} {h : 0 < m}
    (hx : x.toModel.unpack = .finite .positive m e h) (he : e < 0) : ∃ (m' : Nat) (e' : Int) (h' : 0 < m'),
      (x * 18446744073709551616).toModel.unpack = .finite .positive m' e' h' ∧
        (m' : ℚ) * 2 ^ e' = m * 2 ^ e * 2 ^ 64 := by
  obtain ⟨hm, hexp⟩ := unpack_finite hx
  have hlow : -1074 ≤ e := hexp ▸ le_exponent x
  obtain ⟨hlog, hfull⟩ := full_width h (hm ▸ (mantissa_bounds x).1)
  have hpos : 0 < m * 2 ^ (52 - m.log2) := Nat.lt_of_lt_of_le (by decide) hfull.1
  have hfactor : m * 2 ^ 52 = m * 2 ^ (52 - m.log2) * 2 ^ m.log2 := by
    rw [Nat.mul_assoc, ← pow_add, Nat.sub_add_cancel hlog]
  have hscale : (Float.toModel 18446744073709551616).unpack = .finite .positive (2 ^ 52) 12 (by decide) := rfl
  have hproduct : UnpackedFloat.mul .binary64 x.toModel.unpack (Float.toModel 18446744073709551616).unpack =
      .finite .positive (m * 2 ^ (52 - m.log2)) (e + 12 + m.log2) hpos := by
    rw [hx, hscale]
    show UnpackedFloat.roundWithAccuracy .binary64 .positive (m * 2 ^ 52) (e + 12) .exact = _
    rw [hfactor]
    exact roundWithAccuracy_exact hfull (by omega)
  refine ⟨m * 2 ^ (52 - m.log2), e + 12 + m.log2, hpos, ?_, ?_⟩
  · show (Float.Model.pack (UnpackedFloat.mul .binary64 x.toModel.unpack
      (Float.toModel 18446744073709551616).unpack)).unpack = _
    rw [hproduct]
    exact unpack_pack _ hfull (by omega)
  · have hcast : (m : ℚ) * 2 ^ 52 = ((m * 2 ^ (52 - m.log2) : Nat) : ℚ) * 2 ^ m.log2 := by
      exact_mod_cast congrArg (Nat.cast (R := ℚ)) hfactor
    have htwelve : (2 : ℚ) ^ (12 : Int) = 2 ^ 12 := zpow_natCast 2 12
    rw [zpow_add₀ two_ne_zero, zpow_add₀ two_ne_zero, zpow_natCast, htwelve]
    calc ((m * 2 ^ (52 - m.log2) : Nat) : ℚ) * (2 ^ e * 2 ^ 12 * 2 ^ m.log2)
        = ((m * 2 ^ (52 - m.log2) : Nat) : ℚ) * 2 ^ m.log2 * (2 ^ e * 2 ^ 12) := by ring
      _ = (m : ℚ) * 2 ^ e * 2 ^ 64 := by rw [← hcast]; ring

theorem toNat_toUInt64 {x : Float} {m : Nat} {e : Int} {h : 0 < m}
    (hx : x.toModel.unpack = .finite .positive m e h) (hlt : (m : ℚ) * 2 ^ e < 2 ^ 64) :
    x.toUInt64.toNat = ⌊(m : ℚ) * 2 ^ e⌋₊ := by
  have hbound : ⌊(m : ℚ) * 2 ^ e⌋₊ < UInt64.size := by
    rw [Nat.floor_lt (by positivity)]
    exact_mod_cast hlt
  change (UInt64.ofNatClamp (x.toModel.unpack.toInt 0 _).toNat).toNat = _
  rw [hx]
  change (UInt64.ofNatClamp (UnpackedFloat.roundToInt .positive m e).toNat).toNat = _
  rw [roundToInt_eq, Int.floor_toNat, UInt64.ofNatClamp_eq_ofNat _ hbound]
  exact UInt64.toNat_ofNat_of_lt hbound

theorem value_lt_one {x : Float} {m : Nat} {e : Int} {h : 0 < m}
    (hx : x.toModel.unpack = .finite .positive m e h) (hlt : x < 1) :
    (binaryOf x).value = m * 2 ^ e ∧ (m : ℚ) * 2 ^ e < 1 := by
  obtain ⟨hm, hexp⟩ := unpack_finite hx
  have he : e < -52 := exponent_lt_of_lt_one hx hlt
  have hbits : (m : ℚ) < 2 ^ 53 := by exact_mod_cast hm ▸ (mantissa_bounds x).1
  refine ⟨by rw [Binary.value, ← hm, ← hexp], ?_⟩
  calc (m : ℚ) * 2 ^ e < 2 ^ 53 * 2 ^ e := by gcongr
    _ = 2 ^ (53 + e) := by rw [zpow_add₀ two_ne_zero]; rfl
    _ ≤ 1 := zpow_le_one_of_nonpos₀ one_le_two (by omega)

/-- **A number between zero and one, scaled to `2 ^ 64`, becomes the integer below its share.** -/
theorem toNat_scaled {x : Float} (hpos : 0 < x) (hlt : x < 1) :
    (x * 18446744073709551616).toUInt64.toNat = ⌊(binaryOf x).value * 2 ^ 64⌋₊ := by
  obtain ⟨m, e, h, hx⟩ := exists_unpack (isFinite_of_lt_one hpos hlt) hpos
  obtain ⟨hvalue, hless⟩ := value_lt_one hx hlt
  have he : e < -52 := exponent_lt_of_lt_one hx hlt
  obtain ⟨m', e', h', hscaled, hproduct⟩ := unpack_scaled hx (by omega)
  rw [hvalue, ← hproduct]
  refine toNat_toUInt64 hscaled ?_
  rw [hproduct]
  linarith

end Decimal

end Tracing
