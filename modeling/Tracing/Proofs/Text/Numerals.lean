import Tracing.Proofs.Text.Reading

/-!
# Numerals

Which texts are numbers, and which number each of them is.

* `Hex.readNat_eq_some_iff`: hexadecimal digits of either case, by their places (`Hex.value`), and
  `Hex.write_value`: they are written in lower case;
* `Integer.readNat_eq_some_iff`: one or more decimal digits;
* `Integer.readUnsigned_eq_some_iff`, `Integer.readInt_eq_some_iff`: decimal digits behind a sign or none;
* `Hex.IsNumeral.eq_zero_iff`, `Integer.IsNumeral.eq_zero_iff`: only zeros stand for zero.
-/

namespace Tracing.Text

variable {text : List Char} {n : Nat}

/-! ### Hexadecimal numerals -/

namespace Hex

/-- The digits in the order of their values. -/
def digits : List Char :=
  ['0', '1', '2', '3', '4', '5', '6', '7', '8', '9', 'a', 'b', 'c', 'd', 'e', 'f']

/-- The number that digits of either case stand for: a place counts sixteen times the place behind it. -/
def value (text : List Char) : Nat := Nat.ofDigits 16 (text.reverse.map fun c => digits.idxOf c.toLower)

/-- A text of `width` hexadecimal digits of either case stands for a number. -/
structure IsNumeral (width : Nat) (text : List Char) (n : Nat) : Prop where
  length : text.length = width
  digits : ∀ c ∈ text, c.toLower ∈ Hex.digits
  value : Hex.value text = n

/-- ASCII is checked character by character. -/
theorem char_cases {motive : Char → Prop} (ascii : ∀ n : Fin 128, motive (Char.ofNat n))
    (large : ∀ c : Char, 128 ≤ c.toNat → motive c) (c : Char) : motive c := by
  by_cases h : c.toNat < 128
  · have hc := ascii ⟨c.toNat, h⟩
    rwa [Char.ofNat_toNat] at hc
  · exact large c (by omega)

theorem toLower_of_large {c : Char} (h : 128 ≤ c.toNat) : c.toLower = c := by
  refine Char.toLower_eq_of_not_isUpper fun hupper => ?_
  have hle : c.toNat ≤ 'Z'.toNat := UInt32.le_iff_toNat_le.mp (of_decide_eq_true hupper).2
  exact absurd (Nat.le_trans h hle) (by decide)

theorem digitValue?_of_large {c : Char} (h : 128 ≤ c.toNat) : digitValue? c = none := by
  have above : ∀ d : Char, d.toNat < 128 → ¬ c ≤ d := by
    intro d hd hle
    have hnat : c.toNat ≤ d.toNat := UInt32.le_iff_toNat_le.mp (Char.le_def.mp hle)
    omega
  unfold digitValue?
  rw [if_neg fun hc => above '9' (by decide) hc.2, if_neg fun hc => above 'f' (by decide) hc.2,
    if_neg fun hc => above 'F' (by decide) hc.2]

theorem digitValue?_eq (c : Char) :
    digitValue? c = if c.toLower ∈ digits then some (digits.idxOf c.toLower) else none := by
  induction c using char_cases with
  | ascii n =>
    revert n
    decide +kernel
  | large c hlarge =>
    have hdigits : ∀ d ∈ digits, d.toNat < 128 := by simp [digits]
    have hmem : c ∉ digits := fun hmem => absurd (hdigits c hmem) (by omega)
    rw [toLower_of_large hlarge, if_neg hmem, digitValue?_of_large hlarge]

theorem eq_zero_of_toLower {c : Char} (h : c.toLower = '0') : c = '0' := by
  induction c using char_cases with
  | ascii n =>
    revert n
    decide +kernel
  | large c hlarge => rwa [toLower_of_large hlarge] at h

theorem eq_zero_of_idxOf {c : Char} (h : digits.idxOf c.toLower = 0) : c = '0' := by
  refine eq_zero_of_toLower ?_
  rw [digits, List.idxOf_cons] at h
  cases heq : '0' == c.toLower with
  | true => exact (eq_of_beq heq).symm
  | false =>
    rw [heq] at h
    cases h

theorem value_concat (text : List Char) (c : Char) :
    value (text ++ [c]) = 16 * value text + digits.idxOf c.toLower := by
  unfold value
  rw [List.reverse_concat, List.map_cons, Nat.ofDigits_cons]
  exact Nat.add_comm _ _

/-- **Hexadecimal digits are read by their places, and nothing else is read.** -/
theorem readNat_eq_some_iff :
    readNat text = some n ↔ (∀ c ∈ text, c.toLower ∈ digits) ∧ value text = n := by
  induction text using List.reverseRecOn generalizing n with
  | nil => simp [readNat, value]
  | append_singleton text c ih =>
    rw [readNat_concat, value_concat, List.forall_mem_append, List.forall_mem_singleton]
    unfold pushDigit
    rw [digitValue?_eq]
    simp only [Option.bind_eq_bind, Option.bind_eq_some_iff, ih, Option.pure_def, Option.some.injEq]
    constructor
    · rintro ⟨m, ⟨hdigits, rfl⟩, d, hd, rfl⟩
      split at hd
      · next hc =>
        cases hd
        exact ⟨⟨hdigits, hc⟩, rfl⟩
      · cases hd
    · rintro ⟨⟨hdigits, hc⟩, rfl⟩
      exact ⟨_, ⟨hdigits, rfl⟩, _, if_pos hc, rfl⟩

theorem isNumeral_iff {width : Nat} :
    IsNumeral width text n ↔ text.length = width ∧ readNat text = some n := by
  rw [readNat_eq_some_iff]
  exact ⟨fun h => ⟨h.length, h.digits, h.value⟩, fun h => ⟨h.1, h.2.1, h.2.2⟩⟩

theorem readNat_of_width_iff {width : Nat} :
    (if text.length = width then readNat text else none) = some n ↔ IsNumeral width text n := by
  rw [isNumeral_iff]
  split
  · next h => simp [h]
  · next h => simp [h]

theorem value_replicate_zero (width : Nat) : value (List.replicate width '0') = 0 := by
  have hzero : digits.idxOf '0'.toLower = 0 := by decide
  unfold value
  rw [List.reverse_replicate, List.map_replicate, hzero, Nat.ofDigits_replicate_zero]

theorem all_zero_of_value (hdigits : ∀ c ∈ text, c.toLower ∈ digits) (h : value text = 0) :
    ∀ c ∈ text, c = '0' := by
  induction text using List.reverseRecOn with
  | nil => exact fun c hc => absurd hc List.not_mem_nil
  | append_singleton text c ih =>
    rw [List.forall_mem_append, List.forall_mem_singleton] at hdigits ⊢
    rw [value_concat] at h
    exact ⟨ih hdigits.1 (by omega), eq_zero_of_idxOf (by omega)⟩

theorem IsNumeral.eq_zero_iff {width : Nat} (h : IsNumeral width text n) :
    n = 0 ↔ text = List.replicate width '0' := by
  obtain ⟨rfl, hdigits, rfl⟩ := h
  constructor
  · exact fun hzero => List.eq_replicate_iff.mpr ⟨rfl, all_zero_of_value hdigits hzero⟩
  · intro htext
    rw [htext]
    exact value_replicate_zero _

theorem IsNumeral.lt {width : Nat} (h : IsNumeral width text n) : n < 16 ^ width := by
  obtain ⟨rfl, hdigits, rfl⟩ := h
  have hplaces : ∀ place ∈ text.reverse.map fun c => Hex.digits.idxOf c.toLower, place < 16 := by
    intro place hplace
    obtain ⟨c, hc, rfl⟩ := List.mem_map.mp hplace
    exact List.idxOf_lt_length_of_mem (hdigits c (List.mem_reverse.mp hc))
  have hlt := Nat.ofDigits_lt_base_pow_length (by decide) hplaces
  rwa [List.length_map, List.length_reverse] at hlt

theorem digit_idxOf {c : Char} (h : c ∈ digits) : digit (digits.idxOf c) = c := by
  have hget : ∀ place : Fin digits.length, digit place.val = digits.get place := by decide
  exact (hget ⟨_, List.idxOf_lt_length_of_mem h⟩).trans (List.getElem_idxOf _)

theorem write_zero (width : Nat) : write width 0 = List.replicate width '0' := by
  induction width with
  | zero => rfl
  | succ width ih => rw [write, Nat.zero_div, ih, List.replicate_succ']; rfl

/-- **Writing the value of some digits gives the digits in lower case**, behind zeros up to the width. -/
theorem write_value {width : Nat} (hdigits : ∀ c ∈ text, c.toLower ∈ digits) (hwidth : text.length ≤ width) :
    write width (value text) = List.replicate (width - text.length) '0' ++ text.map Char.toLower := by
  induction text using List.reverseRecOn generalizing width with
  | nil => rw [List.map_nil, List.append_nil]; exact write_zero width
  | append_singleton text c ih =>
    rw [List.forall_mem_append, List.forall_mem_singleton] at hdigits
    rw [List.length_append, List.length_singleton] at hwidth ⊢
    obtain ⟨width, rfl⟩ : ∃ w, width = w + 1 := ⟨width - 1, by omega⟩
    have hplace : digits.idxOf c.toLower < 16 := List.idxOf_lt_length_of_mem hdigits.2
    have hfront : (16 * value text + digits.idxOf c.toLower) / 16 = value text := by omega
    have hlast : (16 * value text + digits.idxOf c.toLower) % 16 = digits.idxOf c.toLower := by omega
    rw [value_concat, write, hfront, hlast, digit_idxOf hdigits.2, ih hdigits.1 (by omega),
      Nat.add_sub_add_right, List.map_append, List.map_singleton, List.append_assoc]

theorem IsNumeral.write_eq {short width : Nat} (h : IsNumeral short text n) (hwidth : short ≤ width) :
    write width n = List.replicate (width - short) '0' ++ text.map Char.toLower := by
  obtain ⟨rfl, hdigits, rfl⟩ := h
  exact write_value hdigits hwidth

theorem isNumeral_write {width : Nat} (h : n < 16 ^ width) : IsNumeral width (write width n) n :=
  isNumeral_iff.mpr ⟨length_write width n, by rw [readNat_write, Nat.mod_eq_of_lt h]⟩

end Hex

/-! ### Decimal numerals -/

namespace Integer

/-- One or more decimal digits stand for a number. -/
structure IsNumeral (text : List Char) (n : Nat) : Prop where
  ne_nil : text ≠ []
  digits : ∀ c ∈ text, c.isDigit = true
  value : Nat.ofDigitChars 10 text 0 = n

/-- A numeral behind a plus sign or none. -/
def IsUnsigned (text : List Char) (n : Nat) : Prop :=
  IsNumeral text n ∨ ∃ digits, text = '+' :: digits ∧ IsNumeral digits n

/-- A numeral behind a sign or none. -/
def IsInteger (text : List Char) (z : Int) : Prop :=
  (∃ n : Nat, IsUnsigned text n ∧ z = n) ∨ ∃ digits, ∃ n : Nat, text = '-' :: digits ∧ IsNumeral digits n ∧ z = -n

theorem isDigit_of_readDigits {start : Nat} (h : readDigits start text = some n) :
    ∀ c ∈ text, c.isDigit = true := by
  induction text generalizing start with
  | nil => exact fun c hc => absurd hc List.not_mem_nil
  | cons c rest ih =>
    unfold readDigits at h
    split at h
    · next hdigit => exact List.forall_mem_cons.mpr ⟨hdigit, ih h⟩
    · cases h

/-- **Decimal digits are read by their places, and nothing else is read.** -/
theorem readNat_eq_some_iff : readNat text = some n ↔ IsNumeral text n := by
  cases text with
  | nil =>
    constructor
    · intro h
      cases h
    · exact fun h => absurd rfl h.ne_nil
  | cons c rest =>
    constructor
    · intro h
      have hdigits := isDigit_of_readDigits h
      exact ⟨List.cons_ne_nil _ _, hdigits, Option.some.inj ((readDigits_eq hdigits 0).symm.trans h)⟩
    · rintro ⟨-, hdigits, rfl⟩
      exact readDigits_eq hdigits 0

theorem all_zero_of_ofDigitChars (hdigits : ∀ c ∈ text, c.isDigit = true)
    (h : Nat.ofDigitChars 10 text 0 = 0) : ∀ c ∈ text, c = '0' := by
  induction text using List.reverseRecOn with
  | nil => exact fun c hc => absurd hc List.not_mem_nil
  | append_singleton text c ih =>
    rw [List.forall_mem_append, List.forall_mem_singleton] at hdigits ⊢
    rw [Nat.ofDigitChars_append, Nat.ofDigitChars_cons, Nat.ofDigitChars_nil] at h
    have hlow : '0'.toNat ≤ c.toNat := (Char.isDigit_iff_toNat.mp hdigits.2).1
    exact ⟨ih hdigits.1 (by omega), Char.toNat_inj.mp (by omega)⟩

theorem IsNumeral.eq_zero_iff (h : IsNumeral text n) : n = 0 ↔ text = List.replicate text.length '0' := by
  obtain ⟨-, hdigits, rfl⟩ := h
  constructor
  · exact fun hzero => List.eq_replicate_iff.mpr ⟨rfl, all_zero_of_ofDigitChars hdigits hzero⟩
  · intro htext
    rw [htext, Nat.ofDigitChars_replicate_zero, Nat.mul_zero]

theorem IsNumeral.head_ne {sign : Char} {rest : List Char} (h : IsNumeral (sign :: rest) n) :
    sign ≠ '+' ∧ sign ≠ '-' := by
  have hdigit := h.digits sign List.mem_cons_self
  constructor
  · rintro rfl
    cases hdigit
  · rintro rfl
    cases hdigit

theorem IsUnsigned.ne_nil (h : IsUnsigned text n) : text ≠ [] := by
  rcases h with h | ⟨digits, rfl, -⟩
  · exact h.ne_nil
  · exact List.cons_ne_nil _ _

theorem readUnsigned_eq_some_iff : readUnsigned text = some n ↔ IsUnsigned text n := by
  unfold readUnsigned IsUnsigned
  split
  · next digits =>
    rw [readNat_eq_some_iff]
    constructor
    · exact fun h => .inr ⟨digits, rfl, h⟩
    · rintro (h | ⟨_, heq, h⟩)
      · exact absurd rfl h.head_ne.1
      · cases heq
        exact h
  · next hplus =>
    rw [readNat_eq_some_iff]
    exact ⟨.inl, fun h => h.resolve_right fun ⟨digits, heq, _⟩ => hplus digits heq⟩

theorem readBelow_eq_some_iff {bound : Nat} :
    readBelow bound text = some n ↔ IsUnsigned text n ∧ n < bound := by
  unfold readBelow
  rw [Option.filter_eq_some_iff, readUnsigned_eq_some_iff, decide_eq_true_eq]

theorem readInt_of_not_minus (h : ∀ digits, text ≠ '-' :: digits) :
    readInt text = (readUnsigned text).map Int.ofNat := by
  unfold readInt readUnsigned
  split
  · rfl
  · next digits => exact absurd rfl (h digits)
  · next hplus _ =>
    split
    · exact absurd rfl (hplus _)
    · rfl

/-- **A number with a sign is read as such, and nothing else is read.** -/
theorem readInt_eq_some_iff {z : Int} : readInt text = some z ↔ IsInteger text z := by
  unfold IsInteger
  by_cases hminus : ∃ digits, text = '-' :: digits
  · obtain ⟨digits, rfl⟩ := hminus
    have hunsigned : ∀ n, ¬ IsUnsigned ('-' :: digits) n := by
      rintro n (h | ⟨_, heq, -⟩)
      · exact h.head_ne.2 rfl
      · cases heq
    show (readNat digits).map (fun n => -Int.ofNat n) = some z ↔ _
    rw [Option.map_eq_some_iff]
    constructor
    · rintro ⟨n, hn, rfl⟩
      exact .inr ⟨digits, n, rfl, readNat_eq_some_iff.mp hn, rfl⟩
    · rintro (⟨n, hn, -⟩ | ⟨_, n, heq, hn, rfl⟩)
      · exact absurd hn (hunsigned n)
      · cases heq
        exact ⟨n, readNat_eq_some_iff.mpr hn, rfl⟩
  · rw [readInt_of_not_minus fun digits heq => hminus ⟨digits, heq⟩, Option.map_eq_some_iff]
    constructor
    · rintro ⟨n, hn, rfl⟩
      exact .inl ⟨n, readUnsigned_eq_some_iff.mp hn, rfl⟩
    · rintro (⟨n, hn, rfl⟩ | ⟨digits, n, heq, -, -⟩)
      · exact ⟨n, readUnsigned_eq_some_iff.mpr hn, rfl⟩
      · exact absurd ⟨digits, heq⟩ hminus

end Integer

end Tracing.Text
