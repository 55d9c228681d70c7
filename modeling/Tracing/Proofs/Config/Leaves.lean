import Tracing.Config.Variable
import Tracing.Proofs.Json.RoundTrip
import Tracing.Proofs.Text.Numerals

/-!
# Quoted text, keys and numbers

The parts of a variable's value that hold no further values, each with the texts that spell it, and the reader of each
part, which takes just these texts:

* `readQuoted_eq_some_iff`: quoted text up to the quote that ends it, with its escapes resolved;
* `exists_key_of_readKey`, `Key.readKey_append`: keys up to what cannot go on with them;
* `readPlain_of_number`, `readPlain_of_not_number`: numbers with a point and whole numbers of 64 bits, and all other
  text.
-/

namespace Tracing.Variable

open Text

variable {text rest inner s : List Char} {c : Char}

/-! ### Quoted text -/

/-- What stands between quotes, and the text that it stands for: characters for themselves, and escapes by a letter or
by the digits of a code. -/
inductive Quoted : List Char → List Char → Prop
  | nil : Quoted [] []
  | plain {c : Char} {inner s : List Char} (hquote : c ≠ '"') (hescape : c ≠ '\\') (hc : isQuotable c = true)
      (h : Quoted inner s) : Quoted (c :: inner) (c :: s)
  | letter {c d : Char} {inner s : List Char} (hc : letterEscape c = some d) (h : Quoted inner s) :
      Quoted ('\\' :: c :: inner) (d :: s)
  | code {mark d : Char} {width : Nat} {digits inner s : List Char} (hmark : (mark, width) ∈ [('u', 4), ('U', 8)])
      (hdigits : readCode width digits = some d) (h : Quoted inner s) :
      Quoted ('\\' :: mark :: (digits ++ inner)) (d :: s)

theorem digits_of_readCode {width : Nat} {digits : List Char} (h : readCode width digits = some c) :
    digits.length = width ∧ ∀ d ∈ digits, Hex.isDigit d = true := by
  unfold readCode at h
  split at h
  · next hlength =>
    obtain ⟨n, hn, -⟩ := Option.bind_eq_some_iff.mp h
    exact ⟨hlength, Hex.isDigit_of_readNat hn⟩
  · cases h

theorem takeQuoted_cons (hquote : c ≠ '"') (hescape : c ≠ '\\') (text : List Char) :
    takeQuoted (c :: text) = (takeQuoted text).map fun r => (c :: r.1, r.2) :=
  takeQuoted.eq_4 c text hquote fun _ _ h _ => hescape h

theorem takeQuoted_digits {digits : List Char} (h : ∀ d ∈ digits, Hex.isDigit d = true) (text : List Char) :
    takeQuoted (digits ++ text) = (takeQuoted text).map fun r => (digits ++ r.1, r.2) := by
  induction digits with
  | nil => exact (congrFun Option.map_id _).symm
  | cons d digits ih =>
    obtain ⟨hd, hdigits⟩ := List.forall_mem_cons.mp h
    have hquote : d ≠ '"' := by rintro rfl; cases hd
    have hescape : d ≠ '\\' := by rintro rfl; cases hd
    rw [List.cons_append, takeQuoted_cons hquote hescape, ih hdigits, Option.map_map]
    rfl

theorem eq_append_of_takeQuoted (h : takeQuoted text = some (inner, rest)) : text = inner ++ '"' :: rest := by
  fun_induction takeQuoted text generalizing inner with
  | case1 => cases h
  | case2 after =>
    cases h
    rfl
  | case3 c after ih =>
    obtain ⟨⟨inner, rest⟩, hafter, hpair⟩ := Option.map_eq_some_iff.mp h
    cases hpair
    rw [ih hafter]
    rfl
  | case4 c after _ _ ih =>
    obtain ⟨⟨inner, rest⟩, hafter, hpair⟩ := Option.map_eq_some_iff.mp h
    cases hpair
    rw [ih hafter]
    rfl

theorem Quoted.takeQuoted_append (h : Quoted inner s) (rest : List Char) :
    takeQuoted (inner ++ '"' :: rest) = some (inner, rest) := by
  induction h with
  | nil => rfl
  | plain hquote hescape _ _ ih =>
    rw [List.cons_append, takeQuoted_cons hquote hescape, ih]
    rfl
  | letter _ _ ih =>
    rw [List.cons_append, List.cons_append, takeQuoted, ih]
    rfl
  | code _ hdigits _ ih =>
    rw [List.cons_append, List.cons_append, List.append_assoc, takeQuoted,
      takeQuoted_digits (digits_of_readCode hdigits).2, ih]
    rfl

theorem Quoted.unescape_eq (h : Quoted inner s) {fuel : Nat} (hfuel : inner.length ≤ fuel) :
    unescape fuel inner = some s := by
  induction h generalizing fuel with
  | nil => exact unescape.eq_1 fuel
  | @plain c _ _ _ hescape hc _ ih =>
    obtain ⟨fuel, rfl⟩ := Nat.exists_eq_add_of_le' (Nat.one_le_of_lt hfuel)
    rw [unescape.eq_4 _ _ _ fun _ _ h _ => hescape h, if_pos ⟨hescape, hc⟩, ih (Nat.le_of_succ_le_succ hfuel)]
    rfl
  | @letter c _ _ _ hc _ ih =>
    obtain ⟨fuel, rfl⟩ := Nat.exists_eq_add_of_le' (Nat.one_le_of_lt hfuel)
    have hmark : ¬(c = 'u' ∨ c = 'U') := by
      rintro (rfl | rfl)
      all_goals cases hc
    rw [unescape, if_neg hmark, hc, ih (by simp at hfuel; omega)]
    rfl
  | @code mark _ width digits inner _ hmark hdigits _ ih =>
    obtain ⟨fuel, rfl⟩ := Nat.exists_eq_add_of_le' (Nat.one_le_of_lt hfuel)
    have hlength := (digits_of_readCode hdigits).1
    have hwidth : (mark = 'u' ∨ mark = 'U') ∧ (if mark = 'u' then 4 else 8) = width := by
      simp only [List.mem_cons, List.not_mem_nil, or_false, Prod.mk.injEq] at hmark
      rcases hmark with ⟨rfl, rfl⟩ | ⟨rfl, rfl⟩ <;> decide
    rw [unescape, if_pos hwidth.1, hwidth.2]
    simp only [List.take_left' hlength, List.drop_left' hlength, hdigits]
    rw [ih (by simp at hfuel; omega)]
    rfl

theorem map_append_eq_some (front : List Char) {taken : Option (List Char × List Char)} :
    taken.map (fun r => (front ++ r.1, r.2)) = some (front ++ inner, rest) ↔ taken = some (inner, rest) := by
  cases taken with
  | none => simp
  | some r => simp [Prod.ext_iff]

/-- The escapes that are resolved are those of the grammar, by induction on the reader. -/
theorem quoted_of_unescape {fuel : Nat} (h : unescape fuel inner = some s)
    (hinner : takeQuoted (inner ++ '"' :: rest) = some (inner, rest)) : Quoted inner s := by
  fun_induction unescape fuel inner generalizing s with
  | case1 =>
    cases h
    exact .nil
  | case2 => cases h
  | case3 fuel mark after hmark width =>
    rename_i ih
    obtain ⟨d, hdigits, h⟩ := Option.bind_eq_some_iff.mp h
    obtain ⟨tail, htail, h⟩ := Option.bind_eq_some_iff.mp h
    cases h
    have hafter : takeQuoted (after ++ '"' :: rest) = some (after, rest) :=
      (map_append_eq_some ['\\', mark]).mp hinner
    -- no digit ends the quotation, so what follows the digits is taken as before
    have hsplit : after.take width ++ after.drop width = after := List.take_append_drop width after
    rw [← hsplit, List.append_assoc, takeQuoted_digits (digits_of_readCode hdigits).2, map_append_eq_some] at hafter
    have hmark : (mark, width) ∈ [('u', 4), ('U', 8)] := by
      rcases hmark with rfl | rfl
      · exact List.mem_cons_self
      · exact List.mem_cons_of_mem _ List.mem_cons_self
    rw [← hsplit]
    exact .code hmark hdigits (ih htail hafter)
  | case4 fuel c after hmark ih =>
    obtain ⟨d, hd, h⟩ := Option.bind_eq_some_iff.mp h
    obtain ⟨tail, htail, h⟩ := Option.bind_eq_some_iff.mp h
    cases h
    exact .letter hd (ih htail ((map_append_eq_some ['\\', c]).mp hinner))
  | case5 fuel c after _ hc ih =>
    obtain ⟨tail, htail, h⟩ := Option.map_eq_some_iff.mp h
    cases h
    have hquote : c ≠ '"' := by
      rintro rfl
      cases hinner
    rw [List.cons_append, takeQuoted_cons hquote hc.1] at hinner
    exact .plain hquote hc.1 hc.2 (ih htail ((map_append_eq_some [c]).mp hinner))
  | case6 => cases h

/-- **Quoted text is read up to the quote that ends it**, and its escapes are resolved. -/
theorem readQuoted_eq_some_iff : readQuoted text = some (s, rest) ↔
    ∃ inner, Quoted inner s ∧ text = inner ++ '"' :: rest := by
  constructor
  · intro h
    obtain ⟨⟨inner, left⟩, hinner, h⟩ := Option.bind_eq_some_iff.mp h
    obtain ⟨value, hvalue, h⟩ := Option.bind_eq_some_iff.mp h
    cases h
    have htext := eq_append_of_takeQuoted hinner
    rw [htext] at hinner
    exact ⟨inner, quoted_of_unescape hvalue hinner, htext⟩
  · rintro ⟨inner, hinner, rfl⟩
    unfold readQuoted
    rw [hinner.takeQuoted_append]
    show (unescape inner.length inner).bind _ = _
    rw [hinner.unescape_eq (Nat.le_refl _)]
    rfl

theorem Quoted.length_le (h : Quoted inner s) : s.length ≤ inner.length := by
  induction h with
  | nil => exact Nat.le_refl _
  | plain | letter | code => simp; omega

/-! ### Keys -/

/-- A key, and the text that it stands for. -/
inductive Key : List Char → List Char → Prop
  | quoted {inner s : List Char} (h : Quoted inner s) : Key ('"' :: inner ++ ['"']) s
  | plain {text : List Char} (hne : text ≠ []) (h : ∀ c ∈ text, isKeyChar c = true) : Key text text

theorem exists_key_of_readKey (h : readKey text = some (s, rest)) : ∃ key, text = key ++ rest ∧ Key key s := by
  unfold readKey at h
  simp only at h
  split at h
  · obtain ⟨inner, hinner, rfl⟩ := readQuoted_eq_some_iff.mp h
    exact ⟨_, by simp, .quoted hinner⟩
  · split at h
    · cases h
    · next hne =>
      cases h
      exact ⟨_, List.takeWhile_append_dropWhile.symm, .plain (mt List.isEmpty_iff.mpr hne)
        fun c hc => List.mem_takeWhile_imp hc⟩

theorem Key.readKey_append {key : List Char} (h : Key key s) (hrest : ∀ c ∈ rest.head?, isKeyChar c = false) :
    readKey (key ++ rest) = some (s, rest) := by
  cases h with
  | quoted hinner =>
    refine readQuoted_eq_some_iff.mpr ⟨_, hinner, ?_⟩
    simp
  | plain hne hkey =>
    obtain ⟨hkeyed, hleft⟩ := span_append hkey hrest
    unfold readKey
    split
    · next after heq =>
      obtain ⟨c, key, rfl⟩ := List.exists_cons_of_ne_nil hne
      cases heq
      exact absurd (hkey '"' List.mem_cons_self) (by decide)
    · rw [hkeyed, hleft]
      exact if_neg (mt List.isEmpty_iff.mp hne)

/-! ### Numbers -/

/-- A text that is a number: one with a point, or a whole one of 64 bits. -/
inductive Number (text : List Char) : Json → Prop
  | float {x : Float} (hpoint : '.' ∈ text) (h : Decimal.readFloat text = some x) : Number text (.float x)
  | int {z : Int} (h : Integer.IsInteger text z) (hz : Json.FitsWord z) : Number text (.int z)

theorem point_not_mem_of_isInteger {z : Int} (h : Integer.IsInteger text z) : '.' ∉ text := by
  have hnumeral : ∀ {digits : List Char} {n : Nat}, Integer.IsNumeral digits n → '.' ∉ digits :=
    fun h hmem => absurd (h.digits _ hmem) (by decide)
  rcases h with ⟨n, h | ⟨digits, rfl, h⟩, -⟩ | ⟨digits, n, rfl, h, -⟩
  · exact hnumeral h
  · simpa using hnumeral h
  · simpa using hnumeral h

theorem readPlain_of_number {v : Json} (h : Number text v) : readPlain text = v := by
  unfold readPlain
  cases h with
  | float hpoint h => simp [hpoint, h]
  | @int z h hz =>
    have hpoint : text.contains '.' = false := by simpa using point_not_mem_of_isInteger h
    have hread := Integer.readInt_eq_some_iff.mpr h
    simp only [hpoint, Bool.false_eq_true, if_false]
    cases hbelow : Integer.readBelow (1 <<< 64) text with
    | some n =>
      have hn := Integer.readInt_eq_some_iff.mpr (.inl ⟨n, (Integer.readBelow_eq_some_iff.mp hbelow).1, rfl⟩)
      rw [hread] at hn
      cases hn
      rfl
    | none =>
      -- a larger number would have no sign of its own, and be read as such
      have hhigh : z < 2 ^ 63 := by
        by_contra hlarge
        obtain ⟨n, hn, rfl⟩ | ⟨_, n, -, -, rfl⟩ := h
        · have hz := hz.2
          rw [Integer.readBelow_eq_some_iff.mpr ⟨hn, by omega⟩] at hbelow
          cases hbelow
        · omega
      have hword : (-Int.ofNat (1 <<< 63) ≤ z && z < Int.ofNat (1 <<< 63)) = true := by
        have hlow := hz.1
        rw [Bool.and_eq_true, decide_eq_true_eq, decide_eq_true_eq]
        exact ⟨by simpa using hlow, by simpa using hhigh⟩
      simp only [hread, Option.filter_some, hword, if_true]

theorem readPlain_of_not_number (h : ∀ v, ¬ Number text v) : readPlain text = .str (String.ofList text) := by
  unfold readPlain
  simp only
  split
  · next v hv =>
    split at hv
    · next hpoint =>
      obtain ⟨x, hx, rfl⟩ := Option.map_eq_some_iff.mp hv
      exact absurd (.float (by simpa using hpoint) hx) (h _)
    · cases hv
  · split
    · next n hn =>
      obtain ⟨hunsigned, hlt⟩ := Integer.readBelow_eq_some_iff.mp hn
      exact absurd (.int (.inl ⟨n, hunsigned, rfl⟩) ⟨by omega, by omega⟩) (h _)
    · split
      · next z hz =>
        obtain ⟨hread, hfits⟩ := Option.filter_eq_some_iff.mp hz
        simp at hfits
        exact absurd (.int (Integer.readInt_eq_some_iff.mp hread) ⟨by omega, by omega⟩) (h _)
      · rfl

end Tracing.Variable
