import Mathlib
import Tracing.Text.Blank
import Tracing.Text.Hex
import Tracing.Text.Integer
import Tracing.Text.Split

/-!
# Reading back what was written

What trimming and splitting leave of a text, and the numbers that come back:

* `trim_trim`, `trim_eq_nil_iff`: a trimmed text has no blanks at its ends, and nothing is left of blanks;
* `trim_append_blanks`, `span_append`: blanks behind a text, and the front up to where a predicate fails;
* `splitOn_free`, `splitOnce_eq_some`: pieces hold no separator, and the first separator is where it was;
* `splitOn_joinWith_flatMap`, `mem_splitOn`: what is split again of joined pieces, and where a piece stood;
* `readBelow_writeNat`, `Hex.readNat_write`: a number comes back;
* `bytes_joinWith`: the size of joined pieces, which bounds a header made of them.
-/

namespace Tracing.Text

variable {text : List Char}

/-! ### Trimming -/

theorem dropEndWhile_isPrefixOf_self (p : Char → Bool) (text : List Char) : dropEndWhile p text <+: text := by
  have h : (text.reverse.dropWhile p).reverse <+: text.reverse.reverse :=
    List.reverse_prefix.mpr (List.dropWhile_suffix p)
  rwa [List.reverse_reverse] at h

theorem trim_sublist (text : List Char) : (trim text).Sublist text :=
  (dropEndWhile_isPrefixOf_self isBlank _).sublist.trans (List.dropWhile_sublist isBlank)

theorem head?_dropWhile {p : Char → Bool} {c : Char} (h : (text.dropWhile p).head? = some c) :
    p c = false := by
  have hnot := List.head?_dropWhile_not p text
  rw [h] at hnot
  exact hnot

theorem isBlank_head?_trim {c : Char} (h : (trim text).head? = some c) : isBlank c = false := by
  obtain ⟨rest, hrest⟩ := dropEndWhile_isPrefixOf_self isBlank (text.dropWhile isBlank)
  have hhead : (text.dropWhile isBlank).head? = some c := by
    unfold trim at h
    rw [← hrest, List.head?_append, h]
    rfl
  exact head?_dropWhile hhead

theorem isBlank_getLast?_trim {c : Char} (h : (trim text).getLast? = some c) : isBlank c = false := by
  unfold trim dropEndWhile at h
  rw [List.getLast?_reverse] at h
  exact head?_dropWhile h

theorem trim_trim (text : List Char) : trim (trim text) = trim text :=
  trim_eq_self (fun _ h => isBlank_head?_trim h) fun _ h => isBlank_getLast?_trim h

theorem dropEndWhile_append_cons {p : Char → Bool} {c : Char} (h : p c = false) (text rest : List Char) :
    dropEndWhile p (text ++ c :: rest) = text ++ c :: dropEndWhile p rest := by
  unfold dropEndWhile
  rw [List.reverse_append, List.reverse_cons, List.append_assoc, List.dropWhile_append]
  split
  · next hnil =>
    rw [List.isEmpty_iff.mp hnil]
    simp [h]
  · simp

theorem dropEndWhile_append_of_pos {p : Char → Bool} {after : List Char} (h : ∀ c ∈ after, p c = true)
    (text : List Char) : dropEndWhile p (text ++ after) = dropEndWhile p text := by
  unfold dropEndWhile
  rw [List.reverse_append, List.dropWhile_append_of_pos fun c hc => h c (List.mem_reverse.mp hc)]

theorem trim_append_blanks {after : List Char} (h : ∀ c ∈ after, isBlank c = true) (text : List Char) :
    trim (text ++ after) = trim text := by
  unfold trim
  rw [List.dropWhile_append]
  split
  · next hnil => rw [List.isEmpty_iff.mp hnil, List.dropWhile_eq_nil_iff.mpr h]
  · exact dropEndWhile_append_of_pos h _

theorem trim_blanks_append {before : List Char} (h : ∀ c ∈ before, isBlank c = true) (text : List Char) :
    trim (before ++ text) = trim text := by
  unfold trim
  rw [List.dropWhile_append_of_pos h]

theorem head?_trim {c : Char} (h : isBlank c = false) (text : List Char) :
    (trim (c :: text)).head? = some c := by
  unfold trim
  rw [List.dropWhile_cons_of_neg (by simp [h])]
  exact congrArg List.head? (dropEndWhile_append_cons h [] text)

theorem trim_eq_nil_iff : trim text = [] ↔ ∀ c ∈ text, isBlank c = true := by
  induction text with
  | nil => simp [trim, dropEndWhile]
  | cons c rest ih =>
    by_cases hc : isBlank c = true
    · have hrest : trim (c :: rest) = trim rest :=
        @trim_blanks_append [c] (List.forall_mem_singleton.mpr hc) rest
      rw [hrest, ih, List.forall_mem_cons]
      exact (and_iff_right hc).symm
    · have hhead := head?_trim (Bool.eq_false_of_not_eq_true hc) rest
      constructor
      · intro hnil
        rw [hnil] at hhead
        cases hhead
      · exact fun h => absurd (h c List.mem_cons_self) hc

theorem isBlank_of_visible {c : Char} (hlow : 0x21 ≤ c.toNat) (hhigh : c.toNat ≤ 0x7e) :
    isBlank c = false := by
  simp only [isBlank, inRanges, blankRanges, List.any_cons, List.any_nil, Bool.or_eq_false_iff,
    Bool.and_eq_false_iff, decide_eq_false_iff_not, and_true]
  omega

theorem trim_enclosed {c : Char} (h : isBlank c = false) (text : List Char) :
    trim (c :: text ++ [c]) = c :: text ++ [c] := by
  refine trim_eq_self ?_ ?_
  · rintro _ ⟨⟩
    exact h
  · intro d hd
    rw [List.getLast?_append, List.getLast?_singleton] at hd
    obtain rfl : c = d := Option.some.inj hd
    exact h

theorem trim_of_visible (h : ∀ c ∈ text, 0x21 ≤ c.toNat ∧ c.toNat ≤ 0x7e) : trim text = text := by
  have visible : ∀ c ∈ text, isBlank c = false := fun c hc => isBlank_of_visible (h c hc).1 (h c hc).2
  exact trim_eq_self (fun c hc => visible c (List.mem_of_head? hc))
    fun c hc => visible c (List.mem_of_getLast? hc)

/-- Visible characters and no comma: what stands alone in a header keeps its text. -/
def isPlain (text : List Char) : Bool := text.all fun c => 0x21 ≤ c.toNat && c.toNat ≤ 0x7e && c != ','

theorem isPlain_iff (text : List Char) :
    isPlain text = true ↔ ∀ c ∈ text, 0x21 ≤ c.toNat ∧ c.toNat ≤ 0x7e ∧ c ≠ ',' := by
  simp [isPlain, and_assoc]

/-! ### Splitting -/

theorem span_append {p : Char → Bool} {front rest : List Char} (hfront : ∀ c ∈ front, p c = true)
    (hrest : ∀ c ∈ rest.head?, p c = false) :
    (front ++ rest).takeWhile p = front ∧ (front ++ rest).dropWhile p = rest := by
  rw [List.takeWhile_append_of_pos hfront, List.dropWhile_append_of_pos hfront]
  cases rest with
  | nil => simp
  | cons c rest => simp [hrest c rfl]

theorem splitOn_free {sep : Char} {piece : List Char} (h : piece ∈ splitOn sep text) : sep ∉ piece := by
  induction text generalizing piece with
  | nil =>
    rw [splitOn, List.mem_singleton] at h
    simp [h]
  | cons c rest ih =>
    unfold splitOn at h
    split at h
    · rcases List.mem_cons.mp h with rfl | h
      · simp
      · exact ih h
    · next hne =>
      split at h
      · rw [List.mem_singleton] at h
        simp [h, Ne.symm hne]
      · next first pieces heq =>
        rcases List.mem_cons.mp h with rfl | h
        · have hfirst : sep ∉ first := ih (by rw [heq]; exact List.mem_cons_self)
          simp [hfirst, Ne.symm hne]
        · exact ih (by rw [heq]; exact List.mem_cons_of_mem _ h)

theorem splitOnce_eq_some {sep : Char} {before after : List Char}
    (h : splitOnce sep text = some (before, after)) : text = before ++ sep :: after ∧ sep ∉ before := by
  induction text generalizing before with
  | nil => cases h
  | cons c rest ih =>
    unfold splitOnce at h
    split at h
    · next heq =>
      cases h
      exact ⟨by rw [heq]; rfl, by simp⟩
    · next hne =>
      rw [Option.map_eq_some_iff] at h
      obtain ⟨⟨before', after'⟩, hrest, hpair⟩ := h
      cases hpair
      obtain ⟨htext, hfree⟩ := ih hrest
      exact ⟨by rw [htext]; rfl, by simp [hfree, Ne.symm hne]⟩

theorem dropLead?_eq_some_iff {lead rest : List Char} : dropLead? lead text = some rest ↔ text = lead ++ rest := by
  constructor
  · exact eq_append_of_dropLead?
  · rintro rfl
    exact dropLead?_append lead rest

theorem not_prefix_of_dropLead? {word front : List Char} (h : dropLead? word text = none)
    (hfront : front <+: text) : ¬ word <+: front := by
  intro hword
  obtain ⟨left, rfl⟩ := hword.trans hfront
  rw [dropLead?_append] at h
  cases h

/-- A word that starts a text stands in its front if what follows the front does not go on with the word. -/
theorem prefix_of_prefix_append {word front rest : List Char} (h : word <+: front ++ rest)
    (hrest : ∀ c ∈ rest.head?, c ∉ word) : word <+: front := by
  induction word generalizing front with
  | nil => exact List.nil_prefix
  | cons w word ih =>
    cases front with
    | nil =>
      obtain ⟨left, hleft⟩ := h
      rw [List.nil_append] at hleft
      exact absurd List.mem_cons_self (hrest w (by rw [← hleft]; rfl))
    | cons c front =>
      obtain ⟨hc, h⟩ := List.cons_prefix_cons.mp h
      exact List.cons_prefix_cons.mpr ⟨hc, ih h fun d hd hmem => hrest d hd (List.mem_cons_of_mem _ hmem)⟩

theorem joinWith_cons (sep piece : List Char) {pieces : List (List Char)} (h : pieces ≠ []) :
    joinWith sep (piece :: pieces) = piece ++ sep ++ joinWith sep pieces := by
  obtain ⟨next, rest, rfl⟩ := List.exists_cons_of_ne_nil h
  rfl

theorem joinWith_append (sep : List Char) {pieces later : List (List Char)} (h : pieces ≠ [])
    (h' : later ≠ []) :
    joinWith sep (pieces ++ later) = joinWith sep pieces ++ sep ++ joinWith sep later := by
  induction pieces with
  | nil => exact absurd rfl h
  | cons piece rest ih =>
    by_cases hrest : rest = []
    · rw [hrest]
      exact joinWith_cons sep piece h'
    · have hne : rest ++ later ≠ [] := List.append_ne_nil_of_left_ne_nil hrest later
      rw [List.cons_append, joinWith_cons sep piece hne, ih hrest, joinWith_cons sep piece hrest]
      simp only [List.append_assoc]

theorem mem_joinWith {sep : List Char} {pieces : List (List Char)} {c : Char}
    (h : c ∈ joinWith sep pieces) : c ∈ sep ∨ ∃ piece ∈ pieces, c ∈ piece := by
  induction pieces with
  | nil => cases h
  | cons piece rest ih =>
    by_cases hrest : rest = []
    · rw [hrest] at h
      exact .inr ⟨piece, List.mem_cons_self, h⟩
    · rw [joinWith_cons sep piece hrest, List.mem_append, List.mem_append] at h
      rcases h with (h | h) | h
      · exact .inr ⟨piece, List.mem_cons_self, h⟩
      · exact .inl h
      · rcases ih h with hsep | ⟨later, hlater, hc⟩
        · exact .inl hsep
        · exact .inr ⟨later, List.mem_cons_of_mem _ hlater, hc⟩

theorem getLast?_joinWith (sep : List Char) (front : List (List Char)) {last : List Char} (h : last ≠ []) :
    (joinWith sep (front ++ [last])).getLast? = last.getLast? := by
  by_cases hfront : front = []
  · rw [hfront]
    rfl
  · rw [joinWith_append sep hfront (List.cons_ne_nil _ _)]
    exact List.getLast?_append_of_ne_nil _ h

theorem splitOn_append_cons (sep : Char) (text rest : List Char) :
    splitOn sep (text ++ sep :: rest) = splitOn sep text ++ splitOn sep rest := by
  induction text with
  | nil => simp [splitOn]
  | cons c text ih =>
    simp only [List.cons_append, splitOn]
    split
    · rw [ih]
      rfl
    · obtain ⟨piece, pieces, heq⟩ := List.exists_cons_of_ne_nil (splitOn_ne_nil sep text)
      rw [ih, heq]
      rfl

/-- Splitting joined pieces also splits the pieces. -/
theorem splitOn_joinWith_flatMap {sep : Char} {pieces : List (List Char)} (h : pieces ≠ []) :
    splitOn sep (joinWith [sep] pieces) = pieces.flatMap (splitOn sep) := by
  induction pieces with
  | nil => exact absurd rfl h
  | cons piece rest ih =>
    by_cases hrest : rest = []
    · rw [hrest]
      simp [joinWith]
    · rw [joinWith_cons [sep] piece hrest, List.append_assoc, List.singleton_append,
        splitOn_append_cons, ih hrest, List.flatMap_cons]

/-- A piece stands at the front of the text or behind a separator, and ends with the text or at the next
separator. -/
theorem mem_splitOn {sep : Char} {piece : List Char} (h : piece ∈ splitOn sep text) :
    ∃ before after, text = before ++ piece ++ after ∧ (before = [] ∨ before.getLast? = some sep) ∧
      (after = [] ∨ after.head? = some sep) := by
  obtain ⟨front, back, hsplit⟩ := List.append_of_mem h
  have htext := joinWith_splitOn sep text
  have hback : ∃ after, joinWith [sep] (piece :: back) = piece ++ after ∧
      (after = [] ∨ after.head? = some sep) := by
    cases back with
    | nil => exact ⟨[], by simp [joinWith], .inl rfl⟩
    | cons next back =>
      exact ⟨sep :: joinWith [sep] (next :: back), by simp [joinWith], .inr rfl⟩
  obtain ⟨after, hjoin, hafter⟩ := hback
  rw [hsplit] at htext
  by_cases hfront : front = []
  · refine ⟨[], after, ?_, .inl rfl, hafter⟩
    rw [hfront, List.nil_append, hjoin] at htext
    exact htext.symm
  · refine ⟨joinWith [sep] front ++ [sep], after, ?_, .inr (by simp), hafter⟩
    rw [joinWith_append [sep] hfront (List.cons_ne_nil _ _), hjoin] at htext
    simpa using htext.symm

theorem mem_of_mem_splitOn {sep : Char} {piece : List Char} (h : piece ∈ splitOn sep text) {c : Char}
    (hc : c ∈ piece) : c ∈ text ∧ c ≠ sep := by
  obtain ⟨before, after, htext, -, -⟩ := mem_splitOn h
  refine ⟨by simp [htext, hc], ?_⟩
  rintro rfl
  exact splitOn_free h hc

/-! ### Numbers -/

namespace Integer

theorem readDigits_eq {text : List Char} (h : ∀ c ∈ text, c.isDigit = true) (n : Nat) :
    readDigits n text = some (Nat.ofDigitChars 10 text n) := by
  induction text generalizing n with
  | nil => simp [readDigits]
  | cons c rest ih =>
    rw [readDigits, if_pos (h c List.mem_cons_self), ih fun d hd => h d (List.mem_cons_of_mem _ hd),
      Nat.ofDigitChars_cons]
    rfl

theorem isDigit_of_mem_writeNat {n : Nat} {c : Char} (h : c ∈ writeNat n) : c.isDigit = true :=
  Nat.isDigit_of_mem_toDigits (by decide) (by decide) h

theorem isPlain_writeNat (n : Nat) : isPlain (writeNat n) = true := by
  refine (isPlain_iff _).mpr fun c hc => ?_
  obtain ⟨hlow, hhigh⟩ := Char.isDigit_iff_toNat.mp (isDigit_of_mem_writeNat hc)
  have h0 : '0'.toNat = 48 := rfl
  have h9 : '9'.toNat = 57 := rfl
  refine ⟨by omega, by omega, ?_⟩
  rintro rfl
  exact absurd hlow (by decide)

theorem readNat_writeNat (n : Nat) : readNat (writeNat n) = some n := by
  have hdigits : readDigits 0 (writeNat n) = some n := by
    rw [readDigits_eq fun _ h => isDigit_of_mem_writeNat h]
    exact congrArg some Nat.ofDigitChars_ten_toDigits
  unfold readNat
  split
  · next h => exact absurd h Nat.toDigits_ne_nil
  · exact hdigits

theorem readBelow_writeNat {n bound : Nat} (h : n < bound) : readBelow bound (writeNat n) = some n := by
  have hunsigned : readUnsigned (writeNat n) = some n := by
    unfold readUnsigned
    split
    · next rest heq =>
      have hplus : '+'.isDigit = true := isDigit_of_mem_writeNat (n := n) (by rw [heq]; simp)
      cases hplus
    · exact readNat_writeNat n
  unfold readBelow
  rw [hunsigned]
  simp [h]

theorem writeNat_all_zero {n : Nat} (h : (writeNat n).all (· == '0') = true) : n = 0 := by
  have hzeros : writeNat n = List.replicate (writeNat n).length '0' := by
    refine List.eq_replicate_iff.mpr ⟨rfl, fun c hc => ?_⟩
    simpa using List.all_eq_true.mp h c hc
  calc n = Nat.ofDigitChars 10 (writeNat n) 0 := Nat.ofDigitChars_ten_toDigits.symm
    _ = 0 := by rw [hzeros, Nat.ofDigitChars_replicate_zero, Nat.mul_zero]

end Integer

namespace Hex

/-- Reading what was written gives the number within the width. -/
theorem readNat_write (width n : Nat) : readNat (write width n) = some (n % 16 ^ width) := by
  induction width generalizing n with
  | zero => simp [write, readNat, Nat.mod_one]
  | succ width ih =>
    rw [write, readNat_concat, ih]
    simp only [pushDigit, digitValue?_digit (Nat.mod_lt n (by decide)), Option.bind_eq_bind,
      Option.bind_some, Option.pure_def, Option.some.injEq]
    rw [Nat.pow_succ', Nat.mod_mul]
    omega

theorem foldl_pushDigit_none (text : List Char) : text.foldl pushDigit none = none := by
  induction text with
  | nil => rfl
  | cons c rest ih => exact ih

theorem isDigit_of_readNat {text : List Char} {n : Nat} (h : readNat text = some n) :
    ∀ c ∈ text, isDigit c = true := by
  have digits : ∀ (text : List Char) (start : Option Nat),
      (text.foldl pushDigit start).isSome = true → ∀ c ∈ text, isDigit c = true := by
    intro text
    induction text with
    | nil => exact fun _ _ c hc => absurd hc List.not_mem_nil
    | cons d rest ih =>
      intro start hsome c hc
      rcases List.mem_cons.mp hc with rfl | hc
      · by_contra hno
        have hnone : pushDigit start c = none := by
          unfold isDigit at hno
          unfold pushDigit
          rw [Option.not_isSome_iff_eq_none.mp hno]
          cases start <;> rfl
        rw [List.foldl_cons, hnone, foldl_pushDigit_none] at hsome
        cases hsome
      · exact ih _ hsome c hc
  exact digits text _ (Option.isSome_of_eq_some h)

theorem readNat_eq_none {text : List Char} {c : Char} (hc : c ∈ text) (h : isDigit c = false) :
    readNat text = none := by
  cases hread : readNat text with
  | none => rfl
  | some n => exact absurd (isDigit_of_readNat hread c hc) (Bool.eq_false_iff.mp h)

theorem isDigit_of_mem_write {width n : Nat} {c : Char} (h : c ∈ write width n) : isDigit c = true :=
  isDigit_of_readNat (readNat_write width n) c h

theorem visible_of_mem_write {width n : Nat} {c : Char} (h : c ∈ write width n) :
    0x30 ≤ c.toNat ∧ c.toNat ≤ 0x66 := by
  have hdigit : ∀ d : Fin 16, 0x30 ≤ (digit d.val).toNat ∧ (digit d.val).toNat ≤ 0x66 := by
    decide
  induction width generalizing n with
  | zero => cases h
  | succ width ih =>
    rcases List.mem_append.mp h with h | h
    · exact ih h
    · rw [List.mem_singleton] at h
      rw [h]
      exact hdigit ⟨n % 16, Nat.mod_lt n (by decide)⟩

theorem isPlain_write (width n : Nat) : isPlain (write width n) = true ∧ '-' ∉ write width n := by
  constructor
  · refine (isPlain_iff _).mpr fun c hc => ?_
    obtain ⟨hlow, hhigh⟩ := visible_of_mem_write hc
    refine ⟨by omega, by omega, ?_⟩
    rintro rfl
    exact absurd hlow (by decide)
  · intro hmem
    exact absurd (visible_of_mem_write hmem).1 (by decide)

end Hex

/-! ### Sizes -/

/-- The number of bytes of a text. -/
def bytes (text : List Char) : Nat := (String.ofList text).utf8ByteSize

theorem bytes_append (text rest : List Char) : bytes (text ++ rest) = bytes text + bytes rest := by
  unfold bytes
  rw [String.ofList_append, String.utf8ByteSize_append]

theorem bytes_cons (c : Char) (text : List Char) : bytes (c :: text) = c.utf8Size + bytes text := by
  rw [← List.singleton_append, bytes_append]
  unfold bytes
  rw [← String.singleton_eq_ofList, String.utf8ByteSize_singleton]

theorem bytes_le_of_sublist {rest : List Char} (h : rest.Sublist text) : bytes rest ≤ bytes text := by
  induction h with
  | slnil => exact Nat.le_refl _
  | cons c _ ih => rw [bytes_cons]; omega
  | cons_cons c _ ih => rw [bytes_cons, bytes_cons]; omega

theorem bytes_eq_length (h : ∀ c ∈ text, c.toNat < 128) : bytes text = text.length := by
  induction text with
  | nil => rfl
  | cons c rest ih =>
    have hsize : c.utf8Size = 1 := by
      have hc := h c List.mem_cons_self
      exact Char.utf8Size_eq_one_iff.mpr (by rw [UInt32.le_iff_toNat_le]; exact Nat.le_of_lt_succ hc)
    rw [bytes_cons, hsize, ih fun d hd => h d (List.mem_cons_of_mem _ hd), List.length_cons]
    omega

/-- The size of pieces, each with a separator of one byte behind it. -/
def piecesSize : List (List Char) → Nat
  | [] => 0
  | piece :: pieces => bytes piece + 1 + piecesSize pieces

theorem piecesSize_cons (piece : List Char) (pieces : List (List Char)) :
    piecesSize (piece :: pieces) = bytes piece + 1 + piecesSize pieces := rfl

/-- The last of joined pieces has no comma behind it. -/
theorem bytes_joinWith {pieces : List (List Char)} (h : pieces ≠ []) :
    bytes (joinWith [','] pieces) + 1 = piecesSize pieces := by
  have hcomma : bytes [','] = 1 := by decide
  induction pieces with
  | nil => exact absurd rfl h
  | cons piece rest ih =>
    cases rest with
    | nil => rfl
    | cons next rest =>
      have hjoin : joinWith [','] (piece :: next :: rest) =
          piece ++ [','] ++ joinWith [','] (next :: rest) := rfl
      have hrest := ih (by simp)
      rw [piecesSize_cons, hjoin, bytes_append, bytes_append]
      omega

end Tracing.Text
