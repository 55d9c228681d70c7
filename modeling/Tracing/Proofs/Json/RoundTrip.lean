import Mathlib.Tactic.SplitIfs
import Tracing.Json.Reader
import Tracing.Json.Writer
import Tracing.Proofs.Text.Reading

/-!
# Reading what was written

The reader takes back what the writer made of a value, up to the order of the members of an object: it reads its
`normal` form. That is so for every value whose numbers are whole and of 64 bits and whose nesting the reader allows
(`Readable`), whatever characters its strings hold. The proof follows the text from its front: one character of a
string (`readChars_escapeChar`), the digits of a number up to what ends it (`readNumber_writeInt`), and then, by
induction on the value, any text that starts with a written one (`readValue_write`).

* `read?_write`: a written value is read as its normal form.
-/

namespace Tracing.Json

open Text

/-! ### Strings -/

theorem readCodeEscape_write {n : Nat} (h : n < 0xd800) (text : List Char) :
    readCodeEscape (Hex.write 4 n ++ text) = some (Char.ofNat n, text) := by
  obtain ⟨a, b, c, d, hdigits⟩ : ∃ a b c d, Hex.write 4 n = [a, b, c, d] := ⟨_, _, _, _, rfl⟩
  have hread := Hex.readNat_write 4 n
  rw [Nat.mod_eq_of_lt (by omega)] at hread
  have hunit : readUnit (Hex.write 4 n ++ text) = some (n, text) := by
    rw [hdigits] at hread ⊢
    show (Hex.readNat [a, b, c, d]).map _ = _
    rw [hread]
    rfl
  have hlow : ¬(0xd800 ≤ n ∧ n < 0xdc00) := by omega
  have hhigh : ¬(0xdc00 ≤ n ∧ n < 0xe000) := by omega
  simp [readCodeEscape, hunit, hlow, hhigh]

/-- **A character is read from its escape.** -/
theorem readChars_escapeChar (c : Char) (fuel : Nat) (read text : List Char) :
    readChars (fuel + 1) read (escapeChar c ++ text) = readChars fuel (c :: read) text := by
  unfold escapeChar
  split_ifs with hquote hbackslash hn hr ht hb hf hcontrol
  · rw [hquote]; rfl
  · rw [hbackslash]; rfl
  · rw [hn]; rfl
  · rw [hr]; rfl
  · rw [ht]; rfl
  · rw [hb]; rfl
  · rw [hf]; rfl
  · show (readCodeEscape (Hex.write 4 c.toNat ++ text)).bind _ = _
    rw [readCodeEscape_write (by omega), Char.ofNat_toNat]
    rfl
  · simp [readChars, hquote, hbackslash, hcontrol]

/-- Every character takes one step, however long its escape is. -/
theorem readChars_flatMap {fuel : Nat} {text : List Char} (h : text.length < fuel) (read rest : List Char) :
    readChars fuel read (text.flatMap escapeChar ++ '"' :: rest) = some (read.reverse ++ text, rest) := by
  induction text generalizing fuel read with
  | nil =>
    obtain ⟨fuel, rfl⟩ := Nat.exists_eq_succ_of_ne_zero (Nat.ne_of_gt h)
    rw [List.append_nil]
    rfl
  | cons c text ih =>
    obtain ⟨fuel, rfl⟩ := Nat.exists_eq_succ_of_ne_zero (Nat.ne_of_gt (Nat.lt_of_le_of_lt (Nat.zero_le _) h))
    rw [List.flatMap_cons, List.append_assoc, readChars_escapeChar, ih (Nat.lt_of_succ_lt_succ h),
      List.reverse_cons, List.append_assoc, List.singleton_append]

theorem length_le_flatMap_escapeChar (text : List Char) : text.length ≤ (text.flatMap escapeChar).length := by
  have hpos : ∀ c : Char, 0 < (escapeChar c).length := by
    intro c
    unfold escapeChar
    repeat' split
    all_goals simp
  induction text with
  | nil => rfl
  | cons c text ih =>
    rw [List.flatMap_cons, List.length_append, List.length_cons]
    have := hpos c
    omega

/-- **A string is read from its literal**, whatever its characters are. -/
theorem readString_writeString (s : String) (rest : List Char) :
    readString (s.toList.flatMap escapeChar ++ '"' :: rest) = some (s, rest) := by
  have hlength := length_le_flatMap_escapeChar s.toList
  unfold readString
  rw [readChars_flatMap (by rw [List.length_append]; omega)]
  simp

/-! ### Numbers -/

/-- What may stand behind a value: the end of the text, or what goes on with the array or object around it. -/
def Ends (rest : List Char) : Prop := ∀ c ∈ rest.head?, c = ',' ∨ c = ']' ∨ c = '\x7d'

theorem ends_nil : Ends [] := nofun

theorem ends_cons {c : Char} (h : c = ',' ∨ c = ']' ∨ c = '\x7d') (rest : List Char) : Ends (c :: rest) := by
  intro d hd
  obtain rfl := Option.some.inj hd
  exact h

/-- Digits are added as long as the number they make fits. -/
theorem pushDigits_eq {text : List Char} {significand : Nat} (added : Nat)
    (h : Nat.ofDigitChars 10 text significand ≤ maxSignificand) :
    pushDigits significand added text = (Nat.ofDigitChars 10 text significand, added + text.length, []) := by
  have grows : ∀ (text : List Char) (n : Nat), n ≤ Nat.ofDigitChars 10 text n := by
    intro text
    induction text with
    | nil => exact fun n => by simp
    | cons c text ih =>
      intro n
      rw [Nat.ofDigitChars_cons]
      exact Nat.le_trans (by omega) (ih _)
  induction text generalizing significand added with
  | nil => simp [pushDigits]
  | cons c text ih =>
    rw [Nat.ofDigitChars_cons] at h ⊢
    have hnext : ¬ maxSignificand < 10 * significand + (c.toNat - 48) :=
      Nat.not_lt.mpr (Nat.le_trans (grows text _) h)
    rw [pushDigits, if_neg hnext]
    exact (ih (added + 1) h).trans (by rw [List.length_cons, Nat.add_assoc, Nat.add_comm 1])

theorem pushDigits_writeNat {n : Nat} (h : n ≤ maxSignificand) :
    pushDigits 0 0 (Integer.writeNat n) = (n, (Integer.writeNat n).length, []) := by
  have hdigits : Nat.ofDigitChars 10 (Integer.writeNat n) 0 = n := Nat.ofDigitChars_ten_toDigits
  rw [pushDigits_eq 0 (hdigits.symm ▸ h), hdigits, Nat.zero_add]

theorem writeNat_ne_nil (n : Nat) : Integer.writeNat n ≠ [] := Nat.toDigits_ne_nil

theorem head?_writeNat_ne {n : Nat} (h : 0 < n) : (Integer.writeNat n).head? ≠ some '0' := by
  induction n using Nat.strongRecOn with
  | ind n ih =>
    unfold Integer.writeNat at ih ⊢
    rw [Nat.toDigits_eq_if (by decide)]
    split
    · next hlt =>
      have hdigit : ∀ d : Fin 10, 0 < d.val → [Nat.digitChar d.val].head? ≠ some '0' := by decide
      exact hdigit ⟨n, hlt⟩ h
    · next hlarge =>
      rw [List.head?_append_of_ne_nil _ Nat.toDigits_ne_nil]
      exact ih (n / 10) (by omega) (by omega)

theorem isDigit_of_ends {rest : List Char} (h : Ends rest) : ∀ c ∈ rest.head?, c.isDigit = false := by
  intro c hc
  rcases h c hc with rfl | rfl | rfl <;> decide

theorem span_writeNat (n : Nat) {rest : List Char} (h : Ends rest) :
    (Integer.writeNat n ++ rest).takeWhile Char.isDigit = Integer.writeNat n ∧
      (Integer.writeNat n ++ rest).dropWhile Char.isDigit = rest :=
  span_append (fun _ hc => Integer.isDigit_of_mem_writeNat hc) (isDigit_of_ends h)

theorem takeFraction_of_ends {rest : List Char} (h : Ends rest) : takeFraction rest = some ([], rest) := by
  unfold takeFraction
  split
  · have := h '.' rfl
    simp at this
  · rfl

theorem takeExponent_of_ends {rest : List Char} (h : Ends rest) : takeExponent rest = some (none, rest) := by
  cases rest with
  | nil => rfl
  | cons c rest =>
    have hno : ¬(c = 'e' ∨ c = 'E') := by
      rcases h c rfl with rfl | rfl | rfl <;> decide
    rw [takeExponent, if_neg hno]

theorem readNumber_digits (negative : Bool) (n : Nat) {rest : List Char} (h : Ends rest) :
    readNumber ((if negative then ['-'] else []) ++ (Integer.writeNat n ++ rest)) =
      (ofNumberParts negative (Integer.writeNat n) [] none).map fun value => (value, rest) := by
  obtain ⟨hwhole, hbehind⟩ := span_writeNat n h
  have hlead : ¬(Integer.writeNat n = [] ∨
      (Integer.writeNat n).head? = some '0' ∧ ¬(Integer.writeNat n).length = 1) := by
    rintro (hempty | ⟨hzero, hlength⟩)
    · exact writeNat_ne_nil n hempty
    · rcases Nat.eq_zero_or_pos n with rfl | hpos
      · exact hlength rfl
      · exact head?_writeNat_ne hpos hzero
  have hparts : ∀ value? : Option Json, (value?.bind fun value => some (value, rest)) =
      value?.map fun value => (value, rest) := by
    intro value?
    cases value? <;> rfl
  cases negative with
  | true =>
    unfold readNumber
    simp [hwhole, hbehind, takeFraction_of_ends h, takeExponent_of_ends h, hlead, hparts]
  | false =>
    rw [if_neg Bool.false_ne_true, List.nil_append]
    unfold readNumber
    split
    next heq =>
      split at heq
      · next hminus =>
        have hfirst := congrArg List.head? hminus
        rw [List.head?_append_of_ne_nil _ (writeNat_ne_nil n)] at hfirst
        exact absurd (Integer.isDigit_of_mem_writeNat (List.mem_of_head? hfirst)) (by decide)
      · obtain ⟨rfl, rfl⟩ := Prod.mk.inj heq
        simp [hwhole, hbehind, takeFraction_of_ends h, takeExponent_of_ends h, hlead, hparts]

/-- Whole numbers of 64 bits, with or without a sign. -/
def FitsWord (n : Int) : Prop := -(2 ^ 63) ≤ n ∧ n < 2 ^ 64

/-- **A whole number is read from its digits.** -/
theorem readNumber_writeInt {n : Int} (hn : FitsWord n) {rest : List Char} (h : Ends rest) :
    readNumber (Integer.writeInt n ++ rest) = some (int n, rest) := by
  have hmax : maxSignificand = 2 ^ 64 - 1 := by decide
  obtain ⟨hlow, hhigh⟩ := hn
  cases n with
  | ofNat n =>
    have hfits : n ≤ maxSignificand := by
      have : (n : Int) < 2 ^ 64 := hhigh
      omega
    refine (readNumber_digits false n h).trans ?_
    simp [ofNumberParts, pushDigits_writeNat hfits]
  | negSucc n =>
    have hfits : n + 1 ≤ maxSignificand := by omega
    refine (readNumber_digits true (n + 1) h).trans ?_
    have hword : 0 < n + 1 ∧ n + 1 ≤ 1 <<< 63 := by
      have : (1 <<< 63 : Nat) = 2 ^ 63 := by decide
      omega
    simp only [ofNumberParts, pushDigits_writeNat hfits, List.isEmpty_nil, Option.isNone_none, and_self,
      if_true, Bool.not_true, Bool.false_eq_true, if_false, if_pos hword]
    rfl

/-! ### What is read back -/

mutual

/-- Values whose text is read back: their numbers are whole and of 64 bits, and they need no more levels than may
still open. -/
def Readable : (depth : Nat) → Json → Prop
  | _, null | _, bool _ | _, str _ => True
  | _, int n => FitsWord n
  | _, float _ => False
  | depth, arr items => 1 < depth ∧ ReadableItems (depth - 1) items
  | depth, obj members => 1 < depth ∧ ReadableMembers (depth - 1) members

def ReadableItems : (depth : Nat) → List Json → Prop
  | _, [] => True
  | depth, item :: items => Readable depth item ∧ ReadableItems depth items

def ReadableMembers : (depth : Nat) → List (String × Json) → Prop
  | _, [] => True
  | depth, (_, value) :: members => Readable depth value ∧ ReadableMembers depth members

end

mutual

/-- A value as it is read back: the members of its objects in the order of their names. -/
def normal : Json → Json
  | null => null
  | bool b => bool b
  | int n => int n
  | float x => float x
  | str s => str s
  | arr items => arr (normalItems items)
  | obj members => ofMembers (normalMembers members)

def normalItems : List Json → List Json
  | [] => []
  | item :: items => normal item :: normalItems items

def normalMembers : List (String × Json) → List (String × Json)
  | [] => []
  | (name, value) :: members => (name, normal value) :: normalMembers members

end

theorem readableItems_iff {depth : Nat} {items : List Json} :
    ReadableItems depth items ↔ ∀ item ∈ items, Readable depth item := by
  induction items with
  | nil => simp [ReadableItems]
  | cons item items ih => rw [ReadableItems, ih, List.forall_mem_cons]

theorem readableMembers_iff {depth : Nat} {members : List (String × Json)} :
    ReadableMembers depth members ↔ ∀ m ∈ members, Readable depth m.2 := by
  induction members with
  | nil => simp [ReadableMembers]
  | cons m members ih => rw [ReadableMembers, ih, List.forall_mem_cons]

theorem normalItems_eq (items : List Json) : normalItems items = items.map normal := by
  induction items with
  | nil => rfl
  | cons item items ih => rw [normalItems, ih, List.map_cons]

theorem normalMembers_eq (members : List (String × Json)) :
    normalMembers members = members.map fun m => (m.1, normal m.2) := by
  induction members with
  | nil => rfl
  | cons m members ih => rw [normalMembers, ih, List.map_cons]

theorem ofMembers_eq (members : List (String × Json)) : ofMembers members = obj (Dict.ofList members).entries := by
  have hfold : ∀ d : Dict Json, (members.foldl (fun d m => d.insert m.1 m.2) d).entries =
      members.foldl (fun ms m => Entries.insert m.1 m.2 ms) d.entries := by
    induction members with
    | nil => exact fun _ => rfl
    | cons m members ih => exact fun d => ih (d.insert m.1 m.2)
  exact congrArg obj (hfold ∅).symm

theorem ofMembers_of_ordered {members : List (String × Json)} (h : Entries.Ordered members) :
    ofMembers members = obj members := by
  rw [ofMembers_eq]
  exact congrArg (fun d : Dict Json => obj d.entries) (Dict.ofList_entries ⟨members, h⟩)

/-! ### Values -/

theorem skipSpace_cons {c : Char} (h : isSpace c = false) (text : List Char) :
    skipSpace (c :: text) = c :: text := by
  simp [skipSpace, h]

/-- A value starts with a character that is neither a blank nor the end of an array. -/
def Starts (text : List Char) : Prop := ∃ c rest, text = c :: rest ∧ isSpace c = false ∧ c ≠ ']'

theorem Starts.append {text : List Char} (h : Starts text) (rest : List Char) : Starts (text ++ rest) := by
  obtain ⟨c, behind, rfl, hspace, hend⟩ := h
  exact ⟨c, behind ++ rest, rfl, hspace, hend⟩

theorem Starts.length_pos {text : List Char} (h : Starts text) : 0 < text.length := by
  obtain ⟨c, rest, rfl, -, -⟩ := h
  exact Nat.succ_pos _

theorem digit_or_minus {n : Int} : ∃ c rest, Integer.writeInt n = c :: rest ∧ (c.isDigit = true ∨ c = '-') := by
  cases n with
  | ofNat n =>
    obtain ⟨c, rest, hdigits⟩ := List.exists_cons_of_ne_nil (writeNat_ne_nil n)
    exact ⟨c, rest, hdigits, .inl (Integer.isDigit_of_mem_writeNat (hdigits ▸ List.mem_cons_self))⟩
  | negSucc n => exact ⟨'-', _, rfl, .inr rfl⟩

theorem starts_write {depth : Nat} {j : Json} (h : Readable depth j) : Starts (write j) := by
  cases j with
  | int n =>
    obtain ⟨c, rest, hdigits, hc⟩ := @digit_or_minus n
    refine ⟨c, rest, hdigits, ?_⟩
    rcases hc with hc | rfl
    · have hne : ∀ d : Char, d.isDigit = false → c ≠ d := by
        rintro d hd rfl
        rw [hc] at hd
        cases hd
      exact ⟨by simp [isSpace, hne], hne _ (by decide)⟩
    · exact ⟨by decide, by decide⟩
  | float => exact h.elim
  | bool b => cases b <;> exact ⟨_, _, rfl, by decide, by decide⟩
  | null | str | arr | obj => exact ⟨_, _, rfl, by decide, by decide⟩

theorem readValue_number {c : Char} (h : c.isDigit = true ∨ c = '-') (fuel depth : Nat) (rest : List Char) :
    readValue (fuel + 1) depth (c :: rest) = readNumber (c :: rest) := by
  have hne : ∀ d : Char, d.isDigit = false → d ≠ '-' → c ≠ d := by
    rintro d hd hminus rfl
    rcases h with h | h
    · rw [hd] at h
      cases h
    · exact hminus h
  have hspace : isSpace c = false := by simp [isSpace, hne]
  unfold readValue
  rw [skipSpace_cons hspace]
  split
  · next heq => cases heq
  all_goals next heq => first | exact absurd (List.cons.inj heq).1 (hne _ (by decide) (by decide)) | rw [heq]

theorem readValue_array {fuel depth : Nat} {text : List Char} (hdepth : 1 < depth) (h : Starts text) :
    readValue (fuel + 1) depth ('[' :: text) =
      (readItems fuel (depth - 1) [] text).map fun (items, rest) => (arr items, rest) := by
  obtain ⟨c, rest, rfl, hspace, hend⟩ := h
  rw [readValue, skipSpace_cons (show isSpace '[' = false from rfl)]
  simp only
  rw [if_neg (by omega), skipSpace_cons hspace]
  split
  · next heq => exact absurd (List.cons.inj heq).1 hend
  · rfl

theorem readValue_object {fuel depth : Nat} (hdepth : 1 < depth) (text : List Char) :
    readValue (fuel + 1) depth ('\x7b' :: '"' :: text) =
      (readMembers fuel (depth - 1) [] ('"' :: text)).map fun (ms, rest) => (ofMembers ms, rest) := by
  show (if depth ≤ 1 then none else
    (readMembers fuel (depth - 1) [] ('"' :: text)).map fun (ms, rest) => (ofMembers ms, rest)) = _
  rw [if_neg (by omega)]

theorem readMembers_writeString (name : String) (fuel depth : Nat) (read : List (String × Json))
    {text rest : List Char} {value : Json} (h : readValue fuel depth text = some (value, rest)) :
    readMembers (fuel + 1) depth read (writeString name.toList ++ ':' :: text) = match skipSpace rest with
      | ',' :: rest => readMembers fuel depth ((name, value) :: read) rest
      | '\x7d' :: rest => some (((name, value) :: read).reverse, rest)
      | _ => none := by
  have hname := readString_writeString name (':' :: text)
  have htext : writeString name.toList ++ ':' :: text =
      '"' :: (name.toList.flatMap escapeChar ++ '"' :: ':' :: text) := by simp [writeString]
  rw [htext]
  show ((readString _).bind _) = _
  rw [hname]
  show ((readValue fuel depth text).bind _) = _
  rw [h]
  rfl

theorem starts_writeItems {depth : Nat} {item : Json} {items : List Json}
    (h : ReadableItems depth (item :: items)) : Starts (writeItems (item :: items)) := by
  cases items with
  | nil => exact starts_write h.1
  | cons => exact (starts_write h.1).append _

theorem writeItems_cons_cons (item next : Json) (items : List Json) :
    writeItems (item :: next :: items) = write item ++ ',' :: writeItems (next :: items) := rfl

theorem writeMembers_cons_cons (name : String) (value : Json) (next : String × Json)
    (members : List (String × Json)) : writeMembers ((name, value) :: next :: members) =
      writeString name.toList ++ ':' :: write value ++ ',' :: writeMembers (next :: members) := rfl

theorem writeItems_eq (items : List Json) : writeItems items = [','].intercalate (items.map write) := by
  induction items with
  | nil => rfl
  | cons item items ih =>
    cases items with
    | nil => exact (List.append_nil _).symm
    | cons next items =>
      simp only [writeItems_cons_cons, ih, List.map_cons, List.intercalate_cons_cons, List.append_assoc,
        List.singleton_append]

theorem writeMembers_eq_cons (name : String) (value : Json) (members : List (String × Json)) :
    ∃ text, writeMembers ((name, value) :: members) = '"' :: text := by
  cases members <;> exact ⟨_, rfl⟩

mutual

/-- **A value is read from its text**, with any text behind it that does not go on with the value. -/
theorem readValue_write : ∀ (j : Json) {fuel depth : Nat} {rest : List Char}, Readable depth j →
    (write j).length ≤ fuel + 1 → Ends rest →
    readValue (fuel + 1) depth (write j ++ rest) = some (normal j, rest)
  | null, _, _, _, _, _, _ => rfl
  | bool true, _, _, _, _, _, _ => rfl
  | bool false, _, _, _, _, _, _ => rfl
  | int n, _, _, rest, h, _, hrest => by
    obtain ⟨c, digits, hdigits, hc⟩ := @digit_or_minus n
    rw [write, normal, ← readNumber_writeInt h hrest, hdigits, List.cons_append, readValue_number hc]
  | float _, _, _, _, h, _, _ => h.elim
  | str s, fuel, depth, rest, _, _, _ => by
    have htext : write (str s) ++ rest = '"' :: (s.toList.flatMap escapeChar ++ '"' :: rest) := by
      simp [write, writeString]
    rw [htext]
    show (readString _).map _ = _
    rw [readString_writeString]
    rfl
  | arr [], _, depth, rest, h, _, _ => by
    show (if depth ≤ 1 then none else some (arr [], rest)) = _
    rw [if_neg (by have := h.1; omega)]
    rfl
  | arr (item :: items), fuel, depth, rest, h, hlength, _ => by
    have htext : write (arr (item :: items)) ++ rest = '[' :: (writeItems (item :: items) ++ ']' :: rest) := by
      simp [write]
    have hinside : (writeItems (item :: items)).length + 1 ≤ fuel := by
      simp [write] at hlength
      omega
    obtain ⟨fuel, rfl⟩ : ∃ n, fuel = n + 1 := ⟨fuel - 1, by omega⟩
    rw [htext, readValue_array h.1 ((starts_writeItems h.2).append _),
      readItems_write (item :: items) [] rest (List.cons_ne_nil _ _) h.2 (by omega)]
    rfl
  | obj [], _, depth, rest, h, _, _ => by
    show (if depth ≤ 1 then none else some (obj [], rest)) = _
    rw [if_neg (by have := h.1; omega)]
    rfl
  | obj ((name, value) :: members), fuel, depth, rest, h, hlength, _ => by
    obtain ⟨text, htext⟩ := writeMembers_eq_cons name value members
    have hobject : write (obj ((name, value) :: members)) ++ rest =
        '\x7b' :: (writeMembers ((name, value) :: members) ++ '\x7d' :: rest) := by
      simp [write]
    have hinside : (writeMembers ((name, value) :: members)).length + 1 ≤ fuel := by
      simp [write] at hlength
      omega
    obtain ⟨fuel, rfl⟩ : ∃ n, fuel = n + 1 := ⟨fuel - 1, by omega⟩
    have hmembers := readMembers_write ((name, value) :: members) [] rest (List.cons_ne_nil _ _) h.2
      (show _ ≤ fuel by omega)
    rw [htext] at hobject hmembers
    rw [hobject, List.cons_append, readValue_object h.1, ← List.cons_append, hmembers]
    rfl

theorem readItems_write : ∀ (items : List Json) {fuel depth : Nat} (read : List Json) (rest : List Char),
    items ≠ [] → ReadableItems depth items → (writeItems items).length ≤ fuel →
    readItems (fuel + 1) depth read (writeItems items ++ ']' :: rest) =
      some (read.reverse ++ normalItems items, rest)
  | [], _, _, _, _, hne, _, _ => absurd rfl hne
  | [item], fuel, depth, read, rest, _, h, hlength => by
    rw [writeItems] at hlength ⊢
    have hpos := (starts_write h.1).length_pos
    obtain ⟨fuel, rfl⟩ : ∃ n, fuel = n + 1 := ⟨fuel - 1, by omega⟩
    rw [readItems, readValue_write item h.1 hlength (ends_cons (by decide) rest)]
    simp [skipSpace, isSpace, normalItems]
  | item :: next :: items, fuel, depth, read, rest, _, h, hlength => by
    rw [writeItems_cons_cons] at hlength ⊢
    rw [List.length_append, List.length_cons] at hlength
    have hpos := (starts_write h.1).length_pos
    obtain ⟨fuel, rfl⟩ : ∃ n, fuel = n + 1 := ⟨fuel - 1, by omega⟩
    rw [List.append_assoc, List.cons_append, readItems,
      readValue_write item h.1 (by omega) (ends_cons (by decide) _)]
    show readItems (fuel + 1) depth (normal item :: read) (writeItems (next :: items) ++ ']' :: rest) = _
    rw [readItems_write (next :: items) (normal item :: read) rest (List.cons_ne_nil _ _) h.2 (by omega)]
    simp [normalItems]

theorem readMembers_write : ∀ (members : List (String × Json)) {fuel depth : Nat}
    (read : List (String × Json)) (rest : List Char),
    members ≠ [] → ReadableMembers depth members → (writeMembers members).length ≤ fuel →
    readMembers (fuel + 1) depth read (writeMembers members ++ '\x7d' :: rest) =
      some (read.reverse ++ normalMembers members, rest)
  | [], _, _, _, _, hne, _, _ => absurd rfl hne
  | [(name, value)], fuel, depth, read, rest, _, h, hlength => by
    rw [writeMembers] at hlength ⊢
    rw [List.length_append, List.length_cons] at hlength
    have hpos := (starts_write h.1).length_pos
    obtain ⟨fuel, rfl⟩ : ∃ n, fuel = n + 1 := ⟨fuel - 1, by omega⟩
    rw [List.append_assoc, List.cons_append, readMembers_writeString name (fuel + 1) depth read
      (readValue_write value h.1 (by omega) (ends_cons (by decide) rest))]
    simp [skipSpace, isSpace, normalMembers]
  | (name, value) :: next :: members, fuel, depth, read, rest, _, h, hlength => by
    rw [writeMembers_cons_cons] at hlength ⊢
    rw [List.length_append, List.length_append, List.length_cons, List.length_cons] at hlength
    have hpos := (starts_write h.1).length_pos
    obtain ⟨fuel, rfl⟩ : ∃ n, fuel = n + 1 := ⟨fuel - 1, by omega⟩
    rw [List.append_assoc, List.append_assoc, List.cons_append, List.cons_append,
      readMembers_writeString name (fuel + 1) depth read
        (readValue_write value h.1 (by omega) (ends_cons (by decide) _))]
    show readMembers (fuel + 1) depth ((name, normal value) :: read)
      (writeMembers (next :: members) ++ '\x7d' :: rest) = _
    rw [readMembers_write (next :: members) ((name, normal value) :: read) rest (List.cons_ne_nil _ _) h.2
      (by omega)]
    simp [normalMembers]

end

/-- **Reading what was written** gives the value in its normal form. -/
theorem read?_write {j : Json} (h : Readable maxDepth j) : read? (write j) = some (normal j) := by
  have hvalue := readValue_write j h (Nat.le_succ _) ends_nil
  rw [List.append_nil] at hvalue
  unfold read?
  rw [hvalue]
  rfl

/-- Names and texts keep their characters, and the members go by their names. -/
example : read? (write (.obj [("b\"", .str "\\\n\x01é"), ("a", .int (-7))])) =
    some (.obj [("a", .int (-7)), ("b\"", .str "\\\n\x01é")]) := rfl

end Tracing.Json
