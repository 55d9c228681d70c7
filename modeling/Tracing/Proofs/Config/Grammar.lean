import Tracing.Proofs.Config.Leaves

/-!
# The grammar of values

`Spells` says which texts spell a value: words, numbers, quoted and plain text, and lists and tables of such values,
with blanks around each. The reader follows this grammar from the front of a text, with fuel for its length, and it
reads just the texts that the grammar allows:

* `Spells.readFrom`: what the grammar allows is read, by induction on how it is spelled, wherever it stands in a text;
* `sound`: what is read the grammar allows, by induction on the fuel.

So a variable has the value that its text spells (`read_of_spells`), or its text if it spells none
(`read_of_not_spells`).
-/

namespace Tracing.Variable

open Text

variable {text rest : List Char} {c : Char}

/-! ### Values -/

/-- A part of the text of a value, with what it stands for. -/
inductive Phrase where
  /-- A value and the blanks around it. -/
  | value (v : Json)
  /-- A value without blanks around it. -/
  | bare (v : Json)
  /-- The items of a list and its closing bracket. -/
  | items (vs : List Json)
  /-- The entries of a table and its closing brace. -/
  | entries (ms : List (String × Json))

/-- Blanks between the parts of a value. -/
def Spaces (text : List Char) : Prop := ∀ c ∈ text, isSpace c = true

/-- Text that is of no other form: nothing in it separates values, and at its front is neither a quote nor a truth
word. -/
structure PlainText (text : List Char) : Prop where
  separators : ∀ c ∈ text, isSeparator c = false
  head : ∀ c ∈ text.head?, isSpace c = false ∧ c ≠ '"' ∧ c ≠ '\''
  words : ¬ "true".toList <+: text ∧ ¬ "false".toList <+: text

/-- **The grammar of values**: how a part of a value is spelled. A comma may stand behind the last item of a list, and
an item may be empty. -/
inductive Spells : Phrase → List Char → Prop
  | value {v : Json} {before text after : List Char} (hbefore : Spaces before) (hafter : Spaces after)
      (h : Spells (.bare v) text) : Spells (.value v) (before ++ text ++ after)
  | yes : Spells (.bare (.bool true)) "true".toList
  | no : Spells (.bare (.bool false)) "false".toList
  | number {v : Json} {text : List Char} (htext : PlainText text) (h : Number (trim text) v) : Spells (.bare v) text
  | plain {text : List Char} (htext : PlainText text) (h : ∀ v, ¬ Number (trim text) v) :
      Spells (.bare (.str (String.ofList (trim text)))) text
  | quoted {inner s : List Char} (h : Quoted inner s) :
      Spells (.bare (.str (String.ofList s))) ('"' :: inner ++ ['"'])
  | char (c : Char) : Spells (.bare (.str (String.ofList [c]))) ['\'', c, '\'']
  | list {vs : List Json} {text : List Char} (h : Spells (.items vs) text) : Spells (.bare (.arr vs)) ('[' :: text)
  | table {ms : List (String × Json)} {text : List Char} (h : Spells (.entries ms) text) :
      Spells (.bare (Json.ofMembers ms)) ('\x7b' :: text)
  | noItems : Spells (.items []) [']']
  | lastItem {v : Json} {text : List Char} (hne : text ≠ []) (h : Spells (.value v) text) :
      Spells (.items [v]) (text ++ [']'])
  | item {v : Json} {vs : List Json} {text rest : List Char} (h : Spells (.value v) text)
      (hrest : Spells (.items vs) rest) : Spells (.items (v :: vs)) (text ++ ',' :: rest)
  | noEntries : Spells (.entries []) ['\x7d']
  | lastEntry {v : Json} {before key name after text : List Char} (hbefore : Spaces before) (hkey : Key key name)
      (hafter : Spaces after) (h : Spells (.value v) text) :
      Spells (.entries [(String.ofList name, v)]) (before ++ key ++ after ++ '=' :: text ++ ['\x7d'])
  | entry {v : Json} {ms : List (String × Json)} {before key name after text rest : List Char}
      (hbefore : Spaces before) (hkey : Key key name) (hafter : Spaces after) (h : Spells (.value v) text)
      (hrest : Spells (.entries ms) rest) :
      Spells (.entries ((String.ofList name, v) :: ms)) (before ++ key ++ after ++ '=' :: text ++ ',' :: rest)

theorem Spells.head_bare {v : Json} (h : Spells (.bare v) text) : ∀ c ∈ text.head?, isSpace c = false := by
  cases h with
  | number htext | plain htext => exact fun c hc => (htext.head c hc).1
  | yes | no | quoted | char | list | table =>
    rintro c ⟨⟩
    rfl

theorem isSpace_iff : isSpace c = true ↔ c = ' ' ∨ c = '\t' := by simp [isSpace]

theorem isBlank_of_isSpace (h : isSpace c = true) : isBlank c = true := by
  rcases isSpace_iff.mp h with rfl | rfl <;> decide

theorem skipSpace_append (h : Spaces text) (rest : List Char) : skipSpace (text ++ rest) = skipSpace rest :=
  List.dropWhile_append_of_pos h

theorem skipSpace_of_head (h : ∀ c ∈ text.head?, isSpace c = false) : skipSpace text = text := by
  cases text with
  | nil => rfl
  | cons c rest => exact List.dropWhile_cons_of_neg (by simp [h c rfl])

theorem takeWhile_append_skipSpace (text : List Char) : text.takeWhile isSpace ++ skipSpace text = text :=
  List.takeWhile_append_dropWhile

theorem spaces_takeWhile (text : List Char) : Spaces (text.takeWhile isSpace) := fun _ hc => List.mem_takeWhile_imp hc

theorem head?_skipSpace (text : List Char) : ∀ c ∈ (skipSpace text).head?, isSpace c = false :=
  fun _ hc => head?_dropWhile hc

/-! ### What the grammar allows is read -/

open Json (Ends ends_nil ends_cons)

theorem isSpace_of_ends (h : Ends rest) : ∀ c ∈ rest.head?, isSpace c = false := by
  intro c hc
  rcases h c hc with rfl | rfl | rfl <;> decide

theorem readBare_plain (fuel : Nat) (hhead : ∀ c ∈ text.head?, c ∉ ['\x7b', '[', '"', '\''])
    (hwords : ¬ "true".toList <+: text ∧ ¬ "false".toList <+: text) :
    readBare (fuel + 1) text =
      some (readPlain (trim (text.takeWhile (!isSeparator ·))), text.dropWhile (!isSeparator ·)) := by
  have hnone : ∀ word : List Char, ¬ word <+: text → dropLead? word text = none := by
    intro word hword
    cases hdrop : dropLead? word text with
    | none => rfl
    | some left => exact absurd ⟨left, (dropLead?_eq_some_iff.mp hdrop).symm⟩ hword
  unfold readBare
  rw [hnone _ hwords.1, hnone _ hwords.2]
  simp only
  split
  · exact absurd (hhead _ rfl) (by decide)
  · exact absurd (hhead _ rfl) (by decide)
  · exact absurd (hhead _ rfl) (by decide)
  · exact absurd (hhead _ rfl) (by decide)
  · exact absurd (hhead _ rfl) (by decide)
  · rfl

theorem head?_spaces_append {after : List Char} (hafter : Spaces after) (h : Ends rest) :
    ∀ c ∈ (after ++ rest).head?, isSpace c = true ∨ c = ',' ∨ c = ']' ∨ c = '\x7d' := by
  intro c hc
  cases after with
  | nil => exact .inr (h c hc)
  | cons d after =>
    obtain rfl : d = c := Option.some.inj hc
    exact .inl (hafter d List.mem_cons_self)

theorem trim_append_spaces {after : List Char} (h : Spaces after) (text : List Char) :
    trim (text ++ after) = trim text :=
  trim_append_blanks (fun c hc => isBlank_of_isSpace (h c hc)) text

theorem PlainText.readBare_append (h : PlainText text) (fuel : Nat) {after : List Char} (hafter : Spaces after)
    (hends : Ends rest) : readBare (fuel + 1) (text ++ (after ++ rest)) = some (readPlain (trim text), rest) := by
  have hbehind := head?_spaces_append hafter hends
  have hfree : ∀ c ∈ text ++ after, (!isSeparator c) = true := by
    intro c hc
    rcases List.mem_append.mp hc with hc | hc
    · rw [h.separators c hc]; rfl
    · rcases isSpace_iff.mp (hafter c hc) with rfl | rfl <;> rfl
  have hstop : ∀ c ∈ rest.head?, (!isSeparator c) = false := by
    intro c hc
    rcases hends c hc with rfl | rfl | rfl <;> rfl
  have hhead : ∀ c ∈ (text ++ (after ++ rest)).head?, c ∉ ['\x7b', '[', '"', '\''] := by
    intro c hc
    cases text with
    | nil =>
      rcases hbehind c hc with hspace | rfl | rfl | rfl
      · rcases isSpace_iff.mp hspace with rfl | rfl <;> decide
      all_goals decide
    | cons d text =>
      obtain rfl : d = c := Option.some.inj hc
      have hseparator := h.separators d List.mem_cons_self
      obtain ⟨-, hquote, hapostrophe⟩ := h.head d rfl
      simp only [isSeparator, Bool.or_eq_false_iff, decide_eq_false_iff_not] at hseparator
      simp [hseparator, hquote, hapostrophe]
  have hletters : ∀ c ∈ (after ++ rest).head?, c ∉ "true".toList ∧ c ∉ "false".toList := by
    intro c hc
    rcases hbehind c hc with hspace | rfl | rfl | rfl
    · rcases isSpace_iff.mp hspace with rfl | rfl <;> decide
    all_goals decide
  have hwords : ¬ "true".toList <+: text ++ (after ++ rest) ∧ ¬ "false".toList <+: text ++ (after ++ rest) :=
    ⟨fun hlong => h.words.1 (prefix_of_prefix_append hlong fun c hc => (hletters c hc).1),
      fun hlong => h.words.2 (prefix_of_prefix_append hlong fun c hc => (hletters c hc).2)⟩
  have hspan := span_append hfree hstop
  rw [readBare_plain fuel hhead hwords, ← List.append_assoc, hspan.1, hspan.2, trim_append_spaces hafter]

/-- What the reader makes of a phrase wherever it stands, if there is enough fuel for its length. Blanks behind a value
without blanks may be read as part of it or not. -/
def Phrase.ReadFrom (text : List Char) : Phrase → Prop
  | value v => ∀ (fuel : Nat) {rest : List Char}, 2 * text.length + 2 ≤ fuel → Ends rest →
      readValue fuel (text ++ rest) = some (v, rest)
  | bare v => ∀ (fuel : Nat) {after rest : List Char}, 2 * text.length + 1 ≤ fuel → Spaces after → Ends rest →
      ∃ left, readBare fuel (text ++ (after ++ rest)) = some (v, left) ∧ skipSpace left = rest
  | items vs => ∀ (fuel : Nat) (read : List Json) (rest : List Char), 2 * text.length + 2 ≤ fuel →
      readItems fuel read (text ++ rest) = some (read.reverse ++ vs, rest)
  | entries ms => ∀ (fuel : Nat) (read : List (String × Json)) (rest : List Char), 2 * text.length + 2 ≤ fuel →
      readEntries fuel read (text ++ rest) = some (read.reverse ++ ms, rest)

theorem skipSpace_spaces_append {after : List Char} (hafter : Spaces after) (hends : Ends rest) :
    skipSpace (after ++ rest) = rest := by
  rw [skipSpace_append hafter, skipSpace_of_head (isSpace_of_ends hends)]

theorem readFrom_value {v : Json} {before after : List Char} (hbefore : Spaces before) (hafter : Spaces after)
    (hhead : ∀ c ∈ text.head?, isSpace c = false) (h : (Phrase.bare v).ReadFrom text) :
    (Phrase.value v).ReadFrom (before ++ text ++ after) := by
  intro fuel rest hfuel hends
  obtain ⟨fuel, rfl⟩ := Nat.exists_eq_add_of_le' (Nat.one_le_of_lt hfuel)
  simp only [List.length_append] at hfuel
  have hbare : ∃ left, readBare fuel (skipSpace (text ++ (after ++ rest))) = some (v, left) ∧
      skipSpace left = rest := by
    cases text with
    | nil =>
      -- in front of an empty item, the blanks behind it are skipped as well
      rw [List.nil_append, skipSpace_spaces_append hafter hends]
      exact @h fuel [] rest (by omega) nofun hends
    | cons c text =>
      have hfirst : skipSpace (c :: text ++ (after ++ rest)) = c :: text ++ (after ++ rest) := skipSpace_of_head hhead
      rw [hfirst]
      exact h fuel (by omega) hafter hends
  obtain ⟨left, hread, hleft⟩ := hbare
  rw [List.append_assoc, List.append_assoc, readValue, skipSpace_append hbefore, hread]
  simp only [Option.map_some, hleft]

theorem readFrom_closed {v : Json} (h : ∀ (fuel : Nat) (behind : List Char), 2 * text.length ≤ fuel →
    readBare (fuel + 1) (text ++ behind) = some (v, behind)) : (Phrase.bare v).ReadFrom text := by
  intro fuel after rest hfuel hafter hends
  obtain ⟨fuel, rfl⟩ := Nat.exists_eq_add_of_le' (Nat.one_le_of_lt hfuel)
  exact ⟨after ++ rest, h fuel _ (Nat.le_of_succ_le_succ hfuel), skipSpace_spaces_append hafter hends⟩

theorem readFrom_plain {v : Json} (htext : PlainText text) (hv : readPlain (trim text) = v) :
    (Phrase.bare v).ReadFrom text := by
  intro fuel after rest hfuel hafter hends
  obtain ⟨fuel, rfl⟩ := Nat.exists_eq_add_of_le' (Nat.one_le_of_lt hfuel)
  rw [htext.readBare_append fuel hafter hends, hv]
  exact ⟨rest, rfl, skipSpace_of_head (isSpace_of_ends hends)⟩

theorem head?_append_ne (htext : text.head? ≠ some c) (hrest : rest.head? ≠ some c) :
    (text ++ rest).head? ≠ some c := by
  cases text with
  | nil => exact hrest
  | cons => exact htext

theorem Spells.head?_ne {v : Json} (h : Spells (.value v) text) : text.head? ≠ some ']' := by
  cases h with
  | @value _ before text after hbefore hafter h =>
    have hspaces : ∀ {blanks : List Char}, Spaces blanks → blanks.head? ≠ some ']' :=
      fun h hhead => absurd (h _ (List.mem_of_head? hhead)) (by decide)
    have hbare : text.head? ≠ some ']' := by
      cases h with
      | number htext | plain htext =>
        exact fun hhead => absurd (htext.separators _ (List.mem_of_head? hhead)) (by decide)
      | yes | no | quoted | char | list | table => nofun
    exact head?_append_ne (head?_append_ne (hspaces hbefore) hbare) (hspaces hafter)

theorem readItems_eq (h : text.head? ≠ some ']') (fuel : Nat) (read : List Json) :
    readItems (fuel + 1) read text = (readValue fuel text).bind fun r => match r.2 with
      | ',' :: rest => readItems fuel (r.1 :: read) rest
      | ']' :: rest => some ((r.1 :: read).reverse, rest)
      | _ => none := by
  rw [readItems.eq_3 read text fuel fun _ htext => h (by rw [htext]; rfl)]
  rfl

theorem Key.head {key name : List Char} (h : Key key name) :
    ∃ c left, key = c :: left ∧ isSpace c = false ∧ c ≠ '\x7d' := by
  cases h with
  | quoted => exact ⟨_, _, rfl, by decide, by decide⟩
  | plain hne h =>
    obtain ⟨c, left, rfl⟩ := List.exists_cons_of_ne_nil hne
    have hc := h c List.mem_cons_self
    refine ⟨c, left, rfl, ?_, ?_⟩
    · by_contra hspace
      rcases isSpace_iff.mp (Bool.eq_true_of_not_eq_false hspace) with rfl | rfl
      all_goals cases hc
    · rintro rfl
      cases hc

theorem Key.readKey_around {before key name after : List Char} (hbefore : Spaces before) (hkey : Key key name)
    (hafter : Spaces after) (right : List Char) :
    ∃ left, readKey (skipSpace (before ++ (key ++ (after ++ '=' :: right)))) = some (name, left) ∧
      skipSpace left = '=' :: right := by
  have hsign : skipSpace ('=' :: right) = '=' :: right := skipSpace_of_head (by rintro c ⟨⟩; rfl)
  refine ⟨after ++ '=' :: right, ?_, by rw [skipSpace_append hafter, hsign]⟩
  have hkeyed : skipSpace (key ++ (after ++ '=' :: right)) = key ++ (after ++ '=' :: right) := by
    obtain ⟨c, left, rfl, hc, -⟩ := hkey.head
    exact skipSpace_of_head (by rintro _ ⟨⟩; exact hc)
  rw [skipSpace_append hbefore, hkeyed]
  refine hkey.readKey_append fun c hc => ?_
  cases after with
  | nil =>
    obtain rfl : '=' = c := Option.some.inj hc
    rfl
  | cons d after =>
    obtain rfl : d = c := Option.some.inj hc
    rcases isSpace_iff.mp (hafter d List.mem_cons_self) with rfl | rfl <;> rfl

theorem Key.head?_ne {before key name : List Char} (hbefore : Spaces before) (hkey : Key key name) (rest : List Char) :
    (before ++ (key ++ rest)).head? ≠ some '\x7d' := by
  obtain ⟨c, left, rfl, -, hc⟩ := hkey.head
  have hspaces : before.head? ≠ some '\x7d' := fun h => absurd (hbefore _ (List.mem_of_head? h)) (by decide)
  exact head?_append_ne hspaces fun h => hc (Option.some.inj h)

theorem readEntries_eq {left right name : List Char} (h : text.head? ≠ some '\x7d')
    (hkey : readKey (skipSpace text) = some (name, left)) (hsign : skipSpace left = '=' :: right) (fuel : Nat)
    (read : List (String × Json)) :
    readEntries (fuel + 1) read text = (readValue fuel right).bind fun r => match r.2 with
      | ',' :: rest => readEntries fuel ((String.ofList name, r.1) :: read) rest
      | '\x7d' :: rest => some (((String.ofList name, r.1) :: read).reverse, rest)
      | _ => none := by
  rw [readEntries.eq_3 read text fuel fun _ htext => h (by rw [htext]; rfl), hkey]
  simp only [Option.bind_eq_bind, Option.bind_some]
  generalize skipSpace left = behind at hsign ⊢
  subst hsign
  rfl

/-- **What the grammar allows is read**, wherever it stands. What is behind a part of a list or a table is read as the
grammar spells it, so each case takes the fuel that is left to the parts. -/
theorem Spells.readFrom {phrase : Phrase} (h : Spells phrase text) : phrase.ReadFrom text := by
  induction h with
  | value hbefore hafter h ih => exact readFrom_value hbefore hafter h.head_bare ih
  | yes => exact readFrom_closed fun _ _ _ => rfl
  | no => exact readFrom_closed fun _ _ _ => rfl
  | number htext h => exact readFrom_plain htext (readPlain_of_number h)
  | plain htext h => exact readFrom_plain htext (readPlain_of_not_number h)
  | quoted h =>
    refine readFrom_closed fun fuel behind _ => ?_
    show (readQuoted _).map _ = _
    rw [readQuoted_eq_some_iff.mpr ⟨_, h, List.append_assoc ..⟩]
    rfl
  | char c => exact readFrom_closed fun _ _ _ => rfl
  | @list vs text _ ih =>
    refine readFrom_closed fun fuel behind hfuel => ?_
    show (readItems fuel [] (text ++ behind)).map _ = _
    rw [ih fuel [] behind hfuel]
    rfl
  | @table ms text _ ih =>
    refine readFrom_closed fun fuel behind hfuel => ?_
    show (readEntries fuel [] (text ++ behind)).map _ = _
    rw [ih fuel [] behind hfuel]
    rfl
  | noItems =>
    intro fuel read rest hfuel
    obtain ⟨fuel, rfl⟩ := Nat.exists_eq_add_of_le' (Nat.one_le_of_lt hfuel)
    rw [List.append_nil]
    rfl
  | @lastItem v text hne h ih =>
    intro fuel read rest hfuel
    obtain ⟨fuel, rfl⟩ := Nat.exists_eq_add_of_le' (Nat.one_le_of_lt hfuel)
    rw [List.length_append, List.length_singleton] at hfuel
    have hvalue := ih fuel (by omega) (ends_cons (.inr (.inl rfl)) rest)
    have hhead : (text ++ ']' :: rest).head? ≠ some ']' := by
      rw [List.head?_append_of_ne_nil _ hne]
      exact h.head?_ne
    rw [List.append_assoc, List.singleton_append, readItems_eq hhead, hvalue]
    simp
  | @item v vs text items h _ ih ihrest =>
    intro fuel read rest hfuel
    obtain ⟨fuel, rfl⟩ := Nat.exists_eq_add_of_le' (Nat.one_le_of_lt hfuel)
    rw [List.length_append, List.length_cons] at hfuel
    have hvalue := ih fuel (by omega) (ends_cons (.inl rfl) (items ++ rest))
    have hhead : (text ++ ',' :: (items ++ rest)).head? ≠ some ']' := head?_append_ne h.head?_ne (by simp)
    rw [List.append_assoc, List.cons_append, readItems_eq hhead, hvalue]
    refine (ihrest fuel (v :: read) rest (by omega)).trans ?_
    simp
  | noEntries =>
    intro fuel read rest hfuel
    obtain ⟨fuel, rfl⟩ := Nat.exists_eq_add_of_le' (Nat.one_le_of_lt hfuel)
    rw [List.append_nil]
    rfl
  | @lastEntry v before key name after text hbefore hkey hafter h ih =>
    intro fuel read rest hfuel
    obtain ⟨fuel, rfl⟩ := Nat.exists_eq_add_of_le' (Nat.one_le_of_lt hfuel)
    simp only [List.length_append, List.length_cons] at hfuel
    have hvalue := ih fuel (by omega) (ends_cons (.inr (.inr rfl)) rest)
    obtain ⟨left, hname, hsign⟩ := Key.readKey_around hbefore hkey hafter (text ++ '\x7d' :: rest)
    simp only [List.append_assoc, List.cons_append, List.nil_append]
    rw [readEntries_eq (Key.head?_ne hbefore hkey _) hname hsign, hvalue]
    simp
  | @entry v ms before key name after text entries hbefore hkey hafter h _ ih ihrest =>
    intro fuel read rest hfuel
    obtain ⟨fuel, rfl⟩ := Nat.exists_eq_add_of_le' (Nat.one_le_of_lt hfuel)
    simp only [List.length_append, List.length_cons] at hfuel
    have hvalue := ih fuel (by omega) (ends_cons (.inl rfl) (entries ++ rest))
    obtain ⟨left, hname, hsign⟩ := Key.readKey_around hbefore hkey hafter (text ++ ',' :: (entries ++ rest))
    simp only [List.append_assoc, List.cons_append]
    rw [readEntries_eq (Key.head?_ne hbefore hkey _) hname hsign, hvalue]
    refine (ihrest fuel ((String.ofList name, v) :: read) rest (by omega)).trans ?_
    simp

/-! ### What is read the grammar allows -/

theorem spells_of_plainText (h : PlainText text) : Spells (.bare (readPlain (trim text))) text := by
  by_cases hnumber : ∃ v, Number (trim text) v
  · obtain ⟨v, hv⟩ := hnumber
    rw [readPlain_of_number hv]
    exact .number h hv
  · have hv : ∀ v, ¬ Number (trim text) v := fun v hv => hnumber ⟨v, hv⟩
    rw [readPlain_of_not_number hv]
    exact .plain h hv

/-- What is read with some fuel is spelled by the text up to the rest. -/
structure Sound (fuel : Nat) : Prop where
  value {text rest : List Char} {v : Json} (h : readValue fuel text = some (v, rest)) :
    ∃ front, text = front ++ rest ∧ Spells (.value v) front
  bare {text rest : List Char} {v : Json} (hhead : ∀ c ∈ text.head?, isSpace c = false)
    (h : readBare fuel text = some (v, rest)) : ∃ front, text = front ++ rest ∧ Spells (.bare v) front
  items {text rest : List Char} {read vs : List Json} (h : readItems fuel read text = some (vs, rest)) :
    ∃ front items, text = front ++ rest ∧ vs = read.reverse ++ items ∧ Spells (.items items) front
  entries {text rest : List Char} {read ms : List (String × Json)} (h : readEntries fuel read text = some (ms, rest)) :
    ∃ front entries, text = front ++ rest ∧ ms = read.reverse ++ entries ∧ Spells (.entries entries) front

namespace Sound

variable {fuel : Nat} {v : Json}

theorem readValue_succ (hfuel : Sound fuel) (h : readValue (fuel + 1) text = some (v, rest)) :
    ∃ front, text = front ++ rest ∧ Spells (.value v) front := by
  rw [readValue] at h
  obtain ⟨⟨w, left⟩, hread, hpair⟩ := Option.map_eq_some_iff.mp h
  cases hpair
  obtain ⟨front, htext, hfront⟩ := hfuel.bare (head?_skipSpace text) hread
  refine ⟨_, ?_, .value (spaces_takeWhile text) (spaces_takeWhile left) hfront⟩
  calc text = text.takeWhile isSpace ++ skipSpace text := (takeWhile_append_skipSpace text).symm
    _ = text.takeWhile isSpace ++ (front ++ (left.takeWhile isSpace ++ skipSpace left)) := by
      rw [htext, takeWhile_append_skipSpace left]
    _ = text.takeWhile isSpace ++ front ++ left.takeWhile isSpace ++ skipSpace left := by
      simp only [List.append_assoc]

theorem readBare_succ (hfuel : Sound fuel) (hhead : ∀ c ∈ text.head?, isSpace c = false)
    (h : readBare (fuel + 1) text = some (v, rest)) : ∃ front, text = front ++ rest ∧ Spells (.bare v) front := by
  unfold readBare at h
  split at h
  · next left _ hword =>
    cases h
    exact ⟨_, dropLead?_eq_some_iff.mp hword, .yes⟩
  · next left _ hword =>
    cases h
    exact ⟨_, dropLead?_eq_some_iff.mp hword, .no⟩
  · next hyes hno =>
    split at h
    · next after =>
      obtain ⟨⟨ms, left⟩, hread, hpair⟩ := Option.map_eq_some_iff.mp h
      cases hpair
      obtain ⟨front, entries, rfl, rfl, hfront⟩ := hfuel.entries hread
      exact ⟨_, rfl, .table hfront⟩
    · next after =>
      obtain ⟨⟨vs, left⟩, hread, hpair⟩ := Option.map_eq_some_iff.mp h
      cases hpair
      obtain ⟨front, items, rfl, rfl, hfront⟩ := hfuel.items hread
      exact ⟨_, rfl, .list hfront⟩
    · next after =>
      obtain ⟨⟨s, left⟩, hread, hpair⟩ := Option.map_eq_some_iff.mp h
      cases hpair
      obtain ⟨inner, hinner, rfl⟩ := readQuoted_eq_some_iff.mp hread
      exact ⟨_, (List.append_assoc ('"' :: inner) ['"'] rest).symm, .quoted hinner⟩
    · next c after =>
      cases h
      exact ⟨_, rfl, .char c⟩
    · cases h
    · next hbrace hbracket hquote hchar hapostrophe =>
      cases h
      refine ⟨_, List.takeWhile_append_dropWhile.symm, spells_of_plainText ⟨fun c hc => ?_, fun c hc => ?_, ?_, ?_⟩⟩
      · simpa using List.mem_takeWhile_imp hc
      · rw [Option.mem_def, List.head?_takeWhile] at hc
        have hc := (Option.filter_eq_some_iff.mp hc).1
        obtain ⟨after, rfl⟩ := List.head?_eq_some_iff.mp hc
        refine ⟨hhead c rfl, ?_, ?_⟩
        · rintro rfl
          exact hquote after rfl
        · rintro rfl
          exact hapostrophe after rfl
      · exact not_prefix_of_dropLead? hyes (List.takeWhile_prefix _)
      · exact not_prefix_of_dropLead? hno (List.takeWhile_prefix _)

theorem readItems_succ (hfuel : Sound fuel) {read vs : List Json}
    (h : readItems (fuel + 1) read text = some (vs, rest)) :
    ∃ front items, text = front ++ rest ∧ vs = read.reverse ++ items ∧ Spells (.items items) front := by
  by_cases hhead : text.head? = some ']'
  · obtain ⟨after, rfl⟩ := List.head?_eq_some_iff.mp hhead
    cases h
    exact ⟨_, _, rfl, (List.append_nil _).symm, .noItems⟩
  · rw [readItems_eq hhead] at h
    obtain ⟨⟨v, behind⟩, hread, hnext⟩ := Option.bind_eq_some_iff.mp h
    obtain ⟨front, rfl, hfront⟩ := hfuel.value hread
    simp only at hnext
    split at hnext
    · next after =>
      obtain ⟨later, items, rfl, rfl, hlater⟩ := hfuel.items hnext
      exact ⟨_, _, by simp, by simp, .item hfront hlater⟩
    · next after =>
      cases hnext
      have hne : front ≠ [] := by
        rintro rfl
        exact hhead rfl
      exact ⟨_, _, by simp, by simp, .lastItem hne hfront⟩
    · cases hnext

theorem readEntries_succ (hfuel : Sound fuel) {read ms : List (String × Json)}
    (h : readEntries (fuel + 1) read text = some (ms, rest)) :
    ∃ front entries, text = front ++ rest ∧ ms = read.reverse ++ entries ∧ Spells (.entries entries) front := by
  by_cases hhead : text.head? = some '\x7d'
  · obtain ⟨after, rfl⟩ := List.head?_eq_some_iff.mp hhead
    cases h
    exact ⟨_, _, rfl, (List.append_nil _).symm, .noEntries⟩
  · rw [readEntries.eq_3 read text fuel fun _ htext => hhead (by rw [htext]; rfl)] at h
    obtain ⟨⟨name, left⟩, hname, h⟩ := Option.bind_eq_some_iff.mp h
    obtain ⟨key, hkeyed, hkey⟩ := exists_key_of_readKey hname
    simp only at h
    split at h
    · next right hsign =>
      obtain ⟨⟨v, behind⟩, hread, hnext⟩ := Option.bind_eq_some_iff.mp h
      obtain ⟨front, rfl, hfront⟩ := hfuel.value hread
      have htext : text = text.takeWhile isSpace ++ key ++ left.takeWhile isSpace ++ '=' :: (front ++ behind) := by
        calc text = text.takeWhile isSpace ++ skipSpace text := (takeWhile_append_skipSpace text).symm
          _ = text.takeWhile isSpace ++ (key ++ (left.takeWhile isSpace ++ skipSpace left)) := by
            rw [hkeyed, takeWhile_append_skipSpace left]
          _ = _ := by rw [hsign, List.append_assoc, List.append_assoc]
      simp only at hnext
      split at hnext
      · next after =>
        obtain ⟨later, entries, rfl, rfl, hlater⟩ := hfuel.entries hnext
        exact ⟨_, _, htext.trans (by simp), by simp,
          .entry (spaces_takeWhile text) hkey (spaces_takeWhile left) hfront hlater⟩
      · next after =>
        cases hnext
        exact ⟨_, _, htext.trans (by simp), by simp,
          .lastEntry (spaces_takeWhile text) hkey (spaces_takeWhile left) hfront⟩
      · cases hnext
    · cases h

theorem zero : Sound 0 where
  value h := by cases h
  bare _ h := by cases h
  items h := by cases h
  entries h := by cases h

end Sound

/-- **What is read the grammar allows**, whatever the fuel. -/
theorem sound (fuel : Nat) : Sound fuel := by
  induction fuel with
  | zero => exact .zero
  | succ fuel ih => exact ⟨ih.readValue_succ, ih.readBare_succ, ih.readItems_succ, ih.readEntries_succ⟩

/-- **A variable's text is read as the grammar says**: as the value that it spells. -/
theorem read_of_spells {v : Json} (h : Spells (.value v) text) : read text = v := by
  have hread := h.readFrom (2 * text.length + 2) (Nat.le_refl _) ends_nil
  rw [List.append_nil] at hread
  unfold read
  rw [hread]

/-- **A text that spells no value stands for itself.** -/
theorem read_of_not_spells (h : ∀ v, ¬ Spells (.value v) text) : read text = .str (String.ofList text) := by
  unfold read
  split
  · next v hread =>
    obtain ⟨front, htext, hfront⟩ := (sound _).value hread
    rw [List.append_nil] at htext
    exact absurd (htext ▸ hfront) (h v)
  · rfl

end Tracing.Variable
