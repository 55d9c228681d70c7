import Tracing.Proofs.Propagation.DatadogTags
import Tracing.Propagation.TraceContext

/-!
# The member of a state header

The member `dd=s:2;o:rum;p:..;t.dm:-4` that is written for a context is found again and read whole
(`readState_writeState`), if its characters fit into one (`Fitting`). Values are encoded, so that no character
of theirs ends an item, and most characters are still the same when they are decoded
(`decodeValue_encodeValue`); the keys of tags are copied as they are (`mem_tagItems`).
-/

namespace Tracing.TraceContext

open Text
open Datadog (isTagChar isTagChar_iff toNat_ne_of_ne_space)

variable {out : Outgoing}

/-! ### Values -/

/-- Characters of a value that are not kept: what ends an item or the member, what stands for the equals
sign, and all but printable ASCII. -/
def IsLost (c : Char) : Prop :=
  c = ',' ∨ c = ';' ∨ c = '~' ∨ ¬ (0x20 ≤ c.toNat ∧ c.toNat ≤ 0x7e)

instance (c : Char) : Decidable (IsLost c) := inferInstanceAs (Decidable (_ ∨ _))

/-- What has become of a character of a value when it is read again. -/
def carriedChar (c : Char) : Char := if IsLost c then '_' else c

/-- What has become of a value when it is read again. -/
def carried (value : String) : String := String.ofList (value.toList.map carriedChar)

theorem isPrintable_iff (c : Char) : isPrintable c = true ↔ 0x20 ≤ c.toNat ∧ c.toNat ≤ 0x7e := by
  simp [isPrintable]

theorem encodeChar_cases (c : Char) : (IsLost c ∧ encodeChar c = '_') ∨ (c = '=' ∧ encodeChar c = '~') ∨
    (¬ IsLost c ∧ c ≠ '=' ∧ encodeChar c = c) := by
  unfold encodeChar IsLost
  rw [← isPrintable_iff]
  by_cases hequals : c = '='
  · exact .inr (.inl ⟨hequals, by rw [if_pos hequals]⟩)
  · rw [if_neg hequals]
    by_cases hends : c = ',' ∨ c = ';' ∨ c = '~'
    · exact .inl ⟨by tauto, by rw [if_pos hends]⟩
    · rw [if_neg hends]
      cases hprint : isPrintable c with
      | true => exact .inr (.inr ⟨by tauto, hequals, rfl⟩)
      | false => exact .inl ⟨.inr (.inr (.inr Bool.false_ne_true)), rfl⟩

/-- Decoding undoes encoding, apart from the characters that are lost. -/
theorem decodeValue_encodeValue (value : List Char) :
    decodeValue (encodeValue value) = value.map carriedChar := by
  unfold decodeValue encodeValue
  rw [List.map_map]
  refine List.map_congr_left fun c _ => ?_
  simp only [Function.comp]
  unfold carriedChar
  rcases encodeChar_cases c with ⟨hlost, heq⟩ | ⟨rfl, heq⟩ | ⟨hkept, -, heq⟩
  · rw [heq, if_pos hlost]
    decide
  · rw [heq]
    decide
  · have htilde : c ≠ '~' := fun h => hkept (.inr (.inr (.inl h)))
    rw [heq, if_neg htilde, if_neg hkept]

theorem encodeChar_spec (c : Char) : isTagChar (encodeChar c) = true ∧ encodeChar c ≠ ';' ∧
    (encodeChar c = ' ' → c = ' ') := by
  rcases encodeChar_cases c with ⟨-, heq⟩ | ⟨-, heq⟩ | ⟨hkept, -, heq⟩
  · rw [heq]
    exact ⟨by decide, by decide, fun h => absurd h (by decide)⟩
  · rw [heq]
    exact ⟨by decide, by decide, fun h => absurd h (by decide)⟩
  · unfold IsLost at hkept
    rw [heq, isTagChar_iff]
    exact ⟨by tauto, fun h => hkept (.inr (.inl h)), id⟩

theorem isTagChar_of_mem_encodeValue {value : List Char} {c : Char} (h : c ∈ encodeValue value) :
    isTagChar c = true ∧ c ≠ ';' := by
  obtain ⟨d, -, rfl⟩ := List.mem_map.mp h
  exact ⟨(encodeChar_spec d).1, (encodeChar_spec d).2.1⟩

/-! ### Items -/

/-- The key of a propagated tag by what follows the common start. -/
def tagKey (rest : List Char) : String := String.ofList (propagatedLead.toList ++ rest)

/-- The name of the item for a propagated tag. -/
def itemName (rest : List Char) : List Char := "t.".toList ++ rest

/-- The items for the tags of a context. -/
def tagItems (out : Outgoing) : List (List Char) := out.tags.entries.filterMap itemOfTag

theorem eq_tagKey {key : String} {rest : List Char} (h : key.toList = propagatedLead.toList ++ rest) :
    key = tagKey rest := by
  unfold tagKey
  rw [← h, String.ofList_toList]

theorem mem_tagItems {item : List Char} : item ∈ tagItems out ↔ ∃ rest value,
    (tagKey rest, value) ∈ out.tags.entries ∧ tagKey rest ≠ higherBitsTag ∧
      item = itemName rest ++ ':' :: encodeValue value.toList := by
  unfold tagItems
  rw [List.mem_filterMap]
  constructor
  · rintro ⟨tag, htag, hitem⟩
    unfold itemOfTag at hitem
    split at hitem
    · cases hitem
    · next hne =>
      obtain ⟨rest, hrest, rfl⟩ := Option.map_eq_some_iff.mp hitem
      have hkey : tag.1 = tagKey rest := eq_tagKey (eq_append_of_dropLead? hrest)
      exact ⟨rest, tag.2, hkey ▸ htag, hkey ▸ hne, rfl⟩
  · rintro ⟨rest, value, htag, hne, rfl⟩
    refine ⟨_, htag, ?_⟩
    have hrest : dropLead? propagatedLead.toList (tagKey rest).toList = some rest := by
      rw [tagKey, String.toList_ofList, dropLead?_append]
    unfold itemOfTag
    rw [if_neg hne, hrest]
    rfl

/-- Contexts whose tags fit into the member as far as characters go: keys of printable ASCII without the
comma, and values that a blank does not end. -/
structure Fitting (out : Outgoing) : Prop where
  keys : ∀ tag ∈ out.tags.entries, ∀ rest, tag.1.toList = propagatedLead.toList ++ rest →
    ∀ c ∈ rest, isTagChar c = true
  values : ∀ tag ∈ out.tags.entries, tag.2.toList.getLast? ≠ some ' '

theorem isTagChar_of_mem_item (h : Fitting out) {item : List Char} (hitem : item ∈ stateItems out)
    {c : Char} (hc : c ∈ item) : isTagChar c = true := by
  unfold stateItems at hitem
  simp only [List.mem_append, Option.mem_toList, Option.map_eq_some_iff, List.mem_singleton] at hitem
  have hlead : ∀ lead : List Char, lead.all isTagChar = true → ∀ d ∈ lead, isTagChar d = true :=
    fun lead hall => List.all_eq_true.mp hall
  rcases hitem with ((⟨p, -, rfl⟩ | ⟨origin, -, rfl⟩) | rfl) | hitem
  · refine hlead ("s:".toList ++ p.write) ?_ c hc
    cases p <;> decide
  · rcases List.mem_append.mp hc with hc | hc
    · exact hlead "o:".toList (by decide) c hc
    · exact (isTagChar_of_mem_encodeValue hc).1
  · rcases List.mem_append.mp hc with hc | hc
    · exact hlead "p:".toList (by decide) c hc
    · obtain ⟨hlow, hhigh⟩ := Hex.visible_of_mem_write hc
      refine (isTagChar_iff c).mpr ⟨by omega, by omega, ?_⟩
      rintro rfl
      exact absurd hlow (by decide)
  · obtain ⟨rest, value, htag, -, rfl⟩ := mem_tagItems.mp hitem
    unfold itemName at hc
    simp only [List.mem_append, List.mem_cons] at hc
    rcases hc with (hc | hc) | rfl | hc
    · exact hlead "t.".toList (by decide) c hc
    · exact h.keys _ htag rest (by rw [tagKey, String.toList_ofList]) c hc
    · decide
    · exact (isTagChar_of_mem_encodeValue hc).1

theorem getLast?_item (h : Fitting out) {item : List Char}
    (hitem : item ∈ ("p:".toList ++ out.spanId.toHex) :: tagItems out) :
    ∃ c, item.getLast? = some c ∧ isBlank c = false := by
  rcases List.mem_cons.mp hitem with rfl | hitem
  · obtain ⟨front, d, hhex⟩ : ∃ front d, out.spanId.toHex = front ++ [d] := ⟨_, _, rfl⟩
    have hd : d ∈ Hex.write 16 out.spanId.toNat := by
      change d ∈ out.spanId.toHex
      rw [hhex]
      simp
    have hvisible := Hex.visible_of_mem_write hd
    refine ⟨d, ?_, isBlank_of_visible (by omega) (by omega)⟩
    rw [hhex, ← List.append_assoc, List.getLast?_concat]
  · obtain ⟨rest, value, htag, -, rfl⟩ := mem_tagItems.mp hitem
    have hvalue := h.values _ htag
    rw [List.getLast?_append_of_ne_nil _ (List.cons_ne_nil _ _), List.getLast?_cons]
    refine ⟨_, rfl, ?_⟩
    unfold encodeValue
    rw [List.getLast?_map]
    cases hlast : value.toList.getLast? with
    | none => decide
    | some c =>
      obtain ⟨hmember, -, hspace⟩ := encodeChar_spec c
      obtain ⟨hlow, hhigh, -⟩ := (isTagChar_iff _).mp hmember
      have hne : (encodeChar c).toNat ≠ 0x20 := toNat_ne_of_ne_space fun heq =>
        hvalue (hlast.trans (congrArg some (hspace heq)))
      exact isBlank_of_visible (by change 0x21 ≤ (encodeChar c).toNat; omega) hhigh

theorem stateItems_ne_nil (out : Outgoing) : stateItems out ≠ [] := by
  unfold stateItems
  simp

/-- What is read of the items that are written. -/
def readBack (out : Outgoing) : State := stateOfItems (readItems (joinWith [';'] (stateItems out)))

/-- **The member is read whole.** -/
theorem readState_writeState (h : Fitting out) :
    (readState (String.ofList (writeState out))).value = some (readBack out) := by
  have hchars : ∀ c ∈ writeState out, isTagChar c = true := by
    intro c hc
    rcases List.mem_append.mp hc with hc | hc
    · have hlead : "dd=".toList.all isTagChar = true := by decide
      exact List.all_eq_true.mp hlead c hc
    · rcases mem_joinWith hc with hc | ⟨item, hitem, hc⟩
      · rw [List.mem_singleton.mp hc]
        decide
      · exact isTagChar_of_mem_item h hitem hc
  have hprint : (writeState out).all isPrintable = true := by
    refine List.all_eq_true.mpr fun c hc => ?_
    have hmember := (isTagChar_iff c).mp (hchars c hc)
    exact (isPrintable_iff c).mpr ⟨hmember.1, hmember.2.1⟩
  have hcomma : ',' ∉ writeState out := fun hmem => absurd (hchars _ hmem) (by decide)
  have htrim : trim (writeState out) = writeState out := by
    refine trim_eq_self (fun c hc => ?_) (fun c hc => ?_)
    · have hhead : (writeState out).head? = some 'd' := rfl
      rw [hhead] at hc
      cases hc
      decide
    · -- the last item is the one for the span or one for a tag
      obtain ⟨front, last, hitems⟩ : ∃ front last,
          ("p:".toList ++ out.spanId.toHex) :: tagItems out = front ++ [last] :=
        ⟨_, _, (List.dropLast_concat_getLast (List.cons_ne_nil _ _)).symm⟩
      have hmem : last ∈ ("p:".toList ++ out.spanId.toHex) :: tagItems out := by
        rw [hitems]
        exact List.mem_append_right _ (List.mem_singleton_self last)
      obtain ⟨d, hlast, hblank⟩ := getLast?_item h hmem
      have hne : last ≠ [] := by
        rintro rfl
        cases hlast
      have hend : (writeState out).getLast? = some d := by
        unfold writeState stateItems
        rw [List.append_assoc _ [_], List.singleton_append]
        change ("dd=".toList ++ joinWith [';'] (_ ++ (_ :: tagItems out))).getLast? = _
        rw [hitems, ← List.append_assoc, List.getLast?_append, getLast?_joinWith _ _ hne, hlast]
        rfl
      rw [hend] at hc
      cases hc
      exact hblank
  unfold readState
  rw [String.toList_ofList, if_pos hprint]
  unfold findMember
  rw [splitOn_of_not_mem hcomma, List.map_singleton, htrim, List.findSome?_singleton, writeState,
    dropLead?_append]
  rfl

end Tracing.TraceContext
