import Tracing.Proofs.Dict
import Tracing.Proofs.Propagation.DatadogExtract
import Tracing.Proofs.Propagation.StateHeader

/-!
# The items of a state header

What is read of the items `s:2`, `o:rum`, `p:..` and `t.dm:-4` that are written for a context (`readBack`). An
item whose name and value hold no separator is read as itself (`itemEntries_of_free`). The keys of tags are the
only part that is not encoded: a key with a semicolon in it is read as several items.

* `priority_readBack`, `origin_readBack`: priority and origin come back, unless the key of a tag hides an item
  of their name (`HidesItem`);
* `get?_tags_readBack`: the tags come back, if no key of theirs holds a separator (`Clean`).
-/

namespace Tracing.TraceContext

open Text
open Datadog (dropUnless get?_dropUnless)

variable {out : Outgoing}

/-! ### Entries -/

/-- The name and the value of an item. -/
def readItem (item : List Char) : Option (String × String) :=
  (splitOnce ':' item).map fun (name, value) => (String.ofList name, String.ofList value)

/-- The entries that are read of a written item: one for each piece between semicolons. -/
def itemEntries (item : List Char) : List (String × String) := (splitOn ';' item).filterMap readItem

theorem readItems_joinWith {items : List (List Char)} (h : items ≠ []) :
    readItems (joinWith [';'] items) = .ofList (items.flatMap itemEntries) := by
  unfold readItems
  rw [splitOn_joinWith_flatMap h, List.map_filterMap, List.filterMap_flatMap]
  rfl

theorem itemEntries_of_free {name value : List Char} (hname : ':' ∉ name ∧ ';' ∉ name) (hvalue : ';' ∉ value) :
    itemEntries (name ++ ':' :: value) = [(String.ofList name, String.ofList value)] := by
  have hfree : ';' ∉ name ++ ':' :: value := by
    simp [hname.2, hvalue]
  unfold itemEntries readItem
  rw [splitOn_of_not_mem hfree, List.filterMap_cons, splitOnce_append hname.1]
  rfl

theorem semicolon_not_mem_encodeValue (value : List Char) : ';' ∉ encodeValue value :=
  fun h => (isTagChar_of_mem_encodeValue h).2 rfl

/-- The entries for the priority. -/
def priorityEntries (out : Outgoing) : List (String × String) :=
  (out.priority.map fun p => ("s", String.ofList p.write)).toList

/-- The entries for the origin. -/
def originEntries (out : Outgoing) : List (String × String) :=
  (out.origin.map fun origin => ("o", String.ofList (encodeValue origin.toList))).toList

/-- The entry for the span. -/
def spanEntry (out : Outgoing) : String × String := ("p", String.ofList out.spanId.toHex)

/-- The entries that the items for tags are read as. -/
def tagEntries (out : Outgoing) : List (String × String) := (tagItems out).flatMap itemEntries

theorem flatMap_stateItems (out : Outgoing) : (stateItems out).flatMap itemEntries =
    priorityEntries out ++ (originEntries out ++ (spanEntry out :: tagEntries out)) := by
  have hpriority : (out.priority.map fun p => "s:".toList ++ p.write).toList.flatMap itemEntries =
      priorityEntries out := by
    unfold priorityEntries
    cases out.priority with
    | none => rfl
    | some p => cases p <;> decide
  have horigin : (out.origin.map fun o => "o:".toList ++ encodeValue o.toList).toList.flatMap itemEntries =
      originEntries out := by
    unfold originEntries
    cases out.origin with
    | none => rfl
    | some origin =>
      have hitem := @itemEntries_of_free ['o'] (encodeValue origin.toList) (by decide)
        (semicolon_not_mem_encodeValue origin.toList)
      exact (List.append_nil _).trans hitem
  have hspan : itemEntries ("p:".toList ++ out.spanId.toHex) = [spanEntry out] := by
    have htext (text : List Char) : "p:".toList ++ text = ['p'] ++ ':' :: text := rfl
    have hname : ':' ∉ ['p'] ∧ ';' ∉ ['p'] := by decide
    have hfree : ';' ∉ out.spanId.toHex := fun hmem =>
      absurd (Hex.isDigit_of_mem_write (show _ ∈ Hex.write 16 out.spanId.toNat from hmem)) (by decide)
    rw [htext, itemEntries_of_free hname hfree]
    rfl
  unfold stateItems
  rw [List.flatMap_append, List.flatMap_append, List.flatMap_append, hpriority, horigin,
    List.flatMap_singleton, hspan]
  simp [tagEntries, tagItems]

/-! ### Priority and origin -/

/-- Whether a key of a propagated tag has the whole name of an item behind a semicolon, so that its item is
read as one of that name. -/
def HidesItem (name : Char) (key : String) : Prop :=
  ∃ before after, key = tagKey (before ++ ';' :: name :: after) ∧ (after = [] ∨ after.head? = some ':')

theorem not_hidesItem {name : Char} {key : String} (h : ';' ∉ key.toList) : ¬ HidesItem name key := by
  rintro ⟨before, after, rfl, -⟩
  exact h (by simp [tagKey])

theorem eq_of_itemName {rest front back : List Char} (h : itemName rest = front ++ ';' :: back) :
    ∃ before, rest = before ++ ';' :: back := by
  have hlead : ';' ∉ "t.".toList := by decide
  rcases List.append_eq_append_iff.mp h with ⟨before, -, hrest⟩ | ⟨gap, hname, htail⟩
  · exact ⟨before, hrest⟩
  · cases gap with
    | nil => exact ⟨[], htail.symm⟩
    | cons c gap =>
      obtain rfl := (List.cons.inj htail).1
      exact absurd (by simp [hname]) hlead

/-- A whole name behind a semicolon of the item for a tag stands in the key of the tag. -/
theorem hidesItem_of_append_eq {rest value front after : List Char} {name : Char} (hname : name ≠ ':')
    (h : itemName rest ++ ':' :: encodeValue value = front ++ (';' :: name :: ':' :: after)) :
    HidesItem name (tagKey rest) := by
  rcases List.append_eq_append_iff.mp h with ⟨gap, -, hvalue⟩ | ⟨gap, hitem, htail⟩
  · -- the value holds no semicolon
    have hmem : ';' ∈ ':' :: encodeValue value := by simp [hvalue]
    rcases List.mem_cons.mp hmem with heq | hmem
    · exact absurd heq (by decide)
    · exact absurd hmem (semicolon_not_mem_encodeValue value)
  · -- so the key holds it, and what is behind it up to the colon
    match gap, hitem, htail with
    | [], _, htail => exact absurd (List.cons.inj htail).1 (by decide)
    | [c], _, htail => exact absurd (List.cons.inj (List.cons.inj htail).2).1 hname
    | c :: d :: gap, hitem, htail =>
      simp only [List.cons_append, List.cons.injEq] at htail
      obtain ⟨rfl, rfl, htail⟩ := htail
      have hafter : gap = [] ∨ gap.head? = some ':' := by
        cases gap with
        | nil => exact .inl rfl
        | cons c gap => exact .inr (congrArg some (List.cons.inj htail).1.symm)
      obtain ⟨before, hrest⟩ := eq_of_itemName hitem
      exact ⟨before, gap, congrArg tagKey hrest, hafter⟩

/-- The item for a tag only is read as one of another kind if the key of the tag hides it. -/
theorem hidesItem_of_mem {rest value : List Char} {name : Char} {entry : String × String}
    (h : entry ∈ itemEntries (itemName rest ++ ':' :: encodeValue value))
    (hname : entry.1 = String.ofList [name]) : HidesItem name (tagKey rest) := by
  obtain ⟨piece, hpiece, hread⟩ := List.mem_filterMap.mp h
  obtain ⟨⟨before, after⟩, hsplit, rfl⟩ := Option.map_eq_some_iff.mp hread
  obtain ⟨rfl, hfree⟩ := splitOnce_eq_some hsplit
  obtain rfl : before = [name] := String.ofList_injective hname
  obtain ⟨front, back, htext, hfront, -⟩ := mem_splitOn hpiece
  rcases hfront with rfl | hfront
  · -- the first piece starts with the name of a tag
    have hsecond := congrArg (fun text => text[1]?) htext
    exact absurd (Option.some.inj hsecond) (by decide)
  · obtain ⟨front, rfl⟩ := List.getLast?_eq_some_iff.mp hfront
    have htext : itemName rest ++ ':' :: encodeValue value =
        front ++ (';' :: name :: ':' :: (after ++ back)) := by simpa using htext
    exact hidesItem_of_append_eq (fun heq => hfree (by simp [heq])) htext

theorem name_ne_of_not_hidesItem {name : Char} (h : ∀ tag ∈ out.tags.entries, ¬ HidesItem name tag.1) :
    ∀ entry ∈ tagEntries out, entry.1 ≠ String.ofList [name] := by
  intro entry hentry hname
  obtain ⟨item, hitem, hentry⟩ := List.mem_flatMap.mp hentry
  obtain ⟨rest, value, htag, -, rfl⟩ := mem_tagItems.mp hitem
  exact h _ htag (hidesItem_of_mem hentry hname)

theorem name_of_mem_priorityEntries {entry : String × String} (h : entry ∈ priorityEntries out) :
    entry.1 = "s" := by
  obtain ⟨p, -, rfl⟩ := Option.map_eq_some_iff.mp (Option.mem_toList.mp h)
  rfl

theorem name_of_mem_originEntries {entry : String × String} (h : entry ∈ originEntries out) :
    entry.1 = "o" := by
  obtain ⟨origin, -, rfl⟩ := Option.map_eq_some_iff.mp (Option.mem_toList.mp h)
  rfl

theorem readItems_stateItems (out : Outgoing) : readItems (joinWith [';'] (stateItems out)) =
    .ofList (priorityEntries out ++ (originEntries out ++ (spanEntry out :: tagEntries out))) := by
  rw [readItems_joinWith (stateItems_ne_nil out), flatMap_stateItems]

/-- **The priority comes back**, unless the key of a tag hides one. -/
theorem priority_readBack (h : ∀ tag ∈ out.tags.entries, ¬ HidesItem 's' tag.1) :
    (readBack out).priority = out.priority := by
  have hlater : ∀ entry ∈ originEntries out ++ (spanEntry out :: tagEntries out), entry.1 ≠ "s" := by
    intro entry hentry
    rcases List.mem_append.mp hentry with hentry | hentry
    · rw [name_of_mem_originEntries hentry]
      decide
    · rcases List.mem_cons.mp hentry with rfl | hentry
      · have hspan : "p" ≠ "s" := by decide
        exact hspan
      · exact name_ne_of_not_hidesItem h entry hentry
  change ((readItems (joinWith [';'] (stateItems out))).get? "s").bind _ = _
  rw [readItems_stateItems, Dict.get?_ofList_append hlater]
  unfold priorityEntries
  cases out.priority with
  | none => rfl
  | some p => cases p <;> decide

/-- **The origin comes back**, but for the characters that are lost, unless the key of a tag hides one. -/
theorem origin_readBack (h : ∀ tag ∈ out.tags.entries, ¬ HidesItem 'o' tag.1) :
    (readBack out).origin = out.origin.map carried := by
  have hlater : ∀ entry ∈ spanEntry out :: tagEntries out, entry.1 ≠ "o" := by
    intro entry hentry
    rcases List.mem_cons.mp hentry with rfl | hentry
    · have hspan : "p" ≠ "o" := by decide
      exact hspan
    · exact name_ne_of_not_hidesItem h entry hentry
  change ((readItems (joinWith [';'] (stateItems out))).get? "o").map _ = _
  rw [readItems_stateItems, ← List.append_assoc, Dict.get?_ofList_append hlater]
  unfold originEntries
  cases out.origin with
  | none =>
    have hpriority : ∀ entry ∈ priorityEntries out, entry.1 ≠ "o" := by
      intro entry hentry
      rw [name_of_mem_priorityEntries hentry]
      decide
    change ((Dict.ofList (priorityEntries out ++ [])).get? "o").map _ = _
    rw [← List.nil_append (_ ++ []), List.append_nil, Dict.get?_ofList_append hpriority]
    rfl
  | some origin =>
    change ((Dict.ofList (priorityEntries out ++ [_])).get? "o").map _ = _
    rw [Dict.get?_ofList_concat, Option.map_some, String.toList_ofList, decodeValue_encodeValue]
    rfl

/-! ### Tags -/

theorem tagsOfItems_eq (items : Dict String) : tagsOfItems items =
    dropUnless decisionMakerTag isDecisionMaker (.ofList (items.entries.filterMap tagOfItem)) := by
  unfold tagsOfItems dropUnless
  simp only
  cases (Dict.ofList (items.entries.filterMap tagOfItem)).get? decisionMakerTag <;> rfl

/-- No key of a propagated tag holds what ends an item or its name. -/
def Clean (out : Outgoing) : Prop := ∀ tag ∈ out.tags.entries, ∀ rest,
  tag.1.toList = propagatedLead.toList ++ rest → ':' ∉ rest ∧ ';' ∉ rest

theorem not_hidesItem_of_clean (h : Clean out) (name : Char) :
    ∀ tag ∈ out.tags.entries, ¬ HidesItem name tag.1 := by
  rintro tag htag ⟨before, after, hkey, -⟩
  have hrest := h tag htag _ (by rw [hkey, tagKey, String.toList_ofList])
  exact hrest.2 (by simp)

/-- The entry that is read of the item for a tag. -/
def tagEntry (rest : List Char) (value : String) : String × String :=
  (String.ofList (itemName rest), String.ofList (encodeValue value.toList))

theorem mem_tagEntries (h : Clean out) {entry : String × String} : entry ∈ tagEntries out ↔
    ∃ rest value, (tagKey rest, value) ∈ out.tags.entries ∧ tagKey rest ≠ higherBitsTag ∧
      entry = tagEntry rest value := by
  have hread : ∀ {rest value}, (tagKey rest, value) ∈ out.tags.entries →
      itemEntries (itemName rest ++ ':' :: encodeValue value.toList) = [tagEntry rest value] := by
    intro rest value htag
    obtain ⟨hcolon, hsemicolon⟩ := h _ htag rest (by rw [tagKey, String.toList_ofList])
    have hname : ':' ∉ itemName rest ∧ ';' ∉ itemName rest := by
      have hlead : ':' ∉ "t.".toList ∧ ';' ∉ "t.".toList := by decide
      unfold itemName
      simp only [List.mem_append, not_or]
      exact ⟨⟨hlead.1, hcolon⟩, hlead.2, hsemicolon⟩
    exact itemEntries_of_free hname (semicolon_not_mem_encodeValue _)
  unfold tagEntries
  rw [List.mem_flatMap]
  constructor
  · rintro ⟨item, hitem, hentry⟩
    obtain ⟨rest, value, htag, hne, rfl⟩ := mem_tagItems.mp hitem
    rw [hread htag, List.mem_singleton] at hentry
    exact ⟨rest, value, htag, hne, hentry⟩
  · rintro ⟨rest, value, htag, hne, rfl⟩
    exact ⟨_, mem_tagItems.mpr ⟨rest, value, htag, hne, rfl⟩, by rw [hread htag]; exact List.mem_singleton_self _⟩

theorem tagOfItem_tagEntry {rest : List Char} (value : String) (h : tagKey rest ≠ higherBitsTag) :
    tagOfItem (tagEntry rest value) = some (tagKey rest, carried value) := by
  have hlead : dropLead? "t.".toList (tagEntry rest value).1.toList = some rest := by
    rw [tagEntry, @String.toList_ofList (itemName rest), itemName, dropLead?_append]
  unfold tagOfItem
  rw [hlead]
  change (if tagKey rest = higherBitsTag then none else some (tagKey rest, _)) = _
  rw [if_neg h, tagEntry, String.toList_ofList, decodeValue_encodeValue]
  rfl

theorem tagOfItem_eq_none {entry : String × String} (h : entry.1 = "s" ∨ entry.1 = "o" ∨ entry.1 = "p") :
    tagOfItem entry = none := by
  have hnone : ∀ name ∈ ["s", "o", "p"], dropLead? "t.".toList name.toList = none := by decide
  unfold tagOfItem
  rw [hnone entry.1 (by simpa using h)]

theorem name_or_mem_tagEntries {entry : String × String}
    (h : entry ∈ priorityEntries out ++ (originEntries out ++ (spanEntry out :: tagEntries out))) :
    (entry.1 = "s" ∨ entry.1 = "o" ∨ entry.1 = "p") ∨ entry ∈ tagEntries out := by
  rcases List.mem_append.mp h with h | h
  · exact .inl (.inl (name_of_mem_priorityEntries h))
  rcases List.mem_append.mp h with h | h
  · exact .inl (.inr (.inl (name_of_mem_originEntries h)))
  rcases List.mem_cons.mp h with rfl | h
  · exact .inl (.inr (.inr rfl))
  · exact .inr h

/-- The tags that are read of the items, before the decision maker is checked. -/
def itemTags (out : Outgoing) : List (String × String) :=
  (readItems (joinWith [';'] (stateItems out))).entries.filterMap tagOfItem

theorem mem_itemTags (h : Clean out) {tag : String × String} : tag ∈ itemTags out ↔
    ∃ rest value, (tagKey rest, value) ∈ out.tags.entries ∧ tagKey rest ≠ higherBitsTag ∧
      tag = (tagKey rest, carried value) := by
  unfold itemTags
  rw [readItems_stateItems, List.mem_filterMap]
  constructor
  · rintro ⟨entry, hentry, htag⟩
    rcases name_or_mem_tagEntries (Dict.mem_of_mem_ofList hentry) with hname | hentry
    · rw [tagOfItem_eq_none hname] at htag
      cases htag
    · obtain ⟨rest, value, hmem, hne, rfl⟩ := (mem_tagEntries h).mp hentry
      rw [tagOfItem_tagEntry value hne] at htag
      exact ⟨rest, value, hmem, hne, (Option.some.inj htag).symm⟩
  · rintro ⟨rest, value, htag, hne, rfl⟩
    refine ⟨tagEntry rest value, ?_, tagOfItem_tagEntry value hne⟩
    have hentry : tagEntry rest value ∈ tagEntries out := (mem_tagEntries h).mpr ⟨rest, value, htag, hne, rfl⟩
    refine Dict.mem_of_get? (Dict.get?_ofList_of_mem ?_ fun other hother => ?_)
    · exact List.mem_append_right _ (List.mem_append_right _ (List.mem_cons_of_mem _ hentry))
    · -- a key has one value, so that no two items have the name of this one
      rcases name_or_mem_tagEntries hother with hname | hother
      · have hnone := @tagOfItem_eq_none (tagEntry rest value) hname
        rw [tagOfItem_tagEntry value hne] at hnone
        cases hnone
      · obtain ⟨rest', value', htag', -, heq⟩ := (mem_tagEntries h).mp hother
        obtain ⟨hname, rfl⟩ := Prod.mk.inj heq
        obtain rfl : rest = rest' := List.append_cancel_left (String.ofList_injective hname)
        have hvalue := (Dict.get?_of_mem htag').symm.trans (Dict.get?_of_mem htag)
        rw [Option.some.inj hvalue]

theorem isPropagated_iff {key : String} :
    Datadog.isPropagated key = true ↔ ∃ rest, key = tagKey rest ∧ key ≠ higherBitsTag := by
  unfold Datadog.isPropagated
  rw [Bool.and_eq_true, List.isPrefixOf_iff_prefix, bne_iff_ne]
  constructor
  · rintro ⟨⟨rest, hrest⟩, hne⟩
    exact ⟨rest, eq_tagKey hrest.symm, hne⟩
  · rintro ⟨rest, rfl, hne⟩
    exact ⟨⟨rest, by rw [tagKey, String.toList_ofList]⟩, hne⟩

/-- What becomes of the tags of a context: the propagated ones are carried, a decision maker only if it is
still one, and the tag of the upper half is none of them. -/
def carriedTag? (out : Outgoing) (key : String) : Option String :=
  if Datadog.isPropagated key then
    ((out.tags.get? key).map carried).filter fun value =>
      key != decisionMakerTag || isDecisionMaker value.toList
  else none

theorem get?_itemTags (h : Clean out) (key : String) : (Dict.ofList (itemTags out)).get? key =
    if Datadog.isPropagated key then (out.tags.get? key).map carried else none := by
  refine Option.ext fun found => ⟨fun hfound => ?_, fun hfound => ?_⟩
  · obtain ⟨rest, value, htag, hne, heq⟩ := (mem_itemTags h).mp (Dict.mem_of_get?_ofList hfound)
    obtain ⟨rfl, rfl⟩ := Prod.mk.inj heq
    rw [if_pos (isPropagated_iff.mpr ⟨rest, rfl, hne⟩), Dict.get?_of_mem htag]
    rfl
  · split at hfound
    · next hpropagated =>
      obtain ⟨rest, rfl, hne⟩ := isPropagated_iff.mp hpropagated
      obtain ⟨value, hget, rfl⟩ := Option.map_eq_some_iff.mp hfound
      refine Dict.get?_ofList_of_mem ((mem_itemTags h).mpr ⟨rest, value, Dict.mem_of_get? hget, hne, rfl⟩)
        fun other hother => ?_
      obtain ⟨rest', value', htag', -, heq⟩ := (mem_itemTags h).mp hother
      obtain ⟨hkey, rfl⟩ := Prod.mk.inj heq
      rw [hkey, Dict.get?_of_mem htag', Option.some.injEq] at hget
      rw [hget]
    · cases hfound

/-- **The tags come back** if their keys are clean. -/
theorem get?_tags_readBack (h : Clean out) (key : String) :
    (readBack out).tags.get? key = carriedTag? out key := by
  have htags : (readBack out).tags = dropUnless decisionMakerTag isDecisionMaker (.ofList (itemTags out)) :=
    tagsOfItems_eq _
  unfold carriedTag?
  rw [htags, get?_dropUnless, get?_itemTags h, get?_itemTags h]
  by_cases hkey : key = decisionMakerTag
  · rw [if_pos hkey, hkey]
    split <;> simp
  · have hother : (key != decisionMakerTag) = true := bne_iff_ne.mpr hkey
    rw [if_neg hkey]
    cases out.tags.get? key <;> simp [hother, Option.filter]

end Tracing.TraceContext
