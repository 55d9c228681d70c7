import Tracing.Proofs.Propagation.StateItems

/-!
# What is read from trace context headers

Whatever stands in the headers, the tags that are read from them are propagated ones of printable characters,
and none of them is the upper half of a trace id (`isStated_of_extract`).
-/

namespace Tracing.TraceContext

open Text
open Datadog (isTagChar isTagChar_iff mem_dropUnless)

variable {source : Carrier} {c : Extracted} {tag : String × String}

/-- What is known of a tag that was read from a state header. -/
structure IsStated (tag : String × String) : Prop where
  key : ∃ rest, tag.1 = tagKey rest
  other : tag.1 ≠ higherBitsTag
  keyChars : ∀ c ∈ tag.1.toList, isTagChar c = true
  valueChars : ∀ c ∈ tag.2.toList, isTagChar c = true

theorem of_findMember {text member : List Char} (h : findMember text = some member) :
    ∀ d ∈ member, d ∈ text ∧ d ≠ ',' := by
  intro d hd
  obtain ⟨piece, hpiece, hlead⟩ := List.exists_of_findSome?_eq_some h
  obtain ⟨piece, hsplit, rfl⟩ := List.mem_map.mp hpiece
  have hmem : d ∈ trim piece := by
    rw [eq_append_of_dropLead? hlead]
    exact List.mem_append_right _ hd
  exact mem_of_mem_splitOn hsplit ((trim_sublist piece).subset hmem)

theorem of_mem_readItems {member : List Char} {entry : String × String}
    (h : entry ∈ (readItems member).entries) :
    (∀ d ∈ entry.1.toList, d ∈ member) ∧ ∀ d ∈ entry.2.toList, d ∈ member := by
  obtain ⟨pair, hpair, rfl⟩ := List.mem_map.mp (Dict.mem_of_mem_ofList h)
  obtain ⟨item, hitem, hsplit⟩ := List.mem_filterMap.mp hpair
  obtain ⟨hitem_eq, -⟩ := splitOnce_eq_some hsplit
  constructor <;> intro d hd <;> rw [String.toList_ofList] at hd <;>
    refine (mem_of_mem_splitOn hitem ?_).1 <;> simp [hitem_eq, hd]

theorem isStated_of_tagOfItem {entry : String × String} (h : tagOfItem entry = some tag)
    (hkey : ∀ d ∈ entry.1.toList, isTagChar d = true) (hvalue : ∀ d ∈ entry.2.toList, isTagChar d = true) :
    IsStated tag := by
  unfold tagOfItem at h
  split at h
  · next rest hlead =>
    have hname := eq_append_of_dropLead? hlead
    simp only at h
    split at h
    · cases h
    · next hne =>
      cases h
      refine ⟨⟨rest, rfl⟩, hne, fun d hd => ?_, fun d hd => ?_⟩
      · rw [String.toList_ofList] at hd
        rcases List.mem_append.mp hd with hd | hd
        · have hall : propagatedLead.toList.all isTagChar = true := by decide
          exact List.all_eq_true.mp hall d hd
        · exact hkey d (by rw [hname]; exact List.mem_append_right _ hd)
      · rw [String.toList_ofList] at hd
        obtain ⟨e, he, rfl⟩ := List.mem_map.mp hd
        split
        · decide
        · exact hvalue e he
  · cases h

theorem tags_of_extract (h : (extract source).value = some c) :
    c.tags = ((extractState source).value.map State.tags).getD ∅ := by
  unfold extract at h
  split at h
  · cases h
  · simp only [Logged.value_bind] at h
    split at h
    · cases h
    · simp only [Logged.value_bind, Logged.value_pure] at h
      cases h
      rfl

theorem mem_of_extractState {state : State}
    (h : (extractState source).value = some state) : ∃ text member,
      (∀ d ∈ text, isPrintable d = true) ∧ findMember text = some member ∧
        state = stateOfItems (readItems member) := by
  unfold extractState at h
  split at h
  · next text _ =>
    unfold readState at h
    split at h
    · next hprint =>
      obtain ⟨member, hmember, rfl⟩ := Option.map_eq_some_iff.mp h
      exact ⟨_, member, List.all_eq_true.mp hprint, hmember, rfl⟩
    · cases h
  · cases h

/-- **The tags that are read from a state header** are propagated ones of printable characters, and none of
them is the upper half of a trace id. -/
theorem isStated_of_extract (h : (extract source).value = some c) :
    ∀ tag ∈ c.tags.entries, IsStated tag := by
  intro tag htag
  rw [tags_of_extract h] at htag
  cases hstate : (extractState source).value with
  | none =>
    rw [hstate] at htag
    cases htag
  | some state =>
    obtain ⟨text, member, hprint, hmember, rfl⟩ := mem_of_extractState hstate
    rw [hstate] at htag
    change tag ∈ (tagsOfItems (readItems member)).entries at htag
    rw [tagsOfItems_eq] at htag
    obtain ⟨entry, hentry, hitem⟩ := List.mem_filterMap.mp (Dict.mem_of_mem_ofList (mem_dropUnless htag))
    have hchars : ∀ d ∈ member, isTagChar d = true := by
      intro d hd
      obtain ⟨htext, hcomma⟩ := of_findMember hmember d hd
      obtain ⟨hlow, hhigh⟩ := (isPrintable_iff d).mp (hprint d htext)
      exact (isTagChar_iff d).mpr ⟨hlow, hhigh, hcomma⟩
    obtain ⟨hkey, hvalue⟩ := of_mem_readItems hentry
    exact isStated_of_tagOfItem hitem (fun d hd => hchars d (hkey d hd)) fun d hd => hchars d (hvalue d hd)

end Tracing.TraceContext
