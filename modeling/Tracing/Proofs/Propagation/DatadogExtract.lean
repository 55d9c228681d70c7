import Tracing.Proofs.Propagation.DatadogTags

/-!
# What is read from Datadog headers

Whatever stands in the headers, the tags that are read from them are `Sound`: each is within the grammar,
together they fit into a header, and the upper half of the trace id and the decision maker are well-formed
if they are there (`sound_extractTags`). `of_extract` and `origin_of_extractOrigin` tell the same of the
other fields of a context.
-/

namespace Tracing.Datadog

open Text

variable {carrier : Carrier}

/-! ### Values with a form of their own -/

theorem isDecisionMaker_iff (text : List Char) :
    isDecisionMaker text = true ↔ ∃ digit, text = ['-', digit] ∧ digit.isDigit = true := by
  constructor
  · intro h
    unfold isDecisionMaker at h
    split at h
    · next digit => exact ⟨digit, rfl, h⟩
    · cases h
  · rintro ⟨digit, rfl, hdigit⟩
    exact hdigit

theorem length_of_readHigherBits {text : List Char} (h : (readHigherBits text).isSome = true) :
    text.length = 16 := by
  unfold readHigherBits at h
  split at h
  · assumption
  · cases h

/-! ### Leaving malformed tags out -/

/-- Tags without the one under a key unless its value is valid. -/
def dropUnless (key : String) (valid : List Char → Bool) (tags : Dict String) : Dict String :=
  if (tags.get? key).all fun value => valid value.toList then tags else tags.erase key

theorem dropBadHigherBits_value (tags : Dict String) : (dropBadHigherBits tags).value =
    dropUnless higherBitsTag (fun tid => (readHigherBits tid).isSome) tags := by
  unfold dropBadHigherBits dropUnless
  cases tags.get? higherBitsTag with
  | none => rfl
  | some tid => cases htid : (readHigherBits tid.toList).isSome <;> simp [htid]

theorem dropBadDecisionMaker_value (tags : Dict String) : (dropBadDecisionMaker tags).value =
    dropUnless decisionMakerTag isDecisionMaker tags := by
  unfold dropBadDecisionMaker dropUnless
  cases tags.get? decisionMakerTag with
  | none => rfl
  | some dm => cases hdm : isDecisionMaker dm.toList <;> simp [hdm]

section dropUnless

variable {key : String} {valid : List Char → Bool} {tags : Dict String}

theorem dropUnless_of_valid (h : ∀ value, tags.get? key = some value → valid value.toList = true) :
    dropUnless key valid tags = tags := by
  unfold dropUnless
  cases hget : tags.get? key with
  | none => rfl
  | some value => simp [h value hget]

theorem mem_dropUnless {tag : String × String} (h : tag ∈ (dropUnless key valid tags).entries) :
    tag ∈ tags.entries := by
  unfold dropUnless at h
  split at h
  · exact h
  · exact List.mem_of_mem_filter h

theorem tagsSize_dropUnless_le : tagsSize (dropUnless key valid tags).entries ≤ tagsSize tags.entries := by
  unfold dropUnless
  split
  · exact Nat.le_refl _
  · exact tagsSize_filter_le _ _

theorem get?_dropUnless (key' : String) : (dropUnless key valid tags).get? key' =
    if key' = key then (tags.get? key).filter fun value => valid value.toList else tags.get? key' := by
  unfold dropUnless
  by_cases heq : key' = key
  · subst heq
    rw [if_pos rfl]
    cases hget : tags.get? key' with
    | none => simp [hget]
    | some value => cases hvalid : valid value.toList <;> simp [hvalid, hget, Dict.get?_erase, Option.filter]
  · rw [if_neg heq]
    split
    · rfl
    · rw [Dict.get?_erase, if_neg (Ne.symm heq)]

theorem of_get?_dropUnless {key' value : String}
    (h : (dropUnless key valid tags).get? key' = some value) :
    tags.get? key' = some value ∧ (key' = key → valid value.toList = true) := by
  rw [get?_dropUnless] at h
  split at h
  · next heq =>
    obtain ⟨hget, hvalid⟩ := Option.filter_eq_some_iff.mp h
    exact ⟨heq ▸ hget, fun _ => hvalid⟩
  · next hne => exact ⟨h, fun heq => absurd heq hne⟩

end dropUnless

/-! ### Sound tags -/

/-- What is known of the tags that were read from headers. -/
structure Sound (tags : Dict String) : Prop where
  pairs : ∀ tag ∈ tags.entries, IsPair tag
  size : tagsSize tags.entries ≤ maxTagsLength + 1
  higherBits : ∀ tid, tags.get? higherBitsTag = some tid → (readHigherBits tid.toList).isSome = true
  decisionMaker : ∀ dm, tags.get? decisionMakerTag = some dm → isDecisionMaker dm.toList = true

theorem extractTags_of_some {carrier : Carrier} {text : String} (h : carrier.get? tagsHeader = some text)
    (hsize : text.utf8ByteSize ≤ maxTagsLength) :
    (extractTags carrier).value = dropUnless decisionMakerTag isDecisionMaker
      (dropUnless higherBitsTag (fun tid => (readHigherBits tid).isSome) (readTags text.toList)) := by
  unfold extractTags
  rw [h]
  simp only
  rw [if_neg (by omega), Logged.value_bind, dropBadDecisionMaker_value, dropBadHigherBits_value]

/-- A malformed upper half counts as none, left out or not. -/
theorem higherBits_extractTags {text : String} (h : carrier.get? tagsHeader = some text)
    (hsize : text.utf8ByteSize ≤ maxTagsLength) :
    higherBits (extractTags carrier).value = higherBits (readTags text.toList) := by
  have hne : higherBitsTag ≠ decisionMakerTag := by decide
  rw [extractTags_of_some h hsize]
  unfold higherBits
  rw [get?_dropUnless, if_neg hne, get?_dropUnless, if_pos rfl]
  cases (readTags text.toList).get? higherBitsTag with
  | none => rfl
  | some tid => cases htid : readHigherBits tid.toList <;> simp [Option.filter, htid]

/-- **What is read from headers is sound**, whatever they hold. -/
theorem sound_extractTags (carrier : Carrier) : Sound (extractTags carrier).value := by
  have none : Sound ∅ := ⟨fun tag htag => (by cases htag), Nat.zero_le _, by simp, by simp⟩
  cases hget : carrier.get? tagsHeader with
  | none =>
    unfold extractTags
    rw [hget]
    exact none
  | some text =>
    by_cases hsize : maxTagsLength < text.utf8ByteSize
    · unfold extractTags
      rw [hget]
      simp only
      rw [if_pos hsize]
      exact none
    · rw [extractTags_of_some hget (by omega)]
      refine ⟨fun tag htag => isPair_of_readTags tag (mem_dropUnless (mem_dropUnless htag)), ?_,
        fun tid htid => ?_, fun dm hdm => (of_get?_dropUnless hdm).2 rfl⟩
      · have hread := tagsSize_readTags text.toList
        have hbytes : bytes text.toList = text.utf8ByteSize := by rw [bytes, String.ofList_toList]
        exact Nat.le_trans (Nat.le_trans tagsSize_dropUnless_le tagsSize_dropUnless_le) (by omega)
      · exact (of_get?_dropUnless (of_get?_dropUnless htid).1).2 rfl

/-! ### Contexts -/

theorem of_extract {c : Extracted} (h : (extract carrier).value = some c) :
    (∃ lower, c.traceId = .ofParts (BitVec.ofNat 64 (higherBits (extractTags carrier).value)) lower) ∧
      c.origin = extractOrigin carrier ∧ c.tags = (extractTags carrier).value.erase higherBitsTag := by
  unfold extract at h
  split at h
  · cases h
  · next lower _ =>
    simp only [Logged.value_bind, Logged.value_pure] at h
    cases h
    exact ⟨⟨_, rfl⟩, rfl, rfl⟩

theorem origin_of_extractOrigin {origin : String} (h : extractOrigin carrier = some origin) :
    origin ≠ "" ∧ trim origin.toList = origin.toList := by
  unfold extractOrigin at h
  rw [Option.bind_eq_some_iff] at h
  obtain ⟨value, -, h⟩ := h
  simp only at h
  split at h
  · cases h
  · next hne =>
    cases h
    constructor
    · intro hempty
      refine hne ?_
      have hnil := congrArg String.toList hempty
      rw [String.toList_ofList] at hnil
      rw [hnil]
      rfl
    · rw [String.toList_ofList, trim_trim]

end Tracing.Datadog
