import Tracing.Proofs.Dict
import Tracing.Proofs.Propagation.DatadogRoundTrip
import Tracing.Proofs.Propagation.TraceContextExtract

/-!
# From trace context headers to Datadog headers

What was read from trace context headers is written into Datadog headers when a trace is continued from it.
The upper half of a trace id travels in the list of tags there, in a tag that no state header can set. The key
of a tag may hold an equals sign, though: one that starts with the key of the upper half and an equals sign is
read as another value of the upper half (`HidesHigherBits`), which is none.

* `higherBits_of_not_hidden`, `higherBits_of_hidden`: the upper half that is read of a tag list;
* `trace_context_to_datadog`: everything else comes back, and the trace id does so unless a key hides its
  upper half.
-/

namespace Tracing.Datadog

open Text
open TraceContext (IsStated tagKey)

variable {carrier : Carrier} {c : Extracted} {out : Outgoing} {tag : String × String}

/-! ### Pairs with an equals sign in the key -/

/-- Whether the pair of a tag is read as one for the upper half of a trace id, because of an equals sign in
its key. -/
def HidesHigherBits (key : String) : Prop := ∃ rest, key.toList = higherBitsTag.toList ++ '=' :: rest

theorem trim_pairText_of_stated (h : ∃ rest, tag.1 = tagKey rest) :
    trim (pairText tag) = tag.1.toList ++ '=' :: dropEndWhile isBlank tag.2.toList := by
  obtain ⟨rest, hkey⟩ := h
  have hfirst : (pairText tag).dropWhile isBlank = pairText tag := by
    unfold pairText
    rw [hkey, tagKey, String.toList_ofList]
    rfl
  unfold trim
  rw [hfirst, pairText, dropEndWhile_append_cons (by decide)]

/-- A pair is only read as one for the upper half if its key is the one of the upper half or hides it. What is
hidden holds an equals sign. -/
theorem of_readPair_higherBits {found : String} (hkey : ∃ rest, tag.1 = tagKey rest)
    (h : readPair (pairText tag) = some (higherBitsTag, found)) :
    tag.1 = higherBitsTag ∨ (HidesHigherBits tag.1 ∧ '=' ∈ found.toList) := by
  have htext := (of_readPair h).2
  rw [trim_pairText_of_stated hkey] at htext
  have hfree : '=' ∉ higherBitsTag.toList := by decide
  rcases List.append_eq_append_iff.mp htext with ⟨gap, htag, hvalue⟩ | ⟨gap, htid, hvalue⟩
  · cases gap with
    | nil => exact .inl (String.toList_injective (by simpa using htag))
    | cons d gap =>
      obtain ⟨rfl, hfound⟩ := List.cons.inj hvalue
      exact .inr ⟨⟨gap, htag⟩, by simp [hfound]⟩
  · cases gap with
    | nil => exact .inl (String.toList_injective (by simpa using htid.symm))
    | cons d gap =>
      obtain ⟨rfl, -⟩ := List.cons.inj hvalue
      exact absurd (by simp [htid]) hfree

theorem exists_readPair_of_hides (h : IsStated tag) (hhides : HidesHigherBits tag.1) :
    ∃ found, readPair (pairText tag) = some (higherBitsTag, found) := by
  obtain ⟨rest, hrest⟩ := hhides
  have hfree : '=' ∉ higherBitsTag.toList := by decide
  have hkey : isTagKey higherBitsTag.toList = true := by decide
  have hvalue : isTagValue (rest ++ '=' :: dropEndWhile isBlank tag.2.toList) = true := by
    refine List.all_eq_true.mpr fun d hd => ?_
    rcases List.mem_append.mp hd with hd | hd
    · exact h.keyChars d (by simp [hrest, hd])
    · rcases List.mem_cons.mp hd with rfl | hd
      · decide
      · exact h.valueChars d ((dropEndWhile_isPrefixOf_self isBlank _).sublist.subset hd)
  have htrim : trim (pairText tag) =
      higherBitsTag.toList ++ '=' :: (rest ++ '=' :: dropEndWhile isBlank tag.2.toList) := by
    rw [trim_pairText_of_stated h.key, hrest, List.append_assoc]
    rfl
  unfold readPair
  rw [htrim, splitOnce_append hfree]
  simp only [hkey, hvalue, String.ofList_toList, Bool.and_self, if_true]
  exact ⟨_, rfl⟩

theorem readHigherBits_of_mem {text : List Char} (h : '=' ∈ text) : readHigherBits text = none := by
  have hdigit : Hex.isDigit '=' = false := by decide
  unfold readHigherBits
  split
  · split
    · have hrest := (List.mem_cons.mp h).resolve_left (by decide)
      exact Hex.readNat_eq_none hrest hdigit
    · exact Hex.readNat_eq_none h hdigit
  · rfl

/-! ### The upper half in a tag list -/

theorem mem_headerTags (h : ∀ tag ∈ out.tags.entries, IsStated tag) :
    tag ∈ (headerTags out).entries ↔ tag ∈ out.tags.entries ∨
      (out.traceId.higher ≠ 0 ∧ tag = (higherBitsTag, higherValue out.traceId)) := by
  constructor
  · intro htag
    have hget := Dict.get?_of_mem htag
    rw [get?_headerTags_eq] at hget
    split at hget
    · next hkey =>
      split at hget
      · cases hget
      · next hne => exact .inr ⟨hne, Prod.ext hkey (Option.some.inj hget).symm⟩
    · split at hget
      · exact .inl (Dict.mem_of_get? hget)
      · cases hget
  · rintro (htag | ⟨hne, rfl⟩)
    · obtain ⟨rest, hrest⟩ := (h tag htag).key
      have hpropagated : isPropagated tag.1 = true :=
        TraceContext.isPropagated_iff.mpr ⟨rest, hrest, (h tag htag).other⟩
      refine Dict.mem_of_get? ?_
      rw [get?_headerTags_eq, if_neg (h tag htag).other, if_pos hpropagated, Dict.get?_of_mem htag]
    · refine Dict.mem_of_get? ?_
      rw [get?_headerTags_eq, if_pos rfl, if_neg hne]

theorem comma_not_mem_of_stated (h : ∀ tag ∈ out.tags.entries, IsStated tag) :
    ∀ tag ∈ (headerTags out).entries, ',' ∉ pairText tag := by
  intro tag htag hmem
  rcases (mem_headerTags h).mp htag with htag | ⟨-, rfl⟩
  · have hchar : isTagChar ',' = true := by
      rcases List.mem_append.mp hmem with hmem | hmem
      · exact (h tag htag).keyChars _ hmem
      · exact (h tag htag).valueChars _ ((List.mem_cons.mp hmem).resolve_left (by decide))
    exact absurd hchar (by decide)
  · exact comma_not_mem_pairText (isPair_higher out.traceId) hmem

theorem lt_of_hides {key : String} (h : HidesHigherBits key) : higherBitsTag < key := by
  have append : ∀ (text : List Char) (d : Char) (rest : List Char), text < text ++ d :: rest := by
    intro text d rest
    induction text with
    | nil => exact List.nil_lt_cons _ _
    | cons e text ih => exact List.cons_lt_cons_iff.mpr (.inr ⟨rfl, ih⟩)
  obtain ⟨rest, hrest⟩ := h
  rw [String.lt_iff_toList_lt, hrest]
  exact append _ _ _

/-- **A hidden value takes the place of the upper half**, and is none. -/
theorem higherBits_of_hidden (h : ∀ tag ∈ out.tags.entries, IsStated tag) (htag : tag ∈ out.tags.entries)
    (hhides : HidesHigherBits tag.1) : higherBits (readTags (writePairs (headerTags out))) = 0 := by
  obtain ⟨front, back, hentries⟩ := List.append_of_mem ((mem_headerTags h).mpr (.inl htag))
  obtain ⟨value, hvalue⟩ := exists_readPair_of_hides (h tag htag) hhides
  have hmem : (higherBitsTag, value) ∈ (tag :: back).filterMap fun tag => readPair (pairText tag) :=
    List.mem_filterMap.mpr ⟨tag, List.mem_cons_self, hvalue⟩
  obtain ⟨found, hfound, hlast⟩ := @Dict.exists_get?_ofList_append _ _ _
    (front.filterMap fun tag => readPair (pairText tag)) _ hmem
  -- no tag from this one on has the key of the upper half itself
  have hbehind : ∀ tag' ∈ tag :: back, tag'.1 ≠ higherBitsTag := by
    intro tag' htag' heq
    rcases List.mem_cons.mp htag' with rfl | htag'
    · exact (h _ htag).other heq
    · have hlater := Dict.lt_of_entries_eq hentries tag' htag'
      rw [heq] at hlater
      exact String.lt_irrefl _ (String.lt_trans (lt_of_hides hhides) hlater)
  obtain ⟨tag', htag', hread⟩ := List.mem_filterMap.mp hlast
  have hkey : ∃ rest, tag'.1 = tagKey rest := by
    have hmem' : tag' ∈ (headerTags out).entries := by
      rw [hentries]
      exact List.mem_append_right _ htag'
    rcases (mem_headerTags h).mp hmem' with hmem' | ⟨-, rfl⟩
    · exact (h tag' hmem').key
    · exact absurd rfl (hbehind _ htag')
  have hequals := ((of_readPair_higherBits hkey hread).resolve_left (hbehind tag' htag')).2
  unfold higherBits
  rw [readTags_writePairs_eq (comma_not_mem_of_stated h), hentries, List.filterMap_append, hfound,
    Option.bind_some, readHigherBits_of_mem hequals]
  rfl

/-- **The upper half comes back** if no key hides it. -/
theorem higherBits_of_not_hidden (h : ∀ tag ∈ out.tags.entries, IsStated tag)
    (hhides : ∀ tag ∈ out.tags.entries, ¬ HidesHigherBits tag.1) :
    higherBits (readTags (writePairs (headerTags out))) = out.traceId.higher.toNat := by
  -- the only pair for the upper half is the one that was written for it
  have honly : ∀ found, (higherBitsTag, found) ∈
      ((headerTags out).entries.filterMap fun tag => readPair (pairText tag)) →
        out.traceId.higher ≠ 0 ∧ found = higherValue out.traceId := by
    intro found hfound
    obtain ⟨tag, htag, hread⟩ := List.mem_filterMap.mp hfound
    rcases (mem_headerTags h).mp htag with htag | ⟨hne, rfl⟩
    · rcases of_readPair_higherBits (h tag htag).key hread with hkey | hhidden
      · exact absurd hkey (h tag htag).other
      · exact absurd hhidden.1 (hhides tag htag)
    · rw [readPair_pairText (isPair_higher out.traceId)] at hread
      exact ⟨hne, (Prod.mk.inj (Option.some.inj hread)).2.symm⟩
  unfold higherBits
  rw [readTags_writePairs_eq (comma_not_mem_of_stated h)]
  by_cases hzero : out.traceId.higher = 0
  · have hnone : (Dict.ofList ((headerTags out).entries.filterMap fun tag => readPair (pairText tag))).get?
        higherBitsTag = none := by
      refine Option.eq_none_iff_forall_ne_some.mpr fun found hfound => ?_
      exact (honly found (Dict.mem_of_get?_ofList hfound)).1 hzero
    rw [hnone, hzero]
    rfl
  · have hwritten : (higherBitsTag, higherValue out.traceId) ∈
        (headerTags out).entries.filterMap fun tag => readPair (pairText tag) :=
      List.mem_filterMap.mpr ⟨_, (mem_headerTags h).mpr (.inr ⟨hzero, rfl⟩),
        readPair_pairText (isPair_higher out.traceId)⟩
    rw [Dict.get?_ofList_of_mem hwritten fun other hother => (honly other hother).2, Option.bind_some,
      higherValue, String.toList_ofList, readHigherBits_write out.traceId.higher.isLt, Option.getD_some]

theorem higherBits_extractTags_of_written (hsize : (writeTags out).utf8ByteSize ≤ maxTagsLength)
    (hw : Written out carrier) : higherBits (extractTags carrier).value =
      higherBits (readTags (writePairs (headerTags out))) := by
  cases htags : tagsValue out with
  | none =>
    have hread : readTags (writePairs (headerTags out)) = ∅ := by
      unfold writePairs
      rw [tagsValue_eq_none htags]
      rfl
    unfold extractTags
    rw [hw.tags, htags, hread]
    rfl
  | some text =>
    have htext := tagsValue_eq_some htags
    rw [higherBits_extractTags (hw.tags.trans htags) (htext ▸ hsize), htext, writeTags_eq,
      String.toList_ofList]

/-! ### Contexts -/

theorem ofParts_higherBits_eq_iff (h : ∀ tag ∈ out.tags.entries, IsStated tag) :
    TraceId.ofParts (BitVec.ofNat 64 (higherBits (readTags (writePairs (headerTags out))))) out.traceId.lower =
      out.traceId ↔ out.traceId.higher = 0 ∨ ∀ tag ∈ out.tags.entries, ¬ HidesHigherBits tag.1 := by
  have hwhole := TraceId.ofParts_higher_lower out.traceId
  by_cases hclean : ∀ tag ∈ out.tags.entries, ¬ HidesHigherBits tag.1
  · rw [higherBits_of_not_hidden h hclean, BitVec.ofNat_toNat, BitVec.setWidth_eq]
    exact iff_of_true hwhole (.inr hclean)
  · have hhidden : ∃ tag ∈ out.tags.entries, HidesHigherBits tag.1 := by simpa using hclean
    obtain ⟨tag, htag, hhides⟩ := hhidden
    rw [higherBits_of_hidden h htag hhides]
    constructor
    · intro heq
      rw [← heq, TraceId.higher_ofParts]
      exact .inl rfl
    · intro hor
      rwa [hor.resolve_right hclean] at hwhole

/-- **From trace context headers to Datadog headers.** A context that was read from any carrier, continued in
a span and written into an empty carrier, comes back with the lower half of its trace id, the span as parent
and its priority, if the tags fit. The whole trace id comes back if and only if it has no upper half or no key
of the tags hides that. -/
theorem trace_context_to_datadog {source : Carrier} (h : (TraceContext.extract source).value = some c)
    (hlower : c.traceId.lower ≠ 0) (hop : Hop) :
    ∃ out, c.forward? hop = some out ∧ ((writeTags out).utf8ByteSize ≤ maxTagsLength →
      ∃ d, (extract (inject out .empty).value).value = some d ∧ d.traceId.lower = c.traceId.lower ∧
        d.parentSpanId = hop.record.spanId ∧ d.priority = c.priority ∧
        (d.traceId = c.traceId ↔
          c.traceId.higher = 0 ∨ ∀ tag ∈ c.tags.entries, ¬ HidesHigherBits tag.1)) := by
  let out : Outgoing := ⟨c.traceId, hop.record.spanId, hop.record.parentId, c.origin, c.priority, c.tags⟩
  refine ⟨out, Extracted.forward?_eq (isValid_of_lower hlower) hop, fun hsize => ?_⟩
  have hw := written_inject hsize
  have hread := extract_written hlower hw
  rw [higherBits_extractTags_of_written hsize hw] at hread
  exact ⟨_, hread, TraceId.lower_ofParts _ _, rfl, rfl,
    @ofParts_higherBits_eq_iff out (TraceContext.isStated_of_extract h)⟩

/-- A wide trace id and a tag with an equals sign in its value. -/
theorem trace_context_to_datadog_wide :
    let source : Carrier := .headers (.ofList
      [(TraceContext.parentHeader, "00-00000000000000050000000000000007-0000000000000003-01"),
        (TraceContext.stateHeader, "dd=s:2;t.usr:a~b")])
    let c : Extracted := ⟨.ofParts 5 7, .ofNat 3, some .userKeep, none, .ofList [("_dd.p.usr", "a=b")]⟩
    let hop : Hop := ⟨.new c.traceId (.ofNat 9) none "op" "svc" 0, none, ⟨0, 0⟩⟩
    (TraceContext.extract source).value = some c ∧ c.traceId.lower ≠ 0 ∧
      ∃ out, c.forward? hop = some out ∧ (writeTags out).utf8ByteSize ≤ maxTagsLength ∧
        ∃ d, (extract (inject out .empty).value).value = some d ∧ d.traceId = c.traceId ∧
          d.parentSpanId = .ofNat 9 ∧ d.priority = some .userKeep := by
  intro source c hop
  have hread : (TraceContext.extract source).value = some c := by decide +kernel
  have hlower : c.traceId.lower ≠ 0 := by decide
  have hclean : ∀ tag ∈ c.tags.entries, ¬ HidesHigherBits tag.1 := by
    have hentries : c.tags.entries = [("_dd.p.usr", "a=b")] := by decide +kernel
    rw [hentries, List.forall_mem_singleton]
    rintro ⟨rest, hrest⟩
    have hfree : '=' ∉ "_dd.p.usr".toList := by decide
    exact hfree (by simp [hrest])
  obtain ⟨out, hout, hback⟩ := trace_context_to_datadog hread hlower hop
  have hsize : (writeTags out).utf8ByteSize ≤ maxTagsLength := by
    rw [Extracted.forward?_eq (isValid_of_lower hlower), Option.some.injEq] at hout
    rw [← hout]
    decide +kernel
  obtain ⟨d, hd, -, hparent, hpriority, htrace⟩ := hback hsize
  exact ⟨hread, hlower, out, hout, hsize, d, hd, htrace.mpr (.inr hclean), hparent, hpriority⟩

/-- An item whose name ends in an equals sign takes the upper half of the trace id away. -/
theorem trace_context_to_datadog_hidden :
    let source : Carrier := .headers (.ofList
      [(TraceContext.parentHeader, "00-00000000000000010000000000000001-0000000000000001-01"),
        (TraceContext.stateHeader, "dd=s:1;t.tid=:x")])
    let hop : Hop := ⟨.new (.ofParts 1 1) (.ofNat 1) none "op" "svc" 0, none, ⟨0, 0⟩⟩
    ∃ c out d, (TraceContext.extract source).value = some c ∧ c.traceId.lower ≠ 0 ∧
      c.forward? hop = some out ∧ (writeTags out).utf8ByteSize ≤ maxTagsLength ∧
      (extract (inject out .empty).value).value = some d ∧
      c.traceId = .ofParts 1 1 ∧ d.traceId = .ofParts 0 1 := by
  intro source hop
  let c : Extracted := ⟨.ofParts 1 1, .ofNat 1, some .autoKeep, none, .ofList [("_dd.p.tid=", "x")]⟩
  let d : Extracted := ⟨.ofParts 0 1, .ofNat 1, some .autoKeep, none, ∅⟩
  let out : Outgoing := ⟨c.traceId, .ofNat 1, none, none, c.priority, c.tags⟩
  refine ⟨c, out, d, ?_, by decide, rfl, ?_, ?_, rfl, rfl⟩
  · decide +kernel
  · decide +kernel
  · decide +kernel

end Tracing.Datadog
