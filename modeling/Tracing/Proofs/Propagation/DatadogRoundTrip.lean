import Tracing.Proofs.Ident
import Tracing.Proofs.Propagation.DatadogExtract
import Tracing.Proofs.Propagation.Hops

/-!
# Datadog headers come back

What is written into Datadog headers is read back (`extract_inject`), as long as it is `Portable`: it has a
lower half of the trace id, an origin without blanks around it, and tags within the grammar and the limit.
What was read from any headers is portable again (`portable_of_extract`); for the limit, this is the count
that a tag list never grows. `datadog_round_trip` puts the two together over any number of hops.
-/

namespace Tracing.Datadog

open Text

/-- What can be written into Datadog headers without loss. -/
structure Portable (out : Outgoing) : Prop where
  lower : out.traceId.lower ≠ 0
  origin : ∀ origin, out.origin = some origin → origin ≠ "" ∧ trim origin.toList = origin.toList
  tags : ∀ tag ∈ out.tags.entries, IsPair tag
  decisionMaker : ∀ dm, out.tags.get? decisionMakerTag = some dm →
    ∃ digit, dm.toList = ['-', digit] ∧ digit.isDigit = true
  size : (writeTags out).utf8ByteSize ≤ maxTagsLength

variable {out : Outgoing}

/-! ### The headers that are written -/

theorem lowercase_header : ∀ name ∈ [traceIdHeader, parentIdHeader, priorityHeader, originHeader, tagsHeader],
    lowercase name = name := by
  decide +kernel

theorem isOpen_setSome (carrier : Carrier) (name : String) (value : Option String) :
    (setSome carrier name value).isOpen = carrier.isOpen := by
  cases value with
  | none => rfl
  | some value => exact Carrier.isOpen_set carrier name value

theorem get?_setSome {carrier : Carrier} (h : carrier.isOpen = true) (name name' : String)
    (value : Option String) : (setSome carrier name value).get? name' =
      if lowercase name = lowercase name' then value.or (carrier.get? name') else carrier.get? name' := by
  cases value with
  | none => simp [setSome]
  | some value => exact Carrier.get?_set h name name' value

/-- The tag list as the value of a header. -/
def tagsValue (out : Outgoing) : Option String :=
  if (writeTags out).isEmpty then none else some (writeTags out)

theorem injectTags_value (h : (writeTags out).utf8ByteSize ≤ maxTagsLength) (carrier : Carrier) :
    (injectTags out carrier).value = setSome carrier tagsHeader (tagsValue out) := by
  unfold injectTags tagsValue
  rw [if_neg (by omega)]
  split <;> rfl

theorem inject_value (h : (writeTags out).utf8ByteSize ≤ maxTagsLength) (carrier : Carrier) :
    (inject out carrier).value =
      setSome (setSome (setSome
        ((carrier.set traceIdHeader (String.ofList (Integer.writeNat out.traceId.lower.toNat))).set
          parentIdHeader (String.ofList (Integer.writeNat out.spanId.toNat)))
        priorityHeader (out.priority.map toString)) originHeader out.origin) tagsHeader (tagsValue out) :=
  injectTags_value h _

/-- The headers written into an empty carrier. -/
structure Written (out : Outgoing) (carrier : Carrier) : Prop where
  traceId : carrier.get? traceIdHeader = some (String.ofList (Integer.writeNat out.traceId.lower.toNat))
  parentId : carrier.get? parentIdHeader = some (String.ofList (Integer.writeNat out.spanId.toNat))
  priority : carrier.get? priorityHeader = out.priority.map toString
  origin : carrier.get? originHeader = out.origin
  tags : carrier.get? tagsHeader = tagsValue out

theorem written_inject (h : (writeTags out).utf8ByteSize ≤ maxTagsLength) :
    Written out (inject out .empty).value := by
  have hlower := lowercase_header
  simp only [List.mem_cons, List.not_mem_nil, or_false, forall_eq_or_imp, forall_eq] at hlower
  obtain ⟨htrace, hparent, hpriority, horigin, htags⟩ := hlower
  have hempty : ∀ name, Carrier.empty.get? name = none := fun _ => rfl
  have hopen : Carrier.empty.isOpen = true := rfl
  rw [inject_value h]
  constructor <;>
    simp only [get?_setSome, Carrier.get?_set, isOpen_setSome, Carrier.isOpen_set, hopen, htrace, hparent,
      hpriority, horigin, htags, hempty] <;>
    simp [traceIdHeader, parentIdHeader, priorityHeader, originHeader, tagsHeader]

/-! ### The tags that are written -/

theorem isPropagated_of_isPair {tag : String × String} (h : IsPair tag) (hne : tag.1 ≠ higherBitsTag) :
    isPropagated tag.1 = true := by
  obtain ⟨rest, hkey, -, -⟩ := h.1
  unfold isPropagated
  rw [hkey]
  simp [hne]

/-- The value of the tag for an upper half. -/
def higherValue (traceId : TraceId) : String := String.ofList (Hex.write 16 traceId.higher.toNat)

theorem isPair_higher (traceId : TraceId) : IsPair (higherBitsTag, higherValue traceId) := by
  have hkey : IsKey higherBitsTag.toList := isKey_of_isTagKey (by decide) (by decide)
  refine ⟨hkey, fun c hc => ?_, fun hlast => ?_⟩
  · obtain ⟨hlow, hhigh⟩ := Hex.visible_of_mem_write (by simpa [higherValue] using hc)
    refine ⟨by omega, by omega, ?_⟩
    rintro rfl
    exact absurd hlow (by decide)
  · have hmem := List.mem_of_getLast? hlast
    obtain ⟨hlow, -⟩ := Hex.visible_of_mem_write (by simpa [higherValue] using hmem)
    exact absurd hlow (by decide)

theorem isPair_headerTags (h : ∀ tag ∈ out.tags.entries, IsPair tag) :
    ∀ tag ∈ (headerTags out).entries, IsPair tag := by
  intro tag htag
  unfold headerTags at htag
  simp only at htag
  split at htag
  · exact h tag (List.mem_of_mem_filter htag)
  · rcases Entries.mem_insert htag with rfl | htag
    · exact isPair_higher out.traceId
    · exact h tag (List.mem_of_mem_filter htag)

/-- What the tag list holds: the propagated tags, with the upper half of the trace id in place of its tag. -/
theorem get?_headerTags_eq (out : Outgoing) (key : String) :
    (headerTags out).get? key =
      if key = higherBitsTag then
        if out.traceId.higher = 0 then none else some (higherValue out.traceId)
      else if isPropagated key then out.tags.get? key else none := by
  have hfilter : (out.tags.filter fun key _ => isPropagated key).get? key =
      if key = higherBitsTag then none else if isPropagated key then out.tags.get? key else none := by
    rw [Dict.get?_filter]
    by_cases hkey : key = higherBitsTag
    · have hno : isPropagated key = false := by
        rw [hkey]
        decide
      rw [if_neg (by simp [hno]), if_pos hkey]
    · rw [if_neg hkey]
  unfold headerTags
  simp only
  split
  · rw [hfilter]
  · rw [Dict.get?_insert, hfilter]
    by_cases hkey : key = higherBitsTag
    · rw [if_pos hkey.symm, if_pos hkey]
      rfl
    · rw [if_neg (Ne.symm hkey), if_neg hkey, if_neg hkey]

theorem get?_headerTags (h : ∀ tag ∈ out.tags.entries, IsPair tag) (key : String) :
    (headerTags out).get? key =
      if key = higherBitsTag then
        if out.traceId.higher = 0 then none else some (higherValue out.traceId)
      else out.tags.get? key := by
  rw [get?_headerTags_eq]
  by_cases hkey : key = higherBitsTag
  · rw [if_pos hkey, if_pos hkey]
  · rw [if_neg hkey, if_neg hkey]
    cases hget : out.tags.get? key with
    | none => simp
    | some value => rw [if_pos (isPropagated_of_isPair (h _ (Dict.mem_of_get? hget)) hkey)]

theorem erase_headerTags (h : ∀ tag ∈ out.tags.entries, IsPair tag) :
    (headerTags out).erase higherBitsTag = out.tags.erase higherBitsTag := by
  refine Dict.ext_get? fun key => ?_
  rw [Dict.get?_erase, Dict.get?_erase, get?_headerTags h]
  by_cases hkey : higherBitsTag = key
  · rw [if_pos hkey, if_pos hkey]
  · rw [if_neg hkey, if_neg hkey, if_neg (Ne.symm hkey)]

theorem tagsValue_eq_none (h : tagsValue out = none) : (headerTags out).entries = [] := by
  unfold tagsValue at h
  split at h
  · next hempty =>
    by_contra hne
    have hsize := bytes_joinWith (by simpa using hne : (headerTags out).entries.map pairText ≠ [])
    have hbytes : bytes (writePairs (headerTags out)) = 0 :=
      String.isEmpty_iff_utf8ByteSize_eq_zero.mp hempty
    obtain ⟨tag, rest, heq⟩ := List.exists_cons_of_ne_nil hne
    have hpair : 1 ≤ bytes (pairText tag) := by
      unfold pairText
      rw [bytes_append, bytes_cons]
      have := Char.utf8Size_pos '='
      omega
    unfold writePairs at hbytes
    rw [heq, List.map_cons] at hsize hbytes
    rw [piecesSize_cons] at hsize
    omega
  · cases h

theorem tagsValue_eq_some {text : String} (h : tagsValue out = some text) : text = writeTags out := by
  unfold tagsValue at h
  split at h
  · cases h
  · exact (Option.some.inj h).symm

/-! ### Reading what was written -/

variable {carrier : Carrier}

theorem readHigherBits_write {n : Nat} (h : n < 2 ^ 64) : readHigherBits (Hex.write 16 n) = some n := by
  have hread : Hex.readNat (Hex.write 16 n) = some n := by
    rw [Hex.readNat_write, Nat.mod_eq_of_lt (by omega)]
  unfold readHigherBits
  rw [if_pos (Hex.length_write 16 n)]
  split
  · next digits heq =>
    obtain ⟨hlow, -⟩ := Hex.visible_of_mem_write (by rw [heq]; exact List.mem_cons_self)
    exact absurd hlow (by decide)
  · exact hread

theorem valid_headerTags (h : Portable out) :
    (∀ tid, (headerTags out).get? higherBitsTag = some tid → (readHigherBits tid.toList).isSome = true) ∧
      ∀ dm, (headerTags out).get? decisionMakerTag = some dm → isDecisionMaker dm.toList = true := by
  have hne : decisionMakerTag ≠ higherBitsTag := by decide
  constructor
  · intro tid htid
    rw [get?_headerTags h.tags, if_pos rfl] at htid
    split at htid
    · cases htid
    · rw [Option.some.injEq] at htid
      rw [← htid, higherValue, String.toList_ofList, readHigherBits_write out.traceId.higher.isLt]
      rfl
  · intro dm hdm
    rw [get?_headerTags h.tags, if_neg hne] at hdm
    exact (isDecisionMaker_iff _).mpr (h.decisionMaker dm hdm)

theorem extractTags_of_written (h : Portable out) (hw : Written out carrier) :
    (extractTags carrier).value = headerTags out := by
  cases htags : tagsValue out with
  | none =>
    have hempty : headerTags out = ∅ := Dict.ext_get? fun key => by
      unfold Dict.get?
      rw [tagsValue_eq_none htags]
      rfl
    unfold extractTags
    rw [hw.tags, htags, hempty]
    rfl
  | some text =>
    have htext := tagsValue_eq_some htags
    obtain ⟨htid, hdm⟩ := valid_headerTags h
    have hread : readTags text.toList = headerTags out := by
      rw [htext, writeTags_eq, String.toList_ofList, readTags_writePairs (isPair_headerTags h.tags)]
    have hkept : dropUnless higherBitsTag (fun tid => (readHigherBits tid).isSome) (headerTags out) =
        headerTags out := dropUnless_of_valid htid
    rw [extractTags_of_some (hw.tags.trans htags) (htext ▸ h.size), hread, hkept,
      dropUnless_of_valid hdm]

theorem higherBits_headerTags (h : ∀ tag ∈ out.tags.entries, IsPair tag) :
    BitVec.ofNat 64 (higherBits (headerTags out)) = out.traceId.higher := by
  unfold higherBits
  rw [get?_headerTags h, if_pos rfl]
  split
  · next hzero =>
    rw [hzero]
    rfl
  · rw [Option.bind_some, higherValue, String.toList_ofList,
      readHigherBits_write out.traceId.higher.isLt, Option.getD_some, BitVec.ofNat_toNat,
      BitVec.setWidth_eq]

theorem extractTraceId_of_written (h : out.traceId.lower ≠ 0) (hw : Written out carrier) :
    extractTraceId carrier = .ok out.traceId.lower.toNat := by
  have hne : out.traceId.lower.toNat ≠ 0 := fun heq => h (BitVec.eq_of_toNat_eq heq)
  have hread : readTraceId (Integer.writeNat out.traceId.lower.toNat) = some out.traceId.lower.toNat := by
    have hzeros : ¬ (Integer.writeNat out.traceId.lower.toNat).all (· == '0') = true := fun hall =>
      hne (Integer.writeNat_all_zero hall)
    have hlt : out.traceId.lower.toNat < 1 <<< 64 := out.traceId.lower.isLt
    unfold readTraceId
    rw [if_neg (by simp [hzeros]), Integer.readBelow_writeNat hlt]
  unfold extractTraceId
  rw [hw.traceId]
  simp only [String.toList_ofList]
  rw [firstValid_plain readTraceId (Integer.isPlain_writeNat _), hread]

theorem extractParentId_of_written (hw : Written out carrier) :
    extractParentId carrier = some out.spanId.toNat := by
  have hlt : out.spanId.toNat < 1 <<< 64 := out.spanId.bits.isLt
  unfold extractParentId
  rw [hw.parentId, Option.bind_some, String.toList_ofList,
    firstValid_plain _ (Integer.isPlain_writeNat _),
    Integer.readBelow_writeNat hlt]

theorem extractPriority_of_written (hw : Written out carrier) :
    (extractPriority carrier).value = out.priority := by
  have hplain : ∀ p : Priority, isPlain p.write = true := by
    intro p
    cases p <;> decide
  unfold extractPriority
  rw [hw.priority]
  cases out.priority with
  | none => rfl
  | some p =>
    have hread : firstValid Priority.read? (toString p).toList = some p := by
      show firstValid Priority.read? (String.ofList p.write).toList = some p
      rw [String.toList_ofList, firstValid_plain _ (hplain p), Priority.read?_write]
    simp only [Option.map_some]
    rw [hread]
    rfl

theorem extractOrigin_of_written (h : Portable out) (hw : Written out carrier) :
    extractOrigin carrier = out.origin := by
  unfold extractOrigin
  rw [hw.origin]
  cases horigin : out.origin with
  | none => rfl
  | some origin =>
    obtain ⟨hne, htrim⟩ := h.origin origin horigin
    rw [Option.bind_some]
    simp only
    rw [htrim, if_neg (by simpa using hne), String.ofList_toList]

theorem extract_written (h : out.traceId.lower ≠ 0) (hw : Written out carrier) :
    (extract carrier).value = some ⟨.ofParts (BitVec.ofNat 64 (higherBits (extractTags carrier).value))
      out.traceId.lower, out.spanId, out.priority, extractOrigin carrier,
      (extractTags carrier).value.erase higherBitsTag⟩ := by
  unfold extract
  rw [extractTraceId_of_written h hw]
  simp only [Logged.value_bind, Logged.value_pure]
  rw [extractParentId_of_written hw, extractPriority_of_written hw, Option.getD_some, SpanId.ofNat_toNat,
    BitVec.ofNat_toNat, BitVec.setWidth_eq]

theorem extract_inject (h : Portable out) : (extract (inject out .empty).value).value =
    some ⟨out.traceId, out.spanId, out.priority, out.origin, out.tags.erase higherBitsTag⟩ := by
  have hw := written_inject h.size
  rw [extract_written h.lower hw, extractTags_of_written h hw, extractOrigin_of_written h hw,
    higherBits_headerTags h.tags, TraceId.ofParts_higher_lower, erase_headerTags h.tags]

/-! ### Forwarding what was read -/

theorem bytes_higherBits {value : String} (hlength : value.toList.length = 16)
    (hascii : ∀ c ∈ value.toList, c.toNat < 128) :
    bytes (pairText (higherBitsTag, value)) = bytes (higherBitsTag.toList ++ ['=']) + 16 := by
  have hvalue : bytes value.toList = 16 := (bytes_eq_length hascii).trans hlength
  unfold pairText
  rw [List.append_cons, bytes_append, hvalue]

/-- The tag list needs the room of the tags, and of an upper half if there is one. -/
theorem tagsSize_headerTags_le (out : Outgoing) : tagsSize (headerTags out).entries ≤
    tagsSize out.tags.entries +
      if out.traceId.higher = 0 then 0 else bytes (higherBitsTag.toList ++ ['=']) + 17 := by
  have hfilter : tagsSize (out.tags.filter fun key _ => isPropagated key).entries ≤ tagsSize out.tags.entries :=
    tagsSize_filter_le _ _
  unfold headerTags
  simp only
  split
  · omega
  · have hinsert := tagsSize_insert_le higherBitsTag (higherValue out.traceId)
      (out.tags.filter fun key _ => isPropagated key).entries
    have hvalue : bytes (pairText (higherBitsTag, higherValue out.traceId)) =
        bytes (higherBitsTag.toList ++ ['=']) + 16 := by
      refine bytes_higherBits ?_ fun c hc => ?_
      · rw [higherValue, String.toList_ofList, Hex.length_write]
      · rw [higherValue, String.toList_ofList] at hc
        have := Hex.visible_of_mem_write hc
        omega
    show tagsSize (Entries.insert higherBitsTag (higherValue out.traceId) _) ≤ _
    omega

/-- **Written again, tags that were read need no more room than before.** -/
theorem size_headerTags {tags : Dict String} (h : Sound tags) (htags : out.tags = tags.erase higherBitsTag)
    {lower : BitVec 64} (hid : out.traceId = .ofParts (BitVec.ofNat 64 (higherBits tags)) lower) :
    tagsSize (headerTags out).entries ≤ maxTagsLength + 1 := by
  have herase : tagsSize (tags.erase higherBitsTag).entries ≤ tagsSize tags.entries :=
    tagsSize_filter_le _ _
  have hsize := h.size
  have hwritten := tagsSize_headerTags_le out
  rw [htags] at hwritten
  split at hwritten
  · omega
  · next hhigher =>
    -- the upper half was read from a tag, which makes room for the one that is written
    obtain ⟨tid, htid⟩ : ∃ tid, tags.get? higherBitsTag = some tid := by
      rw [← Option.isSome_iff_exists]
      by_contra hnone
      rw [Option.not_isSome_iff_eq_none] at hnone
      refine hhigher ?_
      rw [hid, TraceId.higher_ofParts]
      unfold higherBits
      rw [hnone]
      rfl
    have hread := tagsSize_erase_le htid
    have hold := bytes_higherBits (length_of_readHigherBits (h.higherBits tid htid)) fun c hc => by
      have := (h.pairs _ (Dict.mem_of_get? htid)).2.1 c hc
      omega
    omega

/-- **What was read from headers is portable** when it is forwarded, if it has a lower half. -/
theorem portable_of_extract {c : Extracted} (h : (extract carrier).value = some c)
    (hlower : c.traceId.lower ≠ 0) (spanId : SpanId) (parentId : Option SpanId) :
    Portable ⟨c.traceId, spanId, parentId, c.origin, c.priority, c.tags⟩ := by
  obtain ⟨⟨lower, hid⟩, horigin, htags⟩ := of_extract h
  have hsound := sound_extractTags carrier
  refine ⟨hlower, fun origin ho => origin_of_extractOrigin (horigin ▸ ho), fun tag htag => ?_,
    fun dm hdm => ?_, ?_⟩
  · simp only [htags] at htag
    exact hsound.pairs tag (List.mem_of_mem_filter htag)
  · simp only [htags, Dict.get?_erase] at hdm
    split at hdm
    · cases hdm
    · exact (isDecisionMaker_iff _).mp (hsound.decisionMaker dm hdm)
  · rw [writeTags_eq]
    exact bytes_writePairs (size_headerTags hsound htags hid)

theorem isValid_of_lower {c : Extracted} (h : c.traceId.lower ≠ 0) : c.isValid = true := by
  unfold Extracted.isValid
  rw [TraceId.isZero_of_lower h]
  rfl

/-- What is read from the headers that a context is forwarded in. -/
def hop? (c : Extracted) (hop : Hop) : Option Extracted :=
  (c.forward? hop).bind fun out => (extract (inject out .empty).value).value

theorem hop?_eq {c : Extracted} (h : (extract carrier).value = some c) (hlower : c.traceId.lower ≠ 0)
    (hop : Hop) : hop? c hop = some { c with parentSpanId := hop.record.spanId } := by
  have hp := portable_of_extract h hlower hop.record.spanId hop.record.parentId
  obtain ⟨-, -, htags⟩ := of_extract h
  have herase : c.tags.erase higherBitsTag = c.tags := by
    refine Dict.ext_get? fun key => ?_
    rw [htags, Dict.get?_erase, Dict.get?_erase]
    split <;> rfl
  unfold hop?
  rw [Extracted.forward?_eq (isValid_of_lower hlower), Option.bind_some, extract_inject hp]
  simp only [herase]

theorem hops_eq (hops : List Hop) {carrier : Carrier} {c : Extracted}
    (h : (extract carrier).value = some c) (hlower : c.traceId.lower ≠ 0) :
    hops.foldlM hop? c = some { c with parentSpanId :=
      (hops.getLast?.map fun hop => hop.record.spanId).getD c.parentSpanId } := by
  induction hops generalizing carrier c with
  | nil => rfl
  | cons hop rest ih =>
    have hnext := hop?_eq h hlower hop
    obtain ⟨out, -, hout⟩ := Option.bind_eq_some_iff.mp hnext
    have hrest := ih hout hlower
    rw [List.foldlM_cons, hnext]
    show rest.foldlM hop? _ = _
    rw [hrest, List.getLast?_cons]
    cases rest.getLast? <;> rfl

/-- **Datadog headers come back.** Whatever is portable is read from the headers it is written into, with
the span as parent and without the tag of the upper half. What was read from any carrier and has a lower
half is portable when a trace is continued from it; so it survives any number of hops, unchanged except for
the parent span. -/
theorem datadog_round_trip :
    (∀ out, Portable out → (extract (inject out .empty).value).value =
      some ⟨out.traceId, out.spanId, out.priority, out.origin, out.tags.erase higherBitsTag⟩) ∧
    ∀ carrier c, (extract carrier).value = some c → c.traceId.lower ≠ 0 →
      (∀ hop, ∃ out, c.forward? hop = some out ∧ out.spanId = hop.record.spanId ∧ Portable out) ∧
      ∀ hops : List Hop, hops.foldlM hop? c = some { c with parentSpanId :=
        (hops.getLast?.map fun hop => hop.record.spanId).getD c.parentSpanId } := by
  refine ⟨fun out h => extract_inject h, ?_⟩
  intro carrier c h hlower
  constructor
  · intro hop
    exact ⟨_, Extracted.forward?_eq (isValid_of_lower hlower) hop, rfl,
      portable_of_extract h hlower hop.record.spanId hop.record.parentId⟩
  · intro hops
    exact hops_eq hops h hlower

/-- A wide trace id, an origin and two tags, forwarded twice. -/
theorem datadog_round_trip_wide :
    let tags : Dict String := .ofList [("_dd.p.dm", "-4"), ("_dd.p.usr", "a=b c")]
    let out : Outgoing := ⟨.ofParts 5 7, .ofNat 9, none, some "rum", some .userKeep, tags⟩
    let c : Extracted := ⟨out.traceId, out.spanId, out.priority, out.origin, tags.erase higherBitsTag⟩
    let hop (n : Nat) : Hop := ⟨.new out.traceId (.ofNat n) none "op" "svc" 0, none, ⟨0, 0⟩⟩
    Portable out ∧ (extract (inject out .empty).value).value = some c ∧ c.traceId.lower ≠ 0 ∧
      [hop 11, hop 12].foldlM hop? c = some { c with parentSpanId := .ofNat 12 } := by
  intro tags out c hop
  have htags : ∀ tag ∈ tags.entries, IsPair tag := by
    have hentries : tags.entries = [("_dd.p.dm", "-4"), ("_dd.p.usr", "a=b c")] := by decide +kernel
    rw [hentries, List.forall_mem_cons, List.forall_mem_singleton]
    exact ⟨⟨isKey_of_isTagKey (by decide) (by decide), isValue_of_isTagValue (by decide) (by decide)⟩,
      isKey_of_isTagKey (by decide) (by decide), isValue_of_isTagValue (by decide) (by decide)⟩
  have hout : Portable out := by
    refine ⟨by decide, fun origin ho => ?_, htags, fun dm hdm => ?_, by decide +kernel⟩
    · cases ho
      exact ⟨by decide, by decide⟩
    · have hget : tags.get? decisionMakerTag = some "-4" := by decide +kernel
      rw [hget, Option.some.injEq] at hdm
      exact ⟨'4', by rw [← hdm]; decide, by decide⟩
  have hread := datadog_round_trip.1 out hout
  have hlower : c.traceId.lower ≠ 0 := by decide
  exact ⟨hout, hread, hlower, (datadog_round_trip.2 _ c hread hlower).2 [hop 11, hop 12]⟩

end Tracing.Datadog
