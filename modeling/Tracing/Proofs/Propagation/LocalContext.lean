import Tracing.Proofs.Propagation.B3RoundTrip
import Tracing.Proofs.Propagation.TraceContextRoundTrip
import Tracing.Proofs.Trace.Context

/-!
# The headers of a trace that was started here

A span of such a trace has little to announce: no origin, and no tag but the decision maker
(`Trace.localContext`). All of it fits into the headers of every style (`datadogPortable_localContext`,
`traceContextPortable_localContext`), so a peer reads the priority that was decided and, where tags are written,
the mechanism behind a keep (`Style.extract_localContext`).
A trace that is continued from a priority asks nobody (`continued_decided`). Together this is
`decision_survives_hop`.
-/

namespace Tracing

open Text

/-! ### The decision-maker tag as text -/

namespace Mechanism

theorem isPair_tagText (m : Mechanism) : Datadog.IsPair (decisionMakerTag, m.tagText) := by
  have hkey : Datadog.IsKey decisionMakerTag.toList := Datadog.isKey_of_isTagKey (by decide) (by decide)
  have hvalue : Datadog.isTagValue m.tagText.toList = true ∧ m.tagText.toList.getLast? ≠ some ' ' := by
    cases m <;> decide
  exact ⟨hkey, Datadog.isValue_of_isTagValue hvalue.1 hvalue.2⟩

theorem isDecisionMaker_tagText (m : Mechanism) : isDecisionMaker m.tagText.toList = true := by
  cases m <;> decide

theorem carried_tagText (m : Mechanism) : TraceContext.carried m.tagText = m.tagText := by
  cases m <;> decide

theorem bytes_tagText (m : Mechanism) : bytes (Datadog.pairText (decisionMakerTag, m.tagText)) = 11 := by
  cases m <;> decide

end Mechanism

/-! ### What fits into the headers -/

namespace Trace

variable {t : Trace} {spanId : SpanId} {parentId : Option SpanId}

theorem mem_localContext {tag : String × String} (h : tag ∈ (t.localContext spanId parentId).tags.entries) :
    ∃ m : Mechanism, t.makerTag? = some m.tagText ∧ tag = (decisionMakerTag, m.tagText) := by
  have hget : (makerTags t.makerTag?).get? tag.1 = some tag.2 := Dict.get?_of_mem h
  rw [get?_makerTags] at hget
  split at hget
  · next hkey =>
    obtain ⟨-, m, -, -, -, hm⟩ := makerTag?_eq_some_iff.mp hget
    exact ⟨m, hm ▸ hget, Prod.ext hkey hm⟩
  · cases hget

/-- A decision maker and the upper half of the trace id stay below the limit of a tag list. -/
theorem size_localContext :
    (Datadog.writeTags (t.localContext spanId parentId)).utf8ByteSize ≤ Datadog.maxTagsLength := by
  have htags : Datadog.tagsSize (makerTags t.makerTag?).entries ≤ 12 := by
    cases hmaker : t.makerTag? with
    | none => exact Nat.zero_le _
    | some maker =>
      obtain ⟨-, m, -, -, -, rfl⟩ := makerTag?_eq_some_iff.mp hmaker
      show bytes (Datadog.pairText (decisionMakerTag, m.tagText)) + 1 + 0 ≤ 12
      rw [m.bytes_tagText]
  have hlead : bytes (higherBitsTag.toList ++ ['=']) = 10 := by decide
  have hlimit : Datadog.maxTagsLength = 512 := rfl
  have hsize := Datadog.tagsSize_headerTags_le (t.localContext spanId parentId)
  change _ ≤ Datadog.tagsSize (makerTags t.makerTag?).entries + _ at hsize
  rw [Datadog.writeTags_eq]
  refine Datadog.bytes_writePairs ?_
  split at hsize <;> omega

/-- **What is announced fits into Datadog headers.** -/
theorem datadogPortable_localContext (h : t.traceId.lower ≠ 0) : Datadog.Portable (t.localContext spanId parentId) := by
  refine ⟨h, fun origin ho => ?_, fun tag htag => ?_, fun dm hdm => ?_, size_localContext⟩
  · cases ho
  · obtain ⟨m, -, rfl⟩ := mem_localContext htag
    exact m.isPair_tagText
  · obtain ⟨m, -, heq⟩ := mem_localContext (Dict.mem_of_get? hdm)
    rw [(Prod.mk.inj heq).2]
    exact (Datadog.isDecisionMaker_iff _).mp m.isDecisionMaker_tagText

/-- **What is announced fits into trace context headers.** -/
theorem traceContextPortable_localContext (h : t.traceId.isZero = false) (hspan : spanId.isZero = false) :
    TraceContext.Portable (t.localContext spanId parentId) := by
  refine ⟨h, hspan, fun tag htag rest hrest c hc => ?_, fun tag htag => ?_⟩
  · obtain ⟨m, -, rfl⟩ := mem_localContext htag
    have hkey : decisionMakerTag.toList = propagatedLead.toList ++ ['d', 'm'] := by decide
    obtain rfl : ['d', 'm'] = rest := List.append_cancel_left (hkey.symm.trans hrest)
    rcases List.mem_pair.mp hc with rfl | rfl <;> decide
  · obtain ⟨m, -, rfl⟩ := mem_localContext htag
    exact m.isPair_tagText.2.2

end Trace

/-! ### What a peer reads -/

namespace Style

/-- The priority that is read from the headers of a style. -/
def carriedPriority (style : Style) (p : Priority) : Priority :=
  match style with
  | b3multi | b3 => p.throughB3
  | datadog | traceContext | none => p

/-- The mechanism that is read: that of a keep, and only where tags are written. -/
def carriedMechanism (style : Style) (p : Priority) (mechanism : Option Mechanism) : Option Mechanism :=
  match style with
  | datadog | traceContext => if p.isKeep then mechanism else Option.none
  | b3multi | b3 | none => Option.none

end Style

variable {t : Trace} {spanId : SpanId} {parentId : Option SpanId} {p : Priority} {carrier : Carrier}

theorem Datadog.extract_localContext (h : t.traceId.lower ≠ 0) (hp : t.priority? = some p) (hc : carrier.Vacant) :
    ∃ c, (extract (inject (t.localContext spanId parentId) carrier).value).value = some c ∧
      c.traceId = t.traceId ∧ c.priority = some p ∧
      Trace.mechanismOfTags c.tags = if p.isKeep then t.mechanism? else none := by
  have hvacant := Style.extract_inject_vacant .datadog (t.localContext spanId parentId) hc Carrier.vacant_empty
  change extract (inject _ carrier).value = extract (inject _ .empty).value at hvacant
  rw [hvacant, extract_inject (Trace.datadogPortable_localContext h)]
  refine ⟨_, rfl, rfl, hp, mechanismOfTags_of_get? ?_⟩
  have hne : higherBitsTag ≠ decisionMakerTag := by decide
  show ((makerTags t.makerTag?).erase higherBitsTag).get? decisionMakerTag = _
  rw [Dict.get?_erase, if_neg hne, get?_makerTags, if_pos rfl, Trace.makerTag?, hp]

theorem TraceContext.carriedTag?_localContext :
    carriedTag? (t.localContext spanId parentId) decisionMakerTag = t.makerTag? := by
  have hpropagated : Datadog.isPropagated decisionMakerTag = true := by decide
  unfold carriedTag?
  rw [if_pos hpropagated]
  show (((makerTags t.makerTag?).get? decisionMakerTag).map carried).filter _ = _
  rw [get?_makerTags, if_pos rfl]
  cases hmaker : t.makerTag? with
  | none => rfl
  | some maker =>
    obtain ⟨-, m, -, -, -, rfl⟩ := makerTag?_eq_some_iff.mp hmaker
    simp [m.carried_tagText, m.isDecisionMaker_tagText]

theorem TraceContext.extract_localContext (h : t.traceId.isZero = false) (hspan : spanId.isZero = false)
    (hp : t.priority? = some p) (hc : carrier.isOpen = true) :
    ∃ c, (extract (inject (t.localContext spanId parentId) carrier).value).value = some c ∧
      c.traceId = t.traceId ∧ c.priority = some p ∧
      Trace.mechanismOfTags c.tags = if p.isKeep then t.mechanism? else none := by
  have hportable := @Trace.traceContextPortable_localContext t spanId parentId h hspan
  have hclean := hportable.clean
  refine ⟨_, extract_inject hportable.fitting h hspan hc, rfl, ?_, mechanismOfTags_of_get? ?_⟩
  · rw [priority_readBack (not_hidesItem_of_clean hclean 's'), agreedPriority_isSampled]
    show some (t.priority?.getD .autoReject) = some p
    rw [hp]
    rfl
  · rw [get?_tags_readBack hclean, carriedTag?_localContext, Trace.makerTag?, hp]

/-- **What a peer reads of a decision** that was made here. -/
theorem Style.extract_localContext {style : Style} (hstyle : style ≠ .none) (parentId : Option SpanId)
    (h : t.traceId.lower ≠ 0) (hspan : spanId.isZero = false) (hp : t.priority? = some p) (hc : carrier.Vacant) :
    ∃ c, (style.extract (style.inject (t.localContext spanId parentId) carrier).value).value = some c ∧
      c.traceId = t.traceId ∧ c.priority = some (style.carriedPriority p) ∧
      Trace.mechanismOfTags c.tags = style.carriedMechanism p t.mechanism? := by
  have htrace := TraceId.isZero_of_lower h
  have hb3 : (t.localContext spanId parentId).throughB3.priority = some p.throughB3 :=
    congrArg (Option.map Priority.throughB3) hp
  cases style with
  | datadog => exact Datadog.extract_localContext h hp hc
  | traceContext => exact TraceContext.extract_localContext htrace hspan hp hc.isOpen
  | b3multi =>
    have hread := @B3Multi.extract_inject (t.localContext spanId parentId) carrier htrace hspan hc.isOpen
      (.inr (hc.get?_eq_none _)) (.inr (hc.get?_eq_none _))
    exact ⟨_, hread, rfl, hb3, rfl⟩
  | b3 =>
    have hread := @B3Single.extract_inject (t.localContext spanId parentId) carrier htrace hspan hc.isOpen
    exact ⟨_, hread, rfl, hb3, rfl⟩
  | none => exact absurd rfl hstyle

/-! ### Continuing -/

namespace TraceRun

theorem continued_decided {c : Extracted} {p : Priority} (h : c.isValid = true) (hp : c.priority = some p) :
    ∃ t, Trace.ofExtracted? c = some t ∧ t.traceId = c.traceId ∧ t.decision.isSome = true ∧
      t.priority? = some p ∧ t.mechanism? = Trace.mechanismOfTags c.tags ∧
      ∀ later, (after t later).policyCalls = 0 := by
  obtain ⟨t, ht⟩ : ∃ t, Trace.ofExtracted? c = some t := ⟨_, if_pos h⟩
  have hdecision : t.decision = some { priority := p, mechanism := Trace.mechanismOfTags c.tags } := by
    rw [Trace.ofExtracted?_eq_some ht, hp]
    rfl
  have hid : t.traceId = c.traceId := by rw [Trace.ofExtracted?_eq_some ht]
  have hkept : t.userKept = false := by rw [Trace.ofExtracted?_eq_some ht]
  have hsome : t.decision.isSome = true := hdecision ▸ rfl
  refine ⟨t, ht, hid, hsome, ?_, ?_, @policyCalls_of_decided t [] hsome⟩
  · rw [priority?_of_not_kept hkept, hdecision]
    rfl
  · rw [mechanism?_of_not_kept hkept, hdecision]
    rfl

/-- **A decision survives a hop.** A trace is started here and decided in whatever way, and one of its spans writes
headers of any style into a vacant carrier. A trace that is continued from these headers has the same id and is
decided alike: with the priority in force, which B3 headers tell without a user's reject, and, where tags are
written, with the mechanism behind a keep. Nobody is asked about it any more. -/
theorem decision_survives_hop {id : TraceId} (hid : id.lower ≠ 0) {ops : List TraceOp} {i : Nat} {out : Outgoing}
    (hout : (after (.new id) ops).outgoing? i = some out) (hspan : out.spanId.isZero = false) {p : Priority}
    (hp : (after (.new id) ops).trace.priority? = some p) {style : Style} (hstyle : style ≠ .none)
    {carrier : Carrier} (hcarrier : carrier.Vacant) :
    ∃ c t, (style.extract (style.inject out carrier).value).value = some c ∧ Trace.ofExtracted? c = some t ∧
      t.traceId = id ∧ t.decision.isSome = true ∧ t.priority? = some (style.carriedPriority p) ∧
      t.mechanism? = style.carriedMechanism p (after (.new id) ops).trace.mechanism? ∧
      ∀ later, (after t later).policyCalls = 0 := by
  obtain ⟨parentId, hlocal⟩ := outgoing_local hout
  have htraceId := traceId_after (.new id) ops
  have hlower : (after (.new id) ops).trace.traceId.lower ≠ 0 := htraceId ▸ hid
  obtain ⟨c, hread, hcid, hcpriority, hcmechanism⟩ :=
    Style.extract_localContext hstyle parentId hlower hspan hp hcarrier
  rw [← hlocal] at hread
  have hvalid : c.isValid = true := Datadog.isValid_of_lower (hcid ▸ hlower)
  obtain ⟨t, ht, htid, hdecided, hpriority, hmechanism, hcalls⟩ := continued_decided hvalid hcpriority
  exact ⟨c, t, hread, ht, htid.trans (hcid.trans htraceId), hdecided, hpriority, hmechanism.trans hcmechanism, hcalls⟩

/-- A keep by an agent's rate and then by the user, told through trace context; a later reject is not heard. -/
theorem decision_survives_hop_overridden :
    let id : TraceId := .ofParts 5 7
    let ops := [TraceOp.start (.new id (.ofNat 9) none "op" "svc" 0) none ⟨0, 0⟩,
      .decideWith fun _ => { priority := .autoKeep, mechanism := some .agentRate }, .choose .userKeep]
    let out : Outgoing := ⟨id, .ofNat 9, none, none, some .userKeep, .ofList [("_dd.p.dm", "-4")]⟩
    let later := [TraceOp.decideWith fun _ => .manual .userReject]
    id.lower ≠ 0 ∧ (after (.new id) ops).outgoing? 0 = some out ∧ out.spanId.isZero = false ∧
      (after (.new id) ops).trace.priority? = some .userKeep ∧ Style.traceContext ≠ .none ∧ Carrier.empty.Vacant ∧
      ∃ c t, (Style.traceContext.extract (Style.traceContext.inject out .empty).value).value = some c ∧
        Trace.ofExtracted? c = some t ∧ t.traceId = id ∧ t.decision.isSome = true ∧
        t.priority? = some .userKeep ∧ t.mechanism? = some .manual ∧ (after t later).policyCalls = 0 := by
  intro id ops out later
  have hid : id.lower ≠ 0 := by decide
  have hout : (after (.new id) ops).outgoing? 0 = some out := by decide +kernel
  have hspan : out.spanId.isZero = false := by decide
  have hp : (after (.new id) ops).trace.priority? = some .userKeep := rfl
  have hstyle : Style.traceContext ≠ .none := by decide
  obtain ⟨c, t, hread, ht, htid, hdecided, hpriority, hmechanism, hcalls⟩ :=
    decision_survives_hop hid hout hspan hp hstyle Carrier.vacant_empty
  exact ⟨hid, hout, hspan, hp, hstyle, Carrier.vacant_empty, c, t, hread, ht, htid, hdecided, hpriority, hmechanism,
    hcalls later⟩

end TraceRun

end Tracing
