import Tracing.Proofs.Propagation.TraceContextRoundTrip

/-!
# From Datadog headers to trace context headers

What was read from Datadog headers is written into trace context headers when a trace is continued from it.
The ids come back, and so does whether the trace is kept, whatever the headers held. A key of a Datadog tag
may hold a semicolon, though: priority and origin only come back unless a key hides an item of their name
(`datadog_to_trace_context`), and such a key can put others in their place
(`datadog_to_trace_context_hidden`).
-/

namespace Tracing.TraceContext

open Text

variable {source target : Carrier} {c : Extracted}

theorem fitting_of_extract {out : Outgoing} (h : (Datadog.extract source).value = some c)
    (htags : out.tags = c.tags) : Fitting out := by
  obtain ⟨-, -, hc⟩ := Datadog.of_extract h
  have hpair : ∀ tag ∈ out.tags.entries, Datadog.IsPair tag := by
    rw [htags, hc]
    exact fun tag htag => (Datadog.sound_extractTags source).pairs tag (List.mem_of_mem_filter htag)
  refine ⟨fun tag htag rest hrest d hd => ?_, fun tag htag => (hpair tag htag).2.2⟩
  obtain ⟨rest', hkey, -, hchars⟩ := (hpair tag htag).1
  obtain rfl : rest = rest' := List.append_cancel_left (hrest.symm.trans hkey)
  obtain ⟨hlow, hhigh, hcomma, -⟩ := hchars d hd
  exact (Datadog.isTagChar_iff d).mpr ⟨by omega, hhigh, hcomma⟩

/-- **From Datadog headers to trace context headers.** A context with a trace id that was read from any
carrier, continued in a span with an id and written into an open carrier, comes back with its trace id, the
span as parent and the same decision to keep the trace. If no key of its tags hides an item, priority and
origin come back as well. -/
theorem datadog_to_trace_context (h : (Datadog.extract source).value = some c) (hvalid : c.isValid = true)
    {hop : Hop} (hspan : hop.record.spanId.isZero = false) (hopen : target.isOpen = true) :
    ∃ out d, c.forward? hop = some out ∧ (extract (inject out target).value).value = some d ∧
      d.traceId = c.traceId ∧ d.parentSpanId = hop.record.spanId ∧
      d.priority.map Priority.isKeep = some ((c.priority.map Priority.isKeep).getD false) ∧
      ((∀ tag ∈ c.tags.entries, ¬ HidesItem 's' tag.1) → d.priority = some (c.priority.getD .autoReject)) ∧
      ((∀ tag ∈ c.tags.entries, ¬ HidesItem 'o' tag.1) → d.origin = c.origin.map carried) := by
  let out : Outgoing := ⟨c.traceId, hop.record.spanId, hop.record.parentId, c.origin, c.priority, c.tags⟩
  have htrace : out.traceId.isZero = false := by simpa [Extracted.isValid] using hvalid
  have hread := extract_inject (fitting_of_extract h rfl : Fitting out) htrace hspan hopen
  refine ⟨out, _, Extracted.forward?_eq hvalid hop, hread, rfl, rfl, ?_, fun hhidden => ?_,
    @origin_readBack out⟩
  · rw [Option.map_some, isKeep_agreedPriority]
    rfl
  · rw [@priority_readBack out hhidden]
    exact congrArg some (agreedPriority_isSampled out)

/-- A wide trace id with an origin and a tag, whose key hides nothing. -/
theorem datadog_to_trace_context_wide :
    let source : Carrier := .headers (.ofList [(Datadog.traceIdHeader, "7"), (Datadog.priorityHeader, "2"),
      (Datadog.originHeader, "rum"), (Datadog.tagsHeader, "_dd.p.tid=0000000000000005,_dd.p.usr=a=b")])
    let c : Extracted := ⟨.ofParts 5 7, .zero, some .userKeep, some "rum", .ofList [("_dd.p.usr", "a=b")]⟩
    let hop : Hop := ⟨.new c.traceId (.ofNat 9) none "op" "svc" 0, none, ⟨0, 0⟩⟩
    (Datadog.extract source).value = some c ∧ c.isValid = true ∧ hop.record.spanId.isZero = false ∧
      Carrier.empty.isOpen = true ∧ ∃ out d, c.forward? hop = some out ∧
        (extract (inject out .empty).value).value = some d ∧ d.traceId = c.traceId ∧
        d.parentSpanId = .ofNat 9 ∧ d.priority = some .userKeep ∧ d.origin = some "rum" := by
  intro source c hop
  have hread : (Datadog.extract source).value = some c := by decide +kernel
  have hvalid : c.isValid = true := by decide
  have hspan : hop.record.spanId.isZero = false := by decide
  have hkeys : ∀ name, ∀ tag ∈ c.tags.entries, ¬ HidesItem name tag.1 := by
    intro name tag htag
    have hentries : c.tags.entries = [("_dd.p.usr", "a=b")] := by decide +kernel
    rw [hentries, List.mem_singleton] at htag
    exact not_hidesItem (by rw [htag]; decide)
  have horigin : carried "rum" = "rum" := by decide
  obtain ⟨out, d, hout, hd, htrace, hparent, -, hpriority, ho⟩ :=
    @datadog_to_trace_context source .empty c hread hvalid hop hspan rfl
  refine ⟨hread, hvalid, hspan, rfl, out, d, hout, hd, htrace, hparent, hpriority (hkeys 's'), ?_⟩
  rw [ho (hkeys 'o')]
  exact congrArg some horigin

/-- Two keys with a semicolon put another priority and another origin in the place of those of the
context. -/
theorem datadog_to_trace_context_hidden :
    let source : Carrier := .headers (.ofList [(Datadog.traceIdHeader, "1"), (Datadog.priorityHeader, "1"),
      (Datadog.originHeader, "rum"), (Datadog.tagsHeader, "_dd.p.;s=2,_dd.p.x;o=evil")])
    let hop : Hop := ⟨.new (.ofNat 1) (.ofNat 1) none "op" "svc" 0, none, ⟨0, 0⟩⟩
    ∃ c out d, (Datadog.extract source).value = some c ∧ c.isValid = true ∧
      hop.record.spanId.isZero = false ∧ c.forward? hop = some out ∧
      (extract (inject out .empty).value).value = some d ∧
      c.priority = some .autoKeep ∧ d.priority = some .userKeep ∧
      c.origin = some "rum" ∧ d.origin = some "evil" := by
  intro source hop
  let tags : Dict String := .ofList [("_dd.p.;s", "2"), ("_dd.p.x;o", "evil")]
  let c : Extracted := ⟨.ofNat 1, .zero, some .autoKeep, some "rum", tags⟩
  let d : Extracted := ⟨.ofNat 1, .ofNat 1, some .userKeep, some "evil", ∅⟩
  let out : Outgoing := ⟨c.traceId, .ofNat 1, none, c.origin, c.priority, tags⟩
  refine ⟨c, out, d, ?_, by decide, by decide, rfl, ?_, rfl, rfl, rfl, rfl⟩
  · decide +kernel
  · decide +kernel

end Tracing.TraceContext
