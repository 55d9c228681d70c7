import Tracing.Proofs.Trace.DecisionOnce
import Tracing.Proofs.Trace.Identity
import Tracing.Proofs.Tracer.Run

/-!
# The traces of a tracer

The traces of a tracer do not know of each other. Each has the state that a run of its own leads to
(`Follows`), whatever happens to the others in between (`followed_step`). So what holds of the runs of a
trace holds of every trace of a tracer: that it completes once, that it is decided about once, and that the
receiver finds all its spans.
-/

namespace Tracing

/-! ### Completion -/

namespace Trace

theorem complete_value (t : Trace) (sampler : Sampler) (now : Nat) :
    let decided := t.decide sampler now
    (t.complete sampler now).value =
      if decided.1.isKeep then
        (if decided.2.1.takeSpans.1.isEmpty then .empty
          else .kept (decided.2.1.stamp decided.2.1.takeSpans.1), decided.2.1.takeSpans.2, decided.2.2)
      else (.rejected, decided.2.1, decided.2.2) := by
  intro decided
  show Logged.value (if decided.1.isKeep then _ else _) = _
  split <;> rfl

theorem spans_settle (t : Trace) (d : Decision) :
    (t.settle d).takeSpans.1 = t.takeSpans.1 ∧ (t.settle d).closed = t.closed := by
  unfold settle recordDecisionMaker
  split <;> exact ⟨rfl, rfl⟩

theorem spans_decideWith (t : Trace) {σ : Type} (state : σ) (policy : σ → Target → Decision × σ) :
    (t.decideWith state policy).2.1.takeSpans.1 = t.takeSpans.1 ∧
      (t.decideWith state policy).2.1.closed = t.closed := by
  unfold decideWith
  cases t.decision with
  | some d => exact ⟨rfl, rfl⟩
  | none => exact t.spans_settle _

theorem spans_decide (t : Trace) (sampler : Sampler) (now : Nat) :
    (t.decide sampler now).2.1.takeSpans.1 = t.takeSpans.1 ∧
      (t.decide sampler now).2.1.closed = t.closed := t.spans_decideWith sampler _

/-- **A completed trace that has spans is rejected or handed on with all of them.** -/
theorem complete_cases {t : Trace} (h : t.takeSpans.1 ≠ []) (sampler : Sampler) (now : Nat) :
    let decided := t.decide sampler now
    (decided.1.isKeep = false ∧
      (t.complete sampler now).value = (.rejected, decided.2.1, decided.2.2)) ∨
    (decided.1.isKeep = true ∧ (t.complete sampler now).value =
      (.kept (decided.2.1.stamp t.takeSpans.1), decided.2.1.takeSpans.2, decided.2.2)) := by
  intro decided
  have hvalue := t.complete_value sampler now
  cases hkeep : decided.1.isKeep with
  | false => exact .inl ⟨rfl, hvalue.trans (if_neg (Bool.eq_false_iff.mp hkeep))⟩
  | true =>
    refine .inr ⟨rfl, (hvalue.trans (if_pos hkeep)).trans ?_⟩
    have hspans : decided.2.1.takeSpans.1 = t.takeSpans.1 :=
      (t.spans_decide sampler now).1
    rw [hspans, if_neg (by simpa using h)]

end Trace

theorem TraceRun.consult_trace (r : TraceRun) {σ : Type} (state : σ) (policy : σ → Target → Decision × σ) :
    (r.consult fun target => (policy state target).1).trace = (r.trace.decideWith state policy).2.1 := by
  unfold Trace.decideWith
  cases h : r.trace.decision with
  | some d => rw [consult_of_some h]
  | none => rw [consult_of_none h]

theorem TraceRun.Ledger.closed_of_pos {t : Trace} {ops : List TraceOp} (h : Ledger t ops)
    (hpos : 0 < (after t ops).completions) : (after t ops).trace.closed = true := by
  rw [h.completions] at hpos
  cases hclosed : (after t ops).trace.closed with
  | true => rfl
  | false =>
    rw [hclosed] at hpos
    cases hpos

theorem TraceRun.completes_of_reported {t : Trace} {ops : List TraceOp} {op : TraceOp} {completed : Bool}
    (h : (after t (ops ++ [op])).completions = (after t ops).completions + completed.toNat)
    (hcompleted : completed = true) : Completes (after t ops) op := by
  rw [Completes, ← after_concat, h, hcompleted]
  rfl

/-- Completing a closed trace is a run of the trace. -/
theorem TraceRun.exists_complete {t : Trace} {ops : List TraceOp} (h : (after t ops).trace.closed = true)
    (sampler : Sampler) (now : Nat) : ∃ more, (∀ op ∈ more, ∀ id, op.Names id) ∧
      (after t (ops ++ more)).trace = ((after t ops).trace.complete sampler now).value.2.1 ∧
      (after t (ops ++ more)).handles = (after t ops).handles := by
  have hdecide := consult_decide (after t ops) sampler now
  have hclosed : ((after t ops).step (.decide sampler now)).trace.closed = true :=
    (sameSpans_consult (after t ops) fun target => (sampler.decide now target).1).closed.trans h
  rw [Trace.complete_value]
  split
  · have hcollect : after t (ops ++ [.decide sampler now, .collect]) =
        { (after t ops).step (.decide sampler now) with
          trace := ((after t ops).step (.decide sampler now)).trace.takeSpans.2 } := by
      rw [after_append]
      exact if_pos hclosed
    refine ⟨[.decide sampler now, .collect], by simp [TraceOp.Names], ?_⟩
    rw [hcollect, ← hdecide]
    exact ⟨rfl, rfl⟩
  · refine ⟨[.decide sampler now], by simp [TraceOp.Names], ?_⟩
    rw [after_concat]
    exact ⟨hdecide, rfl⟩

/-- The trace that takes its place after a step of one of its spans. -/
def Tracer.absorbed (t : Tracer) (step : SpanStep) (clock : Clock) : Trace :=
  if step.completed then (step.trace.complete t.sampler clock.monotonic).value.2.1 else step.trace

/-- What the exporter does with a completed trace. -/
def Tracer.handedOn (e : Exporter) : Trace.Outcome → Exporter
  | .rejected => e.recordDroppedBySample
  | .empty => e
  | .kept spans => (e.enqueue spans).value.2

/-- Handing on a trace concerns the exporter alone. -/
theorem Tracer.handOn_value (t : Tracer) (outcome : Trace.Outcome) :
    (t.handOn outcome).value = { t with exporter := handedOn t.exporter outcome } := by
  cases outcome <;> rfl

theorem Tracer.absorb_open {step : SpanStep} (h : step.completed = false) (t : Tracer) (i : Nat)
    (clock : Clock) : (t.absorb i step clock).value = t.store i step.trace := by
  unfold absorb
  rw [h]
  rfl

theorem Tracer.absorb_completed {step : SpanStep} (h : step.completed = true) (t : Tracer) (i : Nat)
    (clock : Clock) :
    let complete := (step.trace.complete t.sampler clock.monotonic).value
    (t.absorb i step clock).value = { t with
      sampler := complete.2.2
      traces := t.traces.set i complete.2.1
      exporter := handedOn t.exporter complete.1 } := by
  intro complete
  unfold absorb
  rw [h]
  exact handOn_value _ _

theorem Tracer.traces_absorb (t : Tracer) (i : Nat) (step : SpanStep) (clock : Clock) :
    (t.absorb i step clock).value.traces = t.traces.set i (t.absorbed step clock) := by
  unfold absorbed
  cases h : step.completed with
  | true =>
    rw [absorb_completed h]
    rfl
  | false =>
    rw [absorb_open h]
    rfl

namespace TracerRun

/-! ### Traces on their own -/

/-- A trace of a tracer has the state that a run of its own leads to. -/
structure Follows (s : TracerRun) (i : Nat) (t : Trace) (ops : List TraceOp) : Prop where
  untouched : t.Untouched
  trace : s.tracer.traces[i]? = some (TraceRun.after t ops).trace
  spans : s.spansOf i = (TraceRun.after t ops).handles
  named : ∀ op ∈ ops, op.Names t.traceId

variable {s s' : TracerRun} {i : Nat} {t : Trace} {ops : List TraceOp}

theorem Follows.traceAt (h : Follows s i t ops) : s.tracer.traceAt i = (TraceRun.after t ops).trace := by
  unfold Tracer.traceAt
  rw [h.trace]
  rfl

theorem Follows.frame (h : Follows s i t ops) (trace : s'.tracer.traces[i]? = s.tracer.traces[i]?)
    (spans : s'.spansOf i = s.spansOf i) : Follows s' i t ops :=
  ⟨h.untouched, trace.trans h.trace, spans.trans h.spans, h.named⟩

/-- A trace goes on with operations of its own. -/
theorem Follows.advance (h : Follows s i t ops) {more : List TraceOp}
    (trace : s'.tracer.traces[i]? = some (TraceRun.after t (ops ++ more)).trace)
    (spans : s'.spansOf i = (TraceRun.after t (ops ++ more)).handles)
    (named : ∀ op ∈ more, op.Names t.traceId) : Follows s' i t (ops ++ more) :=
  ⟨h.untouched, trace, spans, fun op hop => (List.mem_append.mp hop).elim (h.named op) (named op)⟩

/-- Every trace follows a run of its own, and every handle has a trace. -/
structure Followed (s : TracerRun) : Prop where
  follows : ∀ i < s.tracer.traces.length, ∃ t ops, Follows s i t ops
  bound : ∀ a ∈ s.handles, a.trace < s.tracer.traces.length

theorem Followed.of_handle (h : Followed s) {k : Nat} {a : ActiveSpan} (ha : s.handles[k]? = some a) :
    ∃ t ops, Follows s a.trace t ops := h.follows _ (h.bound a (List.mem_of_getElem? ha))

theorem Followed.set (h : Followed s) {trace : Trace}
    (traces : s'.tracer.traces = s.tracer.traces.set i trace)
    (bound : ∀ a ∈ s'.handles, a.trace < s.tracer.traces.length)
    (others : ∀ k, i ≠ k → s'.spansOf k = s.spansOf k)
    (own : ∀ t ops, Follows s i t ops → ∃ ops', Follows s' i t ops') : Followed s' := by
  refine ⟨fun k hk => ?_, fun a ha => by rw [traces, List.length_set]; exact bound a ha⟩
  rw [traces, List.length_set] at hk
  obtain ⟨t, ops, hf⟩ := h.follows k hk
  by_cases hik : i = k
  · subst hik
    exact ⟨t, own t ops hf⟩
  · exact ⟨t, ops, hf.frame (by rw [traces, List.getElem?_set_ne hik]) (others k hik)⟩

/-! ### Steps of a span -/

/-- A handle of the tracer is a handle of its trace, and acts on that trace alone. -/
theorem Follows.exists_act {k : Nat} {a : ActiveSpan} (hf : Follows s a.trace t ops)
    (ha : s.handles[k]? = some a) {action : Span → Trace → SpanStep} (op : Nat → TraceOp)
    (hop : ∀ (j : Nat) (r : TraceRun), r.step (op j) = r.act j action) (clock : Clock) : ∃ j,
      let step := action a.span (s.tracer.traceAt a.trace)
      TraceRun.after t (ops ++ [op j]) = { TraceRun.after t ops with
        trace := step.trace
        handles := (TraceRun.after t ops).handles.set j step.span
        completions := (TraceRun.after t ops).completions + step.completed.toNat } ∧
      ∀ i, (s.act k action clock).spansOf i =
        if a.trace = i then (TraceRun.after t (ops ++ [op j])).handles else s.spansOf i := by
  obtain ⟨j, hj, hset⟩ := exists_place ha
  refine ⟨j, ?_⟩
  intro step
  have hspan : (TraceRun.after t ops).handles[j]? = some a.span := hf.spans ▸ hj
  have hstep : TraceRun.after t (ops ++ [op j]) = { TraceRun.after t ops with
      trace := step.trace
      handles := (TraceRun.after t ops).handles.set j step.span
      completions := (TraceRun.after t ops).completions + step.completed.toNat } := by
    rw [TraceRun.after_concat, hop, TraceRun.act_of_some hspan, ← hf.traceAt]
  refine ⟨hstep, fun i => ?_⟩
  rw [act_of_some ha, hstep]
  show spansIn i (s.handles.set k { a with span := step.span }) = _
  rw [hset]
  split
  · next hi =>
    subst hi
    rw [← hf.spans]
    rfl
  · rfl

theorem followed_act (h : Followed s) (k : Nat) {action : Span → Trace → SpanStep} (op : Nat → TraceOp)
    (hop : ∀ (j : Nat) (r : TraceRun), r.step (op j) = r.act j action)
    (hnames : ∀ j id, (op j).Names id) (clock : Clock) : Followed (s.act k action clock) := by
  cases ha : s.handles[k]? with
  | none => rwa [act_of_none ha]
  | some a =>
    obtain ⟨t₀, ops₀, hf₀⟩ := h.of_handle ha
    have hlt := (List.getElem?_eq_some_iff.mp hf₀.trace).1
    have htraces : (s.act k action clock).tracer.traces = s.tracer.traces.set a.trace
        (s.tracer.absorbed (action a.span (s.tracer.traceAt a.trace)) clock) := by
      rw [act_of_some ha]
      exact Tracer.traces_absorb _ _ _ _
    refine h.set htraces (fun b hb => ?_) (fun i hi => ?_) fun t ops hf => ?_
    · rw [act_of_some ha] at hb
      rcases List.mem_or_eq_of_mem_set hb with hb | rfl
      · exact h.bound b hb
      · exact hlt
    · obtain ⟨j, -, hspans⟩ := hf₀.exists_act ha op hop clock
      rw [hspans, if_neg hi]
    · obtain ⟨j, hstep, hspans⟩ := hf.exists_act ha op hop clock
      have hown := hspans a.trace
      rw [if_pos rfl] at hown
      have htrace := congrArg TraceRun.trace hstep
      have hat : (s.act k action clock).tracer.traces[a.trace]? =
          some (s.tracer.absorbed (action a.span (s.tracer.traceAt a.trace)) clock) := by
        rw [htraces, List.getElem?_set_self hlt]
      unfold Tracer.absorbed at hat
      split at hat
      · next hcompleted =>
        -- the trace is complete: it is decided about and its spans are taken out
        have hclosed := (TraceRun.ledger_after hf.untouched (ops ++ [op j])).closed_of_pos
          (by rw [hstep, hcompleted]; exact Nat.succ_pos _)
        obtain ⟨more, hmore, hcomplete, hhandles⟩ :=
          TraceRun.exists_complete hclosed s.tracer.sampler clock.monotonic
        refine ⟨ops ++ ([op j] ++ more), hf.advance ?_ ?_ ?_⟩
        · rw [hat, ← List.append_assoc, hcomplete, htrace]
        · rw [hown, ← List.append_assoc, hhandles]
        · intro o ho
          rcases List.mem_append.mp ho with ho | ho
          · rw [List.mem_singleton.mp ho]
            exact hnames j _
          · exact hmore o ho _
      · exact ⟨ops ++ [op j], hf.advance (by rw [hat, htrace]) hown (by simpa using hnames j t.traceId)⟩

/-! ### Decisions -/

theorem followed_through (h : Followed s) {k : Nat} {f : ActiveSpan → Tracer} {trace : ActiveSpan → Trace}
    (op : TraceOp) (hop : ∀ id, op.Names id)
    (traces : ∀ a, (f a).traces = s.tracer.traces.set a.trace (trace a))
    (own : ∀ (a : ActiveSpan) (r : TraceRun), r.trace = s.tracer.traceAt a.trace →
      (r.step op).trace = trace a ∧ (r.step op).handles = r.handles) : Followed (s.through k f) := by
  unfold through
  split
  · exact h
  · next a ha =>
    refine h.set (traces a) h.bound (fun _ _ => rfl) fun t ops hf => ⟨ops ++ [op], ?_⟩
    obtain ⟨htrace, hhandles⟩ := own a (TraceRun.after t ops) hf.traceAt.symm
    rw [← TraceRun.after_concat] at htrace hhandles
    refine hf.advance ?_ (hf.spans.trans hhandles.symm) (by simpa using hop t.traceId)
    rw [htrace]
    show (f a).traces[a.trace]? = _
    rw [traces, List.getElem?_set_self (List.getElem?_eq_some_iff.mp hf.trace).1]

/-! ### Starts -/

theorem followed_addTrace (h : Followed s) {u : Trace} (hu : u.Untouched) :
    Followed { s with tracer := (s.tracer.addTrace u).2 } := by
  refine ⟨fun k hk => ?_, fun a ha => ?_⟩
  · by_cases hlt : k < s.tracer.traces.length
    · obtain ⟨t, ops, hf⟩ := h.follows k hlt
      exact ⟨t, ops, hf.frame (List.getElem?_append_left hlt) rfl⟩
    · -- the new trace has no spans yet
      have hlast : k = s.tracer.traces.length := by
        simp only [Tracer.addTrace, List.length_append, List.length_singleton] at hk
        omega
      subst hlast
      exact ⟨u, [], hu, by simp [Tracer.addTrace], spansIn_eq_nil fun a ha => Nat.ne_of_lt (h.bound a ha),
        by simp⟩
  · have hlt := h.bound a ha
    simp only [Tracer.addTrace, List.length_append, List.length_singleton]
    omega

theorem followed_open (h : Followed s) (hi : i < s.tracer.traces.length) {record : SpanRecord}
    (hrecord : record.traceId = (s.tracer.traceAt i).traceId) (startTime : Option Int) (clock : Clock) :
    let opened := (Span.start (s.tracer.traceAt i) record startTime clock).value
    Followed { s with
      tracer := s.tracer.store i opened.trace
      handles := s.handles ++ [{ trace := i, span := opened.span }] } := by
  intro opened
  have hspans : ∀ k, spansIn k (s.handles ++ [{ trace := i, span := opened.span }]) =
      s.spansOf k ++ if i = k then [opened.span] else [] := by
    intro k
    rw [spansIn_append, spansIn_cons]
    rfl
  refine h.set rfl (fun a ha => ?_) (fun k hik => ?_) fun t ops hf =>
    ⟨ops ++ [.start record startTime clock], ?_⟩
  · rcases List.mem_append.mp ha with ha | ha
    · exact h.bound a ha
    · rw [List.mem_singleton.mp ha]
      exact hi
  · exact (hspans k).trans (by rw [if_neg hik, List.append_nil])
  · have hopened : opened = (Span.start (TraceRun.after t ops).trace record startTime clock).value := by
      rw [← hf.traceAt]
    refine hf.advance ?_ ?_ ?_
    · rw [TraceRun.after_concat]
      show (s.tracer.traces.set i opened.trace)[i]? = _
      rw [List.getElem?_set_self hi, hopened]
      rfl
    · rw [TraceRun.after_concat]
      refine (hspans i).trans ?_
      rw [if_pos rfl, hf.spans, hopened]
      rfl
    · intro op hop
      obtain rfl := List.mem_singleton.mp hop
      show record.traceId = t.traceId
      rw [hrecord, hf.traceAt, TraceRun.traceId_after]

/-- The trace of a new span is one of the tracer or a new one. -/
theorem followed_traceFor (h : Followed s) {parent : Parent}
    (hparent : ∀ a, parent = .span a → a.trace < s.tracer.traces.length) (random : Nat) (clock : Clock) :
    let found := s.tracer.traceFor parent random clock
    Followed { s with tracer := found.2.2 } ∧ found.1 < found.2.2.traces.length := by
  have hadd : ∀ {u : Trace}, u.Untouched → Followed { s with tracer := (s.tracer.addTrace u).2 } ∧
      (s.tracer.addTrace u).1 < (s.tracer.addTrace u).2.traces.length :=
    fun hu => ⟨followed_addTrace h hu, by simp [Tracer.addTrace]⟩
  cases parent with
  | root => exact hadd (.fresh _)
  | span a => exact ⟨h, hparent a rfl⟩
  | extracted context =>
    simp only [Tracer.traceFor]
    cases htrace : Trace.ofExtracted? context with
    | some u => exact hadd (.continued htrace)
    | none => exact hadd (.fresh _)

theorem lineage_newRecord (c : Config) (o : SpanOptions) (traceId : TraceId) (spanId : SpanId)
    (parentId : Option SpanId) (clock : Clock) :
    (Tracer.newRecord c o traceId spanId parentId clock).lineage = ⟨⟨traceId, spanId⟩, parentId⟩ :=
  SpanRecord.lineage_setTags _ _

theorem traceId_newRecord (c : Config) (o : SpanOptions) (traceId : TraceId) (spanId : SpanId)
    (parentId : Option SpanId) (clock : Clock) :
    (Tracer.newRecord c o traceId spanId parentId clock).traceId = traceId :=
  congrArg (·.identity.traceId) (lineage_newRecord c o traceId spanId parentId clock)

theorem context_newRecord (c : Config) (o : SpanOptions) (t : Trace) (spanId : SpanId)
    (parentId : Option SpanId) (startTime : Option Int) (clock : Clock) :
    (Span.start t (Tracer.newRecord c o t.traceId spanId parentId clock) startTime clock).value.span.context =
      ⟨t.traceId, spanId, parentId, t.origin⟩ := by
  have hlineage := lineage_newRecord c o t.traceId spanId parentId clock
  rw [TraceRun.context_start]
  exact congrArg₂ (fun spanId parentId => SpanContext.mk t.traceId spanId parentId t.origin)
    (congrArg (·.identity.spanId) hlineage) (congrArg SpanLineage.parentId hlineage)

theorem step_start_of_none {origin : Origin} (h : s.parent? origin = none) (options : SpanOptions)
    (draw : Draw) (clock : Clock) : s.step (.start origin options draw clock) = s := by
  simp only [step, h]

theorem step_start_of_some {origin : Origin} {parent : Parent} (h : s.parent? origin = some parent)
    (options : SpanOptions) (draw : Draw) (clock : Clock) :
    let found := s.tracer.traceFor parent draw.trace clock
    let record := Tracer.newRecord found.2.2.config { options with parent }
      (found.2.2.traceAt found.1).traceId (.fresh draw.span) found.2.1 clock
    let opened := (Span.start (found.2.2.traceAt found.1) record options.startTime clock).value
    s.step (.start origin options draw clock) = { s with
      tracer := found.2.2.store found.1 opened.trace
      handles := s.handles ++ [{ trace := found.1, span := opened.span }] } := by
  simp only [step, h]
  rfl

theorem followed_start (h : Followed s) (origin : Origin) (options : SpanOptions) (draw : Draw)
    (clock : Clock) : Followed (s.step (.start origin options draw clock)) := by
  cases hparent : s.parent? origin with
  | none => rwa [step_start_of_none hparent]
  | some parent =>
    have hbound : ∀ a, parent = .span a → a.trace < s.tracer.traces.length := by
      rintro a rfl
      cases origin with
      | child k =>
        obtain ⟨b, hb, hspan⟩ := Option.map_eq_some_iff.mp hparent
        obtain rfl := Parent.span.inj hspan
        exact h.bound b (List.mem_of_getElem? hb)
      | root | continued => cases hparent
    obtain ⟨hfound, hlt⟩ := followed_traceFor h hbound draw.trace clock
    rw [step_start_of_some hparent]
    exact followed_open hfound hlt (traceId_newRecord _ _ _ _ _ _) options.startTime clock

/-! ### All operations -/

/-- **The traces of a tracer do not know of each other**: every operation leaves each on a run of its own. -/
theorem followed_step (h : Followed s) (op : TracerOp) : Followed (s.step op) := by
  have hquiet : ∀ s' : TracerRun, s'.tracer.traces = s.tracer.traces → s'.handles = s.handles → Followed s' := by
    intro s' traces handles
    refine ⟨fun i hi => ?_, fun a ha => ?_⟩
    · obtain ⟨t, ops, hf⟩ := h.follows i (traces ▸ hi)
      exact ⟨t, ops, hf.frame (by rw [traces]) (by unfold spansOf; rw [handles])⟩
    · rw [traces]
      exact h.bound a (handles ▸ ha)
  cases op with
  | start origin options draw clock => exact followed_start h origin options draw clock
  | change k c clock =>
    exact followed_act h k (fun j => .change j c) (fun _ _ => rfl) (fun _ _ => trivial) clock
  | finish k ending clock =>
    exact followed_act h k (fun j => .finish j ending) (fun _ _ => rfl) (fun _ _ => trivial) clock
  | decide k clock =>
    refine followed_through h (.decide s.tracer.sampler clock.monotonic) (fun _ => trivial)
      (fun _ => rfl) fun a r hr => ⟨?_, rfl⟩
    rw [TraceRun.consult_decide, hr]
    rfl
  | decideWith k policy =>
    refine followed_through h (.decideWith policy) (fun _ => trivial) (fun _ => rfl)
      fun a r hr => ⟨?_, rfl⟩
    show (r.consult policy).trace = _
    rw [TraceRun.consult_trace r () fun _ target => (policy target, ()), hr]
    rfl
  | choose k p =>
    refine followed_through h (.choose p) (fun _ => trivial) (fun _ => rfl) fun a r hr => ⟨?_, rfl⟩
    show (r.trace.setManualPriority p).value = _
    rw [hr]
    rfl
  | agentRates rates => exact hquiet _ rfl rfl
  | worker event => exact hquiet _ rfl rfl
  | sleep millis => exact hquiet _ rfl rfl
  | shutdown =>
    refine hquiet _ ?_ rfl
    show s.tracer.shutdown.value.2.traces = s.tracer.traces
    rcases s.tracer.shutdown_value with hstop | hstop <;> rw [hstop]

end TracerRun

end Tracing
