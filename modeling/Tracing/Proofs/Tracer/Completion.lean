import Tracing.Proofs.Tracer.Traces

/-!
# What completes a trace

A step of a tracer completes at most one trace, and then this trace is rejected, accepted with all its spans
or refused by the queue, each counted in its own way: `CompletionEffect` lists the cases, and
`completion_effect` says that there are no others. In particular a completed trace always has spans, so none
is passed over in silence.
-/

namespace Tracing

/-! ### Handing on -/

theorem Fate.between_reject (e : Exporter) : between e e.recordDroppedBySample = rejected := by
  unfold between Exporter.recordDroppedBySample
  simp

theorem Fate.between_accept (e : Exporter) (unit : List SpanRecord) :
    between e { e with queue := e.queue ++ [unit] } = accepted unit := by
  unfold between
  simp

theorem Fate.between_refuse (e : Exporter) :
    between e { e with stats := { e.stats with droppedQueueFull := e.stats.droppedQueueFull + 1 } } =
      refused := by
  unfold between
  simp

namespace TracerRun

/-! ### What a step completes -/

/-- Whether a trace was completed. -/
def isClosed (s : TracerRun) (i : Nat) : Bool := (s.tracer.traceAt i).closed

/-- The contexts of all spans of a trace, in the order of starting. -/
def contextsOf (s : TracerRun) (i : Nat) : List SpanContext := (s.spansOf i).map Span.context

/-- The names of all spans of a trace, in the order of starting. -/
def identities (s : TracerRun) (i : Nat) : List SpanIdentity := (s.spansOf i).map Span.identity

theorem contextsOf_ne_nil {s : TracerRun} {k : Nat} {a : ActiveSpan} (h : s.handles[k]? = some a) :
    s.contextsOf a.trace ≠ [] := by
  have hmem : a.span ∈ s.spansOf a.trace :=
    List.mem_map_of_mem (List.mem_filter.mpr ⟨List.mem_of_getElem? h, by simp⟩)
  exact List.ne_nil_of_mem (List.mem_map_of_mem hmem)

theorem identities_of_lineages (s : TracerRun) {i : Nat} {unit : List SpanRecord}
    (h : unit.map SpanRecord.lineage = (s.contextsOf i).map SpanContext.lineage) :
    unit.map SpanRecord.identity = s.identities i := by
  have hmap := map_identity_of_lineage h
  rwa [contextsOf, List.map_map] at hmap

/-- A step completes a trace, with the priority in force then. -/
structure Completes (s s' : TracerRun) (i : Nat) (p : Priority) (fate : Fate) : Prop where
  completed : s'.completed = s.completed ++ [{ trace := i, priority := some p, fate }]
  before : s.isClosed i = false
  after : s'.isClosed i = true
  others : ∀ k, k ≠ i → s'.isClosed k = s.isClosed k
  inForce : (s'.tracer.traceAt i).priority? = some p
  /-- A priority that was in force before is still. -/
  kept : ∀ q, (s.tracer.traceAt i).priority? = some q → q = p

/-- **What a step does about completed traces.** -/
inductive CompletionEffect (s s' : TracerRun) : Prop where
  | quiet (completed : s'.completed = s.completed) (closed : ∀ i, s'.isClosed i = s.isClosed i)
      (moves : s.tracer.exporter.Moves s.tracer.transport s'.tracer.exporter)
      (drops : s'.tracer.stats.drops = s.tracer.stats.drops)
  /-- A rejected trace is counted. -/
  | rejected (i : Nat) (p : Priority) (completes : Completes s s' i p .rejected) (reject : p.isKeep = false)
      (exporter : s'.tracer.exporter = s.tracer.exporter.recordDroppedBySample)
      (drops : s'.tracer.stats.drops =
        (s.tracer.stats.droppedBySample + 1, s.tracer.stats.droppedQueueFull))
  /-- The queue takes all spans of a kept trace together. -/
  | accepted (i : Nat) (p : Priority) (unit : List SpanRecord)
      (completes : Completes s s' i p (.accepted unit)) (keep : p.isKeep = true)
      (all : unit.map SpanRecord.identity = s'.identities i)
      (exporter : (s.tracer.exporter.enqueue unit).value = (true, s'.tracer.exporter))
      (drops : s'.tracer.stats.drops = s.tracer.stats.drops)
  /-- The queue refuses a kept trace, which is counted. -/
  | refused (i : Nat) (p : Priority) (unit : List SpanRecord)
      (completes : Completes s s' i p .refused) (keep : p.isKeep = true)
      (all : unit.map SpanRecord.identity = s'.identities i)
      (exporter : (s.tracer.exporter.enqueue unit).value = (false, s'.tracer.exporter))
      (drops : s'.tracer.stats.drops =
        (s.tracer.stats.droppedBySample, s.tracer.stats.droppedQueueFull + 1))

variable {s s' : TracerRun} {i : Nat} {t : Trace} {ops : List TraceOp}

theorem quiet_refl (s : TracerRun) : CompletionEffect s s := .quiet rfl (fun _ => rfl) (.refl _ _) rfl

/-- Nothing is completed where no trace is closed. -/
theorem quiet_of_same (completed : s'.completed = s.completed)
    (closed : ∀ i, (s'.tracer.traceAt i).closed = (s.tracer.traceAt i).closed)
    (moves : s.tracer.exporter.Moves s.tracer.transport s'.tracer.exporter) : CompletionEffect s s' :=
  .quiet completed closed moves moves.drops

/-! ### Steps of a span -/

theorem traceAt_absorb (tracer : Tracer) (hi : i < tracer.traces.length) (step : SpanStep) (clock : Clock)
    (k : Nat) : (tracer.absorb i step clock).value.traceAt k =
      if i = k then tracer.absorbed step clock else tracer.traceAt k := by
  unfold Tracer.traceAt
  rw [Tracer.traces_absorb, List.getElem?_set]
  split
  · next hik =>
    subst hik
    rfl
  · rfl

theorem closed_of_count {before after completed : Bool}
    (h : after.toNat = before.toNat + completed.toNat) :
    completed = false ∧ after = before ∨ completed = true ∧ before = false ∧ after = true := by
  cases before <;> cases after <;> cases completed <;> simp_all

theorem Follows.closed_act (hf : Follows s i t ops) {op : TraceOp} {step : SpanStep}
    (trace : (TraceRun.after t (ops ++ [op])).trace = step.trace)
    (completions : (TraceRun.after t (ops ++ [op])).completions =
      (TraceRun.after t ops).completions + step.completed.toNat) :
    step.completed = false ∧ step.trace.closed = s.isClosed i ∨
      step.completed = true ∧ s.isClosed i = false ∧ step.trace.closed = true := by
  have hbefore := (TraceRun.ledger_after hf.untouched ops).completions
  have hafter := (TraceRun.ledger_after hf.untouched (ops ++ [op])).completions
  rw [completions, hbefore, trace] at hafter
  unfold isClosed
  rw [hf.traceAt]
  exact closed_of_count hafter.symm

theorem effect_of_completed {step : SpanStep} {clock : Clock} {r : TraceRun}
    (hi : i < s.tracer.traces.length) (hcompleted : step.completed = true)
    (before : s.isClosed i = false) (after : step.trace.closed = true)
    (consistent : TraceRun.Consistent r) (trace : r.trace = step.trace)
    (priority : step.trace.priority? = (s.tracer.traceAt i).priority?)
    (tracer : s'.tracer = (s.tracer.absorb i step clock).value)
    (completed : s'.completed = s.completed ++ completionOf i s.tracer s'.tracer)
    (nonempty : step.trace.takeSpans.1 ≠ [])
    (all : step.trace.takeSpans.1.map SpanRecord.lineage = (s'.contextsOf i).map SpanContext.lineage) :
    CompletionEffect s s' := by
  obtain ⟨hforce, hkept⟩ := TraceRun.decideWith_priority consistent s.tracer.sampler
    fun sampler target => sampler.decide clock.monotonic target
  rw [trace] at hforce hkept
  rw [priority] at hkept
  have hclosed := (step.trace.spans_decide s.tracer.sampler clock.monotonic).2.trans after
  have hvalue := tracer.trans (Tracer.absorb_completed hcompleted s.tracer i clock)
  -- the trace in its place, for either outcome
  have hat : ∀ k, s'.tracer.traceAt k =
      if i = k then s.tracer.absorbed step clock else s.tracer.traceAt k := by
    intro k
    rw [tracer]
    exact traceAt_absorb s.tracer hi step clock k
  have hothers : ∀ k, k ≠ i → s'.isClosed k = s.isClosed k := by
    intro k hk
    unfold isClosed
    rw [hat, if_neg (Ne.symm hk)]
  have hown : s'.tracer.traceAt i = (step.trace.complete s.tracer.sampler clock.monotonic).value.2.1 := by
    rw [hat, if_pos rfl, Tracer.absorbed, if_pos hcompleted]
  have completes : ∀ p fate, (s'.tracer.traceAt i).closed = true → (s'.tracer.traceAt i).priority? = some p →
      (∀ q, (s.tracer.traceAt i).priority? = some q → p = q) →
      Fate.between s.tracer.exporter s'.tracer.exporter = fate → Completes s s' i p fate := by
    intro p fate hc hp hq hfate
    refine ⟨?_, before, hc, hothers, hp, fun q hq' => (hq q hq').symm⟩
    rw [completed, completionOf, if_pos ⟨before, hc⟩, hp, hfate]
  rcases Trace.complete_cases nonempty s.tracer.sampler clock.monotonic with
    ⟨hreject, houtcome⟩ | ⟨hkeep, houtcome⟩
  · rw [houtcome] at hvalue hown
    have hexporter : s'.tracer.exporter = s.tracer.exporter.recordDroppedBySample := by
      rw [hvalue]
      rfl
    exact .rejected i _ (completes _ _ (hown ▸ hclosed) (hown ▸ hforce) hkept
      (hexporter ▸ Fate.between_reject _)) hreject hexporter (by rw [Tracer.stats, hexporter]; rfl)
  · rw [houtcome] at hvalue hown
    have hexporter := congrArg Tracer.exporter hvalue
    have hall := s'.identities_of_lineages
      ((Trace.lineage_stamp (step.trace.decide s.tracer.sampler clock.monotonic).2.1 _).trans all)
    have hfate := completes _ (Fate.between s.tracer.exporter s'.tracer.exporter)
      (hown ▸ hclosed) (hown ▸ hforce) hkept rfl
    rcases Exporter.enqueue_value s.tracer.exporter
        (Trace.stamp (step.trace.decide s.tracer.sampler clock.monotonic).2.1 step.trace.takeSpans.1)
      with henqueue | henqueue
    · have haccept := hexporter.trans (congrArg Prod.snd henqueue)
      rw [haccept, Fate.between_accept] at hfate
      exact .accepted i _ _ hfate hkeep hall (haccept ▸ henqueue) (by rw [Tracer.stats, haccept]; rfl)
    · have hrefuse := hexporter.trans (congrArg Prod.snd henqueue)
      rw [hrefuse, Fate.between_refuse] at hfate
      exact .refused i _ _ hfate hkeep hall (hrefuse ▸ henqueue) (by rw [Tracer.stats, hrefuse]; rfl)

theorem quiet_act {k : Nat} {a : ActiveSpan} (ha : s.handles[k]? = some a)
    (hlt : a.trace < s.tracer.traces.length) {action : Span → Trace → SpanStep} (clock : Clock)
    (hopen : (action a.span (s.tracer.traceAt a.trace)).completed = false)
    (hclosed : (action a.span (s.tracer.traceAt a.trace)).trace.closed = s.isClosed a.trace) :
    CompletionEffect s (s.act k action clock) := by
  have hact := act_of_some ha action clock
  have hsame : ∀ i, ((s.act k action clock).tracer.traceAt i).closed = (s.tracer.traceAt i).closed := by
    intro i
    rw [hact]
    simp only
    rw [traceAt_absorb s.tracer hlt, Tracer.absorbed, if_neg (Bool.eq_false_iff.mp hopen)]
    split
    · next hi =>
      subst hi
      exact hclosed
    · rfl
  refine quiet_of_same ?_ hsame ?_
  · have hown := hsame a.trace
    rw [hact] at hown ⊢
    simp only at hown ⊢
    rw [completionOf, if_neg (fun hc => by rw [hown, hc.1] at hc; cases hc.2), List.append_nil]
  · rw [hact]
    simp only
    rw [Tracer.absorb_open hopen]
    exact .refl _ _

/-- **A trace that a step completes has all its spans.** -/
theorem Follows.lineages_act {k : Nat} {a : ActiveSpan} (hf : Follows s a.trace t ops)
    {action : Span → Trace → SpanStep} {op : TraceOp} (hnames : op.Names t.traceId) {clock : Clock}
    (hc : TraceRun.Completes (TraceRun.after t ops) op)
    (hspans : (s.act k action clock).spansOf a.trace = (TraceRun.after t (ops ++ [op])).handles) :
    (TraceRun.after t (ops ++ [op])).trace.takeSpans.1.map SpanRecord.lineage =
      ((s.act k action clock).contextsOf a.trace).map SpanContext.lineage := by
  have hnamed : ∀ o ∈ ops ++ [op], o.Names t.traceId := fun o ho =>
    (List.mem_append.mp ho).elim (hf.named o) fun ho => List.mem_singleton.mp ho ▸ hnames
  unfold contextsOf
  rw [hspans]
  exact TraceRun.lineages_takeSpans (TraceRun.ledger_after hf.untouched ops) hnamed hc

/-- **What a step through a handle does about completed traces.** -/
theorem act_effect (h : Followed s) (k : Nat) {action : Span → Trace → SpanStep} (op : Nat → TraceOp)
    (hop : ∀ (j : Nat) (r : TraceRun), r.step (op j) = r.act j action)
    (hnames : ∀ j id, (op j).Names id)
    (hpriority : ∀ span t, (action span t).trace.priority? = t.priority?) (clock : Clock) :
    CompletionEffect s (s.act k action clock) := by
  cases ha : s.handles[k]? with
  | none =>
    rw [act_of_none ha]
    exact quiet_refl s
  | some a =>
    obtain ⟨t, ops, hf⟩ := h.of_handle ha
    obtain ⟨j, hstep, hspans⟩ := hf.exists_act ha op hop clock
    have hlt := h.bound a (List.mem_of_getElem? ha)
    have htrace := congrArg TraceRun.trace hstep
    have hown := hspans a.trace
    rw [if_pos rfl] at hown
    rcases hf.closed_act htrace (congrArg TraceRun.completions hstep) with
      ⟨hopen, hclosed⟩ | ⟨hcompleted, hbefore, hafter⟩
    · exact quiet_act ha hlt clock hopen hclosed
    · have hcompletes := TraceRun.completes_of_reported (congrArg TraceRun.completions hstep) hcompleted
      have hall := hf.lineages_act (hnames j _) hcompletes hown
      rw [htrace] at hall
      have hact := act_of_some ha action clock
      have hhandle : (s.act k action clock).handles[k]? =
          some { a with span := (action a.span (s.tracer.traceAt a.trace)).span } := by
        rw [hact]
        exact List.getElem?_set_self (List.getElem?_eq_some_iff.mp ha).1
      refine effect_of_completed hlt hcompleted hbefore hafter
        (TraceRun.consistent_after hf.untouched (ops ++ [op j])) htrace
        (hpriority a.span _) (by rw [hact]) (by rw [hact]) (fun hnil => ?_) hall
      -- the handle of the step itself is one of the spans
      rw [hnil] at hall
      exact contextsOf_ne_nil hhandle (List.map_eq_nil_iff.mp hall.symm)

/-! ### All operations -/

theorem closed_addTrace (tracer : Tracer) {u : Trace} (hu : u.Untouched) (k : Nat) :
    ((tracer.addTrace u).2.traceAt k).closed = (tracer.traceAt k).closed := by
  have hclosed : u.closed = false := hu.fields.2.1
  unfold Tracer.traceAt Tracer.addTrace
  simp only
  by_cases hlt : k < tracer.traces.length
  · rw [List.getElem?_append_left hlt]
  · rw [List.getElem?_eq_none (by omega : tracer.traces.length ≤ k), List.getElem?_append_right (by omega),
      List.getElem?_singleton]
    split
    · exact hclosed
    · rfl

theorem closed_store (tracer : Tracer) {trace : Trace} (h : trace.closed = (tracer.traceAt i).closed)
    (k : Nat) : ((tracer.store i trace).traceAt k).closed = (tracer.traceAt k).closed := by
  unfold Tracer.traceAt Tracer.store at *
  rw [List.getElem?_set]
  split
  · next hik =>
    subst hik
    split
    · exact h
    · next hlt => rw [List.getElem?_eq_none (by omega)]
  · rfl

theorem closed_start (t : Trace) (record : SpanRecord) (startTime : Option Int) (clock : Clock) :
    (Span.start t record startTime clock).value.trace.closed = t.closed := by
  cases h : t.closed <;> simp [Span.start, Trace.openSpan, h]

theorem quiet_start (s : TracerRun) (origin : Origin) (options : SpanOptions) (draw : Draw) (clock : Clock) :
    CompletionEffect s (s.step (.start origin options draw clock)) := by
  cases hparent : s.parent? origin with
  | none =>
    rw [step_start_of_none hparent]
    exact quiet_refl s
  | some parent =>
    have hfound : ∀ k, ((s.tracer.traceFor parent draw.trace clock).2.2.traceAt k).closed =
        (s.tracer.traceAt k).closed ∧
        (s.tracer.traceFor parent draw.trace clock).2.2.exporter = s.tracer.exporter := by
      intro k
      cases parent with
      | root => exact ⟨closed_addTrace _ (.fresh _) k, rfl⟩
      | span => exact ⟨rfl, rfl⟩
      | extracted context =>
        simp only [Tracer.traceFor]
        cases htrace : Trace.ofExtracted? context with
        | some u => exact ⟨closed_addTrace _ (.continued htrace) k, rfl⟩
        | none => exact ⟨closed_addTrace _ (.fresh _) k, rfl⟩
    rw [step_start_of_some hparent]
    refine quiet_of_same rfl (fun k => (closed_store _ ?_ k).trans (hfound k).1) ?_
    · exact closed_start _ _ _ _
    · show Exporter.Moves _ _ (s.tracer.traceFor parent draw.trace clock).2.2.exporter
      rw [(hfound 0).2]
      exact .refl _ _

theorem quiet_through (s : TracerRun) {k : Nat} {f : ActiveSpan → Tracer} {trace : ActiveSpan → Trace}
    (tracer : ∀ a, (f a).traces = (s.tracer.store a.trace (trace a)).traces)
    (exporter : ∀ a, (f a).exporter = s.tracer.exporter)
    (closed : ∀ a, (trace a).closed = (s.tracer.traceAt a.trace).closed) :
    CompletionEffect s (s.through k f) := by
  unfold through
  split
  · exact quiet_refl s
  · next a _ =>
    refine quiet_of_same rfl (fun i => ?_) ?_
    · have hat : (f a).traceAt i = (s.tracer.store a.trace (trace a)).traceAt i := by
        unfold Tracer.traceAt
        rw [tracer]
      exact (congrArg Trace.closed hat).trans (closed_store s.tracer (closed a) i)
    · show Exporter.Moves _ _ (f a).exporter
      rw [exporter]
      exact .refl _ _

theorem quiet_choose (s : TracerRun) (k : Nat) (p : Priority) :
    CompletionEffect s (s.step (.choose k p)) :=
  quiet_through s (fun _ => rfl) (fun _ => rfl) fun a =>
    (TraceRun.sameSpans_choose { trace := s.tracer.traceAt a.trace } p).closed

theorem quiet_of_moves {e : Exporter} (moves : s.tracer.exporter.Moves s.tracer.transport e)
    {tracer : Tracer} (traces : tracer.traces = s.tracer.traces) (exporter : tracer.exporter = e) :
    CompletionEffect s { s with tracer } := by
  subst exporter
  refine quiet_of_same rfl (fun i => ?_) moves
  show (tracer.traceAt i).closed = _
  unfold Tracer.traceAt
  rw [traces]

theorem quiet_shutdown (s : TracerRun) : CompletionEffect s (s.step .shutdown) := by
  let stopped := (s.tracer.exporter.shutdown s.tracer.transport s.tracer.config.shutdownTimeout).value.2
  have moves : s.tracer.exporter.Moves s.tracer.transport stopped :=
    (Exporter.Moves.event s.tracer.transport s.exports .cancel).trans
      (.of_passes (Exporter.shutdown_passes _ _ _))
  show CompletionEffect s { s with tracer := s.tracer.shutdown.value.2 }
  rcases s.tracer.shutdown_value with hstop | hstop
  · rw [hstop]
    exact quiet_of_moves moves rfl rfl
  · rw [hstop]
    exact quiet_of_moves (moves.trans (.event s.tracer.transport { exporter := stopped } .abort)) rfl rfl

/-- **What one operation does about completed traces.** -/
theorem completion_effect (h : Followed s) (op : TracerOp) : CompletionEffect s (s.step op) := by
  cases op with
  | start origin options draw clock => exact quiet_start s origin options draw clock
  | change k c clock =>
    exact act_effect h k (fun j => .change j c) (fun _ _ => rfl) (fun _ _ => trivial)
      (fun span t => (TraceRun.sameContext_change c span t).priority) clock
  | finish k ending clock =>
    exact act_effect h k (fun j => .finish j ending) (fun _ _ => rfl) (fun _ _ => trivial)
      (fun span t => (TraceRun.sameContext_end ending span t).priority) clock
  | decide k clock =>
    exact quiet_through s (fun _ => rfl) (fun _ => rfl) fun a => (Trace.spans_decide _ _ _).2
  | decideWith k policy =>
    exact quiet_through s (fun _ => rfl) (fun _ => rfl) fun a =>
      ((s.tracer.traceAt a.trace).spans_decideWith () fun _ target => (policy target, ())).2
  | choose k p => exact quiet_choose s k p
  | agentRates rates => exact quiet_of_moves (.refl _ _) rfl rfl
  | worker event => exact quiet_of_moves (.event _ s.exports event) rfl rfl
  | sleep millis => exact quiet_of_moves (.of_passes (Exporter.sleep_passes _ _ _)) rfl rfl
  | shutdown => exact quiet_shutdown s

end TracerRun

end Tracing
