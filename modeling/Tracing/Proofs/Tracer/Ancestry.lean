import Tracing.Proofs.Trace.Context
import Tracing.Proofs.Tracer.Accounting

/-!
# The tree of an exported trace

The first span of a trace is the one whose start created it, and every later one names an earlier one as its
parent: a child is started from a handle that the tracer gave out, so its parent has been there (`Birth`). What
a completed trace hands to the queue of the exporter are the records of all its spans in the order of starting
(`lineages_of_handed`), so the receiver never meets a span before its parent.

* `handed_over_as_tree`: every list of spans that is ever handed to the queue, accepted or not, is a tree with the
  span that created the trace as its root.
-/

namespace Tracing

/-! ### What is handed to the queue -/

/-- The spans of a trace that is kept. -/
def Trace.Outcome.spans? : Trace.Outcome → Option (List SpanRecord)
  | kept spans => some spans
  | rejected | empty => none

/-- The spans that a step of a span hands to the queue of the exporter, if any. -/
def Tracer.handed? (t : Tracer) (step : SpanStep) (clock : Clock) : Option (List SpanRecord) :=
  if step.completed then (step.trace.complete t.sampler clock.monotonic).value.1.spans? else none

namespace TracerRun

def handedBy? (s : TracerRun) (k : Nat) (action : Span → Trace → SpanStep) (clock : Clock) :
    Option (List SpanRecord) :=
  s.handles[k]?.bind fun a => s.tracer.handed? (action a.span (s.tracer.traceAt a.trace)) clock

/-- The spans that an operation hands to the queue of the exporter, if any. -/
def handed? (s : TracerRun) : TracerOp → Option (List SpanRecord)
  | .change k c clock => s.handedBy? k c.apply clock
  | .finish k ending clock => s.handedBy? k ending.apply clock
  | _ => none

end TracerRun

theorem Tracer.handed?_eq_some {t : Tracer} {step : SpanStep} {clock : Clock} {unit : List SpanRecord}
    (h : t.handed? step clock = some unit) : step.completed = true ∧
      (step.trace.complete t.sampler clock.monotonic).value.1 = .kept unit ∧
      ∃ decided : Trace, unit = decided.stamp step.trace.takeSpans.1 := by
  unfold handed? at h
  split at h
  · next hcompleted =>
    refine ⟨hcompleted, ?_⟩
    have hspans := (step.trace.spans_decide t.sampler clock.monotonic).1
    rw [Trace.complete_value] at h ⊢
    split at h
    · next hkeep =>
      rw [if_pos hkeep]
      simp only at h ⊢
      split at h
      · cases h
      · next hsome =>
        obtain rfl := Option.some.inj h
        rw [if_neg hsome]
        exact ⟨rfl, _, congrArg _ hspans⟩
    · cases h
  · cases h

theorem Tracer.exporter_absorb (t : Tracer) (i : Nat) (step : SpanStep) (clock : Clock) :
    (∃ unit, t.handed? step clock = some unit ∧
      (t.absorb i step clock).value.exporter = (t.exporter.enqueue unit).value.2) ∨
    t.handed? step clock = none ∧ ((t.absorb i step clock).value.exporter = t.exporter ∨
      (t.absorb i step clock).value.exporter = t.exporter.recordDroppedBySample) := by
  unfold handed?
  cases hcompleted : step.completed with
  | false =>
    rw [absorb_open hcompleted]
    exact .inr ⟨rfl, .inl rfl⟩
  | true =>
    rw [absorb_completed hcompleted, if_pos rfl]
    simp only
    cases (step.trace.complete t.sampler clock.monotonic).value.1 with
    | rejected => exact .inr ⟨rfl, .inr rfl⟩
    | empty => exact .inr ⟨rfl, .inl rfl⟩
    | kept unit => exact .inl ⟨unit, rfl, rfl⟩

namespace TracerRun

variable {s s' : TracerRun} {i : Nat}

/-- The exporter after an operation: it was given the spans that were handed over, or else it counted a rejected
trace or moved on by itself. -/
inductive Handing (s s' : TracerRun) : Option (List SpanRecord) → Prop where
  | over (unit : List SpanRecord) (exporter : s'.tracer.exporter = (s.tracer.exporter.enqueue unit).value.2) :
    Handing s s' (some unit)
  | reject (exporter : s'.tracer.exporter = s.tracer.exporter.recordDroppedBySample) : Handing s s' none
  | quiet (moves : s.tracer.exporter.Moves s.tracer.transport s'.tracer.exporter) : Handing s s' none

theorem handing_act (s : TracerRun) (k : Nat) (action : Span → Trace → SpanStep) (clock : Clock) :
    Handing s (s.act k action clock) (s.handedBy? k action clock) := by
  unfold handedBy?
  cases ha : s.handles[k]? with
  | none =>
    rw [act_of_none ha]
    exact .quiet (.refl _ _)
  | some a =>
    rw [act_of_some ha, Option.bind_some]
    rcases s.tracer.exporter_absorb a.trace (action a.span (s.tracer.traceAt a.trace)) clock with
      ⟨unit, hunit, hexporter⟩ | ⟨hnone, hexporter | hexporter⟩
    · rw [hunit]
      exact .over unit hexporter
    · rw [hnone]
      exact .quiet (hexporter ▸ .refl _ _)
    · rw [hnone]
      exact .reject hexporter

/-- Without a note of a completed trace the exporter moves on by itself. -/
theorem CompletionEffect.moves (effect : CompletionEffect s s') (h : s'.completed = s.completed) :
    s.tracer.exporter.Moves s.tracer.transport s'.tracer.exporter := by
  have noted : ∀ {i p fate}, ¬ Completes s s' i p fate := fun completes => by
    have hlength := congrArg List.length (completes.completed.symm.trans h)
    simp at hlength
  cases effect with
  | quiet _ _ moves => exact moves
  | rejected _ _ completes | accepted _ _ _ completes | refused _ _ _ completes => exact (noted completes).elim

/-- **What an operation hands to the queue.** -/
theorem handing_step (h : Followed s) (op : TracerOp) : Handing s (s.step op) (s.handed? op) := by
  have quiet : (s.step op).completed = s.completed → Handing s (s.step op) none := fun hcompleted =>
    .quiet ((completion_effect h op).moves hcompleted)
  cases op with
  | start origin options draw clock =>
    refine quiet ?_
    cases hparent : s.parent? origin with
    | none => rw [step_start_of_none hparent]
    | some parent => rw [step_start_of_some hparent]
  | change k c clock => exact handing_act s k c.apply clock
  | finish k ending clock => exact handing_act s k ending.apply clock
  | decide k | decideWith k | choose k => exact quiet (s.completed_through k _)
  | agentRates | worker | sleep | shutdown => exact quiet rfl

theorem handed_act (h : Followed s) {k : Nat} {action : Span → Trace → SpanStep} (op : Nat → TraceOp)
    (hop : ∀ (j : Nat) (r : TraceRun), r.step (op j) = r.act j action)
    (hnames : ∀ j id, (op j).Names id) {clock : Clock} {unit : List SpanRecord}
    (hunit : s.handedBy? k action clock = some unit) : ∃ a ∈ (s.act k action clock).handles,
      unit.map SpanRecord.lineage =
        ((s.act k action clock).contextsOf a.trace).map SpanContext.lineage := by
  obtain ⟨a, ha, hunit⟩ := Option.bind_eq_some_iff.mp hunit
  obtain ⟨hcompleted, -, decided, rfl⟩ := Tracer.handed?_eq_some hunit
  obtain ⟨t, ops, hf⟩ := h.of_handle ha
  obtain ⟨j, hstep, hspans⟩ := hf.exists_act ha op hop clock
  have hown := hspans a.trace
  rw [if_pos rfl] at hown
  have hcompletes := TraceRun.completes_of_reported (congrArg TraceRun.completions hstep) hcompleted
  have hall := hf.lineages_act (hnames j _) hcompletes hown
  rw [congrArg TraceRun.trace hstep] at hall
  refine ⟨{ a with span := (action a.span (s.tracer.traceAt a.trace)).span }, ?_,
    (decided.lineage_stamp _).trans hall⟩
  rw [act_of_some ha]
  exact List.mem_of_getElem? (List.getElem?_set_self (List.getElem?_eq_some_iff.mp ha).1)

/-- **What is handed over has the names and parents of all spans of a trace**, in the order of starting. -/
theorem lineages_of_handed (h : Followed s) {op : TracerOp} {unit : List SpanRecord}
    (hunit : s.handed? op = some unit) : ∃ a ∈ (s.step op).handles,
      unit.map SpanRecord.lineage = ((s.step op).contextsOf a.trace).map SpanContext.lineage := by
  cases op with
  | change k c => exact handed_act h (fun j => .change j c) (fun _ _ => rfl) (fun _ _ => trivial) hunit
  | finish k ending => exact handed_act h (fun j => .finish j ending) (fun _ _ => rfl) (fun _ _ => trivial) hunit
  | start | decide | decideWith | choose | agentRates | worker | sleep | shutdown => cases hunit

/-! ### What a start adds -/

end TracerRun

/-- The parent outside of this process that the first span of a trace has: that of a context which names a trace. -/
def Origin.remoteParent? : Origin → Option SpanId
  | continued context =>
    if context.isValid && !context.parentSpanId.isZero then some context.parentSpanId else none
  | root | child _ => none

namespace TracerRun

variable {s s' : TracerRun} {i : Nat}

/-- **What an operation adds to the spans**: nothing, a child of a span of the tracer, or the first span of a new
trace. -/
inductive Birth (s s' : TracerRun) : TracerOp → Prop where
  | quiet (op : TracerOp) (traces : s'.tracer.traces.length = s.tracer.traces.length)
      (places : s'.places = s.places) : Birth s s' op
  | child (op : TracerOp) (i : Nat) (parent context : SpanContext)
      (traces : s'.tracer.traces.length = s.tracer.traces.length)
      (places : s'.places = s.places ++ [(i, context)])
      (parent_mem : (i, parent) ∈ s.places) (parentId : context.parentId = some parent.spanId) : Birth s s' op
  | first (origin : Origin) (options : SpanOptions) (draw : Draw) (clock : Clock) (context : SpanContext)
      (traces : s'.tracer.traces.length = s.tracer.traces.length + 1)
      (places : s'.places = s.places ++ [(s.tracer.traces.length, context)])
      (parentId : context.parentId = origin.remoteParent?)
      (traceId : ∀ c, origin = .continued c → c.isValid = true → context.traceId = c.traceId) :
      Birth s s' (.start origin options draw clock)

theorem length_traces_act (s : TracerRun) (k : Nat) (action : Span → Trace → SpanStep) (clock : Clock) :
    (s.act k action clock).tracer.traces.length = s.tracer.traces.length := by
  cases ha : s.handles[k]? with
  | none => rw [act_of_none ha]
  | some a =>
    rw [act_of_some ha]
    simp only
    rw [Tracer.traces_absorb, List.length_set]

theorem start_value {origin : Origin} {parent : Parent} (h : s.parent? origin = some parent)
    (options : SpanOptions) (draw : Draw) (clock : Clock) :
    let found := s.tracer.traceFor parent draw.trace clock
    let trace := found.2.2.traceAt found.1
    (s.step (.start origin options draw clock)).tracer.traces.length = found.2.2.traces.length ∧
      (s.step (.start origin options draw clock)).places =
        s.places ++ [(found.1, ⟨trace.traceId, .fresh draw.span, found.2.1, trace.origin⟩)] := by
  intro found trace
  refine ⟨?_, ?_⟩
  · rw [step_start_of_some h]
    exact List.length_set
  · rw [places_step, begun, h]
    rfl

theorem birth_first {origin : Origin} {parent : Parent} (h : s.parent? origin = some parent)
    (options : SpanOptions) {draw : Draw} {clock : Clock} {u : Trace}
    (found : s.tracer.traceFor parent draw.trace clock =
      (s.tracer.traces.length, origin.remoteParent?, (s.tracer.addTrace u).2))
    (traceId : ∀ c, origin = .continued c → c.isValid = true → u.traceId = c.traceId) :
    Birth s (s.step (.start origin options draw clock)) (.start origin options draw clock) := by
  have hvalue := start_value h options draw clock
  rw [found] at hvalue
  obtain ⟨htraces, hplaces⟩ := hvalue
  have hat : (s.tracer.addTrace u).2.traceAt s.tracer.traces.length = u := by
    simp [Tracer.addTrace, Tracer.traceAt]
  rw [hat] at hplaces
  exact .first origin options draw clock _ (by rw [htraces]; simp [Tracer.addTrace]) hplaces rfl traceId

theorem birth_start (s : TracerRun) (origin : Origin) (options : SpanOptions) (draw : Draw) (clock : Clock) :
    Birth s (s.step (.start origin options draw clock)) (.start origin options draw clock) := by
  cases origin with
  | root => exact birth_first rfl options rfl nofun
  | child k =>
    cases ha : s.handles[k]? with
    | none =>
      have hparent : s.parent? (.child k) = none := congrArg (Option.map _) ha
      rw [step_start_of_none hparent]
      exact .quiet _ rfl rfl
    | some a =>
      have hparent : s.parent? (.child k) = some (.span a) := congrArg (Option.map _) ha
      obtain ⟨htraces, hplaces⟩ := start_value hparent options draw clock
      exact .child _ a.trace a.span.context _ htraces hplaces
        (List.mem_map_of_mem (List.mem_of_getElem? ha)) rfl
  | continued context =>
    have hparent : s.parent? (.continued context) = some (.extracted context) := rfl
    cases hu : Trace.ofExtracted? context with
    | some u =>
      have hvalid : context.isValid = true := (Option.ite_none_right_eq_some.mp hu).1
      refine birth_first hparent options (u := u) ?_ fun c hc _ => ?_
      · cases hzero : context.parentSpanId.isZero <;>
          simp [Tracer.traceFor, Origin.remoteParent?, hu, hvalid, hzero, Tracer.addTrace]
      · rw [← Origin.continued.inj hc, Trace.ofExtracted?_eq_some hu]
    | none =>
      -- a context that names no trace is as good as none
      have hinvalid : context.isValid = false := by simpa [Trace.ofExtracted?] using hu
      have hfound : s.tracer.traceFor (.extracted context) draw.trace clock =
          s.tracer.traceFor .root draw.trace clock := by simp only [Tracer.traceFor, hu]
      have hremote : (Origin.continued context).remoteParent? = none := by
        simp [Origin.remoteParent?, hinvalid]
      refine birth_first hparent options (u := ?_) (hfound.trans ?_) fun c hc hvalid => ?_
      · exact .new (.fresh s.tracer.config.wideTraceIds (clock.wall / second) draw.trace)
      · rw [hremote]
        rfl
      · rw [← Origin.continued.inj hc, hinvalid] at hvalid
        cases hvalid

/-- **What an operation adds to the spans.** -/
theorem birth_step (s : TracerRun) (op : TracerOp) : Birth s (s.step op) op := by
  have through : ∀ k f, (∀ a, (f a).traces.length = s.tracer.traces.length) →
      (s.through k f).tracer.traces.length = s.tracer.traces.length := by
    intro k f hf
    rcases s.tracer_through k f with hsame | ⟨a, ha⟩
    · rw [hsame]
    · rw [ha, hf]
  have quiet : s.begun op = [] → (s.step op).tracer.traces.length = s.tracer.traces.length →
      Birth s (s.step op) op := fun hbegun htraces =>
    .quiet op htraces (by rw [places_step, hbegun, List.append_nil])
  cases op with
  | start origin options draw clock => exact birth_start s origin options draw clock
  | change k c clock => exact quiet rfl (length_traces_act s k _ clock)
  | finish k ending clock => exact quiet rfl (length_traces_act s k _ clock)
  | decide k clock => exact quiet rfl (through k _ fun _ => List.length_set)
  | decideWith k policy => exact quiet rfl (through k _ fun _ => List.length_set)
  | choose k p => exact quiet rfl (through k _ fun _ => List.length_set)
  | agentRates | worker | sleep => exact quiet rfl rfl
  | shutdown =>
    refine quiet rfl ?_
    show s.tracer.shutdown.value.2.traces.length = _
    rcases s.tracer.shutdown_value with hstop | hstop <;> rw [hstop]

/-! ### Spans that go back to a first one -/

/-- Spans in an order in which every one but the first has an earlier one as its parent. -/
inductive Descend (first : SpanContext) : List SpanContext → Prop where
  | root : Descend first [first]
  | child {spans : List SpanContext} {parent context : SpanContext} (descend : Descend first spans)
      (parent_mem : parent ∈ spans) (parentId : context.parentId = some parent.spanId) :
      Descend first (spans ++ [context])

theorem Descend.head? {first : SpanContext} {spans : List SpanContext} (h : Descend first spans) :
    spans.head? = some first := by
  induction h with
  | root => rfl
  | child _ _ _ ih => rw [List.head?_append, ih, Option.some_or]

theorem Descend.exists_parent {first : SpanContext} {spans : List SpanContext} (h : Descend first spans)
    {j : Nat} {context : SpanContext} (hj : spans[j + 1]? = some context) :
    ∃ m ≤ j, ∃ parent, spans[m]? = some parent ∧ context.parentId = some parent.spanId := by
  induction h with
  | root => cases hj
  | @child spans parent last _ parent_mem parentId ih =>
    have earlier : ∀ m parent, spans[m]? = some parent → (spans ++ [last])[m]? = some parent :=
      fun m parent hm => (List.getElem?_append_left (List.getElem?_eq_some_iff.mp hm).1).trans hm
    by_cases hlt : j + 1 < spans.length
    · rw [List.getElem?_append_left hlt] at hj
      obtain ⟨m, hm, p, hp, hparent⟩ := ih hj
      exact ⟨m, hm, p, earlier m p hp, hparent⟩
    · -- the last span is the one that was just started
      obtain ⟨hj', hlast⟩ := List.getElem?_eq_some_iff.mp hj
      have hlength : spans.length = j + 1 := by
        rw [List.length_append, List.length_singleton] at hj'
        omega
      rw [List.getElem_append_right (by omega)] at hlast
      obtain ⟨m, hm⟩ := List.mem_iff_getElem?.mp parent_mem
      have hmlt := (List.getElem?_eq_some_iff.mp hm).1
      exact ⟨m, by omega, parent, earlier m parent hm, by simpa [← hlast] using parentId⟩

theorem contextsOf_eq (s : TracerRun) (i : Nat) :
    s.contextsOf i = (s.places.filter (·.1 = i)).map Prod.snd := map_spansIn Span.context i s.handles

theorem contextsOf_of_places {k : Nat} {context : SpanContext}
    (h : s'.places = s.places ++ [(k, context)]) (i : Nat) :
    s'.contextsOf i = if k = i then s.contextsOf i ++ [context] else s.contextsOf i := by
  rw [contextsOf_eq, contextsOf_eq, h, List.filter_append, List.map_append]
  by_cases hk : k = i <;> simp [hk]

/-- In the course of `ops` trace `i` was created: the start of a span brought it about, and gave out a handle on
it with this context. -/
def Created (t : Tracer) (ops : List TracerOp) (i : Nat) (origin : Origin) (context : SpanContext) : Prop :=
  ∃ before options draw clock later, ops = before ++ .start origin options draw clock :: later ∧
    let s := after t before
    let s' := after t (before ++ [.start origin options draw clock])
    s.tracer.traces.length = i ∧ s'.tracer.traces.length = i + 1 ∧ s'.places = s.places ++ [(i, context)]

theorem Created.append {t : Tracer} {ops : List TracerOp} {origin : Origin} {context : SpanContext}
    (h : Created t ops i origin context) (op : TracerOp) : Created t (ops ++ [op]) i origin context := by
  obtain ⟨before, options, draw, clock, later, rfl, hcreated⟩ := h
  exact ⟨before, options, draw, clock, later ++ [op], by simp, hcreated⟩

/-- The spans of a trace go back to the one that created it. -/
def Rooted (t : Tracer) (ops : List TracerOp) (i : Nat) : Prop :=
  ∃ origin first, Created t ops i origin first ∧ first.parentId = origin.remoteParent? ∧
    (∀ c, origin = .continued c → c.isValid = true → first.traceId = c.traceId) ∧
    Descend first ((after t ops).contextsOf i)

theorem rooted_concat {t : Tracer} {ops : List TracerOp} (followed : Followed (after t ops))
    (h : ∀ i < (after t ops).tracer.traces.length, Rooted t ops i) (op : TracerOp) :
    ∀ i < (after t (ops ++ [op])).tracer.traces.length, Rooted t (ops ++ [op]) i := by
  intro i hi
  have hstep := after_concat t ops op
  -- a trace that gets no span of its own
  have frame : i < (after t ops).tracer.traces.length →
      (after t (ops ++ [op])).contextsOf i = (after t ops).contextsOf i → Rooted t (ops ++ [op]) i := by
    intro hlt hcontexts
    obtain ⟨origin, first, hcreated, hparent, htraceId, hdescend⟩ := h i hlt
    exact ⟨origin, first, hcreated.append op, hparent, htraceId, hcontexts.symm ▸ hdescend⟩
  have hbirth := birth_step (after t ops) op
  rw [← hstep] at hbirth
  cases hbirth with
  | quiet _ traces places =>
    exact frame (traces ▸ hi) (by rw [contextsOf_eq, contextsOf_eq, places])
  | child _ k parent context traces places parent_mem parentId =>
    have hlt : i < (after t ops).tracer.traces.length := traces ▸ hi
    have hcontexts := contextsOf_of_places places i
    by_cases hk : k = i
    · subst hk
      rw [if_pos rfl] at hcontexts
      obtain ⟨origin, first, hcreated, hparent, htraceId, hdescend⟩ := h k hlt
      refine ⟨origin, first, hcreated.append op, hparent, htraceId, ?_⟩
      rw [hcontexts]
      refine hdescend.child ?_ parentId
      rw [contextsOf_eq]
      exact List.mem_map_of_mem (List.mem_filter.mpr ⟨parent_mem, by simp⟩)
    · exact frame hlt (hcontexts.trans (if_neg hk))
  | first origin options draw clock context traces places parentId traceId =>
    have hcontexts := contextsOf_of_places places i
    by_cases hlast : (after t ops).tracer.traces.length = i
    · -- the new trace had no spans before
      have hnone : (after t ops).contextsOf i = [] := List.map_eq_nil_iff.mpr
        (spansIn_eq_nil fun a ha => Nat.ne_of_lt (hlast ▸ followed.bound a ha))
      refine ⟨origin, context, ⟨ops, options, draw, clock, [], rfl, hlast, hlast ▸ traces, hlast ▸ places⟩,
        parentId, traceId, ?_⟩
      rw [hcontexts, if_pos hlast, hnone]
      exact .root
    · exact frame (by omega) (hcontexts.trans (if_neg hlast))

/-- **The spans of every trace go back to the one that created it.** -/
theorem rooted_after {engine : PatternEngine} {config : Config} {transport : Transport} {hasRuntime : Bool}
    {clock : Clock} {t : Tracer} (h : (Tracer.build engine config transport hasRuntime clock).value = .ok t)
    (ops : List TracerOp) :
    ∀ i < (after t ops).tracer.traces.length, Rooted t ops i := by
  induction ops using List.reverseRecOn with
  | nil =>
    obtain ⟨e, -, htraces, -⟩ := build_eq_ok h
    intro i hi
    change i < t.traces.length at hi
    rw [htraces] at hi
    exact absurd hi (Nat.not_lt_zero i)
  | append_singleton ops op ih => exact rooted_concat (sound_after h ops).followed ih op

/-! ### Exported traces -/

theorem Followed.traceId (h : Followed s) (hi : i < s.tracer.traces.length) {context : SpanContext}
    (hcontext : context ∈ s.contextsOf i) : context.traceId = (s.tracer.traceAt i).traceId := by
  obtain ⟨t, ops, hf⟩ := h.follows i hi
  obtain ⟨span, hspan, rfl⟩ := List.mem_map.mp hcontext
  rw [hf.traceAt]
  exact (TraceRun.handed_after t ops span (hf.spans ▸ hspan)).1

/-- A list of spans as the receiver wants it: the spans of one trace, the first the one that created it, and
every later one after its parent. -/
structure Tree (t : Tracer) (ops : List TracerOp) (i : Nat) (unit : List SpanRecord) : Prop where
  traceId : ∀ r ∈ unit, r.traceId = ((after t ops).tracer.traceAt i).traceId
  root : ∃ first origin context, unit.head? = some first ∧ Created t ops i origin context ∧
    first.lineage = context.lineage ∧ first.parentId = origin.remoteParent? ∧
    ∀ c, origin = .continued c → c.isValid = true → first.traceId = c.traceId
  parents : ∀ (j : Nat) (r : SpanRecord), unit[j + 1]? = some r →
    ∃ m ≤ j, ∃ parent, unit[m]? = some parent ∧ r.parentId = some parent.spanId

theorem tree_of_rooted {t : Tracer} {ops : List TracerOp} {unit : List SpanRecord} (h : Rooted t ops i)
    (traceId : ∀ context ∈ (after t ops).contextsOf i,
      context.traceId = ((after t ops).tracer.traceAt i).traceId)
    (all : unit.map SpanRecord.lineage = ((after t ops).contextsOf i).map SpanContext.lineage) :
    Tree t ops i unit := by
  obtain ⟨origin, first, hcreated, hparent, htraceId, hdescend⟩ := h
  have hat : ∀ m : Nat, unit[m]?.map SpanRecord.lineage =
      ((after t ops).contextsOf i)[m]?.map SpanContext.lineage := by
    intro m
    rw [← List.getElem?_map, ← List.getElem?_map, all]
  refine ⟨fun r hr => ?_, ?_, fun j r hr => ?_⟩
  · obtain ⟨context, hcontext, hlineage⟩ := List.mem_map.mp (all ▸ List.mem_map_of_mem hr)
    exact (congrArg (·.identity.traceId) hlineage).symm.trans (traceId context hcontext)
  · have hfirst := hat 0
    rw [← List.head?_eq_getElem?, ← List.head?_eq_getElem?, hdescend.head?] at hfirst
    obtain ⟨r, hr, hlineage⟩ := Option.map_eq_some_iff.mp hfirst
    exact ⟨r, origin, first, hr, hcreated, hlineage, (congrArg SpanLineage.parentId hlineage).trans hparent,
      fun c hc hvalid => (congrArg (·.identity.traceId) hlineage).trans (htraceId c hc hvalid)⟩
  · have hchild := hat (j + 1)
    rw [hr] at hchild
    obtain ⟨context, hcontext, hlineage⟩ := Option.map_eq_some_iff.mp hchild.symm
    obtain ⟨m, hm, parent, hp, hid⟩ := hdescend.exists_parent hcontext
    have hparent := hat m
    rw [hp] at hparent
    obtain ⟨r', hr', hlineage'⟩ := Option.map_eq_some_iff.mp hparent
    refine ⟨m, hm, r', hr', (congrArg SpanLineage.parentId hlineage).symm.trans (hid.trans ?_)⟩
    exact congrArg (fun l => some l.identity.spanId) hlineage'.symm

/-- **Exported traces are trees.** Whatever happens to a tracer, an operation that hands spans to the queue of the
exporter gives the queue exactly these, and they are the spans of one trace: the first is the one that created the
trace, with no parent or the one that an extracted context named, and every later span comes after its parent. An
operation that hands nothing over puts nothing into the queue. -/
theorem handed_over_as_tree {engine : PatternEngine} {config : Config} {transport : Transport} {hasRuntime : Bool}
    {clock : Clock} {t : Tracer} (h : (Tracer.build engine config transport hasRuntime clock).value = .ok t)
    (ops : List TracerOp) (op : TracerOp) :
    Handing (after t ops) (after t (ops ++ [op])) ((after t ops).handed? op) ∧
      ∀ unit, (after t ops).handed? op = some unit → ∃ i, Tree t (ops ++ [op]) i unit := by
  have followed := (sound_after h ops).followed
  have followed' := (sound_after h (ops ++ [op])).followed
  have hstep := after_concat t ops op
  refine ⟨hstep ▸ handing_step followed op, fun unit hunit => ?_⟩
  obtain ⟨a, ha, hall⟩ := lineages_of_handed followed hunit
  rw [← hstep] at ha hall
  have hlt := followed'.bound a ha
  exact ⟨a.trace, tree_of_rooted (rooted_after h (ops ++ [op]) a.trace hlt)
    (fun _ hcontext => followed'.traceId hlt hcontext) hall⟩

/-- A trace that was continued from headers. Its first span ends before the grandchild and gets another child
after that; a span of another trace starts in between. -/
theorem handed_over_as_tree_continued :
    let context : Extracted := ⟨.ofNat 7, .ofNat 9, some .autoKeep, none, ∅⟩
    let start (origin : Origin) (n : Nat) : TracerOp := .start origin { operation := "op" } ⟨n, n⟩ ⟨0, 0⟩
    let finish (k : Nat) : TracerOp := .finish k (.at 5) ⟨9, 9⟩
    let ops := [start (.continued context) 1, start (.child 0) 2, start .root 3, start (.child 1) 4,
      finish 0, finish 1, start (.child 0) 5, finish 3]
    ∃ t, (Tracer.new Config.default ⟨fun _ => .accepted⟩ true ⟨0, 0⟩).value = .ok t ∧
      let s := after t ops
      ∃ unit, s.handed? (finish 4) = some unit ∧
        unit.map (fun r => (r.spanId.toNat, r.parentId.map SpanId.toNat)) =
          [(2, some 9), (3, some 2), (5, some 3), (6, some 2)] ∧
        ∃ i, Tree t (ops ++ [finish 4]) i unit := by
  intro context start finish ops
  have h : (Tracer.new Config.default ⟨fun _ => .accepted⟩ true ⟨0, 0⟩).value = .ok _ := rfl
  refine ⟨_, h, ?_⟩
  intro s
  have hhanded : (s.handed? (finish 4)).map
      (List.map fun r => (r.spanId.toNat, r.parentId.map SpanId.toNat)) =
      some [(2, some 9), (3, some 2), (5, some 3), (6, some 2)] := by decide +kernel
  obtain ⟨unit, hunit, hids⟩ := Option.map_eq_some_iff.mp hhanded
  exact ⟨unit, hunit, hids, (handed_over_as_tree h ops (finish 4)).2 unit hunit⟩

end TracerRun

end Tracing
