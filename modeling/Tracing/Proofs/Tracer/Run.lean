import Tracing.Proofs.Export.Drops
import Tracing.Proofs.Trace.Run
import Tracing.Tracer

/-!
# Runs of a tracer

What can happen to a tracer, one operation after the other: spans of any number of traces are started,
changed and ended through their handles, traces are decided about, users choose priorities, the agent gives
rates, and the worker of the exporter runs, waits and stops. A `TracerRun` is the tracer with all handles
given out so far and with a note of every trace that was completed (`Completion`). The notes are taken by
looking at the tracer before and after a step, not by repeating what it does.

Every handle has a place among the handles of its trace (`exists_place`), so an operation of the tracer is
an operation on one trace.
-/

namespace Tracing

/-! ### Operations -/

/-- What a span continues. Handles are named by their place in the order of starting. -/
inductive Origin where
  | root
  | child (handle : Nat)
  | continued (context : Extracted)

/-- What can happen to a tracer. -/
inductive TracerOp where
  /-- A span is started; its origin stands for the parent in the options. -/
  | start (origin : Origin) (options : SpanOptions) (draw : Draw) (clock : Clock)
  | change (handle : Nat) (change : SpanChange) (clock : Clock)
  | finish (handle : Nat) (ending : SpanEnd) (clock : Clock)
  | decide (handle : Nat) (clock : Clock)
  | decideWith (handle : Nat) (policy : Target → Decision)
  /-- A user chooses a priority. -/
  | choose (handle : Nat) (priority : Priority)
  | agentRates (rates : List (String × Float))
  | worker (event : WorkerEvent)
  | sleep (millis : Nat)
  | shutdown

/-! ### Completed traces -/

/-- The trace at a place. -/
def Tracer.traceAt (t : Tracer) (i : Nat) : Trace := t.traces[i]?.getD default

/-- What a completed trace came to. -/
inductive Fate where
  | rejected
  | accepted (unit : List SpanRecord)
  /-- The queue refused it. -/
  | refused
  /-- Nobody counted it. -/
  | lost

/-- The spans that were accepted, if any. -/
def Fate.unit? : Fate → Option (List SpanRecord)
  | accepted unit => some unit
  | _ => none

/-- What became of a trace, from the exporter before and after it was handed on. -/
def Fate.between (before after : Exporter) : Fate :=
  match after.queue.drop before.queue.length with
  | unit :: _ => accepted unit
  | [] =>
    if before.stats.droppedBySample < after.stats.droppedBySample then rejected
    else if before.stats.droppedQueueFull < after.stats.droppedQueueFull then refused
    else lost

/-- A note of a completed trace: the trace, its priority then, and what it came to. -/
structure Completion where
  trace : Nat
  priority : Option Priority
  fate : Fate

/-- The note of a step of a span, if that completed its trace. -/
def completionOf (i : Nat) (before after : Tracer) : List Completion :=
  if (before.traceAt i).closed = false ∧ (after.traceAt i).closed = true then
    [{ trace := i, priority := (after.traceAt i).priority?
       fate := .between before.exporter after.exporter }]
  else []

/-- Stopping a tracer stops its exporter, and discards the worker if that takes too long. -/
theorem Tracer.shutdown_value (t : Tracer) :
    let stopped := (t.exporter.shutdown t.transport t.config.shutdownTimeout).value.2
    t.shutdown.value.2 = { t with exporter := stopped, hasWorker := false } ∨
      t.shutdown.value.2 = { t with exporter := stopped.abort, hasWorker := false } := by
  intro stopped
  unfold Tracer.shutdown
  rw [Logged.value_bind]
  simp only
  split
  · exact .inl rfl
  · split
    · exact .inr rfl
    · exact .inl rfl

/-! ### Runs -/

/-- A tracer with the handles of all its spans and the notes of all completed traces. -/
structure TracerRun where
  tracer : Tracer
  /-- All handles, in the order of starting. -/
  handles : List ActiveSpan := []
  completed : List Completion := []

namespace TracerRun

/-- The accepted traces, the oldest first. -/
def units (s : TracerRun) : List (List SpanRecord) := s.completed.filterMap (·.fate.unit?)

/-- The exporter of a run, with what it has accepted. -/
def exports (s : TracerRun) : ExportRun := { exporter := s.tracer.exporter, accepted := s.units }

/-- The parent that an origin stands for. -/
def parent? (s : TracerRun) : Origin → Option Parent
  | .root => some .root
  | .child k => s.handles[k]?.map .span
  | .continued context => some (.extracted context)

/-- Does something with a span through its handle. -/
def act (s : TracerRun) (k : Nat) (action : Span → Trace → SpanStep) (clock : Clock) : TracerRun :=
  match s.handles[k]? with
  | none => s
  | some a =>
    let (a', tracer) := (s.tracer.perform a action clock).value
    { tracer, handles := s.handles.set k a'
      completed := s.completed ++ completionOf a.trace s.tracer tracer }

/-- Does something about the trace of a handle. -/
def through (s : TracerRun) (k : Nat) (f : ActiveSpan → Tracer) : TracerRun :=
  match s.handles[k]? with
  | none => s
  | some a => { s with tracer := f a }

/-- One operation. -/
def step (s : TracerRun) : TracerOp → TracerRun
  | .start origin options draw clock =>
    match s.parent? origin with
    | none => s
    | some parent =>
      let (a, tracer) := (s.tracer.start { options with parent } draw clock).value
      { s with tracer, handles := s.handles ++ [a] }
  | .change k c clock => s.act k c.apply clock
  | .finish k ending clock => s.act k ending.apply clock
  | .decide k clock => s.through k fun a => (s.tracer.decide a clock).2
  | .decideWith k policy =>
    s.through k fun a => (s.tracer.decideWith a () fun _ target => (policy target, ())).2.2
  | .choose k p => s.through k fun a => (s.tracer.setManualPriority a p).value
  | .agentRates rates => { s with tracer := s.tracer.setAgentRates rates }
  | .worker event =>
    { s with tracer := { s.tracer with
        exporter := (s.exports.step s.tracer.transport event.op).exporter } }
  | .sleep millis => { s with tracer := (s.tracer.sleep millis).value }
  | .shutdown => { s with tracer := s.tracer.shutdown.value.2 }

/-- Where a list of operations leads from a tracer without spans. -/
def after (t : Tracer) (ops : List TracerOp) : TracerRun := ops.foldl step { tracer := t }

theorem after_concat (t : Tracer) (ops : List TracerOp) (op : TracerOp) :
    after t (ops ++ [op]) = (after t ops).step op := by
  unfold after
  rw [List.foldl_append]
  rfl

theorem after_induction {P : TracerRun → Prop} {t : Tracer} (h0 : P { tracer := t })
    (hs : ∀ s op, P s → P (s.step op)) (ops : List TracerOp) : P (after t ops) := by
  induction ops using List.reverseRecOn with
  | nil => exact h0
  | append_singleton ops op ih =>
    rw [after_concat]
    exact hs _ op ih

theorem act_of_none {s : TracerRun} {k : Nat} (h : s.handles[k]? = none)
    (action : Span → Trace → SpanStep) (clock : Clock) : s.act k action clock = s := by
  unfold act
  rw [h]

theorem act_of_some {s : TracerRun} {k : Nat} {a : ActiveSpan} (h : s.handles[k]? = some a)
    (action : Span → Trace → SpanStep) (clock : Clock) :
    s.act k action clock = {
      tracer := (s.tracer.absorb a.trace (action a.span (s.tracer.traceAt a.trace)) clock).value
      handles := s.handles.set k { a with span := (action a.span (s.tracer.traceAt a.trace)).span }
      completed := s.completed ++ completionOf a.trace s.tracer
        (s.tracer.absorb a.trace (action a.span (s.tracer.traceAt a.trace)) clock).value } := by
  unfold act
  rw [h]
  rfl

theorem handles_through (s : TracerRun) (k : Nat) (f : ActiveSpan → Tracer) :
    (s.through k f).handles = s.handles := by
  unfold through
  split <;> rfl

theorem completed_through (s : TracerRun) (k : Nat) (f : ActiveSpan → Tracer) :
    (s.through k f).completed = s.completed := by
  unfold through
  split <;> rfl

theorem tracer_through (s : TracerRun) (k : Nat) (f : ActiveSpan → Tracer) :
    (s.through k f).tracer = s.tracer ∨ ∃ a, (s.through k f).tracer = f a := by
  unfold through
  split
  · exact .inl rfl
  · next a _ => exact .inr ⟨a, rfl⟩

/-! ### The spans of a trace -/

/-- The spans of one trace among handles, in order. -/
def spansIn (i : Nat) (handles : List ActiveSpan) : List Span :=
  (handles.filter (·.trace = i)).map ActiveSpan.span

/-- The spans of a trace, in the order of starting. -/
def spansOf (s : TracerRun) (i : Nat) : List Span := spansIn i s.handles

theorem spansIn_append (i : Nat) (handles later : List ActiveSpan) :
    spansIn i (handles ++ later) = spansIn i handles ++ spansIn i later := by
  unfold spansIn
  rw [List.filter_append, List.map_append]

theorem spansIn_cons (i : Nat) (a : ActiveSpan) (handles : List ActiveSpan) :
    spansIn i (a :: handles) = if a.trace = i then a.span :: spansIn i handles else spansIn i handles := by
  unfold spansIn
  by_cases h : a.trace = i <;> simp [h]

theorem spansIn_eq_nil {i : Nat} {handles : List ActiveSpan} (h : ∀ a ∈ handles, a.trace ≠ i) :
    spansIn i handles = [] := by
  unfold spansIn
  rw [List.filter_eq_nil_iff.mpr fun a ha => by simpa using h a ha]
  rfl

theorem map_spansIn {α : Type} (f : Span → α) (i : Nat) (handles : List ActiveSpan) :
    (spansIn i handles).map f = ((handles.map fun a => (a.trace, f a.span)).filter (·.1 = i)).map Prod.snd := by
  unfold spansIn
  rw [List.filter_map, List.map_map, List.map_map]
  rfl

/-- A handle has a place among the handles of its trace. -/
theorem exists_place {handles : List ActiveSpan} {k : Nat} {a : ActiveSpan} (h : handles[k]? = some a) :
    ∃ j, (spansIn a.trace handles)[j]? = some a.span ∧ ∀ (i : Nat) (span : Span),
      spansIn i (handles.set k { a with span }) =
        if a.trace = i then (spansIn i handles).set j span else spansIn i handles := by
  induction handles generalizing k with
  | nil => cases h
  | cons b rest ih =>
    cases k with
    | zero =>
      obtain rfl := Option.some.inj h
      refine ⟨0, by simp [spansIn_cons], fun i span => ?_⟩
      rw [List.set_cons_zero, spansIn_cons, spansIn_cons]
      split <;> rfl
    | succ k =>
      obtain ⟨j, hj, hset⟩ := ih h
      by_cases hb : b.trace = a.trace
      · refine ⟨j + 1, by simp [spansIn_cons, hb, hj], fun i span => ?_⟩
        rw [List.set_cons_succ, spansIn_cons, spansIn_cons, hset, hb]
        split <;> rfl
      · refine ⟨j, by simp [spansIn_cons, hb, hj], fun i span => ?_⟩
        rw [List.set_cons_succ, spansIn_cons, spansIn_cons, hset]
        by_cases hi : a.trace = i
        · subst hi
          rw [if_pos rfl, if_neg hb, if_neg hb, if_pos rfl]
        · rw [if_neg hi, if_neg hi]

end TracerRun

end Tracing
