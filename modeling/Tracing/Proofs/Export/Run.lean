import Mathlib.Data.List.Induction
import Tracing.Export.Timing
import Tracing.Proofs.Payload.Packing

/-!
# Runs of the exporter

What can happen to an exporter, one operation after the other: producers put traces in and go away, the
worker is started, asked to stop or discarded, time passes, and the worker makes single steps. Nothing is
assumed about the order, so every interleaving of producers, worker and clock is a run.

* `StepEffect` lists what one operation can do (`step_effect`), and `WorkEffect` what a step of the worker
  can (`work_effect`); invariants of runs go through their cases instead of through the definitions.
* Waiting and shutting down are runs of the worker and the clock (`sleep_passes`, `shutdown_passes`).
-/

namespace Tracing

/-! ### Operations and runs -/

/-- What can happen to an exporter. -/
inductive ExportOp where
  | enqueue (trace : List SpanRecord)
  /-- A trace that sampling rejected is counted. -/
  | reject
  | releaseProducers
  | start
  | discardIdle
  | cancel
  | abort
  /-- The clock shows another time. -/
  | clock (now : Nat)
  /-- The worker makes a step, if it can. -/
  | work

/-- An exporter and the traces it has accepted, the oldest first. -/
structure ExportRun where
  exporter : Exporter
  accepted : List (List SpanRecord) := []

namespace ExportRun

variable {transport : Transport}

/-- One operation. -/
def step (transport : Transport) (s : ExportRun) : ExportOp → ExportRun
  | .enqueue trace =>
    let (accepted, exporter) := (s.exporter.enqueue trace).value
    { exporter, accepted := if accepted then s.accepted ++ [trace] else s.accepted }
  | .reject => { s with exporter := s.exporter.recordDroppedBySample }
  | .releaseProducers => { s with exporter := s.exporter.releaseProducers }
  | .start => { s with exporter := s.exporter.start }
  | .discardIdle => { s with exporter := s.exporter.discardIdle }
  | .cancel => { s with exporter := s.exporter.cancel }
  | .abort => { s with exporter := s.exporter.abort }
  | .clock now => { s with exporter := { s.exporter with now } }
  | .work =>
    match s.exporter.step? transport with
    | some next => { s with exporter := next.value }
    | none => s

/-- Where a list of operations leads from an exporter that has accepted nothing yet. -/
def after (transport : Transport) (e : Exporter) (ops : List ExportOp) : ExportRun :=
  ops.foldl (step transport) { exporter := e }

theorem after_induction_of_mem {P : ExportRun → Prop} {e : Exporter} {ops : List ExportOp}
    (h0 : P { exporter := e }) (hs : ∀ s, ∀ op ∈ ops, P s → P (s.step transport op)) :
    P (after transport e ops) := by
  unfold after
  induction ops using List.reverseRecOn with
  | nil => exact h0
  | append_singleton ops op ih =>
    rw [List.foldl_append]
    exact hs _ op (by simp) (ih fun s op' hop' => hs s op' (List.mem_append_left _ hop'))

/-- What holds at first and outlasts every step holds after every run. -/
theorem after_induction {P : ExportRun → Prop} {e : Exporter} (h0 : P { exporter := e })
    (hs : ∀ s op, P s → P (s.step transport op)) (ops : List ExportOp) : P (after transport e ops) :=
  after_induction_of_mem h0 fun s op _ => hs s op

theorem step_work_of_some {s : ExportRun} {next : Logged Exporter}
    (h : s.exporter.step? transport = some next) :
    s.step transport .work = { s with exporter := next.value } := by
  show (match s.exporter.step? transport with
    | some next => { s with exporter := next.value }
    | none => s) = _
  rw [h]

theorem step_work_of_none {s : ExportRun} (h : s.exporter.step? transport = none) :
    s.step transport .work = s := by
  show (match s.exporter.step? transport with
    | some next => { s with exporter := next.value }
    | none => s) = _
  rw [h]

end ExportRun

/-! ### What the worker does -/

namespace Exporter

variable {transport : Transport} {e : Exporter}

theorem eq_of_ofConfig? {c : Config} (h : ofConfig? c = some e) :
    e = {
      limits := .ofConfig c
      packer := { maxBytes := c.maxPayloadBytes, maxValueLength := c.maxValueLength } } := by
  unfold ofConfig? at h
  simp only at h
  split at h
  · exact (Option.some.inj h).symm
  · cases h

/-- The exporter after a trace was packed. -/
def packed (e : Exporter) (trace : List SpanRecord) (rest : List (List SpanRecord)) : Exporter :=
  (e.pack trace rest).value

/-- **What one step of the worker can do.** -/
inductive WorkEffect (transport : Transport) (e : Exporter) : Exporter → Prop where
  | discarded (aborting : e.aborting = true) : WorkEffect transport e e.discard
  | began (phase : e.phase = .starting) :
      WorkEffect transport e { e with due := e.nanos + e.limits.interval, phase := .waiting }
  | closed (phase : e.phase = .waiting)
      (stop : e.cancelled = true ∨ e.queue = [] ∧ e.hasProducers = false) :
      WorkEffect transport e e.close
  | received (trace : List SpanRecord) (rest : List (List SpanRecord)) (phase : e.phase = .waiting)
      (cancelled : e.cancelled = false) (queue : e.queue = trace :: rest)
      (below : (e.packed trace rest).packer.pendingTraces < e.limits.threshold) :
      WorkEffect transport e (e.packed trace rest)
  | filled (trace : List SpanRecord) (rest : List (List SpanRecord)) (phase : e.phase = .waiting)
      (cancelled : e.cancelled = false) (queue : e.queue = trace :: rest)
      (reached : e.limits.threshold ≤ (e.packed trace rest).packer.pendingTraces) :
      WorkEffect transport e { e.packed trace rest with phase := .flushing .threshold }
  | ticked (phase : e.phase = .waiting) (queue : e.queue = []) (due : e.due ≤ e.nanos) :
      WorkEffect transport e { e with due := e.nextDue, phase := .flushing .tick }
  | drained (trace : List SpanRecord) (rest : List (List SpanRecord)) (phase : e.phase = .draining)
      (queue : e.queue = trace :: rest) : WorkEffect transport e (e.packed trace rest)
  | emptied (phase : e.phase = .draining) (queue : e.queue = []) :
      WorkEffect transport e { e with phase := .flushing .closing }
  | taken (trigger : Trigger) (payload : Payload) (packer : Packer) (phase : e.phase = .flushing trigger)
      (next : e.packer.nextPayload = some (payload, packer)) :
      WorkEffect transport e { e with packer, phase := .sending trigger payload 0 firstBackoff }
  | resumed (trigger : Trigger) (phase : e.phase = .flushing trigger) (empty : e.packer.queue = []) :
      WorkEffect transport e (e.resume trigger).value
  | delivered (trigger : Trigger) (payload : Payload) (failed backoff : Nat)
      (phase : e.phase = .sending trigger payload failed backoff)
      (reply : transport.reply e.attempts.length = .accepted) :
      WorkEffect transport e ((e.record payload failed .accepted).deliver trigger payload).value
  | hung (trigger : Trigger) (payload : Payload) (failed backoff : Nat)
      (phase : e.phase = .sending trigger payload failed backoff)
      (reply : transport.reply e.attempts.length = .silence) :
      WorkEffect transport e { e.record payload failed .silence with phase := .hanging }
  | gaveUp (trigger : Trigger) (payload : Payload) (failed backoff : Nat) (failure : SendFailure)
      (phase : e.phase = .sending trigger payload failed backoff)
      (reply : transport.reply e.attempts.length = .failed failure)
      (last : failure.isPermanent = true ∨ e.limits.retries ≤ failed + 1) :
      WorkEffect transport e
        ((e.record payload failed (.failed failure)).giveUp trigger payload (failed + 1) failure).value
  | backedOff (trigger : Trigger) (payload : Payload) (failed backoff : Nat) (failure : SendFailure)
      (phase : e.phase = .sending trigger payload failed backoff)
      (reply : transport.reply e.attempts.length = .failed failure)
      (transient : failure.isPermanent = false) (more : failed + 1 < e.limits.retries) :
      WorkEffect transport e ((e.record payload failed (.failed failure)).backOff trigger payload
        (failed + 1) backoff failure).value
  | woke (trigger : Trigger) (payload : Payload) (failed backoff wake : Nat)
      (phase : e.phase = .pausing trigger payload failed backoff wake) (due : wake ≤ e.now) :
      WorkEffect transport e { e with phase := .sending trigger payload failed backoff }

theorem receive_value (e : Exporter) (trace : List SpanRecord) (rest : List (List SpanRecord)) :
    (e.receive trace rest).value =
      if e.limits.threshold ≤ (e.packed trace rest).packer.pendingTraces then
        { e.packed trace rest with phase := .flushing .threshold }
      else e.packed trace rest := by
  show Logged.value (if e.limits.threshold ≤ (e.packed trace rest).packer.pendingTraces
    then _ else _) = _
  split <;> rfl

theorem poll_effect {next : Logged Exporter} (phase : e.phase = .waiting) (h : e.poll? = some next) :
    WorkEffect transport e next.value := by
  unfold poll? at h
  split at h
  · next hcancelled =>
    cases h
    exact .closed phase (.inl hcancelled)
  · next hcancelled =>
    rw [Bool.not_eq_true] at hcancelled
    split at h
    · next trace rest queue =>
      cases h
      rw [receive_value]
      split
      · next hfull => exact .filled trace rest phase hcancelled queue hfull
      · next hfull => exact .received trace rest phase hcancelled queue (by omega)
    · next queue =>
      split at h
      · next hproducers =>
        cases h
        exact .closed phase (.inr ⟨queue, by simpa using hproducers⟩)
      · split at h
        · next due =>
          cases h
          exact .ticked phase queue due
        · cases h

theorem attempt_effect {trigger : Trigger} {payload : Payload} {failed backoff : Nat}
    (phase : e.phase = .sending trigger payload failed backoff) :
    WorkEffect transport e (e.attempt transport trigger payload failed backoff).value := by
  unfold attempt
  cases hreply : transport.reply e.attempts.length with
  | accepted => exact .delivered trigger payload failed backoff phase hreply
  | silence => exact .hung trigger payload failed backoff phase hreply
  | failed failure =>
    simp only
    split
    · next hlast =>
      rw [Bool.or_eq_true, decide_eq_true_eq] at hlast
      exact .gaveUp trigger payload failed backoff failure phase hreply hlast
    · next hmore =>
      rw [Bool.or_eq_true, decide_eq_true_eq, not_or, Bool.not_eq_true, Nat.not_le] at hmore
      exact .backedOff trigger payload failed backoff failure phase hreply hmore.1 hmore.2

/-- Every step of the worker is one of the list. -/
theorem work_effect {next : Logged Exporter} (h : e.step? transport = some next) :
    WorkEffect transport e next.value := by
  unfold step? at h
  split at h
  · next aborting =>
    cases h
    exact .discarded aborting
  · split at h
    · next phase =>
      cases h
      exact .began phase
    · next phase => exact poll_effect phase h
    · next phase =>
      cases h
      unfold drain
      split
      · next trace rest queue => exact .drained trace rest phase queue
      · next queue => exact .emptied phase queue
    · next trigger phase =>
      cases h
      unfold flush
      split
      · next payload packer hnext => exact .taken trigger payload packer phase hnext
      · next hnone => exact .resumed trigger phase (Packer.nextPayload_eq_none.mp hnone)
    · next trigger payload failed backoff phase =>
      cases h
      exact attempt_effect phase
    · next trigger payload failed backoff wake phase =>
      split at h
      · next due =>
        cases h
        exact .woke trigger payload failed backoff wake phase due
      · cases h
    all_goals cases h

end Exporter

namespace ExportRun

variable {transport : Transport} {s : ExportRun}

/-- **What one operation can do.** -/
inductive StepEffect (transport : Transport) (s : ExportRun) : ExportOp → ExportRun → Prop where
  | accepted (trace : List SpanRecord) (told : (s.exporter.enqueue trace).value.1 = true)
      (opened : s.exporter.closed = false)
      (room : s.exporter.queue.length < s.exporter.limits.capacity) :
      StepEffect transport s (.enqueue trace)
        { exporter := { s.exporter with queue := s.exporter.queue ++ [trace] }
          accepted := s.accepted ++ [trace] }
  | refused (trace : List SpanRecord) (told : (s.exporter.enqueue trace).value.1 = false)
      (why : s.exporter.closed = true ∨ s.exporter.limits.capacity ≤ s.exporter.queue.length) :
      StepEffect transport s (.enqueue trace)
        { s with exporter := { s.exporter with
            stats := { s.exporter.stats with
              droppedQueueFull := s.exporter.stats.droppedQueueFull + 1 } } }
  | worked (next : Logged Exporter) (step : s.exporter.step? transport = some next) :
      StepEffect transport s .work { s with exporter := next.value }
  | started (phase : s.exporter.phase = .idle) :
      StepEffect transport s .start { s with exporter := { s.exporter with phase := .starting } }
  | discarded (phase : s.exporter.phase = .idle) :
      StepEffect transport s .discardIdle { s with exporter := s.exporter.discard }
  | aborting (running : s.exporter.isOver = false) :
      StepEffect transport s .abort { s with exporter := { s.exporter with aborting := true } }
  | rejected : StepEffect transport s .reject { s with exporter := s.exporter.recordDroppedBySample }
  | released :
      StepEffect transport s .releaseProducers { s with exporter := s.exporter.releaseProducers }
  | cancelled : StepEffect transport s .cancel { s with exporter := s.exporter.cancel }
  | clocked (now : Nat) : StepEffect transport s (.clock now) { s with exporter := { s.exporter with now } }
  | unchanged (op : ExportOp) (silent : ∀ trace, op ≠ .enqueue trace) : StepEffect transport s op s

theorem step_enqueue {trace : List SpanRecord} {told : Bool} {e : Exporter}
    (h : (s.exporter.enqueue trace).value = (told, e)) : s.step transport (.enqueue trace) =
      { exporter := e, accepted := if told then s.accepted ++ [trace] else s.accepted } := by
  simp only [step, h]

theorem enqueue_effect (s : ExportRun) (trace : List SpanRecord) :
    StepEffect transport s (.enqueue trace) (s.step transport (.enqueue trace)) := by
  have refused : ∀ reason, (s.exporter.enqueue trace).value = (s.exporter.refuse reason).value →
      (s.exporter.closed = true ∨ s.exporter.limits.capacity ≤ s.exporter.queue.length) →
      StepEffect transport s (.enqueue trace) (s.step transport (.enqueue trace)) := by
    intro reason hvalue why
    rw [step_enqueue hvalue]
    exact .refused trace (congrArg Prod.fst hvalue) why
  by_cases hclosed : s.exporter.closed = true
  · exact refused "exporter shut down" (by rw [Exporter.enqueue, if_pos hclosed]) (.inl hclosed)
  · by_cases hroom : s.exporter.queue.length < s.exporter.limits.capacity
    · have hvalue : (s.exporter.enqueue trace).value =
          (true, { s.exporter with queue := s.exporter.queue ++ [trace] }) := by
        rw [Exporter.enqueue, if_neg hclosed, if_pos hroom]
        rfl
      rw [step_enqueue hvalue]
      exact .accepted trace (congrArg Prod.fst hvalue) (by simpa using hclosed) hroom
    · exact refused "queue full" (by rw [Exporter.enqueue, if_neg hclosed, if_neg hroom])
        (.inr (Nat.not_lt.mp hroom))

/-- Every operation is one of the list. -/
theorem step_effect (s : ExportRun) (op : ExportOp) : StepEffect transport s op (s.step transport op) := by
  cases op with
  | enqueue trace => exact enqueue_effect s trace
  | work =>
    cases hstep : s.exporter.step? transport with
    | none =>
      rw [step_work_of_none hstep]
      exact .unchanged _ nofun
    | some next =>
      rw [step_work_of_some hstep]
      exact .worked next hstep
  | start =>
    show StepEffect transport s .start { s with exporter := s.exporter.start }
    unfold Exporter.start
    split
    · next hidle => exact .started hidle
    · exact .unchanged _ nofun
  | discardIdle =>
    show StepEffect transport s .discardIdle { s with exporter := s.exporter.discardIdle }
    unfold Exporter.discardIdle
    split
    · next hidle => exact .discarded hidle
    · exact .unchanged _ nofun
  | abort =>
    show StepEffect transport s .abort { s with exporter := s.exporter.abort }
    unfold Exporter.abort
    split
    · exact .unchanged _ nofun
    · next hrunning => exact .aborting (by simpa using hrunning)
  | reject => exact .rejected
  | releaseProducers => exact .released
  | cancel => exact .cancelled
  | clock now => exact .clocked now

end ExportRun

/-! ### Waiting -/

namespace Exporter

variable {transport : Transport} {e : Exporter}

/-- The worker and the clock lead from one exporter to another, with no producer in between. -/
def Passes (transport : Transport) (e e' : Exporter) : Prop :=
  ∃ ops : List ExportOp, (∀ op ∈ ops, op = .work ∨ ∃ now, op = .clock now) ∧
    ∀ accepted, ops.foldl (ExportRun.step transport) ⟨e, accepted⟩ = ⟨e', accepted⟩

namespace Passes

theorem refl (transport : Transport) (e : Exporter) : Passes transport e e :=
  ⟨[], by simp, fun _ => rfl⟩

theorem trans {e₁ e₂ e₃ : Exporter} (h₁ : Passes transport e₁ e₂) (h₂ : Passes transport e₂ e₃) :
    Passes transport e₁ e₃ := by
  obtain ⟨ops₁, only₁, run₁⟩ := h₁
  obtain ⟨ops₂, only₂, run₂⟩ := h₂
  refine ⟨ops₁ ++ ops₂, fun op h => ?_, fun accepted => ?_⟩
  · rcases List.mem_append.mp h with h | h
    · exact only₁ op h
    · exact only₂ op h
  · rw [List.foldl_append, run₁, run₂]

theorem work {next : Logged Exporter} (h : e.step? transport = some next) :
    Passes transport e next.value :=
  ⟨[.work], by simp, fun _ => ExportRun.step_work_of_some h⟩

theorem clock (transport : Transport) (e : Exporter) (now : Nat) :
    Passes transport e { e with now } :=
  ⟨[.clock now], by simp, fun _ => rfl⟩

theorem bind {α : Type} {x : Logged Exporter} {f : Exporter → Logged (α × Exporter)}
    (hx : Passes transport e x.value) (hf : ∀ left, Passes transport left (f left).value.2) :
    Passes transport e (x >>= f).value.2 := hx.trans (hf x.value)

end Passes

theorem run_induction {P : Exporter → Prop} (hs : ∀ e next, e.step? transport = some next → P e → P next.value)
    (fuel : Nat) {state : Logged Exporter} (h0 : P state.value) : P (run transport fuel state).value := by
  induction fuel generalizing state with
  | zero => exact h0
  | succ fuel ih =>
    unfold run
    split
    · next next hstep =>
      have hnext : P (state >>= fun _ => next).value := hs state.value next hstep h0
      exact ih hnext
    · exact h0

theorem settle_induction {P : Exporter → Prop} (hs : ∀ e next, e.step? transport = some next → P e → P next.value)
    {state : Logged Exporter} (h0 : P state.value) : P (state >>= settle transport).value :=
  @run_induction transport P hs state.value.stepBound (pure state.value) h0

theorem runBefore_passes (deadline fuel : Nat) (state : Logged Exporter) :
    Passes transport state.value (runBefore transport deadline fuel state).value := by
  induction fuel generalizing state with
  | zero => exact .refl transport _
  | succ fuel ih =>
    have settled : Passes transport state.value (state >>= settle transport).value :=
      settle_induction (fun _ _ hstep passes => passes.trans (.work hstep)) (.refl transport _)
    unfold runBefore
    simp only
    split
    · next wake _ =>
      split
      · exact (settled.trans (.clock transport _ wake)).trans
          (ih ((state >>= settle transport) >>= fun e => pure { e with now := wake }))
      · exact settled
    · exact settled

theorem runFor_passes (transport : Transport) (millis : Nat) (e : Exporter) :
    Passes transport e (e.runFor transport millis).value := runBefore_passes _ _ (pure e)

/-- **Waiting is a run of the worker.** -/
theorem sleep_passes (transport : Transport) (millis : Nat) (e : Exporter) :
    Passes transport e (e.sleep transport millis).value := by
  unfold sleep
  split
  · exact .refl transport e
  · exact (runFor_passes transport millis e).trans (.clock transport _ _)

/-- **Shutting down is a run of the worker** that was asked to stop. -/
theorem shutdown_passes (transport : Transport) (timeout : Nat) (e : Exporter) :
    Passes transport e.cancel (e.shutdown transport timeout).value.2 := by
  unfold shutdown
  simp only
  split
  · exact .refl transport _
  · split
    · exact .refl transport _
    · refine .bind (runFor_passes transport _ e.cancel) fun left => ?_
      split
      · exact .refl transport left
      · exact .clock transport left _

end Exporter

end Tracing
