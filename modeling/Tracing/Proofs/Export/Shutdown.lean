import Tracing.Proofs.Export.Counters
import Tracing.Proofs.Export.Progress

/-!
# Shutting down

Whoever shuts the exporter down asks the worker to stop and waits for that until a deadline; meanwhile
everything else goes on. `callShutdown` is such a call amid other operations: it is answered at the first
moment at which there is an answer. The exporter's own `shutdown` is the call in which nothing but the worker
and the clock goes on (`shutdown_call`).

* `stopped_after`: a worker that has stopped has nothing left, and nothing that follows changes that;
* `shutdown_drains`: what the answer of a call says, and what holds from the moment the worker has stopped.
-/

namespace Tracing

/-- What a call to shut down is answered at some moment; the deadline is in nanoseconds. -/
def Exporter.shutdownAnswer? (deadline : Nat) (e : Exporter) : Option (Except TracerError Unit) :=
  if e.isFinished then some (.ok ())
  else if deadline ≤ e.nanos then some (.error .shutdownTimeout)
  else none

namespace ExportRun

/-- Waits for an answer while operations take place; gives the answer, if there is one by then, and the run
at that moment. -/
def awaitStop (transport : Transport) (deadline : Nat) :
    ExportRun → List ExportOp → Option (Except TracerError Unit) × ExportRun
  | s, [] => (s.exporter.shutdownAnswer? deadline, s)
  | s, op :: ops =>
    match s.exporter.shutdownAnswer? deadline with
    | some answer => (some answer, s)
    | none => awaitStop transport deadline (s.step transport op) ops

/-- A call to shut down, at most for a number of nanoseconds, during which operations take place. -/
def callShutdown (transport : Transport) (timeout : Nat) (s : ExportRun) (during : List ExportOp) :
    Option (Except TracerError Unit) × ExportRun :=
  awaitStop transport (s.exporter.nanos + timeout) (s.step transport .cancel) during

end ExportRun

namespace Exporter

variable {transport : Transport} {e e' : Exporter}

theorem shutdownAnswer?_of_finished (deadline : Nat) (h : e.isFinished = true) :
    e.shutdownAnswer? deadline = some (.ok ()) := if_pos h

theorem shutdownAnswer?_of_early {deadline : Nat} (h : e.isFinished = false) (early : e.nanos < deadline) :
    e.shutdownAnswer? deadline = none := by
  unfold shutdownAnswer?
  rw [h]
  exact if_neg (Nat.not_le.mpr early)

theorem shutdownAnswer?_of_late {deadline : Nat} (h : e.isFinished = false) (late : deadline ≤ e.nanos) :
    e.shutdownAnswer? deadline = some (.error .shutdownTimeout) := by
  unfold shutdownAnswer?
  rw [h]
  exact if_pos late

/-! ### A worker that has stopped -/

theorem aborting_of_step {next : Logged Exporter} (h : e.step? transport = some next) :
    next.value.aborting = false := by
  by_cases haborting : e.aborting = true
  · unfold step? at h
    rw [if_pos haborting] at h
    cases h
    rfl
  · rcases work_alive (work_effect h) with ⟨hyes, -⟩ | ⟨-, -, hsame⟩
    · exact absurd hyes haborting
    · rw [hsame]
      simpa using haborting

/-- A worker that has stopped is not to be discarded. -/
def Steady (e : Exporter) : Prop := e.phase = .stopped → e.aborting = false

/-- **The worker has stopped**, with nothing left and the queue closed. -/
structure Stopped (e : Exporter) : Prop where
  phase : e.phase = .stopped
  aborting : e.aborting = false
  closed : e.closed = true
  queue : e.queue = []

namespace Stopped

theorem isFinished (h : Stopped e) : e.isFinished = true := by
  unfold Exporter.isFinished
  rw [h.phase]
  rfl

theorem frame (h : Stopped e) (phase : e'.phase = e.phase) (aborting : e'.aborting = e.aborting)
    (closed : e'.closed = e.closed) (queue : e'.queue = e.queue) : Stopped e' :=
  ⟨phase.trans h.phase, aborting.trans h.aborting, closed.trans h.closed, queue.trans h.queue⟩

theorem step?_eq_none (h : Stopped e) : e.step? transport = none := by
  unfold step?
  rw [h.aborting, h.phase]
  rfl

theorem shutdown_value (h : Stopped e) (timeout : Nat) :
    (e.shutdown transport timeout).value = (.ok (), e.cancel) := by
  have hfinished : e.cancel.isFinished = true := h.isFinished
  unfold shutdown
  simp only [hfinished, if_true]
  rfl

end Stopped

end Exporter

namespace ExportRun

open Exporter

variable {transport : Transport} {s : ExportRun}

theorem stopped_step (h : s.exporter.Stopped) {s' : ExportRun} {op : ExportOp}
    (effect : StepEffect transport s op s') :
    s'.exporter.Stopped ∧ s'.exporter.attempts = s.exporter.attempts ∧ s'.accepted = s.accepted ∧
      ∀ told ∈ s.answer? op, told = false := by
  cases effect with
  | accepted trace _ opened =>
    rw [h.closed] at opened
    cases opened
  | refused trace told =>
    refine ⟨h.frame rfl rfl rfl rfl, rfl, rfl, fun answer hanswer => ?_⟩
    exact (Option.some.inj hanswer).symm.trans told
  | worked next step =>
    rw [h.step?_eq_none] at step
    cases step
  | started phase | discarded phase =>
    rw [h.phase] at phase
    cases phase
  | aborting running =>
    have hover : s.exporter.isOver = true := by simp [isOver, h.phase]
    rw [hover] at running
    cases running
  | rejected | released | cancelled | clocked => exact ⟨h.frame rfl rfl rfl rfl, rfl, rfl, nofun⟩
  | unchanged op silent =>
    refine ⟨h, rfl, rfl, fun answer hanswer => ?_⟩
    cases op with
    | enqueue trace => exact absurd rfl (silent trace)
    | _ => cases hanswer

/-- **Stopping is final.** -/
theorem stopped_after (h : s.exporter.Stopped) (later : List ExportOp) :
    (later.foldl (step transport) s).exporter.Stopped ∧
      (later.foldl (step transport) s).exporter.attempts = s.exporter.attempts ∧
      (later.foldl (step transport) s).accepted = s.accepted ∧
      ∀ told ∈ answers transport s later, told = false := by
  induction later generalizing s with
  | nil => exact ⟨h, rfl, rfl, nofun⟩
  | cons op later ih =>
    obtain ⟨hstopped, hattempts, haccepted, htold⟩ := stopped_step h (@step_effect transport s op)
    obtain ⟨hstopped', hattempts', haccepted', htold'⟩ := ih hstopped
    refine ⟨hstopped', hattempts'.trans hattempts, haccepted'.trans haccepted, fun told hmem => ?_⟩
    rw [answers, List.mem_append, Option.mem_toList] at hmem
    exact hmem.elim (htold told) (htold' told)

theorem steady_step {s' : ExportRun} {op : ExportOp} (effect : StepEffect transport s op s')
    (h : s.exporter.Steady) : s'.exporter.Steady := by
  cases effect with
  | worked next step => exact fun _ => aborting_of_step step
  | started | discarded => exact nofun
  | aborting running =>
    intro hstopped
    have hphase : s.exporter.phase = .stopped := hstopped
    simp [isOver, hphase] at running
  | accepted | refused | rejected | released | cancelled | clocked | unchanged => exact h

/-- **A worker that has stopped is done with everything that was accepted.** -/
theorem Conserved.stopped {maxBytes maxValueLength : Nat} (h : Conserved maxBytes maxValueLength s)
    (steady : s.exporter.Steady) (finished : s.exporter.isFinished = true) :
    s.exporter.Stopped ∧ s.received = s.accepted ∧
      ∀ trace ∈ s.accepted, ∀ span ∈ encodable maxBytes maxValueLength trace,
        ∃ a ∈ s.exporter.attempts, span ∈ a.payload.spans := by
  have hphase : s.exporter.phase = .stopped := eq_of_beq finished
  obtain ⟨hclosed, hqueue⟩ := h.orderly.closing (by rw [hphase]; rfl)
  refine ⟨⟨hphase, steady hphase, hclosed, hqueue⟩, ?_, fun trace htrace span hspan => ?_⟩
  · unfold received
    rw [hqueue]
    exact List.take_length
  · have hbalance := h.balance (by simp [hphase])
    rw [inTransit_of_finished h.orderly hphase, List.append_nil] at hbalance
    have hsent : span ∈ acceptedSpans maxBytes maxValueLength s := List.mem_flatMap.mpr ⟨trace, htrace, hspan⟩
    rw [hbalance] at hsent
    exact exists_of_mem_sent hsent

/-! ### Calls -/

theorem awaitStop_of_answer {deadline : Nat} {answer : Except TracerError Unit}
    (h : s.exporter.shutdownAnswer? deadline = some answer) (ops : List ExportOp) :
    awaitStop transport deadline s ops = (some answer, s) := by
  cases ops with
  | nil => rw [awaitStop, h]
  | cons op ops => rw [awaitStop, h]

theorem awaitStop_of_none {deadline : Nat} (h : s.exporter.shutdownAnswer? deadline = none) (op : ExportOp)
    (ops : List ExportOp) :
    awaitStop transport deadline s (op :: ops) = awaitStop transport deadline (s.step transport op) ops := by
  rw [awaitStop, h]

theorem awaitStop_answer (deadline : Nat) (s : ExportRun) (ops : List ExportOp) :
    (awaitStop transport deadline s ops).1 =
      (awaitStop transport deadline s ops).2.exporter.shutdownAnswer? deadline := by
  induction ops generalizing s with
  | nil => rfl
  | cons op ops ih =>
    cases hanswer : s.exporter.shutdownAnswer? deadline with
    | none =>
      rw [awaitStop_of_none hanswer]
      exact ih (s.step transport op)
    | some answer =>
      rw [awaitStop_of_answer hanswer]
      exact hanswer.symm

end ExportRun

/-! ### Waiting for the worker to stop -/

namespace Exporter

variable {transport : Transport} {e e' : Exporter} {deadline : Nat}

/-- The worker and the clock lead from one exporter to another before there is an answer. -/
def Awaits (transport : Transport) (deadline : Nat) (e e' : Exporter) : Prop :=
  ∃ ops : List ExportOp, (∀ op ∈ ops, op = .work ∨ ∃ now, op = .clock now) ∧
    ∀ accepted later, ExportRun.awaitStop transport deadline ⟨e, accepted⟩ (ops ++ later) =
      ExportRun.awaitStop transport deadline ⟨e', accepted⟩ later

namespace Awaits

theorem refl (transport : Transport) (deadline : Nat) (e : Exporter) : Awaits transport deadline e e :=
  ⟨[], by simp, fun _ _ => rfl⟩

theorem trans {e₁ e₂ e₃ : Exporter} (h₁ : Awaits transport deadline e₁ e₂)
    (h₂ : Awaits transport deadline e₂ e₃) : Awaits transport deadline e₁ e₃ := by
  obtain ⟨ops₁, only₁, run₁⟩ := h₁
  obtain ⟨ops₂, only₂, run₂⟩ := h₂
  refine ⟨ops₁ ++ ops₂, List.forall_mem_append.mpr ⟨only₁, only₂⟩, fun accepted later => ?_⟩
  rw [List.append_assoc, run₁, run₂]

theorem work {next : Logged Exporter} (h : e.shutdownAnswer? deadline = none)
    (hstep : e.step? transport = some next) : Awaits transport deadline e next.value := by
  refine ⟨[.work], by simp, fun accepted later => ?_⟩
  rw [List.singleton_append, ExportRun.awaitStop_of_none h, ExportRun.step_work_of_some hstep]

theorem clock (transport : Transport) (h : e.shutdownAnswer? deadline = none) (now : Nat) :
    Awaits transport deadline e { e with now } :=
  ⟨[.clock now], by simp, fun _ _ => ExportRun.awaitStop_of_none h _ _⟩

end Awaits

theorem isFinished_of_step (steady : e.Steady) {next : Logged Exporter} (h : e.step? transport = some next) :
    e.isFinished = false := by
  rw [← Bool.not_eq_true]
  intro hfinished
  have hphase : e.phase = .stopped := eq_of_beq hfinished
  unfold step? at h
  rw [steady hphase, hphase] at h
  cases h

theorem settle_awaits {state : Logged Exporter} (steady : state.value.Steady)
    (early : state.value.nanos < deadline) :
    Awaits transport deadline state.value (state >>= settle transport).value ∧
      (state >>= settle transport).value.Steady := by
  refine And.imp_right And.left (settle_induction (P := fun e =>
    Awaits transport deadline state.value e ∧ e.Steady ∧ e.nanos = state.value.nanos) ?_
    ⟨.refl transport deadline _, steady, rfl⟩)
  rintro e next hstep ⟨hawaits, hsteady, hnanos⟩
  have hnow : next.value.nanos = e.nanos := congrArg (· * millisecond) (now_work (work_effect hstep))
  have hanswer := shutdownAnswer?_of_early (isFinished_of_step hsteady hstep) (hnanos.trans_lt early)
  exact ⟨hawaits.trans (.work hanswer hstep), fun _ => aborting_of_step hstep, hnow.trans hnanos⟩

theorem runBefore_awaits {last fuel : Nat} {state : Logged Exporter} (steady : state.value.Steady)
    (hlast : ∀ now < last, now * millisecond < deadline) (early : state.value.now < last) :
    Awaits transport deadline state.value (runBefore transport last fuel state).value ∧
      (runBefore transport last fuel state).value.now < last := by
  induction fuel generalizing state with
  | zero => exact ⟨.refl transport deadline _, early⟩
  | succ fuel ih =>
    obtain ⟨hsettled, hsteady⟩ := @settle_awaits transport deadline state steady (hlast _ early)
    have hnow := now_settle transport state
    unfold runBefore
    simp only
    split
    · next wake hwake =>
      split
      · next hearly =>
        have hrunning : (state >>= settle transport).value.isFinished = false := by
          rw [← Bool.not_eq_true]
          intro hfinished
          have hphase : (state >>= settle transport).value.phase = .stopped := eq_of_beq hfinished
          unfold wake? at hwake
          rw [hphase] at hwake
          cases hwake
        have hanswer := shutdownAnswer?_of_early hrunning (hlast _ (hnow ▸ early))
        obtain ⟨hrest, hbefore⟩ := @ih
          ((state >>= settle transport) >>= fun e => pure { e with now := wake }) hsteady hearly
        exact ⟨(hsettled.trans (Awaits.clock transport hanswer wake)).trans hrest, hbefore⟩
      · exact ⟨hsettled, hnow ▸ early⟩
    · exact ⟨hsettled, hnow ▸ early⟩

/-- The time is waited for in whole milliseconds, and no more of them than it takes. -/
theorem exists_millis (timeout : Nat) : ∃ millis, (timeout + (millisecond - 1)) / millisecond = millis ∧
    timeout ≤ millis * millisecond ∧ ∀ n < millis, n * millisecond < timeout := by
  refine ⟨_, rfl, ?_, fun n hn => ?_⟩
  · unfold millisecond
    omega
  · unfold millisecond at *
    omega

/-- The exporter answers at once, or it waits until the deadline. -/
theorem shutdown_cases (transport : Transport) (e : Exporter) (timeout : Nat) :
    e.isFinished = true ∧ (e.shutdown transport timeout).value = (.ok (), e.cancel) ∨
    e.isFinished = false ∧ timeout = 0 ∧
      (e.shutdown transport timeout).value = (.error .shutdownTimeout, e.cancel) ∨
    ∃ millis left, 0 < millis ∧ (∀ now < e.now + millis, now * millisecond < e.nanos + timeout) ∧
      e.nanos + timeout ≤ (e.now + millis) * millisecond ∧ (e.cancel.runFor transport millis).value = left ∧
      (e.shutdown transport timeout).value =
        if left.isFinished then (.ok (), left)
        else (.error .shutdownTimeout, { left with now := e.now + millis }) := by
  have hcancelled : e.cancel.isFinished = e.isFinished := rfl
  have hnow : e.cancel.now = e.now := rfl
  unfold shutdown
  simp only [hcancelled, hnow]
  cases hfinished : e.isFinished with
  | true => exact .inl ⟨rfl, rfl⟩
  | false =>
    refine .inr ?_
    by_cases hzero : timeout = 0
    · exact .inl ⟨rfl, hzero, by rw [if_pos hzero]; rfl⟩
    · refine .inr ?_
      obtain ⟨millis, hmillis, hlate, hearly⟩ := exists_millis timeout
      have hpos : 0 < millis := by
        rw [Nat.pos_iff_ne_zero]
        rintro rfl
        omega
      refine ⟨millis, _, hpos, fun now hlt => ?_, ?_, rfl, ?_⟩
      · by_cases hbefore : now < e.now
        · have hle := Nat.mul_le_mul_right millisecond hbefore.le
          unfold nanos
          omega
        · have hsince := hearly (now - e.now) (by omega)
          rw [Nat.sub_mul] at hsince
          unfold nanos
          omega
      · rw [Nat.add_mul]
        exact Nat.add_le_add_left hlate _
      · rw [if_neg hzero, hmillis]
        generalize e.cancel.runFor transport millis = state
        show Logged.value (if state.value.isFinished then _ else _) = _
        cases state.value.isFinished <;> rfl

theorem shutdown_awaits (steady : e.Steady) (timeout : Nat) :
    Awaits transport (e.nanos + timeout) e.cancel (e.shutdown transport timeout).value.2 ∧
      (e.shutdown transport timeout).value.2.shutdownAnswer? (e.nanos + timeout) =
        some (e.shutdown transport timeout).value.1 := by
  rcases shutdown_cases transport e timeout with
    ⟨hfinished, hvalue⟩ | ⟨hrunning, hzero, hvalue⟩ | ⟨millis, left, hpos, hlast, hlate, hleft, hvalue⟩
  · rw [hvalue]
    exact ⟨.refl transport _ _, shutdownAnswer?_of_finished _ hfinished⟩
  · rw [hvalue]
    have hlate : e.nanos + timeout ≤ e.nanos := by omega
    exact ⟨.refl transport _ _, shutdownAnswer?_of_late hrunning hlate⟩
  · obtain ⟨hawaits, hbefore⟩ := @runBefore_awaits transport _ _ (millis + 1) (pure e.cancel) steady hlast
      (Nat.lt_add_of_pos_right hpos)
    change Awaits transport _ e.cancel (e.cancel.runFor transport millis).value at hawaits
    change (e.cancel.runFor transport millis).value.now < _ at hbefore
    rw [hleft] at hawaits hbefore
    rw [hvalue]
    cases hfinished : left.isFinished with
    | true => exact ⟨hawaits, shutdownAnswer?_of_finished _ hfinished⟩
    | false =>
      have hanswer := shutdownAnswer?_of_early hfinished (hlast _ hbefore)
      exact ⟨hawaits.trans (Awaits.clock transport hanswer _), shutdownAnswer?_of_late hfinished hlate⟩

/-- **Shutting down is a call during which only the worker and the clock go on.** -/
theorem shutdown_call (steady : e.Steady) (timeout : Nat) (accepted : List (List SpanRecord)) :
    ∃ during : List ExportOp, (∀ op ∈ during, op = .work ∨ ∃ now, op = .clock now) ∧
      ExportRun.callShutdown transport timeout ⟨e, accepted⟩ during =
        (some (e.shutdown transport timeout).value.1, ⟨(e.shutdown transport timeout).value.2, accepted⟩) := by
  obtain ⟨⟨during, honly, hrun⟩, hanswer⟩ := @shutdown_awaits transport e steady timeout
  have hcall := hrun accepted []
  rw [List.append_nil] at hcall
  exact ⟨during, honly, hcall.trans (ExportRun.awaitStop_of_answer hanswer [])⟩

/-- **A timeout means that the worker had to wait**: at no moment of the call could it have gone on. -/
theorem shutdown_blocked (paced : e.Paced) (timeout : Nat)
    (running : (e.shutdown transport timeout).value.2.isFinished = false) {now : Nat} (since : e.now ≤ now)
    (before : now < (e.shutdown transport timeout).value.2.now) :
    ({ (e.shutdown transport timeout).value.2 with now } : Exporter).step? transport = none := by
  rcases shutdown_cases transport e timeout with
    ⟨hfinished, hvalue⟩ | ⟨-, -, hvalue⟩ | ⟨millis, left, -, -, -, hleft, hvalue⟩
  · rw [hvalue] at running
    have hcancelled : e.cancel.isFinished = true := hfinished
    rw [hcancelled] at running
    cases running
  · rw [hvalue] at before
    exact absurd before (Nat.not_lt.mpr since)
  · have hpaced : e.cancel.Paced := ⟨paced.interval, paced.backoff⟩
    rw [hvalue] at running before ⊢
    cases hfinished : left.isFinished with
    | true =>
      rw [hfinished, if_pos rfl] at running
      exact absurd running (by rw [hfinished]; decide)
    | false =>
      rw [hfinished] at before
      have hbefore : now < e.cancel.now + millis := before
      have hblocked := @runFor_blocked transport e.cancel hpaced millis now hbefore
      rw [hleft] at hblocked
      exact hblocked

end Exporter

/-! ### Shutting down in a run -/

namespace ExportRun

open Exporter

variable {transport : Transport}

theorem steady_after {c : Config} {e : Exporter} (h : Exporter.ofConfig? c = some e)
    (transport : Transport) (ops : List ExportOp) : (after transport e ops).exporter.Steady := by
  have hnew : e.Steady := by
    obtain rfl := eq_of_ofConfig? h
    exact nofun
  exact after_induction (P := fun s => s.exporter.Steady) hnew
    (fun s op hs => steady_step (step_effect s op) hs) ops

theorem callShutdown_answer (timeout : Nat) (s : ExportRun) (during : List ExportOp) :
    let (answer, left) := s.callShutdown transport timeout during
    (answer = some (.ok ()) ↔ left.exporter.isFinished = true) ∧
      ∀ error, answer = some (.error error) ↔ error = .shutdownTimeout ∧ left.exporter.isFinished = false ∧
        s.exporter.nanos + timeout ≤ left.exporter.nanos := by
  have hanswer := @awaitStop_answer transport (s.exporter.nanos + timeout) (s.step transport .cancel) during
  show ((s.callShutdown transport timeout during).1 = _ ↔ _) ∧
    ∀ error, (s.callShutdown transport timeout during).1 = _ ↔ _
  unfold callShutdown
  rw [hanswer]
  generalize (awaitStop transport (s.exporter.nanos + timeout) (s.step transport .cancel) during).2 = left
  unfold shutdownAnswer?
  split
  · next hfinished => simp [hfinished]
  · next hrunning =>
    split
    · next hlate => simp [hrunning, hlate, eq_comm]
    · next hearly => simp [hrunning, hearly]

/-- **Shutting down drains everything and is final.** In every run of an exporter that was made for a
configuration, with every transport:

* a call to shut down, whatever takes place during it, is answered with success exactly when the worker has
  stopped at its return, and otherwise with a timeout exactly when its deadline has passed;
* the exporter's own `shutdown` is such a call, and after a timeout the worker could not have gone on at any
  moment of the call;
* once the worker has stopped, every accepted trace was received and each of its encodable spans was in a
  payload that was attempted. From then on the transport is not called, every trace is refused and counted as
  such, and every call to shut down succeeds at once, whatever its timeout. -/
theorem shutdown_drains {c : Config} {e : Exporter} (h : Exporter.ofConfig? c = some e)
    (transport : Transport) (ops : List ExportOp) :
    let s := after transport e ops
    (∀ timeout during, let (answer, left) := s.callShutdown transport timeout during
      (answer = some (.ok ()) ↔ left.exporter.isFinished = true) ∧
      ∀ error, answer = some (.error error) ↔ error = .shutdownTimeout ∧ left.exporter.isFinished = false ∧
        s.exporter.nanos + timeout ≤ left.exporter.nanos) ∧
    (∀ timeout, let (answer, left) := (s.exporter.shutdown transport timeout).value
      (∃ during : List ExportOp, (∀ op ∈ during, op = .work ∨ ∃ now, op = .clock now) ∧
        s.callShutdown transport timeout during = (some answer, { s with exporter := left })) ∧
      (left.isFinished = false → ∀ now, s.exporter.now ≤ now → now < left.now →
        ({ left with now } : Exporter).step? transport = none)) ∧
    (s.exporter.isFinished = true →
      s.received = s.accepted ∧
      (∀ trace ∈ s.accepted, ∀ span ∈ encodable c.maxPayloadBytes c.maxValueLength trace,
        ∃ a ∈ s.exporter.attempts, span ∈ a.payload.spans) ∧
      ∀ later, let left := later.foldl (step transport) s
        left.exporter.isFinished = true ∧ left.exporter.attempts = s.exporter.attempts ∧
        left.accepted = s.accepted ∧ (∀ told ∈ answers transport s later, told = false) ∧
        left.exporter.stats.droppedQueueFull =
          s.exporter.stats.droppedQueueFull + (answers transport s later).length ∧
        ∀ timeout, (left.exporter.shutdown transport timeout).value = (.ok (), left.exporter.cancel)) := by
  intro s
  have hsteady : s.exporter.Steady := steady_after h transport ops
  refine ⟨fun timeout during => callShutdown_answer timeout s during, fun timeout => ?_, fun hfinished => ?_⟩
  · exact ⟨shutdown_call hsteady timeout s.accepted, fun hrunning now hsince hbefore =>
      shutdown_blocked (paced_after h transport ops) timeout hrunning hsince hbefore⟩
  · have hconserved : Conserved c.maxPayloadBytes c.maxValueLength s :=
      after_induction (conserved_new h) conserved_step ops
    obtain ⟨hstopped, hreceived, hattempted⟩ := hconserved.stopped hsteady hfinished
    refine ⟨hreceived, hattempted, fun later => ?_⟩
    obtain ⟨hstopped', hattempts, haccepted, htold⟩ := @stopped_after transport s hstopped later
    have hrefused : (answers transport s later).count false = (answers transport s later).length :=
      List.count_eq_length.mpr fun told hmem => (htold told hmem).symm
    refine ⟨hstopped'.isFinished, hattempts, haccepted, htold, ?_, fun timeout => hstopped'.shutdown_value timeout⟩
    rw [(answers_after s later).2, hrefused]

/-- The only payload fails once, and its second attempt comes after the worker was asked to stop. A trace
that comes later is refused, and a call with no time to wait succeeds. -/
theorem shutdown_drains_retried :
    let e := (Exporter.ofConfig? .default).getD default
    let transport : Transport := ⟨fun n => if n = 0 then .failed (.transient "reset") else .accepted⟩
    let trace (n : Nat) := [SpanRecord.new (.ofNat n) (.ofNat 1) none "op" "svc" 0]
    let ops : List ExportOp := [.start, .enqueue (trace 1), .cancel, .enqueue (trace 2)]
      ++ List.replicate 7 .work ++ .clock 100 :: List.replicate 4 .work
    let s := after transport e ops
    let left := [.enqueue (trace 3), .work].foldl (step transport) s
    Exporter.ofConfig? .default = some e ∧ s.exporter.isFinished = true ∧ s.exporter.attempts.length = 2 ∧
      s.accepted.length = 2 ∧ s.received = s.accepted ∧ left.exporter.attempts = s.exporter.attempts ∧
      left.exporter.stats.droppedQueueFull = s.exporter.stats.droppedQueueFull + 1 ∧
      (left.exporter.shutdown transport 0).value = (.ok (), left.exporter.cancel) := by
  intro e transport trace ops
  have he : Exporter.ofConfig? .default = some e := rfl
  obtain ⟨hfinished, hattempts, haccepted, htold⟩ :
      (after transport e ops).exporter.isFinished = true ∧
        (after transport e ops).exporter.attempts.length = 2 ∧ (after transport e ops).accepted.length = 2 ∧
        answers transport (after transport e ops) [.enqueue (trace 3), .work] = [false] := by
    decide +kernel
  obtain ⟨hreceived, -, hfinal⟩ := (shutdown_drains he transport ops).2.2 hfinished
  obtain ⟨-, hsame, -, -, hdropped, hanswer⟩ := hfinal [.enqueue (trace 3), .work]
  rw [htold] at hdropped
  exact ⟨he, hfinished, hattempts, haccepted, hreceived, hsame, hdropped, hanswer 0⟩

end ExportRun

end Tracing
