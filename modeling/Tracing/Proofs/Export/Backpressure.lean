import Tracing.Proofs.Export.Backlog
import Tracing.Proofs.Export.Counters

/-!
# Backpressure

What becomes of a trace that a producer puts in, whatever happened before: it is refused exactly if the queue
is closed or holds as many traces as fit, and a refused trace leaves all as it was but for one more drop
(`enqueue_refused_iff`, `backpressure_exact`). Producers share one exporter, so their calls, however many
producers there are, stand in one list together with the steps of the worker.

Only a refusal is logged, with a warning for the first of a run and quietly from then on (`report_eq`,
`levels_reports`).
-/

namespace Tracing

/-! ### One trace -/

namespace Exporter

variable {transport : Transport} {e e' : Exporter}

/-- **A trace is refused exactly if the queue is closed or full.** -/
theorem enqueue_refused_iff (e : Exporter) (trace : List SpanRecord) :
    (e.enqueue trace).value.1 = false ↔ e.closed = true ∨ e.limits.capacity ≤ e.queue.length := by
  unfold enqueue
  by_cases hclosed : e.closed = true
  · rw [if_pos hclosed]
    exact iff_of_true rfl (.inl hclosed)
  · rw [if_neg hclosed]
    by_cases hroom : e.queue.length < e.limits.capacity
    · rw [if_pos hroom]
      exact iff_of_false (by simp) (by simp [hclosed, hroom])
    · rw [if_neg hroom]
      exact iff_of_true rfl (.inr (Nat.not_lt.mp hroom))

/-- Why a trace would be refused. -/
def refusal (e : Exporter) : String := if e.closed then "exporter shut down" else "queue full"

/-- The event of a refused trace, of which some were refused before. -/
def refusalEvent (before : Nat) (reason : String) : Event where
  level := if before = 0 then .warn else .debug
  message := "TRACES | Dropping trace, " ++ reason

theorem enqueue_events (e : Exporter) (trace : List SpanRecord) :
    (e.enqueue trace).events =
      if (e.enqueue trace).value.1 then [] else [refusalEvent e.stats.droppedQueueFull e.refusal] := by
  unfold enqueue refusal
  split
  · rfl
  · split <;> rfl

theorem closed_work (effect : WorkEffect transport e e') (h : e.closed = true) : e'.closed = true := by
  cases effect with
  | discarded | closed => rfl
  | resumed trigger => cases trigger <;> exact h
  | _ => exact h

end Exporter

namespace ExportRun

open Exporter

variable {transport : Transport} {s : ExportRun}

theorem closed_step {s' : ExportRun} {op : ExportOp} (effect : StepEffect transport s op s')
    (h : s.exporter.closed = true) : s'.exporter.closed = true := by
  cases effect with
  | worked next step => exact closed_work (work_effect step) h
  | discarded => rfl
  | _ => exact h

/-! ### What producers log -/

/-- What the producer of a trace logs. -/
def report (s : ExportRun) : ExportOp → List Event
  | .enqueue trace => (s.exporter.enqueue trace).events
  | _ => []

/-- What producers log during some operations, the oldest event first. -/
def reports (transport : Transport) : ExportRun → List ExportOp → List Event
  | _, [] => []
  | s, op :: ops => s.report op ++ reports transport (s.step transport op) ops

/-- The levels of a number of refusals after some others. -/
def refusalLevels (before : Nat) : (refusals : Nat) → List Level
  | 0 => []
  | refusals + 1 => (if before = 0 then .warn else .debug) :: refusalLevels (before + 1) refusals

theorem refusalLevels_succ (before refusals : Nat) :
    refusalLevels (before + 1) refusals = List.replicate refusals .debug := by
  induction refusals generalizing before with
  | zero => rfl
  | succ refusals ih => rw [refusalLevels, ih, List.replicate_succ, if_neg (Nat.succ_ne_zero before)]

theorem report_eq (s : ExportRun) (op : ExportOp) : s.report op =
    List.replicate ((s.answer? op).toList.count false)
      (refusalEvent s.exporter.stats.droppedQueueFull s.exporter.refusal) := by
  cases op with
  | enqueue trace =>
    rw [report, answer?, enqueue_events]
    cases (s.exporter.enqueue trace).value.1 <;> rfl
  | _ => rfl

theorem count_answer_le (s : ExportRun) (op : ExportOp) : (s.answer? op).toList.count false ≤ 1 := by
  refine List.count_le_length.trans ?_
  cases s.answer? op <;> simp

/-- **Refusals are logged one by one**, each at the level that the number of refusals before it calls for. -/
theorem levels_reports (s : ExportRun) (ops : List ExportOp) :
    (reports transport s ops).map Event.level =
      refusalLevels s.exporter.stats.droppedQueueFull ((answers transport s ops).count false) := by
  induction ops generalizing s with
  | nil => rfl
  | cons op ops ih =>
    have hcount := (answer_step (@step_effect transport s op)).2
    rw [reports, answers, List.map_append, ih, List.count_append, report_eq, hcount]
    have hone := count_answer_le s op
    interval_cases hanswer : (s.answer? op).toList.count false
    · rw [Nat.zero_add]
      rfl
    · rw [Nat.add_comm 1]
      rfl

/-! ### All of it -/

/-- **Backpressure drops the newest trace, exactly.** After every run of an exporter that was made for a
configuration, with every transport and in every order of producers and worker:

* the queue holds at most its capacity, and a trace that is put in next is refused exactly if the queue is
  closed, which it then stays, or holds that many traces;
* an accepted trace goes to the end of the queue and nothing else changes; of a refused trace nothing remains
  but one more drop, so the queued traces and their order stay;
* an accepted trace is not logged, a refused one with one event, a warning if no trace was refused before;
* the drops counted are the traces refused, and of the events logged for them the first is a warning and all
  others are for debugging. -/
theorem backpressure_exact {c : Config} {e : Exporter} (h : Exporter.ofConfig? c = some e)
    (transport : Transport) (ops : List ExportOp) :
    let s := after transport e ops
    let refused := (answers transport { exporter := e } ops).count false
    s.exporter.queue.length ≤ max 1 c.queueCapacity ∧
    (s.exporter.closed = true → ∀ op, (s.step transport op).exporter.closed = true) ∧
    (∀ trace,
      ((s.exporter.enqueue trace).value.1 = false ↔
        s.exporter.closed = true ∨ s.exporter.queue.length = max 1 c.queueCapacity) ∧
      ((s.exporter.enqueue trace).value.1 = true →
        (s.exporter.enqueue trace).value.2 = { s.exporter with queue := s.exporter.queue ++ [trace] } ∧
        (s.exporter.enqueue trace).events = []) ∧
      ((s.exporter.enqueue trace).value.1 = false →
        (s.exporter.enqueue trace).value.2 = { s.exporter with
          stats := { s.exporter.stats with
            droppedQueueFull := s.exporter.stats.droppedQueueFull + 1 } } ∧
        (s.exporter.enqueue trace).events = [refusalEvent refused s.exporter.refusal])) ∧
    s.exporter.stats.droppedQueueFull = refused ∧
    (reports transport { exporter := e } ops).map Event.level =
      if refused = 0 then [] else .warn :: List.replicate (refused - 1) .debug := by
  intro s refused
  have hbounded := bounded_after h transport ops
  have hcapacity : s.exporter.limits.capacity = max 1 c.queueCapacity := by
    rw [hbounded.limits_eq]
    exact Nat.max_comm _ _
  have hqueue : s.exporter.queue.length ≤ s.exporter.limits.capacity := by
    rw [hbounded.limits_eq]
    exact hbounded.queue
  have hnew : e.stats.droppedQueueFull = 0 := by
    obtain rfl := eq_of_ofConfig? h
    rfl
  have hrefused : s.exporter.stats.droppedQueueFull = refused := by
    refine (@answers_after transport { exporter := e } ops).2.trans ?_
    show e.stats.droppedQueueFull + refused = refused
    rw [hnew, Nat.zero_add]
  refine ⟨hcapacity ▸ hqueue, fun hclosed op => closed_step (step_effect s op) hclosed,
    fun trace => ⟨?_, fun htold => ?_, fun htold => ?_⟩, hrefused, ?_⟩
  · rw [enqueue_refused_iff, ← hcapacity]
    exact or_congr_right ⟨fun hfull => Nat.le_antisymm hqueue hfull, fun hfull => hfull.ge⟩
  · refine ⟨?_, by rw [enqueue_events, if_pos htold]⟩
    rcases enqueue_value s.exporter trace with hvalue | hvalue
    · rw [hvalue]
    · rw [hvalue] at htold
      cases htold
  · refine ⟨?_, by rw [enqueue_events, htold, hrefused]; rfl⟩
    rcases enqueue_value s.exporter trace with hvalue | hvalue
    · rw [hvalue] at htold
      cases htold
    · rw [hvalue]
  · rw [levels_reports]
    show refusalLevels e.stats.droppedQueueFull refused = _
    rw [hnew]
    cases refused with
    | zero => rfl
    | succ refusals => rw [refusalLevels, refusalLevels_succ]; rfl

/-- A capacity of zero counts as one. The second trace finds the queue full, the third finds room as the worker
has received the first, and the fourth finds the queue closed. -/
theorem backpressure_exact_closed :
    let c := { Config.default with queueCapacity := 0 }
    let e := (Exporter.ofConfig? c).getD default
    let transport : Transport := ⟨fun _ => .accepted⟩
    let trace (n : Nat) := [SpanRecord.new (.ofNat n) (.ofNat 1) none "op" "svc" 0]
    let ops : List ExportOp := [.enqueue (trace 1), .enqueue (trace 2), .start, .work, .work,
      .enqueue (trace 3), .cancel, .work]
    let s := after transport e ops
    Exporter.ofConfig? c = some e ∧ answers transport { exporter := e } ops = [true, false, true] ∧
      s.exporter.closed = true ∧ (s.exporter.enqueue (trace 4)).value.1 = false ∧
      (s.exporter.enqueue (trace 4)).value.2.queue.map (·.map SpanRecord.traceId) = [[.ofNat 3]] ∧
      (s.exporter.enqueue (trace 4)).value.2.stats.droppedQueueFull = 2 ∧
      (s.exporter.enqueue (trace 4)).events =
        [⟨.debug, "TRACES | Dropping trace, exporter shut down", [], []⟩] ∧
      (reports transport { exporter := e } ops).map Event.level = [.warn] := by
  intro c e transport trace ops
  have he : Exporter.ofConfig? c = some e := rfl
  obtain ⟨hanswers, hclosed, hreason, hqueue⟩ :
      answers transport { exporter := e } ops = [true, false, true] ∧
        (after transport e ops).exporter.closed = true ∧
        (after transport e ops).exporter.refusal = "exporter shut down" ∧
        (after transport e ops).exporter.queue.map (·.map SpanRecord.traceId) = [[.ofNat 3]] := by
    decide +kernel
  obtain ⟨-, -, hnext, hdrops, hlevels⟩ := backpressure_exact he transport ops
  obtain ⟨hiff, -, hrefused⟩ := hnext (trace 4)
  have htold := hiff.mpr (.inl hclosed)
  obtain ⟨hvalue, hevents⟩ := hrefused htold
  rw [hanswers] at hdrops hlevels hevents
  rw [hreason] at hevents
  refine ⟨he, hanswers, hclosed, htold, ?_, ?_, hevents.trans (by decide +kernel), hlevels.trans (by decide)⟩
  · simp only [hvalue, hqueue]
  · simp only [hvalue, hdrops]
    decide

end ExportRun

end Tracing
