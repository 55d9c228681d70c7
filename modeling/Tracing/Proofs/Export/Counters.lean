import Tracing.Proofs.Export.Ledger

/-!
# The counters balance

Whoever looks at the counters while no payload is on its way finds every trace and every payload accounted
for: `counters_balance` says what each counter counts, and where each accepted trace is.

Two facts come on top of the ledger. A trace is refused exactly when its producer is told so
(`answers_after`), and only discarding the worker makes it disappear (`alive_after`).
-/

namespace Tracing

/-- Whether an operation discards the worker, now or when it gets to run. -/
def ExportOp.discards : ExportOp → Bool
  | abort | discardIdle => true
  | _ => false

namespace ExportRun

open Packer (packable encodings isTooLong packable_eq)

variable {transport : Transport} {s : ExportRun} {maxBytes maxValueLength : Nat} {a : Packer.Account} {b : Books}

/-! ### What producers are told -/

/-- What the producer of a trace is told. -/
def answer? (s : ExportRun) : ExportOp → Option Bool
  | .enqueue trace => some (s.exporter.enqueue trace).value.1
  | _ => none

/-- What producers are told during some operations: whether each trace was accepted. -/
def answers (transport : Transport) : ExportRun → List ExportOp → List Bool
  | _, [] => []
  | s, op :: ops => (s.answer? op).toList ++ answers transport (s.step transport op) ops

theorem answer_step {s' : ExportRun} {op : ExportOp} (effect : StepEffect transport s op s') :
    s'.accepted.length = s.accepted.length + (s.answer? op).toList.count true ∧
      s'.exporter.stats.droppedQueueFull =
        s.exporter.stats.droppedQueueFull + (s.answer? op).toList.count false := by
  cases effect with
  | accepted trace told =>
    rw [answer?, told]
    exact ⟨List.length_append, rfl⟩
  | refused trace told =>
    rw [answer?, told]
    exact ⟨rfl, rfl⟩
  | worked next step =>
    exact ⟨rfl, congrArg Prod.snd (Exporter.drops_work (Exporter.work_effect step))⟩
  | started | discarded | aborting | rejected | released | cancelled | clocked => exact ⟨rfl, rfl⟩
  | unchanged op silent =>
    have hnone : s.answer? op = none := by
      cases op with
      | enqueue trace => exact absurd rfl (silent trace)
      | _ => rfl
    rw [hnone]
    exact ⟨rfl, rfl⟩

/-- **Traces are accepted and refused as producers are told.** -/
theorem answers_after (s : ExportRun) (ops : List ExportOp) :
    (ops.foldl (step transport) s).accepted.length =
        s.accepted.length + (answers transport s ops).count true ∧
      (ops.foldl (step transport) s).exporter.stats.droppedQueueFull =
        s.exporter.stats.droppedQueueFull + (answers transport s ops).count false := by
  induction ops generalizing s with
  | nil => exact ⟨rfl, rfl⟩
  | cons op ops ih =>
    obtain ⟨haccepted, hrefused⟩ := ih (s.step transport op)
    obtain ⟨haccepted', hrefused'⟩ := answer_step (@step_effect transport s op)
    rw [List.foldl_cons, answers, List.count_append, List.count_append]
    omega

/-! ### Discarding -/

/-- Whether the worker is there, and will be. -/
def IsAlive (s : ExportRun) : Prop := s.exporter.aborting = false ∧ s.exporter.phase ≠ .gone

theorem alive_step (h : s.IsAlive) {s' : ExportRun} {op : ExportOp} (effect : StepEffect transport s op s')
    (hop : op.discards = false) : s'.IsAlive := by
  obtain ⟨haborting, halive⟩ := h
  cases effect with
  | discarded | aborting => cases hop
  | worked next step =>
    rcases Exporter.work_alive (Exporter.work_effect step) with ⟨hyes, -⟩ | ⟨-, hafter, hsame⟩
    · rw [haborting] at hyes
      cases hyes
    · exact ⟨hsame.trans haborting, hafter⟩
  | started => exact ⟨haborting, by simp⟩
  | accepted | refused | rejected | released | cancelled | clocked | unchanged => exact ⟨haborting, halive⟩

theorem alive_after {c : Config} {e : Exporter} (h : Exporter.ofConfig? c = some e) {ops : List ExportOp}
    (kept : ∀ op ∈ ops, op.discards = false) : (after transport e ops).exporter.phase ≠ .gone := by
  have hnew : IsAlive { exporter := e } := by
    obtain rfl := Exporter.eq_of_ofConfig? h
    exact ⟨rfl, by simp⟩
  have hall : (after transport e ops).IsAlive :=
    after_induction_of_mem hnew fun s op hop hs => alive_step hs (step_effect s op) (kept op hop)
  exact hall.2

/-! ### The balance -/

theorem sum_taken (booked : Booked maxBytes maxValueLength a b) (fresh : b.fresh = none)
    (hanging : b.hanging = false) : (a.taken.map Payload.traceCount).sum =
      ((b.attempts.filter Attempt.isAccepted).map fun x => x.payload.traceCount).sum +
        (((finals b.attempts).filter Attempt.isFailed).map fun x => x.payload.traceCount).sum := by
  have hanswered : (finals b.attempts).filter Attempt.isUnanswered = [] := by
    rw [← List.length_eq_zero_iff, ← List.countP_eq_length_filter, booked.hanging, hanging]
    rfl
  have htaken : b.taken = (finals b.attempts).map Attempt.payload := by
    unfold Books.taken
    rw [fresh]
    exact List.append_nil _
  rw [booked.taken, htaken, List.map_map]
  refine (sum_by_reply (fun x => x.payload.traceCount) _).trans ?_
  rw [filter_finals, hanswered]
  rfl

theorem length_accepted (h : Ledger maxBytes maxValueLength s a b) (alive : s.exporter.phase ≠ .gone)
    (idle : s.exporter.phase.inFlight = false) :
    s.accepted.length = s.exporter.queue.length + s.exporter.packer.pendingTraces +
      s.exporter.stats.tracesSent +
      (((finals s.exporter.attempts).filter Attempt.isFailed).map fun x => x.payload.traceCount).sum +
      s.received.countP fun trace => packable maxBytes maxValueLength trace = [] := by
  obtain rfl := h.alive alive
  obtain ⟨hreceived, haccepted⟩ := h.received_eq alive
  obtain ⟨hfresh, -, hhanging⟩ := Phase.of_not_inFlight idle
  have hends : s.exporter.stats.tracesSent +
      (((finals s.exporter.attempts).filter Attempt.isFailed).map fun x => x.payload.traceCount).sum +
      s.exporter.packer.pendingTraces =
      s.received.countP fun trace => packable maxBytes maxValueLength trace ≠ [] := by
    have htraces := h.booked.balanced.traces
    rw [sum_taken h.booked hfresh hhanging, ← h.booked.tracesSent, h.booked.packer, List.countP_map,
      ← hreceived] at htraces
    exact htraces
  have hlength := List.length_eq_countP_add_countP
    (fun trace => packable maxBytes maxValueLength trace = []) (l := s.received)
  simp only [decide_eq_true_eq, ← ne_eq] at hlength
  have hall : s.accepted.length = s.received.length + s.exporter.queue.length := by
    rw [← List.length_append, ← haccepted]
  omega

/-- **The counters balance at every moment.** In every run of an exporter that was made for a configuration
and whose worker is not discarded, with every transport, as long as no payload is on its way: the counters
count the payloads that were accepted and the traces that end in them, the payloads given up on (whose last
attempt failed) and the received spans that are too long, and the traces that producers were told are
refused. Every trace that was accepted is in the queue, pending in the packer, counted as sent, at its end
in a payload given up on, or was received with no span that could be exported. -/
theorem counters_balance {c : Config} {e : Exporter} (h : Exporter.ofConfig? c = some e)
    (transport : Transport) (ops : List ExportOp) (kept : ∀ op ∈ ops, op.discards = false) :
    let s := after transport e ops
    let accepted := s.exporter.attempts.filter Attempt.isAccepted
    let givenUp := (finals s.exporter.attempts).filter Attempt.isFailed
    let told := answers transport { exporter := e } ops
    s.exporter.phase.inFlight = false →
      s.exporter.stats.payloadsSent = accepted.length ∧
      s.exporter.stats.exportFailures = givenUp.length + (s.received.map fun trace =>
        (encodings c.maxValueLength trace).countP (isTooLong c.maxPayloadBytes)).sum ∧
      s.exporter.stats.droppedQueueFull = told.count false ∧
      s.exporter.stats.tracesSent = (accepted.map fun a => a.payload.traceCount).sum ∧
      told.count true = s.exporter.queue.length + s.exporter.packer.pendingTraces +
        s.exporter.stats.tracesSent + (givenUp.map fun a => a.payload.traceCount).sum +
        s.received.countP fun trace => packable c.maxPayloadBytes c.maxValueLength trace = [] := by
  intro s accepted givenUp told hidle
  obtain ⟨a, b, hledger⟩ := ledger_after h transport ops
  have halive : s.exporter.phase ≠ .gone := alive_after h kept
  obtain ⟨htold, hrefused⟩ := @answers_after transport { exporter := e } ops
  have htraces := length_accepted hledger halive hidle
  obtain rfl := hledger.alive halive
  have hretrying : s.exporter.books.retrying = false := by
    show s.exporter.phase.retry?.isSome = false
    rw [(Phase.of_not_inFlight hidle).2.1]
    rfl
  have hfailures := hledger.booked.exportFailures
  rw [hretrying, hledger.booked.balanced.dropped, List.countP_eq_length_filter] at hfailures
  obtain rfl := Exporter.eq_of_ofConfig? h
  refine ⟨?_, ?_, ?_, hledger.booked.tracesSent, ?_⟩
  · exact hledger.booked.payloadsSent.trans List.countP_eq_length_filter
  · rw [(hledger.received_eq halive).1]
    exact hfailures
  · exact hrefused.trans (Nat.zero_add _)
  · exact (Nat.zero_add _).symm.trans (htold.symm.trans htraces)

/-- Three accepted traces come to different ends: one is sent, one is too long for any payload, and one is
given up on after its second attempt. A fourth trace is refused. -/
theorem counters_balance_each_end :
    let c := { Config.default with queueCapacity := 3, sendRetries := 2, maxPayloadBytes := 143 }
    let e := (Exporter.ofConfig? c).getD default
    let transport : Transport := ⟨fun n => if n = 0 then .accepted else .failed (.transient "reset")⟩
    let trace (n : Nat) (name : String) := [SpanRecord.new (.ofNat n) (.ofNat 1) none name "svc" 0]
    let ops : List ExportOp := [.start, .enqueue (trace 1 "op"), .enqueue (trace 2 "operation"),
      .enqueue (trace 3 "op"), .enqueue (trace 4 "op"), .cancel]
      ++ List.replicate 10 .work ++ .clock 100 :: List.replicate 4 .work
    let s := after transport e ops
    let givenUp := (finals s.exporter.attempts).filter Attempt.isFailed
    let told := answers transport { exporter := e } ops
    Exporter.ofConfig? c = some e ∧ (∀ op ∈ ops, op.discards = false) ∧
      s.exporter.phase.inFlight = false ∧ s.exporter.attempts.length = 3 ∧
      s.exporter.stats = { droppedQueueFull := 1, exportFailures := 2, tracesSent := 1, payloadsSent := 1 } ∧
      told = [true, true, true, false] ∧
      told.count true = s.exporter.queue.length + s.exporter.packer.pendingTraces +
        s.exporter.stats.tracesSent + (givenUp.map fun a => a.payload.traceCount).sum +
        s.received.countP fun trace => packable c.maxPayloadBytes c.maxValueLength trace = [] := by
  intro c e transport trace ops
  have he : Exporter.ofConfig? c = some e := rfl
  have hkept : ∀ op ∈ ops, op.discards = false := by decide +kernel
  obtain ⟨hidle, hattempts, hstats, htold⟩ :
      (after transport e ops).exporter.phase.inFlight = false ∧
        (after transport e ops).exporter.attempts.length = 3 ∧
        (after transport e ops).exporter.stats =
          { droppedQueueFull := 1, exportFailures := 2, tracesSent := 1, payloadsSent := 1 } ∧
        answers transport { exporter := e } ops = [true, true, true, false] := by
    decide +kernel
  obtain ⟨-, -, -, -, htraces⟩ := counters_balance he transport ops hkept hidle
  exact ⟨he, hkept, hidle, hattempts, hstats, htold, htraces⟩

end ExportRun

end Tracing
