import Tracing.Proofs.Export.Drops
import Tracing.Proofs.Export.Flow

/-!
# The ledger of a run

The packer of an exporter has an account of the traces that it was given and the payloads that were taken
from it. `Booked` ties the books of an exporter to that account: what was taken has been tried or is about
to be, and each counter counts attempts or dropped spans. Every step of the worker keeps the books
(`booked_flow`), and so does every run (`ledger_after`).

A worker that is discarded takes the queue and the payload in its hands with it. Its books are kept as they
were before, so what they say of attempts, counters and the packer is true of every run.
-/

namespace Tracing

open Packer (Account Balanced balanced_add balanced_take)

/-! ### Books and accounts -/

/-- **The books tell what the packer's account says.** -/
structure Booked (maxBytes maxValueLength : Nat) (a : Account) (b : Books) : Prop where
  packer : a.packer = b.packer
  taken : a.taken = b.taken
  balanced : Balanced maxBytes maxValueLength a
  payloadsSent : b.payloadsSent = b.attempts.countP Attempt.isAccepted
  tracesSent : b.tracesSent =
    ((b.attempts.filter Attempt.isAccepted).map fun attempt => attempt.payload.traceCount).sum
  /-- A payload that is to be tried again has failed, but was not given up. -/
  exportFailures : b.exportFailures + b.retrying.toNat =
    (finals b.attempts).countP Attempt.isFailed + a.dropped.sum
  hanging : (finals b.attempts).countP Attempt.isUnanswered = b.hanging.toNat

variable {maxBytes maxValueLength : Nat} {a : Account} {b b' : Books}

theorem booked_tried (h : Booked maxBytes maxValueLength a b) {attempt : Attempt} {again : Bool}
    (turn : b.IsTurn attempt) (failed : again = true → attempt.isFailed = true) :
    Booked maxBytes maxValueLength a (b.tried attempt again) := by
  obtain ⟨earlier, repeated, hbefore, hafter, hretrying, -⟩ := Books.finals_tried turn
  refine ⟨h.packer, h.taken.trans (Books.taken_tried turn again).symm, h.balanced, ?_, ?_, ?_, ?_⟩
  · show _ = (b.attempts ++ [attempt]).countP Attempt.isAccepted
    rw [List.countP_append, List.countP_singleton, ← h.payloadsSent]
    rfl
  · show _ = (((b.attempts ++ [attempt]).filter Attempt.isAccepted).map
      fun attempt => attempt.payload.traceCount).sum
    rw [List.filter_append, List.map_append, List.sum_append, ← h.tracesSent]
    cases haccepted : attempt.isAccepted <;> simp [Books.tried, haccepted]
  · have hcount := h.exportFailures
    rw [hbefore, List.countP_append, hretrying] at hcount
    show b.exportFailures + (if attempt.isFailed && !again then 1 else 0) + again.toNat =
      (finals (b.attempts ++ [attempt])).countP Attempt.isFailed + a.dropped.sum
    rw [hafter, List.countP_append, List.countP_singleton]
    cases again with
    | false =>
      rw [Bool.not_false, Bool.and_true, Bool.toNat_false]
      omega
    | true =>
      rw [failed rfl]
      simp only [Bool.not_true, Bool.and_false, Bool.false_eq_true, if_false, if_true, Bool.toNat_true]
      omega
  · have hnone := h.hanging
    rw [turn.1, hbefore, List.countP_append, Bool.toNat_false, Nat.add_eq_zero_iff] at hnone
    show (finals (b.attempts ++ [attempt])).countP Attempt.isUnanswered = attempt.isUnanswered.toNat
    rw [hafter, List.countP_append, hnone.1, List.countP_singleton]
    cases attempt.isUnanswered <;> rfl

/-- **Every step of the worker keeps the books.** It receives the traces in the order of the queue. -/
theorem booked_flow (h : Booked maxBytes maxValueLength a b) (flow : Flow b b') :
    ∃ a', Booked maxBytes maxValueLength a' b' ∧ a'.added ++ b'.queue = a.added ++ b.queue := by
  cases flow with
  | unchanged => exact ⟨a, h, rfl⟩
  | packed trace rest queue =>
    refine ⟨a.record (.add trace), ⟨?_, h.taken, balanced_add h.balanced trace, h.payloadsSent,
      h.tracesSent, ?_, h.hanging⟩, ?_⟩
    · show (a.packer.add trace).value.2 = (b.packer.add trace).value.2
      rw [h.packer]
    · show b.exportFailures + (b.packer.add trace).value.1 + b.retrying.toNat =
        (finals b.attempts).countP Attempt.isFailed + (a.dropped ++ [(a.packer.add trace).value.1]).sum
      have hcount := h.exportFailures
      rw [h.packer, List.sum_append, List.sum_singleton]
      omega
    · show (a.added ++ [trace]) ++ rest = _
      rw [queue, List.append_assoc, List.singleton_append]
  | took payload packer fresh next =>
    have hrecord : a.record .take = { a with packer, taken := a.taken ++ [payload] } := by
      simp only [Account.record, h.packer, next]
    refine ⟨a.record .take, ⟨?_, ?_, balanced_take h.balanced, h.payloadsSent, h.tracesSent, ?_,
      h.hanging⟩, ?_⟩
    · rw [hrecord]
    · rw [hrecord, h.taken]
      unfold Books.taken
      rw [fresh]
      simp
    · rw [hrecord]
      exact h.exportFailures
    · rw [hrecord]
  | tried attempt again turn failed => exact ⟨a, booked_tried h turn failed, rfl⟩

/-! ### Runs -/

namespace ExportRun

open Exporter

variable {transport : Transport} {s : ExportRun}

/-- The accepted traces that the worker has taken out of the queue. -/
def received (s : ExportRun) : List (List SpanRecord) :=
  s.accepted.take (s.accepted.length - s.exporter.queue.length)

/-- **A run with the books of its exporter**, or those that it had when its worker was discarded. -/
structure Ledger (maxBytes maxValueLength : Nat) (s : ExportRun) (a : Account) (b : Books) : Prop where
  orderly : s.exporter.Orderly
  booked : Booked maxBytes maxValueLength a b
  accepted : s.accepted = a.added ++ b.queue
  attempts : b.attempts = s.exporter.attempts
  packer : b.packer = s.exporter.packer
  tracesSent : b.tracesSent = s.exporter.stats.tracesSent
  alive : s.exporter.phase ≠ .gone → b = s.exporter.books
  gone : s.exporter.phase = .gone → s.exporter.closed = true

/-- What is neither in the books nor tells whether the worker is gone does not matter. -/
theorem Ledger.frame (h : Ledger maxBytes maxValueLength s a b) {e : Exporter} (orderly : e.Orderly)
    (books : e.books = s.exporter.books) (phase : e.phase = .gone ↔ s.exporter.phase = .gone)
    (closed : s.exporter.closed = true → e.closed = true) :
    Ledger maxBytes maxValueLength { s with exporter := e } a b where
  orderly := orderly
  booked := h.booked
  accepted := h.accepted
  attempts := h.attempts.trans (congrArg Books.attempts books).symm
  packer := h.packer.trans (congrArg Books.packer books).symm
  tracesSent := h.tracesSent.trans (congrArg Books.tracesSent books).symm
  alive halive := (h.alive fun hgone => halive (phase.mpr hgone)).trans books.symm
  gone hgone := closed (h.gone (phase.mp hgone))

theorem Ledger.aside (h : Ledger maxBytes maxValueLength s a b) {e : Exporter}
    (books : e.books = s.exporter.books) (phase : e.phase = s.exporter.phase)
    (closed : e.closed = s.exporter.closed) : Ledger maxBytes maxValueLength { s with exporter := e } a b :=
  h.frame (h.orderly.frame phase (congrArg Books.attempts books) closed (congrArg Books.queue books)
    (congrArg Books.packer books)) books (by rw [phase]) (fun hclosed => closed.trans hclosed)

theorem Ledger.discard (h : Ledger maxBytes maxValueLength s a b) :
    Ledger maxBytes maxValueLength { s with exporter := s.exporter.discard } a b where
  orderly := orderly_of_phase rfl (by simp [Exporter.discard]) rfl
  booked := h.booked
  accepted := h.accepted
  attempts := h.attempts
  packer := h.packer
  tracesSent := h.tracesSent
  alive halive := absurd rfl halive
  gone _ := rfl

theorem Ledger.of_alive {e : Exporter} {accepted : List (List SpanRecord)} (orderly : e.Orderly)
    (booked : Booked maxBytes maxValueLength a e.books) (haccepted : accepted = a.added ++ e.queue)
    (alive : e.phase ≠ .gone) :
    Ledger maxBytes maxValueLength { exporter := e, accepted } a e.books :=
  ⟨orderly, booked, haccepted, rfl, rfl, rfl, fun _ => rfl, fun hgone => absurd hgone alive⟩

theorem ledger_work (h : Ledger maxBytes maxValueLength s a b) {e : Exporter}
    (effect : WorkEffect transport s.exporter e) :
    ∃ a' b', Ledger maxBytes maxValueLength { s with exporter := e } a' b' := by
  rcases work_alive effect with ⟨-, hdiscard⟩ | ⟨hbefore, hafter, -⟩
  · rw [hdiscard]
    exact ⟨a, b, h.discard⟩
  · obtain rfl := h.alive hbefore
    rcases work_flow h.orderly effect with hdiscard | hflow
    · exact absurd (by rw [hdiscard]; rfl) hafter
    · obtain ⟨a', hbooked, hadded⟩ := booked_flow h.booked hflow
      exact ⟨a', _, .of_alive (orderly_work h.orderly effect) hbooked (h.accepted.trans hadded.symm) hafter⟩

theorem ledger_accept (h : Ledger maxBytes maxValueLength s a b) (opened : s.exporter.closed = false)
    (trace : List SpanRecord) : ∃ b', Ledger maxBytes maxValueLength
      { exporter := { s.exporter with queue := s.exporter.queue ++ [trace] }, accepted := s.accepted ++ [trace] }
      a b' := by
  have hopen : ¬ s.exporter.closed = true := by
    rw [opened]
    exact Bool.false_ne_true
  have halive : s.exporter.phase ≠ .gone := fun hgone => hopen (h.gone hgone)
  obtain rfl := h.alive halive
  refine ⟨_, .of_alive ?_ ?_ ?_ halive⟩
  · exact ⟨h.orderly.retrying, h.orderly.draining, fun hclosing =>
      absurd (h.orderly.closing hclosing).1 hopen, h.orderly.stopped⟩
  · exact ⟨h.booked.packer, h.booked.taken, h.booked.balanced, h.booked.payloadsSent,
      h.booked.tracesSent, h.booked.exportFailures, h.booked.hanging⟩
  · rw [← List.append_assoc]
    exact congrArg (· ++ [trace]) h.accepted

theorem ledger_step {s' : ExportRun} {op : ExportOp} (effect : StepEffect transport s op s')
    (h : Ledger maxBytes maxValueLength s a b) : ∃ a b, Ledger maxBytes maxValueLength s' a b := by
  cases effect with
  | accepted trace _ opened => exact ⟨a, ledger_accept h opened trace⟩
  | worked next step => exact ledger_work h (work_effect step)
  | started phase =>
    exact ⟨a, b, h.frame (orderly_of_phase rfl (by simp) rfl)
      (books_congr (by rw [phase]; rfl) rfl rfl rfl rfl rfl) (by simp [phase]) id⟩
  | discarded => exact ⟨a, b, h.discard⟩
  | refused | aborting | rejected | released | cancelled | clocked => exact ⟨a, b, h.aside rfl rfl rfl⟩
  | unchanged => exact ⟨a, b, h⟩

theorem ledger_new {c : Config} {e : Exporter} (h : Exporter.ofConfig? c = some e) :
    ∃ a b, Ledger c.maxPayloadBytes c.maxValueLength { exporter := e } a b := by
  obtain rfl := eq_of_ofConfig? h
  exact ⟨{ packer := { maxBytes := c.maxPayloadBytes, maxValueLength := c.maxValueLength } }, _,
    .of_alive (orderly_of_phase rfl (by simp) rfl)
      ⟨rfl, rfl, ⟨rfl, rfl, rfl, rfl, rfl⟩, rfl, rfl, rfl, rfl⟩ rfl (by simp)⟩

/-- **Every run has its ledger.** -/
theorem ledger_after {c : Config} {e : Exporter} (h : Exporter.ofConfig? c = some e)
    (transport : Transport) (ops : List ExportOp) :
    ∃ a b, Ledger c.maxPayloadBytes c.maxValueLength (after transport e ops) a b := by
  refine after_induction (P := fun s => ∃ a b, Ledger c.maxPayloadBytes c.maxValueLength s a b)
    (ledger_new h) ?_ ops
  rintro s op ⟨a, b, hs⟩
  exact ledger_step (step_effect s op) hs

theorem Ledger.received_eq (h : Ledger maxBytes maxValueLength s a b) (alive : s.exporter.phase ≠ .gone) :
    s.received = a.added ∧ s.accepted = s.received ++ s.exporter.queue := by
  have haccepted : s.accepted = a.added ++ s.exporter.queue := by
    rw [h.accepted, h.alive alive]
    rfl
  have hreceived : s.received = a.added := by
    unfold received
    rw [haccepted, List.length_append, Nat.add_sub_cancel, List.take_left]
  exact ⟨hreceived, by rw [hreceived, haccepted]⟩

end ExportRun

end Tracing
