import Tracing.Proofs.Export.Ledger

/-!
# The backlog is bounded

Accepted traces wait in the queue, which has a capacity, and in the packer, which has none. What keeps the
packer from growing is the order of the worker: it receives one trace at a time, looks at the number pending
after each, and flushes until nothing is left before it receives again. Only after the queue was closed are
all traces left in it packed at once, but then no more are accepted (`Bounded`).

* `work_bounded`: no step of the worker exceeds the bounds;
* `backlog_bounded`: in every run, what is pending is what was not handed out in full, and it is bounded.
-/

namespace Tracing

open Packer (Owed owedCount spansOf packable packable_eq)

/-- Whether the worker receives traces one by one, or has yet to begin with that. -/
def Phase.isListening : Phase → Bool
  | idle | starting | waiting => true
  | _ => false

namespace Exporter

variable {transport : Transport} {e e' : Exporter} {limits : ExportLimits}

/-- **The bounds of an exporter.** -/
structure Bounded (limits : ExportLimits) (e : Exporter) : Prop where
  limits_eq : e.limits = limits
  queue : e.queue.length ≤ limits.capacity
  listening : e.phase.isListening = true → e.packer.pendingTraces < limits.threshold
  opened : e.closed = false → e.packer.pendingTraces ≤ limits.threshold
  total : e.queue.length + e.packer.pendingTraces ≤ limits.capacity + limits.threshold

theorem Bounded.frame (h : Bounded limits e) (limits_eq : e'.limits = e.limits) (queue : e'.queue = e.queue)
    (pending : e'.packer.pendingTraces ≤ e.packer.pendingTraces) (closed : e.closed = true → e'.closed = true)
    (phase : e'.phase.isListening = true → e.phase.isListening = true) : Bounded limits e' := by
  refine ⟨limits_eq.trans h.limits_eq, ?_, fun hlistening => ?_, fun hopen => ?_, ?_⟩
  · rw [queue]
    exact h.queue
  · exact Nat.lt_of_le_of_lt pending (h.listening (phase hlistening))
  · refine Nat.le_trans pending (h.opened ?_)
    rw [← Bool.not_eq_true] at hopen ⊢
    exact fun hclosed => hopen (closed hclosed)
  · rw [queue]
    exact Nat.le_trans (Nat.add_le_add_left pending _) h.total

/-- As long as not more is pending than triggers a flush, the total is within the bounds. -/
theorem bounded_of_pending (limits_eq : e.limits = limits) (queue : e.queue.length ≤ limits.capacity)
    (listening : e.phase.isListening = true → e.packer.pendingTraces < limits.threshold)
    (pending : e.packer.pendingTraces ≤ limits.threshold) : Bounded limits e :=
  ⟨limits_eq, queue, listening, fun _ => pending, Nat.add_le_add queue pending⟩

theorem Bounded.discard (h : Bounded limits e) : Bounded limits e.discard :=
  ⟨h.limits_eq, Nat.zero_le _, nofun, nofun,
    Nat.le_trans (Nat.add_le_add_right (Nat.zero_le _) _) h.total⟩

theorem pending_packed (e : Exporter) (trace : List SpanRecord) (rest : List (List SpanRecord)) :
    (e.packed trace rest).packer.pendingTraces ≤ e.packer.pendingTraces + 1 := by
  show (if (Packer.chunksOf e.packer.limit _).isEmpty then e.packer.pendingTraces
    else e.packer.pendingTraces + 1) ≤ _
  split <;> omega

/-- Nothing is pending in a packer with an empty queue. -/
def Tallied (e : Exporter) : Prop := e.packer.queue = [] → e.packer.pendingTraces = 0

theorem work_bounded (h : Bounded limits e) (positive : 0 < limits.threshold) (orderly : Orderly e)
    (tallied : e.Tallied) (effect : WorkEffect transport e e') : Bounded limits e' := by
  cases effect with
  | discarded => exact h.discard
  | began phase => exact h.frame rfl rfl le_rfl id fun _ => by rw [phase]; rfl
  | closed => exact h.frame rfl rfl le_rfl (fun _ => rfl) nofun
  | received trace rest phase _ queue below =>
    rw [h.limits_eq] at below
    refine bounded_of_pending h.limits_eq ?_ (fun _ => below) below.le
    have hqueue := h.queue
    rw [queue, List.length_cons] at hqueue
    exact Nat.le_of_succ_le hqueue
  | filled trace rest phase _ queue =>
    have hpending := pending_packed e trace rest
    have hlistening := h.listening (by rw [phase]; rfl)
    refine bounded_of_pending h.limits_eq ?_ nofun ?_
    · have hqueue := h.queue
      rw [queue, List.length_cons] at hqueue
      exact Nat.le_of_succ_le hqueue
    · exact hpending.trans hlistening
  | ticked => exact h.frame rfl rfl le_rfl id nofun
  | drained trace rest phase queue =>
    -- what leaves the queue becomes pending, but the queue is closed
    have hpending := pending_packed e trace rest
    have hqueue := h.queue
    have htotal := h.total
    have hphase : (e.packed trace rest).phase = .draining := phase
    rw [queue, List.length_cons] at hqueue htotal
    refine ⟨h.limits_eq, Nat.le_of_succ_le hqueue, fun hlistening => ?_, fun hopen => ?_, ?_⟩
    · rw [hphase] at hlistening
      cases hlistening
    · have hclosed : (e.packed trace rest).closed = true := orderly.draining phase
      rw [hclosed] at hopen
      cases hopen
    · show rest.length + (e.packed trace rest).packer.pendingTraces ≤ _
      omega
  | emptied => exact h.frame rfl rfl le_rfl id nofun
  | taken trigger payload packer phase next =>
    have hpending := (Packer.nextPayload_chunks next).2.1
    exact h.frame rfl rfl (hpending.le.trans (Nat.sub_le _ _)) id nofun
  | resumed trigger phase empty =>
    have hnone := tallied empty
    cases trigger with
    | threshold | tick =>
      exact bounded_of_pending h.limits_eq h.queue (fun _ => hnone.trans_lt positive)
        (hnone.le.trans (Nat.zero_le _))
    | closing => exact h.frame rfl rfl le_rfl id nofun
  | delivered | gaveUp | hung | backedOff | woke => exact h.frame rfl rfl le_rfl id nofun

/-- A flush ends with nothing left. -/
theorem flush_ends (tallied : e.Tallied) (effect : WorkEffect transport e e') {trigger : Trigger}
    (phase : e.phase = .flushing trigger) (ended : e'.phase = .waiting ∨ e'.phase = .stopped) :
    e'.packer.queue = [] ∧ e'.packer.pendingTraces = 0 := by
  cases effect with
  | resumed trigger _ empty => cases trigger <;> exact ⟨empty, tallied empty⟩
  | discarded | taken => simp [Exporter.discard] at ended
  | began phase' | closed phase' | ticked phase' | emptied phase' | received _ _ phase' | filled _ _ phase'
  | drained _ _ phase' | delivered _ _ _ _ phase' | gaveUp _ _ _ _ _ phase' | hung _ _ _ _ phase'
  | backedOff _ _ _ _ _ phase' | woke _ _ _ _ _ phase' =>
    rw [phase] at phase'
    cases phase'

end Exporter

/-! ### Runs -/

namespace ExportRun

open Exporter

variable {transport : Transport} {maxBytes maxValueLength : Nat} {s : ExportRun} {a : Packer.Account}
  {b : Books} {limits : ExportLimits}

theorem Ledger.tallied (h : Ledger maxBytes maxValueLength s a b) : s.exporter.Tallied := by
  intro hempty
  have hpending := h.booked.balanced.pending
  rw [h.booked.packer, h.packer, hempty] at hpending
  exact hpending

theorem bounded_step {s' : ExportRun} {op : ExportOp} (effect : StepEffect transport s op s')
    (positive : 0 < limits.threshold) (ledger : Ledger maxBytes maxValueLength s a b)
    (h : Bounded limits s.exporter) : Bounded limits s'.exporter := by
  cases effect with
  | accepted trace _ opened room =>
    rw [h.limits_eq] at room
    have hlength : (s.exporter.queue ++ [trace]).length ≤ limits.capacity := by
      rw [List.length_append]
      exact room
    exact bounded_of_pending h.limits_eq hlength h.listening (h.opened opened)
  | worked next step => exact work_bounded h positive ledger.orderly ledger.tallied (work_effect step)
  | started phase => exact h.frame rfl rfl le_rfl id fun _ => by rw [phase]; rfl
  | discarded => exact h.discard
  | refused | aborting | rejected | released | cancelled | clocked => exact h.frame rfl rfl le_rfl id id
  | unchanged => exact h

theorem bounded_new {c : Config} {e : Exporter} (h : Exporter.ofConfig? c = some e) :
    Bounded (.ofConfig c) e := by
  obtain rfl := eq_of_ofConfig? h
  have hpositive : 0 < (ExportLimits.ofConfig c).threshold := Nat.le_max_right _ _
  exact bounded_of_pending rfl (Nat.zero_le _) (fun _ => hpositive) (Nat.zero_le _)

theorem bounded_after {c : Config} {e : Exporter} (h : Exporter.ofConfig? c = some e)
    (transport : Transport) (ops : List ExportOp) :
    Bounded (.ofConfig c) (after transport e ops).exporter := by
  have hpositive : 0 < (ExportLimits.ofConfig c).threshold := Nat.le_max_right _ _
  refine And.right (after_induction (P := fun s =>
    (∃ a b, Ledger c.maxPayloadBytes c.maxValueLength s a b) ∧ Bounded (.ofConfig c) s.exporter) ?_ ?_ ops)
  · exact ⟨ledger_new h, bounded_new h⟩
  · rintro s op ⟨⟨a, b, ledger⟩, bounded⟩
    exact ⟨ledger_step (step_effect s op) ledger, bounded_step (step_effect s op) hpositive ledger bounded⟩

/-- **Pending is what was not handed out in full.** -/
theorem Ledger.pending (h : Ledger maxBytes maxValueLength s a b) (alive : s.exporter.phase ≠ .gone) :
    s.exporter.packer.pendingTraces = owedCount (s.received.map (encodable maxBytes maxValueLength))
      (sent s.exporter.attempts ++ s.exporter.phase.held).length := by
  obtain rfl := h.alive alive
  have hspans : spansOf (a.taken.flatMap Payload.chunks) =
      sent s.exporter.attempts ++ s.exporter.phase.held := by
    rw [h.booked.taken, Packer.spansOf_taken, ← List.flatMap_def, Phase.held_eq]
    unfold Books.taken sent
    rw [List.flatMap_append, handed_eq]
    rfl
  have hpackable : packable maxBytes maxValueLength = encodable maxBytes maxValueLength :=
    funext packable_eq
  have howed := Packer.countP_rest _ h.booked.balanced.chunks
  rw [← h.booked.balanced.pending, h.booked.packer, hspans, hpackable, ← (h.received_eq alive).1] at howed
  exact howed

/-- **The exporter never buffers without bound.** In every run of an exporter that was made for a
configuration, with every transport: while the worker waits, fewer traces are pending than trigger a flush;
a flush ends with nothing queued in the packer and nothing pending; and the traces in the queue and those
pending are together at most as many as the queue holds and trigger a flush. As long as the worker was not
discarded, the pending traces are the received ones whose last span was not handed out, and the other
accepted traces are in the queue. -/
theorem backlog_bounded {c : Config} {e : Exporter} (h : Exporter.ofConfig? c = some e)
    (transport : Transport) (ops : List ExportOp) :
    let s := after transport e ops
    let next := (s.step transport .work).exporter
    (s.exporter.phase = .waiting → s.exporter.packer.pendingTraces < max 1 c.flushThreshold) ∧
    (∀ trigger, s.exporter.phase = .flushing trigger → next.phase = .waiting ∨ next.phase = .stopped →
      next.packer.queue = [] ∧ next.packer.pendingTraces = 0) ∧
    s.exporter.queue.length + s.exporter.packer.pendingTraces ≤
      max 1 c.queueCapacity + max 1 c.flushThreshold ∧
    (s.exporter.phase ≠ .gone → s.accepted = s.received ++ s.exporter.queue ∧
      s.exporter.packer.pendingTraces =
        owedCount (s.received.map (encodable c.maxPayloadBytes c.maxValueLength))
          (sent s.exporter.attempts ++ s.exporter.phase.held).length) := by
  intro s next
  obtain ⟨a, b, hledger⟩ := ledger_after h transport ops
  have hbounded := bounded_after h transport ops
  have hthreshold : (ExportLimits.ofConfig c).threshold = max 1 c.flushThreshold := Nat.max_comm _ _
  have hcapacity : (ExportLimits.ofConfig c).capacity = max 1 c.queueCapacity := Nat.max_comm _ _
  refine ⟨fun hwaiting => ?_, fun trigger hflushing hended => ?_, ?_, fun halive => ?_⟩
  · rw [← hthreshold]
    exact hbounded.listening (by rw [hwaiting]; rfl)
  · cases hstep : s.exporter.step? transport with
    | none =>
      have hsame : next = s.exporter := congrArg ExportRun.exporter (step_work_of_none hstep)
      rw [hsame, hflushing] at hended
      rcases hended with hended | hended <;> cases hended
    | some result =>
      have hnext : next = result.value := congrArg ExportRun.exporter (step_work_of_some hstep)
      rw [hnext] at hended ⊢
      exact flush_ends hledger.tallied (work_effect hstep) hflushing hended
  · rw [← hthreshold, ← hcapacity]
    exact hbounded.total
  · exact ⟨(hledger.received_eq halive).2, hledger.pending halive⟩

/-- With room for one trace and a flush after each, one trace is in the queue while another one is about to
be flushed. -/
theorem backlog_bounded_full :
    let c := { Config.default with queueCapacity := 1, flushThreshold := 1 }
    let e := (Exporter.ofConfig? c).getD default
    let transport : Transport := ⟨fun _ => .accepted⟩
    let trace (n : Nat) := [SpanRecord.new (.ofNat n) (.ofNat 1) none "op" "svc" 0]
    let ops : List ExportOp :=
      [.start, .work, .enqueue (trace 1), .work, .enqueue (trace 2), .enqueue (trace 3)]
    let s := after transport e ops
    Exporter.ofConfig? c = some e ∧ s.exporter.phase = .flushing .threshold ∧ s.accepted.length = 2 ∧
      s.exporter.queue.length + s.exporter.packer.pendingTraces = 2 ∧
      s.exporter.queue.length + s.exporter.packer.pendingTraces ≤
        max 1 c.queueCapacity + max 1 c.flushThreshold := by
  intro c e transport trace ops
  have he : Exporter.ofConfig? c = some e := rfl
  obtain ⟨hphase, haccepted, htotal⟩ :
      (after transport e ops).exporter.phase = .flushing .threshold ∧
        (after transport e ops).accepted.length = 2 ∧
        (after transport e ops).exporter.queue.length +
          (after transport e ops).exporter.packer.pendingTraces = 2 := by
    decide +kernel
  exact ⟨he, hphase, haccepted, htotal, (backlog_bounded he transport ops).2.2.1⟩

end ExportRun

end Tracing
