import Tracing.Proofs.Export.Backlog

/-!
# How a payload is sent

A payload that the worker has taken is sent until it is accepted, rejected for good, or has failed as often as the
configuration allows. Between two attempts the worker waits, at first for 100 milliseconds and then twice as long
from time to time, up to 1600.

* `Underway` is what holds as long as the payload is on its way, `Settled` what holds when the worker is done with
  it; one step of the worker goes from one to the other (`advance_work`), and no other operation matters
  (`progress_step`);
* `untilSettled` follows a run until then, whatever else happens meanwhile, and `Punctual` says that the clock
  waits for the worker;
* `retry_policy`: how often, when and with what a payload is sent, and what is counted.
-/

namespace Tracing

/-! ### The policy -/

/-- The pause after an attempt, in milliseconds; the first attempt is number zero. -/
def retryPause (i : Nat) : Nat := min (100 * 2 ^ i) 1600

theorem retryPause_succ (i : Nat) : retryPause (i + 1) = min (retryPause i * 2) maxBackoff := by
  unfold retryPause maxBackoff
  rw [Nat.pow_succ]
  omega

/-- The number of attempts that a payload takes: up to the first reply that leaves nothing to be tried again, and at
most as many as there may be. -/
structure IsAttemptCount (retries : Nat) (reply : Nat → Reply) (k : Nat) : Prop where
  pos : 0 < k
  capped : k ≤ retries
  transient : ∀ i, i + 1 < k → (reply i).isTransient = true
  final : k < retries → (reply (k - 1)).isTransient = false

theorem exists_isAttemptCount {retries : Nat} (h : 0 < retries) (reply : Nat → Reply) :
    ∃ k, IsAttemptCount retries reply k := by
  by_cases hfinal : ∃ i, i + 1 < retries ∧ (reply i).isTransient = false
  · obtain ⟨hless, hreply⟩ := Nat.find_spec hfinal
    refine ⟨Nat.find hfinal + 1, Nat.succ_pos _, hless.le, fun i hi => ?_, fun _ => hreply⟩
    have hbefore := Nat.find_min hfinal (Nat.lt_of_succ_lt_succ hi)
    by_contra htransient
    exact hbefore ⟨by omega, by simpa using htransient⟩
  · refine ⟨retries, h, le_rfl, fun i hi => ?_, fun hless => absurd hless (Nat.lt_irrefl _)⟩
    by_contra htransient
    exact hfinal ⟨i, hi, by simpa using htransient⟩

theorem IsAttemptCount.lt {retries k n : Nat} {reply : Nat → Reply} (h : IsAttemptCount retries reply k)
    (more : n < retries) (transient : ∀ i < n, (reply i).isTransient = true) : n < k := by
  by_contra hless
  have hk : k ≤ n := Nat.not_lt.mp hless
  have hlast := transient (k - 1) (Nat.lt_of_lt_of_le (Nat.sub_one_lt h.pos.ne') hk)
  rw [h.final (hk.trans_lt more)] at hlast
  cases hlast

theorem IsAttemptCount.le {retries k k' : Nat} {reply : Nat → Reply} (h : IsAttemptCount retries reply k)
    (h' : IsAttemptCount retries reply k') : k ≤ k' := by
  have hpos := h.pos
  have hbefore : k - 1 < k' :=
    h'.lt (Nat.lt_of_lt_of_le (by omega) h.capped) fun i hi => h.transient i (by omega)
  omega

/-- The attempts at some times, the first of them after a number of others. -/
def tries (transport : Transport) (payload : Payload) (before : Nat) (times : List Nat) : List Attempt :=
  times.mapIdx fun i time => { time, payload, failed := i, reply := transport.reply (before + i) }

/-- The moment from which on the next attempt is due. -/
def dueAfter (start : Nat) (times : List Nat) : Nat :=
  match times.getLast? with
  | none => start
  | some last => last + retryPause (times.length - 1)

/-- Attempts at the first moment and then after each pause. -/
structure OnSchedule (start : Nat) (times : List Nat) : Prop where
  first : ∀ time, times[0]? = some time → time = start
  pauses : ∀ i time later, times[i]? = some time → times[i + 1]? = some later →
    later = time + min (100 * 2 ^ i) 1600

theorem dueAfter_concat (start : Nat) (times : List Nat) (time : Nat) :
    dueAfter start (times ++ [time]) = time + retryPause times.length := by
  unfold dueAfter
  rw [List.getLast?_concat, List.length_append, List.length_singleton, Nat.add_sub_cancel]

theorem OnSchedule.concat {start : Nat} {times : List Nat} (h : OnSchedule start times) :
    OnSchedule start (times ++ [dueAfter start times]) := by
  rcases List.eq_nil_or_concat times with rfl | ⟨front, last, rfl⟩
  · refine ⟨fun time htime => ?_, fun i time later _ hlater => ?_⟩
    · exact (Option.some.inj htime).symm
    · cases hlater
  · rw [List.concat_eq_append] at h ⊢
    rw [dueAfter_concat]
    refine ⟨fun time htime => h.first time ?_, fun i time later htime hlater => ?_⟩
    · exact (List.getElem?_append_left (by simp)).symm.trans htime
    · have hi : i + 1 < (front ++ [last] ++ [last + retryPause front.length]).length :=
        (List.getElem?_eq_some_iff.mp hlater).1
      simp only [List.length_append, List.length_singleton] at hi
      rw [List.getElem?_append_left (by simp; omega)] at htime
      by_cases hlast : i = front.length
      · subst hlast
        have hlength : (front ++ [last]).length = front.length + 1 := by simp
        rw [List.getElem?_concat_length] at htime
        rw [← hlength, List.getElem?_concat_length] at hlater
        rw [← Option.some.inj htime]
        exact (Option.some.inj hlater).symm
      · rw [List.getElem?_append_left (by simp; omega)] at hlater
        exact h.pauses i time later htime hlater

/-- What was counted of payloads between two moments. -/
structure Stats.Counted (before after : Stats) (payloads traces failures : Nat) : Prop where
  payloads : after.payloadsSent = before.payloadsSent + payloads
  traces : after.tracesSent = before.tracesSent + traces
  failures : after.exportFailures = before.exportFailures + failures

/-! ### A payload on its way -/

open Exporter

/-- The worker is about to send a payload for the first time. -/
structure Begins (c : Config) (trigger : Trigger) (payload : Payload) (e : Exporter) : Prop where
  limits : e.limits = .ofConfig c
  aborting : e.aborting = false
  phase : e.phase = .sending trigger payload 0 firstBackoff

section Underway

variable (transport : Transport) (trigger : Trigger) (payload : Payload) (start : Exporter)

/-- **The payload is on its way**: all attempts so far are to be repeated, and nothing was counted. The worker
pauses, or it is about to make the next attempt. -/
structure Underway (pausing : Bool) (times : List Nat) (e : Exporter) : Prop where
  aborting : e.aborting = false
  limits : e.limits = start.limits
  attempts : e.attempts = start.attempts ++ tries transport payload start.attempts.length times
  counted : start.stats.Counted e.stats 0 0 0
  transient : ∀ i < times.length, (transport.reply (start.attempts.length + i)).isTransient = true
  more : times.length < start.limits.retries
  tried : pausing = true → times ≠ []
  phase : e.phase =
    if pausing then
      .pausing trigger payload times.length (retryPause times.length) (dueAfter start.now times)
    else .sending trigger payload times.length (retryPause times.length)

/-- **The worker is done with the payload**: the last attempt was made now, and its reply was counted. -/
structure Settled (times : List Nat) (e : Exporter) : Prop where
  phase : e.phase = .flushing trigger
  attempts : e.attempts = start.attempts ++ tries transport payload start.attempts.length times
  now : times.getLast? = some e.now
  count : IsAttemptCount start.limits.retries (fun i => transport.reply (start.attempts.length + i)) times.length
  counted : if transport.reply (start.attempts.length + (times.length - 1)) = .accepted
    then start.stats.Counted e.stats 1 payload.traceCount 0
    else start.stats.Counted e.stats 0 0 1

/-- What one step of the worker does to a payload on its way. -/
inductive Advance (pausing : Bool) (times : List Nat) (e e' : Exporter) : Prop where
  | woke (paused : pausing = true) (due : dueAfter start.now times ≤ e.now) (now : e'.now = e.now)
      (underway : Underway transport trigger payload start false times e')
  | failed (sending : pausing = false) (now : e'.now = e.now)
      (underway : Underway transport trigger payload start true (times ++ [e.now]) e')
  | settled (sending : pausing = false) (settled : Settled transport trigger payload start (times ++ [e.now]) e')

/-- **What one operation does to a payload on its way.** -/
inductive Progress (pausing : Bool) (times : List Nat) (e : Exporter) : ExportOp → Exporter → Prop where
  | kept (op : ExportOp) (e' : Exporter) (now : e'.now = e.now)
      (underway : Underway transport trigger payload start pausing times e') : Progress pausing times e op e'
  | clocked (now : Nat) (e' : Exporter) (shown : e'.now = now)
      (underway : Underway transport trigger payload start pausing times e') :
      Progress pausing times e (.clock now) e'
  | advanced (e' : Exporter) (advance : Advance transport trigger payload start pausing times e e') :
      Progress pausing times e .work e'

end Underway

section Progress

variable {transport : Transport} {trigger : Trigger} {payload : Payload} {start e e' : Exporter} {pausing : Bool}
  {times : List Nat}

theorem tries_concat (before : Nat) (time : Nat) : tries transport payload before (times ++ [time]) =
    tries transport payload before times ++
      [{ time, payload, failed := times.length, reply := transport.reply (before + times.length) }] :=
  List.mapIdx_concat

namespace Underway

theorem length_attempts (h : Underway transport trigger payload start pausing times e) :
    e.attempts.length = start.attempts.length + times.length := by
  rw [h.attempts, List.length_append, tries, List.length_mapIdx]

theorem inFlight (h : Underway transport trigger payload start pausing times e) : e.phase.inFlight = true := by
  rw [h.phase]
  cases pausing <;> rfl

theorem frame (h : Underway transport trigger payload start pausing times e) (aborting : e'.aborting = e.aborting)
    (limits : e'.limits = e.limits) (attempts : e'.attempts = e.attempts) (phase : e'.phase = e.phase)
    (counted : e.stats.Counted e'.stats 0 0 0) : Underway transport trigger payload start pausing times e' := by
  refine ⟨aborting.trans h.aborting, limits.trans h.limits, attempts.trans h.attempts, ?_, h.transient, h.more,
    h.tried, phase.trans h.phase⟩
  exact ⟨counted.payloads.trans h.counted.payloads, counted.traces.trans h.counted.traces,
    counted.failures.trans h.counted.failures⟩

theorem sending (h : Underway transport trigger payload start pausing times e) {trigger' : Trigger}
    {payload' : Payload} {failed backoff : Nat} (phase : e.phase = .sending trigger' payload' failed backoff) :
    pausing = false ∧ trigger' = trigger ∧ payload' = payload ∧ failed = times.length ∧
      backoff = retryPause times.length := by
  rw [h.phase] at phase
  cases pausing with
  | true => cases phase
  | false =>
    cases phase
    exact ⟨rfl, rfl, rfl, rfl, rfl⟩

theorem wake?_of_pausing (h : Underway transport trigger payload start true times e) :
    e.wake? = some (dueAfter start.now times) := by
  unfold wake?
  rw [h.phase]
  rfl

/-- A worker that waits does so since the last attempt. -/
theorem wake_eq (h : Underway transport trigger payload start pausing times e) :
    ∀ wake ∈ e.wake?, ∃ last ∈ times.getLast?, wake = last + retryPause (times.length - 1) := by
  intro wake hwake
  cases pausing with
  | false =>
    unfold wake? at hwake
    rw [h.phase] at hwake
    cases hwake
  | true =>
    rw [h.wake?_of_pausing] at hwake
    obtain rfl := Option.some.inj hwake
    have hlast := List.getLast?_eq_some_getLast (h.tried rfl)
    refine ⟨_, hlast, ?_⟩
    unfold dueAfter
    rw [hlast]

theorem step?_of_sending (h : Underway transport trigger payload start false times e) :
    ∃ next, e.step? transport = some next := by
  unfold step?
  rw [h.aborting, h.phase]
  exact ⟨_, rfl⟩

/-- A worker that pauses goes on when the next attempt is due, and not before. -/
theorem step?_of_pausing (h : Underway transport trigger payload start true times e) :
    if dueAfter start.now times ≤ e.now then ∃ next, e.step? transport = some next else e.step? transport = none := by
  unfold step?
  rw [h.aborting, h.phase]
  split
  · next hdue => exact ⟨_, if_pos hdue⟩
  · next hdue => exact if_neg hdue

theorem of_begins {c : Config} (begins : Begins c trigger payload e) :
    Underway transport trigger payload e false [] e := by
  have hpos : 0 < e.limits.retries := by
    rw [begins.limits]
    exact Nat.le_max_right _ _
  exact ⟨begins.aborting, rfl, (List.append_nil _).symm, ⟨rfl, rfl, rfl⟩, nofun, hpos, nofun, begins.phase⟩

theorem settle (h : Underway transport trigger payload start pausing times e) {reply : Reply}
    (hreply : transport.reply e.attempts.length = reply)
    (last : reply.isTransient = false ∨ start.limits.retries ≤ times.length + 1) (phase : e'.phase = .flushing trigger)
    (attempts : e'.attempts = e.attempts ++ [{ time := e.now, payload, failed := times.length, reply }])
    (now : e'.now = e.now)
    (counted : if reply = .accepted then start.stats.Counted e'.stats 1 payload.traceCount 0
      else start.stats.Counted e'.stats 0 0 1) :
    Settled transport trigger payload start (times ++ [e.now]) e' := by
  have hlength : (times ++ [e.now]).length = times.length + 1 := by simp
  rw [h.length_attempts] at hreply
  refine ⟨phase, ?_, ?_, ?_, ?_⟩
  · rw [attempts, h.attempts, tries_concat, hreply, List.append_assoc]
  · rw [List.getLast?_concat, now]
  · rw [hlength]
    refine ⟨Nat.succ_pos _, h.more, fun i hi => h.transient i (Nat.lt_of_succ_lt_succ hi), fun hless => ?_⟩
    rw [Nat.add_sub_cancel, hreply]
    exact last.resolve_right (Nat.not_le.mpr hless)
  · rw [hlength, Nat.add_sub_cancel, hreply]
    exact counted

end Underway

/-- **One step of the worker** makes an attempt, or ends a pause. -/
theorem advance_work (h : Underway transport trigger payload start pausing times e)
    (effect : WorkEffect transport e e')
    (answered : transport.reply (start.attempts.length + times.length) ≠ .silence) :
    Advance transport trigger payload start pausing times e e' := by
  have hcounted := h.counted
  have hphase := h.phase
  cases effect with
  | discarded aborting =>
    rw [h.aborting] at aborting
    cases aborting
  | delivered _ _ _ _ phase reply =>
    obtain ⟨rfl, rfl, rfl, rfl, rfl⟩ := h.sending phase
    refine .settled rfl (h.settle reply (.inl rfl) rfl rfl rfl ?_)
    rw [if_pos rfl]
    exact ⟨congrArg (· + 1) hcounted.payloads, congrArg (· + Payload.traceCount _) hcounted.traces, hcounted.failures⟩
  | hung _ _ _ _ _ reply =>
    rw [h.length_attempts] at reply
    exact absurd reply answered
  | gaveUp _ _ _ _ failure phase reply last =>
    obtain ⟨rfl, rfl, rfl, rfl, rfl⟩ := h.sending phase
    refine .settled rfl (h.settle reply ?_ rfl rfl rfl ?_)
    · rw [h.limits] at last
      exact last.imp_left fun hpermanent => by simp [Reply.isTransient, hpermanent]
    · rw [if_neg (by simp)]
      exact ⟨hcounted.payloads, hcounted.traces, congrArg (· + 1) hcounted.failures⟩
  | backedOff _ _ _ _ failure phase reply transient more =>
    obtain ⟨rfl, rfl, rfl, rfl, rfl⟩ := h.sending phase
    rw [h.length_attempts] at reply
    rw [h.limits] at more
    have hlength : (times ++ [e.now]).length = times.length + 1 := by simp
    refine .failed rfl rfl ⟨h.aborting, h.limits, ?_, hcounted, ?_, hlength.trans_lt more, by simp, ?_⟩
    · rw [tries_concat, reply, ← List.append_assoc, ← h.attempts]
      rfl
    · rw [hlength]
      intro i hi
      rcases Nat.lt_succ_iff_lt_or_eq.mp hi with hi | rfl
      · exact h.transient i hi
      · rw [reply]
        simp [Reply.isTransient, transient]
    · rw [dueAfter_concat, hlength, retryPause_succ]
      rfl
  | woke _ _ _ _ wake phase due =>
    cases pausing with
    | false =>
      rw [hphase] at phase
      cases phase
    | true =>
      rw [hphase] at phase
      cases phase
      exact .woke rfl due rfl
        ⟨h.aborting, h.limits, h.attempts, hcounted, h.transient, h.more, (absurd · Bool.false_ne_true), rfl⟩
  | began phase | closed phase | received _ _ phase | filled _ _ phase | ticked phase | drained _ _ phase
  | emptied phase | taken _ _ _ phase | resumed _ phase =>
    rw [hphase] at phase
    cases pausing <;> cases phase

end Progress

/-! ### Runs -/

namespace ExportRun

variable {transport : Transport} {trigger : Trigger} {payload : Payload} {start : Exporter} {pausing : Bool}
  {times : List Nat} {s s' : ExportRun}

/-- Follows a run for as long as a payload is on its way. -/
def untilSettled (transport : Transport) : ExportRun → List ExportOp → ExportRun
  | s, [] => s
  | s, op :: ops =>
    if s.exporter.phase.inFlight then untilSettled transport (s.step transport op) ops else s

/-- The clock waits for the worker while a payload is on its way: it moves only if the worker cannot go on without
it, and not beyond the moment that the worker waits for. -/
def Punctual (transport : Transport) : ExportRun → List ExportOp → Prop
  | _, [] => True
  | s, op :: ops => s.exporter.phase.inFlight = true →
    (∀ now, op = .clock now → s.exporter.step? transport = none ∧ ∀ wake ∈ s.exporter.wake?, now ≤ wake) ∧
      Punctual transport (s.step transport op) ops

/-- **Every operation on a payload on its way is one of the list**, unless the worker is to be discarded. -/
theorem progress_step (h : Underway transport trigger payload start pausing times s.exporter) {op : ExportOp}
    (kept : op ≠ .abort) (answered : transport.reply (start.attempts.length + times.length) ≠ .silence)
    (effect : StepEffect transport s op s') :
    Progress transport trigger payload start pausing times s.exporter op s'.exporter := by
  have idle : s.exporter.phase ≠ .idle := by
    intro hidle
    have hflight := h.inFlight
    rw [hidle] at hflight
    cases hflight
  cases effect with
  | worked next step => exact .advanced _ (advance_work h (work_effect step) answered)
  | started phase | discarded phase => exact absurd phase idle
  | aborting => exact absurd rfl kept
  | clocked now => exact .clocked now _ rfl (h.frame rfl rfl rfl rfl ⟨rfl, rfl, rfl⟩)
  | accepted | refused | rejected | released | cancelled =>
    exact .kept _ _ rfl (h.frame rfl rfl rfl rfl ⟨rfl, rfl, rfl⟩)
  | unchanged => exact .kept _ _ rfl h

/-- What the clock shows while a payload is on its way, if it waits for the worker. -/
structure Timely (start : Nat) (pausing : Bool) (times : List Nat) (now : Nat) : Prop where
  onSchedule : OnSchedule start times
  now_le : now ≤ dueAfter start times
  sending : pausing = false → now = dueAfter start times

theorem untilSettled_of_settled (h : s.exporter.phase.inFlight = false) (ops : List ExportOp) :
    untilSettled transport s ops = s := by
  cases ops with
  | nil => rfl
  | cons op ops =>
    rw [untilSettled, h]
    exact if_neg Bool.false_ne_true

/-- **A run with a payload on its way** goes on with it or settles it. -/
theorem untilSettled_spec (h : Underway transport trigger payload start pausing times s.exporter)
    (answered : ∀ i < start.limits.retries, transport.reply (start.attempts.length + i) ≠ .silence)
    {during : List ExportOp} (kept : ∀ op ∈ during, op ≠ .abort) :
    ∃ later, ((∃ pausing', Underway transport trigger payload start pausing' later
          (untilSettled transport s during).exporter) ∨
        Settled transport trigger payload start later (untilSettled transport s during).exporter) ∧
      (Timely start.now pausing times s.exporter.now → Punctual transport s during → OnSchedule start.now later) := by
  induction during generalizing s pausing times with
  | nil => exact ⟨times, .inl ⟨pausing, h⟩, fun timely _ => timely.onSchedule⟩
  | cons op ops ih =>
    obtain ⟨hop, hops⟩ := List.forall_mem_cons.mp kept
    have hflight := h.inFlight
    have hprogress := progress_step h hop (answered _ h.more) (@step_effect transport s op)
    rw [untilSettled, if_pos hflight]
    cases hprogress with
    | kept _ _ hnow hunderway =>
      obtain ⟨later, hlater, htimes⟩ := ih hunderway hops
      refine ⟨later, hlater, fun timely punctual => htimes ?_ (punctual hflight).2⟩
      rwa [hnow]
    | clocked now _ hshown hunderway =>
      obtain ⟨later, hlater, htimes⟩ := ih hunderway hops
      refine ⟨later, hlater, fun timely punctual => htimes ?_ (punctual hflight).2⟩
      obtain ⟨hblocked, hwake⟩ := (punctual hflight).1 now rfl
      rw [hshown]
      cases pausing with
      | false =>
        obtain ⟨next, hnext⟩ := @Underway.step?_of_sending transport _ _ _ _ _ h
        rw [hblocked] at hnext
        cases hnext
      | true => exact ⟨timely.onSchedule, hwake _ h.wake?_of_pausing, nofun⟩
    | advanced _ advance =>
      cases advance with
      | woke _ hdue hnow hunderway =>
        obtain ⟨later, hlater, htimes⟩ := ih hunderway hops
        refine ⟨later, hlater, fun timely punctual => htimes ?_ (punctual hflight).2⟩
        rw [hnow]
        exact ⟨timely.onSchedule, timely.now_le, fun _ => Nat.le_antisymm timely.now_le hdue⟩
      | failed hsending hnow hunderway =>
        obtain ⟨later, hlater, htimes⟩ := ih hunderway hops
        refine ⟨later, hlater, fun timely punctual => htimes ?_ (punctual hflight).2⟩
        rw [hnow]
        refine ⟨?_, ?_, nofun⟩
        · rw [timely.sending hsending]
          exact timely.onSchedule.concat
        · rw [dueAfter_concat]
          exact Nat.le_add_right _ _
      | settled hsending hsettled =>
        have hdone : (s.step transport .work).exporter.phase.inFlight = false := by
          rw [hsettled.phase]
          rfl
        rw [untilSettled_of_settled hdone]
        refine ⟨_, .inr hsettled, fun timely _ => ?_⟩
        rw [timely.sending hsending]
        exact timely.onSchedule.concat

/-! ### Coming to an end -/

theorem untilSettled_append (s : ExportRun) (ops more : List ExportOp) :
    untilSettled transport s (ops ++ more) = untilSettled transport (untilSettled transport s ops) more := by
  induction ops generalizing s with
  | nil => rfl
  | cons op ops ih =>
    cases hflight : s.exporter.phase.inFlight with
    | true =>
      rw [List.cons_append, untilSettled, untilSettled, if_pos hflight, if_pos hflight]
      exact ih _
    | false => simp only [untilSettled_of_settled hflight]

theorem punctual_append {ops more : List ExportOp} (h : Punctual transport s ops)
    (hmore : Punctual transport (untilSettled transport s ops) more) : Punctual transport s (ops ++ more) := by
  induction ops generalizing s with
  | nil => exact hmore
  | cons op ops ih =>
    intro hflight
    rw [untilSettled, if_pos hflight] at hmore
    exact ⟨(h hflight).1, ih (h hflight).2 hmore⟩

/-- The worker and the clock alone lead from one run to another, and the clock waits for the worker. -/
def Attends (transport : Transport) (s s' : ExportRun) : Prop :=
  ∃ ops : List ExportOp, (∀ op ∈ ops, op = .work ∨ ∃ now, op = .clock now) ∧ Punctual transport s ops ∧
    untilSettled transport s ops = s'

namespace Attends

theorem refl (s : ExportRun) : Attends transport s s := ⟨[], nofun, trivial, rfl⟩

theorem trans {s₁ s₂ s₃ : ExportRun} (h₁ : Attends transport s₁ s₂) (h₂ : Attends transport s₂ s₃) :
    Attends transport s₁ s₃ := by
  obtain ⟨ops₁, only₁, punctual₁, rfl⟩ := h₁
  obtain ⟨ops₂, only₂, punctual₂, rfl⟩ := h₂
  exact ⟨ops₁ ++ ops₂, List.forall_mem_append.mpr ⟨only₁, only₂⟩, punctual_append punctual₁ punctual₂,
    untilSettled_append _ _ _⟩

theorem work (h : s.exporter.phase.inFlight = true) : Attends transport s (s.step transport .work) := by
  refine ⟨[.work], by simp, fun _ => ⟨nofun, trivial⟩, ?_⟩
  rw [untilSettled, if_pos h]
  rfl

theorem clock (h : s.exporter.phase.inFlight = true) (hblocked : s.exporter.step? transport = none) {wake : Nat}
    (hwake : s.exporter.wake? = some wake) : Attends transport s (s.step transport (.clock wake)) := by
  refine ⟨[.clock wake], by simp, fun _ => ⟨?_, trivial⟩, ?_⟩
  · intro now hnow
    cases hnow
    exact ⟨hblocked, fun wake' hwake' => (Option.some.inj (hwake.symm.trans hwake')).le⟩
  · rw [untilSettled, if_pos h]
    rfl

end Attends

theorem advance_step (h : Underway transport trigger payload start pausing times s.exporter) {next : Logged Exporter}
    (hnext : s.exporter.step? transport = some next)
    (answered : transport.reply (start.attempts.length + times.length) ≠ .silence) :
    Advance transport trigger payload start pausing times s.exporter (s.step transport .work).exporter := by
  rw [step_work_of_some hnext]
  exact advance_work h (work_effect hnext) answered

/-- Every pause comes to an end. -/
theorem exists_woke (h : Underway transport trigger payload start true times s.exporter)
    (answered : transport.reply (start.attempts.length + times.length) ≠ .silence) :
    ∃ s', Attends transport s s' ∧ Underway transport trigger payload start false times s'.exporter := by
  have due : ∀ s : ExportRun, Underway transport trigger payload start true times s.exporter →
      dueAfter start.now times ≤ s.exporter.now →
      Underway transport trigger payload start false times (s.step transport .work).exporter := by
    intro s h hdue
    have hstep := @Underway.step?_of_pausing transport _ _ _ _ _ h
    rw [if_pos hdue] at hstep
    obtain ⟨next, hnext⟩ := hstep
    cases advance_step h hnext answered with
    | woke _ _ _ hunderway => exact hunderway
    | failed hsending | settled hsending => cases hsending
  by_cases hdue : dueAfter start.now times ≤ s.exporter.now
  · exact ⟨_, .work h.inFlight, due s h hdue⟩
  · have hblocked := @Underway.step?_of_pausing transport _ _ _ _ _ h
    rw [if_neg hdue] at hblocked
    have hlater : Underway transport trigger payload start true times
        (s.step transport (.clock (dueAfter start.now times))).exporter :=
      h.frame rfl rfl rfl rfl ⟨rfl, rfl, rfl⟩
    exact ⟨_, (Attends.clock h.inFlight hblocked h.wake?_of_pausing).trans (.work hlater.inFlight),
      due _ hlater le_rfl⟩

/-- **The worker gets done with every payload**, if it has its turns and the clock goes on. -/
theorem exists_settled (h : Underway transport trigger payload start pausing times s.exporter)
    (answered : ∀ i < start.limits.retries, transport.reply (start.attempts.length + i) ≠ .silence) :
    ∃ s', Attends transport s s' ∧ s'.exporter.phase.inFlight = false := by
  -- the attempts that are left bound the pauses
  induction hleft : start.limits.retries - times.length generalizing s pausing times with
  | zero =>
    have hmore := h.more
    omega
  | succ left ih =>
    have sending : ∀ s : ExportRun, Underway transport trigger payload start false times s.exporter →
        ∃ s', Attends transport s s' ∧ s'.exporter.phase.inFlight = false := by
      intro s h
      obtain ⟨next, hnext⟩ := @Underway.step?_of_sending transport _ _ _ _ _ h
      cases advance_step h hnext (answered _ h.more) with
      | woke hpaused => cases hpaused
      | failed _ _ hunderway =>
        obtain ⟨s', hattends, hdone⟩ := ih hunderway (by rw [List.length_append, List.length_singleton]; omega)
        exact ⟨s', (Attends.work h.inFlight).trans hattends, hdone⟩
      | settled _ hsettled => exact ⟨_, .work h.inFlight, by rw [hsettled.phase]; rfl⟩
    cases pausing with
    | false => exact sending s h
    | true =>
      obtain ⟨s', hattends, hwoke⟩ := exists_woke h (answered _ h.more)
      obtain ⟨s'', hattends', hdone⟩ := sending s' hwoke
      exact ⟨s'', hattends.trans hattends', hdone⟩

/-! ### The policy holds -/

/-- A payload begins to be sent when the worker takes it. -/
theorem begins_of_taken {c : Config} {e : Exporter} (h : ofConfig? c = some e) (transport : Transport)
    (ops : List ExportOp) {packer : Packer} (kept : (after transport e ops).exporter.aborting = false)
    (flushing : (after transport e ops).exporter.phase = .flushing trigger)
    (next : (after transport e ops).exporter.packer.nextPayload = some (payload, packer)) :
    Begins c trigger payload ((after transport e ops).step transport .work).exporter := by
  have hstep : (after transport e ops).exporter.step? transport = some (pure
      { (after transport e ops).exporter with packer, phase := .sending trigger payload 0 firstBackoff }) := by
    unfold step?
    rw [if_neg (by rw [kept]; decide), flushing]
    show some (flush _ _) = _
    unfold flush
    rw [next]
  rw [step_work_of_some hstep]
  exact ⟨(bounded_after h transport ops).limits_eq, kept, rfl⟩

/-- **The retry policy.** Let the worker begin to send a payload, whichever it is, under any configuration, and let
the transport answer every attempt. There is a number of attempts that the payload takes: up to the first reply that
is no transient failure, at most the configured number, and at least one. Whatever happens meanwhile, as long as the
worker is not discarded:

* the attempts made are all with this payload and follow each other immediately, with the failures so far;
* as long as the payload is on its way, they are fewer than it takes, nothing is counted, and the worker waits, if
  it does, for 100 milliseconds after the first attempt, then twice as long after each, but no longer than 1600;
* when the worker is done with the payload, they are as many as it takes, the last one was made at this moment, and
  exactly one thing was counted: the payload and its traces if the last attempt was accepted, a failure otherwise;
* if the clock waits for the worker, the attempts are exactly those pauses apart;
* the worker gets done, if it has its turns and the clock goes on. -/
theorem retry_policy {c : Config} {s : ExportRun} (begins : Begins c trigger payload s.exporter)
    (transport : Transport)
    (answered : ∀ i < max c.sendRetries 1, transport.reply (s.exporter.attempts.length + i) ≠ .silence) :
    let reply i := transport.reply (s.exporter.attempts.length + i)
    ∃ k, IsAttemptCount (max c.sendRetries 1) reply k ∧
      ∀ during : List ExportOp, (∀ op ∈ during, op ≠ .abort) →
        let t := untilSettled transport s during
        ∃ times : List Nat,
          t.exporter.attempts =
            s.exporter.attempts ++ tries transport payload s.exporter.attempts.length times ∧
          (t.exporter.phase.inFlight = true →
            times.length < k ∧ s.exporter.stats.Counted t.exporter.stats 0 0 0 ∧
              ∀ wake ∈ t.exporter.wake?, ∃ last ∈ times.getLast?,
                wake = last + min (100 * 2 ^ (times.length - 1)) 1600) ∧
          (t.exporter.phase.inFlight = false →
            times.length = k ∧ times.getLast? = some t.exporter.now ∧ t.exporter.phase = .flushing trigger ∧
              if reply (k - 1) = .accepted then
                s.exporter.stats.Counted t.exporter.stats 1 payload.traceCount 0
              else s.exporter.stats.Counted t.exporter.stats 0 0 1) ∧
          (Punctual transport s during → OnSchedule s.exporter.now times) ∧
          ∃ done, Attends transport t done ∧ done.exporter.phase.inFlight = false := by
  intro reply
  have hretries : s.exporter.limits.retries = max c.sendRetries 1 := by
    rw [begins.limits]
    rfl
  rw [← hretries] at answered ⊢
  have hbegun : Underway transport trigger payload s.exporter false [] s.exporter := .of_begins begins
  obtain ⟨k, hk⟩ := exists_isAttemptCount hbegun.more reply
  refine ⟨k, hk, fun during kept => ?_⟩
  obtain ⟨times, hstate, hpunctual⟩ := untilSettled_spec hbegun answered kept
  have htimely : Timely s.exporter.now false [] s.exporter.now := ⟨⟨nofun, nofun⟩, le_rfl, fun _ => rfl⟩
  rcases hstate with ⟨pausing, hunderway⟩ | hsettled
  · refine ⟨times, hunderway.attempts, fun _ => ⟨hk.lt hunderway.more hunderway.transient, hunderway.counted,
      hunderway.wake_eq⟩, fun hdone => ?_, hpunctual htimely, exists_settled hunderway answered⟩
    rw [hunderway.inFlight] at hdone
    cases hdone
  · have hdone : (untilSettled transport s during).exporter.phase.inFlight = false := by
      rw [hsettled.phase]
      rfl
    have hlength : times.length = k := Nat.le_antisymm (hsettled.count.le hk) (hk.le hsettled.count)
    refine ⟨times, hsettled.attempts, fun hflight => ?_, fun _ => ⟨hlength, hsettled.now, hsettled.phase, ?_⟩,
      hpunctual htimely, _, .refl _, hdone⟩
    · rw [hdone] at hflight
      cases hflight
    · rw [← hlength]
      exact hsettled.counted

/-- The third attempt is accepted, 300 milliseconds after the first. -/
theorem retry_policy_third :
    let c := { Config.default with flushThreshold := 1 }
    let e := (ofConfig? c).getD default
    let transport : Transport := ⟨fun n => if n < 2 then .failed (.transient "reset") else .accepted⟩
    let s := after transport e [.start, .work, .enqueue [.new (.ofNat 1) (.ofNat 1) none "op" "svc" 0], .work, .work]
    let payload := s.exporter.phase.fresh?.getD default
    let during : List ExportOp := [.work, .clock 100, .work, .work, .clock 300, .work, .work]
    let t := (untilSettled transport s during).exporter
    ofConfig? c = some e ∧ Begins c .threshold payload s.exporter ∧
      (∀ i < max c.sendRetries 1, transport.reply (s.exporter.attempts.length + i) ≠ .silence) ∧
      Punctual transport s during ∧ t.phase.inFlight = false ∧ t.attempts.map Attempt.time = [0, 100, 300] ∧
      ∃ k times, IsAttemptCount 5 transport.reply k ∧ times.length = k ∧ OnSchedule 0 times ∧
        t.attempts = tries transport payload 0 times ∧ t.phase = .flushing .threshold := by
  intro c e transport s payload during t
  obtain ⟨⟨hlimits, haborting, hphase, hstart, hnow⟩, hanswered, hdone, htimes⟩ :
      (s.exporter.limits = .ofConfig c ∧ s.exporter.aborting = false ∧
          s.exporter.phase = .sending .threshold payload 0 firstBackoff ∧ s.exporter.attempts = [] ∧
          s.exporter.now = 0) ∧
        (∀ i < max c.sendRetries 1, transport.reply (s.exporter.attempts.length + i) ≠ .silence) ∧
        t.phase.inFlight = false ∧ t.attempts.map Attempt.time = [0, 100, 300] := by
    decide +kernel
  have hbegins : Begins c .threshold payload s.exporter := ⟨hlimits, haborting, hphase⟩
  have hpunctual : Punctual transport s during := by
    refine fun _ => ⟨nofun, fun _ => ⟨fun now hnow => ?_, fun _ => ⟨nofun, fun _ => ⟨nofun, fun _ =>
      ⟨fun now hnow => ?_, fun _ => ⟨nofun, fun _ => ⟨nofun, trivial⟩⟩⟩⟩⟩⟩⟩
    · cases hnow
      decide +kernel
    · cases hnow
      decide +kernel
  obtain ⟨k, hk, hrun⟩ := retry_policy hbegins transport hanswered
  obtain ⟨times, hattempts, -, hsettled, honSchedule, -⟩ := hrun during (by simp [during])
  obtain ⟨hlength, -, hflushing, -⟩ := hsettled hdone
  rw [hstart] at hk hattempts
  rw [hnow] at honSchedule
  simp only [List.length_nil, Nat.zero_add] at hk
  exact ⟨rfl, hbegins, hanswered, hpunctual, hdone, htimes, k, times, hk, hlength, honSchedule hpunctual,
    hattempts, hflushing⟩

end ExportRun

end Tracing
