import Tracing.Proofs.Export.Drops
import Tracing.Proofs.Payload.Accounting

/-!
# The worker comes to rest

Running the worker is given a number of steps, and waiting a number of turns. Neither is ever used up: the
worker stops making steps because it has to wait (`settle_blocked`), and it is left alone because it has
nothing to do before the deadline (`runFor_blocked`).

Steps that take no time are bounded by what is there to be moved (`remaining`): every trace is received
once, every chunk is sent once, ticks are no closer than a millisecond, and a payload that failed waits.
-/

namespace Tracing

/-! ### Chunks -/

namespace Packer

theorem length_le_spansOf {chunks : List Chunk} (h : ∀ chunk ∈ chunks, chunk.spans ≠ []) :
    chunks.length ≤ (spansOf chunks).length := by
  induction chunks with
  | nil => exact le_rfl
  | cons chunk rest ih =>
    obtain ⟨hchunk, hrest⟩ := List.forall_mem_cons.mp h
    have hpos := List.length_pos_iff.mpr hchunk
    have hle := ih hrest
    rw [spansOf_cons, List.length_append, List.length_cons]
    omega

theorem length_add_queue (p : Packer) (trace : List SpanRecord) :
    (p.add trace).value.2.queue.length ≤ p.queue.length + trace.length := by
  have hchunks := length_le_spansOf (@chunksOf_filled p.limit (p.encodeAll trace).value)
  have hspans : (p.encodeAll trace).value.length ≤ trace.length := by
    rw [encodeAll_value]
    exact (List.length_filter_le _ _).trans (List.length_map _).le
  rw [chunksOf_spans] at hchunks
  show (p.queue ++ chunksOf p.limit (p.encodeAll trace).value).length ≤ _
  rw [List.length_append]
  omega

end Packer

/-! ### Steps that take no time -/

/-- Steps from a flush to the next wait or the end. -/
def Trigger.steps : Trigger → Nat
  | threshold | tick => 5
  | closing => 1

/-- Steps that the worker is about to make if it has nothing to move. -/
def Phase.steps (now : Nat) : Phase → Nat
  | starting => 5
  | waiting => 4
  | draining => 3
  | flushing trigger => trigger.steps
  | sending trigger _ _ _ => trigger.steps + 1
  | pausing trigger _ _ _ wake => if wake ≤ now then trigger.steps + 2 else 0
  | idle | hanging | stopped | gone => 0

theorem Phase.steps_le (now : Nat) (phase : Phase) : phase.steps now ≤ 7 := by
  have htrigger : ∀ trigger : Trigger, trigger.steps ≤ 5 := by
    intro trigger
    cases trigger <;> decide
  cases phase with
  | flushing trigger | sending trigger =>
    have hsteps := htrigger trigger
    simp only [steps]
    omega
  | pausing trigger =>
    have hsteps := htrigger trigger
    simp only [steps]
    split <;> omega
  | _ => simp [steps]

/-- The pause after the next failure. -/
def Phase.backoff? : Phase → Option Nat
  | sending _ _ _ backoff | pausing _ _ _ backoff _ => some backoff
  | _ => none

namespace Exporter

variable {transport : Transport} {e e' : Exporter}

/-- The ticks that are due, one after the other, if no time passes. -/
def ticksDue (e : Exporter) : Nat :=
  if e.nanos < e.due then 0
  else if e.due + tickTolerance < e.nanos then 1
  else (e.nanos - e.due) / millisecond + 1

/-- Steps that it takes to move what is there. -/
def load (e : Exporter) : Nat :=
  2 * (e.queue.length + e.queue.flatten.length + e.packer.queue.length + e.ticksDue) + e.aborting.toNat

/-- More steps than this the worker cannot make without waiting. -/
def remaining (e : Exporter) : Nat := e.load + e.phase.steps e.now

/-- Ticks and attempts are apart. -/
structure Paced (e : Exporter) : Prop where
  interval : millisecond ≤ e.limits.interval
  backoff : ∀ backoff, e.phase.backoff? = some backoff → 0 < backoff

theorem ticksDue_of_lt (h : e.nanos < e.due) : e.ticksDue = 0 := if_pos h

theorem ticksDue_le (e : Exporter) : e.ticksDue ≤ 6 := by
  unfold ticksDue tickTolerance millisecond
  split
  · exact Nat.zero_le _
  · split <;> omega

theorem ticksDue_nextDue (h : Paced e) (due : e.due ≤ e.nanos) (phase : Phase) :
    ({ e with due := e.nextDue, phase } : Exporter).ticksDue < e.ticksDue := by
  have hinterval := h.interval
  show (if e.nanos < e.nextDue then 0 else if e.nextDue + tickTolerance < e.nanos then 1
    else (e.nanos - e.nextDue) / millisecond + 1) < e.ticksDue
  unfold nextDue ticksDue tickTolerance millisecond at *
  rw [if_neg (Nat.not_lt.mpr due)]
  split
  · rw [if_pos (by omega)]
    exact Nat.one_pos
  · split
    · exact Nat.succ_pos _
    · rw [if_neg (by omega)]
      omega

theorem load_packed {trace : List SpanRecord} {rest : List (List SpanRecord)}
    (queue : e.queue = trace :: rest) : (e.packed trace rest).load + 2 ≤ e.load := by
  have hchunks := e.packer.length_add_queue trace
  show 2 * (rest.length + rest.flatten.length + (e.packer.add trace).value.2.queue.length + e.ticksDue) +
    e.aborting.toNat + 2 ≤ e.load
  unfold load
  rw [queue, List.length_cons, List.flatten_cons, List.length_append]
  omega

theorem load_begin (h : Paced e) (phase : Phase) :
    ({ e with due := e.nanos + e.limits.interval, phase } : Exporter).load ≤ e.load := by
  have hpos : 0 < millisecond := by decide
  have hinterval := h.interval
  have hlater : ({ e with due := e.nanos + e.limits.interval, phase } : Exporter).ticksDue = 0 := by
    refine ticksDue_of_lt ?_
    show e.nanos < e.nanos + e.limits.interval
    omega
  unfold load
  rw [hlater]
  show 2 * (e.queue.length + e.queue.flatten.length + e.packer.queue.length + 0) + e.aborting.toNat ≤ _
  omega

/-- **Every step of the worker leaves fewer to make.** -/
theorem remaining_work (h : Paced e) (effect : WorkEffect transport e e') : e'.remaining < e.remaining := by
  cases effect with
  | discarded aborting =>
    show 2 * (0 + 0 + e.packer.queue.length + e.ticksDue) + 0 + 0 < e.load + e.phase.steps e.now
    unfold load
    rw [aborting]
    simp only [Bool.toNat_true]
    omega
  | began phase =>
    have hload := load_begin h .waiting
    show _ + 4 < e.load + e.phase.steps e.now
    rw [phase]
    show _ + 4 < e.load + 5
    omega
  | closed phase =>
    show e.load + 3 < e.load + e.phase.steps e.now
    rw [phase]
    show e.load + 3 < e.load + 4
    omega
  | received trace rest phase _ queue | drained trace rest phase queue =>
    have hload := load_packed queue
    show (e.packed trace rest).load + e.phase.steps e.now < e.load + e.phase.steps e.now
    omega
  | filled trace rest phase _ queue =>
    have hload := load_packed queue
    show (e.packed trace rest).load + 5 < e.load + e.phase.steps e.now
    rw [phase]
    show _ < e.load + 4
    omega
  | ticked phase queue due =>
    have hticks := ticksDue_nextDue h due (.flushing .tick)
    show 2 * (e.queue.length + e.queue.flatten.length + e.packer.queue.length + _) + e.aborting.toNat + 5 <
      e.load + e.phase.steps e.now
    rw [phase]
    unfold load
    show _ < _ + 4
    omega
  | emptied phase =>
    show e.load + 1 < e.load + e.phase.steps e.now
    rw [phase]
    show e.load + 1 < e.load + 3
    omega
  | taken trigger payload packer phase next =>
    have hchunks := Packer.length_nextPayload next
    show 2 * (e.queue.length + e.queue.flatten.length + packer.queue.length + e.ticksDue) + e.aborting.toNat +
      (trigger.steps + 1) < e.load + e.phase.steps e.now
    rw [phase]
    unfold load
    show _ < _ + trigger.steps
    omega
  | resumed trigger phase =>
    have hload := load_begin h .waiting
    show _ < e.load + e.phase.steps e.now
    rw [phase]
    cases trigger with
    | threshold =>
      show ({ e with due := e.nanos + e.limits.interval, phase := .waiting } : Exporter).load + 4 < e.load + 5
      omega
    | tick =>
      show e.load + 4 < e.load + 5
      omega
    | closing =>
      show e.load + 0 < e.load + 1
      omega
  | delivered trigger payload failed backoff phase | gaveUp trigger payload failed backoff _ phase =>
    show e.load + trigger.steps < e.load + e.phase.steps e.now
    rw [phase]
    show _ < e.load + (trigger.steps + 1)
    omega
  | hung trigger payload failed backoff phase =>
    show e.load + 0 < e.load + e.phase.steps e.now
    rw [phase]
    show _ < e.load + (trigger.steps + 1)
    omega
  | backedOff trigger payload failed backoff failure phase =>
    -- the pause takes time, so the worker has to wait
    have hbackoff := h.backoff backoff (by rw [phase]; rfl)
    show e.load + (if e.now + backoff ≤ e.now then trigger.steps + 2 else 0) < e.load + e.phase.steps e.now
    rw [phase, if_neg (by omega)]
    show _ < e.load + (trigger.steps + 1)
    omega
  | woke trigger payload failed backoff wake phase due =>
    show e.load + (trigger.steps + 1) < e.load + e.phase.steps e.now
    rw [phase]
    show _ < e.load + (if wake ≤ e.now then trigger.steps + 2 else 0)
    rw [if_pos due]
    omega

theorem now_work (effect : WorkEffect transport e e') : e'.now = e.now := by
  cases effect with
  | resumed trigger => cases trigger <;> rfl
  | _ => rfl

theorem now_settle (transport : Transport) (state : Logged Exporter) :
    (state >>= settle transport).value.now = state.value.now :=
  settle_induction (P := fun e => e.now = state.value.now)
    (fun _ _ hstep hs => (now_work (work_effect hstep)).trans hs) rfl

theorem Paced.frame (h : Paced e) (limits : e'.limits = e.limits)
    (backoff : ∀ b, e'.phase.backoff? = some b → e.phase.backoff? = some b) : Paced e' :=
  ⟨limits ▸ h.interval, fun b hb => h.backoff b (backoff b hb)⟩

theorem paced_work (h : Paced e) (effect : WorkEffect transport e e') : Paced e' := by
  cases effect with
  | taken => exact ⟨h.interval, fun b hb => Option.some.inj hb ▸ by decide⟩
  | resumed trigger => cases trigger <;> exact ⟨h.interval, nofun⟩
  | backedOff trigger payload failed backoff failure phase =>
    have hbackoff := h.backoff backoff (by rw [phase]; rfl)
    refine ⟨h.interval, fun b hb => ?_⟩
    obtain rfl : min (backoff * 2) maxBackoff = b := Option.some.inj hb
    have hmax : 0 < maxBackoff := by decide
    omega
  | woke trigger payload failed backoff wake phase =>
    exact h.frame rfl fun b hb => by rw [phase]; exact hb
  | received | drained => exact h.frame rfl fun _ hb => hb
  | discarded | began | closed | filled | ticked | emptied | delivered | gaveUp | hung =>
    exact ⟨h.interval, nofun⟩

/-! ### Coming to rest -/

/-- **Enough steps bring the worker to rest.** -/
theorem run_blocked {fuel : Nat} {state : Logged Exporter} (h : Paced state.value)
    (enough : state.value.remaining ≤ fuel) : (run transport fuel state).value.step? transport = none := by
  induction fuel generalizing state with
  | zero =>
    cases hstep : state.value.step? transport with
    | none => exact hstep
    | some next =>
      have hless := remaining_work h (work_effect hstep)
      omega
  | succ fuel ih =>
    unfold run
    split
    · next next hstep =>
      have effect := work_effect hstep
      have hless := remaining_work h effect
      refine ih (paced_work h effect) ?_
      show next.value.remaining ≤ fuel
      omega
    · next hstep => exact hstep

theorem settle_blocked (h : Paced e) : (e.settle transport).value.step? transport = none := by
  refine run_blocked h ?_
  have hticks := e.ticksDue_le
  have hphase := e.phase.steps_le e.now
  have haborting : e.aborting.toNat ≤ 1 := Bool.toNat_le _
  show e.load + e.phase.steps e.now ≤ e.stepBound
  unfold load stepBound
  omega

/-! ### Waiting for the clock -/

theorem lt_wake (h : e.step? transport = none) {wake : Nat} (hwake : e.wake? = some wake) : e.now < wake := by
  unfold step? at h
  unfold wake? at hwake
  split at h
  · cases h
  · cases hphase : e.phase with
    | waiting =>
      rw [hphase] at h hwake
      obtain rfl := Option.some.inj hwake
      have hdue : e.nanos < e.due := by
        simp only [poll?] at h
        split at h
        · cases h
        · split at h
          · cases h
          · split at h
            · cases h
            · split at h
              · cases h
              · next hdue => exact Nat.not_le.mp hdue
      unfold nanos millisecond at *
      omega
    | pausing trigger payload failed backoff wake' =>
      rw [hphase] at h hwake
      obtain rfl := Option.some.inj hwake
      simp only at h
      split at h
      · cases h
      · next hwake => exact Nat.not_le.mp hwake
    | _ =>
      rw [hphase] at hwake
      cases hwake

/-- **A worker at rest does nothing before the moment it waits for.** -/
theorem blocked_until (h : e.step? transport = none) {now : Nat} (before : ∀ wake ∈ e.wake?, now < wake) :
    ({ e with now } : Exporter).step? transport = none := by
  unfold step? at h ⊢
  unfold wake? at before
  split at h
  · cases h
  · next haborting =>
    rw [if_neg haborting]
    cases hphase : e.phase with
    | waiting =>
      rw [hphase] at h before
      simp only [poll?] at h ⊢
      split at h
      · cases h
      · split at h
        · cases h
        · split at h
          · cases h
          · next hcancelled _ hqueue hproducers =>
            have hlater := before _ rfl
            have hdue : ¬ e.due ≤ now * millisecond := by
              unfold millisecond at *
              omega
            rw [if_neg hcancelled, hqueue]
            simp only [if_neg hproducers]
            exact if_neg hdue
    | pausing trigger payload failed backoff wake =>
      rw [hphase] at before
      exact if_neg (Nat.not_le.mpr (before wake rfl))
    | idle | hanging | stopped | gone => rfl
    | starting | draining | flushing | sending =>
      rw [hphase] at h
      cases h

theorem runBefore_blocked {deadline fuel : Nat} {state : Logged Exporter} (h : Paced state.value)
    (before : state.value.now ≤ deadline) (enough : deadline < state.value.now + fuel) :
    (runBefore transport deadline fuel state).value.step? transport = none ∧
      ∀ wake ∈ (runBefore transport deadline fuel state).value.wake?, deadline ≤ wake := by
  induction fuel generalizing state with
  | zero => omega
  | succ fuel ih =>
    have hpaced : Paced (state >>= settle transport).value :=
      settle_induction (fun _ _ hstep hs => paced_work hs (work_effect hstep)) h
    have hblocked : (state >>= settle transport).value.step? transport = none := settle_blocked h
    have hnow := now_settle transport state
    unfold runBefore
    simp only
    split
    · next wake hwake =>
      have hlater := lt_wake hblocked hwake
      split
      · next hearly =>
        refine ih (hpaced.frame rfl fun _ hb => hb) hearly.le ?_
        show deadline < wake + fuel
        omega
      · next hlate =>
        refine ⟨hblocked, fun wake' hwake' => ?_⟩
        obtain rfl := Option.some.inj (hwake.symm.trans hwake')
        exact Nat.not_lt.mp hlate
    · next hnone =>
      refine ⟨hblocked, fun wake hwake => ?_⟩
      rw [hnone] at hwake
      cases hwake

/-- **Whoever waits leaves the worker with nothing to do until then.** -/
theorem runFor_blocked (h : Paced e) {millis now : Nat} (before : now < e.now + millis) :
    ({ (e.runFor transport millis).value with now } : Exporter).step? transport = none := by
  obtain ⟨hblocked, hwake⟩ := @runBefore_blocked transport (e.now + millis) (millis + 1) (pure e) h
    (Nat.le_add_right _ _) (Nat.lt_succ_self _)
  exact blocked_until hblocked fun wake hmem => Nat.lt_of_lt_of_le before (hwake wake hmem)

end Exporter

/-! ### Runs -/

namespace ExportRun

open Exporter

variable {transport : Transport}

theorem paced_step {s s' : ExportRun} {op : ExportOp} (effect : StepEffect transport s op s')
    (h : Paced s.exporter) : Paced s'.exporter := by
  cases effect with
  | worked next step => exact paced_work h (work_effect step)
  | started | discarded => exact ⟨h.interval, nofun⟩
  | accepted | refused | aborting | rejected | released | cancelled | clocked => exact ⟨h.interval, h.backoff⟩
  | unchanged => exact h

theorem paced_after {c : Config} {e : Exporter} (h : Exporter.ofConfig? c = some e)
    (transport : Transport) (ops : List ExportOp) : Paced (after transport e ops).exporter := by
  have hnew : Paced e := by
    obtain rfl := eq_of_ofConfig? h
    exact ⟨Nat.le_max_right _ _, nofun⟩
  exact after_induction (P := fun s => Paced s.exporter) hnew
    (fun s op hs => paced_step (step_effect s op) hs) ops

end ExportRun

end Tracing
