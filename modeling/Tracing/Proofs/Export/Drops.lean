import Tracing.Proofs.Export.Conservation

/-!
# What the exporter drops

Traces are dropped by producers alone: one that sampling rejected, and one that the queue refused
(`enqueue_value`). An exporter that moves on without its producers counts neither (`Moves.drops`). What the
worker sends, whether for the first time or again, is one of the payloads that were handed over (`mem_sent`).
-/

namespace Tracing

/-! ### Attempts -/

theorem mem_handed {attempts : List Attempt} {a : Attempt} (h : a ∈ attempts) :
    a.payload ∈ handed attempts := by
  unfold handed
  induction attempts using List.reverseRecOn generalizing a with
  | nil => cases h
  | append_singleton attempts b ih =>
    rw [handedAfter_concat]
    rcases List.mem_append.mp h with h | h
    · exact List.mem_append_left _ (ih h)
    · obtain rfl := List.mem_singleton.mp h
      cases hlast : attempts.getLast? with
      | none => exact List.mem_append_right _ List.mem_cons_self
      | some last =>
        cases hretry : a.isRetryOf last with
        | false => simp [hretry]
        | true =>
          have hpayload : a.payload = last.payload := by
            simp only [Attempt.isRetryOf, decide_eq_true_eq] at hretry
            exact hretry.1
          rw [hpayload]
          exact List.mem_append_left _ (ih (List.mem_of_getLast? hlast))

theorem mem_sent {attempts : List Attempt} {a : Attempt} {span : String} (h : a ∈ attempts)
    (hspan : span ∈ a.payload.spans) : span ∈ sent attempts :=
  List.mem_flatMap.mpr ⟨a.payload, mem_handed h, hspan⟩

/-! ### Drops -/

/-- The numbers of traces dropped by sampling and by the queue. -/
def Stats.drops (s : Stats) : Nat × Nat := (s.droppedBySample, s.droppedQueueFull)

namespace Exporter

variable {transport : Transport} {e e' : Exporter}

theorem drops_work (effect : WorkEffect transport e e') : e'.stats.drops = e.stats.drops := by
  cases effect with
  | resumed trigger => cases trigger <;> rfl
  | _ => rfl

theorem Passes.induction {P : ExportRun → Prop} (h : Passes transport e e')
    (hwork : ∀ s : ExportRun, P s → P (s.step transport .work))
    (hclock : ∀ (s : ExportRun) now, P s → P (s.step transport (.clock now)))
    {accepted : List (List SpanRecord)} (h0 : P ⟨e, accepted⟩) : P ⟨e', accepted⟩ := by
  obtain ⟨ops, honly, hrun⟩ := h
  rw [← hrun]
  clear hrun
  generalize (⟨e, accepted⟩ : ExportRun) = s at h0
  induction ops generalizing s with
  | nil => exact h0
  | cons op ops ih =>
    obtain ⟨hop, hrest⟩ := List.forall_mem_cons.mp honly
    refine ih hrest _ ?_
    rcases hop with rfl | ⟨now, rfl⟩
    · exact hwork s h0
    · exact hclock s now h0

theorem drops_step_work (s : ExportRun) :
    (s.step transport .work).exporter.stats.drops = s.exporter.stats.drops := by
  cases hstep : s.exporter.step? transport with
  | none => rw [ExportRun.step_work_of_none hstep]
  | some next =>
    rw [ExportRun.step_work_of_some hstep]
    exact drops_work (work_effect hstep)

/-- **A trace is put at the end of the queue, or it is dropped and counted.** -/
theorem enqueue_value (e : Exporter) (trace : List SpanRecord) :
    (e.enqueue trace).value = (true, { e with queue := e.queue ++ [trace] }) ∨
    (e.enqueue trace).value = (false,
      { e with stats := { e.stats with droppedQueueFull := e.stats.droppedQueueFull + 1 } }) := by
  unfold enqueue
  split
  · exact .inr rfl
  · split
    · exact .inl rfl
    · exact .inr rfl

end Exporter

/-! ### Without producers -/

/-- What happens to an exporter without its producers. -/
inductive WorkerEvent where
  | releaseProducers
  | cancel
  | abort
  | clock (now : Nat)
  | work

/-- The operation of the exporter. -/
def WorkerEvent.op : WorkerEvent → ExportOp
  | releaseProducers => .releaseProducers
  | cancel => .cancel
  | abort => .abort
  | clock now => .clock now
  | work => .work

namespace Exporter

variable {transport : Transport} {e e' : Exporter}

/-- The exporter moves on and accepts nothing in between. -/
def Moves (transport : Transport) (e e' : Exporter) : Prop :=
  ∃ events : List WorkerEvent, ∀ accepted,
    (events.map WorkerEvent.op).foldl (ExportRun.step transport) ⟨e, accepted⟩ = ⟨e', accepted⟩

namespace Moves

theorem refl (transport : Transport) (e : Exporter) : Moves transport e e := ⟨[], fun _ => rfl⟩

theorem trans {e₁ e₂ e₃ : Exporter} (h₁ : Moves transport e₁ e₂) (h₂ : Moves transport e₂ e₃) :
    Moves transport e₁ e₃ := by
  obtain ⟨events₁, run₁⟩ := h₁
  obtain ⟨events₂, run₂⟩ := h₂
  refine ⟨events₁ ++ events₂, fun accepted => ?_⟩
  rw [List.map_append, List.foldl_append, run₁, run₂]

theorem event (transport : Transport) (s : ExportRun) (event : WorkerEvent) :
    Moves transport s.exporter (s.step transport event.op).exporter := by
  refine ⟨[event], fun accepted => ?_⟩
  show ExportRun.step transport ⟨s.exporter, accepted⟩ event.op = _
  cases event with
  | work =>
    cases hstep : s.exporter.step? transport with
    | none =>
      rw [WorkerEvent.op, ExportRun.step_work_of_none hstep]
      exact ExportRun.step_work_of_none hstep
    | some next =>
      rw [WorkerEvent.op, ExportRun.step_work_of_some hstep]
      exact ExportRun.step_work_of_some hstep
  | _ => rfl

theorem of_passes (h : Passes transport e e') : Moves transport e e' :=
  @Passes.induction transport e e' (fun s => Moves transport e s.exporter) h
    (fun s hs => hs.trans (event transport s .work))
    (fun s now hs => hs.trans (event transport s (.clock now))) [] (refl transport e)

theorem induction {P : ExportRun → Prop} (h : Moves transport e e')
    (hs : ∀ (s : ExportRun) (event : WorkerEvent), P s → P (s.step transport event.op))
    {accepted : List (List SpanRecord)} (h0 : P ⟨e, accepted⟩) : P ⟨e', accepted⟩ := by
  obtain ⟨events, hrun⟩ := h
  rw [← hrun]
  clear hrun
  generalize (⟨e, accepted⟩ : ExportRun) = s at h0
  induction events generalizing s with
  | nil => exact h0
  | cons event events ih => exact ih _ (hs s event h0)

/-- **An exporter without producers drops no trace.** -/
theorem drops (h : Moves transport e e') : e'.stats.drops = e.stats.drops := by
  refine @induction transport e e' (fun s => s.exporter.stats.drops = e.stats.drops) h
    (fun s event hs => ?_) [] rfl
  cases event with
  | work => exact (drops_step_work s).trans hs
  | abort =>
    show s.exporter.abort.stats.drops = _
    unfold abort
    split <;> exact hs
  | _ => exact hs

end Moves

end Exporter

end Tracing
