import Tracing.Proofs.Trace.Run

/-!
# The spans of a run

What one operation can do to the spans of a trace and to their handles: a span starts on a closed trace
and stays detached, it starts on an open one and gets a slot, it ends, or nothing of all this happens
(`SpanEffect`, `step_effect`). Statements about spans rest on this list and do not open the operations
again. A handle that does not record does nothing to the trace (`step_of_not_recording`) and never records
again (`recorded_none_step`).
-/

namespace Tracing

/-- The slot of a handle that records. -/
def Span.slot? (s : Span) : Option Nat := s.recording.map Recording.slot

theorem Span.isRecording_eq (s : Span) : s.isRecording = s.slot?.isSome := by
  unfold Span.isRecording Span.slot?
  rw [Option.isSome_map]

theorem Span.slot?_eq_none {s : Span} : s.slot? = none ↔ s.recording = none := by
  unfold Span.slot?
  exact Option.map_eq_none_iff

@[simp] theorem Span.slot?_modify (s : Span) (f : SpanRecord → SpanRecord) :
    (s.modify f).slot? = s.slot? := by
  unfold Span.slot? Span.modify
  rw [Option.map_map]
  rfl

theorem set_of_getElem? {α : Type} {l : List α} {i : Nat} {a : α} (h : l[i]? = some a) : l.set i a = l := by
  obtain ⟨hi, rfl⟩ := List.getElem?_eq_some_iff.mp h
  exact List.set_getElem_self hi

/-- The handle that an operation goes through. -/
def TraceOp.handle? : TraceOp → Option Nat
  | .change i _ | .finish i _ => some i
  | _ => none

namespace TraceRun

/-- The number of spans started and not yet ended. -/
def unfinished (s : TraceRun) : Nat := s.handles.countP Span.isRecording

/-- For every handle its slot, none if it does not record. -/
def recorded (s : TraceRun) : List (Option Nat) := s.handles.map Span.slot?

theorem unfinished_eq (s : TraceRun) : s.unfinished = s.recorded.countP Option.isSome := by
  unfold unfinished recorded
  rw [List.countP_map]
  exact List.countP_congr fun span _ => by rw [Span.isRecording_eq]; rfl

theorem length_recorded (s : TraceRun) : s.recorded.length = s.handles.length := by simp [recorded]

theorem recorded_of_handle {s : TraceRun} {i : Nat} {span : Span} (h : s.handles[i]? = some span) :
    s.recorded[i]? = some span.slot? := by simp [recorded, h]

/-! ### What an operation does to the spans -/

/-- Two runs whose handles and spans look alike, the contents of running records apart. -/
structure SameSpans (s s' : TraceRun) : Prop where
  recorded : s'.recorded = s.recorded
  completions : s'.completions = s.completions
  openSpans : s'.trace.openSpans = s.trace.openSpans
  closed : s'.trace.closed = s.trace.closed
  slots : s.trace.closed = false → s'.trace.slots = s.trace.slots

/-- What an operation can do to the spans of a run. -/
inductive SpanEffect (s s' : TraceRun) : TraceOp → Prop where
  /-- A span starts on a closed trace. -/
  | detached {record : SpanRecord} {startTime : Option Int} {clock : Clock} (span : Span)
      (hclosed : s.trace.closed = true) (hspan : span.recording = none)
      (hs : s' = { s with handles := s.handles ++ [span] }) :
      SpanEffect s s' (.start record startTime clock)
  /-- A span starts on an open trace. -/
  | opened {record : SpanRecord} {startTime : Option Int} {clock : Clock} (span : Span)
      (root : Option RootNames) (hopen : s.trace.closed = false)
      (hspan : span.slot? = some s.trace.slots.length)
      (hs : s' = { s with
        handles := s.handles ++ [span]
        trace := { s.trace with
          openSpans := s.trace.openSpans + 1, slots := s.trace.slots ++ [none], root } }) :
      SpanEffect s s' (.start record startTime clock)
  /-- A span that records ends. -/
  | ended {i : Nat} {ending : SpanEnd} (span : Span) (recording : Recording)
      (hspan : s.handles[i]? = some span) (hrec : span.recording = some recording)
      (hs : s' = { s with
        handles := s.handles.set i { span with recording := none }
        trace := (s.trace.closeSpan recording.slot (ending.record recording)).1
        completions := s.completions +
          (s.trace.closeSpan recording.slot (ending.record recording)).2.toNat }) :
      SpanEffect s s' (.finish i ending)
  | quiet {op : TraceOp} (hstart : ∀ record startTime clock, op ≠ .start record startTime clock)
      (hfinish : ∀ i ending span, op = .finish i ending → s.handles[i]? = some span →
        span.recording = none)
      (same : SameSpans s s') : SpanEffect s s' op

theorem SameSpans.refl (s : TraceRun) : SameSpans s s := ⟨rfl, rfl, rfl, rfl, fun _ => rfl⟩

theorem sameSpans_settle (s : TraceRun) (d : Decision) (calls : Nat) :
    SameSpans s { s with trace := s.trace.settle d, policyCalls := calls } := by
  unfold Trace.settle Trace.recordDecisionMaker
  split <;> exact ⟨rfl, rfl, rfl, rfl, fun _ => rfl⟩

theorem sameSpans_consult (s : TraceRun) (policy : Target → Decision) : SameSpans s (s.consult policy) := by
  cases h : s.trace.decision with
  | some d =>
    rw [consult_of_some h]
    exact .refl s
  | none =>
    rw [consult_of_none h]
    exact sameSpans_settle s _ _

theorem sameSpans_choose (s : TraceRun) (p : Priority) : SameSpans s (s.step (.choose p)) := by
  show SameSpans s { s with trace := (s.trace.setManualPriority p).value }
  unfold Trace.setManualPriority
  cases s.trace.decision with
  | none => exact sameSpans_settle s _ _
  | some current =>
    simp only
    split
    · unfold Trace.recordDecisionMaker
      split <;> exact ⟨rfl, rfl, rfl, rfl, fun _ => rfl⟩
    · exact .refl s

theorem sameSpans_collect (s : TraceRun) : SameSpans s (s.step .collect) := by
  show SameSpans s (if s.trace.closed then { s with trace := s.trace.takeSpans.2 } else s)
  split
  · next h => exact ⟨rfl, rfl, rfl, rfl, fun hopen => by rw [h] at hopen; cases hopen⟩
  · exact .refl s

theorem step_of_not_recording {s : TraceRun} (op : TraceOp) {i : Nat} {span : Span}
    (hop : op.handle? = some i) (hspan : s.handles[i]? = some span) (hrec : span.recording = none) :
    s.step op = s := by
  have same : s.handles.set i span = s.handles := set_of_getElem? hspan
  cases op with
  | change j c =>
    cases hop
    show s.act i c.apply = s
    rw [act_of_some hspan, SpanChange.apply_eq]
    have hroot : span.isRoot = false := by
      unfold Span.isRoot
      rw [hrec]
      rfl
    have hmodify : span.modify c.inRecord = span := by
      unfold Span.modify
      rw [hrec]
      cases span
      simp_all
    simp only [Span.rename, hroot, hmodify, same]
    rfl
  | finish j ending =>
    cases hop
    show s.act i ending.apply = s
    rw [act_of_some hspan, SpanEnd.apply_eq]
    simp only [Span.finishWith, hrec, same]
    rfl
  | start | decide | decideWith | choose | collect => cases hop

/-- A handle records, or nothing that is done through it has any effect. -/
theorem records_or_idle (s : TraceRun) (i : Nat) :
    (∃ span recording, s.handles[i]? = some span ∧ span.recording = some recording) ∨
      (∀ span, s.handles[i]? = some span → span.recording = none) ∧
        ∀ op : TraceOp, op.handle? = some i → s.step op = s := by
  cases hspan : s.handles[i]? with
  | none =>
    refine .inr ⟨fun span h => (by cases h), fun op hop => ?_⟩
    cases op with
    | change j c | finish j ending =>
      obtain rfl := Option.some.inj hop
      exact act_of_none hspan _
    | start | decide | decideWith | choose | collect => cases hop
  | some span =>
    cases hrec : span.recording with
    | none =>
      refine .inr ⟨fun span' h => ?_, fun op hop => step_of_not_recording op hop hspan hrec⟩
      obtain rfl := Option.some.inj h
      exact hrec
    | some recording => exact .inl ⟨span, recording, rfl, hrec⟩

theorem sameSpans_change (s : TraceRun) (i : Nat) (c : SpanChange) : SameSpans s (s.step (.change i c)) := by
  show SameSpans s (s.act i c.apply)
  cases hspan : s.handles[i]? with
  | none =>
    rw [act_of_none hspan]
    exact .refl s
  | some span =>
    have hslots : (s.handles.set i (span.modify c.inRecord)).map Span.slot? = s.recorded := by
      rw [List.map_set, Span.slot?_modify]
      exact set_of_getElem? (recorded_of_handle hspan)
    rw [act_of_some hspan, SpanChange.apply_eq]
    unfold Span.rename
    simp only
    split
    · unfold Trace.updateRoot
      split <;> exact ⟨hslots, rfl, rfl, rfl, fun _ => rfl⟩
    · exact ⟨hslots, rfl, rfl, rfl, fun _ => rfl⟩

/-- **What one operation does to the spans.** -/
theorem step_effect (s : TraceRun) (op : TraceOp) : SpanEffect s (s.step op) op := by
  cases op with
  | start record startTime clock =>
    cases hclosed : s.trace.closed with
    | true =>
      refine .detached (Span.start s.trace record startTime clock).value.span hclosed ?_ ?_
      · simp [Span.start, Trace.openSpan, hclosed]
      · simp [step, Span.start, Trace.openSpan, hclosed]
    | false =>
      refine .opened (Span.start s.trace record startTime clock).value.span
        (Span.start s.trace record startTime clock).value.trace.root hclosed ?_ ?_
      · simp [Span.start, Trace.openSpan, hclosed, Span.slot?]
      · simp [step, Span.start, Trace.openSpan, hclosed]
  | finish i ending =>
    rcases records_or_idle s i with ⟨span, recording, hspan, hrec⟩ | ⟨hnone, hstep⟩
    · refine .ended span recording hspan hrec ?_
      show s.act i ending.apply = _
      rw [act_of_some hspan, SpanEnd.apply_eq]
      simp only [Span.finishWith, hrec]
      rfl
    · rw [hstep (.finish i ending) rfl]
      refine .quiet (by simp) (fun j e span h hj => ?_) (.refl s)
      obtain ⟨rfl, -⟩ := TraceOp.finish.inj h
      exact hnone span hj
  | change i c => exact .quiet (by simp) (by simp) (sameSpans_change s i c)
  | decide sampler now =>
    exact .quiet (by simp) (by simp) (sameSpans_consult s fun target => (sampler.decide now target).1)
  | decideWith policy => exact .quiet (by simp) (by simp) (sameSpans_consult s policy)
  | choose p => exact .quiet (by simp) (by simp) (sameSpans_choose s p)
  | collect => exact .quiet (by simp) (by simp) (sameSpans_collect s)

/-! ### Handles that no longer record -/

theorem recorded_of_ended {s s' : TraceRun} {i : Nat} {span : Span} {recording : Recording}
    (hspan : s.handles[i]? = some span) (hrec : span.recording = some recording)
    (hh : s'.handles = s.handles.set i { span with recording := none }) :
    s.recorded[i]? = some (some recording.slot) ∧ s'.recorded = s.recorded.set i none := by
  constructor
  · rw [recorded_of_handle hspan, Span.slot?, hrec]
    rfl
  · unfold recorded
    rw [hh, List.map_set]
    rfl

theorem recorded_none_step {s : TraceRun} {i : Nat} (h : s.recorded[i]? = some none) (op : TraceOp) :
    (s.step op).recorded[i]? = some none := by
  have hi : i < s.recorded.length := (List.getElem?_eq_some_iff.mp h).1
  cases step_effect s op with
  | detached span _ _ hs | opened span _ _ _ hs =>
    rw [hs]
    show (List.map Span.slot? (s.handles ++ [span]))[i]? = some none
    rw [List.map_append, List.getElem?_append_left (by simpa [recorded] using hi)]
    exact h
  | ended span recording hspan hrec hs =>
    next j _ =>
    have hset := (recorded_of_ended hspan hrec (congrArg TraceRun.handles hs)).2
    rw [hset, List.getElem?_set]
    split
    · next hj => simp [hj, hi]
    · exact h
  | quiet _ _ same => rw [same.recorded, h]

theorem recorded_none_of_finish {s : TraceRun} {i : Nat} (hi : i < s.handles.length) (ending : SpanEnd) :
    (s.step (.finish i ending)).recorded[i]? = some none := by
  have hspan : s.handles[i]? = some s.handles[i] := List.getElem?_eq_getElem hi
  generalize hop : TraceOp.finish i ending = op
  cases step_effect s op with
  | detached | opened => cases hop
  | ended span recording hspan' hrec hs =>
    cases hop
    have hset := (recorded_of_ended hspan' hrec (congrArg TraceRun.handles hs)).2
    rw [hset, List.getElem?_set_self (by rwa [length_recorded])]
  | quiet _ hfinish same =>
    have hrec := hfinish i ending _ hop.symm hspan
    rw [same.recorded, recorded_of_handle hspan, Span.slot?_eq_none.mpr hrec]

end TraceRun

end Tracing
