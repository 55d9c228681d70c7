import Tracing.Proofs.Trace.DecisionOnce
import Tracing.Proofs.Trace.Identity

/-!
# The names of the root span

A sampler sees the names of the root span as the trace knows them, and the span has them in its record. An
operation starts, changes or ends the first span, or does nothing about it and about the names (`RootEffect`). So
as long as nothing is decided the names of the trace are those that the first span last held:

* `LastHeld`: what a span last held, in its handle, or in its record once it was ended;
* `root_effect`: what one operation does to the first span and to the names of the root;
* `rootCurrent_after`: the names of the root are those that the first span last held;
* `root_names_current`: they are what a policy sees, and no other span and no decided trace changes them.
-/

namespace Tracing

/-- The names in the record of a span. -/
def SpanRecord.names (r : SpanRecord) : RootNames :=
  { service := r.service, operation := r.name, resource := r.resource }

theorem SpanChange.names_inRecord (c : SpanChange) (r : SpanRecord) :
    (c.inRecord r).names = c.inRoot r.names := by
  cases c <;> rfl

namespace TraceRun

/-! ### What a span last held -/

/-- An operation ends the span of a handle, with this record. -/
def EndsWith (s : TraceRun) (op : TraceOp) (i : Nat) (record : SpanRecord) : Prop :=
  ∃ ending span recording, op = .finish i ending ∧ s.handles[i]? = some span ∧
    span.recording = some recording ∧ record = ending.record recording

theorem not_endsWith {s : TraceRun} {op : TraceOp} (hop : op.handle? = none) (i : Nat) (record : SpanRecord) :
    ¬ EndsWith s op i record := by
  rintro ⟨ending, span, recording, rfl, -⟩
  cases hop

theorem not_endsWith_of_idle {s : TraceRun} {op : TraceOp} {i : Nat} (hop : op.handle? = some i)
    (hnone : ∀ span, s.handles[i]? = some span → span.recording = none) (j : Nat) (record : SpanRecord) :
    ¬ EndsWith s op j record := by
  rintro ⟨ending, span, recording, rfl, hspan, hrec, -⟩
  obtain rfl := Option.some.inj hop
  rw [hnone span hspan] at hrec
  cases hrec

/-- What the span of a handle last held: the record it is writing, or the one it was ended with. -/
inductive LastHeld (t : Trace) (ops : List TraceOp) (i : Nat) : SpanRecord → Prop where
  | live {span : Span} {recording : Recording} (hspan : (after t ops).handles[i]? = some span)
      (hrec : span.recording = some recording) : LastHeld t ops i recording.record
  | ended {span : Span} {record : SpanRecord} (hspan : (after t ops).handles[i]? = some span)
      (hrec : span.recording = none) (hfirst : FirstEnd t ops i record) : LastHeld t ops i record

section

variable {t : Trace} {ops : List TraceOp} {op : TraceOp} {i : Nat} {span : Span} {record : SpanRecord}

theorem firstEnd_concat :
    FirstEnd t (ops ++ [op]) i record ↔ FirstEnd t ops i record ∨ EndsWith (after t ops) op i record := by
  constructor
  · rintro ⟨before, ending, later, span, recording, hops, hfresh, hspan, hrec, hrecord⟩
    rcases List.eq_nil_or_concat later with rfl | ⟨later, last, rfl⟩
    · obtain ⟨rfl, hop⟩ := List.append_inj' hops rfl
      obtain rfl := List.singleton_inj.mp hop
      exact .inr ⟨ending, span, recording, rfl, hspan, hrec, hrecord⟩
    · rw [List.concat_eq_append, ← List.cons_append, ← List.append_assoc] at hops
      obtain ⟨rfl, -⟩ := List.append_inj' hops rfl
      exact .inl ⟨before, ending, later, span, recording, rfl, hfresh, hspan, hrec, hrecord⟩
  · rintro (hfirst | ⟨ending, span, recording, rfl, hspan, hrec, rfl⟩)
    · exact hfirst.append op
    · exact firstEnd_of_ended hspan hrec ending

theorem not_firstEnd {recording : Recording} (hspan : (after t ops).handles[i]? = some span)
    (hrec : span.recording = some recording) : ¬ FirstEnd t ops i record := by
  intro hfirst
  have hnone := recorded_none_of_wasEnded hfirst.wasEnded
  rw [recorded_of_handle hspan, Span.slot?, hrec] at hnone
  cases hnone

theorem lastHeld_of_recording {recording : Recording} (hspan : (after t ops).handles[i]? = some span)
    (hrec : span.recording = some recording) : LastHeld t ops i record ↔ record = recording.record := by
  constructor
  · rintro (⟨hspan', hrec'⟩ | ⟨-, -, hfirst⟩)
    · obtain rfl := Option.some.inj (hspan.symm.trans hspan')
      rw [Option.some.inj (hrec.symm.trans hrec')]
    · exact absurd hfirst (not_firstEnd hspan hrec)
  · rintro rfl
    exact .live hspan hrec

theorem lastHeld_of_finish {recording : Recording} {ending : SpanEnd}
    (hspan : (after t ops).handles[i]? = some span) (hrec : span.recording = some recording)
    (handles : (after t (ops ++ [.finish i ending])).handles[i]? = some { span with recording := none }) :
    LastHeld t (ops ++ [.finish i ending]) i record ↔ record = ending.record recording := by
  constructor
  · rintro (⟨hspan', hrec'⟩ | ⟨-, -, hfirst⟩)
    · obtain rfl := Option.some.inj (handles.symm.trans hspan')
      cases hrec'
    · obtain ⟨_, span', recording', hop, hspan', hrec', rfl⟩ :=
        (firstEnd_concat.mp hfirst).resolve_left (not_firstEnd hspan hrec)
      obtain ⟨-, rfl⟩ := TraceOp.finish.inj hop
      obtain rfl := Option.some.inj (hspan.symm.trans hspan')
      rw [Option.some.inj (hrec.symm.trans hrec')]
  · rintro rfl
    exact .ended handles rfl (firstEnd_of_ended hspan hrec ending)

/-- An operation that leaves a handle alone leaves alone what its span last held. -/
theorem lastHeld_concat (handles : (after t (ops ++ [op])).handles[i]? = (after t ops).handles[i]?)
    (hends : ∀ record, ¬ EndsWith (after t ops) op i record) :
    LastHeld t (ops ++ [op]) i record ↔ LastHeld t ops i record := by
  constructor
  · rintro (⟨hspan, hrec⟩ | ⟨hspan, hrec, hfirst⟩)
    · exact .live (handles ▸ hspan) hrec
    · exact .ended (handles ▸ hspan) hrec ((firstEnd_concat.mp hfirst).resolve_right (hends _))
  · rintro (⟨hspan, hrec⟩ | ⟨hspan, hrec, hfirst⟩)
    · exact .live (handles.trans hspan) hrec
    · exact .ended (handles.trans hspan) hrec (hfirst.append op)

end

/-! ### What an operation does to the names of the root -/

/-- What an operation can do to the first span of a run and to the names of the root. -/
inductive RootEffect (s s' : TraceRun) (op : TraceOp) : Prop where
  | started (span : Span) (recording : Recording) (hop : op.handle? = none) (hnone : s.handles = [])
      (handles : s'.handles = [span]) (hrec : span.recording = some recording)
      (root : s'.trace.root = some recording.record.names)
  | changed (c : SpanChange) (span : Span) (recording : Recording) (hop : op = .change 0 c)
      (hspan : s.handles[0]? = some span) (hrec : span.recording = some recording)
      (handles : s'.handles[0]? = some (span.modify c.inRecord))
      (root : s'.trace.root = if s.trace.decision.isSome then s.trace.root else s.trace.root.map c.inRoot)
  | ended (ending : SpanEnd) (span : Span) (recording : Recording) (hop : op = .finish 0 ending)
      (hspan : s.handles[0]? = some span) (hrec : span.recording = some recording)
      (handles : s'.handles[0]? = some { span with recording := none }) (root : s'.trace.root = s.trace.root)
  | quiet (hends : ∀ record, ¬ EndsWith s op 0 record) (handles : s'.handles[0]? = s.handles[0]?)
      (root : s'.trace.root = s.trace.root)

theorem root_settle (t : Trace) (d : Decision) : (t.settle d).root = t.root := by
  unfold Trace.settle
  rw [recordDecisionMaker_eq]

theorem root_choose (t : Trace) (p : Priority) : (t.setManualPriority p).value.root = t.root := by
  unfold Trace.setManualPriority
  cases t.decision with
  | none => exact root_settle _ _
  | some d =>
    simp only
    split
    · rw [recordDecisionMaker_eq]
      rfl
    · rfl

theorem root_closeSpan (t : Trace) (slot : Nat) (record : SpanRecord) :
    (t.closeSpan slot record).1.root = t.root := by
  unfold Trace.closeSpan
  simp only
  split <;> rfl

/-- A span that starts on an open trace records under the names it was given; they are those of the root if no
span started before. -/
theorem start_open {t : Trace} (hopen : t.closed = false) (record : SpanRecord) (startTime : Option Int)
    (clock : Clock) : ∃ recording,
      (Span.start t record startTime clock).value.span.recording = some recording ∧
      recording.record.names = record.names ∧
      (Span.start t record startTime clock).value.trace.root =
        if t.slots.length = 0 then some record.names else t.root := by
  simp [Span.start, Trace.openSpan, hopen, SpanRecord.names]

theorem start_closed {t : Trace} (hclosed : t.closed = true) (record : SpanRecord) (startTime : Option Int)
    (clock : Clock) : (Span.start t record startTime clock).value.trace = t := by
  simp [Span.start, Trace.openSpan, hclosed]

theorem closed_of_unstarted {t : Trace} (ht : t.Untouched) (ops : List TraceOp) :
    (after t ops).handles = [] → (after t ops).trace.closed = false := by
  obtain ⟨-, hclosed, -, -, -⟩ := ht.fields
  refine after_induction (P := fun s => s.handles = [] → s.trace.closed = false)
    (fun _ => hclosed) (fun s op ih hnil => ?_) ops
  cases step_effect s op with
  | detached span _ _ hs | opened span _ _ _ hs =>
    rw [hs] at hnil
    simp at hnil
  | ended span recording hspan _ hs =>
    rw [hs] at hnil
    simp only [List.set_eq_nil_iff] at hnil
    simp [hnil] at hspan
  | quiet _ _ same =>
    have hlength := congrArg List.length same.recorded
    rw [length_recorded, length_recorded, hnil] at hlength
    exact same.closed.trans (ih (List.eq_nil_of_length_eq_zero hlength.symm))

theorem Ledger.slot_eq {t : Trace} {ops : List TraceOp} (h : Ledger t ops) {i : Nat} {span : Span}
    {recording : Recording} (hspan : (after t ops).handles[i]? = some span)
    (hrec : span.recording = some recording) : recording.slot = i := by
  have hslot := recorded_of_handle hspan
  rw [Span.slot?, hrec] at hslot
  exact h.slot (h.isOpen hslot) i _ hslot

theorem rootEffect_start {t : Trace} {ops : List TraceOp} (h : Ledger t ops)
    (hopen : (after t ops).handles = [] → (after t ops).trace.closed = false) (record : SpanRecord)
    (startTime : Option Int) (clock : Clock) :
    RootEffect (after t ops) ((after t ops).step (.start record startTime clock))
      (.start record startTime clock) := by
  have hlater : (after t ops).handles ≠ [] →
      ((after t ops).handles ++ [(Span.start (after t ops).trace record startTime clock).value.span])[0]? =
        (after t ops).handles[0]? :=
    fun hne => List.getElem?_append_left (List.length_pos_iff.mpr hne)
  cases hclosed : (after t ops).trace.closed with
  | true =>
    have hne : (after t ops).handles ≠ [] := fun hnil => by simp [hopen hnil] at hclosed
    exact .quiet (not_endsWith rfl 0) (hlater hne)
      (congrArg Trace.root (start_closed hclosed record startTime clock))
  | false =>
    obtain ⟨recording, hrec, hnames, hroot⟩ := start_open hclosed record startTime clock
    -- the slots that the trace has given out are the handles of the run
    have hlength := h.length hclosed
    rw [length_recorded] at hlength
    rw [hlength] at hroot
    by_cases hnil : (after t ops).handles = []
    · refine .started _ recording rfl hnil ?_ hrec ?_
      · show (after t ops).handles ++ [_] = _
        rw [hnil, List.nil_append]
      · rw [hnames]
        exact hroot.trans (if_pos (List.length_eq_zero_iff.mpr hnil))
    · refine .quiet (not_endsWith rfl 0) (hlater hnil) (hroot.trans (if_neg fun hzero => ?_))
      exact hnil (List.length_eq_zero_iff.mp hzero)

theorem rootEffect_change {t : Trace} {ops : List TraceOp} (h : Ledger t ops) (i : Nat) (c : SpanChange) :
    RootEffect (after t ops) ((after t ops).step (.change i c)) (.change i c) := by
  rcases records_or_idle (after t ops) i with ⟨span, recording, hspan, hrec⟩ | ⟨hnone, hstep⟩
  · have hstep : (after t ops).step (.change i c) = { after t ops with
        trace := if span.isRoot then (after t ops).trace.updateRoot c.inRoot else (after t ops).trace
        handles := (after t ops).handles.set i (span.modify c.inRecord)
        completions := (after t ops).completions + 0 } := by
      show (after t ops).act i c.apply = _
      rw [act_of_some hspan, SpanChange.apply_eq]
      rfl
    have hroot : span.isRoot = (i == 0) := by
      unfold Span.isRoot
      rw [hrec, Option.any_some, h.slot_eq hspan hrec]
    rw [hstep, hroot]
    cases i with
    | zero =>
      refine .changed c span recording rfl hspan hrec ?_ ?_
      · exact List.getElem?_set_self (List.getElem?_eq_some_iff.mp hspan).1
      · show ((after t ops).trace.updateRoot c.inRoot).root = _
        unfold Trace.updateRoot
        split <;> rfl
    | succ i =>
      refine .quiet ?_ (List.getElem?_set_ne (Nat.succ_ne_zero i)) rfl
      rintro record ⟨_, _, _, hop, -⟩
      cases hop
  · rw [hstep (.change i c) rfl]
    exact .quiet (not_endsWith_of_idle rfl hnone 0) rfl rfl

theorem rootEffect_finish (s : TraceRun) (i : Nat) (ending : SpanEnd) :
    RootEffect s (s.step (.finish i ending)) (.finish i ending) := by
  rcases records_or_idle s i with ⟨span, recording, hspan, hrec⟩ | ⟨hnone, hstep⟩
  · have hstep : (s.step (.finish i ending)).handles = s.handles.set i { span with recording := none } ∧
        (s.step (.finish i ending)).trace.root = s.trace.root := by
      show (s.act i ending.apply).handles = _ ∧ (s.act i ending.apply).trace.root = _
      rw [act_of_some hspan, SpanEnd.apply_eq]
      simp only [Span.finishWith, hrec, root_closeSpan, and_self]
    obtain ⟨hhandles, hroot⟩ := hstep
    cases i with
    | zero =>
      refine .ended ending span recording rfl hspan hrec ?_ hroot
      rw [hhandles]
      exact List.getElem?_set_self (List.getElem?_eq_some_iff.mp hspan).1
    | succ i =>
      refine .quiet ?_ ?_ hroot
      · rintro record ⟨_, _, _, hop, -⟩
        cases hop
      · rw [hhandles]
        exact List.getElem?_set_ne (Nat.succ_ne_zero i)
  · rw [hstep (.finish i ending) rfl]
    exact .quiet (not_endsWith_of_idle rfl hnone 0) rfl rfl

theorem rootEffect_consult (s : TraceRun) {op : TraceOp} (hop : op.handle? = none)
    (policy : Target → Decision) : RootEffect s (s.consult policy) op := by
  cases h : s.trace.decision with
  | some d =>
    rw [consult_of_some h]
    exact .quiet (not_endsWith hop 0) rfl rfl
  | none =>
    rw [consult_of_none h]
    exact .quiet (not_endsWith hop 0) rfl (root_settle _ _)

/-- **What one operation does to the first span and to the names of the root.** -/
theorem root_effect {t : Trace} (ht : t.Untouched) (ops : List TraceOp) (op : TraceOp) :
    RootEffect (after t ops) ((after t ops).step op) op := by
  have h : Ledger t ops := ledger_after ht ops
  cases op with
  | start record startTime clock =>
    exact rootEffect_start h (closed_of_unstarted ht ops) record startTime clock
  | change i c => exact rootEffect_change h i c
  | finish i ending => exact rootEffect_finish _ i ending
  | decide sampler now =>
    have hop : (TraceOp.decide sampler now).handle? = none := rfl
    exact rootEffect_consult _ hop fun target => (sampler.decide now target).1
  | decideWith policy =>
    have hop : (TraceOp.decideWith policy).handle? = none := rfl
    exact rootEffect_consult _ hop policy
  | choose p => exact .quiet (not_endsWith rfl 0) rfl (root_choose _ p)
  | collect =>
    show RootEffect (after t ops) (if (after t ops).trace.closed then _ else after t ops) .collect
    split <;> exact .quiet (not_endsWith rfl 0) rfl rfl

/-! ### The names of the root -/

/-- What the trace knows of its root, and what the first span last held. -/
structure RootCurrent (t : Trace) (ops : List TraceOp) : Prop where
  unstarted : (after t ops).handles = [] → (after t ops).trace.root = none
  held : (after t ops).handles ≠ [] → ∃ record, LastHeld t ops 0 record
  names : (after t ops).trace.decision = none → ∀ record, LastHeld t ops 0 record →
    (after t ops).trace.root = some record.names

theorem getElem?_zero_eq_none {handles : List Span} : handles[0]? = none ↔ handles = [] := by
  rw [List.getElem?_eq_none_iff, Nat.le_zero, List.length_eq_zero_iff]

theorem undecided_of_concat {t : Trace} {ops : List TraceOp} {op : TraceOp}
    (h : (after t (ops ++ [op])).trace.decision = none) : (after t ops).trace.decision = none := by
  cases hd : (after t ops).trace.decision with
  | none => rfl
  | some d =>
    have hlater := (decided_step op ⟨hd, rfl⟩).1
    rw [← after_concat, h] at hlater
    cases hlater

theorem RootCurrent.of_held {t : Trace} {ops : List TraceOp} {record : SpanRecord}
    (hheld : ∀ {r}, LastHeld t ops 0 r ↔ r = record)
    (hroot : (after t ops).trace.decision = none → (after t ops).trace.root = some record.names) :
    RootCurrent t ops := by
  refine ⟨fun hnil => ?_, fun _ => ⟨record, hheld.mpr rfl⟩, fun hnone r hr => ?_⟩
  · cases hheld.mpr rfl with
    | live hspan | ended hspan =>
      rw [hnil] at hspan
      cases hspan
  · rw [hheld.mp hr]
    exact hroot hnone

theorem rootCurrent_concat {t : Trace} (ht : t.Untouched) {ops : List TraceOp} (h : RootCurrent t ops)
    (op : TraceOp) : RootCurrent t (ops ++ [op]) := by
  have heffect := root_effect ht ops op
  rw [← after_concat] at heffect
  cases heffect with
  | started span recording hop hnone handles hrec root =>
    have hspan : (after t (ops ++ [op])).handles[0]? = some span := by
      rw [handles]
      rfl
    exact .of_held (lastHeld_of_recording hspan hrec) fun _ => root
  | changed c span recording hop hspan hrec handles root =>
    have hrec' : (span.modify c.inRecord).recording =
        some { recording with record := c.inRecord recording.record } := by
      unfold Span.modify
      rw [hrec]
      rfl
    refine .of_held (lastHeld_of_recording handles hrec') fun hnone => ?_
    have hundecided := undecided_of_concat hnone
    rw [root, hundecided, h.names hundecided _ (.live hspan hrec), SpanChange.names_inRecord]
    rfl
  | ended ending span recording hop hspan hrec handles root =>
    subst hop
    refine .of_held (lastHeld_of_finish hspan hrec handles) fun hnone => ?_
    rw [root, h.names (undecided_of_concat hnone) _ (.live hspan hrec)]
    rfl
  | quiet hends handles root =>
    have hnil : (after t (ops ++ [op])).handles = [] ↔ (after t ops).handles = [] := by
      rw [← getElem?_zero_eq_none, handles, getElem?_zero_eq_none]
    refine ⟨fun hn => root.trans (h.unstarted (hnil.mp hn)), fun hne => ?_, fun hnone record hrecord => ?_⟩
    · obtain ⟨record, hrecord⟩ := h.held (mt hnil.mpr hne)
      exact ⟨record, (lastHeld_concat handles hends).mpr hrecord⟩
    · rw [root]
      exact h.names (undecided_of_concat hnone) record ((lastHeld_concat handles hends).mp hrecord)

/-- **The names of the root are those that the first span last held**, as long as nothing is decided. -/
theorem rootCurrent_after {t : Trace} (ht : t.Untouched) (ops : List TraceOp) : RootCurrent t ops := by
  induction ops using List.reverseRecOn with
  | nil =>
    obtain ⟨-, -, -, hroot, -⟩ := ht.fields
    refine ⟨fun _ => hroot, fun hne => absurd rfl hne, fun _ record hrecord => ?_⟩
    cases hrecord with
    | live hspan | ended hspan => cases hspan
  | append_singleton ops op ih => exact rootCurrent_concat ht ih op

theorem decideWith_of_none {t : Trace} (h : t.decision = none) {σ : Type} (state : σ)
    (policy : σ → Target → Decision × σ) :
    (t.decideWith state policy).2.2 = (policy state t.target).2 ∧
      (t.decideWith state policy).2.1.decision = some (policy state t.target).1 := by
  unfold Trace.decideWith
  rw [h]
  exact ⟨rfl, rfl⟩

/-- **A policy sees the current names of the root.** After every run of operations there are no names of a root
if no span was started, and else the first span last held some record. As long as nothing is decided, the names
are those in the record, no operation but a change to the first span changes them, and a policy with any state is
asked about the trace under these names, which are empty if no span was started. In a trace that is decided about,
no change to any span changes the names. -/
theorem root_names_current {t : Trace} (ht : t.Untouched) (ops : List TraceOp) :
    let s := after t ops
    (s.handles = [] → s.trace.root = none) ∧
    (s.handles ≠ [] → ∃ record, LastHeld t ops 0 record) ∧
    (∀ op, s.handles ≠ [] → (∀ c, op ≠ .change 0 c) → (s.step op).trace.root = s.trace.root) ∧
    (s.trace.decision = none →
      (∀ record, LastHeld t ops 0 record → s.trace.root = some record.names) ∧
      ∃ names : RootNames, (s.handles = [] → names = ⟨"", "", ""⟩) ∧
        (∀ record, LastHeld t ops 0 record → names = record.names) ∧
        ∀ (σ : Type) (state : σ) (policy : σ → Target → Decision × σ),
          let target : Target := ⟨t.traceId, names.service, names.operation, names.resource⟩
          (s.trace.decideWith state policy).2.2 = (policy state target).2 ∧
            (s.trace.decideWith state policy).2.1.decision = some (policy state target).1) ∧
    (s.trace.decision.isSome = true → ∀ i c, (s.step (.change i c)).trace.root = s.trace.root) := by
  intro s
  have h : RootCurrent t ops := rootCurrent_after ht ops
  refine ⟨h.unstarted, h.held, fun op hne hop => ?_, fun hnone => ⟨h.names hnone, ?_⟩, fun hsome i c => ?_⟩
  · cases root_effect ht ops op with
    | started _ _ _ hnil => exact absurd hnil hne
    | changed c _ _ hchange => exact absurd hchange (hop c)
    | ended _ _ _ _ _ _ _ root | quiet _ _ root => exact root
  · refine ⟨s.trace.root.getD {}, fun hnil => ?_, fun record hrecord => ?_, fun σ state policy => ?_⟩
    · rw [h.unstarted hnil]
      rfl
    · rw [h.names hnone record hrecord]
      rfl
    · intro target
      have htarget : s.trace.target = target := by
        unfold Trace.target
        rw [traceId_after]
      rw [← htarget]
      exact decideWith_of_none hnone state policy
  · cases root_effect ht ops (.change i c) with
    | started _ _ hop => cases hop
    | changed _ _ _ _ _ _ _ root =>
      rw [if_pos hsome] at root
      exact root
    | ended _ _ _ _ _ _ _ root | quiet _ _ root => exact root

/-- The root is renamed and ended, and another span is renamed in between: a policy sees the new name. -/
theorem root_names_current_renamed :
    let t := Trace.new (.ofNat 1)
    let ops := [plainStart 1, .change 0 (.service "shop"), plainStart 2, .change 1 (.service "bank"),
      .finish 0 (.at 5)]
    t.Untouched ∧ (after t ops).trace.decision = none ∧
      (∃ record, LastHeld t ops 0 record ∧ record.service = "shop" ∧
        (after t ops).trace.root = some record.names) ∧
      ∀ c, ((after t ops).step (.change 1 c)).trace.root = (after t ops).trace.root := by
  intro t ops
  have ht : t.Untouched := .fresh _
  obtain ⟨-, hheld, hother, hundecided, -⟩ := root_names_current ht ops
  have hstarted : (after t ops).handles ≠ [] := List.cons_ne_nil _ _
  obtain ⟨hnames, -⟩ := hundecided rfl
  obtain ⟨record, hrecord⟩ := hheld hstarted
  have hroot : some record.names = (after t ops).trace.root := (hnames record hrecord).symm
  have hservice : record.names.service = "shop" := congrArg RootNames.service (Option.some.inj hroot)
  exact ⟨ht, rfl, ⟨record, hrecord, hservice, hnames record hrecord⟩,
    fun c => hother (.change 1 c) hstarted fun c' => nofun⟩

end TraceRun

end Tracing
