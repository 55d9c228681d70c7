import Mathlib.Data.List.Induction
import Tracing.Span.Handle
import Tracing.Trace.Completion

/-!
# Runs of a trace

What can happen to one trace, one operation after the other: spans are started, changed and ended through
their handles, the trace is decided about, a user chooses a priority, and whoever was told that the trace
is complete collects its spans. A `TraceRun` is the trace with all handles given out so far, and
`after t ops` is where a list of operations leads from an untouched trace `t`.

The operations are the ones of the library, and every lemma below says once what one of them does:
a change through a handle is a renaming (`SpanChange.apply_eq`), every end of a span is a `finishWith`
(`SpanEnd.apply_eq`), and asking a policy either leaves the run alone or settles the trace
(`consult_of_some`, `consult_of_none`). So an operation settles the trace, overrides its decision, or changes
nothing of what a peer is told (`context_effect`).
-/

namespace Tracing

/-! ### Changes through a handle -/

/-- A change to a span through its handle. -/
inductive SpanChange where
  | tag (key : String) (value : TagValue)
  | error (failed : Bool)
  | spanType (text : String)
  | event (clock : Clock) (text : String)
  | resource (text : String)
  | operationName (text : String)
  | service (text : String)

namespace SpanChange

/-- Makes a change. -/
def apply (c : SpanChange) (s : Span) (t : Trace) : SpanStep :=
  match c with
  | tag key value => { span := s.setTag key value, trace := t }
  | error failed => { span := s.setError failed, trace := t }
  | spanType text => { span := s.setSpanType text, trace := t }
  | event clock text => { span := s.annotate clock text, trace := t }
  | resource text => s.setResource t text
  | operationName text => s.setOperationName t text
  | service text => s.setService t text

/-- What a change does to the record of its span. -/
def inRecord (c : SpanChange) (r : SpanRecord) : SpanRecord :=
  match c with
  | tag key value => r.setTag key value
  | error failed => { r with error := failed }
  | spanType text => { r with spanType := some text }
  | event clock text => { r with annotations := r.annotations ++ [(clock.wall, text)] }
  | resource text => { r with resource := text }
  | operationName text => { r with name := text }
  | service text => { r with service := text }

/-- What a change to the first span does to the names of the root. -/
def inRoot (c : SpanChange) (names : RootNames) : RootNames :=
  match c with
  | resource text => { names with resource := text }
  | operationName text => { names with operation := text }
  | service text => { names with service := text }
  | _ => names

end SpanChange

theorem Trace.updateRoot_id (t : Trace) : (t.updateRoot fun names => names) = t := by
  unfold Trace.updateRoot
  split
  · rfl
  · simp

/-- **Every change is a renaming**, if only one that leaves the names of the root alone. -/
theorem SpanChange.apply_eq (c : SpanChange) (s : Span) (t : Trace) :
    c.apply s t = s.rename t c.inRecord c.inRoot := by
  have same : ∀ f : SpanRecord → SpanRecord,
      s.rename t f (fun names => names) = { span := s.modify f, trace := t } := by
    intro f
    unfold Span.rename
    rw [Trace.updateRoot_id]
    simp
  cases c with
  | tag | error | spanType | event => exact (same _).symm
  | resource | operationName | service => rfl

/-! ### Ends of a span -/

/-- A way to end a span. Dropping its handle ends it as of now. -/
inductive SpanEnd where
  | now (clock : Clock)
  | at (stop : Int)
  | drop (clock : Clock)

namespace SpanEnd

/-- Ends a span. -/
def apply (e : SpanEnd) (s : Span) (t : Trace) : SpanStep :=
  match e with
  | now clock | drop clock => s.finish t clock
  | .at stop => s.finishAt t stop

/-- The duration of a span ended now. -/
def durationNow (clock : Clock) (r : Recording) : Nat :=
  match r.started with
  | some started => clock.monotonic - started
  | none => Span.elapsed r clock.wall

/-- The duration that an end gives to a span. -/
def duration (e : SpanEnd) (r : Recording) : Nat :=
  match e with
  | now clock | drop clock => durationNow clock r
  | .at stop => Span.elapsed r stop

/-- The record of a span that ends. -/
def record (e : SpanEnd) (r : Recording) : SpanRecord := { r.record with duration := e.duration r }

theorem apply_eq (e : SpanEnd) (s : Span) (t : Trace) : e.apply s t = s.finishWith t e.duration := by
  cases e <;> rfl

end SpanEnd

/-! ### Operations and runs -/

/-- What can happen to a trace. Handles are named by their place in the order of starting. -/
inductive TraceOp where
  | start (record : SpanRecord) (startTime : Option Int) (clock : Clock)
  | change (handle : Nat) (change : SpanChange)
  | finish (handle : Nat) (ending : SpanEnd)
  /-- A sampler is asked. -/
  | decide (sampler : Sampler) (now : Nat)
  /-- A policy is asked. -/
  | decideWith (policy : Target → Decision)
  /-- A user chooses a priority. -/
  | choose (priority : Priority)
  /-- The receiver of the completed trace takes its spans; nobody else may. -/
  | collect

/-- A trace with the handles of all its spans, and what was counted on the way. -/
structure TraceRun where
  trace : Trace
  /-- All handles, in the order of starting. -/
  handles : List Span := []
  /-- How often a policy or a sampler was asked. -/
  policyCalls : Nat := 0
  /-- How often the trace was reported complete. -/
  completions : Nat := 0

namespace TraceRun

/-- Does something through a handle. -/
def act (s : TraceRun) (i : Nat) (action : Span → Trace → SpanStep) : TraceRun :=
  match s.handles[i]? with
  | none => s
  | some span =>
    let step := action span s.trace
    { s with
      trace := step.trace
      handles := s.handles.set i step.span
      completions := s.completions + step.completed.toNat }

/-- Asks a policy that counts its calls. -/
def consult (s : TraceRun) (policy : Target → Decision) : TraceRun :=
  let (_, trace, policyCalls) :=
    s.trace.decideWith s.policyCalls fun calls target => (policy target, calls + 1)
  { s with trace, policyCalls }

/-- One operation. -/
def step (s : TraceRun) : TraceOp → TraceRun
  | .start record startTime clock =>
    let step := (Span.start s.trace record startTime clock).value
    { s with trace := step.trace, handles := s.handles ++ [step.span] }
  | .change i change => s.act i change.apply
  | .finish i ending => s.act i ending.apply
  | .decide sampler now => s.consult fun target => (sampler.decide now target).1
  | .decideWith policy => s.consult policy
  | .choose priority => { s with trace := (s.trace.setManualPriority priority).value }
  | .collect => if s.trace.closed then { s with trace := s.trace.takeSpans.2 } else s

/-- Where a list of operations leads from an untouched trace. -/
def after (t : Trace) (ops : List TraceOp) : TraceRun := ops.foldl step { trace := t }

@[simp] theorem after_nil (t : Trace) : after t [] = { trace := t } := rfl

theorem after_append (t : Trace) (ops later : List TraceOp) :
    after t (ops ++ later) = later.foldl step (after t ops) := by
  unfold after
  rw [List.foldl_append]

theorem after_concat (t : Trace) (ops : List TraceOp) (op : TraceOp) :
    after t (ops ++ [op]) = (after t ops).step op := by
  rw [after_append]
  rfl

/-- What holds of an untouched trace and outlasts every step holds after every run. -/
theorem after_induction {P : TraceRun → Prop} {t : Trace} (h0 : P { trace := t })
    (hs : ∀ s op, P s → P (s.step op)) (ops : List TraceOp) : P (after t ops) := by
  induction ops using List.reverseRecOn with
  | nil => exact h0
  | append_singleton ops op ih =>
    rw [after_concat]
    exact hs _ op ih

theorem after_append_of_step {P : TraceRun → Prop} (hs : ∀ s op, P s → P (s.step op)) (t : Trace)
    (ops later : List TraceOp) (h : P (after t ops)) : P (after t (ops ++ later)) := by
  induction later using List.reverseRecOn with
  | nil => rwa [List.append_nil]
  | append_singleton later op ih =>
    rw [← List.append_assoc, after_concat]
    exact hs _ op ih

/-! ### What a step does -/

theorem act_of_none {s : TraceRun} {i : Nat} (h : s.handles[i]? = none)
    (action : Span → Trace → SpanStep) : s.act i action = s := by
  unfold act
  rw [h]

theorem act_of_some {s : TraceRun} {i : Nat} {span : Span} (h : s.handles[i]? = some span)
    (action : Span → Trace → SpanStep) :
    s.act i action = { s with
      trace := (action span s.trace).trace
      handles := s.handles.set i (action span s.trace).span
      completions := s.completions + (action span s.trace).completed.toNat } := by
  unfold act
  rw [h]

theorem consult_of_some {s : TraceRun} {d : Decision} (h : s.trace.decision = some d)
    (policy : Target → Decision) : s.consult policy = s := by
  unfold consult Trace.decideWith
  rw [h]

theorem consult_of_none {s : TraceRun} (h : s.trace.decision = none) (policy : Target → Decision) :
    s.consult policy = { s with
      trace := s.trace.settle (policy s.trace.target)
      policyCalls := s.policyCalls + 1 } := by
  unfold consult Trace.decideWith
  rw [h]

theorem consult_decide (s : TraceRun) (sampler : Sampler) (now : Nat) :
    (s.step (.decide sampler now)).trace = (s.trace.decide sampler now).2.1 := by
  show (s.consult fun target => (sampler.decide now target).1).trace = _
  unfold Trace.decide
  cases h : s.trace.decision with
  | some d =>
    rw [consult_of_some h]
    unfold Trace.decideWith
    rw [h]
  | none =>
    rw [consult_of_none h]
    unfold Trace.decideWith
    rw [h]

/-! ### What an operation does to the decision and the tags -/

/-- Two states of a trace tell a peer the same about it. -/
structure SameContext (t t' : Trace) : Prop where
  traceId : t'.traceId = t.traceId
  origin : t'.origin = t.origin
  tags : t'.tags = t.tags
  decision : t'.decision = t.decision
  userKept : t'.userKept = t.userKept

theorem SameContext.refl (t : Trace) : SameContext t t := ⟨rfl, rfl, rfl, rfl, rfl⟩

theorem SameContext.priority {t t' : Trace} (h : SameContext t t') : t'.priority? = t.priority? := by
  unfold Trace.priority?
  rw [h.decision, h.userKept]

/-- What an operation can do to the decision and the tags of a run. -/
inductive ContextEffect (s s' : TraceRun) (op : TraceOp) : Prop where
  /-- A policy or a user makes the decision. -/
  | settled (d : Decision) (hnone : s.trace.decision = none) (trace : s'.trace = s.trace.settle d)
      (calls : (∀ p, op ≠ .choose p) ∧ s'.policyCalls = s.policyCalls + 1 ∨
        ∃ p, op = .choose p ∧ d = .manual p ∧ s'.policyCalls = s.policyCalls)
  /-- A user overrides an automatic decision. -/
  | overridden (d : Decision) (hop : op = .choose .userKeep) (hsome : s.trace.decision = some d)
      (hauto : d.priority.isUser = false)
      (trace : s'.trace = { s.trace.recordDecisionMaker (.manual .userKeep) with userKept := true })
      (policyCalls : s'.policyCalls = s.policyCalls)
  | quiet (hop : ∀ p, op = .choose p → s.trace.decision.isSome = true) (same : SameContext s.trace s'.trace)
      (policyCalls : s'.policyCalls = s.policyCalls)

theorem context_consult (s : TraceRun) {op : TraceOp} (hop : ∀ p, op ≠ .choose p)
    (policy : Target → Decision) : ContextEffect s (s.consult policy) op := by
  cases h : s.trace.decision with
  | some d =>
    rw [consult_of_some h]
    exact .quiet (fun p hp => absurd hp (hop p)) (.refl _) rfl
  | none =>
    rw [consult_of_none h]
    exact .settled _ h rfl (.inl ⟨hop, rfl⟩)

theorem context_choose (s : TraceRun) (p : Priority) :
    ContextEffect s (s.step (.choose p)) (.choose p) := by
  show ContextEffect s { s with trace := (s.trace.setManualPriority p).value } (.choose p)
  unfold Trace.setManualPriority
  cases h : s.trace.decision with
  | none => exact .settled _ h rfl (.inr ⟨p, rfl, rfl, rfl⟩)
  | some d =>
    simp only
    split
    · next hp =>
      obtain ⟨rfl, hauto⟩ := hp
      exact .overridden d rfl h hauto rfl rfl
    · exact .quiet (fun _ _ => by rw [h]; rfl) (.refl _) rfl

theorem context_act (s : TraceRun) (i : Nat) {action : Span → Trace → SpanStep}
    (h : ∀ span t, SameContext t (action span t).trace) {op : TraceOp} (hop : ∀ p, op ≠ .choose p) :
    ContextEffect s (s.act i action) op := by
  cases hspan : s.handles[i]? with
  | none =>
    rw [act_of_none hspan]
    exact .quiet (fun p hp => absurd hp (hop p)) (.refl _) rfl
  | some span =>
    rw [act_of_some hspan]
    exact .quiet (fun p hp => absurd hp (hop p)) (h span s.trace) rfl

theorem sameContext_change (c : SpanChange) (span : Span) (t : Trace) :
    SameContext t (c.apply span t).trace := by
  rw [SpanChange.apply_eq]
  unfold Span.rename Trace.updateRoot
  simp only
  split
  · split <;> exact ⟨rfl, rfl, rfl, rfl, rfl⟩
  · exact .refl t

theorem sameContext_end (e : SpanEnd) (span : Span) (t : Trace) : SameContext t (e.apply span t).trace := by
  rw [SpanEnd.apply_eq]
  unfold Span.finishWith
  split
  · exact .refl t
  · unfold Trace.closeSpan
    simp only
    split <;> exact ⟨rfl, rfl, rfl, rfl, rfl⟩

/-- **What one operation does to the decision and the tags.** -/
theorem context_effect (s : TraceRun) (op : TraceOp) : ContextEffect s (s.step op) op := by
  cases op with
  | start record startTime clock =>
    have same : SameContext s.trace (Span.start s.trace record startTime clock).value.trace := by
      cases hclosed : s.trace.closed <;> constructor <;> simp [Span.start, Trace.openSpan, hclosed]
    exact .quiet (by simp) same rfl
  | change i c => exact context_act s i (sameContext_change c) (by simp)
  | finish i ending => exact context_act s i (sameContext_end ending) (by simp)
  | decide sampler now => exact context_consult s (by simp) fun target => (sampler.decide now target).1
  | decideWith policy => exact context_consult s (by simp) policy
  | choose p => exact context_choose s p
  | collect =>
    show ContextEffect s (if s.trace.closed then { s with trace := s.trace.takeSpans.2 } else s) _
    split <;> exact .quiet (by simp) ⟨rfl, rfl, rfl, rfl, rfl⟩ rfl

theorem recordDecisionMaker_eq (t : Trace) (d : Decision) :
    t.recordDecisionMaker d = { t with tags := (t.recordDecisionMaker d).tags } := by
  unfold Trace.recordDecisionMaker
  split <;> rfl

end TraceRun

/-! ### Untouched traces -/

/-- A trace that nobody has touched: a fresh one, or one continued from headers. -/
inductive Trace.Untouched : Trace → Prop where
  | fresh (id : TraceId) : Untouched (.new id)
  | continued {context : Extracted} {t : Trace} (h : Trace.ofExtracted? context = some t) : Untouched t

theorem Trace.ofExtracted?_eq_some {context : Extracted} {t : Trace}
    (h : Trace.ofExtracted? context = some t) :
    t = { traceId := context.traceId, origin := context.origin, tags := context.tags
          decision := context.priority.map fun priority =>
            { priority, mechanism := Trace.mechanismOfTags context.tags } } := by
  unfold Trace.ofExtracted? at h
  split at h
  · exact (Option.some.inj h).symm
  · cases h

theorem Trace.Untouched.fields {t : Trace} (h : t.Untouched) :
    t.openSpans = 0 ∧ t.closed = false ∧ t.slots = [] ∧ t.root = none ∧ t.userKept = false := by
  cases h with
  | fresh id => exact ⟨rfl, rfl, rfl, rfl, rfl⟩
  | continued h =>
    rw [Trace.ofExtracted?_eq_some h]
    exact ⟨rfl, rfl, rfl, rfl, rfl⟩

end Tracing
