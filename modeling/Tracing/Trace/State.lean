import Tracing.Log
import Tracing.Propagation.Context
import Tracing.Sampling.Decision
import Tracing.Span.Record
import Tracing.Text.Quoted

/-!
# The state of a trace

All spans of a trace in one process share its state: the propagated tags, the sampling decision, the names
of the root span, and the spans themselves. A decision is made once; after that only a user's keep can
still override an automatic one. When the last open span ends, the trace is closed for good and its spans
are handed over.
-/

namespace Tracing

open Text

/-- The names of the root span. -/
structure RootNames where
  service : String := ""
  operation : String := ""
  resource : String := ""
deriving DecidableEq, Inhabited

/-- A trace as this process knows it. -/
structure Trace where
  traceId : TraceId
  origin : Option String
  tags : Dict String
  decision : Option Decision := none
  /-- A user's keep over an automatic decision. -/
  userKept : Bool := false
  /-- Spans started and not yet finished. -/
  openSpans : Nat := 0
  closed : Bool := false
  /-- One slot for each span started, in the order of starting; filled when the span finishes. -/
  slots : List (Option SpanRecord) := []
  root : Option RootNames := none
deriving Inhabited

namespace Trace

/-- A fresh trace. -/
def new (traceId : TraceId) : Trace := { traceId, origin := none, tags := ∅ }

/-- The mechanism that propagated tags name. -/
def mechanismOfTags (tags : Dict String) : Option Mechanism :=
  (tags.get? decisionMakerTag).bind fun dm => Mechanism.ofTag? dm.toList

/-- Continues a trace from headers; nothing if they name no trace. A priority they carry is the
decision. -/
def ofExtracted? (e : Extracted) : Option Trace :=
  if e.isValid then
    some {
      traceId := e.traceId
      origin := e.origin
      tags := e.tags
      decision := e.priority.map fun priority =>
        { priority, mechanism := mechanismOfTags e.tags } }
  else none

/-! ### Spans -/

/-- Gives a starting span a slot; none once the trace is closed. The first span is the root. -/
def openSpan (t : Trace) (names : RootNames) : Logged (Option Nat × Trace) :=
  if t.closed then do
    log .debug ("Trace " ++ toString t.traceId ++ " already completed, span will not be recorded")
    return (none, t)
  else
    let slot := t.slots.length
    return (some slot,
      { t with
        openSpans := t.openSpans + 1
        slots := t.slots ++ [none]
        root := if slot = 0 then some names else t.root })

/-- Fills the slot of a finished span; tells whether that completed the trace. -/
def closeSpan (t : Trace) (slot : Nat) (record : SpanRecord) : Trace × Bool :=
  let filled := { t with slots := t.slots.set slot (some record) }
  match t.openSpans with
  | 0 => (filled, false)
  | 1 => ({ filled with openSpans := 0, closed := true }, true)
  | n + 2 => ({ filled with openSpans := n + 1 }, false)

/-- Changes the names of the root span as long as nothing is decided. -/
def updateRoot (t : Trace) (update : RootNames → RootNames) : Trace :=
  if t.decision.isSome then t else { t with root := t.root.map update }

/-- Takes the finished spans out, in the order of starting. -/
def takeSpans (t : Trace) : List SpanRecord × Trace :=
  (t.slots.filterMap id, { t with slots := [] })

/-! ### Sampling -/

/-- The priority in force, if there is one. -/
def priority? (t : Trace) : Option Priority :=
  if t.userKept then some .userKeep else t.decision.map Decision.priority

/-- The mechanism behind the priority in force. -/
def mechanism? (t : Trace) : Option Mechanism :=
  if t.userKept then some .manual else t.decision.bind Decision.mechanism

/-- The decision in force; a user's override has no rates. -/
def effectiveDecision (t : Trace) : Option Decision :=
  t.decision.map fun d => if t.userKept then .manual .userKeep else d

/-- What a policy sees of the trace. -/
def target (t : Trace) : Target :=
  let names := t.root.getD {}
  { traceId := t.traceId, service := names.service, operation := names.operation
    resource := names.resource }

/-- Makes the decision-maker tag agree with a decision: the mechanism of a keep, else nothing. -/
def recordDecisionMaker (t : Trace) (d : Decision) : Trace :=
  match d.mechanism, d.priority.isKeep with
  | some mechanism, true =>
    { t with tags := t.tags.insert decisionMakerTag (String.ofList mechanism.toTag) }
  | _, _ => { t with tags := t.tags.erase decisionMakerTag }

/-- Stores a decision. -/
def settle (t : Trace) (d : Decision) : Trace :=
  { t.recordDecisionMaker d with decision := some d }

/-- The priority of the trace. The policy is asked, with its own state, only if nothing was decided. -/
def decideWith {σ : Type} (t : Trace) (state : σ) (policy : σ → Target → Decision × σ) :
    Priority × Trace × σ :=
  match t.decision with
  | some d => (if t.userKept then .userKeep else d.priority, t, state)
  | none =>
    let (d, state) := policy state t.target
    (if t.userKept then .userKeep else d.priority, t.settle d, state)

/-- Applies a priority chosen by a user: as the decision if there is none, and else only a keep over an
automatic decision. -/
def setManualPriority (t : Trace) (p : Priority) : Logged Trace :=
  match t.decision with
  | none => return t.settle (.manual p)
  | some current =>
    if p = .userKeep ∧ current.priority.isUser = false then
      return { t.recordDecisionMaker (.manual p) with userKept := true }
    else do
      log .debug ("Ignoring manual sampling priority " ++ toString p ++ " over existing "
        ++ toString current.priority)
      return t

/-! ### Views -/

/-- What one of its spans writes into outgoing headers. -/
def outgoing (t : Trace) (traceId : TraceId) (spanId : SpanId) (parentId : Option SpanId)
    (origin : Option String) : Outgoing :=
  { traceId, spanId, parentId, origin, priority := t.priority?, tags := t.tags }

def debugTraceId (id : TraceId) : String := "TraceId(" ++ toString id.toNat ++ ")"

def debugBool (b : Bool) : String := if b then "true" else "false"

def debugText (t : Trace) : String :=
  "TraceContext \x7b trace_id: " ++ debugTraceId t.traceId
    ++ ", origin: " ++ Decision.debugOption quoted t.origin
    ++ ", open_spans: " ++ toString t.openSpans
    ++ ", closed: " ++ debugBool t.closed
    ++ ", decision: " ++ Decision.debugOption Decision.debugText t.decision ++ ", .. \x7d"

end Trace

end Tracing
