import Tracing.Trace.State

/-!
# Span handles

A handle records into its own copy of the span until it is finished, and then hands the record to its
trace. The handle of a span started on a closed trace is detached: it records nothing. Operations take and
give back the trace they work on.
-/

namespace Tracing

open Text

/-- The time, on the wall and since some arbitrary instant, in nanoseconds. -/
structure Clock where
  wall : Int
  monotonic : Nat
deriving DecidableEq, Repr, Inhabited

/-- The identity of a span. -/
structure SpanContext where
  traceId : TraceId
  spanId : SpanId
  parentId : Option SpanId
  origin : Option String
deriving DecidableEq, Inhabited

/-- A span that is being recorded. -/
structure Recording where
  slot : Nat
  record : SpanRecord
  /-- When it started; absent if the caller gave the time. -/
  started : Option Nat
deriving Inhabited

structure Span where
  context : SpanContext
  recording : Option Recording
deriving Inhabited

/-- What an operation on a handle leaves behind. -/
structure SpanStep where
  span : Span
  trace : Trace
  /-- Whether the operation completed the trace. -/
  completed : Bool := false
deriving Inhabited

namespace Span

/-- Starts a span on a trace. Without a given time it starts now. -/
def start (t : Trace) (record : SpanRecord) (startTime : Option Int) (clock : Clock) :
    Logged SpanStep := do
  let context : SpanContext :=
    { traceId := t.traceId, spanId := record.spanId, parentId := record.parentId, origin := t.origin }
  let (slot, t) ← t.openSpan
    { service := record.service, operation := record.name, resource := record.resource }
  let record := { record with start := startTime.getD clock.wall }
  let started := if startTime.isSome then none else some clock.monotonic
  return { span := { context, recording := slot.map fun slot => { slot, record, started } }, trace := t }

def isRecording (s : Span) : Bool := s.recording.isSome

/-- Whether the handle records the first span of its trace. -/
def isRoot (s : Span) : Bool := s.recording.any (·.slot == 0)

/-- Changes the record if the handle still records. -/
def modify (s : Span) (f : SpanRecord → SpanRecord) : Span :=
  { s with recording := s.recording.map fun r => { r with record := f r.record } }

def setTag (s : Span) (key : String) (value : TagValue) : Span := s.modify (·.setTag key value)

def setError (s : Span) (error : Bool) : Span := s.modify fun r => { r with error }

def setSpanType (s : Span) (spanType : String) : Span :=
  s.modify fun r => { r with spanType := some spanType }

/-- Records an event. -/
def annotate (s : Span) (clock : Clock) (event : String) : Span :=
  s.modify fun r => { r with annotations := r.annotations ++ [(clock.wall, event)] }

/-- Changes a name in the record and, for the root span, in the trace. -/
def rename (s : Span) (t : Trace) (inRecord : SpanRecord → SpanRecord)
    (inRoot : RootNames → RootNames) : SpanStep :=
  { span := s.modify inRecord, trace := if s.isRoot then t.updateRoot inRoot else t }

def setResource (s : Span) (t : Trace) (resource : String) : SpanStep :=
  s.rename t (fun r => { r with resource }) fun names => { names with resource }

def setOperationName (s : Span) (t : Trace) (name : String) : SpanStep :=
  s.rename t (fun r => { r with name }) fun names => { names with operation := name }

def setService (s : Span) (t : Trace) (service : String) : SpanStep :=
  s.rename t (fun r => { r with service }) fun names => { names with service }

/-- Hands the record with its duration to the trace. -/
def finishWith (s : Span) (t : Trace) (duration : Recording → Nat) : SpanStep :=
  match s.recording with
  | none => { span := s, trace := t }
  | some r =>
    let (trace, completed) := t.closeSpan r.slot { r.record with duration := duration r }
    { span := { s with recording := none }, trace, completed }

/-- The time from the start of a span to `stop`; zero if that is earlier. -/
def elapsed (r : Recording) (stop : Int) : Nat := (stop - r.record.start).toNat

def finish (s : Span) (t : Trace) (clock : Clock) : SpanStep :=
  s.finishWith t fun r => match r.started with
    | some started => clock.monotonic - started
    | none => elapsed r clock.wall

def finishAt (s : Span) (t : Trace) (stop : Int) : SpanStep :=
  s.finishWith t fun r => elapsed r stop

def debugSpanId (id : SpanId) : String := "SpanId(" ++ toString id.toNat ++ ")"

def debugText (s : Span) : String :=
  "Span \x7b context: SpanContext \x7b trace_id: " ++ Trace.debugTraceId s.context.traceId
    ++ ", span_id: " ++ debugSpanId s.context.spanId
    ++ ", parent_id: " ++ Decision.debugOption debugSpanId s.context.parentId
    ++ ", origin: " ++ Decision.debugOption quoted s.context.origin
    ++ ", .. \x7d, recording: " ++ Trace.debugBool s.isRecording ++ " \x7d"

end Span

end Tracing
