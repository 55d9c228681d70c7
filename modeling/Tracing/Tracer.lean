import Tracing.Export.Endpoint
import Tracing.Export.Timing
import Tracing.Propagation.Composite
import Tracing.Span.Handle
import Tracing.Trace.Completion

/-!
# The tracer

The entry point for an application: it starts spans, decides about the traces they complete, hands the kept
ones to the exporter, and stops the exporter in the end. It holds all traces that were started; a handle
names its trace by place.
-/

namespace Tracing

/-- A span handle together with the place of its trace. -/
structure ActiveSpan where
  trace : Nat
  span : Span
deriving Inhabited

/-- What a span continues. -/
inductive Parent where
  /-- Nothing: the span starts a fresh trace. -/
  | root
  | span (parent : ActiveSpan)
  /-- A context from headers; a fresh trace is started if it names none. -/
  | extracted (context : Extracted)
deriving Inhabited

/-- How a span is to be started. -/
structure SpanOptions where
  operation : String
  /-- Without one it is the configured service. -/
  service : Option String := none
  /-- Without one it is the operation. -/
  resource : Option String := none
  parent : Parent := .root
  startTime : Option Int := none
  tags : List (String × TagValue) := []
deriving Inhabited

/-- Random numbers for the ids of a trace and of a span. -/
structure Draw where
  trace : Nat
  span : Nat
deriving Inhabited

structure Tracer where
  config : Config
  propagator : Propagator
  sampler : Sampler
  transport : Transport
  exporter : Exporter
  /-- Whether the worker is still the tracer's to discard. -/
  hasWorker : Bool := true
  traces : List Trace := []

/-- Why there is no tracer. -/
inductive BuildFailure where
  | refused (error : TracerError)
  /-- No queue of that size can be made. -/
  | queueTooLarge
deriving DecidableEq, Repr

def envTag : String := "env"

def versionTag : String := "version"

namespace Tracer

/-! ### Building -/

/-- A tracer that sends over a transport and leaves patterns to an engine. Its worker needs something to run on. -/
def build (engine : PatternEngine) (config : Config) (transport : Transport) (hasRuntime : Bool) (clock : Clock) :
    Logged (Except BuildFailure Tracer) :=
  if !hasRuntime then pure (.error (.refused .noRuntime))
  else if config.queueCapacity = 0 then
    pure (.error (.refused (.invalidConfig "trace_queue_capacity must be greater than zero")))
  else do
    let sampler ← Sampler.build engine clock.monotonic config
    match Exporter.ofConfig? config with
    | none => return .error .queueTooLarge
    | some exporter =>
      log .debug ("Tracer started for service " ++ config.service ++ " exporting to "
        ++ config.endpointUrl)
      return .ok {
        config
        propagator := .ofStyles config.style config.styleExtract config.styleInject
        sampler, transport
        exporter := exporter.start }

/-- A tracer that sends over a transport. -/
def new (config : Config) (transport : Transport) (hasRuntime : Bool) (clock : Clock) :
    Logged (Except BuildFailure Tracer) :=
  build .builtin config transport hasRuntime clock

/-- A tracer that sends to the configured endpoint; `connect` makes the transport for its address. -/
def overHttp (config : Config) (connect : Url → Transport) (hasRuntime : Bool) (clock : Clock) :
    Logged (Except BuildFailure Tracer) :=
  match readEndpoint config.endpointUrl with
  | .error e => pure (.error (.refused e))
  | .ok url => new config (connect url) hasRuntime clock

/-! ### Completed traces -/

/-- Hands on what a completed trace came to. -/
def handOn (t : Tracer) (outcome : Trace.Outcome) : Logged Tracer :=
  match outcome with
  | .rejected => pure { t with exporter := t.exporter.recordDroppedBySample }
  | .empty => pure t
  | .kept spans => do
    let (_, exporter) ← t.exporter.enqueue spans
    return { t with exporter }

/-- Puts a changed trace in its place. -/
def store (t : Tracer) (i : Nat) (trace : Trace) : Tracer := { t with traces := t.traces.set i trace }

/-- Puts a trace in its place after a step of one of its spans; a completed trace is decided about and
handed on. -/
def absorb (t : Tracer) (i : Nat) (step : SpanStep) (clock : Clock) : Logged Tracer :=
  if step.completed then do
    let (outcome, trace, sampler) ← step.trace.complete t.sampler clock.monotonic
    handOn ({ t with sampler }.store i trace) outcome
  else pure (t.store i step.trace)

/-! ### Spans -/

/-- Starts a trace. -/
def addTrace (t : Tracer) (trace : Trace) : Nat × Tracer :=
  (t.traces.length, { t with traces := t.traces ++ [trace] })

/-- Starts a trace with a fresh id. -/
def addFreshTrace (t : Tracer) (random : Nat) (clock : Clock) : Nat × Tracer :=
  t.addTrace (.new (.fresh t.config.wideTraceIds (clock.wall / second) random))

/-- The trace for a span with a given parent, and the id of that parent. -/
def traceFor (t : Tracer) (parent : Parent) (random : Nat) (clock : Clock) :
    Nat × Option SpanId × Tracer :=
  match parent with
  | .root =>
    let (i, t) := t.addFreshTrace random clock
    (i, none, t)
  | .span parent => (parent.trace, some parent.span.context.spanId, t)
  | .extracted context =>
    match Trace.ofExtracted? context with
    | some trace =>
      let (i, t) := t.addTrace trace
      (i, if context.parentSpanId.isZero then none else some context.parentSpanId, t)
    | none =>
      let (i, t) := t.addFreshTrace random clock
      (i, none, t)

/-- The tags that the configuration gives to every span. -/
def configuredTags (c : Config) : List (String × TagValue) :=
  (c.env.map fun env => (envTag, TagValue.text env)).toList
    ++ (c.version.map fun version => (versionTag, TagValue.text version)).toList

/-- The record of a span that starts. -/
def newRecord (c : Config) (o : SpanOptions) (traceId : TraceId) (spanId : SpanId)
    (parentId : Option SpanId) (clock : Clock) : SpanRecord :=
  let record := SpanRecord.new traceId spanId parentId o.operation (o.service.getD c.service) clock.wall
  { record with resource := o.resource.getD record.resource }.setTags (configuredTags c ++ o.tags)

/-- Starts a span. -/
def start (t : Tracer) (o : SpanOptions) (draw : Draw) (clock : Clock) :
    Logged (ActiveSpan × Tracer) := do
  let (i, parentId, t) := t.traceFor o.parent draw.trace clock
  let trace := t.traces[i]?.getD default
  let record := newRecord t.config o trace.traceId (.fresh draw.span) parentId clock
  let step ← Span.start trace record o.startTime clock
  return ({ trace := i, span := step.span }, t.store i step.trace)

/-- The trace of a handle. -/
def traceOf (t : Tracer) (s : ActiveSpan) : Trace := t.traces[s.trace]?.getD default

/-- Does something with a handle and its trace. -/
def perform (t : Tracer) (s : ActiveSpan) (action : Span → Trace → SpanStep) (clock : Clock) :
    Logged (ActiveSpan × Tracer) := do
  let step := action s.span (t.traceOf s)
  let t ← t.absorb s.trace step clock
  return ({ s with span := step.span }, t)

def finish (t : Tracer) (s : ActiveSpan) (clock : Clock) : Logged (ActiveSpan × Tracer) :=
  t.perform s (fun span trace => span.finish trace clock) clock

def finishAt (t : Tracer) (s : ActiveSpan) (stop : Int) (clock : Clock) : Logged (ActiveSpan × Tracer) :=
  t.perform s (fun span trace => span.finishAt trace stop) clock

/-! ### Sampling -/

/-- Decides about the trace of a span now. -/
def decide (t : Tracer) (s : ActiveSpan) (clock : Clock) : Priority × Tracer :=
  let (priority, trace, sampler) := (t.traceOf s).decide t.sampler clock.monotonic
  (priority, { t with sampler }.store s.trace trace)

/-- Decides about the trace of a span by a policy with its own state. -/
def decideWith {σ : Type} (t : Tracer) (s : ActiveSpan) (state : σ)
    (policy : σ → Target → Decision × σ) : Priority × σ × Tracer :=
  let (priority, trace, state) := (t.traceOf s).decideWith state policy
  (priority, state, t.store s.trace trace)

/-- Applies a priority chosen by a user to the trace of a span. -/
def setManualPriority (t : Tracer) (s : ActiveSpan) (p : Priority) : Logged Tracer := do
  let trace ← (t.traceOf s).setManualPriority p
  return t.store s.trace trace

/-- Replaces the rates that the agent gave. -/
def setAgentRates (t : Tracer) (rates : List (String × Float)) : Tracer :=
  { t with sampler := t.sampler.setAgentRates rates }

/-! ### Propagation -/

/-- Reads a context from headers. -/
def extract (t : Tracer) (carrier : Carrier) : Logged (Option Extracted) := t.propagator.extract carrier

/-- Writes the context of a span into headers. -/
def inject (t : Tracer) (s : ActiveSpan) (carrier : Carrier) : Logged Carrier :=
  let c := s.span.context
  t.propagator.inject ((t.traceOf s).outgoing c.traceId c.spanId c.parentId c.origin) carrier

/-! ### Exporting -/

def stats (t : Tracer) : Stats := t.exporter.stats

/-- Lets the worker run for some milliseconds. -/
def sleep (t : Tracer) (millis : Nat) : Logged Tracer := do
  let exporter ← t.exporter.sleep t.transport millis
  return { t with exporter }

/-- Flushes what is queued and stops the worker; one that does not stop in time is discarded. -/
def shutdown (t : Tracer) : Logged (Except TracerError Unit × Tracer) := do
  let (result, exporter) ← t.exporter.shutdown t.transport t.config.shutdownTimeout
  let stopped := { t with exporter, hasWorker := false }
  match result with
  | .ok () => return (.ok (), stopped)
  | .error e =>
    if t.hasWorker then do
      log .warn "Aborting trace flush worker"
      return (.error e, { stopped with exporter := exporter.abort })
    else return (.error e, stopped)

end Tracer

end Tracing
