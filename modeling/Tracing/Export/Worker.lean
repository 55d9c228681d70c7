import Tracing.Export.Exporter

/-!
# The flush worker

The worker sends what is pending whenever a tick is due, enough traces are pending, or it is told to stop;
it retries transient failures with growing pauses. It advances in small steps (`step?`) that take no time;
`settle` runs it until it has to wait.
-/

namespace Tracing

/-- The pause after the first failed attempt, in milliseconds. -/
def firstBackoff : Nat := 100

/-- The longest pause between attempts. -/
def maxBackoff : Nat := 1600

/-- How late a tick may be noticed without moving the later ones, in nanoseconds. -/
def tickTolerance : Nat := 5 * millisecond

namespace Exporter

/-- The time in nanoseconds. -/
def nanos (e : Exporter) : Nat := e.now * millisecond

/-! ### Receiving -/

/-- Packs the trace at the front of the queue. -/
def pack (e : Exporter) (trace : List SpanRecord) (rest : List (List SpanRecord)) : Logged Exporter := do
  let (dropped, packer) ← e.packer.add trace
  return { e with
    queue := rest
    packer
    stats := { e.stats with exportFailures := e.stats.exportFailures + dropped } }

/-- Packs a trace and begins a flush if enough are pending. -/
def receive (e : Exporter) (trace : List SpanRecord) (rest : List (List SpanRecord)) :
    Logged Exporter := do
  let e ← e.pack trace rest
  if e.limits.threshold ≤ e.packer.pendingTraces then do
    log .debug "TRACES | Flush threshold reached"
    return { e with phase := .flushing .threshold }
  else return e

/-- Closes the queue for good. -/
def close (e : Exporter) : Exporter := { e with closed := true, phase := .draining }

/-- When the tick after the present one is due. -/
def nextDue (e : Exporter) : Nat :=
  if e.due + tickTolerance < e.nanos then e.nanos + e.limits.interval else e.due + e.limits.interval

/-- Looks in order for a request to stop, a trace, the end of all producers, and a due tick. -/
def poll? (e : Exporter) : Option (Logged Exporter) :=
  if e.cancelled then some (pure e.close)
  else match e.queue with
    | trace :: rest => some (e.receive trace rest)
    | [] =>
      if !e.hasProducers then some (pure e.close)
      else if e.due ≤ e.nanos then
        some (pure { e with due := e.nextDue, phase := .flushing .tick })
      else none

/-- Takes one of the last traces out of a closed queue. -/
def drain (e : Exporter) : Logged Exporter :=
  match e.queue with
  | trace :: rest => e.pack trace rest
  | [] => pure { e with phase := .flushing .closing }

/-! ### Sending -/

/-- Goes on after a flush. -/
def resume (e : Exporter) : Trigger → Logged Exporter
  | .threshold => pure { e with due := e.nanos + e.limits.interval, phase := .waiting }
  | .tick => pure { e with phase := .waiting }
  | .closing => do
    log .debug "TRACES | Exporter stopped"
    return { e with phase := .stopped }

/-- Takes the next payload, or ends the flush. -/
def flush (e : Exporter) (trigger : Trigger) : Logged Exporter :=
  match e.packer.nextPayload with
  | some (payload, packer) =>
    pure { e with packer, phase := .sending trigger payload 0 firstBackoff }
  | none => e.resume trigger

/-- Counts a delivered payload. -/
def deliver (e : Exporter) (trigger : Trigger) (payload : Payload) : Logged Exporter := do
  log .debug ("TRACES | Sent " ++ toString payload.spanCount ++ " spans in "
    ++ toString payload.size ++ " bytes")
  return { e with
    phase := .flushing trigger
    stats := { e.stats with
      payloadsSent := e.stats.payloadsSent + 1
      tracesSent := e.stats.tracesSent + payload.traceCount } }

/-- Drops a payload after a number of failed attempts. -/
def giveUp (e : Exporter) (trigger : Trigger) (payload : Payload) (failed : Nat)
    (failure : SendFailure) : Logged Exporter := do
  log .error ("TRACES | Dropping payload with " ++ toString payload.spanCount ++ " spans after "
    ++ toString failed ++ " attempts: " ++ failure.message)
  return { e with
    phase := .flushing trigger
    stats := { e.stats with exportFailures := e.stats.exportFailures + 1 } }

/-- Pauses after a number of failed attempts. -/
def backOff (e : Exporter) (trigger : Trigger) (payload : Payload) (failed backoff : Nat)
    (failure : SendFailure) : Logged Exporter := do
  log .debug ("TRACES | Attempt " ++ toString failed ++ " failed: " ++ failure.message
    ++ ", retrying in " ++ toString backoff ++ " ms")
  return { e with
    phase := .pausing trigger payload failed (min (backoff * 2) maxBackoff) (e.now + backoff) }

/-- Writes down an attempt made now. -/
def record (e : Exporter) (payload : Payload) (failed : Nat) (reply : Reply) : Exporter :=
  { e with attempts := e.attempts ++ [{ time := e.now, payload, failed, reply }] }

/-- Makes an attempt to send a payload. -/
def attempt (e : Exporter) (transport : Transport) (trigger : Trigger) (payload : Payload)
    (failed backoff : Nat) : Logged Exporter :=
  let reply := transport.reply e.attempts.length
  let e := e.record payload failed reply
  match reply with
  | .accepted => e.deliver trigger payload
  | .silence => pure { e with phase := .hanging }
  | .failed failure =>
    if failure.isPermanent || e.limits.retries ≤ failed + 1 then
      e.giveUp trigger payload (failed + 1) failure
    else e.backOff trigger payload (failed + 1) backoff failure

/-! ### Running -/

/-- Begins to count ticks from now on. -/
def begin (e : Exporter) : Logged Exporter := do
  log .debug "TRACES | Exporter started"
  return { e with due := e.nanos + e.limits.interval, phase := .waiting }

/-- The next thing that the worker can do without waiting. -/
def step? (transport : Transport) (e : Exporter) : Option (Logged Exporter) :=
  if e.aborting then some (pure e.discard)
  else match e.phase with
    | .starting => some e.begin
    | .waiting => e.poll?
    | .draining => some e.drain
    | .flushing trigger => some (e.flush trigger)
    | .sending trigger payload failed backoff =>
      some (e.attempt transport trigger payload failed backoff)
    | .pausing trigger payload failed backoff wake =>
      if wake ≤ e.now then some (pure { e with phase := .sending trigger payload failed backoff })
      else none
    | .idle | .hanging | .stopped | .gone => none

/-- Makes at most `fuel` steps, as long as the worker need not wait. -/
def run (transport : Transport) : (fuel : Nat) → Logged Exporter → Logged Exporter
  | 0, state => state
  | fuel + 1, state =>
    match state.value.step? transport with
    | some next => run transport fuel (state >>= fun _ => next)
    | none => state

/-- More steps than the worker can make without waiting: every trace is received once, every span
is packed and sent once, and a few ticks may be due at the same time. -/
def stepBound (e : Exporter) : Nat :=
  32 + 4 * (e.queue.length + e.queue.flatten.length + e.packer.queue.length)

/-- Runs the worker until it has to wait. -/
def settle (transport : Transport) (e : Exporter) : Logged Exporter :=
  run transport e.stepBound (pure e)

end Exporter

end Tracing
