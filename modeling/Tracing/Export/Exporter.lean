import Tracing.Config.Basic
import Tracing.Export.Delivery
import Tracing.Payload.Packer

/-!
# The exporter

Producers put completed traces into a bounded queue and never wait: a trace that finds the queue full or
closed is dropped and counted. A single worker takes traces out, packs them into payloads and sends these.
This module has the state of both and what producers do; the worker is next door.
-/

namespace Tracing

/-- How much the exporter takes, and when it sends. -/
structure ExportLimits where
  /-- Traces that the queue holds. -/
  capacity : Nat
  /-- Nanoseconds between flushes. -/
  interval : Nat
  /-- Pending traces that trigger a flush. -/
  threshold : Nat
  /-- Attempts per payload. -/
  retries : Nat
deriving DecidableEq, Repr, Inhabited

/-- A millisecond in nanoseconds. -/
def millisecond : Nat := 1000000

/-- The limits of a configuration, none of them zero. -/
def ExportLimits.ofConfig (c : Config) : ExportLimits where
  capacity := max c.queueCapacity 1
  interval := max c.flushInterval millisecond
  threshold := max c.flushThreshold 1
  retries := max c.sendRetries 1

/-- What the exporter has counted. -/
structure Stats where
  /-- Traces that the queue refused. -/
  droppedQueueFull : Nat := 0
  /-- Completed traces that sampling rejected. -/
  droppedBySample : Nat := 0
  /-- Payloads given up on, and spans too large for any payload. -/
  exportFailures : Nat := 0
  tracesSent : Nat := 0
  payloadsSent : Nat := 0
deriving DecidableEq, Repr, Inhabited

/-- One attempt to send a payload. -/
structure Attempt where
  /-- When it was made. -/
  time : Nat
  payload : Payload
  /-- Attempts with the same payload that failed before. -/
  failed : Nat
  reply : Reply
deriving DecidableEq

/-- What made the worker flush. -/
inductive Trigger where
  | threshold | tick | closing
deriving DecidableEq, Repr, Inhabited

/-- What the worker is about to do. -/
inductive Phase where
  /-- It was not started. -/
  | idle
  | starting
  /-- It waits for a trace, a tick or the end. -/
  | waiting
  /-- The queue is closed and the worker takes out what is left. -/
  | draining
  | flushing (trigger : Trigger)
  /-- It sends a payload after some failed attempts; the backoff is for the next failure. -/
  | sending (trigger : Trigger) (payload : Payload) (failed backoff : Nat)
  /-- It waits to send a payload again. -/
  | pausing (trigger : Trigger) (payload : Payload) (failed backoff wake : Nat)
  /-- It waits for a reply that never comes. -/
  | hanging
  | stopped
  /-- It was discarded before it stopped. -/
  | gone
deriving DecidableEq, Inhabited

/-- The exporter; times are milliseconds since it was made unless they say otherwise. -/
structure Exporter where
  limits : ExportLimits
  now : Nat := 0
  /-- Accepted traces, the oldest first. -/
  queue : List (List SpanRecord) := []
  closed : Bool := false
  /-- Whether there is anyone left to put traces in. -/
  hasProducers : Bool := true
  /-- Whether the worker was asked to stop. -/
  cancelled : Bool := false
  /-- Whether the worker is discarded as soon as it gets to run. -/
  aborting : Bool := false
  packer : Packer
  phase : Phase := .idle
  /-- When the next tick is due, in nanoseconds. -/
  due : Nat := 0
  stats : Stats := {}
  /-- All attempts so far, the oldest first. -/
  attempts : List Attempt := []
deriving Inhabited

namespace Exporter

/-- The largest queue that can be made. -/
def maxCapacity : Nat := (1 <<< 61) - 1

/-- The exporter for a configuration; nothing if its queue would be too large to make. -/
def ofConfig? (c : Config) : Option Exporter :=
  let limits := ExportLimits.ofConfig c
  if limits.capacity ≤ maxCapacity then
    some { limits, packer := { maxBytes := c.maxPayloadBytes, maxValueLength := c.maxValueLength } }
  else none

/-- Whether the worker has stopped after its last flush. -/
def isFinished (e : Exporter) : Bool := e.phase == .stopped

/-- Whether the worker will never do anything again. -/
def isOver (e : Exporter) : Bool := e.phase == .stopped || e.phase == .gone

/-! ### Producers -/

/-- Drops a trace. The first time is worth a warning. -/
def refuse (e : Exporter) (reason : String) : Logged (Bool × Exporter) := do
  log (if e.stats.droppedQueueFull = 0 then .warn else .debug) ("TRACES | Dropping trace, " ++ reason)
  return (false,
    { e with stats := { e.stats with droppedQueueFull := e.stats.droppedQueueFull + 1 } })

/-- Puts a trace into the queue; tells whether it was accepted. -/
def enqueue (e : Exporter) (trace : List SpanRecord) : Logged (Bool × Exporter) :=
  if e.closed then e.refuse "exporter shut down"
  else if e.queue.length < e.limits.capacity then
    return (true, { e with queue := e.queue ++ [trace] })
  else e.refuse "queue full"

/-- Counts a trace that sampling rejected. -/
def recordDroppedBySample (e : Exporter) : Exporter :=
  { e with stats := { e.stats with droppedBySample := e.stats.droppedBySample + 1 } }

/-- Lets the last producer go. -/
def releaseProducers (e : Exporter) : Exporter := { e with hasProducers := false }

/-! ### Control of the worker -/

/-- Starts the worker, once. -/
def start (e : Exporter) : Exporter :=
  if e.phase = .idle then { e with phase := .starting } else e

/-- The worker is no more, and with it what it held. -/
def discard (e : Exporter) : Exporter :=
  { e with phase := .gone, closed := true, queue := [], aborting := false }

def discardIdle (e : Exporter) : Exporter := if e.phase = .idle then e.discard else e

def cancel (e : Exporter) : Exporter := { e with cancelled := true }

/-- Has the worker discarded when it gets to run. -/
def abort (e : Exporter) : Exporter := if e.isOver then e else { e with aborting := true }

end Exporter

end Tracing
