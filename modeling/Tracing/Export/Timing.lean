import Tracing.Error
import Tracing.Export.Worker

/-!
# Waiting

Time passes for the exporter only while its owner waits. The worker then runs whenever it is its turn. If
the worker and its owner wait for the same moment, the owner goes on first, and the worker runs when its
owner waits again.
-/

namespace Tracing.Exporter

/-- The moment that the worker waits for. -/
def wake? (e : Exporter) : Option Nat :=
  match e.phase with
  | .waiting => some ((e.due + (millisecond - 1)) / millisecond)
  | .pausing _ _ _ _ wake => some wake
  | _ => none

/-- Runs the worker as long as its turns come before the deadline. Every turn but the first comes at a
later moment, so the number of milliseconds left bounds them. -/
def runBefore (transport : Transport) (deadline : Nat) : (fuel : Nat) → Logged Exporter → Logged Exporter
  | 0, state => state
  | fuel + 1, state =>
    let state := state >>= settle transport
    match state.value.wake? with
    | some wake =>
      if wake < deadline then
        runBefore transport deadline fuel (state >>= fun e => pure { e with now := wake })
      else state
    | none => state

/-- Runs the worker for some milliseconds, but leaves the clock at its last turn. -/
def runFor (transport : Transport) (millis : Nat) (e : Exporter) : Logged Exporter :=
  runBefore transport (e.now + millis) (millis + 1) (pure e)

/-- Waits for some milliseconds; no time at all is no wait. -/
def sleep (transport : Transport) (millis : Nat) (e : Exporter) : Logged Exporter :=
  if millis = 0 then pure e
  else do
    let left ← e.runFor transport millis
    return { left with now := e.now + millis }

def timeOut (timeout : Nat) (e : Exporter) : Logged (Except TracerError Unit × Exporter) := do
  log .warn ("TRACES | Exporter did not finish within " ++ toString (timeout / millisecond) ++ " ms")
  return (.error .shutdownTimeout, e)

/-- Asks the worker to stop and waits for that, at most a number of nanoseconds, rounded up to
milliseconds. -/
def shutdown (transport : Transport) (timeout : Nat) (e : Exporter) :
    Logged (Except TracerError Unit × Exporter) :=
  let e := e.cancel
  if e.isFinished then pure (.ok (), e)
  else if timeout = 0 then e.timeOut timeout
  else do
    let millis := (timeout + (millisecond - 1)) / millisecond
    let left ← e.runFor transport millis
    if left.isFinished then return (.ok (), left)
    else timeOut timeout { left with now := e.now + millis }

end Tracing.Exporter
