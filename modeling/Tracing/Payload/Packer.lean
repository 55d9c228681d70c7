import Tracing.Log
import Tracing.Payload.Zipkin

/-!
# Packing spans into payloads

A payload is a JSON array of encoded spans of limited size. A trace is queued as few chunks, each of which
fits into a payload; a payload takes chunks from the front of the queue as long as they fit. Only the last
chunk of a trace counts the trace, so that one split over payloads is counted once.
-/

namespace Tracing

/-- Encoded spans that stay together. -/
structure Chunk where
  spans : List String := []
  /-- The size of the spans with the commas between them. -/
  size : Nat := 0
  /-- Whether it is the last chunk of its trace. -/
  completesTrace : Bool := false
deriving DecidableEq, Inhabited

namespace Chunk

/-- Whether a span fits behind the spans of a chunk, with a comma between them. -/
def hasRoom (chunk : Chunk) (limit : Nat) (span : String) : Bool :=
  chunk.size + span.utf8ByteSize + (if chunk.spans.isEmpty then 0 else 1) ≤ limit

/-- Adds a span at the end. -/
def push (chunk : Chunk) (span : String) : Chunk :=
  { chunk with
    spans := chunk.spans ++ [span]
    size := chunk.size + (span.utf8ByteSize + if chunk.spans.isEmpty then 0 else 1) }

/-- The size of a chunk in a payload, with a comma in front of it unless it is the first. -/
def joinedSize (chunk : Chunk) (first : Bool) : Nat := if first then chunk.size else chunk.size + 1

end Chunk

/-- What is sent at once. -/
structure Payload where
  chunks : List Chunk
deriving DecidableEq, Inhabited

namespace Payload

def spans (p : Payload) : List String := p.chunks.flatMap Chunk.spans

def spanCount (p : Payload) : Nat := p.spans.length

/-- The number of traces that end in a payload. -/
def traceCount (p : Payload) : Nat := p.chunks.countP Chunk.completesTrace

/-- The text that is sent: a JSON array of the spans. -/
def body (p : Payload) : String := "[" ++ String.intercalate "," p.spans ++ "]"

def size (p : Payload) : Nat := p.body.utf8ByteSize

end Payload

/-- The queue of chunks with the limits on payloads and values. -/
structure Packer where
  maxBytes : Nat
  maxValueLength : Nat
  queue : List Chunk := []
  /-- Traces added and not yet handed out. -/
  pendingTraces : Nat := 0
deriving Inhabited

namespace Packer

/-- The room for spans between the brackets of a payload. -/
def limit (p : Packer) : Nat := p.maxBytes - 2

def isEmpty (p : Packer) : Bool := p.queue.isEmpty

/-- Adds a span to the last chunk, or to a new one if it does not fit. Chunks are last first. -/
def place (limit : Nat) (chunks : List Chunk) (span : String) : List Chunk :=
  match chunks with
  | chunk :: earlier =>
    if chunk.hasRoom limit span then chunk.push span :: earlier
    else Chunk.push {} span :: chunk :: earlier
  | [] => [Chunk.push {} span]

/-- Marks the last of the chunks of a trace. Chunks are last first. -/
def complete : List Chunk → List Chunk
  | last :: earlier => { last with completesTrace := true } :: earlier
  | [] => []

/-- The chunks of a trace, none of them empty. -/
def chunksOf (limit : Nat) (spans : List String) : List Chunk :=
  (complete ((spans.foldl (place limit) [{}]).filter fun chunk => !chunk.spans.isEmpty)).reverse

/-- The spans of a trace that fit into a payload, encoded; the others are reported. -/
def encodeAll (p : Packer) : List SpanRecord → Logged (List String)
  | [] => return []
  | span :: rest => do
    let encoded := encodeSpan span p.maxValueLength
    if p.limit < encoded.utf8ByteSize then do
      log .warn ("TRACES | Dropping span " ++ toString span.spanId ++ " of "
        ++ toString encoded.utf8ByteSize ++ " bytes, larger than the " ++ toString p.maxBytes
        ++ " byte payload limit")
      p.encodeAll rest
    else do
      let spans ← p.encodeAll rest
      return encoded :: spans

/-- Queues encoded spans as one trace. -/
def enqueue (p : Packer) (spans : List String) : Packer :=
  let chunks := chunksOf p.limit spans
  { p with
    queue := p.queue ++ chunks
    pendingTraces := if chunks.isEmpty then p.pendingTraces else p.pendingTraces + 1 }

/-- Queues a trace; also the number of its spans that fit into no payload. -/
def add (p : Packer) (trace : List SpanRecord) : Logged (Nat × Packer) := do
  let spans ← p.encodeAll trace
  return (trace.length - spans.length, p.enqueue spans)

/-- The chunks at the front of a queue that fit into a payload behind those of a given size, and the
rest. -/
def takeFitting (limit : Nat) : (size : Nat) → List Chunk → List Chunk × List Chunk
  | _, [] => ([], [])
  | size, chunk :: rest =>
    if size + chunk.joinedSize false ≤ limit then
      let (taken, left) := takeFitting limit (size + chunk.joinedSize false) rest
      (chunk :: taken, left)
    else ([], chunk :: rest)

/-- Takes the next payload: the first chunk and those behind it that fit. -/
def nextPayload (p : Packer) : Option (Payload × Packer) :=
  match p.queue with
  | [] => none
  | first :: rest =>
    let (taken, left) := takeFitting p.limit (first.joinedSize true) rest
    let payload : Payload := { chunks := first :: taken }
    some (payload,
      { p with queue := left, pendingTraces := p.pendingTraces - payload.traceCount })

end Packer

end Tracing
