import Tracing.Log
import Tracing.Propagation.Carrier
import Tracing.Propagation.Context

/-!
# B3 headers

One header per field (`B3Multi`), or all fields in one header with dashes between them (`B3Single`). Both
carry ids, the parent and whether the trace is sampled; a user's keep is the debug flag.
-/

namespace Tracing

open Text

/-! ### Several headers -/

namespace B3Multi

def traceIdHeader : String := "x-b3-traceid"
def spanIdHeader : String := "x-b3-spanid"
def parentSpanIdHeader : String := "x-b3-parentspanid"
def sampledHeader : String := "x-b3-sampled"
def flagsHeader : String := "x-b3-flags"

end B3Multi

/-- The priority that a sampling state stands for. -/
def readSampled (text : List Char) : Option Priority :=
  if text = ['1'] ∨ text = "true".toList then some .autoKeep
  else if text = ['0'] ∨ text = "false".toList then some .autoReject
  else if text = ['d'] then some .userKeep
  else none

/-- Accepts the value of the debug flag. -/
def readDebugFlag (text : List Char) : Option Unit := if text = ['1'] then some () else none

/-- A header of the carrier, read by the first of its values that is accepted. -/
def readHeader {α : Type} (carrier : Carrier) (name : String) (read : List Char → Option α) :
    Option α :=
  (carrier.get? name).bind fun value => firstValid read value.toList

namespace B3Multi

/-- The priority of a carrier: the debug flag wins over the sampling state. -/
def readPriority (carrier : Carrier) : Option Priority :=
  if (readHeader carrier flagsHeader readDebugFlag).isSome then some .userKeep
  else readHeader carrier sampledHeader readSampled

/-- Reads a context; only a trace id is required. -/
def extract (carrier : Carrier) : Logged (Option Extracted) :=
  match readHeader carrier traceIdHeader TraceId.ofHex? with
  | none => do
    log .debug (HeaderError.extract "`trace_id` not found" "b3multi").message
    return none
  | some traceId =>
    let parent := (readHeader carrier spanIdHeader SpanId.ofHex?).getD .zero
    return some ⟨traceId, parent, readPriority carrier, none, ∅⟩

/-- Writes the priority: a user's keep as the debug flag, any other as the sampling state. -/
def setPriority (priority : Option Priority) (carrier : Carrier) : Carrier :=
  match priority with
  | some .userKeep => carrier.set flagsHeader "1"
  | some p => carrier.set sampledHeader (if p.isKeep then "1" else "0")
  | none => carrier

/-- Writes a context. -/
def inject (out : Outgoing) (carrier : Carrier) : Logged Carrier :=
  let carrier := carrier.set traceIdHeader (String.ofList out.traceId.toHex)
  let carrier := carrier.set spanIdHeader (String.ofList out.spanId.toHex)
  let carrier := match out.parentId with
    | some parent => carrier.set parentSpanIdHeader (String.ofList parent.toHex)
    | none => carrier
  return setPriority out.priority carrier

end B3Multi

/-! ### One header -/

namespace B3Single

def header : String := "b3"

/-- Reads trace id, span id and an optional sampling state; what follows is ignored. A sampling state
alone is no context. -/
def read (text : List Char) : Option Extracted :=
  match splitOn '-' text with
  | trace :: span :: rest => do
    let traceId ← TraceId.ofHex? trace
    let parent ← SpanId.ofHex? span
    return ⟨traceId, parent, rest.head?.bind readSampled, none, ∅⟩
  | _ => none

/-- Reads a context from the header, if it is there. -/
def extract (carrier : Carrier) : Logged (Option Extracted) :=
  match carrier.get? header with
  | none => return none
  | some value =>
    match firstValid read value.toList with
    | some extracted => return some extracted
    | none => do
      log .debug (HeaderError.extract "Failed to decode `b3` header" "b3").message
      return none

def flag (p : Priority) : Char :=
  if p = .userKeep then 'd' else if p.isKeep then '1' else '0'

/-- The text of the header. The parent is only written behind a sampling state. -/
def write (out : Outgoing) : List Char :=
  let ids := out.traceId.toHex ++ '-' :: out.spanId.toHex
  match out.priority with
  | none => ids
  | some p =>
    let sampled := ids ++ ['-', flag p]
    match out.parentId with
    | some parent => sampled ++ '-' :: parent.toHex
    | none => sampled

/-- Writes a context. -/
def inject (out : Outgoing) (carrier : Carrier) : Logged Carrier :=
  return carrier.set header (String.ofList (write out))

end B3Single

end Tracing
