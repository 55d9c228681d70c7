import Tracing.Dict
import Tracing.Ident
import Tracing.Sampling.Priority

/-!
# Trace contexts in transit

What headers say about a trace (`Extracted`) and what a span has to say in headers (`Outgoing`), whatever
the format.
-/

namespace Tracing

/-- A context read from incoming headers, consumed once to continue a trace. -/
structure Extracted where
  traceId : TraceId
  /-- The span that called, parent of the first local span. -/
  parentSpanId : SpanId
  /-- Absent when the headers carried no valid priority. -/
  priority : Option Priority
  origin : Option String
  /-- Tags to propagate, without the one that holds the upper half of the trace id. -/
  tags : Dict String
deriving DecidableEq

namespace Extracted

/-- A context with a zero trace id carries nothing worth continuing. -/
def isValid (e : Extracted) : Bool := !e.traceId.isZero

/-- The context that says nothing. -/
def zero : Extracted := ⟨.zero, .zero, none, none, ∅⟩

end Extracted

/-- What a span writes into outgoing headers: its identity, and the priority and tags of its trace. -/
structure Outgoing where
  traceId : TraceId
  spanId : SpanId
  parentId : Option SpanId
  origin : Option String
  priority : Option Priority
  tags : Dict String
deriving DecidableEq

/-! ### Propagated tags -/

/-- What the keys of propagated tags start with. -/
def propagatedLead : String := "_dd.p."

/-- The tag that holds the upper half of a trace id. -/
def higherBitsTag : String := "_dd.p.tid"

/-- The tag that holds the mechanism behind a sampling decision. -/
def decisionMakerTag : String := "_dd.p.dm"

/-- Whether a decision-maker value is a minus sign and one digit. -/
def isDecisionMaker : List Char → Bool
  | ['-', c] => c.isDigit
  | _ => false

/-- Why a header was not used, and where. -/
structure HeaderError where
  operation : String
  format : String
  reason : String
deriving DecidableEq, Repr

namespace HeaderError

/-- A header could not be read. -/
def extract (reason format : String) : HeaderError := ⟨"extract", format, reason⟩

/-- A header could not be written. -/
def inject (reason format : String) : HeaderError := ⟨"inject", format, reason⟩

def message (e : HeaderError) : String :=
  "Cannot " ++ e.operation ++ " from " ++ e.format ++ ", " ++ e.reason

end HeaderError

end Tracing
