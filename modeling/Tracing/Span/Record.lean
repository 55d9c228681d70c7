import Tracing.Decimal.Text
import Tracing.Dict
import Tracing.Ident

/-!
# Span records

What is known about a span when it has ended. Times are nanoseconds since the epoch, negative before it.
-/

namespace Tracing

/-- The value of a tag. -/
inductive TagValue where
  | text (s : String)
  | number (x : Float)
deriving Inhabited

namespace TagValue

/-- A truth value as a tag. -/
def ofBool (b : Bool) : TagValue := text (if b then "true" else "false")

/-- A whole number as a tag. -/
def ofInt (n : Int) : TagValue := number (Float.ofInt n)

/-- The text of a tag. -/
def display : TagValue → String
  | text s => s
  | number x => Decimal.plainText x

end TagValue

/-- A span with all that was recorded about it. -/
structure SpanRecord where
  traceId : TraceId
  spanId : SpanId
  parentId : Option SpanId
  name : String
  resource : String
  service : String
  spanType : Option String := none
  start : Int
  duration : Nat := 0
  tags : Dict TagValue := ∅
  error : Bool := false
  /-- Events with their times. -/
  annotations : List (Int × String) := []
deriving Inhabited

namespace SpanRecord

/-- A span that has just started; its resource is its name. -/
def new (traceId : TraceId) (spanId : SpanId) (parentId : Option SpanId) (name service : String)
    (start : Int) : SpanRecord :=
  { traceId, spanId, parentId, name, resource := name, service, start }

def setTag (r : SpanRecord) (key : String) (value : TagValue) : SpanRecord :=
  { r with tags := r.tags.insert key value }

/-- Writes tags one after the other. -/
def setTags (r : SpanRecord) (tags : List (String × TagValue)) : SpanRecord :=
  tags.foldl (fun r e => r.setTag e.1 e.2) r

end SpanRecord

end Tracing
