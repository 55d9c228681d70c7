import Tracing.Json.Writer
import Tracing.Span.Record
import Tracing.Text.Case

/-!
# Spans as Zipkin JSON

The exported form of a span. Times are whole microseconds, values of tags and events are cut to a length,
and the span kind leaves the tags for a field of its own.
-/

namespace Tracing

open Text

/-- An event of an exported span. -/
structure Annotation where
  timestamp : Nat
  value : String
deriving DecidableEq, Inhabited

/-- A span in the form in which it is exported. -/
structure ZipkinSpan where
  id : String
  traceId : String
  parentId : Option String
  name : String
  timestamp : Nat
  duration : Nat
  kind : Option String
  serviceName : String
  tags : Dict String
  annotations : List Annotation
deriving DecidableEq, Inhabited

namespace ZipkinSpan

/-- The largest number of 64 bits. -/
def maxWord : Nat := (1 <<< 64) - 1

/-- Nanoseconds as whole microseconds, at most 64 bits of them. -/
def micros (nanos : Nat) : Nat :=
  min maxWord (min maxWord (nanos / 1000000000 * 1000000) + nanos % 1000000000 / 1000)

/-- A time in microseconds since the epoch, zero before it. -/
def unixMicros (nanos : Int) : Nat := micros nanos.toNat

/-- The first `length` characters of a text. -/
def truncate (length : Nat) (s : String) : String := String.ofList (s.toList.take length)

/-- The tag that holds the kind of a span. -/
def kindTag : String := "span.kind"

/-- The tag that names the resource. -/
def resourceTag : String := "resource.name"

/-- The tag that names the type of the span. -/
def typeTag : String := "span.type"

/-- The tag of a failed span. -/
def errorTag : String := "error"

/-- The kind of a span, in capitals. -/
def kindOf (r : SpanRecord) : Option String :=
  (r.tags.get? kindTag).map fun v => uppercase v.display

/-- The tags of the application, cut to a length, without the kind. -/
def ownTags (r : SpanRecord) (length : Nat) : Dict String :=
  .ofList ((r.tags.erase kindTag).entries.map fun e => (e.1, truncate length e.2.display))

/-- The tags that fields of the record make: a resource other than the name, the type, and the error. -/
def fieldTags (r : SpanRecord) (length : Nat) : List (String × String) :=
  (if r.resource ≠ r.name ∧ r.resource ≠ "" then [(resourceTag, truncate length r.resource)] else [])
    ++ (r.spanType.map fun t => (typeTag, t)).toList
    ++ (if r.error then [(errorTag, "true")] else [])

/-- The exported form of a span. -/
def ofRecord (r : SpanRecord) (length : Nat) : ZipkinSpan where
  id := String.ofList r.spanId.toHex
  traceId := String.ofList r.traceId.toHex
  parentId := r.parentId.map fun p => String.ofList p.toHex
  name := r.name
  timestamp := unixMicros r.start
  duration := micros r.duration
  kind := kindOf r
  serviceName := r.service
  tags := (fieldTags r length).foldl (fun tags e => tags.insert e.1 e.2) (ownTags r length)
  annotations := r.annotations.map fun a => ⟨unixMicros a.1, truncate length a.2⟩

/-- A member with an optional text. -/
def optionalMember (name : String) (value : Option String) : List (String × Json) :=
  (value.map fun v => (name, Json.str v)).toList

/-- An event as JSON. -/
def annotationJson (a : Annotation) : Json :=
  .obj [("timestamp", .int a.timestamp), ("value", .str a.value)]

/-- The JSON object of a span, its members in the order of the format. -/
def toJson (z : ZipkinSpan) : Json :=
  .obj ([("id", .str z.id), ("traceId", .str z.traceId)]
    ++ optionalMember "parentId" z.parentId
    ++ [("name", .str z.name), ("timestamp", .int z.timestamp), ("duration", .int z.duration)]
    ++ optionalMember "kind" z.kind
    ++ [("localEndpoint", .obj [("serviceName", .str z.serviceName)]),
        ("tags", .obj (z.tags.entries.map fun e => (e.1, .str e.2)))]
    ++ (if z.annotations.isEmpty then []
        else [("annotations", .arr (z.annotations.map annotationJson))]))

end ZipkinSpan

def encodeSpan (r : SpanRecord) (length : Nat) : String := (ZipkinSpan.ofRecord r length).toJson.text

end Tracing
