import Tracing.Propagation.Carrier
import Tracing.Proofs.Text.Reading
import Tracing.Span.Handle

/-!
# Carriers and hops

What holds of every format: what is stored under a name is found under it and disturbs no other
(`Carrier.get?_set`), a plain value is the first valid one of its header (`firstValid_plain`), and what a
span writes that was started on a continued trace (`Extracted.forward?_eq`).
-/

namespace Tracing

open Text

/-! ### Carriers -/

namespace Carrier

/-- Whether headers can be stored in a carrier. -/
def isOpen : Carrier → Bool
  | headers _ | document (.obj _) => true
  | document _ => false

@[simp] theorem isOpen_set (carrier : Carrier) (name value : String) :
    (carrier.set name value).isOpen = carrier.isOpen := by
  unfold set
  split <;> rfl

theorem get?_set {carrier : Carrier} (h : carrier.isOpen = true) (name name' value : String) :
    (carrier.set name value).get? name' =
      if lowercase name = lowercase name' then some value else carrier.get? name' := by
  unfold set
  split
  · next fields => exact Dict.get?_insert fields _ _ value
  · next members =>
    show (Entries.get? (lowercase name') (Entries.insert (lowercase name) (.str value) members)).bind
      Json.str? = _
    rw [Entries.get?_insert]
    split <;> rfl
  · next json hobj =>
    cases json with
    | obj members => exact absurd rfl (hobj members)
    | null | bool | int | float | str | arr => cases h

end Carrier

theorem firstValid_plain {α : Type} (read : List Char → Option α) {text : List Char}
    (h : isPlain text = true) : firstValid read text = read text := by
  rw [isPlain_iff] at h
  have hcomma : ',' ∉ text := fun hmem => (h _ hmem).2.2 rfl
  have htrim : trim text = text := trim_of_visible fun c hc => ⟨(h c hc).1, (h c hc).2.1⟩
  unfold firstValid
  rw [splitOn_of_not_mem hcomma, List.map_singleton, htrim]
  simp

/-! ### Hops -/

/-- How a span is started on a trace that was continued from headers. -/
structure Hop where
  record : SpanRecord
  startTime : Option Int
  clock : Clock

/-- What the span of a hop writes into headers; nothing if the context names no trace. -/
def Extracted.forward? (c : Extracted) (hop : Hop) : Option Outgoing := do
  let trace ← Trace.ofExtracted? c
  let started := (Span.start trace hop.record hop.startTime hop.clock).value
  let context := started.span.context
  return started.trace.outgoing context.traceId context.spanId context.parentId context.origin

theorem Extracted.forward?_eq {c : Extracted} (h : c.isValid = true) (hop : Hop) :
    c.forward? hop = some ⟨c.traceId, hop.record.spanId, hop.record.parentId, c.origin, c.priority, c.tags⟩ := by
  have hpriority : (c.priority.map fun priority =>
      ({ priority, mechanism := Trace.mechanismOfTags c.tags } : Decision)).map Decision.priority = c.priority := by
    cases c.priority <;> rfl
  unfold forward? Trace.ofExtracted?
  rw [if_pos h]
  exact congrArg (fun p => some (⟨c.traceId, hop.record.spanId, hop.record.parentId, c.origin, p, c.tags⟩ :
    Outgoing)) hpriority

end Tracing
