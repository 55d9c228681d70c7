import Tracing.Propagation.B3
import Tracing.Propagation.Datadog
import Tracing.Propagation.Style
import Tracing.Propagation.TraceContext

/-!
# Several formats at once

Extraction asks the styles in order and takes the first context that names a trace; it never merges two
formats. Injection writes all styles.
-/

namespace Tracing

namespace Style

/-- Reads a context in one style. -/
def extract (style : Style) (carrier : Carrier) : Logged (Option Extracted) :=
  match style with
  | datadog => Datadog.extract carrier
  | traceContext => TraceContext.extract carrier
  | b3multi => B3Multi.extract carrier
  | b3 => B3Single.extract carrier
  | none => return Option.none

def inject (style : Style) (out : Outgoing) (carrier : Carrier) : Logged Carrier :=
  match style with
  | datadog => Datadog.inject out carrier
  | traceContext => TraceContext.inject out carrier
  | b3multi => B3Multi.inject out carrier
  | b3 => B3Single.inject out carrier
  | none => return carrier

end Style

/-- The styles that a tracer reads and writes. -/
structure Propagator where
  extractors : List Style
  injectors : List Style
deriving DecidableEq, Repr

namespace Propagator

/-- The propagator for a shared list of styles and one for each direction; an empty list of a direction
falls back to the shared one, and the style for no propagation is left out. -/
def ofStyles (shared extracting injecting : List Style) : Propagator where
  extractors := (if extracting.isEmpty then shared else extracting).filter (· != .none)
  injectors := (if injecting.isEmpty then shared else injecting).filter (· != .none)

/-- The first context with a trace that one of the styles reads. -/
def extractFirst (carrier : Carrier) : List Style → Logged (Option Extracted)
  | [] => return none
  | style :: styles => do
    let extracted ← style.extract carrier
    match extracted.filter Extracted.isValid with
    | some found => return some found
    | none => extractFirst carrier styles

/-- Reads a context. -/
def extract (p : Propagator) (carrier : Carrier) : Logged (Option Extracted) :=
  extractFirst carrier p.extractors

/-- Writes a context in all styles. -/
def inject (p : Propagator) (out : Outgoing) (carrier : Carrier) : Logged Carrier :=
  p.injectors.foldlM (fun carrier style => style.inject out carrier) carrier

end Propagator

end Tracing
