import Tracing.Log
import Tracing.Text.Case
import Tracing.Text.Quoted
import Tracing.Text.Split

/-!
# Propagation styles

The header formats in which a trace context travels, and reading their names.
-/

namespace Tracing

open Text

/-- A header format, or no propagation at all. -/
inductive Style where
  | datadog | traceContext | b3multi | b3 | none
deriving DecidableEq, Repr, Inhabited

namespace Style

def name : Style → String
  | datadog => "datadog"
  | traceContext => "tracecontext"
  | b3multi => "b3multi"
  | b3 => "b3"
  | none => "none"

/-- The style with a given name in any case. -/
def ofName? (s : String) : Option Style :=
  match lowercase s with
  | "datadog" => some datadog
  | "b3multi" => some b3multi
  | "b3" => some b3
  | "b3 single header" => some b3
  | "tracecontext" => some traceContext
  | "none" => some none
  | _ => Option.none

/-- Reads the name of a style; an unknown name stands for no propagation. -/
def read (s : String) : Logged Style :=
  match ofName? s with
  | some style => pure style
  | Option.none => do
    log .error ("Trace propagation style is invalid: " ++ quoted s ++ ", using None")
    return none

/-- Reads a list of names separated by commas; blank entries are skipped. -/
def readList (s : String) : Logged (List Style) :=
  (((splitOn ',' s.toList).map trim).filter (!·.isEmpty)).mapM fun piece => read (String.ofList piece)

end Style

end Tracing
