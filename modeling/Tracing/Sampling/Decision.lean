import Tracing.Decimal.Text
import Tracing.Ident
import Tracing.Sampling.Priority

/-!
# Sampling decisions

What was decided about a trace, how, and by which rates; and what a policy gets to see of a trace.
-/

namespace Tracing

/-- The outcome for a trace. The rates tell which layer of the sampler decided. -/
structure Decision where
  priority : Priority
  mechanism : Option Mechanism
  ruleRate : Option Float := none
  agentRate : Option Float := none
  limiterRate : Option Float := none
deriving Inhabited

namespace Decision

/-- A decision made by a user. -/
def manual (priority : Priority) : Decision := { priority, mechanism := some .manual }

/-- An optional value in diagnostic text. -/
def debugOption {α : Type} (write : α → String) : Option α → String
  | some a => "Some(" ++ write a ++ ")"
  | none => "None"

def debugText (d : Decision) : String :=
  "SamplingDecision \x7b priority: " ++ d.priority.name
    ++ ", mechanism: " ++ debugOption Mechanism.name d.mechanism
    ++ ", rule_rate: " ++ debugOption Decimal.detailedText d.ruleRate
    ++ ", agent_rate: " ++ debugOption Decimal.detailedText d.agentRate
    ++ ", limiter_rate: " ++ debugOption Decimal.detailedText d.limiterRate ++ " \x7d"

end Decision

/-- What sampling sees of a trace: its id and the names of its root span. -/
structure Target where
  traceId : TraceId
  service : String
  operation : String
  resource : String
deriving DecidableEq, Inhabited

end Tracing
