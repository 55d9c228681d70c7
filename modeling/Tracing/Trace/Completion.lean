import Tracing.Sampling.Sampler
import Tracing.Trace.State

/-!
# Completed traces

When a trace is complete it is decided about, if it was not before. A rejected trace goes no further; the
spans of a kept one are stamped with the outcome: the first span with the propagated tags, the priority
and the rates behind it, every span with the origin.
-/

namespace Tracing

/-- The tag for the priority of a trace. -/
def priorityTag : String := "_sampling_priority_v1"

/-- The tag for the origin of a trace. -/
def originTag : String := "_dd.origin"

/-- The tag for the rate of the rule that decided. -/
def ruleRateTag : String := "_dd.rule_psr"

/-- The tag for the rate of the agent that decided. -/
def agentRateTag : String := "_dd.agent_psr"

/-- The tag for the share that the limiter lets through. -/
def limiterRateTag : String := "_dd.limit_psr"

namespace Trace

/-- A tag for a rate, if there is one. -/
def rateTag (key : String) (rate : Option Float) : List (String × TagValue) :=
  (rate.map fun r => (key, TagValue.number r)).toList

/-- The tags that tell of a decision. -/
def decisionTags (d : Decision) : List (String × TagValue) :=
  (priorityTag, TagValue.ofInt d.priority.toInt)
    :: (rateTag ruleRateTag d.ruleRate ++ rateTag agentRateTag d.agentRate
      ++ rateTag limiterRateTag d.limiterRate)

/-- The tags for the first span of a trace. -/
def rootTags (t : Trace) : List (String × TagValue) :=
  t.tags.entries.map (fun e => (e.1, TagValue.text e.2))
    ++ (t.effectiveDecision.map decisionTags).getD []

/-- The tags for every span of a trace. -/
def originTags (t : Trace) : List (String × TagValue) :=
  (t.origin.map fun o => (originTag, TagValue.text o)).toList

/-- Stamps the spans of a trace. -/
def stamp (t : Trace) : List SpanRecord → List SpanRecord
  | [] => []
  | first :: rest =>
    (first.setTags t.originTags).setTags t.rootTags :: rest.map (·.setTags t.originTags)

/-- What becomes of a completed trace. -/
inductive Outcome where
  | rejected
  /-- It is kept and has no spans. -/
  | empty
  | kept (spans : List SpanRecord)

/-- Decides about a trace with a sampler. -/
def decide (t : Trace) (sampler : Sampler) (now : Nat) : Priority × Trace × Sampler :=
  t.decideWith sampler fun s target => s.decide now target

/-- Settles what becomes of a completed trace. -/
def complete (t : Trace) (sampler : Sampler) (now : Nat) : Logged (Outcome × Trace × Sampler) :=
  let (priority, t, sampler) := t.decide sampler now
  if priority.isKeep then
    let (spans, left) := t.takeSpans
    return (if spans.isEmpty then .empty else .kept (t.stamp spans), left, sampler)
  else do
    log .trace ("Dropping trace " ++ toString t.traceId ++ " with sampling priority "
      ++ toString priority)
    return (.rejected, t, sampler)

end Trace

end Tracing
