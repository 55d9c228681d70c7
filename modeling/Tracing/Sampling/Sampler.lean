import Tracing.Config.Basic
import Tracing.Log
import Tracing.Pattern.Engine
import Tracing.Sampling.Decision
import Tracing.Sampling.Rate
import Tracing.Sampling.TokenBucket
import Tracing.Text.Quoted

/-!
# The sampler

Three layers in order: the configured rules, of which the first that matches decides; the global rate, as
a rule that matches everything; the rate the agent gave for the service, or else keeping all. The hash is
asked first and a limiter only about traces that the hash keeps. Layers do not share limiters. The patterns of the
rules are left to an engine.
-/

namespace Tracing

open Text

/-! ### Rules -/

/-- A rule with its patterns compiled; what a pattern matches is all that is kept of it. -/
structure SamplingRule where
  rate : Float
  service : Option (String → Bool)
  name : Option (String → Bool)
  resource : Option (String → Bool)
  limiter : Option (TokenBucket Float)

/-- Why a configured rule is unusable. -/
inductive RuleError where
  | unreadable (field text reason : String)
  | rateNotANumber
deriving DecidableEq, Repr

def RuleError.message : RuleError → String
  | unreadable field text reason => "invalid " ++ field ++ " pattern `" ++ text ++ "`: " ++ reason
  | rateNotANumber => "sample_rate is not a number"

namespace SamplingRule

def readPattern (engine : PatternEngine) (field : String) : Option String → Except RuleError (Option (String → Bool))
  | none => .ok none
  | some text =>
    match engine.compile text with
    | .ok pattern => .ok (some (engine.isMatch pattern))
    | .error reason => .error (.unreadable field text reason)

/-- The rule for a configured one; its limiter starts full at `now`. -/
def ofConfig (engine : PatternEngine) (now : Nat) (c : RuleConfig) : Except RuleError SamplingRule := do
  if c.sampleRate.isNaN then throw .rateNotANumber
  let service ← readPattern engine "service" c.service
  let name ← readPattern engine "name" c.name
  let resource ← readPattern engine "resource" c.resource
  return {
    rate := Rate.clamp c.sampleRate
    service, name, resource
    limiter := c.maxPerSecond.map fun limit => .full limit now }

/-- The rule for the global rate. -/
def catchAll (now : Nat) (rate limit : Float) : SamplingRule where
  rate := Rate.clamp rate
  service := none
  name := none
  resource := none
  limiter := some (.full limit now)

/-- Whether an optional pattern matches somewhere in a name. -/
def accepts (pattern : Option (String → Bool)) (name : String) : Bool :=
  match pattern with
  | some isMatch => isMatch name
  | none => true

/-- Whether the rule applies to a trace. -/
def isMatch (r : SamplingRule) (target : Target) : Bool :=
  accepts r.service target.service && accepts r.name target.operation
    && accepts r.resource target.resource

/-- Reads configured rules. An unusable one is reported with its place and left out. -/
def readAll (engine : PatternEngine) (now : Nat) : (index : Nat) → List RuleConfig → Logged (List SamplingRule)
  | _, [] => return []
  | index, c :: rest =>
    match ofConfig engine now c with
    | .ok rule => do
      let rules ← readAll engine now (index + 1) rest
      return rule :: rules
    | .error e => do
      log .error ("Skipping sampling rule " ++ toString index ++ ": " ++ e.message)
      readAll engine now (index + 1) rest

end SamplingRule

/-! ### Sampling -/

/-- The layers of sampling with the state of their limiters. -/
structure Sampler where
  rules : List SamplingRule
  defaultLimiter : TokenBucket Float
  /-- Rates by the lowercase of service and environment. -/
  agentRates : Dict Float
  env : String

namespace Sampler

/-- The sampler for a configuration, its limiters full at `now`. -/
def build (engine : PatternEngine) (now : Nat) (c : Config) : Logged Sampler := do
  let rules ← SamplingRule.readAll engine now 0 c.rules
  let rules := match c.sampleRate.filter (!·.isNaN) with
    | some rate => rules ++ [.catchAll now rate c.rateLimit]
    | none => rules
  log .debug ("Sampler built with " ++ toString rules.length ++ " rules")
  return {
    rules
    defaultLimiter := .full c.rateLimit now
    agentRates := ∅
    env := c.env.getD "" }

/-- The sampler that the program builds. -/
def ofConfig (now : Nat) (c : Config) : Logged Sampler := build .builtin now c

/-- Replaces the rates by service and environment; one that is no number is left out, and of two keys that
differ in case only the later counts. -/
def setAgentRates (s : Sampler) (rates : List (String × Float)) : Sampler :=
  { s with agentRates :=
      .ofList ((rates.filter fun e => !e.2.isNaN).map fun e => (lowercase e.1, Rate.clamp e.2)) }

/-- The rate that the agent gave for a service. -/
def agentRate? (s : Sampler) (service : String) : Option Float :=
  s.agentRates.get? (lowercase ("service:" ++ service ++ ",env:" ++ s.env))

/-- Decides by a rate and a limiter, which is asked only if the rate keeps the trace. -/
def applyRate (now : Nat) (traceId : TraceId) (rate : Float) (limiter : Option (TokenBucket Float))
    (mechanism : Mechanism) : Decision × Option (TokenBucket Float) :=
  if Rate.keeps traceId rate then
    match limiter with
    | none => ({ priority := .autoKeep, mechanism := some mechanism }, none)
    | some bucket =>
      let (allowed, bucket) := bucket.allowAt now
      ({ priority := .auto allowed, mechanism := some mechanism
         limiterRate := some bucket.effectiveRate }, some bucket)
  else ({ priority := .autoReject, mechanism := some mechanism }, limiter)

/-- Decides by the first rule that matches, if there is one. -/
def decideByRules (now : Nat) (target : Target) :
    List SamplingRule → Option (Decision × List SamplingRule)
  | [] => none
  | rule :: rest =>
    if rule.isMatch target then
      let (decision, limiter) := applyRate now target.traceId rule.rate rule.limiter .rule
      some ({ decision with ruleRate := some rule.rate }, { rule with limiter } :: rest)
    else (decideByRules now target rest).map fun (decision, rest) => (decision, rule :: rest)

/-- Decides by the rate of the agent, or keeps what the default limiter allows. -/
def decideByDefault (s : Sampler) (now : Nat) (target : Target) : Decision × Sampler :=
  let agentRate := s.agentRate? target.service
  let mechanism := if agentRate.isSome then Mechanism.agentRate else .standard
  let (decision, limiter) :=
    applyRate now target.traceId (agentRate.getD 1) (some s.defaultLimiter) mechanism
  ({ decision with agentRate },
    { s with defaultLimiter := limiter.getD s.defaultLimiter })

/-- Decides about a trace. -/
def decide (s : Sampler) (now : Nat) (target : Target) : Decision × Sampler :=
  match decideByRules now target s.rules with
  | some (decision, rules) => (decision, { s with rules })
  | none => s.decideByDefault now target

def debugText (s : Sampler) : String :=
  "Sampler \x7b rules: " ++ toString s.rules.length ++ ", env: " ++ quoted s.env ++ ", .. \x7d"

end Sampler

end Tracing
