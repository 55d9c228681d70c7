import Tracing.Dict
import Tracing.Propagation.Style

/-!
# Settings

The settings of a tracer, their defaults, and partial settings that are written over others. Durations are
in nanoseconds.
-/

namespace Tracing

/-- A sampling rule as configured: patterns on the names of the root span, the share of matching traces to
keep, and a limit on how many a second. -/
structure RuleConfig where
  sampleRate : Float
  service : Option String := none
  name : Option String := none
  resource : Option String := none
  maxPerSecond : Option Float := none
deriving BEq, Inhabited

/-- A second in nanoseconds. -/
def second : Nat := 1000000000

/-- The settings of a tracer. -/
structure Config where
  service : String
  env : Option String
  version : Option String
  /-- Without a rate every trace is kept unless rules or agent rates say otherwise. -/
  sampleRate : Option Float
  rules : List RuleConfig
  /-- Kept traces per second allowed by the limiters of the global rate and of the default. -/
  rateLimit : Float
  style : List Style
  styleExtract : List Style
  styleInject : List Style
  wideTraceIds : Bool
  endpointUrl : String
  flushInterval : Nat
  queueCapacity : Nat
  /-- Pending traces that trigger a flush before the interval has passed. -/
  flushThreshold : Nat
  maxPayloadBytes : Nat
  /-- Attempts per payload, the first included. -/
  sendRetries : Nat
  sendTimeout : Nat
  shutdownTimeout : Nat
  maxValueLength : Nat
deriving BEq

/-- The settings when nothing is configured. -/
def Config.default : Config where
  service := "unnamed-service"
  env := none
  version := none
  sampleRate := none
  rules := []
  rateLimit := 100
  style := [.datadog, .traceContext]
  styleExtract := []
  styleInject := []
  wideTraceIds := false
  endpointUrl := "http://localhost:9411/api/v2/spans"
  flushInterval := second
  queueCapacity := 1000
  flushThreshold := 500
  maxPayloadBytes := 3200000
  sendRetries := 5
  sendTimeout := 10 * second
  shutdownTimeout := 20 * second
  maxValueLength := 12000

instance : Inhabited Config := ⟨Config.default⟩

/-- Settings for some of the fields. -/
structure Settings where
  service : Option String := none
  env : Option (Option String) := none
  version : Option (Option String) := none
  sampleRate : Option (Option Float) := none
  rules : Option (List RuleConfig) := none
  rateLimit : Option Float := none
  style : Option (List Style) := none
  styleExtract : Option (List Style) := none
  styleInject : Option (List Style) := none
  wideTraceIds : Option Bool := none
  endpointUrl : Option String := none
  flushInterval : Option Nat := none
  queueCapacity : Option Nat := none
  flushThreshold : Option Nat := none
  maxPayloadBytes : Option Nat := none
  sendRetries : Option Nat := none
  sendTimeout : Option Nat := none
  shutdownTimeout : Option Nat := none
  maxValueLength : Option Nat := none

instance : Inhabited Settings := ⟨{}⟩

/-- Writes the given settings over those of a configuration. -/
def Settings.applyTo (s : Settings) (c : Config) : Config where
  service := s.service.getD c.service
  env := s.env.getD c.env
  version := s.version.getD c.version
  sampleRate := s.sampleRate.getD c.sampleRate
  rules := s.rules.getD c.rules
  rateLimit := s.rateLimit.getD c.rateLimit
  style := s.style.getD c.style
  styleExtract := s.styleExtract.getD c.styleExtract
  styleInject := s.styleInject.getD c.styleInject
  wideTraceIds := s.wideTraceIds.getD c.wideTraceIds
  endpointUrl := s.endpointUrl.getD c.endpointUrl
  flushInterval := s.flushInterval.getD c.flushInterval
  queueCapacity := s.queueCapacity.getD c.queueCapacity
  flushThreshold := s.flushThreshold.getD c.flushThreshold
  maxPayloadBytes := s.maxPayloadBytes.getD c.maxPayloadBytes
  sendRetries := s.sendRetries.getD c.sendRetries
  sendTimeout := s.sendTimeout.getD c.sendTimeout
  shutdownTimeout := s.shutdownTimeout.getD c.shutdownTimeout
  maxValueLength := s.maxValueLength.getD c.maxValueLength

end Tracing
