import Tracing.Config.Environment

/-!
# Building a configuration

A builder applies its sources in order, each over the settings of those before it, and then repairs what
would leave the tracer unusable. Building again starts from the repaired configuration.
-/

namespace Tracing

open Text

/-- Where settings come from. -/
inductive Source where
  /-- The variables of an environment. -/
  | environment (assignments : List (String × String))
  /-- Fixed settings, after which the source may fail for a reason. -/
  | fixed (settings : Settings) (failure : Option String)
deriving Inhabited

/-- What reading a source came to. -/
inductive LoadResult where
  | loaded (config : Config)
  /-- The source failed; what it wrote before stays. -/
  | failed (config : Config)
  /-- The program cannot go on. -/
  | aborted
deriving Inhabited

namespace Source

def reportFailure (reason : String) : Logged Unit :=
  log .error ("Failed to load config: ParseError(" ++ quoted reason ++ ")")

/-- Applies a source to a configuration. -/
def load (source : Source) (config : Config) : Logged LoadResult :=
  match source with
  | environment assignments => do
    match ← Environment.load assignments with
    | .ok settings => return .loaded (settings.applyTo config)
    | .error .durationOverflow => return .aborted
    | .error .styleNotText =>
      reportFailure
        "Failed to parse config from environment variables: a propagation style must be text"
      return .failed config
  | fixed settings failure =>
    match failure with
    | none => return .loaded (settings.applyTo config)
    | some reason => do
      reportFailure reason
      return .failed (settings.applyTo config)

/-- Applies sources in order and counts those that failed; nothing if one aborts. -/
def loadAll (config : Config) : List Source → Logged (Option (Config × Nat))
  | [] => return some (config, 0)
  | source :: sources => do
    match ← source.load config with
    | .loaded config => loadAll config sources
    | .failed config =>
      let rest ← loadAll config sources
      return rest.map fun (config, failures) => (config, failures + 1)
    | .aborted => return none

end Source

namespace Config

/-- The value itself, or another one if it is zero. -/
def orIfZero (n replacement : Nat) : Nat := if n = 0 then replacement else n

/-- The list itself, or another one if it is empty. -/
def orIfEmpty (styles replacement : List Style) : List Style :=
  if styles.isEmpty then replacement else styles

/-- The name itself, or the default name if it is blank. -/
def orIfBlank (service : String) : String :=
  if (trim service.toList).isEmpty then default.service else service

/-- Replaces blank and zero settings that must not be so, and lets the directions fall back to the shared
styles. -/
def repair (c : Config) : Config :=
  { c with
    service := orIfBlank c.service
    styleExtract := orIfEmpty c.styleExtract c.style
    styleInject := orIfEmpty c.styleInject c.style
    queueCapacity := orIfZero c.queueCapacity default.queueCapacity
    flushThreshold := orIfZero c.flushThreshold default.flushThreshold
    maxPayloadBytes := orIfZero c.maxPayloadBytes default.maxPayloadBytes
    sendRetries := orIfZero c.sendRetries 1
    flushInterval := orIfZero c.flushInterval default.flushInterval }

theorem orIfZero_orIfZero (n r : Nat) : orIfZero (orIfZero n r) r = orIfZero n r := by
  by_cases h : n = 0 <;> simp [orIfZero, h]

theorem orIfEmpty_orIfEmpty (xs ys : List Style) :
    orIfEmpty (orIfEmpty xs ys) ys = orIfEmpty xs ys := by
  cases xs <;> simp [orIfEmpty]

theorem orIfBlank_orIfBlank (s : String) : orIfBlank (orIfBlank s) = orIfBlank s := by
  by_cases h : (trim s.toList).isEmpty = true <;> simp [orIfBlank, h]

end Config

/-- Sources, and the configuration built from them so far. -/
structure ConfigBuilder where
  sources : List Source
  config : Config := .default
deriving Inhabited

namespace ConfigBuilder

def ofSources (sources : List Source) : ConfigBuilder := { sources }

/-- Applies the sources and repairs the result; nothing if a source aborts. -/
def build (b : ConfigBuilder) : Logged (Option ConfigBuilder) := do
  match ← Source.loadAll b.config b.sources with
  | none => return none
  | some (config, failures) =>
    if !b.sources.isEmpty && failures == b.sources.length then
      log .debug "All sources failed to load config, using default config."
    return some { b with config := config.repair }

end ConfigBuilder

/-- The configuration of an environment. -/
def Config.ofEnvironment (assignments : List (String × String)) : Logged (Option Config) := do
  let built ← (ConfigBuilder.ofSources [.environment assignments]).build
  return built.map ConfigBuilder.config

end Tracing
