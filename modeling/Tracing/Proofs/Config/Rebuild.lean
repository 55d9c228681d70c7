import Tracing.Proofs.Config.Startup
import Tracing.Tracer

/-!
# What is built, and built again

Each source writes some settings over those before it (`Source.loadAll_value`), so a field has the value that the
last source wrote (`Config.Field.get_overwrite`), or the one it had. A builder then repairs what it got, field by
field (`Config.Field.get_repair`), and keeps the result. Building again starts from there: a field that is written
gets the same value and the same repair, and one that is not was repaired already. Hence `ConfigBuilder.build_again`,
and what is built is usable (`Config.Usable`).
-/

namespace Tracing

open Text Environment

/-! ### Fields -/

/-- The fields of a configuration, by the type of their values. -/
inductive Config.Field : Type → Type 1 where
  | service : Field String
  | env : Field (Option String)
  | version : Field (Option String)
  | sampleRate : Field (Option Float)
  | rules : Field (List RuleConfig)
  | rateLimit : Field Float
  | style : Field (List Style)
  | styleExtract : Field (List Style)
  | styleInject : Field (List Style)
  | wideTraceIds : Field Bool
  | endpointUrl : Field String
  | flushInterval : Field Nat
  | queueCapacity : Field Nat
  | flushThreshold : Field Nat
  | maxPayloadBytes : Field Nat
  | sendRetries : Field Nat
  | sendTimeout : Field Nat
  | shutdownTimeout : Field Nat
  | maxValueLength : Field Nat

namespace Config.Field

variable {α : Type}

/-- The value of a field. -/
def get (c : Config) : Field α → α
  | service => c.service
  | env => c.env
  | version => c.version
  | sampleRate => c.sampleRate
  | rules => c.rules
  | rateLimit => c.rateLimit
  | style => c.style
  | styleExtract => c.styleExtract
  | styleInject => c.styleInject
  | wideTraceIds => c.wideTraceIds
  | endpointUrl => c.endpointUrl
  | flushInterval => c.flushInterval
  | queueCapacity => c.queueCapacity
  | flushThreshold => c.flushThreshold
  | maxPayloadBytes => c.maxPayloadBytes
  | sendRetries => c.sendRetries
  | sendTimeout => c.sendTimeout
  | shutdownTimeout => c.shutdownTimeout
  | maxValueLength => c.maxValueLength

/-- The value that settings have for a field, if they have one. -/
def written (s : Settings) : Field α → Option α
  | service => s.service
  | env => s.env
  | version => s.version
  | sampleRate => s.sampleRate
  | rules => s.rules
  | rateLimit => s.rateLimit
  | style => s.style
  | styleExtract => s.styleExtract
  | styleInject => s.styleInject
  | wideTraceIds => s.wideTraceIds
  | endpointUrl => s.endpointUrl
  | flushInterval => s.flushInterval
  | queueCapacity => s.queueCapacity
  | flushThreshold => s.flushThreshold
  | maxPayloadBytes => s.maxPayloadBytes
  | sendRetries => s.sendRetries
  | sendTimeout => s.sendTimeout
  | shutdownTimeout => s.shutdownTimeout
  | maxValueLength => s.maxValueLength

/-- The value that a field is given in place of a blank, of zero or of an empty list of styles for one direction,
with the shared styles at hand. Most fields stay as they are. -/
def repaired (shared : List Style) : Field α → α → α
  | service, name => if (trim name.toList).isEmpty then default.service else name
  | styleExtract, styles | styleInject, styles => if styles.isEmpty then shared else styles
  | flushInterval, nanos => if nanos = 0 then default.flushInterval else nanos
  | queueCapacity, n => if n = 0 then default.queueCapacity else n
  | flushThreshold, n => if n = 0 then default.flushThreshold else n
  | maxPayloadBytes, n => if n = 0 then default.maxPayloadBytes else n
  | sendRetries, n => if n = 0 then 1 else n
  | _, value => value

theorem get_applyTo (field : Field α) (s : Settings) (c : Config) :
    field.get (s.applyTo c) = (field.written s).getD (field.get c) := by
  cases field <;> rfl

theorem get_repair (field : Field α) (c : Config) : field.get c.repair = field.repaired c.style (field.get c) := by
  cases field <;> rfl

theorem repaired_repaired (field : Field α) (shared : List Style) (value : α) :
    field.repaired shared (field.repaired shared value) = field.repaired shared value := by
  cases field with
  | service => exact orIfBlank_orIfBlank value
  | styleExtract | styleInject => exact orIfEmpty_orIfEmpty value shared
  | flushInterval | queueCapacity | flushThreshold | maxPayloadBytes | sendRetries => exact orIfZero_orIfZero value _
  | env | version | sampleRate | rules | rateLimit | style | wideTraceIds | endpointUrl | sendTimeout
  | shutdownTimeout | maxValueLength => rfl

end Config.Field

/-- Configurations are the same if all their fields are, be it that a rate is not a number in both. -/
theorem Config.ext_get {c c' : Config} (h : ∀ {α : Type} (field : Field α), field.get c = field.get c') : c = c' := by
  obtain ⟨⟩ := c
  obtain ⟨⟩ := c'
  simp only [mk.injEq]
  exact ⟨h .service, h .env, h .version, h .sampleRate, h .rules, h .rateLimit, h .style, h .styleExtract,
    h .styleInject, h .wideTraceIds, h .endpointUrl, h .flushInterval, h .queueCapacity, h .flushThreshold,
    h .maxPayloadBytes, h .sendRetries, h .sendTimeout, h .shutdownTimeout, h .maxValueLength⟩

/-! ### What sources write -/

/-- The settings that a source writes, be it that it fails after that. An environment that cannot be used writes
none. -/
def Source.settings : Source → Settings
  | environment assignments =>
    match (Environment.load assignments).value with
    | .ok settings => settings
    | .error _ => {}
  | fixed settings _ => settings

/-- The configuration that reading a source leaves behind. -/
def LoadResult.config? : LoadResult → Option Config
  | loaded config | failed config => some config
  | aborted => none

namespace Source

variable {source : Source} {sources : List Source}

theorem load_value (h : ¬ source.Aborts) (c : Config) :
    (source.load c).value.config? = some (source.settings.applyTo c) := by
  cases source with
  | environment assignments =>
    have hload := mt (load_eq_aborted _ c).mp h
    rw [load, Logged.value_bind] at hload ⊢
    rw [settings]
    cases hread : (Environment.load assignments).value with
    | ok settings => rfl
    | error e =>
      rw [hread] at hload
      cases e with
      | styleNotText => rfl
      | durationOverflow => exact absurd rfl hload
  | fixed settings failure => cases failure <;> rfl

/-- All settings that sources write, one over the other. -/
def overwrite (sources : List Source) (c : Config) : Config :=
  sources.foldl (fun c source => source.settings.applyTo c) c

/-- **Sources write one over the other**, those that fail as well. -/
theorem loadAll_value (h : ∀ source ∈ sources, ¬ source.Aborts) (c : Config) :
    (loadAll c sources).value.map Prod.fst = some (overwrite sources c) := by
  induction sources generalizing c with
  | nil => rfl
  | cons source rest ih =>
    obtain ⟨hsource, hrest⟩ := List.forall_mem_cons.mp h
    have hload := load_value hsource c
    have hnext := ih hrest (source.settings.applyTo c)
    rw [loadAll, Logged.value_bind]
    cases hresult : (source.load c).value with
    | loaded config =>
      rw [hresult] at hload
      obtain rfl := Option.some.inj hload
      exact hnext
    | failed config =>
      rw [hresult] at hload
      obtain rfl := Option.some.inj hload
      -- the failure is counted, and counts nothing here
      exact Eq.trans (Option.map_map ..) hnext
    | aborted =>
      rw [hresult] at hload
      cases hload

end Source

namespace Config.Field

variable {α : Type}

/-- The value that is written for a field by the last of the sources that write one. -/
def lastWritten (sources : List Source) (field : Field α) : Option α :=
  (sources.filterMap fun source => field.written source.settings).getLast?

theorem get_overwrite (field : Field α) (sources : List Source) (c : Config) :
    field.get (Source.overwrite sources c) = (field.lastWritten sources).getD (field.get c) := by
  induction sources generalizing c with
  | nil => rfl
  | cons source rest ih =>
    have hrest := ih (source.settings.applyTo c)
    rw [get_applyTo] at hrest
    refine hrest.trans ?_
    unfold lastWritten
    cases hwritten : field.written source.settings with
    | none => simp [hwritten]
    | some value => simp [hwritten, List.getLast?_cons]

end Config.Field

/-! ### Usable configurations -/

/-- A configuration that a tracer can work with. -/
structure Config.Usable (c : Config) : Prop where
  service : trim c.service.toList ≠ []
  queueCapacity : 1 ≤ c.queueCapacity
  flushThreshold : 1 ≤ c.flushThreshold
  maxPayloadBytes : 1 ≤ c.maxPayloadBytes
  sendRetries : 1 ≤ c.sendRetries
  flushInterval : c.flushInterval ≠ 0
  styleExtract : c.style ≠ [] → c.styleExtract ≠ []
  styleInject : c.style ≠ [] → c.styleInject ≠ []

namespace Config

theorem one_le_orIfZero {n replacement : Nat} (h : 1 ≤ replacement) : 1 ≤ orIfZero n replacement := by
  unfold orIfZero
  split <;> omega

theorem orIfEmpty_ne_nil {styles replacement : List Style} (h : replacement ≠ []) :
    orIfEmpty styles replacement ≠ [] := by
  cases styles with
  | nil => exact h
  | cons style rest => exact List.cons_ne_nil _ _

theorem trim_orIfBlank (service : String) : trim (orIfBlank service).toList ≠ [] := by
  unfold orIfBlank
  split
  · decide +kernel
  · next h => exact mt List.isEmpty_iff.mpr h

/-- **Repair makes a configuration usable.** -/
theorem usable_repair (c : Config) : c.repair.Usable where
  service := trim_orIfBlank c.service
  queueCapacity := one_le_orIfZero (by decide)
  flushThreshold := one_le_orIfZero (by decide)
  maxPayloadBytes := one_le_orIfZero (by decide)
  sendRetries := one_le_orIfZero (by decide)
  flushInterval := Nat.one_le_iff_ne_zero.mp (one_le_orIfZero (by decide))
  styleExtract := orIfEmpty_ne_nil
  styleInject := orIfEmpty_ne_nil

end Config

/-- A tracer is refused on account of its configuration only if its queue has no room. -/
theorem Tracer.build_ne_invalidConfig {c : Config} (h : 1 ≤ c.queueCapacity) (engine : PatternEngine)
    (transport : Transport) (hasRuntime : Bool) (clock : Clock) (message : String) :
    (build engine c transport hasRuntime clock).value ≠ .error (.refused (.invalidConfig message)) := by
  unfold build
  split
  · simp
  · rw [if_neg (Nat.one_le_iff_ne_zero.mp h), Logged.value_bind]
    cases Exporter.ofConfig? c <;> simp

/-! ### Building twice -/

theorem Source.repair_overwrite (sources : List Source) (c : Config) :
    (overwrite sources (overwrite sources c).repair).repair = (overwrite sources c).repair := by
  refine Config.ext_get fun field => ?_
  -- the shared styles are never repaired
  have hstyle : (overwrite sources (overwrite sources c).repair).style = (overwrite sources c).style := by
    have hagain := Config.Field.style.get_overwrite sources (overwrite sources c).repair
    have honce := Config.Field.style.get_overwrite sources c
    refine hagain.trans (Eq.trans ?_ honce.symm)
    show (Config.Field.style.lastWritten sources).getD (Config.Field.style.get (overwrite sources c)) = _
    rw [honce]
    cases Config.Field.style.lastWritten sources <;> rfl
  rw [field.get_repair, field.get_repair, hstyle, field.get_overwrite, field.get_repair, field.get_overwrite]
  cases field.lastWritten sources with
  | none => exact field.repaired_repaired _ _
  | some value => rfl

/-- **Built configurations are usable, and building them again changes nothing.** If no source aborts, what is built
is fit for a tracer. Each field has the value that was written last, or its default, in both cases repaired with
the styles that were built. And the builder, which keeps what it built, builds the same from its sources again. -/
theorem ConfigBuilder.build_again {sources : List Source} (h : ∀ source ∈ sources, ¬ source.Aborts) :
    ∃ c : Config, (ofSources sources).build.value = some ⟨sources, c⟩ ∧ c.Usable ∧
      (∀ engine transport hasRuntime clock message,
        (Tracer.build engine c transport hasRuntime clock).value ≠ .error (.refused (.invalidConfig message))) ∧
      (∀ {α : Type} (field : Config.Field α), field.get c =
        field.repaired c.style ((field.lastWritten sources).getD (field.get .default))) ∧
      (ConfigBuilder.mk sources c).build.value = some ⟨sources, c⟩ := by
  have hbuild : ∀ c, (ConfigBuilder.mk sources c).build.value =
      some ⟨sources, (Source.overwrite sources c).repair⟩ := fun c => by
    obtain ⟨r, hr, hc⟩ := Option.map_eq_some_iff.mp (Source.loadAll_value h c)
    rw [build_value, hr, Option.map_some, hc]
  have husable := Config.usable_repair (Source.overwrite sources .default)
  refine ⟨_, hbuild .default, husable, Tracer.build_ne_invalidConfig husable.queueCapacity, fun field => ?_, ?_⟩
  · rw [field.get_repair, field.get_overwrite]
    rfl
  · rw [hbuild, Source.repair_overwrite]

/-- Three sources: an environment; fixed values, among them a blank, zeros, no styles and a rate that is not a number,
after which the source fails; and an environment that cannot be used. -/
theorem ConfigBuilder.build_again_failing :
    let nan : Float := 0 / 0
    let environment := [("DD_SERVICE", "checkout"), ("DD_TRACE_PROPAGATION_STYLE", "b3")]
    let fixed : Settings := {
      service := some "  ", sampleRate := some (some nan), queueCapacity := some 0
      styleExtract := some [], styleInject := some [.datadog] }
    let unusable := [("DD_SERVICE", "search"), ("DD_TRACE_PROPAGATION_STYLE", "1")]
    let sources : List Source := [.environment environment, .fixed fixed (some "boom"), .environment unusable]
    (∀ source ∈ sources, ¬ source.Aborts) ∧ nan.isNaN = true ∧
      ∃ c : Config, (ofSources sources).build.value = some ⟨sources, c⟩ ∧
        (ConfigBuilder.mk sources c).build.value = some ⟨sources, c⟩ ∧
        c.service = "unnamed-service" ∧ c.sampleRate = some nan ∧ c.queueCapacity = 1000 ∧
        c.style = [.b3] ∧ c.styleExtract = [.b3] ∧ c.styleInject = [.datadog] := by
  intro nan environment fixed unusable sources
  have hsources : ∀ source ∈ sources, ¬ source.Aborts := by
    have hfirst : firstFailure (table environment) ≠ some .durationOverflow := by decide +kernel
    have hlast : firstFailure (table unusable) ≠ some .durationOverflow := by decide +kernel
    simp only [sources, List.forall_mem_cons]
    exact ⟨mt (firstFailure_eq_overflow _).mpr hfirst, id, mt (firstFailure_eq_overflow _).mpr hlast, by simp⟩
  obtain ⟨hservice, hrate, hcapacity, hstyle, hextract, hinject⟩ :
      Config.Field.service.lastWritten sources = some "  " ∧
      Config.Field.sampleRate.lastWritten sources = some (some nan) ∧
      Config.Field.queueCapacity.lastWritten sources = some 0 ∧
      Config.Field.style.lastWritten sources = some [.b3] ∧
      Config.Field.styleExtract.lastWritten sources = some [] ∧
      Config.Field.styleInject.lastWritten sources = some [.datadog] := by decide +kernel
  obtain ⟨c, hbuilt, -, -, hfields, hagain⟩ := build_again hsources
  have hwritten : ∀ {α : Type} (field : Config.Field α) (value : α), field.lastWritten sources = some value →
      field.get c = field.repaired c.style value := fun field value h => by rw [hfields, h, Option.getD_some]
  have hshared : c.style = [.b3] := hwritten .style _ hstyle
  refine ⟨hsources, by decide +kernel, c, hbuilt, hagain, ?_, hwritten .sampleRate _ hrate,
    hwritten .queueCapacity 0 hcapacity, hshared, (hwritten .styleExtract [] hextract).trans hshared,
    hwritten .styleInject _ hinject⟩
  have hrepaired := hwritten .service "  " hservice
  rw [hshared] at hrepaired
  exact hrepaired.trans (by decide +kernel)

end Tracing
