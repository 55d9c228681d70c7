import Tracing.Proofs.Config.Startup

/-!
# One variable and the settings of the others

All fields are read together, so what becomes of one variable could matter for every setting. Settings other
than the variable's own stay as they are (`Config.AgreeBut`) as long as the lists of styles can be read in
both environments or in neither of them: `Config.agreeBut_of_one_variable`. With a list of styles that cannot
be read all variables are without effect.
-/

namespace Tracing

open Environment

/-! ### Settings that stay -/

/-- The field that a variable sets, the rules included. -/
def Environment.ownField (name : String) : Option String :=
  if name = rulesVariable then some "trace_sampling_rules" else field? name

/-- Two configurations differ at most in the setting of a field. Each direction falls back to the shared
styles and may differ with them. -/
structure Config.AgreeBut (own : Option String) (c c' : Config) : Prop where
  service : own ≠ some "service" → c.service = c'.service
  env : own ≠ some "env" → c.env = c'.env
  version : own ≠ some "version" → c.version = c'.version
  sampleRate : own ≠ some "trace_sample_rate" → c.sampleRate = c'.sampleRate
  rules : own ≠ some "trace_sampling_rules" → c.rules = c'.rules
  rateLimit : own ≠ some "trace_rate_limit" → c.rateLimit = c'.rateLimit
  style : own ≠ some "trace_propagation_style" → c.style = c'.style
  styleExtract : own ≠ some "trace_propagation_style" → own ≠ some "trace_propagation_style_extract" →
    c.styleExtract = c'.styleExtract
  styleInject : own ≠ some "trace_propagation_style" → own ≠ some "trace_propagation_style_inject" →
    c.styleInject = c'.styleInject
  wideTraceIds : own ≠ some "trace_128_bit_traceid_generation_enabled" → c.wideTraceIds = c'.wideTraceIds
  endpointUrl : own ≠ some "trace_endpoint_url" → c.endpointUrl = c'.endpointUrl
  flushInterval : own ≠ some "trace_flush_interval" → c.flushInterval = c'.flushInterval
  queueCapacity : own ≠ some "trace_queue_capacity" → c.queueCapacity = c'.queueCapacity
  flushThreshold : own ≠ some "trace_flush_threshold" → c.flushThreshold = c'.flushThreshold
  maxPayloadBytes : own ≠ some "trace_max_payload_bytes" → c.maxPayloadBytes = c'.maxPayloadBytes
  sendRetries : own ≠ some "trace_send_retries" → c.sendRetries = c'.sendRetries
  sendTimeout : own ≠ some "trace_send_timeout" → c.sendTimeout = c'.sendTimeout
  shutdownTimeout : own ≠ some "trace_shutdown_timeout" → c.shutdownTimeout = c'.shutdownTimeout
  maxValueLength : own ≠ some "trace_recorded_value_max_length" → c.maxValueLength = c'.maxValueLength

theorem Config.AgreeBut.refl (own : Option String) (c : Config) : c.AgreeBut own c := by
  constructor <;> intros <;> rfl

section

variable {one other : List (String × String)} {name : String}

theorem Environment.rulesOf_congr (same : one.filter (fun v => v.1 ≠ name) = other.filter fun v => v.1 ≠ name)
    (h : name ≠ rulesVariable) : rulesOf one = rulesOf other := by
  have hkept : ∀ assignments : List (String × String),
      assignments.find? (·.1 = rulesVariable) =
        (assignments.filter fun v => v.1 ≠ name).find? (·.1 = rulesVariable) := by
    intro assignments
    rw [List.find?_filter]
    congr 1
    funext v
    by_cases hv : v.1 = rulesVariable
    · simp [hv, Ne.symm h]
    · simp [hv]
  unfold rulesOf
  rw [hkept one, same, ← hkept other]

theorem Environment.field?_rulesVariable : field? rulesVariable = none := by decide +kernel

theorem Environment.get?_table_of_ownField
    (same : one.filter (fun v => v.1 ≠ name) = other.filter fun v => v.1 ≠ name) {field : String}
    (h : ownField name ≠ some field) : (table one).get? field = (table other).get? field := by
  refine get?_table_congr same fun hfield => h ?_
  rw [ownField, if_neg, hfield]
  rintro rfl
  rw [field?_rulesVariable] at hfield
  cases hfield

theorem Environment.stylesUnreadable_congr
    (same : one.filter (fun v => v.1 ≠ name) = other.filter fun v => v.1 ≠ name)
    (h : ∀ field ∈ styleFields, ownField name ≠ some field) :
    StylesUnreadable one ↔ StylesUnreadable other := by
  unfold StylesUnreadable
  refine exists_congr fun field => and_congr_right fun hfield => ?_
  rw [get?_table_of_ownField same (h field hfield)]

/-- Settings that are read field by field agree but for the variable's own. -/
theorem Config.agreeBut_of_readable
    (same : one.filter (fun v => v.1 ≠ name) = other.filter fun v => v.1 ≠ name) (config : Config) :
    Config.AgreeBut (ownField name)
      ({ settingsOf (table one) with rules := rulesOf one }.applyTo config).repair
      ({ settingsOf (table other) with rules := rulesOf other }.applyTo config).repair := by
  have hget {field : String} (h : ownField name ≠ some field) := get?_table_of_ownField same h
  constructor
  case rules =>
    intro h
    have hname : name ≠ rulesVariable := by
      rintro rfl
      exact h (if_pos rfl)
    simp only [repair, Settings.applyTo, rulesOf_congr same hname]
  case styleExtract | styleInject =>
    intro hshared h
    simp only [repair, Settings.applyTo, settingsOf, hget h, hget hshared]
  all_goals
    intro h
    simp only [repair, Settings.applyTo, settingsOf, hget h]

end

/-! ### One variable -/

theorem Config.eq_default_of_stylesUnreadable {assignments : List (String × String)} {c : Config}
    (h : (Config.ofEnvironment assignments).value = some c) (hstyles : StylesUnreadable assignments) :
    c = Config.default.repair := by
  rw [ofEnvironment_value] at h
  split at h
  · next hfirst => exact absurd hstyles (not_stylesUnreadable_of_firstFailure hfirst)
  · cases h
  · exact (Option.some.inj h).symm

theorem Config.eq_of_not_stylesUnreadable {assignments : List (String × String)} {c : Config}
    (h : (Config.ofEnvironment assignments).value = some c) (hstyles : ¬ StylesUnreadable assignments) :
    c = ({ settingsOf (table assignments) with rules := rulesOf assignments }.applyTo default).repair := by
  rw [ofEnvironment_value] at h
  split at h
  · exact (Option.some.inj h).symm
  · cases h
  · next hfirst => exact absurd (stylesUnreadable_of_firstFailure hfirst).1 hstyles

/-- **A variable has no effect on the settings of the others** if the styles can be read in both environments
or in neither; so it is for every variable that is not about styles. An environment whose styles cannot be
read has the default settings, whatever else it says. -/
theorem Config.agreeBut_of_one_variable {one other : List (String × String)} {name : String} {c c' : Config}
    (same : one.filter (fun v => v.1 ≠ name) = other.filter fun v => v.1 ≠ name)
    (hc : (Config.ofEnvironment one).value = some c) (hc' : (Config.ofEnvironment other).value = some c') :
    ((∀ field ∈ styleFields, ownField name ≠ some field) → c.AgreeBut (ownField name) c') ∧
    ((StylesUnreadable one ↔ StylesUnreadable other) → c.AgreeBut (ownField name) c') ∧
    (StylesUnreadable one → c = Config.default.repair) := by
  have halike : (StylesUnreadable one ↔ StylesUnreadable other) → c.AgreeBut (ownField name) c' := by
    intro hiff
    by_cases hstyles : StylesUnreadable one
    · rw [eq_default_of_stylesUnreadable hc hstyles, eq_default_of_stylesUnreadable hc' (hiff.mp hstyles)]
      exact .refl _ _
    · rw [eq_of_not_stylesUnreadable hc hstyles, eq_of_not_stylesUnreadable hc' ((not_congr hiff).mp hstyles)]
      exact agreeBut_of_readable same _
  exact ⟨fun h => halike (stylesUnreadable_congr same h), halike, eq_default_of_stylesUnreadable hc⟩

/-- A sample rate that is no number leaves the name of the service as it is. -/
theorem Config.agreeBut_of_one_variable_rate :
    ∃ c c' : Config,
      (Config.ofEnvironment [("DD_SERVICE", "checkout"), ("DD_TRACE_SAMPLE_RATE", "two")]).value = some c ∧
      (Config.ofEnvironment [("DD_SERVICE", "checkout")]).value = some c' ∧
      c.service = "checkout" ∧ c.AgreeBut (some "trace_sample_rate") c' := by
  have hservice : ((Config.ofEnvironment
      [("DD_SERVICE", "checkout"), ("DD_TRACE_SAMPLE_RATE", "two")]).value.map Config.service) =
        some "checkout" := by decide +kernel
  have hbuilt : (Config.ofEnvironment [("DD_SERVICE", "checkout")]).value.isSome = true := by decide +kernel
  have hown : ownField "DD_TRACE_SAMPLE_RATE" = some "trace_sample_rate" := by decide +kernel
  obtain ⟨c, hc, hname⟩ := Option.map_eq_some_iff.mp hservice
  obtain ⟨c', hc'⟩ := Option.isSome_iff_exists.mp hbuilt
  have same : [("DD_SERVICE", "checkout"), ("DD_TRACE_SAMPLE_RATE", "two")].filter
      (fun v => v.1 ≠ "DD_TRACE_SAMPLE_RATE") =
        [("DD_SERVICE", "checkout")].filter fun v => v.1 ≠ "DD_TRACE_SAMPLE_RATE" := by decide
  have hagree := (agreeBut_of_one_variable same hc hc').1
  rw [hown] at hagree
  exact ⟨c, c', hc, hc', hname, hagree (by decide)⟩

/-- A style that is a number hides the name of the service. -/
theorem Config.not_agreeBut_number_style :
    ∃ c c' : Config,
      (Config.ofEnvironment [("DD_SERVICE", "checkout"), ("DD_TRACE_PROPAGATION_STYLE", "1")]).value = some c ∧
      (Config.ofEnvironment [("DD_SERVICE", "checkout")]).value = some c' ∧
      c.service = "unnamed-service" ∧ c'.service = "checkout" ∧
      ¬ c.AgreeBut (ownField "DD_TRACE_PROPAGATION_STYLE") c' := by
  have hone : ((Config.ofEnvironment
      [("DD_SERVICE", "checkout"), ("DD_TRACE_PROPAGATION_STYLE", "1")]).value.map Config.service) =
        some "unnamed-service" := by decide +kernel
  have hother : ((Config.ofEnvironment [("DD_SERVICE", "checkout")]).value.map Config.service) =
      some "checkout" := by decide +kernel
  obtain ⟨c, hc, hname⟩ := Option.map_eq_some_iff.mp hone
  obtain ⟨c', hc', hname'⟩ := Option.map_eq_some_iff.mp hother
  refine ⟨c, c', hc, hc', hname, hname', fun hagree => ?_⟩
  have hsame := hagree.service (by decide +kernel)
  rw [hname, hname'] at hsame
  exact absurd hsame (by decide)

end Tracing
