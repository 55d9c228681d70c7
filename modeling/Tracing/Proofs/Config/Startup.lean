import Tracing.Proofs.Config.Durations
import Tracing.Proofs.Config.Fields
import Tracing.Proofs.Dict

/-!
# When an environment cannot be used

Only two kinds of values are not simply ignored when they do not suit their field. A list of styles that is
no text makes the whole environment unusable (`StylesUnreadable`), and a duration from `2 ^ 64` seconds on
stops the program (`DurationOverflows`). Fields are read in the order of their names, so a list of styles
that cannot be read hides the durations behind it: `firstFailure_eq_overflow`.

* `Config.returned_iff`: a configuration is built exactly unless an environment stops the program.
-/

namespace Tracing

namespace Environment

/-! ### Values that fail -/

/-- Whether a value can be read as a list of styles. -/
def isTextual : Json → Bool
  | .str _ | .null => true
  | _ => false

/-- A value that is a number of seconds out of range, or spells one. -/
def OutOfRange (value : Json) : Prop :=
  ∃ seconds, readFloat value = some seconds ∧ seconds.isFinite = true ∧ secondsLimit ≤ seconds

theorem cause_readStyles (value : Json) :
    cause (readStyles value).value = if isTextual value then none else some .styleNotText := by
  cases value <;> rfl

theorem pos_of_secondsLimit_le {x : Float} (hfinite : x.isFinite = true) (h : secondsLimit ≤ x) : 0 < x := by
  have hle : secondsLimit.toModel.le x.toModel = true := by simpa [Float.le, LE.le] using h
  have hfinite' : x.toModel.unpack.isFinite = true := hfinite
  have hpos : (Float.toModel 0).lt x.toModel = true := by
    have hlimit : secondsLimit.toModel.unpack = .finite .positive (2 ^ 52) 12 (by decide) := rfl
    change secondsLimit.toModel.unpack.le x.toModel.unpack = true at hle
    change (Float.Model.UnpackedFloat.zero .positive).lt x.toModel.unpack = true
    rw [hlimit] at hle
    generalize x.toModel.unpack = unpacked at hle hfinite' ⊢
    cases unpacked with
    | infinity | notANumber => cases hfinite'
    | zero => cases hle
    | finite sign =>
      cases sign with
      | negative => cases hle
      | positive => rfl
  simpa [Float.lt, LT.lt] using hpos

theorem cause_readDuration {value : Json} {e : Failure} :
    cause (readDuration value).value = some e ↔ e = .durationOverflow ∧ OutOfRange value := by
  unfold readDuration OutOfRange
  cases hread : readFloat value with
  | none => simp [cause]
  | some seconds =>
    simp only [Option.filter_some, Option.some.injEq, exists_eq_left', Bool.and_eq_true, decide_eq_true_eq]
    by_cases hvalid : seconds.isFinite = true ∧ 0 < seconds
    · have hrange := nanosOfSeconds?_eq_none hvalid.1 hvalid.2
      rw [if_pos hvalid]
      cases hnanos : nanosOfSeconds? seconds with
      | none => simp [cause, hnanos, hvalid.1, hrange.mp hnanos, eq_comm]
      | some nanos =>
        have hlow : ¬ secondsLimit ≤ seconds := fun h => by
          rw [hrange.mpr h] at hnanos
          cases hnanos
        simp [cause, hnanos, hlow]
    · have hlow : ¬ (seconds.isFinite = true ∧ secondsLimit ≤ seconds) :=
        fun h => hvalid ⟨h.1, pos_of_secondsLimit_le h.1 h.2⟩
      rw [if_neg hvalid]
      simp [cause, hlow]

/-! ### The first failure -/

/-- A field for styles has a value that cannot be read as a list of styles. -/
def StylesUnreadable (assignments : List (String × String)) : Prop :=
  ∃ field ∈ styleFields, ∃ value, (table assignments).get? field = some value ∧ isTextual value = false

/-- A field has a duration that is out of range. -/
def DurationOverflows (assignments : List (String × String)) (field : String) : Prop :=
  ∃ value, (table assignments).get? field = some value ∧ OutOfRange value

/-- An environment stops the program. -/
def Stops (assignments : List (String × String)) : Prop :=
  DurationOverflows assignments "trace_flush_interval" ∨
    ¬ StylesUnreadable assignments ∧
      (DurationOverflows assignments "trace_send_timeout" ∨
        DurationOverflows assignments "trace_shutdown_timeout")

theorem failure?_eq_styleNotText {field : String} {value : Json} :
    failure? field value = some .styleNotText ↔ field ∈ styleFields ∧ isTextual value = false := by
  unfold failure?
  split
  · next h => simp [cause_readStyles, h]
  · next h =>
    split
    · simp [cause_readDuration, h]
    · simp [h]

theorem failure?_eq_durationOverflow {field : String} {value : Json} :
    failure? field value = some .durationOverflow ↔ field ∈ durationFields ∧ OutOfRange value := by
  unfold failure?
  split
  · next h =>
    have hnot : field ∉ durationFields := by
      intro hduration
      simp only [styleFields, durationFields, List.mem_cons, List.not_mem_nil, or_false] at h hduration
      rcases h with rfl | rfl | rfl <;> simp at hduration
    simp [cause_readStyles, hnot]
  · split
    · next h => simp [cause_readDuration, h]
    · next h => simp [h]

theorem failure?_of_firstFailure_eq_none {d : Dict Json} {field : String} {value : Json}
    (h : firstFailure d = none) (hvalue : d.get? field = some value) : failure? field value = none :=
  List.findSome?_eq_none_iff.mp h _ (Dict.mem_of_get? hvalue)

/-- The first failure is that of a field, and no field with a smaller name fails. -/
theorem exists_of_firstFailure_eq_some {d : Dict Json} {e : Failure} (h : firstFailure d = some e) :
    ∃ field value, d.get? field = some value ∧ failure? field value = some e ∧
      ∀ other v, d.get? other = some v → other < field → failure? other v = none := by
  obtain ⟨front, entry, back, hentries, hfails, hfront⟩ := List.findSome?_eq_some_iff.mp h
  refine ⟨entry.1, entry.2, Dict.get?_of_mem (by simp [hentries]), hfails, ?_⟩
  intro other v hother hlt
  have hmem := Dict.mem_of_get? hother
  rw [hentries, List.mem_append, List.mem_cons] at hmem
  rcases hmem with hmem | rfl | hmem
  · exact hfront _ hmem
  · exact absurd hlt (String.lt_irrefl _)
  · exact absurd (String.lt_trans hlt (Dict.lt_of_entries_eq hentries _ hmem)) (String.lt_irrefl _)

theorem order_of_fields {style : String} (h : style ∈ styleFields) :
    style < "trace_send_timeout" ∧ style < "trace_shutdown_timeout" ∧ "trace_flush_interval" < style := by
  simp only [styleFields, List.mem_cons, List.not_mem_nil, or_false] at h
  rcases h with rfl | rfl | rfl <;> decide

theorem stylesUnreadable_of_firstFailure {assignments : List (String × String)}
    (h : firstFailure (table assignments) = some .styleNotText) :
    StylesUnreadable assignments ∧ ¬ DurationOverflows assignments "trace_flush_interval" := by
  obtain ⟨field, value, hvalue, hfails, hfirst⟩ := exists_of_firstFailure_eq_some h
  obtain ⟨hfield, htext⟩ := failure?_eq_styleNotText.mp hfails
  refine ⟨⟨field, hfield, value, hvalue, htext⟩, ?_⟩
  rintro ⟨seconds, hseconds, hrange⟩
  have hnone := hfirst _ _ hseconds (order_of_fields hfield).2.2
  rw [failure?_eq_durationOverflow.mpr ⟨by simp [durationFields], hrange⟩] at hnone
  cases hnone

theorem not_stylesUnreadable_of_firstFailure {assignments : List (String × String)}
    (h : firstFailure (table assignments) = none) : ¬ StylesUnreadable assignments := by
  rintro ⟨field, hfield, value, hvalue, htext⟩
  have hnone := failure?_of_firstFailure_eq_none h hvalue
  rw [failure?_eq_styleNotText.mpr ⟨hfield, htext⟩] at hnone
  cases hnone

theorem not_durationOverflows_of_firstFailure {assignments : List (String × String)} {field : String}
    (h : firstFailure (table assignments) = none) (hfield : field ∈ durationFields) :
    ¬ DurationOverflows assignments field := by
  rintro ⟨value, hvalue, hrange⟩
  have hnone := failure?_of_firstFailure_eq_none h hvalue
  rw [failure?_eq_durationOverflow.mpr ⟨hfield, hrange⟩] at hnone
  cases hnone

theorem stops_of_firstFailure {assignments : List (String × String)}
    (h : firstFailure (table assignments) = some .durationOverflow) : Stops assignments := by
  obtain ⟨field, value, hvalue, hfails, hfirst⟩ := exists_of_firstFailure_eq_some h
  obtain ⟨hfield, hrange⟩ := failure?_eq_durationOverflow.mp hfails
  have hoverflows : DurationOverflows assignments field := ⟨value, hvalue, hrange⟩
  -- a styles field that cannot be read would fail first, but for the flush interval
  have hreadable : (∀ style ∈ styleFields, style < field) → ¬ StylesUnreadable assignments := by
    rintro hlt ⟨style, hstyle, v, hv, htext⟩
    have hnone := hfirst style v hv (hlt style hstyle)
    rw [failure?_eq_styleNotText.mpr ⟨hstyle, htext⟩] at hnone
    cases hnone
  simp only [durationFields, List.mem_cons, List.not_mem_nil, or_false] at hfield
  rcases hfield with rfl | rfl | rfl
  · exact .inl hoverflows
  · exact .inr ⟨hreadable fun style hstyle => (order_of_fields hstyle).1, .inl hoverflows⟩
  · exact .inr ⟨hreadable fun style hstyle => (order_of_fields hstyle).2.1, .inr hoverflows⟩

/-- **An environment stops the program** with the first failure only if nothing in front of it fails. -/
theorem firstFailure_eq_overflow (assignments : List (String × String)) :
    firstFailure (table assignments) = some .durationOverflow ↔ Stops assignments := by
  refine ⟨stops_of_firstFailure, fun hstops => ?_⟩
  cases hfirst : firstFailure (table assignments) with
  | none =>
    rcases hstops with h | ⟨-, h | h⟩
    all_goals exact absurd h (not_durationOverflows_of_firstFailure hfirst (by decide))
  | some e =>
    cases e with
    | durationOverflow => rfl
    | styleNotText =>
      obtain ⟨hunreadable, hflush⟩ := stylesUnreadable_of_firstFailure hfirst
      rcases hstops with h | ⟨h, -⟩
      · exact absurd h hflush
      · exact absurd hunreadable h

end Environment

/-! ### Building a configuration -/

open Environment

theorem Source.load_environment (assignments : List (String × String)) (config : Config) :
    ((Source.environment assignments).load config).value =
      match firstFailure (table assignments) with
      | none => .loaded ({ settingsOf (table assignments) with rules := rulesOf assignments }.applyTo config)
      | some .durationOverflow => .aborted
      | some .styleNotText => .failed config := by
  rw [load, Logged.value_bind, load_value]
  cases firstFailure (table assignments) with
  | none => rfl
  | some e => cases e <;> rfl

/-- **An environment is loaded without a stop** unless it holds a duration out of range. -/
theorem Source.load_environment_eq_aborted (assignments : List (String × String)) (config : Config) :
    ((Source.environment assignments).load config).value = .aborted ↔ Stops assignments := by
  rw [Source.load_environment, ← firstFailure_eq_overflow]
  cases firstFailure (table assignments) with
  | none => simp
  | some e => cases e <;> simp

theorem Source.load_fixed_ne_aborted (settings : Settings) (failure : Option String) (config : Config) :
    ((Source.fixed settings failure).load config).value ≠ .aborted := by
  cases failure <;> simp [load]

/-- A source stops the program. -/
def Source.Aborts : Source → Prop
  | .environment assignments => Stops assignments
  | .fixed _ _ => False

theorem Source.load_eq_aborted (source : Source) (config : Config) :
    (source.load config).value = .aborted ↔ source.Aborts := by
  cases source with
  | environment assignments => exact load_environment_eq_aborted assignments config
  | fixed settings failure => simp [load_fixed_ne_aborted, Aborts]

theorem Source.loadAll_eq_none (sources : List Source) (config : Config) :
    (loadAll config sources).value = none ↔ ∃ source ∈ sources, source.Aborts := by
  induction sources generalizing config with
  | nil => simp [loadAll]
  | cons source sources ih =>
    have hload := load_eq_aborted source config
    rw [loadAll, Logged.value_bind]
    simp only [List.mem_cons, exists_eq_or_imp, ← hload]
    cases (source.load config).value with
    | loaded config => simp [ih]
    | failed config => simp [ih]
    | aborted => simp

theorem ConfigBuilder.build_value (b : ConfigBuilder) :
    b.build.value = (Source.loadAll b.config b.sources).value.map fun r => { b with config := r.1.repair } := by
  rw [build, Logged.value_bind]
  cases (Source.loadAll b.config b.sources).value with
  | none => rfl
  | some r =>
    obtain ⟨config, failures⟩ := r
    simp only
    split <;> rfl

theorem ConfigBuilder.build_eq_none (b : ConfigBuilder) :
    b.build.value = none ↔ ∃ source ∈ b.sources, source.Aborts := by
  rw [build_value, Option.map_eq_none_iff, Source.loadAll_eq_none]

theorem Config.ofEnvironment_value (assignments : List (String × String)) :
    (Config.ofEnvironment assignments).value =
      match firstFailure (table assignments) with
      | none => some ({ settingsOf (table assignments) with rules := rulesOf assignments }.applyTo default).repair
      | some .durationOverflow => none
      | some .styleNotText => some Config.default.repair := by
  have hload := Source.load_environment assignments .default
  rw [ofEnvironment, Logged.value_bind, ConfigBuilder.build_value]
  simp only [ConfigBuilder.ofSources, Source.loadAll, Logged.value_bind, hload]
  cases firstFailure (table assignments) with
  | none => rfl
  | some e => cases e <;> rfl

/-- **A configuration comes back exactly unless an environment stops the program**: loading an environment
into any configuration, the configuration of the environment alone, and building from any sources. -/
theorem Config.returned_iff (assignments : List (String × String)) (config : Config) (b : ConfigBuilder) :
    (((Source.environment assignments).load config).value ≠ .aborted ↔ ¬ Stops assignments) ∧
    ((Config.ofEnvironment assignments).value.isSome = true ↔ ¬ Stops assignments) ∧
    (b.build.value.isSome = true ↔ ∀ loaded, .environment loaded ∈ b.sources → ¬ Stops loaded) := by
  refine ⟨not_congr (Source.load_environment_eq_aborted assignments config), ?_, ?_⟩
  · rw [Config.ofEnvironment_value, ← firstFailure_eq_overflow]
    cases firstFailure (table assignments) with
    | none => simp
    | some e => cases e <;> simp
  · rw [Option.isSome_iff_ne_none, Ne, ConfigBuilder.build_eq_none, not_exists]
    constructor
    · exact fun h loaded hmem hstops => h _ ⟨hmem, hstops⟩
    · rintro h source ⟨hmem, haborts⟩
      cases source with
      | environment loaded => exact h loaded hmem haborts
      | fixed settings failure => exact haborts

/-- A flush interval of `10 ^ 30` seconds stops the program. -/
theorem Config.not_returned_long_interval :
    (Config.ofEnvironment [("DD_TRACE_FLUSH_INTERVAL", "1e30")]).value = none := by
  decide +kernel

end Tracing
