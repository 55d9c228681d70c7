import Tracing.Config.Builder

/-!
# Fields of an environment

The reader of an environment goes through the variables, merges what they say about each field, and then
goes through the fields until one of them fails. Here this is said field by field:

* `fields_eq`: the merged values are the entries of a dictionary, the `table` of the environment, and
  `get?_table_congr`: what it holds for a field depends on the variables that name that field alone;
* `settingsOf`: every setting is read from the value of its own field;
* `load_value`: loading ends with the first failure in the order of the fields, and with those settings if
  there is none.
-/

namespace Tracing.Environment

/-! ### The table of an environment -/

/-- The field that a variable is about. -/
def field? (name : String) : Option String := (fieldPath name).bind List.head?

/-- The value of a field after a variable with the rest of a path was written over an old value. -/
def mergeInto (old : Option Json) (path : List String) (text : String) : Json :=
  let value := nest (Variable.read text.toList) path
  match old with
  | some before => merge before value
  | none => value

/-- The values of all fields after one more variable. -/
def write (table : Dict Json) (v : String × String) : Dict Json :=
  match fieldPath v.1 with
  | some (field :: path) => table.insert field (mergeInto (table.get? field) path v.2)
  | _ => table

/-- The values of the fields that an environment names. -/
def table (assignments : List (String × String)) : Dict Json := assignments.foldl write ∅

theorem fieldPath_ne_nil (name : String) : fieldPath name ≠ some [] := by
  unfold fieldPath
  simp only
  split
  · next key _ =>
    split
    · simp
    · simp [Text.splitOn_ne_nil]
  · simp

/-- What is read of the fields after one more variable. -/
def readAlso (read : List (String × Json)) (v : String × String) : List (String × Json) :=
  match fieldPath v.1 with
  | some path =>
    match merge (.obj read) (nest (Variable.read v.2.toList) path) with
    | .obj members => members
    | _ => read
  | none => read

theorem fields_eq_foldl (assignments : List (String × String)) :
    fields assignments = assignments.foldl readAlso [] := rfl

theorem readAlso_entries (d : Dict Json) (v : String × String) :
    readAlso d.entries v = (write d v).entries := by
  unfold readAlso write
  cases hpath : fieldPath v.1 with
  | none => rfl
  | some path =>
    cases path with
    | nil => exact absurd hpath (fieldPath_ne_nil v.1)
    | cons field path =>
      simp only [nest, merge, mergeMembers]
      rfl

theorem foldl_readAlso (later : List (String × String)) (d : Dict Json) :
    later.foldl readAlso d.entries = (later.foldl write d).entries := by
  induction later generalizing d with
  | nil => rfl
  | cons v later ih => rw [List.foldl_cons, List.foldl_cons, readAlso_entries, ih]

/-- **The fields that are read are the entries of the table.** -/
theorem fields_eq (assignments : List (String × String)) : fields assignments = (table assignments).entries := by
  rw [fields_eq_foldl]
  exact foldl_readAlso assignments ∅

/-- The value of a field after one more variable, from its value before. -/
def writeField (field : String) (old : Option Json) (v : String × String) : Option Json :=
  match fieldPath v.1 with
  | some (named :: path) => if named = field then some (mergeInto old path v.2) else old
  | _ => old

theorem get?_write (d : Dict Json) (v : String × String) (field : String) :
    (write d v).get? field = writeField field (d.get? field) v := by
  unfold write writeField
  split
  · next named path hpath =>
    rw [Dict.get?_insert]
    split
    · next heq => rw [heq]
    · rfl
  · rfl

theorem writeField_of_ne {field : String} {v : String × String} (h : field? v.1 ≠ some field)
    (old : Option Json) : writeField field old v = old := by
  unfold writeField
  split
  · next named path hpath =>
    rw [field?, hpath] at h
    exact if_neg fun heq => h (congrArg some heq)
  · rfl

theorem get?_table (assignments : List (String × String)) (field : String) :
    (table assignments).get? field = assignments.foldl (writeField field) none := by
  have hfold : ∀ (later : List (String × String)) (d : Dict Json),
      (later.foldl write d).get? field = later.foldl (writeField field) (d.get? field) := by
    intro later
    induction later with
    | nil => exact fun d => rfl
    | cons v later ih =>
      intro d
      rw [List.foldl_cons, List.foldl_cons, ih, get?_write]
  exact hfold assignments ∅

theorem get?_table_filter (assignments : List (String × String)) {name field : String}
    (h : field? name ≠ some field) :
    (table (assignments.filter fun v => v.1 ≠ name)).get? field = (table assignments).get? field := by
  rw [get?_table, get?_table, List.foldl_filter]
  congr 1
  funext old v
  by_cases hv : v.1 = name
  · rw [writeField_of_ne (hv ▸ h)]
    simp
  · simp [hv]

/-- **The value of a field depends on the variables about it alone.** -/
theorem get?_table_congr {one other : List (String × String)} {name field : String}
    (same : one.filter (fun v => v.1 ≠ name) = other.filter fun v => v.1 ≠ name)
    (h : field? name ≠ some field) : (table one).get? field = (table other).get? field := by
  rw [← get?_table_filter one h, same, get?_table_filter other h]

/-! ### Settings, field by field -/

/-- What a reader found, nothing if it failed. -/
def found {α : Type} : Except Failure (Option α) → Option α
  | .ok value => value
  | .error _ => none

/-- Why a reader failed. -/
def cause {α : Type} : Except Failure α → Option Failure
  | .ok _ => none
  | .error e => some e

/-- The settings that the values of the fields make, each from the value of its own field. -/
def settingsOf (d : Dict Json) : Settings where
  service := (d.get? "service").bind readText
  env := (d.get? "env").bind fun v => (readText v).map some
  version := (d.get? "version").bind fun v => (readText v).map some
  endpointUrl := (d.get? "trace_endpoint_url").bind readText
  sampleRate := (d.get? "trace_sample_rate").bind fun v => (readRate v).value.map some
  rateLimit := (d.get? "trace_rate_limit").bind fun v => (readAmount v).value
  style := (d.get? "trace_propagation_style").bind fun v => found (readStyles v).value
  styleExtract := (d.get? "trace_propagation_style_extract").bind fun v => found (readStyles v).value
  styleInject := (d.get? "trace_propagation_style_inject").bind fun v => found (readStyles v).value
  wideTraceIds :=
    (d.get? "trace_128_bit_traceid_generation_enabled").bind fun v => (readSwitch v).value
  flushInterval := (d.get? "trace_flush_interval").bind fun v => found (readDuration v).value
  sendTimeout := (d.get? "trace_send_timeout").bind fun v => found (readDuration v).value
  shutdownTimeout := (d.get? "trace_shutdown_timeout").bind fun v => found (readDuration v).value
  queueCapacity := (d.get? "trace_queue_capacity").bind fun v => (readCount v).value
  flushThreshold := (d.get? "trace_flush_threshold").bind fun v => (readCount v).value
  maxPayloadBytes := (d.get? "trace_max_payload_bytes").bind fun v => (readCount v).value
  sendRetries := (d.get? "trace_send_retries").bind fun v => (readCount v).value
  maxValueLength := (d.get? "trace_recorded_value_max_length").bind fun v => (readCount v).value

/-- The fields that hold lists of styles. -/
def styleFields : List String :=
  ["trace_propagation_style", "trace_propagation_style_extract", "trace_propagation_style_inject"]

/-- The fields that hold durations. -/
def durationFields : List String :=
  ["trace_flush_interval", "trace_send_timeout", "trace_shutdown_timeout"]

/-- Why a value cannot be read into a field, if it cannot. -/
def failure? (field : String) (value : Json) : Option Failure :=
  if field ∈ styleFields then cause (readStyles value).value
  else if field ∈ durationFields then cause (readDuration value).value
  else none

theorem map_eq {α : Type} (r : Except Failure (Option α)) (f : Option α → Settings) :
    r.map f = match cause r with
      | some e => .error e
      | none => .ok (f (found r)) := by
  cases r <;> rfl

/-- **Reading a field fails, or replaces the value of that field.** -/
theorem readField_settingsOf (d : Dict Json) (field : String) (value : Json) :
    (readField (settingsOf d) field value).value =
      match failure? field value with
      | some e => .error e
      | none => .ok (settingsOf (d.insert field value)) := by
  -- one case for every field, and one for all names that are no field
  unfold readField
  split
  case h_19 => simp_all [settingsOf, failure?, styleFields, durationFields, Dict.get?_insert]
  all_goals simp [settingsOf, failure?, styleFields, durationFields, Dict.get?_insert, map_eq]

/-- The first failure among the values of the fields, in the order of the fields. -/
def firstFailure (d : Dict Json) : Option Failure := d.entries.findSome? fun e => failure? e.1 e.2

theorem readFields_settingsOf (entries : List (String × Json)) (d : Dict Json) :
    (readFields (settingsOf d) entries).value =
      match entries.findSome? fun e => failure? e.1 e.2 with
      | some e => .error e
      | none => .ok (settingsOf (entries.foldl (fun d e => d.insert e.1 e.2) d)) := by
  induction entries generalizing d with
  | nil => rfl
  | cons e rest ih =>
    obtain ⟨field, value⟩ := e
    unfold readFields
    rw [Logged.value_bind, readField_settingsOf, List.findSome?_cons]
    cases failure? field value with
    | some e => rfl
    | none => exact ih _

/-- The rules that an environment holds, nothing if they cannot be read. -/
def rulesOf (assignments : List (String × String)) : Option (List RuleConfig) :=
  (assignments.find? (·.1 = rulesVariable)).bind fun v => (RuleConfig.readList (.str v.2)).value

/-- **Loading an environment** ends with the first failure, or every field has its own setting. -/
theorem load_value (assignments : List (String × String)) :
    (load assignments).value =
      match firstFailure (table assignments) with
      | some e => .error e
      | none => .ok { settingsOf (table assignments) with rules := rulesOf assignments } := by
  have hread := readFields_settingsOf (table assignments).entries ∅
  have hempty : settingsOf ∅ = {} := rfl
  have htable := Dict.ofList_entries (table assignments)
  unfold Dict.ofList at htable
  rw [hempty, htable] at hread
  unfold load firstFailure rulesOf
  rw [fields_eq, Logged.value_bind, hread]
  cases (table assignments).entries.findSome? fun e => failure? e.1 e.2 with
  | some e => rfl
  | none =>
    cases assignments.find? (·.1 = rulesVariable) with
    | none => rfl
    | some v => rfl

end Tracing.Environment
