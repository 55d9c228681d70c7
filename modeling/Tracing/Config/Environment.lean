import Tracing.Config.Rules
import Tracing.Config.Variable
import Tracing.Propagation.Style

/-!
# Settings from environment variables

Variables that start with `DD_` in any case configure the fields of the same name. A value that does not
suit its field is reported and ignored, with two exceptions: a propagation style that is no text makes the
whole environment unusable, and a duration beyond the range of 64-bit seconds stops the program.
-/

namespace Tracing

open Text

/-! ### Durations -/

/-- The integer nearest to `num / den`, an exact half going to the even one. -/
def roundHalfEven (num den : Nat) : Nat :=
  let q := num / den
  let twice := 2 * (num % den)
  if den < twice ∨ (twice = den ∧ q % 2 = 1) then q + 1 else q

/-- A positive number of seconds in nanoseconds, to the nearest one; nothing from `2 ^ 64` seconds on. -/
def nanosOfSeconds? (seconds : Float) : Option Nat :=
  let b := Decimal.binaryOf seconds
  let num := b.mantissa <<< b.exponent.toNat
  let den := 1 <<< (-b.exponent).toNat
  if num / den < 1 <<< 64 then some (roundHalfEven (num * second) den) else none

/-! ### Reading one value -/

namespace Environment

/-- Why an environment cannot be used. -/
inductive Failure where
  /-- A style list that is no text. -/
  | styleNotText
  /-- A duration out of range. -/
  | durationOverflow
deriving DecidableEq, Repr

/-- An optional text: blanks around it are cut, a number stands for its text. -/
def readText : Json → Option String
  | .str s =>
    let text := trim s.toList
    if text.isEmpty then none else some (String.ofList text)
  | .int n => some (Json.int n).text
  | .float x => if x.isNaN || x.isInf then none else some (Json.float x).text
  | _ => none

/-- The number that a value holds or spells. -/
def readFloat : Json → Option Float
  | .int n => some (Float.ofInt n)
  | .float x => if x.isNaN || x.isInf then none else some x
  | .str s => Decimal.readFloat (trim s.toList)
  | _ => none

/-- Reports a value that its field refuses. -/
def refuse {α : Type} (what : String) (value : Json) (expected : String) : Logged (Option α) := do
  log .error ("Invalid " ++ what ++ " " ++ value.text ++ expected ++ ", ignoring")
  return none

/-- A finite number that is not negative. -/
def readAmount (value : Json) : Logged (Option Float) :=
  match (readFloat value).filter fun x => x.isFinite && 0 ≤ x with
  | some x => return some x
  | none => refuse "non-negative number" value ""

/-- A number between zero and one. -/
def readRate (value : Json) : Logged (Option Float) :=
  match (readFloat value).filter fun x => 0 ≤ x && x ≤ 1 with
  | some x => return some x
  | none => refuse "sample rate" value ", expected a number between 0 and 1"

/-- A whole number of 64 bits. -/
def readCount (value : Json) : Logged (Option Nat) :=
  let count := match value with
    | .int n => if 0 ≤ n then some n.toNat else none
    | .str s => Integer.readBelow (1 <<< 64) (trim s.toList)
    | _ => none
  match count with
  | some n => return some n
  | none => refuse "unsigned integer" value ""

/-- A truth value, as itself, a number or a word. -/
def readSwitch (value : Json) : Logged (Option Bool) :=
  let switch := match value with
    | .bool b => some b
    | .int n => if 0 ≤ n then some (n != 0) else none
    | .str s =>
      let word := String.ofList (lower (trim s.toList))
      if word = "true" ∨ word = "1" ∨ word = "yes" then some true
      else if word = "false" ∨ word = "0" ∨ word = "no" then some false
      else none
    | _ => none
  match switch with
  | some b => return some b
  | none => refuse "boolean" value ""

/-- A positive number of seconds. -/
def readDuration (value : Json) : Logged (Except Failure (Option Nat)) :=
  match (readFloat value).filter fun x => x.isFinite && 0 < x with
  | some seconds =>
    match nanosOfSeconds? seconds with
    | some nanos => return .ok (some nanos)
    | none => return .error .durationOverflow
  | none => do
    let refused ← refuse "duration" value ", expected a positive number of seconds"
    return .ok refused

/-- A list of styles; nothing if the list is empty. -/
def readStyles (value : Json) : Logged (Except Failure (Option (List Style))) :=
  match value with
  | .str s => do
    let styles ← Style.readList s
    return .ok (if styles.isEmpty then none else some styles)
  | .null => return .ok none
  | _ => return .error .styleNotText

/-! ### Reading all variables -/

/-- Reads the value of one field into the settings. A field that is not known is skipped. -/
def readField (s : Settings) (key : String) (value : Json) : Logged (Except Failure Settings) :=
  match key with
  | "service" => return .ok { s with service := readText value }
  | "env" => return .ok { s with env := (readText value).map some }
  | "version" => return .ok { s with version := (readText value).map some }
  | "trace_endpoint_url" => return .ok { s with endpointUrl := readText value }
  | "trace_sample_rate" => do
    let rate ← readRate value
    return .ok { s with sampleRate := rate.map some }
  | "trace_rate_limit" => do
    let limit ← readAmount value
    return .ok { s with rateLimit := limit }
  | "trace_propagation_style" => do
    let styles ← readStyles value
    return styles.map fun styles => { s with style := styles }
  | "trace_propagation_style_extract" => do
    let styles ← readStyles value
    return styles.map fun styles => { s with styleExtract := styles }
  | "trace_propagation_style_inject" => do
    let styles ← readStyles value
    return styles.map fun styles => { s with styleInject := styles }
  | "trace_128_bit_traceid_generation_enabled" => do
    let wide ← readSwitch value
    return .ok { s with wideTraceIds := wide }
  | "trace_flush_interval" => do
    let nanos ← readDuration value
    return nanos.map fun nanos => { s with flushInterval := nanos }
  | "trace_send_timeout" => do
    let nanos ← readDuration value
    return nanos.map fun nanos => { s with sendTimeout := nanos }
  | "trace_shutdown_timeout" => do
    let nanos ← readDuration value
    return nanos.map fun nanos => { s with shutdownTimeout := nanos }
  | "trace_queue_capacity" => do
    let n ← readCount value
    return .ok { s with queueCapacity := n }
  | "trace_flush_threshold" => do
    let n ← readCount value
    return .ok { s with flushThreshold := n }
  | "trace_max_payload_bytes" => do
    let n ← readCount value
    return .ok { s with maxPayloadBytes := n }
  | "trace_send_retries" => do
    let n ← readCount value
    return .ok { s with sendRetries := n }
  | "trace_recorded_value_max_length" => do
    let n ← readCount value
    return .ok { s with maxValueLength := n }
  | _ => return .ok s

/-- Reads the values of several fields, up to the first failure. -/
def readFields (s : Settings) : List (String × Json) → Logged (Except Failure Settings)
  | [] => return .ok s
  | (key, value) :: rest => do
    match ← readField s key value with
    | .ok s => readFields s rest
    | .error e => return .error e

/-! ### Variable names -/

/-- The variable that holds the sampling rules, which are JSON and not a value of the common grammar. -/
def rulesVariable : String := "DD_TRACE_SAMPLING_RULES"

/-- The path of fields that a variable names: what follows the common start, in lowercase, split at
points. Names with an empty part and the name of the rules lead nowhere. -/
def fieldPath (name : String) : Option (List String) :=
  let name := (trim name.toList).map lowerAscii
  match dropLead? "dd_".toList name with
  | some key =>
    let parts := splitOn '.' key
    if parts.any (·.isEmpty) ∨ key = "trace_sampling_rules".toList then none
    else some (parts.map String.ofList)
  | none => none

/-- The value behind a path of fields. -/
def nest (value : Json) : List String → Json
  | [] => value
  | part :: path => .obj [(part, nest value path)]

mutual

/-- Writes a value over another; tables are joined. -/
def merge : Json → Json → Json
  | .obj old, .obj new => .obj (mergeMembers old new)
  | _, new => new

/-- Writes members over others. -/
def mergeMembers (old : List (String × Json)) : List (String × Json) → List (String × Json)
  | [] => old
  | (key, value) :: rest =>
    let value := match Entries.get? key old with
      | some before => merge before value
      | none => value
    mergeMembers (Entries.insert key value old) rest

end

/-- The fields that variables name, with their values. -/
def fields (assignments : List (String × String)) : List (String × Json) :=
  assignments.foldl (fun read v =>
    match fieldPath v.1 with
    | some path =>
      match merge (.obj read) (nest (Variable.read v.2.toList) path) with
      | .obj members => members
      | _ => read
    | none => read) []

/-- Reads the settings that an environment makes. -/
def load (assignments : List (String × String)) : Logged (Except Failure Settings) := do
  match ← readFields {} (fields assignments) with
  | .error e => return .error e
  | .ok s =>
    match assignments.find? (·.1 = rulesVariable) with
    | some (_, text) =>
      let rules ← RuleConfig.readList (.str text)
      return .ok { s with rules }
    | none => return .ok s

end Environment

end Tracing
