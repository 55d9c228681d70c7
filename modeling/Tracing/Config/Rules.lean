import Tracing.Config.Basic
import Tracing.Json.Reader
import Tracing.Json.Writer
import Tracing.Log

/-!
# Sampling rules as JSON

Rules are a JSON array of objects, or of arrays that list the fields in order. An entry that is no rule is
reported and left out; without any rule the setting counts as absent.
-/

namespace Tracing

/-- The floating-point value of a number. -/
def Json.toFloat? : Json → Option Float
  | .int n => some (Float.ofInt n)
  | .float x => some x
  | _ => none

namespace RuleConfig

/-- An optional text: absent, `null` or a string. -/
def readText : Option Json → Option (Option String)
  | none | some .null => some none
  | some (.str s) => some (some s)
  | some _ => none

/-- An optional number: absent, `null` or a number. -/
def readNumber : Option Json → Option (Option Float)
  | none | some .null => some none
  | some j => j.toFloat?.map some

/-- A rule from its fields. Only the rate is required. -/
def ofFields (field : String → Option Json) : Option RuleConfig := do
  let sampleRate ← (field "sample_rate").bind Json.toFloat?
  let service ← readText (field "service")
  let name ← readText (field "name")
  let resource ← readText (field "resource")
  let maxPerSecond ← readNumber (field "max_per_second")
  return { sampleRate, service, name, resource, maxPerSecond }

/-- The names of the fields, in the order of a rule written as an array. -/
def fieldNames : List String := ["sample_rate", "service", "name", "resource", "max_per_second"]

/-- Reads one rule. -/
def ofJson? : Json → Option RuleConfig
  | .obj members => ofFields fun name => Entries.get? name members
  | .arr items =>
    if items.length ≤ fieldNames.length then
      ofFields fun name => (fieldNames.zip items).lookup name
    else none
  | _ => none

/-- Reads the entries of an array, leaving out those that are no rules. -/
def readEntries : List Json → Logged (List RuleConfig)
  | [] => return []
  | entry :: entries =>
    match ofJson? entry with
    | some rule => do
      let rules ← readEntries entries
      return rule :: rules
    | none => do
      log .error "Failed to parse sampling rule: not a sampling rule, ignoring"
      readEntries entries

/-- Reads the rules of an array; nothing if it holds none. -/
def readArray (entries : List Json) : Logged (Option (List RuleConfig)) := do
  let rules ← readEntries entries
  return if rules.isEmpty then none else some rules

/-- Reads rules from a JSON value: an array, or a string that holds the text of one. -/
def readList : Json → Logged (Option (List RuleConfig))
  | .str s =>
    match Json.read? s.toList with
    | some (.arr entries) => readArray entries
    | some _ => do
      log .error "Sampling rules must be a JSON array, ignoring"
      return none
    | none => do
      log .error "Failed to parse sampling rules: not valid JSON, ignoring"
      return none
  | .arr entries => readArray entries
  | _ => return none

end RuleConfig

end Tracing
