import Mathlib.Data.List.ReduceOption
import Tracing.Config.Rules
import Tracing.Proofs.Sampling.Layers

/-!
# Invalid sampling rules

Rules pass two filters. An entry that is no rule is reported when the rules are read (`RuleConfig.readEntries_value`,
`RuleConfig.readEntries_events`), and a rule with a fault when the sampler is built (`SamplingRule.readAll_value`,
`SamplingRule.readAll_events`): once, for the first of its faults (`RuleConfig.fault?`). What is left out leaves no
trace in the sampler, so invalid entries can be inserted anywhere (`RuleConfig.Padded`) without a change in what it
decides: `Sampler.invalid_rules_invisible`. An array without any rule counts as absent, though, and an array of rules
with bad patterns does not. Which patterns are bad is up to the engine, and all this holds for any.
-/

namespace Tracing

variable (engine : PatternEngine)

/-! ### What is wrong with a rule -/

/-- What is wrong with a pattern of a rule, if it cannot be compiled. -/
def RuleConfig.badPattern? (field : String) (pattern : Option String) : Option RuleError :=
  pattern.bind fun text =>
    match engine.compile text with
    | .ok _ => none
    | .error reason => some (.unreadable field text reason)

/-- What is wrong with the patterns of a rule, in the order in which they are compiled. -/
def RuleConfig.badPatterns (c : RuleConfig) : List RuleError :=
  [badPattern? engine "service" c.service, badPattern? engine "name" c.name,
    badPattern? engine "resource" c.resource].reduceOption

/-- The fault that is reported of a rule: its rate is not a number, or else the first of its bad patterns. -/
def RuleConfig.fault? (c : RuleConfig) : Option RuleError :=
  if c.sampleRate.isNaN then some .rateNotANumber else (c.badPatterns engine).head?

namespace SamplingRule

theorem badPattern?_eq (field : String) (pattern : Option String) : RuleConfig.badPattern? engine field pattern =
    match readPattern engine field pattern with
    | .ok _ => none
    | .error e => some e := by
  cases pattern with
  | none => rfl
  | some text =>
    unfold readPattern RuleConfig.badPattern?
    rw [Option.bind_some]
    cases hread : engine.compile text <;> simp only [hread]

/-- **A rule is unusable for its first fault**, and usable if it has none. -/
theorem fault?_eq (now : Nat) (c : RuleConfig) : c.fault? engine =
    match ofConfig engine now c with
    | .ok _ => none
    | .error e => some e := by
  unfold ofConfig RuleConfig.fault? RuleConfig.badPatterns
  simp only [badPattern?_eq]
  split
  · rfl
  · -- the patterns are compiled one after the other, up to the first bad one
    cases readPattern engine "service" c.service with
    | error e => rfl
    | ok service =>
      cases readPattern engine "name" c.name with
      | error e => rfl
      | ok name => cases readPattern engine "resource" c.resource <;> rfl

/-- The event for a rule that is left out. -/
def skipped (index : Nat) (e : RuleError) : Event :=
  { level := .error, message := "Skipping sampling rule " ++ toString index ++ ": " ++ e.message }

theorem readAll_value (now index : Nat) (configs : List RuleConfig) :
    (readAll engine now index configs).value = configs.filterMap fun c => (ofConfig engine now c).toOption := by
  induction configs generalizing index with
  | nil => rfl
  | cons c rest ih =>
    rw [readAll, List.filterMap_cons]
    cases ofConfig engine now c with
    | ok rule => exact congrArg (rule :: ·) (ih (index + 1))
    | error e => exact ih (index + 1)

/-- **Every rule with a fault is reported once**, with its place. -/
theorem readAll_events (now index : Nat) (configs : List RuleConfig) :
    (readAll engine now index configs).events =
      (configs.zipIdx index).filterMap fun rule => (rule.1.fault? engine).map (skipped rule.2) := by
  induction configs generalizing index with
  | nil => rfl
  | cons c rest ih =>
    have hfault := fault?_eq engine now c
    rw [readAll, List.zipIdx_cons, List.filterMap_cons]
    cases hc : ofConfig engine now c with
    | ok rule =>
      rw [hc] at hfault
      simp only [hfault, Option.map_none]
      show (readAll engine now (index + 1) rest).events ++ [] = _
      rw [List.append_nil]
      exact ih (index + 1)
    | error e =>
      rw [hc] at hfault
      simp only [hfault, Option.map_some]
      exact congrArg (skipped index e :: ·) (ih (index + 1))

end SamplingRule

/-! ### Entries that are no rules -/

namespace RuleConfig

/-- The event for an entry that is no rule. -/
def notARule : Event :=
  { level := .error, message := "Failed to parse sampling rule: not a sampling rule, ignoring" }

theorem readEntries_value (entries : List Json) : (readEntries entries).value = entries.filterMap ofJson? := by
  induction entries with
  | nil => rfl
  | cons entry rest ih =>
    rw [readEntries, List.filterMap_cons]
    cases ofJson? entry with
    | some c => exact congrArg (c :: ·) ih
    | none => exact ih

/-- **Every entry that is no rule is reported once.** -/
theorem readEntries_events (entries : List Json) :
    (readEntries entries).events = List.replicate (entries.countP fun entry => (ofJson? entry).isNone) notARule := by
  induction entries with
  | nil => rfl
  | cons entry rest ih =>
    rw [readEntries, List.countP_cons]
    cases ofJson? entry with
    | some c =>
      show (readEntries rest).events ++ [] = _
      rw [List.append_nil]
      exact ih
    | none => exact congrArg (notARule :: ·) ih

/-- The rules of an array, or those that were there if it holds none. -/
def readOver (before : List RuleConfig) (entries : List Json) : List RuleConfig :=
  let rules := entries.filterMap ofJson?
  if rules.isEmpty then before else rules

end RuleConfig

/-- An entry is a rule, be its patterns good or bad. -/
def Json.IsRule (entry : Json) : Prop := (RuleConfig.ofJson? entry).isSome = true

instance (entry : Json) : Decidable entry.IsRule :=
  inferInstanceAs (Decidable ((RuleConfig.ofJson? entry).isSome = true))

/-- An entry is no rule, or one with a pattern that cannot be compiled. -/
def Json.IsInvalidRule (entry : Json) : Prop := ∀ c ∈ RuleConfig.ofJson? entry, c.badPatterns engine ≠ []

instance (entry : Json) : Decidable (entry.IsInvalidRule engine) :=
  inferInstanceAs (Decidable (∀ c ∈ RuleConfig.ofJson? entry, c.badPatterns engine ≠ []))

/-- The rule that a sampler makes of an entry, if it can use it. -/
def Json.samplingRule? (now : Nat) (entry : Json) : Option SamplingRule :=
  (RuleConfig.ofJson? entry).bind fun c => (SamplingRule.ofConfig engine now c).toOption

/-- A list of entries, and the same list with invalid ones inserted anywhere. -/
inductive RuleConfig.Padded : List Json → List Json → Prop where
  | nil : RuleConfig.Padded [] []
  | keep (entry : Json) {entries padded : List Json} :
    RuleConfig.Padded entries padded → RuleConfig.Padded (entry :: entries) (entry :: padded)
  | insert {entry : Json} {entries padded : List Json} :
    entry.IsInvalidRule engine → RuleConfig.Padded entries padded → RuleConfig.Padded entries (entry :: padded)

variable {engine}

theorem RuleConfig.fault?_ne_none {c : RuleConfig} (h : c.badPatterns engine ≠ []) : c.fault? engine ≠ none := by
  unfold fault?
  split
  · simp
  · exact mt List.head?_eq_none_iff.mp h

theorem Json.IsInvalidRule.samplingRule? {entry : Json} (h : entry.IsInvalidRule engine) (now : Nat) :
    entry.samplingRule? engine now = none := by
  unfold Json.samplingRule?
  rw [Option.bind_eq_none_iff]
  intro c hc
  have hfault := RuleConfig.fault?_ne_none (h c hc)
  rw [SamplingRule.fault?_eq engine now] at hfault
  cases hread : SamplingRule.ofConfig engine now c with
  | ok rule => simp [hread] at hfault
  | error e => rfl

namespace RuleConfig.Padded

variable {entries padded : List Json}

theorem filterMap_samplingRule? (h : RuleConfig.Padded engine entries padded) (now : Nat) :
    padded.filterMap (Json.samplingRule? engine now) = entries.filterMap (Json.samplingRule? engine now) := by
  induction h with
  | nil => rfl
  | keep entry _ ih => rw [List.filterMap_cons, List.filterMap_cons, ih]
  | insert hentry _ ih => rw [List.filterMap_cons, hentry.samplingRule? now, ih]

theorem mem (h : RuleConfig.Padded engine entries padded) {entry : Json} (hentry : entry ∈ entries) :
    entry ∈ padded := by
  induction h with
  | nil => exact hentry
  | keep other _ ih =>
    rcases List.mem_cons.mp hentry with rfl | hrest
    · exact List.mem_cons_self
    · exact List.mem_cons_of_mem _ (ih hrest)
  | insert _ _ ih => exact List.mem_cons_of_mem _ (ih hentry)

end RuleConfig.Padded

/-! ### The rules of a sampler -/

namespace RuleConfig

variable {entries : List Json}

theorem readOver_of_exists (h : ∃ entry ∈ entries, entry.IsRule) (before : List RuleConfig) :
    readOver before entries = entries.filterMap ofJson? := by
  obtain ⟨entry, hentry, hrule⟩ := h
  obtain ⟨c, hc⟩ := Option.isSome_iff_exists.mp hrule
  have hmem : c ∈ entries.filterMap ofJson? := List.mem_filterMap.mpr ⟨entry, hentry, hc⟩
  exact if_neg fun hempty => List.ne_nil_of_mem hmem (List.isEmpty_iff.mp hempty)

theorem readOver_of_not_exists (h : ¬ ∃ entry ∈ entries, entry.IsRule) (before : List RuleConfig) :
    readOver before entries = before := by
  refine if_pos (List.isEmpty_iff.mpr (List.filterMap_eq_nil_iff.mpr fun entry hentry => ?_))
  exact Option.not_isSome_iff_eq_none.mp fun hrule => h ⟨entry, hentry, hrule⟩

theorem filterMap_ofJson? (now : Nat) (entries : List Json) :
    (entries.filterMap ofJson?).filterMap (fun c => (SamplingRule.ofConfig engine now c).toOption) =
      entries.filterMap (Json.samplingRule? engine now) := List.filterMap_filterMap

theorem readList_value (before : List RuleConfig) (entries : List Json) :
    (readList (.arr entries)).value.getD before = readOver before entries := by
  unfold readList readArray readOver
  rw [Logged.value_bind, Logged.value_pure, readEntries_value]
  split
  · next hempty => exact (if_pos hempty).symm
  · next hrules => exact (if_neg hrules).symm

theorem readOver_nil (entries : List Json) : readOver [] entries = entries.filterMap ofJson? := by
  by_cases hempty : (entries.filterMap ofJson?).isEmpty = true
  · exact (if_pos hempty).trans (List.isEmpty_iff.mp hempty).symm
  · exact if_neg hempty

end RuleConfig

namespace Sampler

open RuleConfig

variable (engine)

/-- The sampler for a configuration whose rules are overwritten by those of an array. -/
def ofEntries (now : Nat) (base : Config) (entries : List Json) : Logged Sampler := do
  let rules ← readList (.arr entries)
  build engine now (({ rules } : Settings).applyTo base)

/-- Builds such a sampler and makes calls to it. -/
def session (now : Nat) (base : Config) (entries : List Json) (calls : List Call) :
    Logged (List (Target × Decision)) := do
  let s ← ofEntries engine now base entries
  return s.answers calls

theorem ofEntries_value (now : Nat) (base : Config) (entries : List Json) : (ofEntries engine now base entries).value =
    (build engine now { base with rules := readOver base.rules entries }).value := by
  rw [← readList_value]
  rfl

/-- Rules that a sampler cannot use do not matter to it. -/
theorem build_value_congr (now : Nat) (base : Config) {rules rules' : List RuleConfig}
    (h : (rules.filterMap fun c => (SamplingRule.ofConfig engine now c).toOption) =
      rules'.filterMap fun c => (SamplingRule.ofConfig engine now c).toOption) :
    (build engine now { base with rules }).value = (build engine now { base with rules := rules' }).value := by
  unfold build
  simp only [Logged.value_bind, SamplingRule.readAll_value, h]

variable {engine} in
theorem ofEntries_value_congr (now : Nat) (base : Config) {rules : List RuleConfig} {entries padded : List Json}
    (h : Padded engine entries padded) (hpadded : readOver base.rules padded = padded.filterMap ofJson?)
    (hentries : readOver rules entries = entries.filterMap ofJson?) :
    (ofEntries engine now base padded).value = (ofEntries engine now { base with rules } entries).value := by
  rw [ofEntries_value, ofEntries_value, hpadded, hentries]
  refine build_value_congr engine now base ?_
  rw [filterMap_ofJson?, filterMap_ofJson?, h.filterMap_samplingRule? now]

/-- The event for a sampler that was built. -/
def built (s : Sampler) : Event :=
  { level := .debug, message := "Sampler built with " ++ toString s.rules.length ++ " rules" }

theorem build_events (now : Nat) (c : Config) : (build engine now c).events =
    (SamplingRule.readAll engine now 0 c.rules).events ++ [(build engine now c).value.built] := rfl

/-- The errors that the entries of an array cause: one by each that is no rule, when it is read, and one by each rule
with a fault, when the sampler is built. -/
def errors (base : Config) (entries : List Json) : List Event :=
  List.replicate (entries.countP fun entry => ¬ entry.IsRule) notARule ++
    (readOver base.rules entries).zipIdx.filterMap fun rule =>
      (rule.1.fault? engine).map (SamplingRule.skipped rule.2)

theorem ofEntries_events (now : Nat) (base : Config) (entries : List Json) :
    (ofEntries engine now base entries).events =
      errors engine base entries ++ [(ofEntries engine now base entries).value.built] := by
  have hread : (readList (.arr entries)).events =
      List.replicate (entries.countP fun entry => ¬ entry.IsRule) notARule := by
    show (readEntries entries).events ++ [] = _
    rw [List.append_nil, readEntries_events]
    simp only [Json.IsRule, Bool.not_eq_true, Option.isSome_eq_false_iff, Bool.decide_eq_true]
  have hrules : (({ rules := (readList (.arr entries)).value } : Settings).applyTo base).rules =
      readOver base.rules entries := readList_value base.rules entries
  unfold ofEntries errors
  rw [Logged.events_bind, Logged.value_bind, hread, build_events, SamplingRule.readAll_events, hrules,
    List.append_assoc]

/-- **Invalid rules are invisible**, wherever they are inserted and whatever the engine takes for a pattern, unless all
entries that are rules are among them and there were other rules before, which these overwrite and an array without
rules does not. Each entry that is no rule causes one error when it is read, and each rule with a fault one when the
sampler is built, about its first fault; decisions cause none. -/
theorem invalid_rules_invisible (now : Nat) (base : Config) {entries padded : List Json}
    (h : Padded engine entries padded) :
    ((base.rules = [] ∨ ((∃ entry ∈ padded, entry.IsRule) → ∃ entry ∈ entries, entry.IsRule)) → ∀ calls,
      (session engine now base padded calls).value = (session engine now base entries calls).value) ∧
    ((∃ entry ∈ padded, entry.IsRule) → ∀ calls,
      (session engine now base padded calls).value =
        (session engine now { base with rules := [] } entries calls).value) ∧
    ∀ calls, (session engine now base padded calls).events =
      errors engine base padded ++ [(ofEntries engine now base padded).value.built] := by
  have hsession : ∀ {base' : Config},
      (ofEntries engine now base padded).value = (ofEntries engine now base' entries).value →
        ∀ calls, (session engine now base padded calls).value = (session engine now base' entries calls).value :=
    fun heq calls => congrArg (answers · calls) heq
  refine ⟨fun hbase => hsession ?same, fun hrule => hsession ?overwritten, fun calls => ?events⟩
  case overwritten =>
    exact ofEntries_value_congr now base h (readOver_of_exists hrule _) (readOver_nil entries)
  case same =>
    by_cases hpadded : ∃ entry ∈ padded, entry.IsRule
    · refine ofEntries_value_congr now base h (readOver_of_exists hpadded _) ?_
      rcases hbase with hnone | hkept
      · rw [hnone, readOver_nil]
      · exact readOver_of_exists (hkept hpadded) _
    · -- there is no rule in either of them
      have hentries : ¬ ∃ entry ∈ entries, entry.IsRule := fun ⟨entry, hentry, hrule⟩ =>
        hpadded ⟨entry, h.mem hentry, hrule⟩
      rw [ofEntries_value, ofEntries_value, readOver_of_not_exists hpadded,
        readOver_of_not_exists hentries]
  case events =>
    unfold session
    rw [Logged.events_bind, Logged.events_pure, List.append_nil, ofEntries_events]

/-- A pattern with too many repetitions to be compiled. -/
def hugePattern : String := "a\x7b1000000\x7d"

/-- An engine for literal texts, which match where they occur. Of the texts that are none it knows two, and neither can
be compiled. -/
def literalEngine : PatternEngine where
  Compiled := String
  compile text :=
    if text = "(" then .error "regex parse error:\n    (\n    ^\nerror: unclosed group"
    else if text = hugePattern then .error "Compiled regex exceeds size limit of 10485760 bytes."
    else .ok text
  isMatch pattern text := text.toList.tails.any pattern.toList.isPrefixOf

/-- In front of a rule for one service there is a number, and behind it a rule for the same one with a bad pattern. -/
theorem invalid_rules_invisible_scattered :
    let base := { Config.default with rules := [{ sampleRate := 0 }] }
    let rule : Json := .obj [("sample_rate", .int 0), ("service", .str "db")]
    let bad : Json := .obj [("name", .str "("), ("sample_rate", .int 1), ("service", .str "db")]
    let padded := [.int 7, rule, bad]
    let calls : List Call := [.decide 0 ⟨.ofNat 9, "db", "query", ""⟩, .agentRates [("service:web,env:", 0)],
      .decide 5 ⟨.ofNat 9, "web", "get", ""⟩, .decide 5 ⟨.ofNat 9, "job", "run", ""⟩]
    let answered (base : Config) (entries : List Json) := session literalEngine 0 base entries calls
    Padded literalEngine [rule] padded ∧ (∃ entry ∈ padded, entry.IsRule) ∧ (∃ entry ∈ [rule], entry.IsRule) ∧
      (answered base padded).value = (answered base [rule]).value ∧
      (answered base padded).value = (answered { base with rules := [] } [rule]).value ∧
      ((answered base padded).value.map fun answer => answer.2.priority) = [.autoReject, .autoReject, .autoKeep] ∧
      ((answered base padded).events.filter (·.level = .error)) = [notARule, SamplingRule.skipped 1
        (.unreadable "name" "(" "regex parse error:\n    (\n    ^\nerror: unclosed group")] := by
  intro base rule bad padded calls answered
  have hnumber : (Json.int 7).IsInvalidRule literalEngine := by decide +kernel
  have hbad : bad.IsInvalidRule literalEngine := by decide +kernel
  have hpadded : Padded literalEngine [rule] padded := .insert hnumber (.keep rule (.insert hbad .nil))
  have hrule : ∃ entry ∈ [rule], entry.IsRule := by decide +kernel
  have hsome : ∃ entry ∈ padded, entry.IsRule := by decide +kernel
  obtain ⟨hsame, hoverwritten, -⟩ := invalid_rules_invisible literalEngine 0 base hpadded
  exact ⟨hpadded, hsome, hrule, hsame (.inr fun _ => hrule) calls, hoverwritten hsome calls, by decide +kernel,
    by decide +kernel⟩

/-- Of a rule with two bad patterns only the first is reported. And where there was a rule before, it makes a
difference whether an array is empty or holds that rule. -/
theorem not_invalid_rules_invisible :
    let reason := "Compiled regex exceeds size limit of 10485760 bytes."
    let bad : Json := .obj [("name", .str hugePattern), ("sample_rate", .int 1), ("service", .str hugePattern)]
    let base := { Config.default with rules := [{ sampleRate := 0 }] }
    let calls : List Call := [.decide 0 ⟨.ofNat 9, "db", "query", ""⟩]
    let answered (base : Config) (entries : List Json) := session literalEngine 0 base entries calls
    Padded literalEngine [] [bad] ∧ ((ofJson? bad).map (badPatterns literalEngine)) =
        some [.unreadable "service" hugePattern reason, .unreadable "name" hugePattern reason] ∧
      ((answered .default [bad]).events.filter (·.level = .error)) =
        [SamplingRule.skipped 0 (.unreadable "service" hugePattern reason)] ∧
      ((answered base []).value.map fun answer => answer.2.priority) = [.autoReject] ∧
      ((answered base [bad]).value.map fun answer => answer.2.priority) = [.autoKeep] := by
  intro reason bad base calls answered
  have hbad : bad.IsInvalidRule literalEngine := by decide +kernel
  exact ⟨.insert hbad .nil, by decide +kernel, by decide +kernel, by decide +kernel, by decide +kernel⟩

end Sampler

end Tracing
