import Tracing.Proofs.Dict
import Tracing.Proofs.Trace.Context
import Tracing.Proofs.Tracer.Traces

/-!
# What stamping changes

The spans of a kept trace go to the exporter stamped with the outcome. The writers of tags are the origin, the
propagated tags and the decision. Their keys are not the same as long as propagated keys have their prefix
(`WellTagged`), so which tag stands under a key is not a matter of who writes last (`get?_first`), and all else
is as the handles recorded it (`stamped_exactly`).
-/

namespace Tracing

/-! ### Writing tags -/

theorem SpanRecord.get?_setTags (r : SpanRecord) (tags : List (String × TagValue)) (key : String) :
    (r.setTags tags).tags.get? key = (Entries.get? key tags.reverse).or (r.tags.get? key) := by
  rw [setTags_eq]
  exact Dict.get?_foldl tags r.tags key

namespace Trace

/-! ### What stamping writes -/

/-- The propagated tags have the prefix of such tags. -/
def WellTagged (t : Trace) : Prop := ∀ e ∈ t.tags.entries, propagatedLead.toList <+: e.1.toList

instance (t : Trace) : Decidable t.WellTagged := by
  unfold WellTagged; infer_instance

/-- A tag for a rate under its key, if there is one. -/
def rateTag? (name : String) (rate : Option Float) (key : String) : Option TagValue :=
  if key = name then rate.map .number else none

/-- The tag under a key that tells of a decision: its priority, and the rates that it carries. -/
def decisionTag? (d : Decision) (key : String) : Option TagValue :=
  (if key = priorityTag then some (.ofInt d.priority.toInt) else none).or
    (((rateTag? ruleRateTag d.ruleRate key).or (rateTag? agentRateTag d.agentRate key)).or
      (rateTag? limiterRateTag d.limiterRate key))

/-- The tag under a key that stamping writes on the span at a place: the origin on every span, on the first one
also the propagated tags and those that tell of the decision. -/
def stampTag? (t : Trace) (d : Decision) (place : Nat) (key : String) : Option TagValue :=
  (if key = originTag then t.origin.map .text else none).or
    (if place = 0 then ((t.tags.get? key).map .text).or (decisionTag? d key) else none)

/-- Spans as stamping leaves them: the same in the same order, with the same fields, and with the tags that they
had apart from those that stamping writes. -/
structure Stamped (t : Trace) (d : Decision) (finished stamped : List SpanRecord) : Prop where
  bare : stamped.map SpanRecord.bare = finished.map SpanRecord.bare
  tags : ∀ (place : Nat) (before after : SpanRecord), finished[place]? = some before →
    stamped[place]? = some after → ∀ key,
      after.tags.get? key = (t.stampTag? d place key).or (before.tags.get? key)

variable {t : Trace} {d : Decision} {key : String}

theorem get?_originTags (t : Trace) (key : String) :
    Entries.get? key t.originTags.reverse = if key = originTag then t.origin.map .text else none := by
  unfold originTags
  cases t.origin with
  | none => simp [Entries.get?]
  | some origin => simp [Entries.get?, eq_comm]

theorem get?_rateTag (name : String) (rate : Option Float) (key : String) :
    Entries.get? key (rateTag name rate) = rateTag? name rate key := by
  unfold rateTag rateTag?
  cases rate with
  | none => simp [Entries.get?]
  | some rate => simp [Entries.get?, eq_comm]

theorem keys_rateTag (name : String) (rate : Option Float) :
    ((rateTag name rate).map Prod.fst).Sublist [name] := by
  cases rate with
  | none => exact List.nil_sublist _
  | some rate => exact List.Sublist.refl _

theorem get?_decisionTags (d : Decision) (key : String) :
    Entries.get? key (decisionTags d).reverse = decisionTag? d key := by
  have hkeys : ((decisionTags d).map Prod.fst).Sublist [priorityTag, ruleRateTag, agentRateTag, limiterRateTag] := by
    rw [decisionTags, List.map_cons, List.map_append, List.map_append]
    exact (((keys_rateTag _ _).append (keys_rateTag _ _)).append (keys_rateTag _ _)).cons_cons _
  have hnodup : [priorityTag, ruleRateTag, agentRateTag, limiterRateTag].Nodup := by decide
  rw [Entries.get?_reverse (hnodup.sublist hkeys), decisionTags, decisionTag?, ← List.singleton_append,
    Entries.get?_append, Entries.get?_append, Entries.get?_append, get?_rateTag, get?_rateTag, get?_rateTag]
  simp [Entries.get?, eq_comm]

/-- What the first span is given besides the origin: the decision is written last. -/
theorem get?_rootTags (hd : t.effectiveDecision = some d) (key : String) :
    Entries.get? key t.rootTags.reverse = (decisionTag? d key).or ((t.tags.get? key).map .text) := by
  have hpropagated : Entries.get? key t.tags.entries.reverse = t.tags.get? key := by
    rw [← Dict.get?_ofList, Dict.ofList_entries]
  rw [rootTags, hd, List.reverse_append, Entries.get?_append, ← List.map_reverse, Entries.get?_map, hpropagated,
    Option.map_some, Option.getD_some, get?_decisionTags]

/-! ### Writers do not meet -/

theorem decisionTag?_origin (d : Decision) : decisionTag? d originTag = none := by
  have hkeys : originTag ≠ priorityTag ∧ originTag ≠ ruleRateTag ∧ originTag ≠ agentRateTag ∧
      originTag ≠ limiterRateTag := by decide
  simp [decisionTag?, rateTag?, hkeys]

theorem decisionTag?_of_lead (d : Decision) (h : propagatedLead.toList <+: key.toList) : decisionTag? d key = none := by
  have hne : ∀ name : String, ¬ propagatedLead.toList <+: name.toList → key ≠ name := fun name hname hkey =>
    hname (hkey ▸ h)
  simp [decisionTag?, rateTag?, hne priorityTag (by decide), hne ruleRateTag (by decide),
    hne agentRateTag (by decide), hne limiterRateTag (by decide)]

theorem get?_first (ht : t.WellTagged) (hd : t.effectiveDecision = some d) (first : SpanRecord) (key : String) :
    ((first.setTags t.originTags).setTags t.rootTags).tags.get? key =
      (t.stampTag? d 0 key).or (first.tags.get? key) := by
  rw [SpanRecord.get?_setTags, SpanRecord.get?_setTags, get?_rootTags hd, get?_originTags, stampTag?, if_pos rfl]
  cases hpropagated : t.tags.get? key with
  | some value =>
    have hlead : propagatedLead.toList <+: key.toList := ht _ (Dict.mem_of_get? hpropagated)
    have horigin : key ≠ originTag := by
      rintro rfl
      exact absurd hlead (by decide)
    rw [decisionTag?_of_lead d hlead, if_neg horigin]
    simp
  | none =>
    by_cases horigin : key = originTag
    · subst horigin
      rw [decisionTag?_origin]
      simp
    · rw [if_neg horigin]
      simp

theorem get?_other (t : Trace) (d : Decision) {place : Nat} (hplace : place ≠ 0) (r : SpanRecord) (key : String) :
    (r.setTags t.originTags).tags.get? key = (t.stampTag? d place key).or (r.tags.get? key) := by
  rw [SpanRecord.get?_setTags, get?_originTags, stampTag?, if_neg hplace, Option.or_none]

/-- **Stamping writes what it must and nothing else.** -/
theorem stamped (ht : t.WellTagged) (hd : t.effectiveDecision = some d) (finished : List SpanRecord) :
    Stamped t d finished (t.stamp finished) := by
  refine ⟨t.bare_stamp finished, fun place before after hbefore hafter key => ?_⟩
  cases finished with
  | nil => cases hbefore
  | cons first rest =>
    cases place with
    | zero =>
      obtain rfl := Option.some.inj hbefore
      obtain rfl := Option.some.inj hafter
      exact get?_first ht hd _ key
    | succ place =>
      rw [List.getElem?_cons_succ] at hbefore
      rw [stamp, List.getElem?_cons_succ, List.getElem?_map, hbefore] at hafter
      obtain rfl := Option.some.inj hafter
      exact get?_other t d (Nat.succ_ne_zero place) before key

/-! ### Deciding before stamping -/

theorem effectiveDecision_of_decision (h : t.decision = some d) :
    t.effectiveDecision = some (if t.userKept then .manual .userKeep else d) := by
  rw [effectiveDecision, h]
  rfl

/-- Whoever decided, the decision in force has the priority that is returned; a user's keep is one without rates. -/
theorem effectiveDecision_decideWith (t : Trace) {σ : Type} (state : σ) (policy : σ → Target → Decision × σ) :
    ∃ d, (t.decideWith state policy).2.1.effectiveDecision = some d ∧ d.priority = (t.decideWith state policy).1 ∧
      (t.userKept = true → d = .manual .userKeep) := by
  have hpriority : ∀ (kept : Bool) (d : Decision),
      (if kept then .manual .userKeep else d).priority = if kept then .userKeep else d.priority := by
    intro kept d
    cases kept <;> rfl
  unfold decideWith
  cases hd : t.decision with
  | some d => exact ⟨_, effectiveDecision_of_decision hd, hpriority _ _, fun hkept => if_pos hkept⟩
  | none =>
    obtain ⟨hdecision, hkept⟩ := TraceRun.sampling_settle t (policy state t.target).1
    have heffective := effectiveDecision_of_decision hdecision
    rw [hkept] at heffective
    exact ⟨_, heffective, hpriority _ _, fun hkept => if_pos hkept⟩

theorem wellTagged_decideWith (ht : t.WellTagged) {σ : Type} (state : σ) (policy : σ → Target → Decision × σ) :
    (t.decideWith state policy).2.1.WellTagged := by
  unfold decideWith
  cases t.decision with
  | some d => exact ht
  | none =>
    intro e he
    have hvalue : (t.recordDecisionMaker (policy state t.target).1).tags.get? e.1 = some e.2 := Dict.get?_of_mem he
    rw [TraceRun.get?_recordDecisionMaker] at hvalue
    split at hvalue
    · next hkey =>
      rw [hkey]
      decide
    · exact ht _ (Dict.mem_of_get? hvalue)

end Trace

namespace TraceRun

/-- **Stamping changes exactly what it must.** A handle ends the last open span of a trace, and the trace is kept.
Then the exporter is given the records of all spans, each as its handle had it when it was first ended, in the
order of starting; they are the same but for the tags that stamping writes. These tell of the decision in force,
which has the priority that was settled and carries no rates after a user's keep. -/
theorem stamped_exactly {t : Trace} (ht : t.Untouched) {ops : List TraceOp} {j : Nat} {ending : SpanEnd} {span : Span}
    (hspan : (after t ops).handles[j]? = some span) (tracer : Tracer) (i : Nat) (clock : Clock) :
    let step := ending.apply span (after t ops).trace
    let finished := step.trace.takeSpans.1
    let decided := step.trace.decide tracer.sampler clock.monotonic
    step.completed = true → step.trace.WellTagged → decided.1.isKeep = true →
    (finished.length = (after t ops).handles.length ∧ ∀ (k : Nat) record, finished[k]? = some record →
      FirstEnd t (ops ++ [.finish j ending]) k record) ∧
    ∃ unit d, (tracer.absorb i step clock).value.exporter = (tracer.exporter.enqueue unit).value.2 ∧
      (decided.2.1.origin = t.origin ∧ decided.2.1.effectiveDecision = some d) ∧
      (d.priority = decided.1 ∧ (step.trace.userKept = true → d = .manual .userKeep)) ∧
      decided.2.1.Stamped d finished unit := by
  intro step finished decided hcompleted htagged hkeep
  have hstep : (after t ops).step (.finish j ending) = { after t ops with
      trace := step.trace
      handles := (after t ops).handles.set j step.span
      completions := (after t ops).completions + step.completed.toNat } := act_of_some hspan ending.apply
  have hcompletes : Completes (after t ops) (.finish j ending) := by
    rw [Completes, hstep, hcompleted]
    rfl
  obtain ⟨-, hlength, hrecords⟩ := takeSpans_of_completes (ledger_after ht ops) hcompletes
  rw [after_concat, hstep] at hlength hrecords
  rw [List.length_set] at hlength
  have hnonempty : finished ≠ [] := by
    rw [← List.length_pos_iff, hlength]
    exact Nat.zero_lt_of_lt (List.getElem?_eq_some_iff.mp hspan).1
  -- deciding is one more operation of the run
  have horigin : decided.2.1.origin = t.origin := by
    have hdecide := consult_decide (after t (ops ++ [.finish j ending])) tracer.sampler clock.monotonic
    rw [← after_concat, after_concat t ops, hstep] at hdecide
    exact hdecide ▸ origin_after t _
  obtain ⟨d, heffective, hpriority, hkept⟩ := Trace.effectiveDecision_decideWith step.trace tracer.sampler
    fun s target => s.decide clock.monotonic target
  refine ⟨⟨hlength, hrecords⟩, decided.2.1.stamp finished, d, ?_, ⟨horigin, heffective⟩, ⟨hpriority, hkept⟩,
    Trace.stamped (Trace.wellTagged_decideWith htagged _ _) heffective _⟩
  rw [Tracer.absorb_completed hcompleted]
  rcases Trace.complete_cases hnonempty tracer.sampler clock.monotonic with ⟨hreject, -⟩ | ⟨-, hvalue⟩
  · exact absurd hkeep (Bool.eq_false_iff.mp hreject)
  · simp only [hvalue]
    rfl

/-- A trace with an origin and a propagated tag; a policy rejects it by a rule and a user keeps it. On its only span
the application set tags of its own: the origin overrides one of them, and that for the rule stays, for a user's
keep carries no rate. -/
theorem stamped_exactly_kept_by_user :
    let context : Extracted := ⟨.ofNat 1, .ofNat 2, none, some "rum", (∅ : Dict String).insert "_dd.p.x" "1"⟩
    let t := (Trace.ofExtracted? context).getD default
    let ops := [plainStart 1, .change 0 (.tag originTag (.text "app")), .change 0 (.tag ruleRateTag (.text "mine")),
      .decideWith fun _ => { priority := .autoReject, mechanism := some .rule, ruleRate := some 0.5 },
      .choose .userKeep]
    let span := ((after t ops).handles[0]?).getD default
    let step := (SpanEnd.at 5).apply span (after t ops).trace
    ∃ tracer, (Tracer.new Config.default ⟨fun _ => .accepted⟩ true ⟨0, 0⟩).value = .ok tracer ∧
      step.completed = true ∧ step.trace.WellTagged ∧
      (step.trace.decide tracer.sampler 9).1.isKeep = true ∧
      ∃ unit first, (tracer.absorb 0 step ⟨9, 9⟩).value.exporter = (tracer.exporter.enqueue unit).value.2 ∧
        unit[0]? = some first ∧ first.tags.get? originTag = some (.text "rum") ∧
        first.tags.get? "_dd.p.x" = some (.text "1") ∧ first.tags.get? priorityTag = some (.ofInt 2) ∧
        first.tags.get? ruleRateTag = some (.text "mine") := by
  intro context t ops span step
  have hc : Trace.ofExtracted? context = some t := rfl
  have hspan : (after t ops).handles[0]? = some span := rfl
  have hcompleted : step.completed = true := by decide +kernel
  have htagged : step.trace.WellTagged := by decide +kernel
  have hnew : (Tracer.new Config.default ⟨fun _ => .accepted⟩ true ⟨0, 0⟩).value = .ok _ := rfl
  have hkeep : (step.trace.decide (Sampler.ofConfig 0 Config.default).value 9).1.isKeep = true := by decide +kernel
  refine ⟨_, hnew, hcompleted, htagged, hkeep, ?_⟩
  obtain ⟨-, unit, d, hexporter, -, ⟨-, hkept⟩, hstamped⟩ :=
    stamped_exactly (.continued hc) hspan _ 0 ⟨9, 9⟩ hcompleted htagged hkeep
  obtain rfl := hkept rfl
  have hfinished : step.trace.takeSpans.1[0]? = some _ := rfl
  have hlength := congrArg List.length hstamped.bare
  rw [List.length_map, List.length_map] at hlength
  obtain ⟨first, hfirst⟩ : ∃ first, unit[0]? = some first := by
    refine ⟨_, List.getElem?_eq_getElem ?_⟩
    rw [hlength]
    decide +kernel
  have htag := hstamped.tags 0 _ first hfinished hfirst
  exact ⟨unit, first, hexporter, hfirst, (htag _).trans rfl, (htag _).trans rfl, (htag _).trans rfl,
    (htag _).trans rfl⟩

end TraceRun

end Tracing
