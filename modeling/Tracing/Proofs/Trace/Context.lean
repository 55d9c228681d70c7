import Tracing.Proofs.Trace.DecisionOnce
import Tracing.Proofs.Trace.Identity

/-!
# What a trace tells its peers

The context that a span writes into headers is that of its trace: the id, the origin, the priority in force and
the propagated tags. As an operation settles the trace, overrides its decision, or leaves all of these alone
(`context_effect`), the decision-maker tag is always that of the decision in force, and the other tags stay as
they were (`tagged_after`, `decision_maker_matches`); a trace that was started here has no other tags
(`outgoing_local`), and what it once told its peers it only ever adds to (`succeeds_step`).
-/

namespace Tracing

/-! ### The decision-maker tag -/

/-- The value of the decision-maker tag. -/
def Mechanism.tagText (m : Mechanism) : String := String.ofList m.toTag

/-- The decision-maker tag of a decision: the mechanism behind a keep. -/
def makerTag? (priority : Option Priority) (mechanism : Option Mechanism) : Option String :=
  if priority.any Priority.isKeep then mechanism.map Mechanism.tagText else none

theorem makerTag?_eq_some_iff {priority : Option Priority} {mechanism : Option Mechanism} {maker : String} :
    makerTag? priority mechanism = some maker ↔
      ∃ p m, priority = some p ∧ p.isKeep = true ∧ mechanism = some m ∧ maker = m.tagText := by
  unfold makerTag?
  constructor
  · intro h
    split at h
    · next hkeep =>
      obtain ⟨p, rfl, hp⟩ := (Option.any_eq_true _ _).mp hkeep
      obtain ⟨m, rfl, rfl⟩ := Option.map_eq_some_iff.mp h
      exact ⟨p, m, rfl, hp, rfl, rfl⟩
    · cases h
  · rintro ⟨p, m, rfl, hp, rfl, rfl⟩
    exact if_pos hp

/-- The decision-maker tag of the decision in force. -/
def Trace.makerTag? (t : Trace) : Option String := Tracing.makerTag? t.priority? t.mechanism?

/-- The tags that hold a decision maker and nothing else. -/
def makerTags (maker : Option String) : Dict String :=
  (maker.map fun maker => (∅ : Dict String).insert decisionMakerTag maker).getD ∅

theorem get?_makerTags (maker : Option String) (key : String) :
    (makerTags maker).get? key = if key = decisionMakerTag then maker else none := by
  cases maker with
  | none => simp [makerTags]
  | some maker =>
    show ((∅ : Dict String).insert decisionMakerTag maker).get? key = _
    rw [Dict.get?_insert, Dict.get?_empty]
    exact if_congr eq_comm rfl rfl

theorem mechanismOfTags_of_get? {tags : Dict String} {p : Priority} {mechanism : Option Mechanism}
    (h : tags.get? decisionMakerTag = makerTag? (some p) mechanism) :
    Trace.mechanismOfTags tags = if p.isKeep then mechanism else none := by
  unfold Trace.mechanismOfTags
  rw [h]
  unfold makerTag?
  cases hkeep : p.isKeep <;> cases mechanism <;> simp [hkeep, Mechanism.tagText, Mechanism.ofTag?_toTag]

namespace TraceRun

theorem get?_recordDecisionMaker (t : Trace) (d : Decision) (key : String) :
    (t.recordDecisionMaker d).tags.get? key =
      if key = decisionMakerTag then makerTag? (some d.priority) d.mechanism else t.tags.get? key := by
  unfold Trace.recordDecisionMaker makerTag?
  rw [Option.any_some]
  split
  · next mechanism hmechanism hkeep =>
    show (t.tags.insert decisionMakerTag _).get? key = _
    rw [Dict.get?_insert, if_pos hkeep, hmechanism]
    exact if_congr eq_comm rfl rfl
  · next hno =>
    have hmaker : (if d.priority.isKeep then d.mechanism.map Mechanism.tagText else none) = none := by
      cases hmechanism : d.mechanism with
      | none => simp
      | some mechanism =>
        have hreject : ¬ d.priority.isKeep = true := fun hkeep => hno mechanism hmechanism hkeep
        rw [if_neg hreject]
    show (t.tags.erase decisionMakerTag).get? key = _
    rw [Dict.get?_erase, hmaker]
    exact if_congr eq_comm rfl rfl

/-! ### The tags of a run -/

theorem mechanism?_of_kept {t : Trace} (h : t.userKept = true) : t.mechanism? = some .manual := by
  unfold Trace.mechanism?
  rw [if_pos h]

theorem mechanism?_of_not_kept {t : Trace} (h : t.userKept = false) :
    t.mechanism? = t.decision.bind Decision.mechanism := by
  unfold Trace.mechanism?
  rw [if_neg (by simp [h])]

theorem makerTag?_settle {t : Trace} (h : t.userKept = false) (d : Decision) :
    (t.settle d).makerTag? = makerTag? (some d.priority) d.mechanism := by
  obtain ⟨hdecision, hkept⟩ := sampling_settle t d
  unfold Trace.makerTag?
  rw [priority?_of_not_kept (hkept.trans h), mechanism?_of_not_kept (hkept.trans h), hdecision]
  rfl

theorem makerTag?_of_kept {t : Trace} (h : t.userKept = true) :
    t.makerTag? = makerTag? (some .userKeep) (some .manual) := by
  unfold Trace.makerTag?
  rw [priority?_of_kept h, mechanism?_of_kept h]

theorem Consistent.silent {s : TraceRun} (h : Consistent s) (hnone : s.trace.decision = none) :
    s.trace.priority? = none ∧ s.trace.makerTag? = none := by
  have hpriority : s.trace.priority? = none := by
    rw [priority?_of_not_kept (h.not_kept hnone), hnone]
    rfl
  refine ⟨hpriority, ?_⟩
  unfold Trace.makerTag?
  rw [hpriority]
  rfl

theorem SameContext.maker {t t' : Trace} (h : SameContext t t') : t'.makerTag? = t.makerTag? := by
  unfold Trace.makerTag? Trace.mechanism?
  rw [h.priority, h.decision, h.userKept]

/-- The tags of a run that started from a trace: the decision maker is that of the decision in force as soon as
there is one, and the others are as they were. -/
structure Tagged (t : Trace) (s : TraceRun) : Prop where
  maker : s.trace.decision.isSome = true → s.trace.tags.get? decisionMakerTag = s.trace.makerTag?
  undecided : s.trace.decision = none → s.trace.tags = t.tags
  others : ∀ key, key ≠ decisionMakerTag → s.trace.tags.get? key = t.tags.get? key

theorem tagged_record {t : Trace} {s s' : TraceRun} (h : Tagged t s) (d : Decision)
    (hdecided : s'.trace.decision.isSome = true)
    (hmaker : s'.trace.makerTag? = makerTag? (some d.priority) d.mechanism)
    (htags : s'.trace.tags = (s.trace.recordDecisionMaker d).tags) : Tagged t s' := by
  refine ⟨fun _ => ?_, fun hnone => ?_, fun key hkey => ?_⟩
  · rw [htags, hmaker, get?_recordDecisionMaker, if_pos rfl]
  · rw [hnone] at hdecided
    cases hdecided
  · rw [htags, get?_recordDecisionMaker, if_neg hkey]
    exact h.others key hkey

theorem tagged_step {t : Trace} (s : TraceRun) (op : TraceOp) (hs : Consistent s) (h : Tagged t s) :
    Tagged t (s.step op) := by
  cases context_effect s op with
  | settled d hnone trace _ =>
    refine tagged_record h d ?_ ?_ ?_ <;> rw [trace]
    · rfl
    · exact makerTag?_settle (hs.not_kept hnone) d
    · rfl
  | overridden d _ hsome _ trace _ =>
    refine tagged_record h (.manual .userKeep) ?_ ?_ ?_ <;> rw [trace]
    · show (s.trace.recordDecisionMaker _).decision.isSome = true
      rw [(userKept_recordDecisionMaker s.trace _).2, hsome]
      rfl
    · exact makerTag?_of_kept rfl
  | quiet _ same _ =>
    have hmaker := same.maker
    refine ⟨fun hd => ?_, fun hd => ?_, fun key hkey => ?_⟩
    · rw [same.tags, hmaker]
      exact h.maker (same.decision ▸ hd)
    · rw [same.tags]
      exact h.undecided (same.decision ▸ hd)
    · rw [same.tags]
      exact h.others key hkey

/-- **The decision-maker tag is that of the decision in force**, and the other tags stay as they were, if nothing
was decided before the run. -/
theorem tagged_after {t : Trace} (ht : t.Untouched) (hnone : t.decision = none) (ops : List TraceOp) :
    Tagged t (after t ops) := by
  have h0 : Tagged t { trace := t } :=
    ⟨fun hd => (by rw [hnone] at hd; cases hd), fun _ => rfl, fun _ _ => rfl⟩
  exact (after_induction (P := fun s => Consistent s ∧ Tagged t s) ⟨consistent_untouched ht, h0⟩
    (fun s op h => ⟨consistent_step s op h.1, tagged_step s op h.1 h.2⟩) ops).2

/-- **The decision-maker tag matches the decision.** A trace starts here, or it is continued without a priority
and with any tags. After every run of operations: as soon as there is a decision, the decision-maker tag has a
value exactly if the priority in force is a keep of a known mechanism, and then it is the tag of that mechanism;
before, all tags are those that the trace came with; and the other tags always are. -/
theorem decision_maker_matches {t : Trace} (ht : t.Untouched) (hnone : t.decision = none)
    (ops : List TraceOp) :
    let s := (after t ops).trace
    (s.decision.isSome = true → ∀ value, s.tags.get? decisionMakerTag = some value ↔
      ∃ p m, s.priority? = some p ∧ p.isKeep = true ∧ s.mechanism? = some m ∧
        value = String.ofList m.toTag) ∧
    (s.decision = none → s.tags = t.tags) ∧
    ∀ key, key ≠ decisionMakerTag → s.tags.get? key = t.tags.get? key := by
  intro s
  have h : Tagged t (after t ops) := tagged_after ht hnone ops
  refine ⟨fun hdecided value => ?_, h.undecided, h.others⟩
  rw [h.maker hdecided]
  exact makerTag?_eq_some_iff

/-- Headers without a priority, but with a decision maker: it is gone when a policy keeps the trace for no known
reason, and it is that of the user in the end. -/
theorem decision_maker_matches_stale :
    let tags : Dict String := ((∅ : Dict String).insert decisionMakerTag "-1").insert "_dd.p.x" "y"
    let context : Extracted := ⟨.ofNat 1, .ofNat 2, none, none, tags⟩
    let t := (Trace.ofExtracted? context).getD default
    let asked := [TraceOp.decideWith fun _ => { priority := .autoKeep, mechanism := none }]
    let chosen := asked ++ [.choose .userKeep]
    t.Untouched ∧ t.decision = none ∧ t.tags.get? decisionMakerTag = some "-1" ∧
      (after t asked).trace.tags.get? decisionMakerTag = none ∧
      (after t chosen).trace.tags.get? decisionMakerTag = some "-4" ∧
      (after t chosen).trace.tags.get? "_dd.p.x" = some "y" := by
  intro tags context t asked chosen
  have ht : t.Untouched := .continued (show Trace.ofExtracted? context = some t from rfl)
  obtain ⟨hasked, -, -⟩ := decision_maker_matches ht rfl asked
  obtain ⟨hchosen, -, hothers⟩ := decision_maker_matches ht rfl chosen
  refine ⟨ht, rfl, rfl, ?_, (hchosen rfl _).mpr ⟨_, _, rfl, rfl, rfl, rfl⟩, hothers _ (by decide)⟩
  refine Option.eq_none_iff_forall_ne_some.mpr fun value hvalue => ?_
  obtain ⟨-, m, -, -, hm, -⟩ := (hasked rfl value).mp hvalue
  have hnone : (after t asked).trace.mechanism? = none := rfl
  rw [hnone] at hm
  cases hm

/-! ### What a span announces -/

/-- What the span of a handle writes into headers. -/
def outgoing? (s : TraceRun) (i : Nat) : Option Outgoing :=
  s.handles[i]?.map fun span =>
    s.trace.outgoing span.context.traceId span.context.spanId span.context.parentId span.context.origin

/-- Every handle has the id and the origin of the trace. -/
def Handed (s : TraceRun) : Prop :=
  ∀ span ∈ s.handles, span.context.traceId = s.trace.traceId ∧ span.context.origin = s.trace.origin

theorem handles_act (s : TraceRun) (i : Nat) {action : Span → Trace → SpanStep}
    (h : ∀ span t, (action span t).span.context = span.context) {span : Span}
    (hspan : span ∈ (s.act i action).handles) : ∃ before ∈ s.handles, span.context = before.context := by
  cases hi : s.handles[i]? with
  | none =>
    rw [act_of_none hi] at hspan
    exact ⟨span, hspan, rfl⟩
  | some before =>
    rw [act_of_some hi] at hspan
    rcases List.mem_or_eq_of_mem_set hspan with hspan | rfl
    · exact ⟨span, hspan, rfl⟩
    · exact ⟨before, List.mem_of_getElem? hi, h before s.trace⟩

theorem handles_step (s : TraceRun) (op : TraceOp) {span : Span} (hspan : span ∈ (s.step op).handles) :
    (∃ before ∈ s.handles, span.context = before.context) ∨
      ∃ spanId parentId, span.context = ⟨s.trace.traceId, spanId, parentId, s.trace.origin⟩ := by
  cases op with
  | start record startTime clock =>
    rcases List.mem_append.mp hspan with hspan | hspan
    · exact .inl ⟨span, hspan, rfl⟩
    · rw [List.mem_singleton] at hspan
      subst hspan
      exact .inr ⟨record.spanId, record.parentId, context_start _ _ _ _⟩
  | change i c => exact .inl (handles_act s i (context_change c) hspan)
  | finish i ending => exact .inl (handles_act s i (context_end ending) hspan)
  | decide | decideWith | choose => exact .inl ⟨span, hspan, rfl⟩
  | collect =>
    change span ∈ (if s.trace.closed then { s with trace := s.trace.takeSpans.2 } else s).handles at hspan
    split at hspan <;> exact .inl ⟨span, hspan, rfl⟩

theorem handed_step (s : TraceRun) (op : TraceOp) (h : Handed s) : Handed (s.step op) := by
  intro span hspan
  obtain ⟨htraceId, horigin⟩ := traceId_origin_step s op
  rw [htraceId, horigin]
  obtain ⟨before, hbefore, hcontext⟩ | ⟨spanId, parentId, hcontext⟩ := handles_step s op hspan
  · rw [hcontext]
    exact h before hbefore
  · rw [hcontext]
    exact ⟨rfl, rfl⟩

theorem handed_after (t : Trace) (ops : List TraceOp) : Handed (after t ops) :=
  after_induction (fun _ hspan => absurd hspan List.not_mem_nil) handed_step ops

end TraceRun

/-- What a span of a trace that was started here announces: the priority in force, and no tag but the decision
maker. -/
def Trace.localContext (t : Trace) (spanId : SpanId) (parentId : Option SpanId) : Outgoing :=
  ⟨t.traceId, spanId, parentId, none, t.priority?, makerTags t.makerTag?⟩

namespace TraceRun

theorem tags_local (id : TraceId) (ops : List TraceOp) :
    (after (.new id) ops).trace.tags = makerTags (after (.new id) ops).trace.makerTag? := by
  have h := tagged_after (.fresh id) rfl ops
  refine Dict.ext_get? fun key => ?_
  rw [get?_makerTags]
  split
  · next hkey =>
    subst hkey
    cases hd : (after (.new id) ops).trace.decision with
    | some d => exact h.maker (hd ▸ rfl)
    | none =>
      rw [h.undecided hd, ((consistent_after (.fresh id) ops).silent hd).2]
      rfl
  · next hkey => exact h.others key hkey

/-- **What a span announces of a trace that was started here.** -/
theorem outgoing_local {id : TraceId} {ops : List TraceOp} {i : Nat} {out : Outgoing}
    (h : (after (.new id) ops).outgoing? i = some out) :
    ∃ parentId, out = (after (.new id) ops).trace.localContext out.spanId parentId := by
  obtain ⟨span, hspan, rfl⟩ := Option.map_eq_some_iff.mp h
  obtain ⟨htraceId, horigin⟩ := handed_after _ _ span (List.mem_of_getElem? hspan)
  refine ⟨span.context.parentId, ?_⟩
  unfold Trace.outgoing Trace.localContext
  rw [htraceId, horigin, origin_after, tags_local]
  rfl

/-! ### What was told is only added to -/

/-- A later state of a trace still announces a decision that was announced, and another one only as the keep of
a user. -/
structure Succeeds (t t' : Trace) : Prop where
  priority : t'.priority? = t.priority? ∨ t.priority? = none ∨ t'.priority? = some .userKeep
  maker : t.makerTag?.isSome = true → t'.makerTag?.isSome = true

theorem Succeeds.refl (t : Trace) : Succeeds t t := ⟨.inl rfl, id⟩

theorem succeeds_step {s : TraceRun} (h : Consistent s) (op : TraceOp) : Succeeds s.trace (s.step op).trace := by
  cases context_effect s op with
  | settled d hnone trace _ =>
    obtain ⟨hpriority, hmaker⟩ := h.silent hnone
    refine ⟨.inr (.inl hpriority), fun hsome => ?_⟩
    rw [hmaker] at hsome
    cases hsome
  | overridden _ _ _ _ trace _ =>
    rw [trace]
    refine ⟨.inr (.inr (priority?_of_kept rfl)), fun _ => ?_⟩
    rw [makerTag?_of_kept rfl]
    rfl
  | quiet _ same _ => exact ⟨.inl same.priority, fun hsome => same.maker ▸ hsome⟩

end TraceRun

end Tracing
