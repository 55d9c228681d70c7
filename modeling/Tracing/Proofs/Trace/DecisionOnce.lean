import Tracing.Proofs.Trace.Run

/-!
# A trace is decided about once

The stored decision and the mark of a user's keep are read by several views and written by several
operations. The invariant between them is `Consistent`: only an automatic decision can be overridden, and
a policy was asked only if that made the decision. From the list of what one operation can do to the two
(`SamplingEffect`, `sampling_effect`) follows `decision_once`: a policy is asked at most once, the priority
of a trace changes at most from an automatic one to the user's keep, and all views agree on it.
-/

namespace Tracing.TraceRun

/-! ### What an operation does to the decision -/

/-- What an operation can do to the decision of a run. -/
inductive SamplingEffect (s s' : TraceRun) : TraceOp → Prop where
  /-- A policy makes the decision. -/
  | asked {op : TraceOp} (d : Decision) (hnone : s.trace.decision = none)
      (hop : ∀ p, op ≠ .choose p) (decision : s'.trace.decision = some d)
      (userKept : s'.trace.userKept = s.trace.userKept)
      (policyCalls : s'.policyCalls = s.policyCalls + 1) : SamplingEffect s s' op
  /-- A user makes the decision. -/
  | chosen {p : Priority} (hnone : s.trace.decision = none)
      (decision : s'.trace.decision = some (.manual p))
      (userKept : s'.trace.userKept = s.trace.userKept)
      (policyCalls : s'.policyCalls = s.policyCalls) : SamplingEffect s s' (.choose p)
  /-- A user overrides an automatic decision. -/
  | overridden (d : Decision) (hsome : s.trace.decision = some d) (hauto : d.priority.isUser = false)
      (decision : s'.trace.decision = some d) (userKept : s'.trace.userKept = true)
      (policyCalls : s'.policyCalls = s.policyCalls) : SamplingEffect s s' (.choose .userKeep)
  | quiet {op : TraceOp} (hop : ∀ p, op = .choose p → s.trace.decision.isSome = true)
      (decision : s'.trace.decision = s.trace.decision)
      (userKept : s'.trace.userKept = s.trace.userKept)
      (policyCalls : s'.policyCalls = s.policyCalls) : SamplingEffect s s' op

theorem userKept_recordDecisionMaker (t : Trace) (d : Decision) :
    (t.recordDecisionMaker d).userKept = t.userKept ∧
      (t.recordDecisionMaker d).decision = t.decision := by
  rw [recordDecisionMaker_eq]
  exact ⟨rfl, rfl⟩

theorem sampling_settle (t : Trace) (d : Decision) :
    (t.settle d).decision = some d ∧ (t.settle d).userKept = t.userKept :=
  ⟨rfl, (userKept_recordDecisionMaker t d).1⟩

/-- **What one operation does to the decision.** -/
theorem sampling_effect (s : TraceRun) (op : TraceOp) : SamplingEffect s (s.step op) op := by
  cases context_effect s op with
  | settled d hnone trace calls =>
    obtain ⟨hdecision, hkept⟩ := sampling_settle s.trace d
    rw [← trace] at hdecision hkept
    rcases calls with ⟨hop, policyCalls⟩ | ⟨p, rfl, rfl, policyCalls⟩
    · exact .asked d hnone hop hdecision hkept policyCalls
    · exact .chosen hnone hdecision hkept policyCalls
  | overridden d hop hsome hauto trace policyCalls =>
    subst hop
    refine .overridden d hsome hauto ?_ ?_ policyCalls <;> rw [trace]
    exact (userKept_recordDecisionMaker _ _).2.trans hsome
  | quiet hop same policyCalls => exact .quiet hop same.decision same.userKept policyCalls

/-! ### The invariant -/

/-- Only an automatic decision is overridden, and a policy was asked only to make the decision. -/
structure Consistent (s : TraceRun) : Prop where
  overrides : s.trace.userKept = true → ∃ d, s.trace.decision = some d ∧ d.priority.isUser = false
  calls_le : s.policyCalls ≤ 1
  calls_eq : s.trace.decision = none → s.policyCalls = 0

/-- Without a decision there is nothing to override. -/
theorem Consistent.not_kept {s : TraceRun} (h : Consistent s) (hnone : s.trace.decision = none) :
    s.trace.userKept = false := by
  by_contra hk
  obtain ⟨d, hd, -⟩ := h.overrides (by simpa using hk)
  rw [hnone] at hd
  cases hd

theorem consistent_untouched {t : Trace} (ht : t.Untouched) : Consistent { trace := t } := by
  obtain ⟨-, -, -, -, hkept⟩ := ht.fields
  exact ⟨fun h => (by rw [hkept] at h; cases h), Nat.zero_le _, fun _ => rfl⟩

theorem consistent_step (s : TraceRun) (op : TraceOp) (h : Consistent s) : Consistent (s.step op) := by
  cases sampling_effect s op with
  | asked d hnone _ decision userKept policyCalls =>
    have hzero := h.calls_eq hnone
    have hkept := userKept.trans (h.not_kept hnone)
    exact ⟨fun hk => (by rw [hkept] at hk; cases hk), by omega,
      fun hn => (by rw [decision] at hn; cases hn)⟩
  | chosen hnone decision userKept policyCalls =>
    have hkept := userKept.trans (h.not_kept hnone)
    exact ⟨fun hk => (by rw [hkept] at hk; cases hk), policyCalls ▸ h.calls_le,
      fun hn => (by rw [decision] at hn; cases hn)⟩
  | overridden d _ hauto decision _ policyCalls =>
    exact ⟨fun _ => ⟨d, decision, hauto⟩, policyCalls ▸ h.calls_le,
      fun hn => (by rw [decision] at hn; cases hn)⟩
  | quiet _ decision userKept policyCalls =>
    exact ⟨fun hk => decision ▸ h.overrides (userKept ▸ hk), policyCalls ▸ h.calls_le,
      fun hn => policyCalls ▸ h.calls_eq (decision ▸ hn)⟩

theorem consistent_after {t : Trace} (ht : t.Untouched) (ops : List TraceOp) :
    Consistent (after t ops) :=
  after_induction (consistent_untouched ht) consistent_step ops

/-! ### Decided for good -/

/-- A stored decision stays, and no policy is asked any more. -/
theorem decided_step {s : TraceRun} {d : Decision} {n : Nat} (op : TraceOp)
    (h : s.trace.decision = some d ∧ s.policyCalls = n) :
    (s.step op).trace.decision = some d ∧ (s.step op).policyCalls = n := by
  obtain ⟨hd, hn⟩ := h
  cases sampling_effect s op with
  | asked _ hnone | chosen hnone =>
    rw [hd] at hnone
    cases hnone
  | overridden d' hsome _ decision _ policyCalls =>
    rw [hd] at hsome
    exact ⟨decision.trans hsome.symm, policyCalls.trans hn⟩
  | quiet _ decision _ policyCalls => exact ⟨decision.trans hd, policyCalls.trans hn⟩

theorem policyCalls_of_decided {t : Trace} {ops : List TraceOp}
    (h : (after t ops).trace.decision.isSome = true) (later : List TraceOp) :
    (after t (ops ++ later)).policyCalls = (after t ops).policyCalls := by
  obtain ⟨d, hd⟩ := Option.isSome_iff_exists.mp h
  exact (after_append_of_step
    (P := fun s => s.trace.decision = some d ∧ s.policyCalls = (after t ops).policyCalls)
    (fun _ op h => decided_step op h) t ops later ⟨hd, rfl⟩).2

theorem choose_decides (s : TraceRun) (p : Priority) :
    (s.step (.choose p)).trace.decision.isSome = true ∧
      (s.step (.choose p)).policyCalls = s.policyCalls := by
  cases sampling_effect s (.choose p) with
  | asked _ _ hop => exact absurd rfl (hop p)
  | chosen _ decision _ policyCalls => exact ⟨by rw [decision]; rfl, policyCalls⟩
  | overridden _ _ _ decision _ policyCalls => exact ⟨by rw [decision]; rfl, policyCalls⟩
  | quiet hop decision _ policyCalls => exact ⟨by rw [decision]; exact hop p rfl, policyCalls⟩

/-! ### The priority in force -/

theorem priority?_of_kept {t : Trace} (h : t.userKept = true) : t.priority? = some .userKeep := by
  unfold Trace.priority?
  rw [if_pos h]

theorem priority?_of_not_kept {t : Trace} (h : t.userKept = false) :
    t.priority? = t.decision.map Decision.priority := by
  unfold Trace.priority?
  rw [if_neg (by simp [h])]

/-- The priority stays `p`, or it goes from an automatic `p` to the user's keep. -/
def Upgrades (p : Priority) (s : TraceRun) : Prop :=
  s.trace.priority? = some p ∨ p.isUser = false ∧ s.trace.priority? = some .userKeep

theorem priority?_step {s : TraceRun} {p : Priority}
    (hp : s.trace.priority? = some p) (op : TraceOp) : Upgrades p (s.step op) := by
  cases hkept : s.trace.userKept with
  | true =>
    -- the override outlasts everything
    rw [priority?_of_kept hkept, Option.some.injEq] at hp
    refine .inl (hp ▸ priority?_of_kept ?_)
    cases sampling_effect s op with
    | asked _ _ _ _ userKept | chosen _ _ userKept | quiet _ _ userKept => rw [userKept, hkept]
    | overridden _ _ _ _ userKept => exact userKept
  | false =>
    rw [priority?_of_not_kept hkept, Option.map_eq_some_iff] at hp
    obtain ⟨d, hd, rfl⟩ := hp
    cases sampling_effect s op with
    | asked _ hnone | chosen hnone =>
      rw [hd] at hnone
      cases hnone
    | overridden d' hsome hauto _ userKept =>
      rw [hd, Option.some.injEq] at hsome
      exact .inr ⟨hsome ▸ hauto, priority?_of_kept userKept⟩
    | quiet _ decision userKept =>
      refine .inl ?_
      rw [priority?_of_not_kept (userKept.trans hkept), decision, hd]
      rfl

theorem upgrades_step {p : Priority} (s : TraceRun) (op : TraceOp) (h : Upgrades p s) :
    Upgrades p (s.step op) := by
  obtain hp | ⟨hauto, hkeep⟩ := h
  · exact priority?_step hp op
  · refine .inr ⟨hauto, ?_⟩
    rcases priority?_step hkeep op with h | ⟨-, h⟩ <;> exact h

/-! ### The views -/

theorem effectiveDecision_priority {s : TraceRun} (h : Consistent s) :
    s.trace.effectiveDecision.map Decision.priority = s.trace.priority? := by
  unfold Trace.effectiveDecision
  rw [Option.map_map]
  cases hkept : s.trace.userKept with
  | true =>
    obtain ⟨d, hd, -⟩ := h.overrides hkept
    rw [priority?_of_kept hkept, hd]
    rfl
  | false =>
    rw [priority?_of_not_kept hkept]
    rfl

theorem decideWith_priority {s : TraceRun} (h : Consistent s) {σ : Type} (state : σ)
    (policy : σ → Target → Decision × σ) :
    (s.trace.decideWith state policy).2.1.priority? = some (s.trace.decideWith state policy).1 ∧
      ∀ p, s.trace.priority? = some p → (s.trace.decideWith state policy).1 = p := by
  cases hd : s.trace.decision with
  | some d =>
    have hdec : s.trace.decideWith state policy =
        (if s.trace.userKept then .userKeep else d.priority, s.trace, state) := by
      unfold Trace.decideWith
      rw [hd]
    have hprio : s.trace.priority? = some (if s.trace.userKept then .userKeep else d.priority) := by
      unfold Trace.priority?
      rw [hd]
      split <;> rfl
    rw [hdec]
    exact ⟨hprio, fun p hp => Option.some.inj (hprio.symm.trans hp)⟩
  | none =>
    have hkept := h.not_kept hd
    have hdec : s.trace.decideWith state policy = ((policy state s.trace.target).1.priority,
        s.trace.settle (policy state s.trace.target).1, (policy state s.trace.target).2) := by
      unfold Trace.decideWith
      rw [hd]
      simp [hkept]
    rw [hdec]
    constructor
    · rw [priority?_of_not_kept ((sampling_settle _ _).2.trans hkept), (sampling_settle _ _).1]
      rfl
    · intro p hp
      rw [priority?_of_not_kept hkept, hd] at hp
      cases hp

/-- **The decision is made once and only ever upgraded.** After every run of operations on an untouched
trace: policies and samplers were asked at most once; never if the headers carried a priority, and never
after a user chose one; from then on the priority stays, except that an automatic one may become the
user's keep; the decision in force has the priority in force; and whoever asks for a decision is told the
priority in force. -/
theorem decision_once {t : Trace} (ht : t.Untouched) (ops : List TraceOp) :
    (after t ops).policyCalls ≤ 1 ∧
    (∀ context p, Trace.ofExtracted? context = some t → context.priority = some p →
      (after t ops).policyCalls = 0) ∧
    (∀ p later, (after t (ops ++ .choose p :: later)).policyCalls = (after t ops).policyCalls) ∧
    (∀ p later, (after t ops).trace.priority? = some p →
      (after t (ops ++ later)).trace.priority? = some p ∨
        p.isUser = false ∧ (after t (ops ++ later)).trace.priority? = some .userKeep) ∧
    (after t ops).trace.effectiveDecision.map Decision.priority = (after t ops).trace.priority? ∧
    (∀ (σ : Type) (state : σ) (policy : σ → Target → Decision × σ),
      ((after t ops).trace.decideWith state policy).2.1.priority? =
        some ((after t ops).trace.decideWith state policy).1 ∧
      ∀ p, (after t ops).trace.priority? = some p →
        ((after t ops).trace.decideWith state policy).1 = p) := by
  have h := consistent_after ht ops
  refine ⟨h.calls_le, fun context p hc hp => ?_, fun p later => ?_, fun p later hp => ?_,
    effectiveDecision_priority h, fun σ state policy => decideWith_priority h state policy⟩
  · have hd : (after t []).trace.decision.isSome = true := by
      rw [after_nil, Trace.ofExtracted?_eq_some hc, hp]
      rfl
    exact policyCalls_of_decided hd ops
  · obtain ⟨hd, hcalls⟩ := choose_decides (after t ops) p
    rw [← after_concat] at hd hcalls
    rw [← hcalls, ← policyCalls_of_decided hd later, List.append_assoc, List.singleton_append]
  · exact after_append_of_step upgrades_step t ops later (.inl hp)

/-- Headers with an automatic keep: a policy is not asked, and a user's keep is the last word. -/
theorem decision_once_continued :
    let context : Extracted := ⟨.ofNat 1, .ofNat 2, some .autoKeep, none, ∅⟩
    let t := (Trace.ofExtracted? context).getD default
    let ops := [TraceOp.decideWith fun _ => .manual .userReject, .choose .userReject]
    t.Untouched ∧ (after t ops).policyCalls = 0 ∧
      (after t ops).trace.priority? = some .autoKeep ∧
      ((after t (ops ++ [.choose .userKeep])).trace.priority? = some .autoKeep ∨
        Priority.autoKeep.isUser = false ∧
          (after t (ops ++ [.choose .userKeep])).trace.priority? = some .userKeep) := by
  intro context t ops
  have hc : Trace.ofExtracted? context = some t := rfl
  have hp : (after t ops).trace.priority? = some .autoKeep := rfl
  obtain ⟨-, hcalls, -, hup, -⟩ := decision_once (.continued hc) ops
  exact ⟨.continued hc, hcalls context _ hc rfl, hp, hup _ _ hp⟩

end Tracing.TraceRun
