import Mathlib.Data.List.Basic
import Tracing.Sampling.Sampler

/-!
# The layers of a sampler

A sampler decides by one of its layers: the first rule that matches, the global rate being the last of them, or
the default. The layer that decides about a target is a matter of the patterns alone (`Sampler.layerOf`). Its rate
and its limiter settle the decision (`Sampler.decide_eq`), and its limiter is all that changes. So what the other
layers are asked does not matter (`Sampler.answers_filter_of_agrees`): no layer lives on the budget of another.
-/

namespace Tracing

/-! ### What decides -/

/-- A rule without the state of its limiter. -/
def SamplingRule.bare (r : SamplingRule) : SamplingRule := { r with limiter := none }

namespace Sampler

/-- The layer that decides about a target: the place of the first rule that matches, or none for the default. -/
def layerOf (s : Sampler) (target : Target) : Option Nat := s.rules.findIdx? (·.isMatch target)

/-- The limiter of a layer, if there is one. -/
def limiter? (s : Sampler) : Option Nat → Option (TokenBucket Float)
  | some i => s.rules[i]?.bind SamplingRule.limiter
  | none => some s.defaultLimiter

/-- Puts a limiter in its place. -/
def withLimiter (s : Sampler) (limiter : Option (TokenBucket Float)) : Option Nat → Sampler
  | some i => { s with rules := s.rules.modify i fun r => { r with limiter } }
  | none => { s with defaultLimiter := limiter.getD s.defaultLimiter }

/-- The rate by which a layer decides about a service: that of its rule, or that of the agent, or one. -/
def rateOf (s : Sampler) (service : String) : Option Nat → Float
  | some i => (s.rules[i]?.map SamplingRule.rate).getD 1
  | none => (s.agentRate? service).getD 1

/-- The mechanism by which a layer decides about a service. -/
def mechanismOf (s : Sampler) (service : String) : Option Nat → Mechanism
  | some _ => .rule
  | none => if (s.agentRate? service).isSome then .agentRate else .standard

/-- A decision with the rates that a layer adds to it. -/
def stamp (s : Sampler) (service : String) (layer : Option Nat) (d : Decision) : Decision :=
  match layer with
  | some _ => { d with ruleRate := some (s.rateOf service layer) }
  | none => { d with agentRate := s.agentRate? service }

/-- What a layer makes of a target, and its limiter after that. -/
def ruling (s : Sampler) (now : Nat) (target : Target) : Decision × Option (TokenBucket Float) :=
  let layer := s.layerOf target
  applyRate now target.traceId (s.rateOf target.service layer) (s.limiter? layer)
    (s.mechanismOf target.service layer)

variable {s s' : Sampler} {target : Target} {layer : Option Nat} {i : Nat}

theorem decideByRules_eq (now : Nat) (target : Target) (rules : List SamplingRule) :
    decideByRules now target rules = (rules.findIdx? (·.isMatch target)).bind fun i =>
      rules[i]?.map fun rule =>
        let (d, limiter) := applyRate now target.traceId rule.rate rule.limiter .rule
        ({ d with ruleRate := some rule.rate }, rules.set i { rule with limiter }) := by
  induction rules with
  | nil => rfl
  | cons rule rest ih =>
    rw [decideByRules, List.findIdx?_cons]
    cases hmatch : rule.isMatch target with
    | true => rfl
    | false =>
      rw [if_neg Bool.false_ne_true, if_neg Bool.false_ne_true, ih]
      cases rest.findIdx? (·.isMatch target) with
      | none => rfl
      | some i => simp [Function.comp_def]

/-- **A sampler decides by one layer**, and only the limiter of that layer changes. -/
theorem decide_eq (s : Sampler) (now : Nat) (target : Target) :
    s.decide now target = (s.stamp target.service (s.layerOf target) (s.ruling now target).1,
      s.withLimiter (s.ruling now target).2 (s.layerOf target)) := by
  unfold decide ruling
  rw [decideByRules_eq]
  cases hlayer : s.layerOf target with
  | none =>
    unfold layerOf at hlayer
    rw [hlayer]
    rfl
  | some i =>
    unfold layerOf at hlayer
    obtain ⟨hi, -⟩ := List.findIdx?_eq_some_iff_findIdx_eq.mp hlayer
    have hrule : s.rules[i]? = some s.rules[i] := List.getElem?_eq_getElem hi
    simp only [hlayer, hrule, Option.bind_some, Option.map_some, limiter?, rateOf, mechanismOf, stamp, withLimiter,
      Option.getD_some]
    rw [List.modify_eq_set_getElem?, hrule]
    rfl

/-! ### Samplers that agree on a layer -/

/-- Two samplers with the same layers, the state of the limiters apart. -/
structure SameLayers (s s' : Sampler) : Prop where
  rules : s'.rules.map SamplingRule.bare = s.rules.map SamplingRule.bare
  agentRates : s'.agentRates = s.agentRates
  env : s'.env = s.env

/-- Two samplers with the same layers, one of which also has the same limiter. -/
structure Agrees (layer : Option Nat) (s s' : Sampler) : Prop extends SameLayers s s' where
  limiter : s'.limiter? layer = s.limiter? layer

theorem Agrees.refl (layer : Option Nat) (s : Sampler) : Agrees layer s s := ⟨⟨rfl, rfl, rfl⟩, rfl⟩

/-- Which layer decides is a matter of the patterns alone. -/
theorem layerOf_congr (h : s'.rules.map SamplingRule.bare = s.rules.map SamplingRule.bare) (target : Target) :
    s'.layerOf target = s.layerOf target := by
  have hbare : ∀ s : Sampler, s.layerOf target = (s.rules.map SamplingRule.bare).findIdx? (·.isMatch target) := by
    intro s
    rw [List.findIdx?_map]
    rfl
  rw [hbare, hbare, h]

theorem SameLayers.agentRate? (h : SameLayers s s') (service : String) :
    s'.agentRate? service = s.agentRate? service := by
  unfold Sampler.agentRate?
  rw [h.agentRates, h.env]

theorem SameLayers.getElem? (h : SameLayers s s') (i : Nat) :
    s'.rules[i]?.map SamplingRule.bare = s.rules[i]?.map SamplingRule.bare := by
  rw [← List.getElem?_map, ← List.getElem?_map, h.rules]

theorem SameLayers.rateOf (h : SameLayers s s') (service : String) (layer : Option Nat) :
    s'.rateOf service layer = s.rateOf service layer := by
  cases layer with
  | none => exact congrArg (·.getD 1) (h.agentRate? service)
  | some i =>
    have hrate := congrArg (Option.map SamplingRule.rate) (h.getElem? i)
    rw [Option.map_map, Option.map_map] at hrate
    exact congrArg (·.getD 1) hrate

theorem SameLayers.mechanismOf (h : SameLayers s s') (service : String) (layer : Option Nat) :
    s'.mechanismOf service layer = s.mechanismOf service layer := by
  cases layer with
  | none =>
    unfold Sampler.mechanismOf
    simp only [h.agentRate? service]
  | some i => rfl

theorem SameLayers.stamp (h : SameLayers s s') (service : String) (layer : Option Nat) (d : Decision) :
    s'.stamp service layer d = s.stamp service layer d := by
  cases layer with
  | none =>
    unfold Sampler.stamp
    simp only [h.agentRate? service]
  | some i =>
    unfold Sampler.stamp
    simp only [h.rateOf service (some i)]

theorem Agrees.ruling (h : Agrees (s.layerOf target) s s') (now : Nat) :
    s'.ruling now target = s.ruling now target := by
  unfold Sampler.ruling
  simp only [layerOf_congr h.rules, h.rateOf, h.mechanismOf, h.limiter]

/-! ### What a call changes -/

theorem sameLayers_withLimiter (s : Sampler) (limiter : Option (TokenBucket Float)) (layer : Option Nat) :
    SameLayers s (s.withLimiter limiter layer) := by
  cases layer with
  | none => exact ⟨rfl, rfl, rfl⟩
  | some i =>
    refine ⟨List.ext_getElem? fun k => ?_, rfl, rfl⟩
    simp only [withLimiter, List.getElem?_map, List.getElem?_modify]
    split <;> cases s.rules[k]? <;> rfl

theorem limiter?_withLimiter_of_ne {other : Option Nat} (hne : other ≠ layer)
    (limiter : Option (TokenBucket Float)) : (s.withLimiter limiter other).limiter? layer = s.limiter? layer := by
  cases other with
  | none =>
    cases layer with
    | none => exact absurd rfl hne
    | some i => rfl
  | some j =>
    cases layer with
    | none => rfl
    | some i =>
      have hji : j ≠ i := fun heq => hne (congrArg some heq)
      simp only [withLimiter, limiter?, List.getElem?_modify, if_neg hji]
      simp

/-- What another layer is asked is not noticed. -/
theorem Agrees.aside (h : Agrees layer s s') {other : Option Nat} (hne : other ≠ layer)
    (limiter : Option (TokenBucket Float)) : Agrees layer (s.withLimiter limiter other) s' := by
  have hsame := s.sameLayers_withLimiter limiter other
  exact ⟨⟨h.rules.trans hsame.rules.symm, h.agentRates.trans hsame.agentRates.symm, h.env.trans hsame.env.symm⟩,
    h.limiter.trans (limiter?_withLimiter_of_ne hne limiter).symm⟩

theorem Agrees.withLimiter (h : Agrees layer s s') (limiter : Option (TokenBucket Float)) :
    Agrees layer (s.withLimiter limiter layer) (s'.withLimiter limiter layer) := by
  have hsame := s.sameLayers_withLimiter limiter layer
  have hsame' := s'.sameLayers_withLimiter limiter layer
  refine ⟨⟨?_, ?_, ?_⟩, ?_⟩
  · rw [hsame.rules, hsame'.rules, h.rules]
  · rw [hsame.agentRates, hsame'.agentRates, h.agentRates]
  · rw [hsame.env, hsame'.env, h.env]
  · cases layer with
    | none =>
      have hdefault : s'.defaultLimiter = s.defaultLimiter := Option.some.inj h.limiter
      simp only [Sampler.withLimiter, limiter?, hdefault]
    | some i =>
      have hrule : s'.rules[i]?.isSome = s.rules[i]?.isSome := by
        have := congrArg Option.isSome (h.getElem? i)
        rwa [Option.isSome_map, Option.isSome_map] at this
      simp only [Sampler.withLimiter, limiter?, List.getElem?_modify, if_true]
      cases h' : s'.rules[i]? <;> cases h'' : s.rules[i]? <;> simp_all

theorem withLimiter_limiter? (s : Sampler) (layer : Option Nat) : s.withLimiter (s.limiter? layer) layer = s := by
  cases layer with
  | none => rfl
  | some i =>
    have hrules : (s.rules.modify i fun r => { r with limiter := s.limiter? (some i) }) = s.rules := by
      refine List.ext_getElem? fun k => ?_
      rw [List.getElem?_modify]
      split
      · next hik =>
        subst hik
        cases hrule : s.rules[i]? <;> simp [limiter?, hrule]
      · simp
    show { s with rules := s.rules.modify i _ } = s
    rw [hrules]

/-- The rate that the layer for a target selects. -/
def selectedRate (s : Sampler) (target : Target) : Float := s.rateOf target.service (s.layerOf target)

/-- **The hash is asked before the limiter**: what it does not keep costs no budget. -/
theorem decide_of_not_keeps (h : Rate.keeps target.traceId (s.selectedRate target) = false) (now : Nat) :
    (s.decide now target).2 = s := by
  have hruling : (s.ruling now target).2 = s.limiter? (s.layerOf target) := by
    unfold ruling applyRate
    unfold selectedRate at h
    simp [h]
  rw [decide_eq, hruling]
  exact withLimiter_limiter? s _

theorem isUser_applyRate (now : Nat) (traceId : TraceId) (rate : Float) (limiter : Option (TokenBucket Float))
    (mechanism : Mechanism) : (applyRate now traceId rate limiter mechanism).1.priority.isUser = false := by
  have hauto : ∀ allowed, (Priority.auto allowed).isUser = false := by decide
  unfold applyRate
  split
  · cases limiter with
    | none => rfl
    | some bucket => exact hauto _
  · rfl

/-- **A sampler never decides like a user.** -/
theorem isUser_decide (s : Sampler) (now : Nat) (target : Target) :
    (s.decide now target).1.priority.isUser = false := by
  have hruling : (s.ruling now target).1.priority.isUser = false := isUser_applyRate _ _ _ _ _
  rw [decide_eq]
  unfold stamp
  split <;> exact hruling

/-! ### Calls one after the other -/

/-- What a sampler is asked or told. -/
inductive Call where
  | decide (now : Nat) (target : Target)
  | agentRates (rates : List (String × Float))

/-- The sampler after a call. -/
def step (s : Sampler) : Call → Sampler
  | .decide now target => (s.decide now target).2
  | .agentRates rates => s.setAgentRates rates

/-- The decisions that a list of calls is answered with, each with its target. -/
def answers (s : Sampler) : List Call → List (Target × Decision)
  | [] => []
  | .decide now target :: calls => (target, (s.decide now target).1) :: (s.step (.decide now target)).answers calls
  | .agentRates rates :: calls => (s.step (.agentRates rates)).answers calls

/-- Whether a call concerns a layer: it is decided there, or it is about the rates of the agent. -/
def Call.concerns (s : Sampler) (layer : Option Nat) : Call → Bool
  | .decide _ target => s.layerOf target = layer
  | .agentRates _ => true

theorem Agrees.setAgentRates (h : Agrees layer s s') (rates : List (String × Float)) :
    Agrees layer (s.setAgentRates rates) (s'.setAgentRates rates) := by
  refine ⟨⟨h.rules, rfl, h.env⟩, ?_⟩
  cases layer <;> exact h.limiter

theorem step_decide (s : Sampler) (now : Nat) (target : Target) :
    s.step (.decide now target) = s.withLimiter (s.ruling now target).2 (s.layerOf target) :=
  congrArg Prod.snd (s.decide_eq now target)

/-- The patterns stay what they are, whatever a sampler is asked or told. -/
theorem rules_step (s : Sampler) (call : Call) :
    (s.step call).rules.map SamplingRule.bare = s.rules.map SamplingRule.bare := by
  cases call with
  | decide now target =>
    rw [step_decide]
    exact (s.sameLayers_withLimiter _ _).rules
  | agentRates rates => rfl

/-- One of two samplers that agree on a layer is also asked what other layers decide; as far as this layer goes
they give the same answers. The layers are named after a third sampler with the same patterns. -/
theorem answers_filter_of_agrees {named : Sampler}
    (hnamed : s.rules.map SamplingRule.bare = named.rules.map SamplingRule.bare) (h : Agrees layer s s')
    (calls : List Call) : s'.answers (calls.filter (Call.concerns named layer)) =
      (s.answers calls).filter fun answer => named.layerOf answer.1 = layer := by
  induction calls generalizing s s' with
  | nil => rfl
  | cons call rest ih =>
    have hnext := (s.rules_step call).trans hnamed
    cases call with
    | agentRates rates => exact ih hnext (h.setAgentRates rates)
    | decide now target =>
      have hlayer : named.layerOf target = s.layerOf target := (layerOf_congr hnamed target).symm
      by_cases hown : s.layerOf target = layer
      · -- both are asked, and agree after that
        subst hown
        have hruling := h.ruling now
        have hanswer : (s'.decide now target).1 = (s.decide now target).1 := by
          rw [decide_eq, decide_eq, hruling, layerOf_congr h.rules, h.stamp]
        have hafter : Agrees (s.layerOf target) (s.step (.decide now target)) (s'.step (.decide now target)) := by
          rw [step_decide, step_decide, hruling, layerOf_congr h.rules]
          exact h.withLimiter _
        have hrest := ih hnext hafter
        rw [List.filter_cons_of_pos (by simpa [Call.concerns] using hlayer), answers, answers, hanswer, hrest,
          List.filter_cons_of_pos (by simpa using hlayer)]
      · -- only the first is asked, by another layer
        have hafter : Agrees layer (s.step (.decide now target)) s' := by
          rw [step_decide]
          exact h.aside hown _
        rw [List.filter_cons_of_neg (by simpa [Call.concerns, hlayer] using hown), answers,
          List.filter_cons_of_neg (by simpa [hlayer] using hown)]
        exact ih hnext hafter

/-- **Layers of sampling do not share a budget.** Whatever a sampler is asked and told: leave out the calls that
other layers decide, and each of the others is answered as before, the rates in the answer included. A target that
the hash of its layer does not keep changes no limiter. And the sampler never decides like a user. -/
theorem layers_share_no_budget (s : Sampler) :
    (∀ (calls : List Call) (layer : Option Nat), s.answers (calls.filter (Call.concerns s layer)) =
      (s.answers calls).filter fun answer => s.layerOf answer.1 = layer) ∧
    (∀ (now : Nat) (target : Target), Rate.keeps target.traceId (s.selectedRate target) = false →
      (s.decide now target).2 = s) ∧
    ∀ (now : Nat) (target : Target), (s.decide now target).1.priority = .autoKeep ∨
      (s.decide now target).1.priority = .autoReject := by
  refine ⟨fun calls layer => answers_filter_of_agrees rfl (.refl layer s) calls,
    fun now target h => decide_of_not_keeps h now, fun now target => ?_⟩
  have huser := s.isUser_decide now target
  cases hpriority : (s.decide now target).1.priority with
  | autoKeep => exact .inl rfl
  | autoReject => exact .inr rfl
  | userKeep | userReject =>
    rw [hpriority] at huser
    cases huser

/-- A rule that keeps nothing, a rule for one service with two tokens, and the global rate, all in one sampler; the
second of three configured rules cannot be read. -/
theorem layers_share_no_budget_of_config :
    let rules : List RuleConfig := [{ sampleRate := 0, service := some "db" }, { sampleRate := 1, name := some "[" },
      { sampleRate := 1, service := some "web", maxPerSecond := some 1 }]
    let s := (ofConfig 0 { Config.default with rules, sampleRate := some 1, rateLimit := 1 }).value
    let db : Target := ⟨.ofNat 9, "db", "query", ""⟩
    let web : Target := ⟨.ofNat 9, "web", "get", ""⟩
    let job : Target := ⟨.ofNat 9, "job", "run", ""⟩
    let calls : List Call :=
      [.decide 0 web, .decide 0 job, .decide 0 db, .agentRates [], .decide 0 web, .decide 0 job]
    s.layerOf db = some 0 ∧ s.layerOf web = some 1 ∧ s.layerOf job = some 2 ∧
      s.answers [.decide 0 web, .agentRates [], .decide 0 web] =
        (s.answers calls).filter (fun answer => s.layerOf answer.1 = some 1) ∧
      ((s.answers calls).map fun answer => answer.2.priority) =
        [.autoKeep, .autoKeep, .autoReject, .autoReject, .autoReject] ∧
      Rate.keeps db.traceId (s.selectedRate db) = false ∧ (s.decide 0 db).2 = s := by
  intro rules s db web job calls
  obtain ⟨hfilter, hhash, -⟩ := s.layers_share_no_budget
  have hdb : Rate.keeps db.traceId (s.selectedRate db) = false := by decide +kernel
  have hdbLayer : s.layerOf db = some 0 := by decide +kernel
  have hwebLayer : s.layerOf web = some 1 := by decide +kernel
  have hjobLayer : s.layerOf job = some 2 := by decide +kernel
  have hcalls : calls.filter (Call.concerns s (some 1)) = [.decide 0 web, .agentRates [], .decide 0 web] := by
    simp [calls, List.filter_cons, Call.concerns, hdbLayer, hwebLayer, hjobLayer]
  have hweb := hfilter calls (some 1)
  rw [hcalls] at hweb
  exact ⟨hdbLayer, hwebLayer, hjobLayer, hweb, by decide +kernel, hdb, hhash 0 db hdb⟩

end Sampler

end Tracing
