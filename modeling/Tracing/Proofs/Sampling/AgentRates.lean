import Tracing.Proofs.Dict
import Tracing.Proofs.Sampling.Layers

/-!
# The rates of the agent

The agent names a rate for each service and environment, and the sampler looks the names up without regard to
case. Where two names differ in case only and their rates are not the same, the one that comes last counts
(`agentRates_concat`); where this does not happen the order is of no importance, and the rate of a service is
that of any entry with its name (`agentRates_unordered`).
-/

namespace Tracing

open Text

namespace Sampler

/-- The rates of entries as they are looked up: by lowercase name, without those that are no number. -/
def rateEntries (rates : List (String × Float)) : List (String × Float) :=
  (rates.filter fun e => !e.2.isNaN).map fun e => (lowercase e.1, Rate.clamp e.2)

/-- The name by which the rate of a service is looked up. -/
def rateName (s : Sampler) (service : String) : String := lowercase ("service:" ++ service ++ ",env:" ++ s.env)

/-- Entries whose names differ in case only have the same rate. -/
def Unambiguous (rates : List (String × Float)) : Prop :=
  ∀ e ∈ rates, ∀ e' ∈ rates, e.2.isNaN = false → e'.2.isNaN = false → lowercase e.1 = lowercase e'.1 →
    Rate.clamp e.2 = Rate.clamp e'.2

instance (rates : List (String × Float)) : Decidable (Unambiguous rates) := by
  unfold Unambiguous; infer_instance

variable {s : Sampler} {rates rates' : List (String × Float)} {name : String} {rate : Float} {e : String × Float}

theorem setAgentRates_eq (s : Sampler) (rates : List (String × Float)) :
    s.setAgentRates rates = { s with agentRates := .ofList (rateEntries rates) } := rfl

theorem mem_rateEntries : (name, rate) ∈ rateEntries rates ↔
    ∃ e ∈ rates, e.2.isNaN = false ∧ lowercase e.1 = name ∧ Rate.clamp e.2 = rate := by
  simp only [rateEntries, List.mem_map, List.mem_filter, Bool.not_eq_true', Prod.mk.injEq, and_assoc]

/-- **The last entry for a name counts.** -/
theorem agentRates_concat (rates : List (String × Float)) (hnumber : e.2.isNaN = false) :
    (Dict.ofList (rateEntries (rates ++ [e]))).get? (lowercase e.1) = some (Rate.clamp e.2) := by
  have hentries : rateEntries (rates ++ [e]) = rateEntries rates ++ [(lowercase e.1, Rate.clamp e.2)] := by
    have hkept : [e].filter (fun e => !e.2.isNaN) = [e] := by
      simp only [List.filter_singleton, hnumber, Bool.not_false, cond_true]
    rw [rateEntries, List.filter_append, List.map_append, hkept]
    rfl
  rw [hentries]
  exact Dict.get?_ofList_concat _ _ _

/-- Without ambiguity any entry for a name counts. -/
theorem Unambiguous.get?_eq_some_iff (h : Unambiguous rates) :
    (Dict.ofList (rateEntries rates)).get? name = some rate ↔ (name, rate) ∈ rateEntries rates := by
  refine ⟨Dict.mem_of_get?_ofList, fun hmem => Dict.get?_ofList_of_mem hmem fun other hother => ?_⟩
  obtain ⟨e, he, hnumber, hname, rfl⟩ := mem_rateEntries.mp hmem
  obtain ⟨e', he', hnumber', hname', rfl⟩ := mem_rateEntries.mp hother
  exact h e' he' e he hnumber' hnumber (hname'.trans hname.symm)

theorem Unambiguous.setAgentRates_eq (h : Unambiguous rates) (hsame : ∀ e, e ∈ rates' ↔ e ∈ rates) :
    s.setAgentRates rates' = s.setAgentRates rates := by
  have h' : Unambiguous rates' := fun e he e' he' => h e ((hsame e).mp he) e' ((hsame e').mp he')
  have hdict : Dict.ofList (rateEntries rates') = Dict.ofList (rateEntries rates) := by
    refine Dict.ext_get? fun name => Option.ext fun rate => ?_
    rw [h'.get?_eq_some_iff, h.get?_eq_some_iff, mem_rateEntries, mem_rateEntries]
    simp only [hsame]
  rw [Sampler.setAgentRates_eq, Sampler.setAgentRates_eq, hdict]

/-- An entry that is brought to the end gives its name its rate. -/
theorem exists_perm_get? (he : e ∈ rates) (hnumber : e.2.isNaN = false) : ∃ rates', rates'.Perm rates ∧
    (Dict.ofList (rateEntries rates')).get? (lowercase e.1) = some (Rate.clamp e.2) := by
  obtain ⟨front, back, rfl⟩ := List.append_of_mem he
  refine ⟨front ++ back ++ [e], ?_, agentRates_concat _ hnumber⟩
  rw [List.append_assoc]
  exact List.perm_append_comm.append_left front

theorem unambiguous_iff (s : Sampler) : Unambiguous rates ↔
    ∀ rates', rates'.Perm rates → s.setAgentRates rates' = s.setAgentRates rates := by
  refine ⟨fun h rates' hperm => h.setAgentRates_eq fun e => hperm.mem_iff, ?_⟩
  intro h e he e' he' hnumber hnumber' hname
  obtain ⟨front, hperm, hlast⟩ := exists_perm_get? he hnumber
  obtain ⟨front', hperm', hlast'⟩ := exists_perm_get? he' hnumber'
  have hdict : Dict.ofList (rateEntries front) = Dict.ofList (rateEntries front') :=
    congrArg agentRates ((h front hperm).trans (h front' hperm').symm)
  rw [hname, hdict, hlast'] at hlast
  exact (Option.some.inj hlast).symm

/-- **The order of the agent's rates matters only where names collide.** If and only if names that differ in
case only have the same rate, the entries have the same effect in any order. Then the effect is one of the set of
entries: every later decision is the same, and the rate of a service is that of any entry with its name. -/
theorem agentRates_unordered (s : Sampler) (rates : List (String × Float)) :
    (Unambiguous rates ↔ ∀ rates', rates'.Perm rates → s.setAgentRates rates' = s.setAgentRates rates) ∧
    (Unambiguous rates → ∀ rates', (∀ e, e ∈ rates' ↔ e ∈ rates) → ∀ calls,
      (s.setAgentRates rates').answers calls = (s.setAgentRates rates).answers calls) ∧
    (Unambiguous rates → ∀ service rate, (s.setAgentRates rates).agentRate? service = some rate ↔
      ∃ e ∈ rates, e.2.isNaN = false ∧ lowercase e.1 = s.rateName service ∧ Rate.clamp e.2 = rate) := by
  refine ⟨unambiguous_iff s, ?_, ?_⟩
  · intro h rates' hsame calls
    rw [h.setAgentRates_eq hsame]
  · intro h service rate
    rw [← mem_rateEntries, ← h.get?_eq_some_iff]
    rfl

/-- Names that differ in case only do no harm if their rates come to the same. -/
theorem agentRates_unordered_twice :
    let s := (ofConfig 0 Config.default).value
    let rates : List (String × Float) := [("service:web,env:", 1), ("SERVICE:web,env:", 2), ("service:db,env:", 0.5)]
    Unambiguous rates ∧ s.setAgentRates rates.reverse = s.setAgentRates rates ∧
      (∀ calls, (s.setAgentRates (rates ++ rates)).answers calls = (s.setAgentRates rates).answers calls) ∧
      (s.setAgentRates rates).agentRate? "web" = some 1 := by
  intro s rates
  obtain ⟨horder, hset, hrate⟩ := s.agentRates_unordered rates
  have h : Unambiguous rates := by decide +kernel
  have hweb : ("SERVICE:web,env:", (2 : Float)) ∈ rates := List.mem_cons_of_mem _ List.mem_cons_self
  refine ⟨h, horder.mp h _ (List.reverse_perm rates), hset h _ fun e => by rw [List.mem_append, or_self], ?_⟩
  exact (hrate h "web" 1).mpr ⟨_, hweb, by decide +kernel, by decide +kernel, by decide +kernel⟩

/-- Of two names that differ in case only the later counts: a sampler keeps a trace by the rates in one order and
not in the other. -/
theorem agentRates_order_matters :
    let s := (ofConfig 0 Config.default).value
    let rates : List (String × Float) := [("service:web,env:", 0), ("Service:web,env:", 1)]
    let target : Target := ⟨.ofNat 1, "web", "", ""⟩
    (rates.map Prod.fst).Nodup ∧ rates.reverse.Perm rates ∧
      ((s.setAgentRates rates).decide 0 target).1.priority = .autoKeep ∧
      ((s.setAgentRates rates.reverse).decide 0 target).1.priority = .autoReject := by
  intro s rates target
  exact ⟨by decide, List.reverse_perm rates, by decide +kernel, by decide +kernel⟩

end Sampler

end Tracing
