import Tracing.Proofs.Propagation.Documents

/-!
# The case of header names

A name is asked for, and stored, in any case (`Carrier.setAll_lowercase`), and found under its lowercase. A string
map that was not filled through `Carrier.set` may have keys in any case; of these only the ones in lower case are
ever found (`Carrier.get?_filter_lowercase`). So two maps that hold the same values under keys that differ in case
(`Dict.SameUpToCase`) agree on a header exactly if it stands in lower case in both of them or in neither:
`extract_ignores_case`.
-/

namespace Tracing

open Text

/-! ### Keys up to letter case -/

/-- A text with its ASCII letters in lower case. -/
def Text.foldAscii (s : String) : String := String.ofList (s.toList.map lowerAscii)

namespace Dict

variable {fields other : Dict String} {key : String}

/-- No two keys differ only in the case of their letters. -/
def DistinctUpToCase (fields : Dict String) : Prop :=
  ∀ key ∈ fields.keys, ∀ key' ∈ fields.keys, foldAscii key' = foldAscii key → key' = key

instance (fields : Dict String) : Decidable fields.DistinctUpToCase :=
  inferInstanceAs (Decidable (∀ key ∈ fields.keys, ∀ key' ∈ fields.keys, foldAscii key' = foldAscii key → key' = key))

/-- Every value of a string map is also in another one, under a key that is equal up to the case of its letters. -/
def KeptUpToCase (fields other : Dict String) : Prop :=
  ∀ e ∈ fields.entries, ∃ e' ∈ other.entries, foldAscii e'.1 = foldAscii e.1 ∧ e'.2 = e.2

instance (fields other : Dict String) : Decidable (fields.KeptUpToCase other) :=
  inferInstanceAs (Decidable (∀ e ∈ fields.entries, ∃ e' ∈ other.entries,
    foldAscii e'.1 = foldAscii e.1 ∧ e'.2 = e.2))

/-- Two string maps hold the same values under keys that are equal up to the case of their letters, and neither has
two keys that differ only in that. -/
def SameUpToCase (fields other : Dict String) : Prop :=
  (fields.DistinctUpToCase ∧ other.DistinctUpToCase) ∧ fields.KeptUpToCase other ∧ other.KeptUpToCase fields

instance (fields other : Dict String) : Decidable (fields.SameUpToCase other) :=
  inferInstanceAs (Decidable ((fields.DistinctUpToCase ∧ other.DistinctUpToCase) ∧
    fields.KeptUpToCase other ∧ other.KeptUpToCase fields))

theorem SameUpToCase.get?_eq (h : fields.SameUpToCase other) (hkey : key ∈ fields.keys) (hother : key ∈ other.keys) :
    fields.get? key = other.get? key := by
  obtain ⟨⟨-, hdistinct⟩, hkept, -⟩ := h
  obtain ⟨value, hvalue⟩ := mem_keys.mp hkey
  obtain ⟨e, he, hfold, hsame⟩ := hkept _ (mem_of_get? hvalue)
  have hname : e.1 = key := hdistinct key hother e.1 (List.mem_map_of_mem he) hfold
  have hfound : other.get? e.1 = some e.2 := get?_of_mem he
  rw [hvalue, ← hname, hfound, hsame]

/-- **Both answer a look-up alike exactly if the key is in both of them or in neither.** -/
theorem SameUpToCase.get?_eq_iff (h : fields.SameUpToCase other) (key : String) :
    fields.get? key = other.get? key ↔ (key ∈ fields.keys ↔ key ∈ other.keys) := by
  refine ⟨fun heq => by rw [mem_keys, mem_keys, heq], fun hiff => ?_⟩
  by_cases hkey : key ∈ fields.keys
  · exact h.get?_eq hkey (hiff.mp hkey)
  · have hother : key ∉ other.keys := fun hmem => hkey (hiff.mpr hmem)
    rw [get?_eq_none hkey, get?_eq_none hother]

end Dict

/-! ### Names in any case -/

namespace Carrier

theorem get?_filter_lowercase (fields : Dict String) {name : String} (hname : lowercase name = name) :
    (headers (fields.filter fun key _ => lowercase key = key)).get? name = (headers fields).get? name := by
  show (fields.filter fun key _ => decide (lowercase key = key)).get? (lowercase name) = fields.get? (lowercase name)
  rw [Dict.get?_filter fields fun key => decide (lowercase key = key), hname]
  simp [hname]

theorem setAll_lowercase {stored stored' : List (String × String)}
    (h : List.Forall₂ (fun header header' => lowercase header'.1 = lowercase header.1 ∧ header'.2 = header.2)
      stored stored') (carrier : Carrier) : carrier.setAll stored' = carrier.setAll stored := by
  induction h generalizing carrier with
  | nil => rfl
  | @cons header header' rest rest' hheader hrest ih =>
    have hset : carrier.set header'.1 header'.2 = carrier.set header.1 header.2 := by
      unfold set
      rw [hheader.1, hheader.2]
    exact (congrArg (setAll · rest') hset).trans (ih (carrier.set header.1 header.2))

end Carrier

theorem Dict.SameUpToCase.extract_eq {config : Config} {fields other : Dict String} (h : fields.SameUpToCase other)
    (hheaders : ∀ style ∈ Style.asked config.readStyles (.headers fields), ∀ name ∈ style.headers,
      name ∈ fields.keys ↔ name ∈ other.keys) :
    config.propagator.extract (.headers other) = config.propagator.extract (.headers fields) := by
  rw [config.propagator_extract, config.propagator_extract]
  refine Propagator.extractFirst_congr fun style hstyle name hname => ?_
  show fields.get? (lowercase name) = other.get? (lowercase name)
  rw [style.lowercase_header name hname]
  exact (h.get?_eq_iff name).mpr (hheaders style hstyle name hname)

/-- **How far the case of header names is ignored.** Let two string maps hold the same values under keys that are
equal up to case. A look-up finds the same in both exactly if the lowercase of the name is a key of both or of neither,
so they are read alike if that is so of the headers that are asked for. A key that is not in lower case is as good
as none, though: without all such keys the same is read. No map that was filled through `Carrier.set` has one, since
there the case of the names is ignored. -/
theorem extract_ignores_case (config : Config) {fields other : Dict String} (h : fields.SameUpToCase other) :
    (∀ name, (Carrier.headers fields).get? name = (Carrier.headers other).get? name ↔
      (lowercase name ∈ fields.keys ↔ lowercase name ∈ other.keys)) ∧
    ((∀ style ∈ Style.asked config.readStyles (.headers fields), ∀ name ∈ style.headers,
        name ∈ fields.keys ↔ name ∈ other.keys) →
      config.propagator.extract (.headers other) = config.propagator.extract (.headers fields)) ∧
    config.propagator.extract (.headers (fields.filter fun key _ => lowercase key = key)) =
      config.propagator.extract (.headers fields) ∧
    ∀ stored stored', List.Forall₂ (fun header header' => lowercase header'.1 = lowercase header.1 ∧
        header'.2 = header.2) stored stored' →
      ∀ carrier : Carrier, carrier.setAll stored' = carrier.setAll stored := by
  refine ⟨fun name => h.get?_eq_iff (lowercase name), h.extract_eq, ?capitals,
    fun _ _ hstored => Carrier.setAll_lowercase hstored⟩
  case capitals =>
    rw [config.propagator_extract, config.propagator_extract]
    refine Propagator.extractFirst_congr fun style _ name hname => ?_
    exact (Carrier.get?_filter_lowercase fields (style.lowercase_header name hname)).symm

/-- The keys of two maps differ in case only, but not those that are asked for. -/
theorem extract_ignores_case_accept :
    let fields : Dict String := .ofList [("x-datadog-trace-id", "7"), ("Accept", "*/*")]
    let other : Dict String := .ofList [("x-datadog-trace-id", "7"), ("aCCEPT", "*/*")]
    let p := Config.default.propagator
    fields.SameUpToCase other ∧ p.extract (.headers other) = p.extract (.headers fields) ∧
      (p.extract (.headers other)).value = some ⟨.ofNat 7, .zero, none, none, ∅⟩ ∧
      (Carrier.headers fields).get? "X-DATADOG-TRACE-ID" = (Carrier.headers other).get? "X-DATADOG-TRACE-ID" ∧
      Carrier.empty.setAll [("X-Datadog-Trace-Id", "7")] = Carrier.empty.setAll [("x-datadog-trace-ID", "7")] := by
  intro fields other p
  have hsame : fields.SameUpToCase other := by decide +kernel
  have hasked : Style.asked Config.default.readStyles (.headers fields) = [.datadog] := by decide +kernel
  obtain ⟨hlookup, hextract, -, hstored⟩ := extract_ignores_case Config.default hsame
  refine ⟨hsame, hextract ?_, by decide +kernel, (hlookup _).mpr (by decide +kernel), hstored _ _ ?_ .empty⟩
  · rw [hasked]
    decide +kernel
  · exact .cons (by decide +kernel) .nil

/-- The trace id is read from one of two maps whose only keys differ in case, and not from the other: not even under
the very key that it has there. -/
theorem not_extract_ignores_case :
    let fields : Dict String := .ofList [("x-datadog-trace-id", "1")]
    let other : Dict String := .ofList [("X-Datadog-Trace-Id", "1")]
    let p := Config.default.propagator
    fields.SameUpToCase other ∧
      (p.extract (.headers fields)).value = some ⟨.ofNat 1, .zero, none, none, ∅⟩ ∧
      (p.extract (.headers other)).value = none ∧
      (Carrier.headers other).get? "X-Datadog-Trace-Id" = none := by
  decide +kernel

end Tracing
