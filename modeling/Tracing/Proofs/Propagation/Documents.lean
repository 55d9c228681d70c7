import Tracing.Proofs.Propagation.FirstStyle
import Tracing.Proofs.Propagation.SideBySide

/-!
# Documents and string maps

A JSON object can stand in for a string map: if its string members are the entries of the map (`Json.Holds`), it
holds the same headers, and it still does after the same headers were stored in both (`Json.Holds.setAll`). All
that a carrier is written to is a list of headers (`Carrier.write_value`), so `carriers_interchangeable` follows
for whole sequences of writes. A value that is no object is a map without entries that nothing is stored in.
-/

namespace Tracing

open Text

variable {carrier other : Carrier} {fields : Dict String} {value : Json} {members : List (String × Json)}

/-! ### The same headers -/

/-- The string members of a value are exactly the entries of a string map, so that a member of another kind has a key
that the map does not have. A value that is no object has no members at all. -/
def Json.Holds (value : Json) (fields : Dict String) : Prop :=
  ∀ key text, value.member? key = some (.str text) ↔ fields.get? key = some text

theorem Json.bind_str?_eq_some_iff {key text : String} :
    (value.member? key).bind Json.str? = some text ↔ value.member? key = some (.str text) := by
  rw [Option.bind_eq_some_iff]
  constructor
  · rintro ⟨member, hmember, htext⟩
    cases member with
    | str s =>
      obtain rfl := Option.some.inj htext
      exact hmember
    | null | bool | int | float | arr | obj => cases htext
  · exact fun hmember => ⟨_, hmember, rfl⟩

namespace Json.Holds

theorem bind_str? (h : value.Holds fields) (key : String) :
    (value.member? key).bind Json.str? = fields.get? key :=
  Option.ext fun text => Json.bind_str?_eq_some_iff.trans (h key text)

/-- **Every header is the same.** -/
theorem get? (h : value.Holds fields) (name : String) :
    (Carrier.document value).get? name = (Carrier.headers fields).get? name :=
  h.bind_str? (lowercase name)

theorem eq_empty (h : value.Holds fields) (hvalue : ∀ members, value ≠ .obj members) : fields = ∅ := by
  refine Dict.ext_get? fun key => ?_
  rw [← h.bind_str?]
  cases value with
  | obj members => exact absurd rfl (hvalue members)
  | null | bool | int | float | str | arr => rfl

/-- **One more header**, be it in place of a string, of another member or of none. -/
theorem insert (h : (Json.obj members).Holds fields) (key text : String) :
    (Json.obj (Entries.insert key (.str text) members)).Holds (fields.insert key text) := by
  intro key' text'
  have hkey := h key' text'
  simp only [member?] at hkey ⊢
  rw [Entries.get?_insert, Dict.get?_insert]
  split
  · simp only [Option.some.injEq, Json.str.injEq]
  · exact hkey

theorem setAll (h : (Json.obj members).Holds fields) (headers : List (String × String)) :
    ∃ members', (Carrier.document (.obj members)).setAll headers = .document (.obj members') ∧
      (Json.obj members').Holds (Carrier.storeAll fields headers) := by
  induction headers generalizing fields members with
  | nil => exact ⟨members, rfl, h⟩
  | cons header rest ih => exact ih (h.insert (lowercase header.1) header.2)

end Json.Holds

theorem Json.member?_eq_none {key : String} (h : key ∉ (Carrier.document value).keys) : value.member? key = none := by
  cases value with
  | obj members => exact Entries.get?_eq_none fun e he heq => h (List.mem_map.mpr ⟨e, he, heq⟩)
  | null | bool | int | float | str | arr => rfl

theorem Json.holds_iff : value.Holds fields ↔
    ∀ key ∈ (Carrier.document value).keys ++ fields.keys, (value.member? key).bind Json.str? = fields.get? key := by
  refine ⟨fun h key _ => h.bind_str? key, fun h key text => ?_⟩
  rw [← Json.bind_str?_eq_some_iff]
  by_cases hkey : key ∈ (Carrier.document value).keys ++ fields.keys
  · rw [h key hkey]
  · rw [List.mem_append, not_or] at hkey
    rw [Json.member?_eq_none hkey.1, Dict.get?_eq_none hkey.2]
    exact Iff.rfl

instance (value : Json) (fields : Dict String) : Decidable (value.Holds fields) :=
  decidable_of_iff _ Json.holds_iff.symm

/-! ### Writing to a carrier -/

/-- The propagator for a configuration. -/
def Config.propagator (config : Config) : Propagator :=
  .ofStyles config.style config.styleExtract config.styleInject

theorem Config.propagator_extract (config : Config) (carrier : Carrier) :
    config.propagator.extract carrier = Propagator.extractFirst carrier config.readStyles :=
  Propagator.extractFirst_filter carrier config.readStyles

/-- What can be done to a carrier. -/
inductive Carrier.Write where
  /-- A header is stored. -/
  | set (name value : String)
  /-- A context is injected in the styles of a configuration. -/
  | inject (config : Config) (out : Outgoing)

/-- The headers that are stored by a write. -/
def Carrier.Write.headers : Write → List (String × String)
  | set name value => [(name, value)]
  | inject config out => config.propagator.injectors.flatMap (·.written out)

namespace Carrier

/-- Does one thing to a carrier. -/
def write (carrier : Carrier) : Write → Logged Carrier
  | .set name value => return carrier.set name value
  | .inject config out => config.propagator.inject out carrier

/-- Does several things to a carrier, one after the other. -/
def writeAll (carrier : Carrier) (writes : List Write) : Logged Carrier := writes.foldlM write carrier

theorem write_value (carrier : Carrier) (w : Write) : (carrier.write w).value = carrier.setAll w.headers := by
  cases w with
  | set name value => rfl
  | inject config out => exact config.propagator.inject_value out carrier

theorem writeAll_value (carrier : Carrier) (writes : List Write) :
    (carrier.writeAll writes).value = carrier.setAll (writes.flatMap Write.headers) := by
  unfold writeAll
  induction writes generalizing carrier with
  | nil => rfl
  | cons w rest ih => rw [List.foldlM_cons, Logged.value_bind, ih, write_value, List.flatMap_cons, setAll_append]

theorem setAll_of_not_isOpen (h : carrier.isOpen = false) (headers : List (String × String)) :
    carrier.setAll headers = carrier := by
  induction headers with
  | nil => rfl
  | cons header rest ih =>
    have hset : carrier.setAll (header :: rest) = (carrier.set header.1 header.2).setAll rest := rfl
    rw [hset, set_of_not_isOpen h, ih]

end Carrier

/-! ### What is logged -/

/-- What an injection logs is about the context, not about the carrier. -/
theorem Style.inject_events (style : Style) (out : Outgoing) (carrier other : Carrier) :
    (style.inject out carrier).events = (style.inject out other).events := by
  cases style with
  | datadog =>
    simp only [inject, Datadog.inject, Datadog.injectTags]
    split
    · rfl
    · split <;> rfl
  | traceContext | b3multi | b3 | none => rfl

theorem Propagator.inject_events (p : Propagator) (out : Outgoing) (carrier other : Carrier) :
    (p.inject out carrier).events = (p.inject out other).events := by
  unfold inject
  generalize p.injectors = styles
  induction styles generalizing carrier other with
  | nil => rfl
  | cons style rest ih =>
    rw [List.foldlM_cons, List.foldlM_cons, Logged.events_bind, Logged.events_bind,
      style.inject_events out carrier other, ih _ (style.inject out other).value]

theorem Carrier.writeAll_events (carrier other : Carrier) (writes : List Write) :
    (carrier.writeAll writes).events = (other.writeAll writes).events := by
  unfold writeAll
  induction writes generalizing carrier other with
  | nil => rfl
  | cons w rest ih =>
    have hw : (carrier.write w).events = (other.write w).events := by
      cases w with
      | set name value => rfl
      | inject config out => exact config.propagator.inject_events out carrier other
    rw [List.foldlM_cons, List.foldlM_cons, Logged.events_bind, Logged.events_bind, hw, ih _ (other.write w).value]

/-! ### Carriers that hold nothing -/

theorem Style.extract_eq_none (style : Style) (h : ∀ name, carrier.get? name = Option.none) :
    (style.extract carrier).value = Option.none := by
  have hempty : style.extract carrier = style.extract .empty := extract_congr fun name _ => h name
  rw [hempty]
  cases style <;> rfl

theorem Propagator.extract_eq_none (p : Propagator) (h : ∀ name, carrier.get? name = none) :
    (p.extract carrier).value = none := by
  have hfinds : ∀ style : Style, style.finds carrier = false := fun style => by
    rw [Style.finds, style.extract_eq_none h]
    rfl
  rw [extract, extractFirst_value, List.find?_eq_none.mpr fun style _ => Bool.eq_false_iff.mp (hfinds style)]
  rfl

/-- Carriers that hold the same headers are read alike, down to what is logged. -/
theorem Propagator.extract_congr (p : Propagator) (h : ∀ name, carrier.get? name = other.get? name) :
    p.extract other = p.extract carrier :=
  extractFirst_congr fun _ _ name _ => h name

/-- **A document and a string map with the same headers are interchangeable.** With every configuration they are read
alike. If the document is an object, the two still hold the same headers after any sequence of headers that are
stored and of contexts that are injected, with the same events. If it is none, nothing is ever stored in it, and
nothing is read from it. -/
theorem carriers_interchangeable (h : value.Holds fields) :
    (∀ config : Config, config.propagator.extract (.document value) = config.propagator.extract (.headers fields)) ∧
    (∀ members, value = .obj members → ∀ writes, ∃ members' fields',
      ((Carrier.document value).writeAll writes).value = .document (.obj members') ∧
      ((Carrier.headers fields).writeAll writes).value = .headers fields' ∧
      (Json.obj members').Holds fields' ∧
      ((Carrier.document value).writeAll writes).events = ((Carrier.headers fields).writeAll writes).events) ∧
    ((∀ members, value ≠ .obj members) → fields = ∅ ∧
      (∀ writes, ((Carrier.document value).writeAll writes).value = .document value) ∧
      ∀ config : Config, (config.propagator.extract (.document value)).value = none) := by
  refine ⟨fun config => config.propagator.extract_congr fun name => (h.get? name).symm, ?object, ?closed⟩
  case object =>
    rintro members rfl writes
    obtain ⟨members', hmembers, hholds⟩ := h.setAll (writes.flatMap Carrier.Write.headers)
    refine ⟨members', _, ?_, ?_, hholds, Carrier.writeAll_events _ _ writes⟩
    · rw [Carrier.writeAll_value, hmembers]
    · rw [Carrier.writeAll_value, Carrier.setAll_headers]
  case closed =>
    intro hvalue
    have hopen : (Carrier.document value).isOpen = false := by
      cases value with
      | obj members => exact absurd rfl (hvalue members)
      | null | bool | int | float | str | arr => rfl
    refine ⟨h.eq_empty hvalue, fun writes => ?_, fun config => config.propagator.extract_eq_none fun name => ?_⟩
    · rw [Carrier.writeAll_value, Carrier.setAll_of_not_isOpen hopen]
    · rw [h.get?, h.eq_empty hvalue]
      rfl

/-- An object with a number under the name of a header, over which that header is then stored, and a value that is
no object. -/
theorem carriers_interchangeable_number :
    let value : Json := .obj [("retries", .int 3), ("traceparent", .int 1), ("x-datadog-trace-id", .str "7")]
    let fields : Dict String := .ofList [("x-datadog-trace-id", "7")]
    let out : Outgoing := ⟨.ofNat 5, .ofNat 9, none, none, none, ∅⟩
    let writes : List Carrier.Write := [.set "TraceParent" "old", .inject { Config.default with style := [.b3] } out]
    let p := Config.default.propagator
    value.Holds fields ∧ p.extract (.document value) = p.extract (.headers fields) ∧
      (p.extract (.document value)).value = some ⟨.ofNat 7, .zero, none, none, ∅⟩ ∧
      (∃ members' fields',
        ((Carrier.document value).writeAll writes).value = .document (.obj members') ∧
        ((Carrier.headers fields).writeAll writes).value = .headers fields' ∧
        (Json.obj members').Holds fields' ∧
        fields'.get? "traceparent" = some "old" ∧ fields'.get? "retries" = none) ∧
      Json.null.Holds ∅ ∧ ((Carrier.document .null).writeAll writes).value = .document .null := by
  intro value fields out writes p
  have hvalue : value.Holds fields := by decide +kernel
  have hnull : Json.null.Holds ∅ := by decide +kernel
  obtain ⟨hextract, hobject, -⟩ := carriers_interchangeable hvalue
  obtain ⟨members', fields', hdocument, hheaders, hholds, -⟩ := hobject _ rfl writes
  obtain ⟨-, hwrites, -⟩ := (carriers_interchangeable hnull).2.2 fun members h => by cases h
  have hfields : fields' = Carrier.storeAll fields (writes.flatMap Carrier.Write.headers) := by
    rw [Carrier.writeAll_value, Carrier.setAll_headers] at hheaders
    exact (Carrier.headers.inj hheaders).symm
  refine ⟨hvalue, hextract _, by decide +kernel, ⟨members', fields', hdocument, hheaders, hholds, ?_, ?_⟩, hnull,
    hwrites writes⟩
  · rw [hfields]
    decide +kernel
  · rw [hfields]
    decide +kernel

end Tracing
