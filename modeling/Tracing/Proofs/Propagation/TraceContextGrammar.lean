import Tracing.Proofs.Dict
import Tracing.Proofs.Ident
import Tracing.Proofs.Propagation.StateHeader
import Tracing.Proofs.Propagation.Tokens
import Tracing.Proofs.Propagation.TraceContextRoundTrip
import Tracing.Proofs.Text.Numerals

/-!
# What trace context headers mean

The grammar of the parent header (`IsParent`): a version, two ids and flags, in hexadecimal digits of either case
with dashes between them, and for other versions than `00` perhaps more behind a dash. A carrier is read if and
only if its parent header fits, and what is read is what the header says (`trace_context_grammar`). The state
header only says which of the two priorities that agree with the flags it is (`StatesPriority`).

The version `ff` is forbidden in lowercase and in capitals; with one letter of each it is let through
(`extract_mixed_version`).
-/

namespace Tracing.TraceContext

open Text

variable {carrier : Carrier} {text : List Char} {fields : ParentFields}

/-! ### The parent header -/

/-- The text of a parent header that is read, and its fields. -/
structure IsParent (text : List Char) (fields : ParentFields) : Prop where
  form : ∃ n trace span flags,
    text = fields.version ++ '-' :: (trace ++ '-' :: (span ++ '-' :: (flags ++ fields.tail))) ∧
      Hex.IsNumeral 2 fields.version n ∧
      Hex.IsNumeral 32 trace fields.traceId ∧ trace ≠ List.replicate 32 '0' ∧
      Hex.IsNumeral 16 span fields.spanId ∧ span ≠ List.replicate 16 '0' ∧
      Hex.IsNumeral 2 flags fields.flags
  tail : fields.tail = [] ∨ ∃ rest, fields.tail = '-' :: rest ∧ '\n' ∉ rest
  version : fields.version ≠ ['f', 'f'] ∧ fields.version ≠ ['F', 'F']
  first : fields.version = ['0', '0'] → fields.tail = []

theorem takeHex_eq_some_iff {width n : Nat} {digits rest : List Char} :
    takeHex width text = some (digits, n, rest) ↔ text = digits ++ rest ∧ Hex.IsNumeral width digits n := by
  unfold takeHex
  rw [Hex.isNumeral_iff]
  constructor
  · intro h
    simp only at h
    split at h
    · next hlength =>
      obtain ⟨m, hread, heq⟩ := Option.map_eq_some_iff.mp h
      cases heq
      exact ⟨(List.take_append_drop width text).symm, hlength, hread⟩
    · cases h
  · rintro ⟨rfl, hlength, hread⟩
    simp only [List.take_left' hlength, List.drop_left' hlength, if_pos hlength, hread, Option.map_some]

theorem takeDash_eq_some_iff {rest : List Char} : takeDash text = some rest ↔ text = '-' :: rest := by
  constructor
  · intro h
    unfold takeDash at h
    split at h
    · cases h
      rfl
    · cases h
  · rintro rfl
    rfl

theorem isTail_iff : isTail text = true ↔ text = [] ∨ ∃ rest, text = '-' :: rest ∧ '\n' ∉ rest := by
  cases text with
  | nil => simp [isTail]
  | cons c rest =>
    have hline : (∀ d ∈ rest, d ≠ '\n') ↔ '\n' ∉ rest := ⟨fun h hmem => h _ hmem rfl, fun h d hd heq => h (heq ▸ hd)⟩
    simp [isTail, ← hline]

theorem readFields_eq_some_iff : readFields text = some fields ↔ (∃ n trace span flags,
    text = fields.version ++ '-' :: (trace ++ '-' :: (span ++ '-' :: (flags ++ fields.tail))) ∧
      Hex.IsNumeral 2 fields.version n ∧ Hex.IsNumeral 32 trace fields.traceId ∧
      Hex.IsNumeral 16 span fields.spanId ∧ Hex.IsNumeral 2 flags fields.flags) ∧
    (fields.tail = [] ∨ ∃ rest, fields.tail = '-' :: rest ∧ '\n' ∉ rest) := by
  unfold readFields
  rw [← isTail_iff]
  simp only [Option.bind_eq_bind, Option.bind_eq_some_iff, Prod.exists, takeHex_eq_some_iff, takeDash_eq_some_iff]
  constructor
  · rintro ⟨version, n, afterVersion, ⟨rfl, hversion⟩, _, rfl, trace, traceId, _, ⟨rfl, htrace⟩, _, rfl,
      span, spanId, _, ⟨rfl, hspan⟩, _, rfl, flags, flagBits, tail, ⟨rfl, hflags⟩, h⟩
    split at h
    · next htail =>
      cases h
      exact ⟨⟨n, trace, span, flags, rfl, hversion, htrace, hspan, hflags⟩, htail⟩
    · cases h
  · rintro ⟨⟨n, trace, span, flags, rfl, hversion, htrace, hspan, hflags⟩, htail⟩
    exact ⟨_, n, _, ⟨rfl, hversion⟩, _, rfl, trace, _, _, ⟨rfl, htrace⟩, _, rfl, span, _, _, ⟨rfl, hspan⟩, _, rfl,
      flags, _, _, ⟨rfl, hflags⟩, if_pos htail⟩

theorem checkVersion_eq_ok_iff : checkVersion fields = .ok () ↔
    (fields.version ≠ ['f', 'f'] ∧ fields.version ≠ ['F', 'F']) ∧
      (fields.version = ['0', '0'] → fields.tail = []) := by
  unfold checkVersion
  split
  · next hforbidden => simp; tauto
  · split
    · next hextra => simp; tauto
    · next hforbidden hextra => simp; tauto

theorem isParent_iff : IsParent text fields ↔ readFields text = some fields ∧ checkVersion fields = .ok () ∧
    fields.traceId ≠ 0 ∧ fields.spanId ≠ 0 := by
  rw [readFields_eq_some_iff, checkVersion_eq_ok_iff]
  constructor
  · rintro ⟨⟨n, trace, span, flags, htext, hversion, htrace, htraceNe, hspan, hspanNe, hflags⟩, htail, hforbidden,
      hfirst⟩
    exact ⟨⟨⟨n, trace, span, flags, htext, hversion, htrace, hspan, hflags⟩, htail⟩, ⟨hforbidden, hfirst⟩,
      fun hzero => htraceNe (htrace.eq_zero_iff.mp hzero), fun hzero => hspanNe (hspan.eq_zero_iff.mp hzero)⟩
  · rintro ⟨⟨⟨n, trace, span, flags, htext, hversion, htrace, hspan, hflags⟩, htail⟩, ⟨hforbidden, hfirst⟩, htraceNe,
      hspanNe⟩
    exact ⟨⟨n, trace, span, flags, htext, hversion, htrace, fun hzero => htraceNe (htrace.eq_zero_iff.mpr hzero),
      hspan, fun hzero => hspanNe (hspan.eq_zero_iff.mpr hzero), hflags⟩, htail, hforbidden, hfirst⟩

/-- The fields of a parent header are told apart in one way. -/
theorem IsParent.unique {other : ParentFields} (h : IsParent text fields) (h' : IsParent text other) :
    fields = other :=
  Option.some.inj ((isParent_iff.mp h).1.symm.trans (isParent_iff.mp h').1)

/-- What the fields of a parent header say. -/
def ParentFields.parent (fields : ParentFields) : Parent :=
  ⟨fields.version, .ofNat fields.traceId, .ofNat fields.spanId, fields.flags % 2 = 1⟩

/-- The checks of a parent header, one after the other. -/
theorem value_readParent (text : List Char) : (readParent text).value =
    match readFields text with
    | none => .error .malformed
    | some fields => match checkVersion fields with
      | .error e => .error e
      | .ok () =>
        if fields.traceId = 0 then .error .zeroTraceId
        else if fields.spanId = 0 then .error .zeroSpanId
        else .ok fields.parent := by
  unfold readParent
  cases readFields text with
  | none => rfl
  | some fields =>
    cases hversion : checkVersion fields with
    | error e =>
      simp only [hversion]
      rfl
    | ok _ =>
      simp only [hversion]
      split_ifs <;> rfl

/-- **A parent header is read by its grammar.** -/
theorem value_readParent_eq_ok_iff {parent : Parent} : (readParent text).value = .ok parent ↔
    ∃ fields, IsParent text fields ∧ parent = fields.parent := by
  simp only [isParent_iff, value_readParent]
  cases readFields text with
  | none => simp
  | some fields =>
    cases hversion : checkVersion fields with
    | error e => simp [hversion]
    | ok _ =>
      by_cases htrace : fields.traceId = 0
      · simp [hversion, htrace]
      · by_cases hspan : fields.spanId = 0
        · simp [hversion, htrace, hspan]
        · simp [hversion, htrace, hspan, eq_comm]

/-! ### The priority of the state header -/

/-- An item with a given name. -/
def IsItemOf (name : String) (text : List Char) (value : String) : Prop :=
  text = name.toList ++ ':' :: value.toList

/-- The state header states a priority: it is printable ASCII throughout, and the last `s` item of its first `dd`
member is the number of the priority. -/
def StatesPriority (carrier : Carrier) (p : Priority) : Prop :=
  ∃ header member item, carrier.get? stateHeader = some header ∧
    (∀ c ∈ header.toList, 0x20 ≤ c.toNat ∧ c.toNat ≤ 0x7e) ∧
    FirstMeaning (fun text rest => text = "dd=".toList ++ rest) (tokens (some header)) (some member) ∧
    FirstMeaning (IsItemOf "s") (splitOn ';' member).reverse (some item) ∧
    Integer.IsInteger item.toList p.toInt

theorem findMember_eq_some_iff {header : String} {member : List Char} : findMember header.toList = some member ↔
    FirstMeaning (fun text rest => text = "dd=".toList ++ rest) (tokens (some header)) (some member) :=
  (firstMeaning_iff fun _ _ _ => dropLead?_eq_some_iff).symm

theorem readItem_eq_some_iff {name value : String} (h : ':' ∉ name.toList) :
    ((readItem text).bind fun item => if item.1 = name then some item.2 else none) = some value ↔
      IsItemOf name text value := by
  unfold readItem IsItemOf
  constructor
  · intro hread
    obtain ⟨item, hitem, hvalue⟩ := Option.bind_eq_some_iff.mp hread
    obtain ⟨⟨before, after⟩, hsplit, rfl⟩ := Option.map_eq_some_iff.mp hitem
    rw [Option.ite_none_right_eq_some] at hvalue
    obtain ⟨hname, hvalue⟩ := hvalue
    rw [← hname, ← Option.some.inj hvalue, String.toList_ofList, String.toList_ofList]
    exact (splitOnce_eq_some hsplit).1
  · rintro rfl
    rw [splitOnce_append h]
    simp

/-- The last item of a name is the one that is read. -/
theorem get?_readItems_eq_some_iff {name value : String} {member : List Char} (h : ':' ∉ name.toList) :
    (readItems member).get? name = some value ↔
      FirstMeaning (IsItemOf name) (splitOn ';' member).reverse (some value) := by
  unfold readItems
  rw [List.map_filterMap, Dict.get?_ofList, ← List.filterMap_reverse]
  refine (Eq.congr_left (Entries.get?_filterMap name readItem _)).trans ?_
  exact (firstMeaning_iff fun text _ value => readItem_eq_some_iff h).symm

theorem priority_extractState_iff {p : Priority} :
    (extractState carrier).value.bind State.priority = some p ↔ StatesPriority carrier p := by
  have hitem : ':' ∉ "s".toList := by decide
  unfold StatesPriority
  constructor
  · intro h
    obtain ⟨state, hstate, hpriority⟩ := Option.bind_eq_some_iff.mp h
    unfold extractState at hstate
    split at hstate
    · next header hheader =>
      unfold readState at hstate
      split at hstate
      · next hprint =>
        obtain ⟨member, hmember, rfl⟩ := Option.map_eq_some_iff.mp hstate
        obtain ⟨item, hget, hread⟩ := Option.bind_eq_some_iff.mp hpriority
        obtain ⟨z, hz, hp⟩ := Option.bind_eq_some_iff.mp hread
        refine ⟨header, member, item, hheader, fun c hc => (isPrintable_iff c).mp (List.all_eq_true.mp hprint c hc),
          findMember_eq_some_iff.mp hmember, (get?_readItems_eq_some_iff hitem).mp hget, ?_⟩
        rw [Priority.toInt_of_ofInt? hp]
        exact Integer.readInt_eq_some_iff.mp hz
      · cases hstate
    · cases hstate
  · rintro ⟨header, member, item, hheader, hprint, hmember, hget, hread⟩
    have hall : header.toList.all isPrintable = true :=
      List.all_eq_true.mpr fun c hc => (isPrintable_iff c).mpr (hprint c hc)
    unfold extractState readState
    rw [hheader]
    simp only
    rw [if_pos hall, findMember_eq_some_iff.mpr hmember]
    simp [stateOfItems, (get?_readItems_eq_some_iff hitem).mpr hget, Integer.readInt_eq_some_iff.mpr hread,
      Priority.ofInt?_toInt]

/-! ### Both headers -/

theorem extract_eq_some_iff {c : Extracted} : (extract carrier).value = some c ↔
    ∃ header fields, carrier.get? parentHeader = some header ∧ IsParent (trim header.toList) fields ∧
      c = { traceId := fields.parent.traceId
            parentSpanId := fields.parent.spanId
            priority := some (agreedPriority fields.parent.sampled ((extractState carrier).value.bind State.priority))
            origin := (extractState carrier).value.bind State.origin
            tags := ((extractState carrier).value.map State.tags).getD ∅ } := by
  unfold extract
  cases hheader : carrier.get? parentHeader with
  | none => simp
  | some header =>
    simp only [Logged.value_bind]
    constructor
    · intro h
      split at h
      · cases h
      · next parent hparent =>
        obtain ⟨fields, hfields, rfl⟩ := value_readParent_eq_ok_iff.mp hparent
        cases h
        exact ⟨header, fields, rfl, hfields, rfl⟩
    · rintro ⟨_, fields, hsame, hfields, rfl⟩
      cases hsame
      rw [value_readParent_eq_ok_iff.mpr ⟨fields, hfields, rfl⟩]
      rfl

theorem IsParent.toNat_traceId (h : IsParent text fields) : fields.parent.traceId.toNat = fields.traceId := by
  obtain ⟨_, _, _, _, _, _, htrace, _⟩ := h.form
  exact TraceId.toNat_ofNat htrace.lt

theorem IsParent.toNat_spanId (h : IsParent text fields) : fields.parent.spanId.toNat = fields.spanId := by
  obtain ⟨_, _, _, _, _, _, _, _, hspan, _⟩ := h.form
  exact SpanId.toNat_ofNat hspan.lt

theorem agreedPriority_of_agrees {sampled : Bool} {p : Priority} (h : p.isKeep = sampled) :
    agreedPriority sampled (some p) = p := by
  unfold agreedPriority
  exact if_pos h

theorem agreedPriority_of_none_agrees {sampled : Bool} {stated : Option Priority}
    (h : ∀ p, stated = some p → p.isKeep ≠ sampled) : agreedPriority sampled stated = .auto sampled := by
  unfold agreedPriority
  cases stated with
  | none => rfl
  | some p => exact if_neg (h p rfl)

/-- **What trace context headers it takes.** A parent header of the form `IsParent`, whatever stands in the state
header. Ids and sampling are those of the parent header. The priority is the one that the state header states
if it is a keep just when the trace is sampled, and else the automatic one. -/
theorem trace_context_grammar (carrier : Carrier) :
    ((extract carrier).value.isSome = true ↔
      ∃ header fields, carrier.get? parentHeader = some header ∧ IsParent (trim header.toList) fields) ∧
    ∀ c header fields, (extract carrier).value = some c → carrier.get? parentHeader = some header →
      IsParent (trim header.toList) fields →
        c.traceId.toNat = fields.traceId ∧ c.parentSpanId.toNat = fields.spanId ∧
        ∃ p, c.priority = some p ∧ (p.isKeep = true ↔ fields.flags % 2 = 1) ∧
          (∀ q, StatesPriority carrier q → (q.isKeep = true ↔ fields.flags % 2 = 1) → p = q) ∧
          ((∀ q, StatesPriority carrier q → ¬ (q.isKeep = true ↔ fields.flags % 2 = 1)) →
            p = if fields.flags % 2 = 1 then .autoKeep else .autoReject) := by
  constructor
  · rw [Option.isSome_iff_exists]
    constructor
    · rintro ⟨c, h⟩
      obtain ⟨header, fields, hheader, hfields, -⟩ := extract_eq_some_iff.mp h
      exact ⟨header, fields, hheader, hfields⟩
    · rintro ⟨header, fields, hheader, hfields⟩
      exact ⟨_, extract_eq_some_iff.mpr ⟨header, fields, hheader, hfields, rfl⟩⟩
  · intro c header fields h hheader hfields
    obtain ⟨header', fields', hheader', hfields', rfl⟩ := extract_eq_some_iff.mp h
    obtain rfl := Option.some.inj (hheader.symm.trans hheader')
    obtain rfl := hfields.unique hfields'
    have hsampled (q : Priority) : q.isKeep = fields.parent.sampled ↔ (q.isKeep = true ↔ fields.flags % 2 = 1) := by
      rw [ParentFields.parent, Bool.eq_iff_iff, decide_eq_true_iff]
    refine ⟨hfields.toNat_traceId, hfields.toNat_spanId, _, rfl, ?_, fun q hq hagrees => ?_, fun hnone => ?_⟩
    · exact (hsampled _).mp (isKeep_agreedPriority _ _)
    · rw [priority_extractState_iff.mpr hq]
      exact agreedPriority_of_agrees ((hsampled q).mpr hagrees)
    · rw [agreedPriority_of_none_agrees fun q hq hagrees =>
        hnone q (priority_extractState_iff.mp hq) ((hsampled q).mp hagrees)]
      simp [ParentFields.parent, Priority.auto]

/-- A later version in capitals with more behind its fields, and a state header whose last priority agrees. -/
theorem trace_context_grammar_later :
    let header := " CC-0000000000000000000000000000000A-000000000000000b-0B-more "
    let carrier : Carrier := .headers (.ofList [("traceparent", header), ("tracestate", "rojo=1, dd=s:0;o:rum;s:2")])
    let fields : ParentFields := ⟨"CC".toList, 10, 11, 11, "-more".toList⟩
    let c : Extracted := ⟨.ofNat 10, .ofNat 11, some .userKeep, some "rum", ∅⟩
    (extract carrier).value = some c ∧ carrier.get? parentHeader = some header ∧
      IsParent (trim header.toList) fields ∧ StatesPriority carrier .userKeep ∧
        c.traceId.toNat = 10 ∧ c.parentSpanId.toNat = 11 ∧ c.priority = some .userKeep := by
  intro header carrier fields c
  have hread : (extract carrier).value = some c := by decide +kernel
  have hheader : carrier.get? parentHeader = some header := by decide +kernel
  have hfields : IsParent (trim header.toList) fields := by
    refine isParent_iff.mpr ⟨by decide +kernel, rfl, by decide, by decide⟩
  have hstates : StatesPriority carrier .userKeep := priority_extractState_iff.mp (by decide +kernel)
  obtain ⟨htrace, hspan, p, hp, -, hstated, -⟩ :=
    (trace_context_grammar carrier).2 c header fields hread hheader hfields
  rw [hstated .userKeep hstates (by decide)] at hp
  exact ⟨hread, hheader, hfields, hstates, htrace, hspan, hp⟩

/-- The forbidden version with one letter of each case: its number is 255, and the header is read. -/
theorem extract_mixed_version :
    let header := "fF-80f198ee56343ba864fe8b2a57d3eff7-00f067aa0ba902b7-01"
    let carrier : Carrier := .headers (.ofList [("traceparent", header)])
    (extract carrier).value.isSome = true ∧ ¬ ∃ version rest n,
      trim header.toList = version ++ '-' :: rest ∧ Hex.IsNumeral 2 version n ∧ n ≠ 255 := by
  intro header carrier
  refine ⟨by decide +kernel, ?_⟩
  rintro ⟨version, rest, n, hform, hnumeral, hne⟩
  have hversion : version = ['f', 'F'] := by
    have htake := congrArg (List.take 2) hform
    rw [List.take_left' hnumeral.length] at htake
    exact htake.symm.trans (by decide +kernel)
  have hread := (Hex.isNumeral_iff.mp hnumeral).2
  rw [hversion] at hread
  have hvalue : Hex.readNat ['f', 'F'] = some 255 := by decide
  exact hne (Option.some.inj (hread.symm.trans hvalue))

end Tracing.TraceContext
