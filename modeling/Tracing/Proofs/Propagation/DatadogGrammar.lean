import Tracing.Proofs.Dict
import Tracing.Proofs.Ident
import Tracing.Proofs.Propagation.DatadogExtract
import Tracing.Proofs.Propagation.Tokens
import Tracing.Proofs.Text.Numerals

/-!
# What Datadog headers mean

The grammar of the Datadog headers, field by field (`Means`), and that they are read by it: every carrier that
fits is read, as the grammar says, and no other is (`datadog_grammar`). One value that is a trace id is all it
takes; every other field is read by itself and absent if its header is faulty.

Zeros alone are no trace id. A plus sign in front of them hides them from this rule: the number is read, and the
lower half of the trace id is zero (`isTraceId_zero_iff`). In the same way a plus sign counts as one of the 16
digits of an upper half.
-/

namespace Tracing.Datadog

open Text

variable {carrier : Carrier} {text : List Char} {c : Extracted} {key : String} {n : Nat}

/-! ### Numbers -/

/-- A trace id: a decimal number of 64 bits that is not zeros alone. -/
def IsTraceId (text : List Char) (n : Nat) : Prop :=
  Integer.IsUnsigned text n ∧ n < 2 ^ 64 ∧ ∃ c ∈ text, c ≠ '0'

/-- A parent id: a decimal number of 64 bits. -/
def IsParentId (text : List Char) (n : Nat) : Prop := Integer.IsUnsigned text n ∧ n < 2 ^ 64

/-- A priority by its number. -/
def IsPriority (text : List Char) (p : Priority) : Prop := Integer.IsInteger text p.toInt

/-- The upper half of a trace id: 16 hexadecimal digits, or a plus sign and 15 of them. -/
def IsHigherBits (text : List Char) (n : Nat) : Prop :=
  Hex.IsNumeral 16 text n ∨ ∃ digits, text = '+' :: digits ∧ Hex.IsNumeral 15 digits n

theorem readTraceId_eq_some_iff : readTraceId text = some n ↔ IsTraceId text n := by
  have hzeros : (!text.isEmpty && text.all (· == '0')) = true ↔ text ≠ [] ∧ ∀ c ∈ text, c = '0' := by
    simp
  unfold readTraceId IsTraceId
  by_cases h : text ≠ [] ∧ ∀ c ∈ text, c = '0'
  · rw [if_pos (hzeros.mpr h)]
    constructor
    · intro hnone
      cases hnone
    · rintro ⟨-, -, c, hc, hne⟩
      exact absurd (h.2 c hc) hne
  · rw [if_neg fun hall => h (hzeros.mp hall), Integer.readBelow_eq_some_iff]
    constructor
    · rintro ⟨hunsigned, hlt⟩
      refine ⟨hunsigned, hlt, ?_⟩
      by_contra hno
      exact h ⟨hunsigned.ne_nil, by simpa using hno⟩
    · exact fun h => ⟨h.1, h.2.1⟩

theorem readParentId_eq_some_iff : Integer.readBelow (1 <<< 64) text = some n ↔ IsParentId text n :=
  Integer.readBelow_eq_some_iff

theorem readPriority_eq_some_iff {p : Priority} (htrim : trim text = text) :
    Priority.read? text = some p ↔ IsPriority text p := by
  unfold Priority.read? IsPriority
  rw [htrim, Option.bind_eq_some_iff]
  constructor
  · rintro ⟨z, hz, hp⟩
    rw [Priority.toInt_of_ofInt? hp]
    exact Integer.readInt_eq_some_iff.mp hz
  · exact fun h => ⟨p.toInt, Integer.readInt_eq_some_iff.mpr h, Priority.ofInt?_toInt p⟩

theorem readHigherBits_eq_some_iff : readHigherBits text = some n ↔ IsHigherBits text n := by
  unfold IsHigherBits
  by_cases hplus : ∃ digits, text = '+' :: digits
  · obtain ⟨digits, rfl⟩ := hplus
    have hread : readHigherBits ('+' :: digits) = if digits.length = 15 then Hex.readNat digits else none := by
      simp [readHigherBits]
    have hnot : ¬ Hex.IsNumeral 16 ('+' :: digits) n := fun h =>
      absurd (h.digits '+' List.mem_cons_self) (by decide)
    rw [hread, Hex.readNat_of_width_iff]
    constructor
    · exact fun h => .inr ⟨digits, rfl, h⟩
    · rintro (h | ⟨_, heq, h⟩)
      · exact absurd h hnot
      · cases heq
        exact h
  · have hread : readHigherBits text = if text.length = 16 then Hex.readNat text else none := by
      unfold readHigherBits
      split
      · split
        · exact absurd ⟨_, rfl⟩ hplus
        · rfl
      · rfl
    rw [hread, Hex.readNat_of_width_iff]
    exact ⟨.inl, fun h => h.resolve_right fun ⟨digits, heq, _⟩ => hplus ⟨digits, heq⟩⟩

/-- Zero is a trace id only behind a plus sign. -/
theorem isTraceId_zero_iff : IsTraceId text 0 ↔ ∃ zeros, text = '+' :: List.replicate (zeros + 1) '0' := by
  constructor
  · rintro ⟨hnumeral | ⟨digits, rfl, hnumeral⟩, -, c, hc, hne⟩
    · rw [hnumeral.eq_zero_iff.mp rfl] at hc
      exact absurd (List.eq_of_mem_replicate hc) hne
    · obtain ⟨zeros, hlength⟩ := Nat.exists_eq_succ_of_ne_zero (List.length_pos_of_ne_nil hnumeral.ne_nil).ne'
      exact ⟨zeros, by rw [← Nat.succ_eq_add_one, ← hlength, ← hnumeral.eq_zero_iff.mp rfl]⟩
  · rintro ⟨zeros, rfl⟩
    have hnumeral : Integer.IsNumeral (List.replicate (zeros + 1) '0') 0 := by
      refine ⟨List.cons_ne_nil _ _, fun c hc => ?_, by rw [Nat.ofDigitChars_replicate_zero, Nat.mul_zero]⟩
      rw [List.eq_of_mem_replicate hc]
      decide
    exact ⟨.inr ⟨_, rfl, hnumeral⟩, by decide, '+', List.mem_cons_self, by decide⟩

theorem IsHigherBits.lt (h : IsHigherBits text n) : n < 2 ^ 64 := by
  rcases h with h | ⟨digits, -, h⟩
  · exact h.lt
  · exact Nat.lt_of_lt_of_le h.lt (by decide)

/-! ### Tags -/

/-- The pairs of the tag header; none if the header is too long. -/
def tagTokens (carrier : Carrier) : List (List Char) :=
  tokens ((carrier.get? tagsHeader).filter fun text => text.utf8ByteSize ≤ maxTagsLength)

/-- A pair with a given key. -/
def IsPairOf (key : String) (text : List Char) (value : String) : Prop :=
  IsPair (key, value) ∧ text = pairText (key, value)

/-- The value that is kept under a key: that of the last pair with this key. -/
def Kept (carrier : Carrier) (key : String) : Option String → Prop :=
  FirstMeaning (IsPairOf key) (tagTokens carrier).reverse

/-- The value of a pair with a given key. -/
def readValue (key : String) (text : List Char) : Option String :=
  (readPair text).bind fun tag => if tag.1 = key then some tag.2 else none

/-- The tags of the tag header, before malformed ones are taken out. -/
def keptTags (carrier : Carrier) : Dict String :=
  match (carrier.get? tagsHeader).filter fun text => text.utf8ByteSize ≤ maxTagsLength with
  | none => ∅
  | some text => readTags text.toList

theorem readValue_eq_some_iff {value : String} (htrim : trim text = text) :
    readValue key text = some value ↔ IsPairOf key text value := by
  unfold readValue
  rw [Option.bind_eq_some_iff]
  constructor
  · rintro ⟨tag, hread, htag⟩
    split at htag
    · next hkey =>
      cases htag
      subst hkey
      obtain ⟨hpair, htext⟩ := of_readPair hread
      exact ⟨hpair, htrim.symm.trans htext.symm⟩
    · cases htag
  · rintro ⟨hpair, rfl⟩
    exact ⟨(key, value), readPair_pairText hpair, if_pos rfl⟩

theorem get?_readTags (key : String) (text : List Char) : (readTags text).get? key =
    ((splitOn ',' text).map trim).reverse.findSome? (readValue key) := by
  have htrim : readValue key ∘ trim = readValue key := by
    funext piece
    simp only [Function.comp, readValue, readPair, trim_trim]
  unfold readTags
  rw [Dict.get?_ofList, ← List.filterMap_reverse, Entries.get?_filterMap, ← List.map_reverse, List.findSome?_map, htrim]
  rfl

/-- **The last pair with a key is the one that is kept.** -/
theorem kept_iff {found : Option String} : Kept carrier key found ↔ (keptTags carrier).get? key = found := by
  have hread : (keptTags carrier).get? key = (tagTokens carrier).reverse.findSome? (readValue key) := by
    unfold keptTags tagTokens
    cases (carrier.get? tagsHeader).filter fun text => text.utf8ByteSize ≤ maxTagsLength with
    | none => rfl
    | some text => exact get?_readTags key text.toList
  rw [hread]
  exact firstMeaning_iff fun text htext value =>
    readValue_eq_some_iff (trim_of_mem_tokens (List.mem_reverse.mp htext))

theorem value_extractTags (carrier : Carrier) : (extractTags carrier).value =
    dropUnless decisionMakerTag isDecisionMaker
      (dropUnless higherBitsTag (fun tid => (readHigherBits tid).isSome) (keptTags carrier)) := by
  unfold keptTags
  cases hget : carrier.get? tagsHeader with
  | none =>
    unfold extractTags
    rw [hget]
    rfl
  | some text =>
    by_cases hsize : text.utf8ByteSize ≤ maxTagsLength
    · rw [extractTags_of_some hget hsize, Option.filter_some_pos (by simpa using hsize)]
    · unfold extractTags
      rw [hget, Option.filter_some_neg (by simpa using hsize)]
      simp only
      rw [if_pos (by omega)]
      rfl

/-- What is left of the tags: no upper half of a trace id, and no malformed decision maker. -/
theorem get?_erase_extractTags (key : String) : ((extractTags carrier).value.erase higherBitsTag).get? key =
    if key = higherBitsTag then none
    else if key = decisionMakerTag then ((keptTags carrier).get? key).filter fun dm => isDecisionMaker dm.toList
    else (keptTags carrier).get? key := by
  have hne : decisionMakerTag ≠ higherBitsTag := by decide
  rw [Dict.get?_erase, value_extractTags, get?_dropUnless, get?_dropUnless, get?_dropUnless, if_neg hne]
  by_cases hhigher : key = higherBitsTag
  · rw [if_pos hhigher.symm, if_pos hhigher]
  · rw [if_neg (Ne.symm hhigher), if_neg hhigher, if_neg hhigher]
    split
    · next hdm => rw [hdm]
    · rfl

theorem get?_erase_extractTags_iff {value : String} :
    ((extractTags carrier).value.erase higherBitsTag).get? key = some value ↔
      key ≠ higherBitsTag ∧ Kept carrier key (some value) ∧
        (key = decisionMakerTag → ∃ digit, value.toList = ['-', digit] ∧ digit.isDigit = true) := by
  rw [get?_erase_extractTags, kept_iff, ← isDecisionMaker_iff]
  by_cases hhigher : key = higherBitsTag
  · simp [hhigher]
  · by_cases hdm : key = decisionMakerTag
    · simp [hdm, Option.filter_eq_some_iff]
    · simp [hhigher, hdm]

theorem higherBits_eq (carrier : Carrier) : higherBits (extractTags carrier).value =
    (((keptTags carrier).get? higherBitsTag).bind fun tid => readHigherBits tid.toList).getD 0 := by
  have hne : higherBitsTag ≠ decisionMakerTag := by decide
  unfold higherBits
  rw [value_extractTags, get?_dropUnless, if_neg hne, get?_dropUnless, if_pos rfl]
  cases (keptTags carrier).get? higherBitsTag with
  | none => rfl
  | some tid => cases htid : readHigherBits tid.toList <;> simp [Option.filter, htid]

/-- The upper half of the trace id is that of the kept tag if it is well-formed, else zero. -/
theorem higherBits_extractTags_iff : higherBits (extractTags carrier).value = n ↔
    (∃ tid, Kept carrier higherBitsTag (some tid) ∧ IsHigherBits tid.toList n) ∨
      (∀ tid, Kept carrier higherBitsTag (some tid) → ∀ m, ¬ IsHigherBits tid.toList m) ∧ n = 0 := by
  simp only [higherBits_eq, kept_iff, ← readHigherBits_eq_some_iff]
  cases (keptTags carrier).get? higherBitsTag with
  | none => simp [eq_comm]
  | some tid => cases htid : readHigherBits tid.toList <;> simp [htid, eq_comm]

/-! ### Contexts -/

/-- What Datadog headers say. -/
structure Means (carrier : Carrier) (c : Extracted) : Prop where
  lower : FirstMeaning IsTraceId (tokens (carrier.get? traceIdHeader)) (some c.traceId.lower.toNat)
  higher : (∃ tid, Kept carrier higherBitsTag (some tid) ∧ IsHigherBits tid.toList c.traceId.higher.toNat) ∨
    (∀ tid, Kept carrier higherBitsTag (some tid) → ∀ n, ¬ IsHigherBits tid.toList n) ∧
      c.traceId.higher.toNat = 0
  parent : ∃ parent, FirstMeaning IsParentId (tokens (carrier.get? parentIdHeader)) parent ∧
    c.parentSpanId.toNat = parent.getD 0
  priority : FirstMeaning IsPriority (tokens (carrier.get? priorityHeader)) c.priority
  origin : ∀ origin, c.origin = some origin ↔
    origin ≠ "" ∧ ∃ value, carrier.get? originHeader = some value ∧ origin.toList = trim value.toList
  tags : ∀ key value, c.tags.get? key = some value ↔
    key ≠ higherBitsTag ∧ Kept carrier key (some value) ∧
      (key = decisionMakerTag → ∃ digit, value.toList = ['-', digit] ∧ digit.isDigit = true)

theorem extractParentId_eq_iff {parent : Option Nat} : extractParentId carrier = parent ↔
    FirstMeaning IsParentId (tokens (carrier.get? parentIdHeader)) parent := by
  unfold extractParentId
  rw [bind_firstValid, firstMeaning_iff fun text _ n => readParentId_eq_some_iff]

theorem value_extractPriority_eq_iff {priority : Option Priority} : (extractPriority carrier).value = priority ↔
    FirstMeaning IsPriority (tokens (carrier.get? priorityHeader)) priority := by
  have hread : (extractPriority carrier).value =
      (tokens (carrier.get? priorityHeader)).findSome? Priority.read? := by
    rw [← bind_firstValid]
    unfold extractPriority
    cases carrier.get? priorityHeader with
    | none => rfl
    | some value => cases hfirst : firstValid Priority.read? value.toList <;> simp [hfirst]
  rw [hread, firstMeaning_iff fun text htext p => readPriority_eq_some_iff (trim_of_mem_tokens htext)]

theorem extractOrigin_eq_some_iff {origin : String} : extractOrigin carrier = some origin ↔
    origin ≠ "" ∧ ∃ value, carrier.get? originHeader = some value ∧ origin.toList = trim value.toList := by
  have hne : origin ≠ "" ↔ origin.toList ≠ [] := by simp
  unfold extractOrigin
  rw [Option.bind_eq_some_iff, hne]
  constructor
  · rintro ⟨value, hvalue, horigin⟩
    simp only at horigin
    split at horigin
    · cases horigin
    · next hempty =>
      cases horigin
      rw [String.toList_ofList]
      exact ⟨by simpa using hempty, value, hvalue, rfl⟩
  · rintro ⟨hempty, value, hvalue, htrim⟩
    refine ⟨value, hvalue, ?_⟩
    simp only [← htrim]
    rw [if_neg (by simpa using hempty), String.ofList_toList]

theorem value_extract (carrier : Carrier) : (extract carrier).value =
    ((tokens (carrier.get? traceIdHeader)).findSome? readTraceId).map fun lower =>
      ⟨.ofParts (BitVec.ofNat 64 (higherBits (extractTags carrier).value)) (BitVec.ofNat 64 lower),
        .ofNat ((extractParentId carrier).getD 0), (extractPriority carrier).value, extractOrigin carrier,
        (extractTags carrier).value.erase higherBitsTag⟩ := by
  rw [← bind_firstValid]
  unfold extract extractTraceId
  cases carrier.get? traceIdHeader with
  | none => rfl
  | some value => cases hfirst : firstValid readTraceId value.toList <;> simp [hfirst]

theorem firstMeaning_isTraceId_iff {lower : Option Nat} :
    (tokens (carrier.get? traceIdHeader)).findSome? readTraceId = lower ↔
      FirstMeaning IsTraceId (tokens (carrier.get? traceIdHeader)) lower :=
  (firstMeaning_iff fun _ _ _ => readTraceId_eq_some_iff).symm

theorem higherBits_extractTags_lt (carrier : Carrier) : higherBits (extractTags carrier).value < 2 ^ 64 := by
  rcases higherBits_extractTags_iff.mp (Eq.refl (higherBits (extractTags carrier).value)) with
    ⟨tid, -, htid⟩ | ⟨-, hzero⟩
  · exact htid.lt
  · rw [hzero]
    decide

theorem extractParentId_lt (carrier : Carrier) : (extractParentId carrier).getD 0 < 2 ^ 64 := by
  cases hparent : extractParentId carrier with
  | none => decide
  | some parent =>
    obtain ⟨_, _, hmeans⟩ := extractParentId_eq_iff.mp hparent
    exact hmeans.2

theorem means_of_extract (h : (extract carrier).value = some c) : Means carrier c := by
  rw [value_extract, Option.map_eq_some_iff] at h
  obtain ⟨lower, hlower, rfl⟩ := h
  have hmeaning := firstMeaning_isTraceId_iff.mp hlower
  have hlt : lower < 2 ^ 64 := by
    obtain ⟨_, _, hid⟩ := hmeaning
    exact hid.2.1
  refine ⟨?_, ?_, ⟨_, extractParentId_eq_iff.mp rfl, SpanId.toNat_ofNat (extractParentId_lt carrier)⟩,
    value_extractPriority_eq_iff.mp rfl, fun origin => extractOrigin_eq_some_iff,
    fun key value => get?_erase_extractTags_iff⟩
  · rw [TraceId.lower_ofParts, BitVec.toNat_ofNat, Nat.mod_eq_of_lt hlt]
    exact hmeaning
  · rw [TraceId.higher_ofParts, BitVec.toNat_ofNat, Nat.mod_eq_of_lt (higherBits_extractTags_lt carrier)]
    exact higherBits_extractTags_iff.mp rfl

/-- **Datadog headers are read by their grammar.** -/
theorem extract_eq_some_iff : (extract carrier).value = some c ↔ Means carrier c := by
  refine ⟨means_of_extract, fun h => ?_⟩
  obtain ⟨traceId, parentSpanId, priority, origin, tags⟩ := c
  obtain ⟨hlower, hhigher, ⟨parent, hparent, hspan⟩, hpriority, horigin, htags⟩ := h
  dsimp only at hlower hhigher hspan hpriority horigin htags
  have hid : TraceId.ofParts (BitVec.ofNat 64 traceId.higher.toNat) (BitVec.ofNat 64 traceId.lower.toNat) =
      traceId := by
    simp [TraceId.ofParts_higher_lower]
  have horigins : extractOrigin carrier = origin :=
    Option.ext fun o => extractOrigin_eq_some_iff.trans (horigin o).symm
  have hdict : (extractTags carrier).value.erase higherBitsTag = tags :=
    Dict.ext_get? fun key => Option.ext fun value => get?_erase_extractTags_iff.trans (htags key value).symm
  rw [value_extract, firstMeaning_isTraceId_iff.mpr hlower, Option.map_some, higherBits_extractTags_iff.mpr hhigher,
    hid, extractParentId_eq_iff.mpr hparent, ← hspan, SpanId.ofNat_toNat, value_extractPriority_eq_iff.mpr hpriority,
    horigins, hdict]

theorem Means.get?_higherBitsTag (h : Means carrier c) : c.tags.get? higherBitsTag = none := by
  rw [Option.eq_none_iff_forall_ne_some]
  exact fun value hvalue => ((h.tags _ _).mp hvalue).1 rfl

/-- The lower half is zero if and only if the first trace id is a plus sign and zeros. -/
theorem Means.lower_eq_zero_iff (h : Means carrier c) : c.traceId.lower = 0 ↔
    ∃ zeros, IsFirst (fun text => ∃ n, IsTraceId text n) (tokens (carrier.get? traceIdHeader))
      ('+' :: List.replicate (zeros + 1) '0') := by
  constructor
  · intro hzero
    obtain ⟨text, hfirst, hid⟩ := h.lower
    rw [hzero] at hid
    obtain ⟨zeros, rfl⟩ := isTraceId_zero_iff.mp hid
    exact ⟨zeros, hfirst⟩
  · rintro ⟨zeros, hfirst⟩
    have hzero : FirstMeaning IsTraceId (tokens (carrier.get? traceIdHeader)) (some 0) :=
      ⟨_, hfirst, isTraceId_zero_iff.mpr ⟨zeros, rfl⟩⟩
    have hsame := (firstMeaning_isTraceId_iff.mpr h.lower).symm.trans (firstMeaning_isTraceId_iff.mpr hzero)
    exact BitVec.eq_of_toNat_eq (Option.some.inj hsame)

/-- **What Datadog headers it takes.** One value that is a trace id is enough, whatever stands in the other
headers. What is read is what the headers say; the lower half of the trace id is zero if and only if the first
such value is a plus sign and zeros. -/
theorem datadog_grammar (carrier : Carrier) :
    ((extract carrier).value.isSome = true ↔
      ∃ text ∈ tokens (carrier.get? traceIdHeader), ∃ n, IsTraceId text n) ∧
    (∀ c, (extract carrier).value = some c ↔ Means carrier c) ∧
    ∀ c, (extract carrier).value = some c → c.tags.get? higherBitsTag = none ∧
      (c.traceId.lower = 0 ↔ ∃ zeros, IsFirst (fun text => ∃ n, IsTraceId text n)
        (tokens (carrier.get? traceIdHeader)) ('+' :: List.replicate (zeros + 1) '0')) := by
  refine ⟨?_, fun c => extract_eq_some_iff, fun c h => ?_⟩
  · rw [value_extract, Option.isSome_map]
    exact isSome_findSome?_iff fun text _ n => readTraceId_eq_some_iff
  · have hmeans := means_of_extract h
    exact ⟨hmeans.get?_higherBitsTag, hmeans.lower_eq_zero_iff⟩

/-- Garbage and zero in front of a trace id, two upper halves, and faulty other fields. -/
theorem datadog_grammar_garbage :
    let carrier : Carrier := .headers (.ofList [("x-datadog-trace-id", "zz, 0, 42, 43"),
      ("x-datadog-parent-id", "-1"), ("x-datadog-sampling-priority", "3, 2"), ("x-datadog-origin", "  "),
      ("x-datadog-tags", "_dd.p.tid=000000000000000a,_dd.p.dm=4,team=web,_dd.p.usr=a=b,_dd.p.tid=000000000000000B")])
    let c : Extracted := ⟨.ofParts 11 42, .zero, some .userKeep, none, .ofList [("_dd.p.usr", "a=b")]⟩
    (extract carrier).value = some c ∧ Means carrier c ∧ c.tags.get? higherBitsTag = none := by
  intro carrier c
  have hread : (extract carrier).value = some c := by decide +kernel
  obtain ⟨-, hmeans, htags⟩ := datadog_grammar carrier
  exact ⟨hread, (hmeans c).mp hread, (htags c hread).1⟩

/-- A plus sign hides zeros: a context without any number other than zero. And it counts as a digit: an upper
half of 15 digits. -/
theorem extract_plus_sign :
    let carrier : Carrier := .headers (.ofList [("x-datadog-trace-id", "+0")])
    let tagged : Carrier := .headers (.ofList [("x-datadog-trace-id", "1"),
      ("x-datadog-tags", "_dd.p.tid=+00000000000000a")])
    ((extract carrier).value.isSome = true ∧
      ¬ ∃ text ∈ tokens (carrier.get? traceIdHeader), ∃ n, Integer.IsUnsigned text n ∧ n < 2 ^ 64 ∧ n ≠ 0) ∧
    (extract tagged).value = some ⟨.ofParts 10 1, .zero, none, none, ∅⟩ ∧
      Kept tagged higherBitsTag (some "+00000000000000a") ∧ ¬ ∃ n, Hex.IsNumeral 16 "+00000000000000a".toList n := by
  intro carrier tagged
  refine ⟨⟨by decide +kernel, ?_⟩, by decide +kernel, kept_iff.mpr (by decide +kernel), ?_⟩
  · rintro ⟨text, htext, n, hunsigned, hlt, hne⟩
    have htokens : tokens (carrier.get? traceIdHeader) = ["+0".toList] := by decide +kernel
    rw [htokens, List.mem_singleton] at htext
    have hread : Integer.readBelow (2 ^ 64) text = some n := Integer.readBelow_eq_some_iff.mpr ⟨hunsigned, hlt⟩
    have hzero : Integer.readBelow (2 ^ 64) "+0".toList = some 0 := by decide +kernel
    rw [htext, hzero] at hread
    exact hne (Option.some.inj hread).symm
  · rintro ⟨n, hnumeral⟩
    exact absurd (hnumeral.digits '+' (by decide)) (by decide)

end Tracing.Datadog
