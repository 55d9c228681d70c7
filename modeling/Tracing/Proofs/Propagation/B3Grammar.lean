import Tracing.Propagation.B3
import Tracing.Proofs.Ident
import Tracing.Proofs.Propagation.Tokens
import Tracing.Proofs.Text.Numerals

/-!
# What B3 headers mean

The grammar of both B3 formats, and that they are read by it: every carrier that fits is read, as the first of
its values that fit says, and no other is (`b3_grammar`). Only the ids are required of the single header and
only the trace id of the several ones; each other field is read by itself (`B3Multi.Means`,
`B3Single.MeansToken`).
-/

namespace Tracing

open Text

variable {carrier : Carrier} {text : List Char} {c : Extracted}

/-! ### Fields -/

/-- The sampling states and the priorities they stand for. -/
inductive IsSampled : List Char → Priority → Prop
  | one : IsSampled ['1'] .autoKeep
  | yes : IsSampled "true".toList .autoKeep
  | zero : IsSampled ['0'] .autoReject
  | no : IsSampled "false".toList .autoReject
  | debug : IsSampled ['d'] .userKeep

theorem readSampled_eq_some_iff {p : Priority} : readSampled text = some p ↔ IsSampled text p := by
  constructor
  · intro h
    unfold readSampled at h
    split at h
    · next hkeep =>
      cases h
      rcases hkeep with rfl | rfl
      · exact .one
      · exact .yes
    · split at h
      · next hreject =>
        cases h
        rcases hreject with rfl | rfl
        · exact .zero
        · exact .no
      · split at h
        · next hdebug =>
          cases h
          rw [hdebug]
          exact .debug
        · cases h
  · intro h
    cases h <;> decide

theorem IsSampled.ne_userReject {p : Priority} (h : IsSampled text p) : p ≠ .userReject := by
  cases h <;> decide

/-! ### Several headers -/

namespace B3Multi

/-- What several headers say. The debug flag wins over the sampling state. -/
structure Means (carrier : Carrier) (c : Extracted) : Prop where
  traceId : FirstMeaning TraceId.IsHex (tokens (carrier.get? traceIdHeader)) (some c.traceId)
  parent : ∃ parent, FirstMeaning SpanId.IsHex (tokens (carrier.get? spanIdHeader)) parent ∧
    c.parentSpanId = parent.getD .zero
  debug : ['1'] ∈ tokens (carrier.get? flagsHeader) → c.priority = some .userKeep
  sampled : ['1'] ∉ tokens (carrier.get? flagsHeader) →
    FirstMeaning IsSampled (tokens (carrier.get? sampledHeader)) c.priority
  origin : c.origin = none
  tags : c.tags = ∅

theorem readHeader_eq_iff {α : Type} {Is : List Char → α → Prop} {read : List Char → Option α}
    (h : ∀ text a, read text = some a ↔ Is text a) (name : String) {found : Option α} :
    readHeader carrier name read = found ↔ FirstMeaning Is (tokens (carrier.get? name)) found := by
  unfold readHeader
  rw [bind_firstValid, firstMeaning_iff fun text _ a => h text a]

theorem isSome_debugFlag_iff : (readHeader carrier flagsHeader readDebugFlag).isSome = true ↔
    ['1'] ∈ tokens (carrier.get? flagsHeader) := by
  unfold readHeader readDebugFlag
  rw [bind_firstValid, List.findSome?_isSome_iff]
  simp

theorem readPriority_eq_iff {priority : Option Priority} : readPriority carrier = priority ↔
    (['1'] ∈ tokens (carrier.get? flagsHeader) → priority = some .userKeep) ∧
      (['1'] ∉ tokens (carrier.get? flagsHeader) →
        FirstMeaning IsSampled (tokens (carrier.get? sampledHeader)) priority) := by
  unfold readPriority
  by_cases hflag : ['1'] ∈ tokens (carrier.get? flagsHeader)
  · rw [if_pos (isSome_debugFlag_iff.mpr hflag)]
    exact ⟨fun h => ⟨fun _ => h.symm, fun hno => absurd hflag hno⟩, fun h => (h.1 hflag).symm⟩
  · rw [if_neg fun h => hflag (isSome_debugFlag_iff.mp h),
      readHeader_eq_iff fun text p => readSampled_eq_some_iff]
    exact ⟨fun h => ⟨fun hyes => absurd hyes hflag, fun _ => h⟩, fun h => h.2 hflag⟩

theorem isSome_extract : (extract carrier).value.isSome =
    (readHeader carrier traceIdHeader TraceId.ofHex?).isSome := by
  unfold extract
  cases readHeader carrier traceIdHeader TraceId.ofHex? with
  | none => rfl
  | some traceId => rfl

/-- **Several headers are read by their grammar.** -/
theorem extract_eq_some_iff : (extract carrier).value = some c ↔ Means carrier c := by
  have htrace (found) : readHeader carrier traceIdHeader TraceId.ofHex? = found ↔
      FirstMeaning TraceId.IsHex (tokens (carrier.get? traceIdHeader)) found :=
    readHeader_eq_iff (fun text t => TraceId.ofHex?_eq_some_iff) traceIdHeader
  have hparent (found) : readHeader carrier spanIdHeader SpanId.ofHex? = found ↔
      FirstMeaning SpanId.IsHex (tokens (carrier.get? spanIdHeader)) found :=
    readHeader_eq_iff (fun text s => SpanId.ofHex?_eq_some_iff) spanIdHeader
  constructor
  · intro h
    unfold extract at h
    split at h
    · cases h
    · next traceId hid =>
      cases h
      obtain ⟨hdebug, hsampled⟩ := readPriority_eq_iff.mp (Eq.refl (readPriority carrier))
      exact ⟨(htrace _).mp hid, ⟨_, (hparent _).mp rfl, rfl⟩, hdebug, hsampled, rfl, rfl⟩
  · rintro ⟨hid, ⟨parent, hparentId, hspan⟩, hdebug, hsampled, horigin, htags⟩
    obtain ⟨traceId, span, priority, origin, tags⟩ := c
    dsimp only at hid hspan hdebug hsampled horigin htags
    unfold extract
    rw [(htrace _).mpr hid, (hparent _).mpr hparentId, readPriority_eq_iff.mpr ⟨hdebug, hsampled⟩, hspan, horigin,
      htags]
    rfl

theorem Means.priority_ne (h : Means carrier c) : c.priority ≠ some .userReject := by
  intro hreject
  by_cases hflag : ['1'] ∈ tokens (carrier.get? flagsHeader)
  · rw [h.debug hflag] at hreject
    cases hreject
  · have hsampled := h.sampled hflag
    rw [hreject] at hsampled
    obtain ⟨text, -, hmeans⟩ := hsampled
    exact hmeans.ne_userReject rfl

end B3Multi

/-! ### One header -/

namespace B3Single

/-- What a value of the single header says: what stands in front of the first two dashes are ids, and only
what stands in front of the third is a sampling state. -/
def Means (text : List Char) (c : Extracted) : Prop :=
  ∃ trace span rest, splitOn '-' text = trace :: span :: rest ∧ TraceId.IsHex trace c.traceId ∧
    SpanId.IsHex span c.parentSpanId ∧ FirstMeaning IsSampled (rest.take 1) c.priority ∧
    c.origin = none ∧ c.tags = ∅

theorem head?_bind_readSampled_eq_iff {rest : List (List Char)} {priority : Option Priority} :
    rest.head?.bind readSampled = priority ↔ FirstMeaning IsSampled (rest.take 1) priority := by
  rw [firstMeaning_iff fun text _ p => readSampled_eq_some_iff]
  cases rest <;> simp

/-- **A value of the single header is read by its grammar.** -/
theorem read_eq_some_iff : read text = some c ↔ Means text c := by
  constructor
  · intro h
    unfold read at h
    split at h
    · next trace span rest hsplit =>
      simp only [Option.bind_eq_bind, Option.bind_eq_some_iff, Option.pure_def, Option.some.injEq] at h
      obtain ⟨traceId, htrace, parent, hspan, rfl⟩ := h
      exact ⟨trace, span, rest, hsplit, TraceId.ofHex?_eq_some_iff.mp htrace, SpanId.ofHex?_eq_some_iff.mp hspan,
        head?_bind_readSampled_eq_iff.mp rfl, rfl, rfl⟩
    · cases h
  · rintro ⟨trace, span, rest, hsplit, htrace, hspan, hpriority, horigin, htags⟩
    obtain ⟨traceId, parent, priority, origin, tags⟩ := c
    dsimp only at htrace hspan hpriority horigin htags
    unfold read
    rw [hsplit]
    simp only [TraceId.ofHex?_eq_some_iff.mpr htrace, SpanId.ofHex?_eq_some_iff.mpr hspan,
      head?_bind_readSampled_eq_iff.mpr hpriority, horigin, htags]
    rfl

/-- Both ids make a value; what stands behind them does not matter. -/
theorem exists_means_iff : (∃ c, Means text c) ↔ ∃ trace span rest t s,
    splitOn '-' text = trace :: span :: rest ∧ TraceId.IsHex trace t ∧ SpanId.IsHex span s := by
  constructor
  · rintro ⟨c, trace, span, rest, hsplit, htrace, hspan, -⟩
    exact ⟨trace, span, rest, _, _, hsplit, htrace, hspan⟩
  · rintro ⟨trace, span, rest, t, s, hsplit, htrace, hspan⟩
    exact ⟨⟨t, s, rest.head?.bind readSampled, none, ∅⟩, trace, span, rest, hsplit, htrace, hspan,
      head?_bind_readSampled_eq_iff.mp rfl, rfl, rfl⟩

theorem value_extract : (extract carrier).value = (tokens (carrier.get? header)).findSome? read := by
  rw [← bind_firstValid]
  unfold extract
  cases carrier.get? header with
  | none => rfl
  | some value => cases hread : firstValid read value.toList <;> simp [hread]

/-- **The single header is read by the grammar of its values.** -/
theorem extract_eq_iff {found : Option Extracted} :
    (extract carrier).value = found ↔ FirstMeaning Means (tokens (carrier.get? header)) found := by
  rw [value_extract, firstMeaning_iff fun text _ c => read_eq_some_iff]

theorem Means.priority_ne (h : Means text c) : c.priority ≠ some .userReject := by
  obtain ⟨trace, span, rest, -, -, -, hpriority, -, -⟩ := h
  intro hreject
  rw [hreject] at hpriority
  obtain ⟨text, -, hmeans⟩ := hpriority
  exact hmeans.ne_userReject rfl

end B3Single

/-! ### Both formats -/

/-- **B3 headers are read by their grammar.** Of several headers, one value that is a trace id is all it takes;
of the single header, one value with both ids in front. The first such value counts, and every other field is
read by itself. What is read has a trace id, no user's reject, no origin and no tags. -/
theorem b3_grammar (carrier : Carrier) :
    ((B3Multi.extract carrier).value.isSome = true ↔
      ∃ text ∈ tokens (carrier.get? B3Multi.traceIdHeader), ∃ t, TraceId.IsHex text t) ∧
    (∀ c, (B3Multi.extract carrier).value = some c ↔ B3Multi.Means carrier c) ∧
    ((B3Single.extract carrier).value.isSome = true ↔
      ∃ text ∈ tokens (carrier.get? B3Single.header), ∃ trace span rest t s,
        splitOn '-' text = trace :: span :: rest ∧ TraceId.IsHex trace t ∧ SpanId.IsHex span s) ∧
    (∀ c, (B3Single.extract carrier).value = some c ↔
      FirstMeaning B3Single.Means (tokens (carrier.get? B3Single.header)) (some c)) ∧
    ∀ c, (B3Multi.extract carrier).value = some c ∨ (B3Single.extract carrier).value = some c →
      c.traceId.toNat ≠ 0 ∧ c.priority ≠ some .userReject ∧ c.origin = none ∧ c.tags = ∅ := by
  refine ⟨?_, fun c => B3Multi.extract_eq_some_iff, ?_, fun c => B3Single.extract_eq_iff, ?_⟩
  · rw [B3Multi.isSome_extract, readHeader, bind_firstValid]
    exact isSome_findSome?_iff fun text _ t => TraceId.ofHex?_eq_some_iff
  · rw [B3Single.value_extract, isSome_findSome?_iff fun text _ c => B3Single.read_eq_some_iff]
    simp only [B3Single.exists_means_iff]
  · rintro c (h | h)
    · have hmeans := B3Multi.extract_eq_some_iff.mp h
      obtain ⟨_, _, hid⟩ := hmeans.traceId
      exact ⟨hid.2, hmeans.priority_ne, hmeans.origin, hmeans.tags⟩
    · obtain ⟨text, _, hmeans⟩ := B3Single.extract_eq_iff.mp h
      have hpriority := hmeans.priority_ne
      obtain ⟨_, _, _, _, hid, _, _, horigin, htags⟩ := hmeans
      exact ⟨hid.2, hpriority, horigin, htags⟩

/-- Garbage around one usable trace id, no usable parent, and a debug flag behind another value. -/
theorem b3_grammar_garbage :
    let carrier : Carrier := .headers (.ofList [("x-b3-traceid", "zz, 0000000000000000 ,000000000000000A,7"),
      ("x-b3-spanid", "nope"), ("x-b3-flags", "0, 1"), ("x-b3-sampled", "0")])
    let c : Extracted := ⟨.ofNat 10, .zero, some .userKeep, none, ∅⟩
    (B3Multi.extract carrier).value = some c ∧ B3Multi.Means carrier c ∧
      c.traceId.toNat ≠ 0 ∧ c.priority ≠ some .userReject ∧ c.origin = none ∧ c.tags = ∅ := by
  intro carrier c
  have hread : (B3Multi.extract carrier).value = some c := by decide +kernel
  obtain ⟨-, hmulti, -, -, hboth⟩ := b3_grammar carrier
  exact ⟨hread, (hmulti c).mp hread, hboth c (.inl hread)⟩

end Tracing
