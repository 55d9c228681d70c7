import Tracing.Proofs.Ident
import Tracing.Proofs.Propagation.Headers

/-!
# B3 headers come back

Both B3 formats say the same about a context, and what they say is read back: the ids, and whether the trace is
sampled. They have no word for a user's reject (`Priority.throughB3`), nor for an origin or tags.

* `B3Multi.readPriority_setPriority`: of several headers, the debug flag wins over the sampling state, so that a
  priority is read back even behind one that was written before;
* `B3Single.splitOn_write`: the fields of the single header are told apart by their dashes;
* `b3_round_trip`: the two formats agree.
-/

namespace Tracing

open Text

variable {out : Outgoing} {carrier : Carrier}

/-- What B3 headers keep of a priority: a user's reject is read as an automatic one. -/
def Priority.throughB3 : Priority → Priority
  | userReject => autoReject
  | p => p

/-- What B3 headers say about a context. -/
def Outgoing.throughB3 (out : Outgoing) : Extracted :=
  ⟨out.traceId, out.spanId, out.priority.map Priority.throughB3, none, ∅⟩

theorem readHeader_of_plain {α : Type} {name : String} {text : List Char}
    (h : carrier.get? name = some (String.ofList text)) (hplain : isPlain text = true)
    (read : List Char → Option α) : readHeader carrier name read = read text := by
  unfold readHeader
  rw [h, Option.bind_some, String.toList_ofList, firstValid_plain read hplain]

theorem readHeader_of_none {α : Type} {name : String} (h : carrier.get? name = none)
    (read : List Char → Option α) : readHeader carrier name read = none := by
  unfold readHeader
  rw [h]
  rfl

theorem readSampled_flag (p : Priority) : readSampled [B3Single.flag p] = some p.throughB3 := by
  cases p <;> decide

theorem isPlain_flag (p : Priority) : isPlain [B3Single.flag p] = true ∧ '-' ∉ [B3Single.flag p] := by
  cases p <;> decide

/-! ### Several headers -/

namespace B3Multi

theorem lowercase_header : ∀ name ∈ [traceIdHeader, spanIdHeader, parentSpanIdHeader, sampledHeader, flagsHeader],
    lowercase name = name := by
  decide +kernel

theorem lowercase_sampled_ne_flags : lowercase sampledHeader ≠ lowercase flagsHeader := by
  decide +kernel

theorem setPriority_of_ne {p : Priority} (h : p ≠ .userKeep) (carrier : Carrier) :
    setPriority (some p) carrier = carrier.set sampledHeader (String.ofList [B3Single.flag p]) := by
  cases p with
  | userKeep => exact absurd rfl h
  | userReject | autoReject | autoKeep => rfl

/-- **The priority that was written last is read**, unless the debug flag or a sampling state is left over from
an earlier one that the new one does not replace. -/
theorem readPriority_setPriority (hopen : carrier.isOpen = true) {priority : Option Priority}
    (hflags : priority = some .userKeep ∨ carrier.get? flagsHeader = none)
    (hsampled : priority.isSome = true ∨ carrier.get? sampledHeader = none) :
    readPriority (setPriority priority carrier) = priority.map Priority.throughB3 := by
  cases priority with
  | none =>
    have hflags := hflags.resolve_left (by simp)
    have hsampled := hsampled.resolve_left (by simp)
    unfold setPriority readPriority
    rw [readHeader_of_none hflags, readHeader_of_none hsampled]
    rfl
  | some p =>
    by_cases hp : p = .userKeep
    · subst hp
      have hflag : (carrier.set flagsHeader "1").get? flagsHeader = some (String.ofList ['1']) := by
        rw [Carrier.get?_set hopen, if_pos rfl]
      unfold setPriority readPriority
      rw [readHeader_of_plain hflag (by decide)]
      rfl
    · have hflags := hflags.resolve_left fun heq => hp (Option.some.inj heq)
      rw [setPriority_of_ne hp]
      unfold readPriority
      rw [readHeader_of_none ((Carrier.get?_set_of_ne lowercase_sampled_ne_flags _).trans hflags),
        readHeader_of_plain ((Carrier.get?_set hopen _ _ _).trans (if_pos rfl)) (isPlain_flag p).1, readSampled_flag]
      rfl

theorem get?_setAll_idHeaders (hopen : carrier.isOpen = true) :
    (carrier.setAll (idHeaders out)).get? traceIdHeader = some (String.ofList out.traceId.toHex) ∧
      (carrier.setAll (idHeaders out)).get? spanIdHeader = some (String.ofList out.spanId.toHex) ∧
      (carrier.setAll (idHeaders out)).get? sampledHeader = carrier.get? sampledHeader ∧
      (carrier.setAll (idHeaders out)).get? flagsHeader = carrier.get? flagsHeader := by
  have hlower := lowercase_header
  simp only [List.forall_mem_cons] at hlower
  obtain ⟨htrace, hspan, hparent, hsampled, hflags, -⟩ := hlower
  have hbehind : ∀ name, name ≠ parentSpanIdHeader → lowercase name = name →
      (carrier.setAll (idHeaders out)).get? name =
        ((carrier.set traceIdHeader (String.ofList out.traceId.toHex)).set spanIdHeader
          (String.ofList out.spanId.toHex)).get? name := fun name hne hname => by
    unfold idHeaders
    rw [Carrier.setAll_append]
    refine Carrier.get?_setAll_of_not_written fun hwrites => hne ?_
    rw [← hname, ← (writes_headerIf.mp hwrites).2, hparent]
  refine ⟨?_, ?_, ?_, ?_⟩
  · rw [hbehind _ (by decide) htrace, Carrier.get?_set_of_ne (by rw [htrace, hspan]; decide),
      Carrier.get?_set hopen, if_pos rfl]
  · rw [hbehind _ (by decide) hspan, Carrier.get?_set ((Carrier.isOpen_set _ _ _).trans hopen), if_pos rfl]
  · rw [hbehind _ (by decide) hsampled, Carrier.get?_set_of_ne (by rw [hsampled, hspan]; decide),
      Carrier.get?_set_of_ne (by rw [hsampled, htrace]; decide)]
  · rw [hbehind _ (by decide) hflags, Carrier.get?_set_of_ne (by rw [hflags, hspan]; decide),
      Carrier.get?_set_of_ne (by rw [hflags, htrace]; decide)]

theorem get?_setPriority {name : String} (hname : name = traceIdHeader ∨ name = spanIdHeader)
    (priority : Option Priority) (carrier : Carrier) :
    (setPriority priority carrier).get? name = carrier.get? name := by
  have hne : ∀ name ∈ [traceIdHeader, spanIdHeader], ∀ later ∈ [sampledHeader, flagsHeader],
      lowercase later ≠ lowercase name := by
    decide +kernel
  have hmem : name ∈ [traceIdHeader, spanIdHeader] := by simpa using hname
  cases priority with
  | none => rfl
  | some p =>
    by_cases hp : p = .userKeep
    · subst hp
      exact Carrier.get?_set_of_ne (hne name hmem flagsHeader (by simp)) _
    · rw [setPriority_of_ne hp]
      exact Carrier.get?_set_of_ne (hne name hmem sampledHeader (by simp)) _

/-- **What was written last is read**, if what it leaves standing says nothing about the priority. -/
theorem extract_inject (htrace : out.traceId.isZero = false) (hspan : out.spanId.isZero = false)
    (hopen : carrier.isOpen = true) (hflags : out.priority = some .userKeep ∨ carrier.get? flagsHeader = none)
    (hsampled : out.priority.isSome = true ∨ carrier.get? sampledHeader = none) :
    (extract (inject out carrier).value).value = some out.throughB3 := by
  obtain ⟨hid, hparent, hstate, hflag⟩ := @get?_setAll_idHeaders out carrier hopen
  have hpriority : readPriority (inject out carrier).value = out.priority.map Priority.throughB3 := by
    rw [inject_value]
    exact readPriority_setPriority ((Carrier.isOpen_setAll _ _).trans hopen) (hflag ▸ hflags) (hstate ▸ hsampled)
  have htraceId : readHeader (inject out carrier).value traceIdHeader TraceId.ofHex? = some out.traceId := by
    rw [inject_value, readHeader_of_plain ((get?_setPriority (.inl rfl) _ _).trans hid) out.traceId.isPlain_toHex.1,
      TraceId.ofHex?_toHex htrace]
  have hspanId : readHeader (inject out carrier).value spanIdHeader SpanId.ofHex? = some out.spanId := by
    rw [inject_value, readHeader_of_plain ((get?_setPriority (.inr rfl) _ _).trans hparent)
      out.spanId.isPlain_toHex.1, SpanId.ofHex?_toHex hspan]
  unfold extract
  rw [htraceId, hspanId, hpriority]
  rfl

end B3Multi

/-! ### One header -/

namespace B3Single

/-- The fields of the header. -/
def fields (out : Outgoing) : List (List Char) :=
  out.traceId.toHex :: out.spanId.toHex ::
    (out.priority.map fun p => [flag p] :: (out.parentId.map SpanId.toHex).toList).getD []

theorem write_eq (out : Outgoing) : write out = joinWith ['-'] (fields out) := by
  unfold write fields
  cases out.priority with
  | none => simp [joinWith]
  | some p => cases out.parentId <;> simp [joinWith]

theorem isPlain_of_mem_fields {field : List Char} (h : field ∈ fields out) :
    isPlain field = true ∧ '-' ∉ field := by
  unfold fields at h
  rcases List.mem_cons.mp h with rfl | h
  · exact out.traceId.isPlain_toHex
  rcases List.mem_cons.mp h with rfl | h
  · exact out.spanId.isPlain_toHex
  cases hpriority : out.priority with
  | none => simp [hpriority] at h
  | some p =>
    rw [hpriority, Option.map_some, Option.getD_some] at h
    rcases List.mem_cons.mp h with rfl | h
    · exact isPlain_flag p
    · obtain ⟨parent, -, rfl⟩ := Option.map_eq_some_iff.mp (Option.mem_toList.mp h)
      exact parent.isPlain_toHex

/-- **The fields of the header are told apart by their dashes.** -/
theorem splitOn_write (out : Outgoing) : splitOn '-' (write out) = fields out := by
  rw [write_eq]
  exact splitOn_joinWith (List.cons_ne_nil _ _) fun field h => (isPlain_of_mem_fields h).2

theorem isPlain_write (out : Outgoing) : isPlain (write out) = true := by
  rw [write_eq, isPlain_iff]
  intro c hc
  rcases mem_joinWith hc with hc | ⟨field, hfield, hc⟩
  · rw [List.mem_singleton] at hc
    subst hc
    decide
  · exact (isPlain_iff field).mp (isPlain_of_mem_fields hfield).1 c hc

theorem read_write (htrace : out.traceId.isZero = false) (hspan : out.spanId.isZero = false) :
    read (write out) = some out.throughB3 := by
  unfold read
  rw [splitOn_write]
  unfold fields Outgoing.throughB3
  simp only [TraceId.ofHex?_toHex htrace, SpanId.ofHex?_toHex hspan]
  cases out.priority with
  | none => rfl
  | some p =>
    simp [readSampled_flag]

theorem extract_inject (htrace : out.traceId.isZero = false) (hspan : out.spanId.isZero = false)
    (hopen : carrier.isOpen = true) : (extract (inject out carrier).value).value = some out.throughB3 := by
  have hheader : (inject out carrier).value.get? header = some (String.ofList (write out)) :=
    (Carrier.get?_set hopen _ _ _).trans (if_pos rfl)
  unfold extract
  rw [hheader]
  simp only [String.toList_ofList]
  rw [firstValid_plain read (isPlain_write out), read_write htrace hspan]
  rfl

end B3Single

/-- **B3 headers come back, and both formats agree.** Any context with ids that are not zero is read from the
vacant carrier that it is written into: the ids, and the priority without a user's reject. The parent, the
origin and the tags leave no trace. -/
theorem b3_round_trip (htrace : out.traceId.isZero = false) (hspan : out.spanId.isZero = false)
    (h : carrier.Vacant) :
    (B3Multi.extract (B3Multi.inject out carrier).value).value =
        some ⟨out.traceId, out.spanId, out.priority.map Priority.throughB3, none, ∅⟩ ∧
      (B3Single.extract (B3Single.inject out carrier).value).value =
        some ⟨out.traceId, out.spanId, out.priority.map Priority.throughB3, none, ∅⟩ :=
  ⟨B3Multi.extract_inject htrace hspan h.isOpen (.inr (h.get?_eq_none _)) (.inr (h.get?_eq_none _)),
    B3Single.extract_inject htrace hspan h.isOpen⟩

/-- A wide trace id, a parent, and a user's reject. -/
theorem b3_round_trip_wide :
    let tags : Dict String := .ofList [("_dd.p.dm", "-4")]
    let out : Outgoing := ⟨.ofParts 5 7, .ofNat 9, some (.ofNat 11), some "rum", some .userReject, tags⟩
    out.traceId.isZero = false ∧ out.spanId.isZero = false ∧ Carrier.empty.Vacant ∧
      (B3Multi.extract (B3Multi.inject out .empty).value).value =
        some ⟨.ofParts 5 7, .ofNat 9, some .autoReject, none, ∅⟩ ∧
      (B3Single.extract (B3Single.inject out .empty).value).value =
        some ⟨.ofParts 5 7, .ofNat 9, some .autoReject, none, ∅⟩ := by
  intro tags out
  have htrace : out.traceId.isZero = false := by decide
  have hspan : out.spanId.isZero = false := by decide
  exact ⟨htrace, hspan, Carrier.vacant_empty, b3_round_trip htrace hspan Carrier.vacant_empty⟩

end Tracing
