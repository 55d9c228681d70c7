import Tracing.Proofs.Propagation.DatadogRoundTrip
import Tracing.Propagation.Composite

/-!
# The headers of a style

Every style reads a fixed set of headers (`Style.headers`): carriers that agree on them are read alike, down to
the events that are logged (`Style.extract_congr`). It writes a list of headers that depends on the context
alone (`Style.written`), one after the other (`Style.inject_value`); so what a carrier held before matters only
under names that are not written (`Carrier.get?_setAll_of_written`, `Carrier.get?_setAll_of_not_written`).
-/

namespace Tracing

open Text

variable {carrier other : Carrier}

/-! ### What is read -/

/-- The headers that a style reads. That of the parent span is written, but nobody reads it. -/
def Style.headers : Style → List String
  | datadog => [Datadog.traceIdHeader, Datadog.parentIdHeader, Datadog.priorityHeader, Datadog.originHeader,
      Datadog.tagsHeader]
  | traceContext => [TraceContext.parentHeader, TraceContext.stateHeader]
  | b3multi => [B3Multi.traceIdHeader, B3Multi.spanIdHeader, B3Multi.sampledHeader, B3Multi.flagsHeader]
  | b3 => [B3Single.header]
  | none => []

/-- Two carriers hold the same headers under some names. -/
def Carrier.AgreeOn (names : List String) (carrier other : Carrier) : Prop :=
  ∀ name ∈ names, carrier.get? name = other.get? name

instance (names : List String) (carrier other : Carrier) : Decidable (carrier.AgreeOn names other) :=
  inferInstanceAs (Decidable (∀ name ∈ names, carrier.get? name = other.get? name))

theorem Datadog.extract_congr (h : carrier.AgreeOn Style.datadog.headers other) :
    extract carrier = extract other := by
  simp only [Carrier.AgreeOn, Style.headers, List.forall_mem_cons] at h
  obtain ⟨htrace, hparent, hpriority, horigin, htags, -⟩ := h
  unfold extract extractTraceId extractParentId extractPriority extractTags extractOrigin
  rw [htrace, hparent, hpriority, horigin, htags]

theorem TraceContext.extract_congr (h : carrier.AgreeOn Style.traceContext.headers other) :
    extract carrier = extract other := by
  simp only [Carrier.AgreeOn, Style.headers, List.forall_mem_cons] at h
  obtain ⟨hparent, hstate, -⟩ := h
  unfold extract extractState
  rw [hparent, hstate]

/-- Of the two headers for the priority only the outcome matters. -/
theorem B3Multi.extract_congr (htrace : carrier.get? traceIdHeader = other.get? traceIdHeader)
    (hspan : carrier.get? spanIdHeader = other.get? spanIdHeader)
    (hpriority : readPriority carrier = readPriority other) : extract carrier = extract other := by
  unfold extract readHeader
  rw [htrace, hspan, hpriority]

theorem B3Multi.readPriority_congr (hsampled : carrier.get? sampledHeader = other.get? sampledHeader)
    (hflags : carrier.get? flagsHeader = other.get? flagsHeader) : readPriority carrier = readPriority other := by
  unfold readPriority readHeader
  rw [hsampled, hflags]

/-- **A style reads its own headers and no other**, whether it succeeds or fails. -/
theorem Style.extract_congr {style : Style} (h : carrier.AgreeOn style.headers other) :
    style.extract carrier = style.extract other := by
  cases style with
  | datadog => exact Datadog.extract_congr h
  | traceContext => exact TraceContext.extract_congr h
  | b3multi =>
    simp only [Carrier.AgreeOn, headers, List.forall_mem_cons] at h
    obtain ⟨htrace, hspan, hsampled, hflags, -⟩ := h
    exact B3Multi.extract_congr htrace hspan (B3Multi.readPriority_congr hsampled hflags)
  | b3 =>
    have hheader := h B3Single.header (List.mem_singleton_self _)
    unfold extract B3Single.extract
    rw [hheader]
  | none => rfl

theorem Style.lowercase_header (style : Style) : ∀ name ∈ style.headers, lowercase name = name := by
  cases style <;> decide +kernel

/-! ### What is written -/

namespace Carrier

/-- Stores headers one after the other. -/
def setAll (carrier : Carrier) (headers : List (String × String)) : Carrier :=
  headers.foldl (fun carrier header => carrier.set header.1 header.2) carrier

/-- One of the headers is stored under a name. -/
def Writes (headers : List (String × String)) (name : String) : Prop :=
  ∃ header ∈ headers, lowercase header.1 = lowercase name

instance (headers : List (String × String)) (name : String) : Decidable (Writes headers name) :=
  inferInstanceAs (Decidable (∃ header ∈ headers, lowercase header.1 = lowercase name))

theorem writes_nil (name : String) : ¬ Writes [] name := fun ⟨_, h, _⟩ => List.not_mem_nil h

theorem writes_cons {header : String × String} {headers : List (String × String)} {name : String} :
    Writes (header :: headers) name ↔ lowercase header.1 = lowercase name ∨ Writes headers name := by
  unfold Writes
  simp only [List.mem_cons, or_and_right, exists_or, exists_eq_left]

theorem writes_append {headers later : List (String × String)} {name : String} :
    Writes (headers ++ later) name ↔ Writes headers name ∨ Writes later name := by
  unfold Writes
  simp only [List.mem_append, or_and_right, exists_or]

@[simp] theorem isOpen_setAll (carrier : Carrier) (headers : List (String × String)) :
    (carrier.setAll headers).isOpen = carrier.isOpen := by
  induction headers generalizing carrier with
  | nil => rfl
  | cons header rest ih => exact (ih (carrier.set header.1 header.2)).trans (isOpen_set carrier _ _)

theorem setAll_append (carrier : Carrier) (headers later : List (String × String)) :
    carrier.setAll (headers ++ later) = (carrier.setAll headers).setAll later := by
  unfold setAll
  rw [List.foldl_append]

theorem set_of_not_isOpen (h : carrier.isOpen = false) (name value : String) :
    carrier.set name value = carrier := by
  cases carrier with
  | headers => cases h
  | document json =>
    cases json with
    | obj => cases h
    | null | bool | int | float | str | arr => rfl

theorem get?_set_of_ne {name name' : String} (h : lowercase name ≠ lowercase name') (value : String) :
    (carrier.set name value).get? name' = carrier.get? name' := by
  cases hopen : carrier.isOpen with
  | true => rw [get?_set hopen, if_neg h]
  | false => rw [set_of_not_isOpen hopen]

theorem get?_setAll_of_not_written {headers : List (String × String)} {name : String}
    (h : ¬ Writes headers name) : (carrier.setAll headers).get? name = carrier.get? name := by
  induction headers generalizing carrier with
  | nil => rfl
  | cons header rest ih =>
    have hhead : lowercase header.1 ≠ lowercase name := fun heq => h ⟨header, List.mem_cons_self, heq⟩
    have hrest : ¬ Writes rest name := fun ⟨later, hlater, heq⟩ => h ⟨later, List.mem_cons_of_mem _ hlater, heq⟩
    exact (ih hrest).trans (get?_set_of_ne hhead header.2)

/-- **What is written does not depend on what was there.** -/
theorem get?_setAll_of_written {headers : List (String × String)} {name : String} (hopen : carrier.isOpen = true)
    (hother : other.isOpen = true) (h : Writes headers name) :
    (carrier.setAll headers).get? name = (other.setAll headers).get? name := by
  induction headers generalizing carrier other with
  | nil =>
    obtain ⟨header, hheader, -⟩ := h
    cases hheader
  | cons header rest ih =>
    by_cases hrest : Writes rest name
    · exact ih ((isOpen_set carrier _ _).trans hopen) ((isOpen_set other _ _).trans hother) hrest
    · -- the last header under the name is the first of the list
      have hname : lowercase header.1 = lowercase name := by
        obtain ⟨found, hfound, heq⟩ := h
        rcases List.mem_cons.mp hfound with rfl | hfound
        · exact heq
        · exact absurd ⟨found, hfound, heq⟩ hrest
      have hvalue : ∀ {c : Carrier}, c.isOpen = true →
          (c.setAll (header :: rest)).get? name = some header.2 := fun {c} hc =>
        calc (c.setAll (header :: rest)).get? name
          _ = (c.set header.1 header.2).get? name := get?_setAll_of_not_written hrest
          _ = some header.2 := by rw [get?_set hc, if_pos hname]
      rw [hvalue hopen, hvalue hother]

theorem get?_setAll_congr (hopen : carrier.isOpen = true) (hother : other.isOpen = true) {name : String}
    (h : carrier.get? name = other.get? name) (headers : List (String × String)) :
    (carrier.setAll headers).get? name = (other.setAll headers).get? name := by
  by_cases hwritten : Writes headers name
  · exact get?_setAll_of_written hopen hother hwritten
  · rw [get?_setAll_of_not_written hwritten, get?_setAll_of_not_written hwritten, h]

/-- A carrier that can hold headers and holds none. -/
structure Vacant (carrier : Carrier) : Prop where
  isOpen : carrier.isOpen = true
  get?_eq_none : ∀ name, carrier.get? name = none

theorem vacant_empty : Vacant empty := ⟨rfl, fun _ => rfl⟩

end Carrier

/-- A header, if there is a value for it. -/
def headerIf (name : String) (value : Option String) : List (String × String) :=
  (value.map fun value => (name, value)).toList

theorem writes_headerIf {name name' : String} {value : Option String} :
    Carrier.Writes (headerIf name value) name' ↔ value.isSome = true ∧ lowercase name = lowercase name' := by
  cases value <;> simp [Carrier.Writes, headerIf]

theorem setAll_headerIf (carrier : Carrier) (name : String) (value : Option String) :
    carrier.setAll (headerIf name value) = Datadog.setSome carrier name value := by
  cases value <;> rfl

/-- The tag list as the value of a header, unless it is empty or too long. -/
def Datadog.tagsHeader? (out : Outgoing) : Option String :=
  if maxTagsLength < (writeTags out).utf8ByteSize then none else tagsValue out

/-- The headers for the ids of a span and its parent. -/
def B3Multi.idHeaders (out : Outgoing) : List (String × String) :=
  [(traceIdHeader, String.ofList out.traceId.toHex), (spanIdHeader, String.ofList out.spanId.toHex)]
    ++ headerIf parentSpanIdHeader (out.parentId.map fun parent => String.ofList parent.toHex)

/-- The headers for a priority: the debug flag for a user's keep, the sampling state for any other. -/
def B3Multi.priorityHeaders : Option Priority → List (String × String)
  | some .userKeep => [(flagsHeader, "1")]
  | some p => [(sampledHeader, if p.isKeep then "1" else "0")]
  | none => []

/-- The headers that a style writes for a context. -/
def Style.written (style : Style) (out : Outgoing) : List (String × String) :=
  match style with
  | datadog =>
    [(Datadog.traceIdHeader, String.ofList (Integer.writeNat out.traceId.lower.toNat)),
      (Datadog.parentIdHeader, String.ofList (Integer.writeNat out.spanId.toNat))]
      ++ headerIf Datadog.priorityHeader (out.priority.map toString)
      ++ headerIf Datadog.originHeader out.origin
      ++ headerIf Datadog.tagsHeader (Datadog.tagsHeader? out)
  | traceContext =>
    [(TraceContext.parentHeader, String.ofList (TraceContext.writeParent out)),
      (TraceContext.stateHeader, String.ofList (TraceContext.writeState out))]
  | b3multi => B3Multi.idHeaders out ++ B3Multi.priorityHeaders out.priority
  | b3 => [(B3Single.header, String.ofList (B3Single.write out))]
  | none => []

theorem Datadog.injectTags_eq (out : Outgoing) (carrier : Carrier) :
    (injectTags out carrier).value = carrier.setAll (headerIf tagsHeader (tagsHeader? out)) := by
  unfold tagsHeader?
  split
  · next hlong =>
    unfold injectTags
    rw [if_pos hlong]
    rfl
  · next hshort =>
    rw [injectTags_value (Nat.le_of_not_lt hshort), setAll_headerIf]

theorem B3Multi.setPriority_eq (priority : Option Priority) (carrier : Carrier) :
    setPriority priority carrier = carrier.setAll (priorityHeaders priority) := by
  rcases priority with _ | p
  · rfl
  · cases p <;> rfl

theorem B3Multi.inject_value (out : Outgoing) (carrier : Carrier) :
    (inject out carrier).value = setPriority out.priority (carrier.setAll (idHeaders out)) := by
  unfold inject idHeaders
  cases out.parentId <;> rfl

/-- **Injection stores a list of headers** that does not depend on the carrier. -/
theorem Style.inject_value (style : Style) (out : Outgoing) (carrier : Carrier) :
    (style.inject out carrier).value = carrier.setAll (style.written out) := by
  cases style with
  | datadog =>
    simp only [written, Carrier.setAll_append]
    rw [← Datadog.injectTags_eq, setAll_headerIf, setAll_headerIf]
    rfl
  | traceContext => rfl
  | b3multi =>
    simp only [written, Carrier.setAll_append, ← B3Multi.setPriority_eq]
    exact B3Multi.inject_value out carrier
  | b3 => rfl
  | none => rfl

/-- All vacant carriers are alike to an injection that is read again. -/
theorem Style.extract_inject_vacant (style : Style) (out : Outgoing) (h : carrier.Vacant) (hother : other.Vacant) :
    style.extract (style.inject out carrier).value = style.extract (style.inject out other).value := by
  refine extract_congr fun name _ => ?_
  rw [inject_value, inject_value]
  exact Carrier.get?_setAll_congr h.isOpen hother.isOpen ((h.get?_eq_none name).trans (hother.get?_eq_none name).symm) _

end Tracing
