import Tracing.Proofs.Propagation.FirstStyle
import Tracing.Proofs.Propagation.LocalContext

/-!
# Headers that are written again

Injection adds headers and writes over them, but it never takes one out. So a carrier that is used again may hold
more than what was written last. A reader does not notice if whatever was left behind is replaced or outweighed
(`Style.extract_inject_of_replaces`), and of a trace that was started here this is always so: what it once told
its peers it only ever adds to (`Trace.extends_localContext`). `reinjection_never_stale` says so of every run of a
trace with one carrier.
-/

namespace Tracing

open Text

variable {carrier fresh : Carrier} {style : Style} {out out' : Outgoing} {header : String}

/-! ### What is left behind -/

namespace Style

/-- A header is written for a context, or it is outweighed by one that is: the debug flag leaves the sampling state
without a say. -/
def Replaces (style : Style) (out : Outgoing) (header : String) : Prop :=
  Carrier.Writes (style.written out) header ∨
    style = b3multi ∧ header = B3Multi.sampledHeader ∧ out.priority = some .userKeep

/-- **What is left behind does not matter** if it is replaced. -/
theorem extract_inject_of_replaces (hopen : carrier.isOpen = true) (hfresh : fresh.Vacant)
    (h : ∀ header ∈ style.headers, carrier.get? header = Option.none ∨ style.Replaces out header) :
    style.extract (style.inject out carrier).value = style.extract (style.inject out fresh).value := by
  have hget : ∀ header ∈ style.headers,
      ¬ (style = b3multi ∧ header = B3Multi.sampledHeader ∧ out.priority = some .userKeep) →
      (style.inject out carrier).value.get? header = (style.inject out fresh).value.get? header := by
    intro header hheader hsay
    rw [inject_value, inject_value]
    rcases h header hheader with hnone | hwritten | hvoid
    · exact Carrier.get?_setAll_congr hopen hfresh.isOpen (hnone.trans (hfresh.get?_eq_none header).symm) _
    · exact Carrier.get?_setAll_of_written hopen hfresh.isOpen hwritten
    · exact absurd hvoid hsay
  by_cases hflag : style = b3multi ∧ out.priority = some .userKeep
  · obtain ⟨rfl, hkeep⟩ := hflag
    have hpriority : ∀ {c : Carrier}, c.isOpen = true →
        B3Multi.readPriority (B3Multi.inject out c).value = some .userKeep := fun {c} hc => by
      have hids : (c.setAll (B3Multi.idHeaders out)).isOpen = true := (Carrier.isOpen_setAll _ _).trans hc
      rw [B3Multi.inject_value, B3Multi.readPriority_setPriority hids (.inl hkeep) (.inl (hkeep ▸ rfl)), hkeep]
      rfl
    have htrace := hget B3Multi.traceIdHeader (by decide) fun h => absurd h.2.1 (by decide)
    have hspan := hget B3Multi.spanIdHeader (by decide) fun h => absurd h.2.1 (by decide)
    exact B3Multi.extract_congr htrace hspan ((hpriority hopen).trans (hpriority hfresh.isOpen).symm)
  · exact extract_congr fun header hheader => hget header hheader fun ⟨hstyle, _, hkeep⟩ => hflag ⟨hstyle, hkeep⟩

end Style

/-! ### Contexts that say more -/

/-- A context says at least as much as another one: every header that is written for the one is written for the
other, or outweighed. -/
structure Outgoing.Extends (out out' : Outgoing) : Prop where
  priority : out'.priority = out.priority ∨ out.priority = none ∨ out'.priority = some .userKeep
  origin : out.origin.isSome = true → out'.origin.isSome = true
  tags : (Datadog.tagsHeader? out).isSome = true → (Datadog.tagsHeader? out').isSome = true

theorem Outgoing.Extends.isSome (h : out.Extends out') (hsome : out.priority.isSome = true) :
    out'.priority.isSome = true := by
  rcases h.priority with heq | hnone | hkeep
  · rwa [heq]
  · rw [hnone] at hsome
    cases hsome
  · rw [hkeep]
    rfl

theorem Outgoing.Extends.userKeep (h : out.Extends out') (hkeep : out.priority = some .userKeep) :
    out'.priority = some .userKeep := by
  rcases h.priority with heq | hnone | hkeep'
  · rwa [heq]
  · rw [hnone] at hkeep
    cases hkeep
  · exact hkeep'

theorem B3Multi.writes_priorityHeaders {priority : Option Priority} {name : String} :
    Carrier.Writes (priorityHeaders priority) name ↔
      priority = some .userKeep ∧ lowercase flagsHeader = lowercase name ∨
        priority.isSome = true ∧ priority ≠ some .userKeep ∧ lowercase sampledHeader = lowercase name := by
  rcases priority with _ | p
  · simp [priorityHeaders, Carrier.writes_nil]
  · cases p <;> simp [priorityHeaders, Carrier.writes_cons, Carrier.writes_nil]

/-- Of a context that says more, all headers are written or outweighed. -/
theorem B3Multi.replaces_extends (h : out.Extends out') (hheader : header ∈ Style.b3multi.headers)
    (hwritten : Carrier.Writes (Style.b3multi.written out) header) : Style.b3multi.Replaces out' header := by
  have hids : ∀ out : Outgoing, Carrier.Writes (idHeaders out) header ↔
      lowercase traceIdHeader = lowercase header ∨ lowercase spanIdHeader = lowercase header := fun out => by
    have hparent := Style.parentSpanIdHeader_ne .b3multi header hheader
    simp [idHeaders, Carrier.writes_cons, writes_headerIf, hparent]
  simp only [Style.Replaces, Style.written, Carrier.writes_append, hids, writes_priorityHeaders] at hwritten ⊢
  rcases hwritten with hid | ⟨hkeep, hname⟩ | ⟨hsome, hother, hname⟩
  · exact .inl (.inl hid)
  · exact .inl (.inr (.inl ⟨h.userKeep hkeep, hname⟩))
  · by_cases hkeep : out'.priority = some .userKeep
    · have hsampled := Style.lowercase_header .b3multi sampledHeader (by decide)
      rw [hsampled, Style.lowercase_header .b3multi header hheader] at hname
      exact .inr ⟨trivial, hname.symm, hkeep⟩
    · exact .inl (.inr (.inr ⟨h.isSome hsome, hkeep, hname⟩))

theorem Style.replaces_extends (h : out.Extends out') (hheader : header ∈ style.headers)
    (hreplaces : style.Replaces out header) : style.Replaces out' header := by
  rcases hreplaces with hwritten | ⟨rfl, rfl, hkeep⟩
  · cases style with
    | datadog =>
      simp only [Replaces, written, Carrier.writes_append, Carrier.writes_cons, writes_headerIf,
        Option.isSome_map] at hwritten ⊢
      rcases hwritten with ((hids | ⟨hpriority, hname⟩) | ⟨horigin, hname⟩) | ⟨htags, hname⟩
      · exact .inl (.inl (.inl (.inl hids)))
      · exact .inl (.inl (.inl (.inr ⟨h.isSome hpriority, hname⟩)))
      · exact .inl (.inl (.inr ⟨h.origin horigin, hname⟩))
      · exact .inl (.inr ⟨h.tags htags, hname⟩)
    | traceContext | b3 =>
      simp only [Replaces, written, Carrier.writes_cons] at hwritten ⊢
      exact .inl hwritten
    | b3multi => exact B3Multi.replaces_extends h hheader hwritten
    | none => exact absurd hwritten (Carrier.writes_nil header)
  · exact .inr ⟨rfl, rfl, h.userKeep hkeep⟩

/-! ### Traces that were started here -/

variable {t t' : Trace} {spanId : SpanId} {parentId : Option SpanId}

theorem Datadog.tagsHeader?_isSome (hsize : (writeTags out).utf8ByteSize ≤ maxTagsLength) :
    (tagsHeader? out).isSome = true ↔ (headerTags out).entries ≠ [] := by
  unfold tagsHeader?
  rw [if_neg (Nat.not_lt.mpr hsize), Option.isSome_iff_ne_none, ne_eq, not_iff_not]
  refine ⟨tagsValue_eq_none, fun hnil => ?_⟩
  unfold tagsValue
  rw [writeTags_eq, writePairs, hnil]
  rfl

theorem Datadog.tagsHeader?_localContext : (tagsHeader? (t.localContext spanId parentId)).isSome = true ↔
    t.traceId.higher ≠ 0 ∨ t.makerTag?.isSome = true := by
  have hpairs : ∀ tag ∈ (t.localContext spanId parentId).tags.entries, IsPair tag := fun tag htag => by
    obtain ⟨m, -, rfl⟩ := Trace.mem_localContext htag
    exact m.isPair_tagText
  have hget : ∀ key, (headerTags (t.localContext spanId parentId)).get? key =
      if key = higherBitsTag then if t.traceId.higher = 0 then none else some (higherValue t.traceId)
      else if key = decisionMakerTag then t.makerTag? else none := fun key => by
    rw [get?_headerTags hpairs, ← get?_makerTags]
    rfl
  have hnone : (∀ key, (headerTags (t.localContext spanId parentId)).get? key = none) ↔
      t.traceId.higher = 0 ∧ t.makerTag? = none := by
    simp only [hget]
    constructor
    · intro h
      have hhigher := h higherBitsTag
      have hmaker := h decisionMakerTag
      rw [if_pos rfl, ite_eq_left_iff] at hhigher
      rw [if_neg (by decide), if_pos rfl] at hmaker
      exact ⟨by_contra fun hne => absurd (hhigher hne) (by simp), hmaker⟩
    · rintro ⟨hhigher, hmaker⟩ key
      simp [hhigher, hmaker]
  rw [tagsHeader?_isSome Trace.size_localContext, ne_eq, Dict.entries_eq_nil_iff, hnone, not_and_or,
    Option.isSome_iff_ne_none]

/-- **What a trace told its peers it only ever adds to**, whichever of its spans speaks. -/
theorem Trace.extends_localContext (hid : t'.traceId = t.traceId) (h : TraceRun.Succeeds t t')
    (spanId other : SpanId) (parentId otherParent : Option SpanId) :
    (t.localContext spanId parentId).Extends (t'.localContext other otherParent) := by
  refine ⟨h.priority, fun horigin => horigin, fun htags => ?_⟩
  rw [Datadog.tagsHeader?_localContext] at htags ⊢
  rw [hid]
  exact htags.imp_right h.maker

/-! ### Runs with one carrier -/

/-- What can happen to a trace whose spans write headers of one style into one carrier. -/
inductive CarrierOp where
  | act (op : TraceOp)
  /-- The span of a handle writes headers. -/
  | inject (handle : Nat)

/-- A trace and the carrier for its headers. -/
structure CarrierRun where
  run : TraceRun
  carrier : Carrier

namespace CarrierRun

/-- One operation. -/
def step (style : Style) (s : CarrierRun) : CarrierOp → CarrierRun
  | .act op => { s with run := s.run.step op }
  | .inject i =>
    match s.run.outgoing? i with
    | some out => { s with carrier := (style.inject out s.carrier).value }
    | none => s

/-- Where a list of operations leads from an untouched trace and a carrier. -/
def after (style : Style) (t : Trace) (carrier : Carrier) (ops : List CarrierOp) : CarrierRun :=
  ops.foldl (step style) ⟨{ trace := t }, carrier⟩

theorem after_concat (style : Style) (t : Trace) (carrier : Carrier) (ops : List CarrierOp) (op : CarrierOp) :
    after style t carrier (ops ++ [op]) = (after style t carrier ops).step style op := by
  unfold after
  rw [List.foldl_append]
  rfl

theorem step_inject_of_some {s : CarrierRun} {i : Nat} (h : s.run.outgoing? i = some out) :
    s.step style (.inject i) = { s with carrier := (style.inject out s.carrier).value } := by
  unfold step
  simp only
  rw [h]

theorem step_inject_of_none {s : CarrierRun} {i : Nat} (h : s.run.outgoing? i = none) :
    s.step style (.inject i) = s := by
  unfold step
  simp only
  rw [h]

theorem run_after (style : Style) (t : Trace) (carrier : Carrier) (ops : List CarrierOp) :
    ∃ acts, (after style t carrier ops).run = TraceRun.after t acts := by
  induction ops using List.reverseRecOn with
  | nil => exact ⟨[], rfl⟩
  | append_singleton ops op ih =>
    obtain ⟨acts, hacts⟩ := ih
    rw [after_concat]
    cases op with
    | act op =>
      refine ⟨acts ++ [op], ?_⟩
      rw [TraceRun.after_concat, ← hacts]
      rfl
    | inject i =>
      refine ⟨acts, ?_⟩
      cases hout : (after style t carrier ops).run.outgoing? i with
      | none => rw [step_inject_of_none hout, hacts]
      | some out => rw [step_inject_of_some hout, hacts]

/-- Every header in the carrier would be replaced, whichever span wrote headers next. -/
structure Current (style : Style) (s : CarrierRun) : Prop where
  isOpen : s.carrier.isOpen = true
  replaced : ∀ header ∈ style.headers, s.carrier.get? header = none ∨
    ∀ spanId parentId, style.Replaces (s.run.trace.localContext spanId parentId) header

theorem current_step {s : CarrierRun} (hs : TraceRun.Consistent s.run)
    (hlocal : ∀ i out, s.run.outgoing? i = some out → ∃ parentId, out = s.run.trace.localContext out.spanId parentId)
    (h : Current style s) (op : CarrierOp) : Current style (s.step style op) := by
  cases op with
  | act op =>
    refine ⟨h.isOpen, fun header hheader => (h.replaced header hheader).imp_right fun hreplaces spanId parentId => ?_⟩
    have hmore := Trace.extends_localContext (TraceRun.traceId_origin_step s.run op).1
      (TraceRun.succeeds_step hs op) spanId spanId parentId parentId
    exact Style.replaces_extends hmore hheader (hreplaces spanId parentId)
  | inject i =>
    cases hout : s.run.outgoing? i with
    | none => rwa [step_inject_of_none hout]
    | some out =>
      obtain ⟨parent, hcontext⟩ := hlocal i out hout
      rw [step_inject_of_some hout]
      refine ⟨?_, fun header hheader => ?_⟩
      · rw [Style.inject_value, Carrier.isOpen_setAll]
        exact h.isOpen
      · by_cases hwritten : Carrier.Writes (style.written out) header
        · -- what this span writes every other one would write as well
          refine .inr fun spanId parentId => ?_
          rw [hcontext] at hwritten
          have hmore := Trace.extends_localContext rfl (TraceRun.Succeeds.refl s.run.trace) out.spanId spanId
            parent parentId
          exact Style.replaces_extends hmore hheader (.inl hwritten)
        · rw [Style.inject_value, Carrier.get?_setAll_of_not_written hwritten]
          exact h.replaced header hheader

theorem outgoing_local {id : TraceId} {ops : List CarrierOp} {i : Nat}
    (hout : (after style (.new id) carrier ops).run.outgoing? i = some out) :
    ∃ parentId, out = (after style (.new id) carrier ops).run.trace.localContext out.spanId parentId := by
  obtain ⟨acts, hacts⟩ := run_after style (.new id) carrier ops
  rw [hacts] at hout ⊢
  exact TraceRun.outgoing_local hout

theorem current_after (style : Style) (id : TraceId) (hcarrier : carrier.Vacant) (ops : List CarrierOp) :
    Current style (after style (.new id) carrier ops) := by
  induction ops using List.reverseRecOn with
  | nil => exact ⟨hcarrier.isOpen, fun header _ => .inl (hcarrier.get?_eq_none header)⟩
  | append_singleton ops op ih =>
    obtain ⟨acts, hacts⟩ := run_after style (.new id) carrier ops
    have hconsistent := TraceRun.consistent_after (.fresh id) acts
    rw [after_concat]
    exact current_step (hacts ▸ hconsistent) (fun _ _ hout => outgoing_local hout) ih op

/-- **Headers that are written again are never stale.** A trace is started here, and between operations on it its
spans write headers of one style into one carrier that was vacant in the beginning. Whatever an injection finds
there, the carrier is then read as a fresh one would be into which the same is written. -/
theorem reinjection_never_stale (style : Style) (id : TraceId) (hcarrier : carrier.Vacant) (hfresh : fresh.Vacant)
    {ops : List CarrierOp} {i : Nat} (hout : (after style (.new id) carrier ops).run.outgoing? i = some out) :
    style.extract (after style (.new id) carrier (ops ++ [.inject i])).carrier =
      style.extract (style.inject out fresh).value := by
  have hcurrent := current_after style id hcarrier ops
  obtain ⟨parentId, hlocal⟩ := outgoing_local hout
  rw [after_concat, step_inject_of_some hout]
  refine Style.extract_inject_of_replaces hcurrent.isOpen hfresh fun header hheader => ?_
  rw [hlocal]
  exact (hcurrent.replaced header hheader).imp_right fun hreplaces => hreplaces out.spanId parentId

/-- A reject that was told and then overridden by a user: its sampling state is still in the carrier, and is not
heard. -/
theorem reinjection_never_stale_overridden :
    let id : TraceId := .ofParts 5 7
    let ops := [.act (.start (.new id (.ofNat 9) none "op" "svc" 0) none ⟨0, 0⟩), .inject 0,
      .act (.decideWith fun _ => { priority := .autoReject, mechanism := some .rule }), .inject 0,
      .act (.choose .userKeep)]
    let out : Outgoing := ⟨id, .ofNat 9, none, none, some .userKeep, .ofList [("_dd.p.dm", "-4")]⟩
    let reused := (after .b3multi (.new id) .empty (ops ++ [.inject 0])).carrier
    let fresh := (Style.b3multi.inject out .empty).value
    Carrier.empty.Vacant ∧ (after .b3multi (.new id) .empty ops).run.outgoing? 0 = some out ∧
      reused.get? "x-b3-sampled" = some "0" ∧ fresh.get? "x-b3-sampled" = none ∧
      Style.b3multi.extract reused = Style.b3multi.extract fresh ∧
      (Style.b3multi.extract fresh).value = some ⟨id, .ofNat 9, some .userKeep, none, ∅⟩ := by
  intro id ops out reused fresh
  have hout : (after .b3multi (.new id) .empty ops).run.outgoing? 0 = some out := by decide +kernel
  have hstale := reinjection_never_stale .b3multi id Carrier.vacant_empty Carrier.vacant_empty hout
  refine ⟨Carrier.vacant_empty, hout, ?_, ?_, hstale, ?_⟩ <;> decide +kernel

end CarrierRun

end Tracing
