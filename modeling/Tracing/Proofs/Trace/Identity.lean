import Tracing.Proofs.Trace.ExactlyOnce

/-!
# The identity of a span

A span is named by its own id and the id of its trace, and its place among the spans is told by its name and the
id of its parent (`SpanLineage`), in its handle and in its record alike. The handles of a run keep their contexts
(`contexts_step`), a record that is changed, ended or stamped keeps the lineage of its handle, and so the receiver
of a complete trace finds the lineages of all its handles in order (`lineages_takeSpans`).
-/

namespace Tracing

/-- The ids of a span and of its trace. -/
structure SpanIdentity where
  traceId : TraceId
  spanId : SpanId
deriving DecidableEq

def SpanRecord.identity (r : SpanRecord) : SpanIdentity := ⟨r.traceId, r.spanId⟩

def Span.identity (s : Span) : SpanIdentity := ⟨s.context.traceId, s.context.spanId⟩

/-- The name of a span and the id of its parent. -/
structure SpanLineage where
  identity : SpanIdentity
  parentId : Option SpanId
deriving DecidableEq

def SpanRecord.lineage (r : SpanRecord) : SpanLineage := ⟨r.identity, r.parentId⟩

def SpanContext.lineage (c : SpanContext) : SpanLineage := ⟨⟨c.traceId, c.spanId⟩, c.parentId⟩

/-! ### Records -/

/-- A span without its tags. -/
def SpanRecord.bare (r : SpanRecord) : SpanRecord := { r with tags := ∅ }

theorem SpanRecord.setTags_eq (r : SpanRecord) (tags : List (String × TagValue)) :
    r.setTags tags = { r with tags := tags.foldl (fun d e => d.insert e.1 e.2) r.tags } := by
  unfold setTags
  induction tags generalizing r with
  | nil => rfl
  | cons e rest ih => exact ih (r.setTag e.1 e.2)

theorem SpanRecord.bare_setTags (r : SpanRecord) (tags : List (String × TagValue)) :
    (r.setTags tags).bare = r.bare := by
  rw [setTags_eq]
  rfl

theorem SpanRecord.lineage_setTags (r : SpanRecord) (tags : List (String × TagValue)) :
    (r.setTags tags).lineage = r.lineage := by
  rw [setTags_eq]
  rfl

/-- **Stamping concerns the tags alone.** -/
theorem Trace.bare_stamp (t : Trace) (spans : List SpanRecord) :
    (t.stamp spans).map SpanRecord.bare = spans.map SpanRecord.bare := by
  cases spans with
  | nil => rfl
  | cons first rest =>
    have hrest : ∀ r : SpanRecord, (SpanRecord.bare ∘ (·.setTags t.originTags)) r = r.bare :=
      fun r => r.bare_setTags _
    rw [stamp, List.map_cons, List.map_cons, List.map_map, SpanRecord.bare_setTags, SpanRecord.bare_setTags,
      List.map_congr_left fun r _ => hrest r]

theorem Trace.lineage_stamp (t : Trace) (spans : List SpanRecord) :
    (t.stamp spans).map SpanRecord.lineage = spans.map SpanRecord.lineage := by
  have hbare := congrArg (List.map SpanRecord.lineage) (t.bare_stamp spans)
  rwa [List.map_map, List.map_map] at hbare

theorem map_identity_of_lineage {records : List SpanRecord} {contexts : List SpanContext}
    (h : records.map SpanRecord.lineage = contexts.map SpanContext.lineage) :
    records.map SpanRecord.identity = contexts.map (·.lineage.identity) := by
  have hmap := congrArg (List.map SpanLineage.identity) h
  rwa [List.map_map, List.map_map] at hmap

theorem SpanChange.lineage_inRecord (c : SpanChange) (r : SpanRecord) :
    (c.inRecord r).lineage = r.lineage := by cases c <;> rfl

theorem SpanEnd.lineage_record (e : SpanEnd) (r : Recording) : (e.record r).lineage = r.record.lineage := rfl

/-- A span that starts gets a record of the trace with an id. -/
def TraceOp.Names (id : TraceId) : TraceOp → Prop
  | start record _ _ => record.traceId = id
  | _ => True

/-! ### The trace of a run -/

namespace TraceRun

/-- A trace keeps its id and its origin. -/
theorem traceId_origin_step (s : TraceRun) (op : TraceOp) :
    (s.step op).trace.traceId = s.trace.traceId ∧ (s.step op).trace.origin = s.trace.origin := by
  cases context_effect s op with
  | settled d _ trace =>
    rw [trace, Trace.settle, recordDecisionMaker_eq]
    exact ⟨rfl, rfl⟩
  | overridden _ _ _ _ trace =>
    rw [trace, recordDecisionMaker_eq]
    exact ⟨rfl, rfl⟩
  | quiet _ same => exact ⟨same.traceId, same.origin⟩

theorem traceId_after (t : Trace) (ops : List TraceOp) : (after t ops).trace.traceId = t.traceId :=
  after_induction (P := fun s => s.trace.traceId = t.traceId) rfl
    (fun s op h => (traceId_origin_step s op).1.trans h) ops

theorem origin_after (t : Trace) (ops : List TraceOp) : (after t ops).trace.origin = t.origin :=
  after_induction (P := fun s => s.trace.origin = t.origin) rfl
    (fun s op h => (traceId_origin_step s op).2.trans h) ops

/-! ### The handles of a run -/

/-- The contexts of all handles, in the order of starting. -/
def contexts (s : TraceRun) : List SpanContext := s.handles.map Span.context

/-- The contexts of the handles that an operation gives out. -/
def started (s : TraceRun) : TraceOp → List SpanContext
  | .start record _ _ => [⟨s.trace.traceId, record.spanId, record.parentId, s.trace.origin⟩]
  | _ => []

theorem context_start (t : Trace) (record : SpanRecord) (startTime : Option Int) (clock : Clock) :
    (Span.start t record startTime clock).value.span.context =
      ⟨t.traceId, record.spanId, record.parentId, t.origin⟩ := by
  cases hclosed : t.closed <;> simp [Span.start]

theorem context_change (c : SpanChange) (span : Span) (t : Trace) :
    (c.apply span t).span.context = span.context := by
  rw [SpanChange.apply_eq]
  rfl

theorem context_end (e : SpanEnd) (span : Span) (t : Trace) : (e.apply span t).span.context = span.context := by
  rw [SpanEnd.apply_eq]
  unfold Span.finishWith
  split <;> rfl

theorem contexts_act (s : TraceRun) (i : Nat) {action : Span → Trace → SpanStep}
    (h : ∀ span t, (action span t).span.context = span.context) : (s.act i action).contexts = s.contexts := by
  cases hspan : s.handles[i]? with
  | none => rw [act_of_none hspan]
  | some span =>
    rw [act_of_some hspan]
    show (s.handles.set i (action span s.trace).span).map Span.context = s.contexts
    rw [List.map_set, h span s.trace]
    exact set_of_getElem? (by simp [hspan])

/-- **Handles keep their contexts**, and only a start gives out another one. -/
theorem contexts_step (s : TraceRun) (op : TraceOp) : (s.step op).contexts = s.contexts ++ s.started op := by
  cases op with
  | start record startTime clock =>
    show (s.handles ++ [(Span.start s.trace record startTime clock).value.span]).map Span.context = _
    rw [List.map_append, List.map_singleton, context_start]
    rfl
  | change i c => exact (contexts_act s i (context_change c)).trans (List.append_nil _).symm
  | finish i ending => exact (contexts_act s i (context_end ending)).trans (List.append_nil _).symm
  | decide | decideWith | choose => exact (List.append_nil _).symm
  | collect =>
    show (if s.trace.closed then { s with trace := s.trace.takeSpans.2 } else s).contexts = _
    split <;> exact (List.append_nil _).symm

theorem contexts_append (t : Trace) (ops later : List TraceOp) :
    (after t ops).contexts <+: (after t (ops ++ later)).contexts := by
  induction later using List.reverseRecOn with
  | nil => exact (List.append_nil ops).symm ▸ List.prefix_rfl
  | append_singleton later op ih =>
    rw [← List.append_assoc, after_concat, contexts_step]
    exact ih.trans (List.prefix_append _ _)

/-! ### Records of a run -/

/-- Every handle that records has a record with its name and its parent. -/
def Named (s : TraceRun) : Prop :=
  ∀ span ∈ s.handles, ∀ r, span.recording = some r → r.record.lineage = span.context.lineage

theorem named_act {s : TraceRun} (h : Named s) (i : Nat) {action : Span → Trace → SpanStep}
    (haction : ∀ span t, (∀ r, span.recording = some r → r.record.lineage = span.context.lineage) →
      ∀ r, (action span t).span.recording = some r →
        r.record.lineage = (action span t).span.context.lineage) : Named (s.act i action) := by
  cases hspan : s.handles[i]? with
  | none => rwa [act_of_none hspan]
  | some span =>
    rw [act_of_some hspan]
    intro other hother
    rcases List.mem_or_eq_of_mem_set hother with hother | rfl
    · exact h other hother
    · exact haction span s.trace (h span (List.mem_of_getElem? hspan))

theorem named_step {s : TraceRun} (h : Named s) {op : TraceOp} (hop : op.Names s.trace.traceId) :
    Named (s.step op) := by
  cases op with
  | start record startTime clock =>
    intro span hspan r hr
    rcases List.mem_append.mp hspan with hspan | hspan
    · exact h span hspan r hr
    · rw [List.mem_singleton] at hspan
      subst hspan
      rw [context_start]
      have hid : record.traceId = s.trace.traceId := hop
      cases hclosed : s.trace.closed with
      | true => simp [Span.start, Trace.openSpan, hclosed] at hr
      | false =>
        simp only [Span.start, Trace.openSpan, hclosed, Bool.false_eq_true, if_false, Logged.value_bind,
          Logged.value_pure, Option.map_some, Option.some.injEq] at hr
        rw [← hr, ← hid]
        rfl
  | change i c =>
    refine named_act h i fun span t hnamed r hr => ?_
    rw [context_change]
    rw [SpanChange.apply_eq] at hr
    obtain ⟨before, hbefore, rfl⟩ := Option.map_eq_some_iff.mp hr
    exact (c.lineage_inRecord _).trans (hnamed before hbefore)
  | finish i ending =>
    refine named_act h i fun span t hnamed r hr => ?_
    rw [SpanEnd.apply_eq] at hr
    unfold Span.finishWith at hr
    split at hr
    · next hnone =>
      rw [hnone] at hr
      cases hr
    · cases hr
  | decide | decideWith | choose => exact h
  | collect =>
    show Named (if s.trace.closed then { s with trace := s.trace.takeSpans.2 } else s)
    split <;> exact h

theorem named_after {t : Trace} {ops : List TraceOp} (h : ∀ op ∈ ops, op.Names t.traceId) :
    Named (after t ops) := by
  induction ops using List.reverseRecOn with
  | nil => exact fun span hspan => absurd hspan List.not_mem_nil
  | append_singleton ops op ih =>
    rw [after_concat]
    refine named_step (ih fun op hop => h op (List.mem_append_left _ hop)) ?_
    rw [traceId_after]
    exact h op (by simp)

theorem lineage_of_firstEnd {t : Trace} {ops : List TraceOp} (h : ∀ op ∈ ops, op.Names t.traceId) {i : Nat}
    {record : SpanRecord} (hfirst : FirstEnd t ops i record) :
    (after t ops).contexts[i]?.map SpanContext.lineage = some record.lineage := by
  obtain ⟨before, ending, later, span, recording, rfl, -, hspan, hrec, rfl⟩ := hfirst
  have hnamed := named_after (fun op hop => h op (List.mem_append_left _ hop)) span
    (List.mem_of_getElem? hspan) recording hrec
  have hbefore : (after t before).contexts[i]? = some span.context := by simp [contexts, hspan]
  obtain ⟨later', hlater⟩ := contexts_append t before (.finish i ending :: later)
  rw [SpanEnd.lineage_record, hnamed, ← hlater,
    List.getElem?_append_left (List.getElem?_eq_some_iff.mp hbefore).1, hbefore]
  rfl

/-- **The receiver of a complete trace finds all its spans**: the names and the parents of the handles, in
order. -/
theorem lineages_takeSpans {t : Trace} {ops : List TraceOp} (h : Ledger t ops) {op : TraceOp}
    (hnames : ∀ o ∈ ops ++ [op], o.Names t.traceId) (hc : Completes (after t ops) op) :
    (after t (ops ++ [op])).trace.takeSpans.1.map SpanRecord.lineage =
      (after t (ops ++ [op])).contexts.map SpanContext.lineage := by
  obtain ⟨-, hlength, hfirst⟩ := takeSpans_of_completes h hc
  refine List.ext_getElem? fun i => ?_
  rw [List.getElem?_map, List.getElem?_map]
  cases hrecord : (after t (ops ++ [op])).trace.takeSpans.1[i]? with
  | some record => exact (lineage_of_firstEnd hnames (hfirst i record hrecord)).symm
  | none =>
    rw [List.getElem?_eq_none_iff, hlength] at hrecord
    rw [List.getElem?_eq_none (by simpa [contexts] using hrecord)]
    rfl

end TraceRun

end Tracing
