import Tracing.Proofs.Trace.Spans

/-!
# Exactly-once completion

A trace counts its open spans, remembers that it was closed, and keeps one slot for every span; every
handle knows its slot for as long as it records. `Ledger` ties these four together over all runs, and
`completion_exactly_once` reads off what the receiver of completed traces may rely on: it is told once,
when the last open span ends, and then finds one record for every span in the order of starting, each
as its handle had it when it was first ended.
-/

namespace Tracing.TraceRun

/-- An operation reports the trace complete. -/
def Completes (s : TraceRun) (op : TraceOp) : Prop := (s.step op).completions = s.completions + 1

/-- In the course of `ops` the handle `i` was ended after it was given out. -/
def WasEnded (t : Trace) (ops : List TraceOp) (i : Nat) : Prop :=
  ∃ before ending later, ops = before ++ .finish i ending :: later ∧ i < (after t before).handles.length

/-- In the course of `ops` the handle `i` was ended for the first time, with this record. -/
def FirstEnd (t : Trace) (ops : List TraceOp) (i : Nat) (record : SpanRecord) : Prop :=
  ∃ before ending later span recording, ops = before ++ .finish i ending :: later ∧
    ¬ WasEnded t before i ∧ (after t before).handles[i]? = some span ∧
    span.recording = some recording ∧ record = ending.record recording

theorem FirstEnd.append {t : Trace} {ops : List TraceOp} {i : Nat} {record : SpanRecord}
    (h : FirstEnd t ops i record) (op : TraceOp) : FirstEnd t (ops ++ [op]) i record := by
  obtain ⟨before, ending, later, span, recording, rfl, hrest⟩ := h
  exact ⟨before, ending, later ++ [op], span, recording, by simp, hrest⟩

theorem FirstEnd.wasEnded {t : Trace} {ops : List TraceOp} {i : Nat} {record : SpanRecord}
    (h : FirstEnd t ops i record) : WasEnded t ops i := by
  obtain ⟨before, ending, later, span, recording, rfl, -, hspan, -⟩ := h
  exact ⟨before, ending, later, rfl, (List.getElem?_eq_some_iff.mp hspan).1⟩

theorem recorded_none_of_wasEnded {t : Trace} {ops : List TraceOp} {i : Nat} (h : WasEnded t ops i) :
    (after t ops).recorded[i]? = some none := by
  obtain ⟨before, ending, later, rfl, hi⟩ := h
  have hnone := after_append_of_step (P := fun s => s.recorded[i]? = some none)
    (fun s op h => recorded_none_step h op) t (before ++ [.finish i ending]) later
    (by rw [after_concat]; exact recorded_none_of_finish hi ending)
  rwa [List.append_assoc, List.singleton_append] at hnone

/-! ### The ledger of a run -/

theorem closeSpan_of_one {t : Trace} (h : t.openSpans = 1) (slot : Nat) (record : SpanRecord) :
    t.closeSpan slot record =
      ({ t with slots := t.slots.set slot (some record), openSpans := 0, closed := true }, true) := by
  unfold Trace.closeSpan
  rw [h]

theorem closeSpan_of_two_le {t : Trace} (h : 2 ≤ t.openSpans) (slot : Nat) (record : SpanRecord) :
    t.closeSpan slot record =
      ({ t with slots := t.slots.set slot (some record), openSpans := t.openSpans - 1 }, false) := by
  obtain ⟨n, hn⟩ : ∃ n, t.openSpans = n + 2 := ⟨t.openSpans - 2, by omega⟩
  unfold Trace.closeSpan
  rw [hn]
  rfl

/-- **The invariant**: how the count of open spans, the mark of a closed trace, the slots and the handles
hang together. -/
structure Ledger (t : Trace) (ops : List TraceOp) : Prop where
  openSpans : (after t ops).trace.openSpans = (after t ops).unfinished
  completions : (after t ops).completions = (after t ops).trace.closed.toNat
  closed : (after t ops).trace.closed = true → (after t ops).unfinished = 0
  length : (after t ops).trace.closed = false →
    (after t ops).trace.slots.length = (after t ops).recorded.length
  slot : (after t ops).trace.closed = false → ∀ i slot : Nat,
    (after t ops).recorded[i]? = some (some slot) → slot = i
  filled : (after t ops).trace.closed = false → ∀ i : Nat, (after t ops).recorded[i]? = some none →
    ∃ record, (after t ops).trace.slots[i]? = some (some record) ∧ FirstEnd t ops i record

theorem ledger_nil {t : Trace} (ht : t.Untouched) : Ledger t [] := by
  obtain ⟨hopen, hclosed, hslots, -, -⟩ := ht.fields
  exact {
    openSpans := hopen
    completions := by simp [hclosed]
    closed := fun _ => rfl
    length := fun _ => by simp [hslots, recorded]
    slot := fun _ i slot h => by simp [recorded] at h
    filled := fun _ i h => by simp [recorded] at h }

/-- An end that takes effect is the first one of its handle. -/
theorem firstEnd_of_ended {t : Trace} {ops : List TraceOp} {i : Nat} {span : Span}
    {recording : Recording} (hspan : (after t ops).handles[i]? = some span)
    (hrec : span.recording = some recording) (ending : SpanEnd) :
    FirstEnd t (ops ++ [.finish i ending]) i (ending.record recording) := by
  refine ⟨ops, ending, [], span, recording, rfl, fun hended => ?_, hspan, hrec, rfl⟩
  have hnone := recorded_none_of_wasEnded hended
  rw [recorded_of_handle hspan, Span.slot?, hrec] at hnone
  cases hnone

theorem unfinished_pos {s : TraceRun} {i slot : Nat} (h : s.recorded[i]? = some (some slot)) :
    0 < s.unfinished := by
  rw [unfinished_eq, List.countP_pos_iff]
  exact ⟨some slot, List.mem_of_getElem? h, rfl⟩

theorem unfinished_set {s s' : TraceRun} {i slot : Nat} (h : s.recorded[i]? = some (some slot))
    (hset : s'.recorded = s.recorded.set i none) : s'.unfinished + 1 = s.unfinished := by
  have hpos := unfinished_pos h
  obtain ⟨hi, heq⟩ := List.getElem?_eq_some_iff.mp h
  rw [unfinished_eq] at hpos ⊢
  rw [hset, List.countP_set hi, heq, unfinished_eq]
  simp only [Option.isSome_some, Option.isSome_none, Bool.false_eq_true, if_true, if_false]
  omega

theorem unfinished_append {s s' : TraceRun} {span : Span} (hh : s'.handles = s.handles ++ [span]) :
    s'.recorded = s.recorded ++ [span.slot?] ∧
      s'.unfinished = s.unfinished + span.slot?.isSome.toNat := by
  have hrec : s'.recorded = s.recorded ++ [span.slot?] := by simp [recorded, hh]
  refine ⟨hrec, ?_⟩
  rw [unfinished_eq, unfinished_eq, hrec, List.countP_append]
  cases span.slot? <;> rfl

theorem of_getElem?_concat {α : Type} {l : List α} {a b : α} {i : Nat} (h : (l ++ [a])[i]? = some b) :
    i < l.length ∧ l[i]? = some b ∨ i = l.length ∧ a = b := by
  by_cases hi : i < l.length
  · rw [List.getElem?_append_left hi] at h
    exact .inl ⟨hi, h⟩
  · rw [List.getElem?_append_right (by omega), List.getElem?_singleton] at h
    split at h
    · exact .inr ⟨by omega, Option.some.inj h⟩
    · cases h

theorem Ledger.isOpen {t : Trace} {ops : List TraceOp} (h : Ledger t ops) {i slot : Nat}
    (hi : (after t ops).recorded[i]? = some (some slot)) : (after t ops).trace.closed = false := by
  by_contra hc
  have hzero := h.closed (by simpa using hc)
  have hpos := unfinished_pos hi
  omega

theorem ledger_opened {t : Trace} {ops : List TraceOp} {op : TraceOp} (h : Ledger t ops) {span : Span}
    {root : Option RootNames} (hopen : (after t ops).trace.closed = false)
    (hspan : span.slot? = some (after t ops).trace.slots.length)
    (hs : (after t ops).step op = { after t ops with
      handles := (after t ops).handles ++ [span]
      trace := { (after t ops).trace with
        openSpans := (after t ops).trace.openSpans + 1
        slots := (after t ops).trace.slots ++ [none], root } }) :
    Ledger t (ops ++ [op]) := by
  have hlen := h.length hopen
  obtain ⟨hrec, hun⟩ := unfinished_append (congrArg handles hs)
  rw [hspan] at hrec hun
  rw [← after_concat] at hs hrec hun
  have htrace := congrArg TraceRun.trace hs
  refine {
    openSpans := by rw [htrace, hun, ← h.openSpans]; rfl
    completions := by rw [hs]; exact h.completions
    closed := fun hc => by rw [htrace] at hc; simp [hopen] at hc
    length := fun _ => by rw [htrace, hrec]; simp [hlen]
    slot := fun _ i slot hi => ?_
    filled := fun _ i hi => ?_ }
  · rw [hrec] at hi
    rcases of_getElem?_concat hi with ⟨-, hold⟩ | ⟨hlast, hnew⟩
    · exact h.slot hopen i slot hold
    · rw [Option.some.injEq] at hnew
      rw [← hnew, hlen, hlast]
  · rw [hrec] at hi
    rcases of_getElem?_concat hi with ⟨hlt, hold⟩ | ⟨-, hnew⟩
    · obtain ⟨record, hslot, hfirst⟩ := h.filled hopen i hold
      refine ⟨record, ?_, hfirst.append op⟩
      rw [htrace]
      show ((after t ops).trace.slots ++ [none])[i]? = _
      rw [List.getElem?_append_left (by omega), hslot]
    · cases hnew

/-- What the end of a span does, once the slot of the handle and the count of open spans are known. -/
theorem ended_facts {t : Trace} {ops : List TraceOp} (h : Ledger t ops) {i : Nat} {ending : SpanEnd}
    {span : Span} {recording : Recording} (hspan : (after t ops).handles[i]? = some span)
    (hrec : span.recording = some recording)
    (hh : (after t (ops ++ [.finish i ending])).handles =
      (after t ops).handles.set i { span with recording := none }) :
    (after t ops).trace.closed = false ∧ recording.slot = i ∧
      (after t (ops ++ [.finish i ending])).recorded = (after t ops).recorded.set i none ∧
      (after t (ops ++ [.finish i ending])).unfinished + 1 = (after t ops).unfinished := by
  obtain ⟨hi, hset⟩ := recorded_of_ended hspan hrec hh
  have hopen := h.isOpen hi
  exact ⟨hopen, h.slot hopen i _ hi, hset, unfinished_set hi hset⟩

theorem filled_of_ended {t : Trace} {ops : List TraceOp} (h : Ledger t ops) {i : Nat} {ending : SpanEnd}
    {span : Span} {recording : Recording} (hspan : (after t ops).handles[i]? = some span)
    (hrec : span.recording = some recording) (hopen : (after t ops).trace.closed = false)
    (j : Nat) (hj : ((after t ops).recorded.set i none)[j]? = some none) :
    ∃ record, ((after t ops).trace.slots.set i (some (ending.record recording)))[j]? =
      some (some record) ∧ FirstEnd t (ops ++ [.finish i ending]) j record := by
  have hlen := h.length hopen
  have hi : i < (after t ops).recorded.length := (List.getElem?_eq_some_iff.mp (recorded_of_handle hspan)).1
  by_cases hij : i = j
  · subst hij
    exact ⟨_, List.getElem?_set_self (by omega), firstEnd_of_ended hspan hrec ending⟩
  · rw [List.getElem?_set_ne hij] at hj ⊢
    obtain ⟨record, hslot, hfirst⟩ := h.filled hopen j hj
    exact ⟨record, hslot, hfirst.append _⟩

theorem ledger_ended {t : Trace} {ops : List TraceOp} (h : Ledger t ops) {i : Nat} {ending : SpanEnd}
    {span : Span} {recording : Recording} (hspan : (after t ops).handles[i]? = some span)
    (hrec : span.recording = some recording)
    (hs : (after t ops).step (.finish i ending) = { after t ops with
      handles := (after t ops).handles.set i { span with recording := none }
      trace := ((after t ops).trace.closeSpan recording.slot (ending.record recording)).1
      completions := (after t ops).completions +
        ((after t ops).trace.closeSpan recording.slot (ending.record recording)).2.toNat }) :
    Ledger t (ops ++ [.finish i ending]) := by
  rw [← after_concat] at hs
  obtain ⟨hopen, hslot, hset, hun⟩ := ended_facts h hspan hrec (congrArg handles hs)
  have htrace := congrArg TraceRun.trace hs
  have hcompl := congrArg TraceRun.completions hs
  have hcount := h.openSpans
  have hzero : (after t ops).completions = 0 := by rw [h.completions, hopen]; rfl
  rw [hslot] at htrace hcompl
  by_cases hone : (after t ops).trace.openSpans = 1
  · -- the last open span: the trace is closed, and nothing more is promised about its slots
    rw [closeSpan_of_one hone] at htrace hcompl
    exact {
      openSpans := by rw [htrace]; show 0 = _; omega
      completions := by rw [htrace, hcompl, hzero]; rfl
      closed := fun _ => by omega
      length := fun hc => by rw [htrace] at hc; cases hc
      slot := fun hc => by rw [htrace] at hc; cases hc
      filled := fun hc => by rw [htrace] at hc; cases hc }
  · rw [closeSpan_of_two_le (by omega)] at htrace hcompl
    refine {
      openSpans := by rw [htrace]; show (after t ops).trace.openSpans - 1 = _; omega
      completions := by rw [htrace, hcompl, hzero]; simp [hopen]
      closed := fun hc => by rw [htrace] at hc; simp [hopen] at hc
      length := fun _ => by rw [htrace, hset]; simp [h.length hopen]
      slot := fun _ j slot hj => ?_
      filled := fun _ j hj => ?_ }
    · rw [hset, List.getElem?_set] at hj
      split at hj
      · split at hj <;> simp at hj
      · exact h.slot hopen j slot hj
    · rw [hset] at hj
      rw [htrace]
      exact filled_of_ended h hspan hrec hopen j hj

/-- **Every operation keeps the ledger.** -/
theorem ledger_concat {t : Trace} {ops : List TraceOp} (h : Ledger t ops) (op : TraceOp) :
    Ledger t (ops ++ [op]) := by
  cases step_effect (after t ops) op with
  | detached span hclosed hspan hs =>
    obtain ⟨-, hun⟩ := unfinished_append (congrArg handles hs)
    have htrace := congrArg TraceRun.trace hs
    have hcompl := congrArg TraceRun.completions hs
    rw [Span.slot?_eq_none.mpr hspan] at hun
    rw [← after_concat] at htrace hcompl hun
    simp only [Option.isSome_none, Bool.toNat_false, Nat.add_zero] at hun
    exact {
      openSpans := by rw [htrace, hun]; exact h.openSpans
      completions := by rw [htrace, hcompl]; exact h.completions
      closed := fun _ => by rw [hun]; exact h.closed hclosed
      length := fun hc => by rw [htrace] at hc; simp [hclosed] at hc
      slot := fun hc => by rw [htrace] at hc; simp [hclosed] at hc
      filled := fun hc => by rw [htrace] at hc; simp [hclosed] at hc }
  | opened span root hopen hspan hs => exact ledger_opened h hopen hspan hs
  | ended span recording hspan hrec hs => exact ledger_ended h hspan hrec hs
  | quiet _ _ same =>
    rw [← after_concat] at same
    have hun : (after t (ops ++ [op])).unfinished = (after t ops).unfinished := by
      rw [unfinished_eq, unfinished_eq, same.recorded]
    refine {
      openSpans := by rw [same.openSpans, hun, h.openSpans]
      completions := by rw [same.completions, same.closed, h.completions]
      closed := fun hc => by rw [hun]; exact h.closed (same.closed ▸ hc)
      length := fun hc => ?_
      slot := fun hc i slot hi => h.slot (same.closed ▸ hc) i slot (same.recorded ▸ hi)
      filled := fun hc i hi => ?_ }
    · have hopen : (after t ops).trace.closed = false := same.closed ▸ hc
      rw [same.slots hopen, same.recorded, h.length hopen]
    · have hopen : (after t ops).trace.closed = false := same.closed ▸ hc
      obtain ⟨record, hslot, hfirst⟩ := h.filled hopen i (same.recorded ▸ hi)
      exact ⟨record, by rw [same.slots hopen, hslot], hfirst.append op⟩

theorem ledger_after {t : Trace} (ht : t.Untouched) (ops : List TraceOp) : Ledger t ops := by
  induction ops using List.reverseRecOn with
  | nil => exact ledger_nil ht
  | append_singleton ops op ih => exact ledger_concat ih op

/-! ### Completion -/

/-- Either an operation ends the last open span and reports the trace complete, or it does neither. -/
theorem completes_cases {t : Trace} {ops : List TraceOp} (h : Ledger t ops) (op : TraceOp) :
    (∃ i ending span recording, op = .finish i ending ∧ (after t ops).handles[i]? = some span ∧
      span.recording = some recording ∧ Completes (after t ops) op ∧
      (after t ops).unfinished = 1 ∧ (after t (ops ++ [op])).unfinished = 0 ∧
      (after t (ops ++ [op])).trace.slots =
        (after t ops).trace.slots.set i (some (ending.record recording))) ∨
    (¬ Completes (after t ops) op ∧
      ((after t ops).unfinished = 0 ∨ 0 < (after t (ops ++ [op])).unfinished)) := by
  have hcount := h.openSpans
  cases step_effect (after t ops) op with
  | detached span hclosed _ hs =>
    refine .inr ⟨fun hc => ?_, .inl (h.closed hclosed)⟩
    rw [Completes, hs] at hc
    exact absurd hc (by simp)
  | opened span root _ hspan hs =>
    obtain ⟨-, hun⟩ := unfinished_append (congrArg handles hs)
    rw [← after_concat, hspan] at hun
    refine .inr ⟨fun hc => ?_, .inr (by rw [hun]; simp)⟩
    rw [Completes, hs] at hc
    exact absurd hc (by simp)
  | ended span recording hspan hrec hs =>
    next i ending =>
    have hs' := hs
    rw [← after_concat] at hs'
    obtain ⟨-, hslot, -, hun⟩ := ended_facts h hspan hrec (congrArg handles hs')
    have htrace := congrArg TraceRun.trace hs'
    have hcompl := congrArg TraceRun.completions hs
    rw [hslot] at htrace hcompl
    by_cases hone : (after t ops).trace.openSpans = 1
    · rw [closeSpan_of_one hone] at htrace hcompl
      exact .inl ⟨i, ending, span, recording, rfl, hspan, hrec, hcompl, by omega, by omega,
        by rw [htrace]⟩
    · rw [closeSpan_of_two_le (by omega)] at hcompl
      refine .inr ⟨fun hc => ?_, .inr (by omega)⟩
      rw [Completes, hcompl] at hc
      exact absurd hc (by simp)
  | quiet _ _ same =>
    have hun : (after t (ops ++ [op])).unfinished = (after t ops).unfinished := by
      rw [after_concat, unfinished_eq, unfinished_eq, same.recorded]
    refine .inr ⟨fun hc => ?_, by omega⟩
    rw [Completes, same.completions] at hc
    omega

theorem completes_iff {t : Trace} {ops : List TraceOp} (h : Ledger t ops) (op : TraceOp) :
    Completes (after t ops) op ↔
      0 < (after t ops).unfinished ∧ (after t (ops ++ [op])).unfinished = 0 := by
  rcases completes_cases h op with ⟨_, _, _, _, _, _, _, hc, hone, hzero, _⟩ | ⟨hc, hun⟩
  · constructor
    · intro _
      exact ⟨by omega, hzero⟩
    · intro _
      exact hc
  · constructor
    · intro hcompletes
      exact absurd hcompletes hc
    · rintro ⟨hpos, hzero⟩
      omega

theorem map_some_takeSpans {t : Trace}
    (h : ∀ i < t.slots.length, ∃ record, t.slots[i]? = some (some record)) :
    t.takeSpans.1.map some = t.slots := by
  have hsome : ∀ slot ∈ t.slots, slot.isSome = true := by
    intro slot hslot
    obtain ⟨i, hi, rfl⟩ := List.getElem_of_mem hslot
    obtain ⟨record, hrecord⟩ := h i hi
    rw [List.getElem?_eq_getElem hi, Option.some.injEq] at hrecord
    rw [hrecord]
    rfl
  show (t.slots.filterMap id).map some = t.slots
  generalize t.slots = slots at hsome
  induction slots with
  | nil => rfl
  | cons slot slots ih =>
    obtain ⟨record, rfl⟩ := Option.isSome_iff_exists.mp (hsome slot List.mem_cons_self)
    have hrest := ih fun slot hslot => hsome slot (List.mem_cons_of_mem _ hslot)
    show some record :: (slots.filterMap id).map some = _
    rw [hrest]

/-- **What the receiver of a completed trace finds**: a record for every handle, as the handle had it when
it was first ended. -/
theorem takeSpans_of_completes {t : Trace} {ops : List TraceOp} (h : Ledger t ops) {op : TraceOp}
    (hc : Completes (after t ops) op) :
    (∃ i ending, op = .finish i ending) ∧
      (after t (ops ++ [op])).trace.takeSpans.1.length = (after t (ops ++ [op])).handles.length ∧
      ∀ i record, (after t (ops ++ [op])).trace.takeSpans.1[i]? = some record →
        FirstEnd t (ops ++ [op]) i record := by
  rcases completes_cases h op with
    ⟨i, ending, span, recording, rfl, hspan, hrec, -, -, hzero, hslots⟩ | ⟨hn, -⟩
  · have hset : (after t (ops ++ [.finish i ending])).handles =
        (after t ops).handles.set i { span with recording := none } := by
      rw [after_concat]
      show ((after t ops).act i ending.apply).handles = _
      rw [act_of_some hspan, SpanEnd.apply_eq]
      simp only [Span.finishWith, hrec]
    obtain ⟨hopen, -, hrecorded, -⟩ := ended_facts h hspan hrec hset
    have hlen : (after t (ops ++ [.finish i ending])).trace.slots.length =
        (after t (ops ++ [.finish i ending])).handles.length := by
      rw [hslots, List.length_set, h.length hopen, ← length_recorded, hrecorded, List.length_set]
    -- nothing records any more, so every slot is filled
    have hfilled : ∀ j < (after t (ops ++ [.finish i ending])).trace.slots.length,
        ∃ record, (after t (ops ++ [.finish i ending])).trace.slots[j]? = some (some record) ∧
          FirstEnd t (ops ++ [.finish i ending]) j record := by
      intro j hj
      rw [hlen, ← length_recorded] at hj
      rw [unfinished_eq, List.countP_eq_zero] at hzero
      have hnone := hzero _ (List.getElem_mem hj)
      rw [Option.not_isSome_iff_eq_none] at hnone
      have hjnone : (after t (ops ++ [.finish i ending])).recorded[j]? = some none := by
        rw [List.getElem?_eq_getElem hj, hnone]
      rw [hslots]
      exact filled_of_ended h hspan hrec hopen j (hrecorded ▸ hjnone)
    have hmap := map_some_takeSpans fun j hj => (hfilled j hj).imp fun _ => And.left
    refine ⟨⟨i, ending, rfl⟩, by rw [← hlen, ← hmap, List.length_map], fun j record hj => ?_⟩
    have hslot : (after t (ops ++ [.finish i ending])).trace.slots[j]? = some (some record) := by
      rw [← hmap, List.getElem?_map, hj]
      rfl
    obtain ⟨record', hslot', hfirst⟩ := hfilled j (List.getElem?_eq_some_iff.mp hslot).1
    rw [hslot, Option.some.injEq, Option.some.injEq] at hslot'
    exact hslot' ▸ hfirst
  · exact absurd hc hn

theorem start_isRecording_iff {t : Trace} {ops : List TraceOp} (h : Ledger t ops) (record : SpanRecord)
    (startTime : Option Int) (clock : Clock) :
    ∃ span, (after t (ops ++ [.start record startTime clock])).handles = (after t ops).handles ++ [span] ∧
      (span.isRecording = true ↔ (after t ops).completions = 0) := by
  rw [h.completions, after_concat]
  generalize hop : TraceOp.start record startTime clock = op
  cases step_effect (after t ops) op with
  | detached span hclosed hspan hs =>
    refine ⟨span, by rw [hs], ?_⟩
    rw [Span.isRecording_eq, Span.slot?_eq_none.mpr hspan, hclosed]
    simp
  | opened span root hopen hspan hs =>
    refine ⟨span, by rw [hs], ?_⟩
    rw [Span.isRecording_eq, hspan, hopen]
    simp
  | ended => cases hop
  | quiet hstart => exact absurd hop.symm (hstart record startTime clock)

/-- A handle records until it is ended, if the trace was not complete when it was given out. -/
theorem isRecording_iff {t : Trace} {ops : List TraceOp} (h : Ledger t ops) {i : Nat} {span : Span}
    (hspan : (after t ops).handles[i]? = some span) :
    span.isRecording = true ↔ (after t ops).completions = 0 ∧ ¬ WasEnded t ops i := by
  have hrec := recorded_of_handle hspan
  rw [Span.isRecording_eq, h.completions]
  cases hslot : span.slot? with
  | some slot =>
    rw [hslot] at hrec
    have hopen := h.isOpen hrec
    constructor
    · intro _
      refine ⟨by rw [hopen]; rfl, fun hended => ?_⟩
      rw [recorded_none_of_wasEnded hended] at hrec
      cases hrec
    · intro _
      rfl
  | none =>
    rw [hslot] at hrec
    constructor
    · intro hrecords
      cases hrecords
    · rintro ⟨hzero, hended⟩
      have hopen : (after t ops).trace.closed = false := by simpa using hzero
      obtain ⟨record, -, hfirst⟩ := h.filled hopen i hrec
      exact absurd hfirst.wasEnded hended

/-- **Exactly-once completion without loss.** After every run of operations on an untouched trace: it was
reported complete at most once; an operation reports it exactly if it ends the last span that is open; the
receiver then finds as many records as spans were started, the one at place `i` being what handle `i` had
when it was first ended; spans started from then on, and only those, record nothing; before that a span is
open as long as it was not ended; and no operation through a handle that does not record changes the
trace. -/
theorem completion_exactly_once {t : Trace} (ht : t.Untouched) (ops : List TraceOp) :
    (after t ops).completions ≤ 1 ∧
    (∀ op, Completes (after t ops) op ↔
      0 < (after t ops).unfinished ∧ (after t (ops ++ [op])).unfinished = 0) ∧
    (∀ op, Completes (after t ops) op →
      (∃ i ending, op = .finish i ending) ∧
      (after t (ops ++ [op])).trace.takeSpans.1.length = (after t (ops ++ [op])).handles.length ∧
      ∀ i record, (after t (ops ++ [op])).trace.takeSpans.1[i]? = some record →
        FirstEnd t (ops ++ [op]) i record) ∧
    (∀ record startTime clock, ∃ span,
      (after t (ops ++ [.start record startTime clock])).handles = (after t ops).handles ++ [span] ∧
      (span.isRecording = true ↔ (after t ops).completions = 0)) ∧
    (∀ i span, (after t ops).handles[i]? = some span →
      (span.isRecording = true ↔ (after t ops).completions = 0 ∧ ¬ WasEnded t ops i)) ∧
    (∀ op i span, op.handle? = some i → (after t ops).handles[i]? = some span →
      span.isRecording = false → (after t (ops ++ [op])).trace = (after t ops).trace) := by
  have h := ledger_after ht ops
  refine ⟨?_, completes_iff h, fun op hc => takeSpans_of_completes h hc, start_isRecording_iff h,
    fun i span hspan => isRecording_iff h hspan, fun op i span hop hspan hrec => ?_⟩
  · rw [h.completions]
    exact Bool.toNat_le _
  · rw [after_concat, step_of_not_recording op hop hspan]
    simpa [Span.isRecording] using hrec

/-- A span of the given number that starts at time zero. -/
def plainStart (n : Nat) : TraceOp :=
  .start (.new (.ofNat 1) (.ofNat n) none "op" "svc" 0) none ⟨0, 0⟩

/-- A root and a child; the child ends twice, then the root ends. -/
theorem completion_exactly_once_child_twice :
    let t := Trace.new (.ofNat 1)
    let ops := [plainStart 1, plainStart 2, .finish 1 (.at 5), .change 0 (.error true),
      .finish 1 (.drop ⟨7, 7⟩)]
    t.Untouched ∧ Completes (after t ops) (.finish 0 (.now ⟨9, 9⟩)) ∧
      (after t (ops ++ [.finish 0 (.now ⟨9, 9⟩)])).trace.takeSpans.1.length = 2 ∧
      (after t (ops ++ [.finish 1 (.now ⟨9, 9⟩)])).trace = (after t ops).trace := by
  intro t ops
  have ht : t.Untouched := .fresh _
  have hc : Completes (after t ops) (.finish 0 (.now ⟨9, 9⟩)) := rfl
  obtain ⟨-, -, htake, -, -, hdead⟩ := completion_exactly_once ht ops
  exact ⟨ht, hc, (htake _ hc).2.1, hdead (.finish 1 (.now ⟨9, 9⟩)) 1 _ rfl rfl rfl⟩

end Tracing.TraceRun
