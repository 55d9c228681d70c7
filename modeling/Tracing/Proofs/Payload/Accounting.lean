import Mathlib
import Tracing.Proofs.Payload.Sizes

/-!
# The packer's account

A packer splits traces into chunks, hands chunks out together, and keeps one number: how many traces it
still owes. An `Account` writes down beside it what was added and what was taken. Everything a user of the
packer wants to know follows from one law, `Balanced`: the chunks taken so far followed by those that are
queued are the chunks of the traces added, and the number owed counts the queued chunks that end a trace.

* `chunksOf_marks`: a trace with anything to queue has exactly one chunk that ends it, the last one;
* `countP_rest`: wherever the chunks of some traces are cut in two, the second part holds the ends of those
  traces whose last span is in it;
* `account_balanced`: spans and traces are accounted for, however a packer is used.
-/

namespace Tracing.Packer

/-! ### The end of a trace -/

variable {limit : Nat}

theorem place_unmarked {chunks : List Chunk} (h : ∀ chunk ∈ chunks, chunk.completesTrace = false)
    (span : String) : ∀ chunk ∈ place limit chunks span, chunk.completesTrace = false := by
  intro chunk hchunk
  unfold place at hchunk
  split at hchunk
  · next last earlier =>
    obtain ⟨hlast, hearlier⟩ := List.forall_mem_cons.mp h
    split at hchunk
    · rcases List.mem_cons.mp hchunk with rfl | hchunk
      · exact hlast
      · exact hearlier chunk hchunk
    · rcases List.mem_cons.mp hchunk with rfl | hchunk
      · rfl
      · exact h chunk hchunk
  · rw [List.mem_singleton.mp hchunk]
    rfl

theorem foldl_place_unmarked (spans : List String) {chunks : List Chunk}
    (h : ∀ chunk ∈ chunks, chunk.completesTrace = false) :
    ∀ chunk ∈ spans.foldl (place limit) chunks, chunk.completesTrace = false := by
  induction spans generalizing chunks with
  | nil => exact h
  | cons span rest ih => exact ih (place_unmarked h span)

theorem chunksOf_filled (spans : List String) : ∀ chunk ∈ chunksOf limit spans, chunk.spans ≠ [] := by
  have marked : ∀ chunks : List Chunk, (∀ chunk ∈ chunks, chunk.spans ≠ []) →
      ∀ chunk ∈ complete chunks, chunk.spans ≠ [] := by
    intro chunks h
    cases chunks with
    | nil => exact h
    | cons last earlier => exact List.forall_mem_cons.mpr (List.forall_mem_cons.mp h)
  intro chunk hchunk
  refine marked _ (fun placed hplaced => ?_) chunk (List.mem_reverse.mp hchunk)
  simpa using (List.mem_filter.mp hplaced).2

theorem chunksOf_eq_nil {spans : List String} : chunksOf limit spans = [] ↔ spans = [] := by
  have hspans := chunksOf_spans limit spans
  constructor
  · intro h
    rw [h] at hspans
    exact hspans.symm
  · intro h
    rw [h] at hspans
    refine List.eq_nil_iff_forall_not_mem.mpr fun chunk hchunk => ?_
    exact chunksOf_filled spans chunk hchunk (List.flatMap_eq_nil_iff.mp (h ▸ hspans) chunk (h ▸ hchunk))

/-- **Only the last chunk of a trace ends it.** -/
theorem chunksOf_marks {spans : List String} (h : spans ≠ []) :
    ∃ earlier last, chunksOf limit spans = earlier ++ [last] ∧ last.completesTrace = true ∧
      ∀ chunk ∈ earlier, chunk.completesTrace = false := by
  have hunmarked := @foldl_place_unmarked limit spans [{}] (List.forall_mem_singleton.mpr rfl)
  have hne : chunksOf limit spans ≠ [] := fun hnil => h (chunksOf_eq_nil.mp hnil)
  unfold chunksOf at hne ⊢
  cases hplaced : (spans.foldl (place limit) [{}]).filter fun chunk => !chunk.spans.isEmpty with
  | nil =>
    rw [hplaced] at hne
    exact absurd rfl hne
  | cons last earlier =>
    refine ⟨earlier.reverse, { last with completesTrace := true }, List.reverse_cons, rfl, ?_⟩
    intro chunk hchunk
    have hmem : chunk ∈ last :: earlier := List.mem_cons_of_mem _ (List.mem_reverse.mp hchunk)
    rw [← hplaced] at hmem
    exact hunmarked chunk (List.mem_filter.mp hmem).1

theorem countP_suffix {spans : List String} {before after : List Chunk}
    (h : before ++ after = chunksOf limit spans) :
    after.countP Chunk.completesTrace = if after = [] then 0 else 1 := by
  by_cases hafter : after = []
  · simp [hafter]
  · have hspans : spans ≠ [] := by
      intro hnil
      rw [chunksOf_eq_nil.mpr hnil] at h
      exact hafter (List.append_eq_nil_iff.mp h).2
    obtain ⟨earlier, last, hchunks, hlast, hearlier⟩ := @chunksOf_marks limit spans hspans
    obtain ⟨mid, final, rfl⟩ := List.eq_nil_or_concat after |>.resolve_left hafter
    rw [hchunks, List.concat_eq_append, ← List.append_assoc] at h
    obtain ⟨hmid, hfinal⟩ := List.append_inj' h rfl
    rw [List.singleton_inj] at hfinal
    have hnone : mid.countP Chunk.completesTrace = 0 := by
      rw [List.countP_eq_zero]
      intro chunk hchunk
      simp [hearlier chunk (hmid ▸ List.mem_append_right _ hchunk)]
    rw [List.concat_eq_append, List.countP_append, hnone, hfinal]
    simp [hlast]

theorem countP_chunksOf (spans : List String) :
    (chunksOf limit spans).countP Chunk.completesTrace = if spans = [] then 0 else 1 := by
  have hall := countP_suffix (List.nil_append (chunksOf limit spans))
  simpa only [chunksOf_eq_nil] using hall

/-- A payload takes its chunks from the front of the queue, and is no longer owed what ends in it. -/
theorem nextPayload_chunks {p q : Packer} {payload : Payload} (h : p.nextPayload = some (payload, q)) :
    p.queue = payload.chunks ++ q.queue ∧ q.pendingTraces = p.pendingTraces - payload.traceCount ∧
      q.maxBytes = p.maxBytes ∧ q.maxValueLength = p.maxValueLength := by
  unfold nextPayload at h
  split at h
  · cases h
  · next first rest hqueue =>
    obtain ⟨rfl, rfl⟩ := Prod.mk.inj (Option.some.inj h)
    refine ⟨?_, rfl, rfl, rfl⟩
    rw [hqueue, List.cons_append, takeFitting_append]

/-! ### Traces that are still owed -/

/-- The trace at place `i` has queued spans, and the last of them is not among the first `handed` of all
spans queued. -/
def Owed (traces : List (List String)) (handed i : Nat) : Prop :=
  traces.getD i [] ≠ [] ∧ handed < (traces.take (i + 1)).flatten.length

instance (traces : List (List String)) (handed i : Nat) : Decidable (Owed traces handed i) :=
  inferInstanceAs (Decidable (_ ∧ _))

/-- The number of traces that are still owed. -/
def owedCount (traces : List (List String)) (handed : Nat) : Nat :=
  (List.range traces.length).countP fun i => Owed traces handed i

theorem owedCount_concat (traces : List (List String)) (spans : List String) (handed : Nat) :
    owedCount (traces ++ [spans]) handed = owedCount traces handed +
      if spans ≠ [] ∧ handed < traces.flatten.length + spans.length then 1 else 0 := by
  have hearlier : (List.range traces.length).countP (fun i => Owed (traces ++ [spans]) handed i) =
      owedCount traces handed := by
    refine List.countP_congr fun i hi => ?_
    have hlt : i < traces.length := List.mem_range.mp hi
    simp only [decide_eq_true_eq, Owed, List.getD_eq_getElem?_getD, List.getElem?_append_left hlt,
      List.take_append_of_le_length (Nat.succ_le_of_lt hlt)]
  have hlast : Owed (traces ++ [spans]) handed traces.length ↔
      spans ≠ [] ∧ handed < traces.flatten.length + spans.length := by
    unfold Owed
    rw [List.take_of_length_le (by simp)]
    simp
  unfold owedCount at hearlier ⊢
  rw [List.length_append, List.length_singleton, List.range_succ, List.countP_append, hearlier]
  simp only [List.countP_singleton, decide_eq_true_eq, hlast]

theorem owedCount_of_le {traces : List (List String)} {handed : Nat} (h : traces.flatten.length ≤ handed) :
    owedCount traces handed = 0 := by
  unfold owedCount
  rw [List.countP_eq_zero]
  intro i _ howed
  obtain ⟨-, hlt⟩ := of_decide_eq_true howed
  have hsplit : (traces.take (i + 1)).flatten.length + (traces.drop (i + 1)).flatten.length =
      traces.flatten.length := by
    rw [← List.length_append, ← List.flatten_append, List.take_append_drop]
  omega

theorem spansOf_chunksOf (traces : List (List String)) :
    spansOf (traces.flatMap (chunksOf limit)) = traces.flatten := by
  unfold spansOf
  rw [List.flatMap_assoc, List.flatten_eq_flatMap]
  exact congrArg₂ _ (funext fun trace => chunksOf_spans limit trace) rfl

/-- **Cutting the chunks of some traces in two leaves the ends of the owed ones behind.** -/
theorem countP_rest (traces : List (List String)) {before after : List Chunk}
    (h : before ++ after = traces.flatMap (chunksOf limit)) :
    after.countP Chunk.completesTrace = owedCount traces (spansOf before).length := by
  induction traces using List.reverseRecOn generalizing before after with
  | nil =>
    obtain ⟨rfl, rfl⟩ := List.append_eq_nil_iff.mp h
    rfl
  | append_singleton traces spans ih =>
    rw [List.flatMap_append, List.flatMap_singleton] at h
    rw [owedCount_concat]
    have hall := @spansOf_chunksOf limit traces
    -- the cut is in the chunks of the last trace, or it leaves all of them
    rcases List.append_eq_append_iff.mp h with ⟨mid, hmid, hafter⟩ | ⟨mid, hbefore, hmid⟩
    · have hle : (spansOf before).length ≤ traces.flatten.length := by
        rw [← hall, hmid, spansOf_append, List.length_append]
        omega
      rw [hafter, List.countP_append, ih hmid.symm, countP_chunksOf]
      congr 1
      by_cases hspans : spans = []
      · simp [hspans]
      · have hpos := List.length_pos_iff.mpr hspans
        rw [if_neg hspans, if_pos ⟨hspans, by omega⟩]
    · have hlen : (spansOf before).length = traces.flatten.length + (spansOf mid).length := by
        rw [hbefore, spansOf_append, hall, List.length_append]
      have hsplit : (spansOf mid).length + (spansOf after).length = spans.length := by
        rw [← List.length_append, ← spansOf_append, ← hmid, chunksOf_spans]
      have hiff : (spans ≠ [] ∧ (spansOf before).length < traces.flatten.length + spans.length) ↔
          after ≠ [] := by
        constructor
        · rintro ⟨-, hlt⟩ rfl
          simp only [spansOf_nil, List.length_nil] at hsplit
          omega
        · intro hne
          obtain ⟨chunk, hchunk⟩ := List.exists_mem_of_ne_nil after hne
          have hfilled := chunksOf_filled spans chunk (hmid ▸ List.mem_append_right _ hchunk)
          have hpos : 0 < (spansOf after).length := by
            refine List.length_pos_iff.mpr fun hnil => hfilled ?_
            exact List.flatMap_eq_nil_iff.mp hnil chunk hchunk
          exact ⟨List.length_pos_iff.mp (by omega), by omega⟩
      rw [owedCount_of_le (by omega), countP_suffix hmid.symm, if_congr hiff rfl rfl]
      split <;> simp_all

/-! ### Accounts -/

/-- A packer with what went in and what came out, the oldest first. -/
structure Account where
  packer : Packer
  added : List (List SpanRecord) := []
  /-- How many spans of each trace were dropped. -/
  dropped : List Nat := []
  taken : List Payload := []

namespace Account

/-- Writes down one use of the packer. -/
def record (a : Account) : Use → Account
  | .add trace =>
    let (dropped, packer) := (a.packer.add trace).value
    { a with packer, added := a.added ++ [trace], dropped := a.dropped ++ [dropped] }
  | .take =>
    match a.packer.nextPayload with
    | some (payload, packer) => { a with packer, taken := a.taken ++ [payload] }
    | none => a

/-- The account of some uses of a new packer. -/
def after (maxBytes maxValueLength : Nat) (uses : List Use) : Account :=
  uses.foldl record { packer := { maxBytes, maxValueLength } }

theorem after_concat (maxBytes maxValueLength : Nat) (uses : List Use) (u : Use) :
    after maxBytes maxValueLength (uses ++ [u]) = (after maxBytes maxValueLength uses).record u :=
  List.foldl_concat _ _ _ _

end Account

/-- The encodings of the spans of a trace. -/
def encodings (maxValueLength : Nat) (trace : List SpanRecord) : List String :=
  trace.map fun r => encodeSpan r maxValueLength

/-- Whether an encoded span is longer than the limit minus the two brackets. -/
def isTooLong (maxBytes : Nat) (span : String) : Bool := maxBytes - 2 < span.utf8ByteSize

/-- The encodings of the spans of a trace that are not too long. -/
def packable (maxBytes maxValueLength : Nat) (trace : List SpanRecord) : List String :=
  (encodings maxValueLength trace).filter fun span => !isTooLong maxBytes span

variable {maxBytes maxValueLength : Nat}

theorem isTooLong_encodeSpan (r : SpanRecord) :
    isTooLong maxBytes (encodeSpan r maxValueLength) = !decide (Fits maxBytes (encodeSpan r maxValueLength)) := by
  have hfits := fits_iff { maxBytes, maxValueLength } r
  unfold limit at hfits
  simp only [isTooLong, hfits, ← decide_not, Nat.not_le]

theorem packable_eq (trace : List SpanRecord) :
    packable maxBytes maxValueLength trace = encodable maxBytes maxValueLength trace := by
  unfold packable encodings encodable
  refine List.filter_congr fun span hspan => ?_
  obtain ⟨r, -, rfl⟩ := List.mem_map.mp hspan
  rw [isTooLong_encodeSpan, Bool.not_not]

theorem length_packable (trace : List SpanRecord) :
    trace.length - (packable maxBytes maxValueLength trace).length =
      (encodings maxValueLength trace).countP (isTooLong maxBytes) := by
  have hlen := List.length_eq_countP_add_countP (isTooLong maxBytes) (l := encodings maxValueLength trace)
  have hall : (encodings maxValueLength trace).length = trace.length := List.length_map _
  unfold packable
  rw [← List.countP_eq_length_filter]
  simp only [decide_not, Bool.decide_eq_true] at hlen
  omega

/-! ### The balance -/

/-- **The law of the account.** -/
structure Balanced (maxBytes maxValueLength : Nat) (a : Account) : Prop where
  maxBytes_eq : a.packer.maxBytes = maxBytes
  maxValueLength_eq : a.packer.maxValueLength = maxValueLength
  dropped : a.dropped = a.added.map fun trace =>
    (encodings maxValueLength trace).countP (isTooLong maxBytes)
  chunks : a.taken.flatMap Payload.chunks ++ a.packer.queue =
    (a.added.map (packable maxBytes maxValueLength)).flatMap (chunksOf (maxBytes - 2))
  pending : a.packer.pendingTraces = a.packer.queue.countP Chunk.completesTrace

theorem balanced_add {a : Account} (h : Balanced maxBytes maxValueLength a) (trace : List SpanRecord) :
    Balanced maxBytes maxValueLength (a.record (.add trace)) := by
  obtain ⟨hbytes, hlength, hdropped, hchunks, hpending⟩ := h
  have hspans : (a.packer.encodeAll trace).value = packable maxBytes maxValueLength trace := by
    rw [encodeAll_value, packable_eq, hbytes, hlength]
  have hlimit : a.packer.limit = maxBytes - 2 := by rw [limit, hbytes]
  have hrecord : a.record (.add trace) = { a with
      packer := a.packer.enqueue (packable maxBytes maxValueLength trace)
      added := a.added ++ [trace]
      dropped := a.dropped ++ [trace.length - (packable maxBytes maxValueLength trace).length] } := by
    rw [← hspans]
    rfl
  rw [hrecord]
  refine ⟨hbytes, hlength, ?_, ?_, ?_⟩
  · rw [hdropped, length_packable, List.map_append, List.map_singleton]
  · show a.taken.flatMap Payload.chunks ++ (a.packer.queue ++ chunksOf a.packer.limit _) = _
    rw [← List.append_assoc, hchunks, hlimit, List.map_append, List.flatMap_append, List.map_singleton,
      List.flatMap_singleton]
  · show (if (chunksOf a.packer.limit _).isEmpty then _ else _) =
      (a.packer.queue ++ chunksOf a.packer.limit _).countP Chunk.completesTrace
    rw [List.countP_append, countP_chunksOf, hpending]
    simp only [List.isEmpty_iff, chunksOf_eq_nil]
    split <;> rfl

theorem balanced_take {a : Account} (h : Balanced maxBytes maxValueLength a) :
    Balanced maxBytes maxValueLength (a.record .take) := by
  cases hnext : a.packer.nextPayload with
  | none =>
    have hrecord : a.record .take = a := by simp only [Account.record, hnext]
    rwa [hrecord]
  | some next =>
    obtain ⟨payload, q⟩ := next
    obtain ⟨hqueue, howed, hqbytes, hqlength⟩ := nextPayload_chunks hnext
    have hrecord : a.record .take = { a with packer := q, taken := a.taken ++ [payload] } := by
      simp only [Account.record, hnext]
    rw [hrecord]
    refine ⟨hqbytes.trans h.maxBytes_eq, hqlength.trans h.maxValueLength_eq, h.dropped, ?_, ?_⟩
    · have hchunks := h.chunks
      rw [hqueue, ← List.append_assoc] at hchunks
      simpa using hchunks
    · show q.pendingTraces = q.queue.countP Chunk.completesTrace
      rw [howed, h.pending, hqueue, List.countP_append, Payload.traceCount, Nat.add_sub_cancel_left]

theorem balanced_after (uses : List Use) :
    Balanced maxBytes maxValueLength (.after maxBytes maxValueLength uses) := by
  induction uses using List.reverseRecOn with
  | nil => exact ⟨rfl, rfl, rfl, rfl, rfl⟩
  | append_singleton uses u ih =>
    rw [Account.after_concat]
    cases u with
    | add trace => exact balanced_add ih trace
    | take => exact balanced_take ih

/-! ### What follows from the balance -/

theorem spansOf_taken (payloads : List Payload) :
    spansOf (payloads.flatMap Payload.chunks) = (payloads.map Payload.spans).flatten := by
  unfold spansOf
  rw [List.flatMap_assoc, List.flatMap_def]
  rfl

theorem sum_traceCount (payloads : List Payload) :
    (payloads.map Payload.traceCount).sum = (payloads.flatMap Payload.chunks).countP Chunk.completesTrace := by
  rw [List.countP_flatMap]
  rfl

theorem countP_flatMap_chunksOf (traces : List (List String)) :
    (traces.flatMap (chunksOf limit)).countP Chunk.completesTrace =
      traces.countP fun spans => spans ≠ [] := by
  induction traces with
  | nil => rfl
  | cons spans traces ih =>
    rw [List.flatMap_cons, List.countP_append, ih, countP_chunksOf, List.countP_cons]
    by_cases hspans : spans = []
    · simp [hspans]
    · simp [hspans, Nat.add_comm]

/-- The traces counted in payloads and those pending are all traces with anything queued. -/
theorem Balanced.traces {a : Account} (h : Balanced maxBytes maxValueLength a) :
    (a.taken.map Payload.traceCount).sum + a.packer.pendingTraces =
      (a.added.map (packable maxBytes maxValueLength)).countP fun spans => spans ≠ [] := by
  rw [sum_traceCount, h.pending, ← List.countP_append, h.chunks, countP_flatMap_chunksOf]

/-- **Spans and traces are accounted for.** However a packer was used, with whatever limits: a trace that is
added loses exactly its spans that are too long. The payloads taken so far are arrays of spans; these spans
followed by those that are still queued are the remaining spans of all traces, in order. The traces pending
are those whose last queued span is in no payload yet, and together with the traces counted in payloads they
are all traces with anything queued. -/
theorem account_balanced (maxBytes maxValueLength : Nat) (uses : List Use) :
    let a := Account.after maxBytes maxValueLength uses
    let traces := a.added.map (packable maxBytes maxValueLength)
    a.dropped = a.added.map (fun trace =>
      (encodings maxValueLength trace).countP (isTooLong maxBytes)) ∧
    (∃ packed : List (List String),
      a.taken.map Payload.body =
        packed.map (fun spans => "[" ++ String.intercalate "," spans ++ "]") ∧
      a.taken.map Payload.spanCount = packed.map List.length ∧
      packed.flatten ++ spansOf a.packer.queue = traces.flatten ∧
      a.packer.pendingTraces = owedCount traces packed.flatten.length) ∧
    (a.taken.map Payload.traceCount).sum + a.packer.pendingTraces =
      traces.countP fun spans => spans ≠ [] := by
  intro a traces
  have h : Balanced maxBytes maxValueLength a := balanced_after uses
  refine ⟨h.dropped, ⟨a.taken.map Payload.spans, ?_, ?_, ?_, ?_⟩, h.traces⟩
  · rw [List.map_map]
    rfl
  · rw [List.map_map]
    rfl
  · rw [← spansOf_taken, ← spansOf_append, h.chunks, spansOf_chunksOf]
  · rw [h.pending, ← spansOf_taken]
    exact countP_rest traces h.chunks

/-- A trace of three spans, two of which fill a payload, is pending until its third span is handed out. -/
example :
    let trace := [1, 2, 3].map fun n => SpanRecord.new (.ofNat 1) (.ofNat n) none "op" "svc" 0
    let pending (uses : List Use) := (Account.after 285 100 (.add trace :: uses)).packer.pendingTraces
    pending [.take] = 1 ∧ pending [.take, .take] = 0 := by decide +kernel

end Tracing.Packer
