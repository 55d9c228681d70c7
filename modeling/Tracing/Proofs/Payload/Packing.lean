import Tracing.Payload.Packer

/-!
# Packing loses nothing

Packing decides how spans are distributed over payloads, never which spans are sent or in which order:

* `encodeAll_value`: exactly the spans that fit into a payload of their own are queued (`fits_iff`);
* `chunksOf_spans`: the chunks of a trace hold its spans in order;
* `nextPayload_spans`: a payload takes its spans from the front of the queue.
-/

namespace Tracing

/-! ### Spans that fit -/

/-- Whether a payload of at most `maxBytes` bytes has room for an encoded span and nothing else. -/
def Fits (maxBytes : Nat) (span : String) : Prop :=
  (Payload.mk [{ spans := [span] }]).size ≤ maxBytes

instance (maxBytes : Nat) (span : String) : Decidable (Fits maxBytes span) :=
  inferInstanceAs (Decidable (_ ≤ _))

theorem Payload.size_single (span : String) :
    (Payload.mk [{ spans := [span] }]).size = span.utf8ByteSize + 2 := by
  have hbody : (Payload.mk [{ spans := [span] }]).body = "[" ++ span ++ "]" := by
    simp [Payload.body, Payload.spans]
  unfold Payload.size
  rw [hbody, String.utf8ByteSize_append, String.utf8ByteSize_append]
  show 1 + span.utf8ByteSize + 1 = _
  omega

theorem utf8ByteSize_encodeSpan_pos (r : SpanRecord) (length : Nat) :
    0 < (encodeSpan r length).utf8ByteSize := by
  have hchars : (encodeSpan r length).toList.head? = some '\x7b' := by
    simp [encodeSpan, Json.text, ZipkinSpan.toJson, Json.write]
  refine Nat.pos_of_ne_zero fun h => ?_
  rw [String.utf8ByteSize_eq_zero_iff] at h
  rw [h] at hchars
  cases hchars

/-- The encoded spans of a trace that can be exported at all. -/
def encodable (maxBytes maxValueLength : Nat) (trace : List SpanRecord) : List String :=
  (trace.map fun r => encodeSpan r maxValueLength).filter fun span => Fits maxBytes span

namespace Packer

theorem fits_iff (p : Packer) (r : SpanRecord) :
    Fits p.maxBytes (encodeSpan r p.maxValueLength) ↔
      (encodeSpan r p.maxValueLength).utf8ByteSize ≤ p.limit := by
  have hpos := utf8ByteSize_encodeSpan_pos r p.maxValueLength
  unfold Fits limit
  rw [Payload.size_single]
  omega

/-- **Exactly the spans that fit are encoded.** -/
theorem encodeAll_value (p : Packer) (trace : List SpanRecord) :
    (p.encodeAll trace).value = encodable p.maxBytes p.maxValueLength trace := by
  induction trace with
  | nil => rfl
  | cons r rest ih =>
    have hfits := p.fits_iff r
    unfold encodable at ih ⊢
    rw [encodeAll]
    split
    · next hlarge =>
      have hno : ¬ Fits p.maxBytes (encodeSpan r p.maxValueLength) := by rw [hfits]; omega
      simp [ih, hno]
    · next hsmall =>
      have hyes : Fits p.maxBytes (encodeSpan r p.maxValueLength) := by rw [hfits]; omega
      simp [ih, hyes]

/-! ### Chunks of a trace -/

/-- The spans held by a list of chunks. -/
def spansOf (chunks : List Chunk) : List String := chunks.flatMap Chunk.spans

@[simp] theorem spansOf_nil : spansOf [] = [] := rfl

@[simp] theorem spansOf_cons (chunk : Chunk) (chunks : List Chunk) :
    spansOf (chunk :: chunks) = chunk.spans ++ spansOf chunks := rfl

@[simp] theorem spansOf_append (chunks later : List Chunk) :
    spansOf (chunks ++ later) = spansOf chunks ++ spansOf later := List.flatMap_append

theorem spansOf_filter (chunks : List Chunk) :
    spansOf (chunks.filter fun chunk => !chunk.spans.isEmpty) = spansOf chunks := by
  induction chunks with
  | nil => rfl
  | cons chunk chunks ih =>
    rw [List.filter_cons]
    split
    · rw [spansOf_cons, ih, spansOf_cons]
    · next hempty =>
      have hspans : chunk.spans = [] := by simpa using hempty
      rw [ih, spansOf_cons, hspans, List.nil_append]

theorem complete_spans (chunks : List Chunk) :
    spansOf (complete chunks).reverse = spansOf chunks.reverse := by
  cases chunks <;> simp [complete]

theorem place_spans (limit : Nat) (chunks : List Chunk) (span : String) :
    spansOf (place limit chunks span).reverse = spansOf chunks.reverse ++ [span] := by
  unfold place
  split
  · split <;> simp [Chunk.push]
  · rfl

theorem foldl_place_spans (limit : Nat) (spans : List String) (chunks : List Chunk) :
    spansOf (spans.foldl (place limit) chunks).reverse = spansOf chunks.reverse ++ spans := by
  induction spans generalizing chunks with
  | nil => simp
  | cons span spans ih => rw [List.foldl_cons, ih, place_spans, List.append_assoc, List.singleton_append]

/-- **The chunks of a trace hold its spans in order.** -/
theorem chunksOf_spans (limit : Nat) (spans : List String) : spansOf (chunksOf limit spans) = spans := by
  unfold chunksOf
  rw [complete_spans, ← List.filter_reverse, spansOf_filter, foldl_place_spans]
  rfl

theorem enqueue_spans (p : Packer) (spans : List String) :
    spansOf (p.enqueue spans).queue = spansOf p.queue ++ spans := by
  show spansOf (p.queue ++ chunksOf p.limit spans) = _
  rw [spansOf_append, chunksOf_spans]

/-! ### Payloads -/

theorem takeFitting_append (limit size : Nat) (chunks : List Chunk) :
    (takeFitting limit size chunks).1 ++ (takeFitting limit size chunks).2 = chunks := by
  induction chunks generalizing size with
  | nil => rfl
  | cons chunk rest ih =>
    unfold takeFitting
    split
    · simpa using ih _
    · rfl

theorem nextPayload_eq_none {p : Packer} : p.nextPayload = none ↔ p.queue = [] := by
  unfold nextPayload
  split <;> simp_all

/-- **A payload takes its spans from the front of the queue.** -/
theorem nextPayload_spans {p q : Packer} {payload : Payload} (h : p.nextPayload = some (payload, q)) :
    spansOf p.queue = payload.spans ++ spansOf q.queue ∧
      q.maxBytes = p.maxBytes ∧ q.maxValueLength = p.maxValueLength := by
  unfold nextPayload at h
  split at h
  · cases h
  · next first rest hqueue =>
    obtain ⟨rfl, rfl⟩ := Prod.mk.inj (Option.some.inj h)
    refine ⟨?_, rfl, rfl⟩
    calc spansOf p.queue
        = spansOf (first :: (takeFitting p.limit (first.joinedSize true) rest).1
            ++ (takeFitting p.limit (first.joinedSize true) rest).2) := by
          rw [hqueue, List.cons_append, takeFitting_append]
      _ = _ := spansOf_append _ _

theorem length_nextPayload {p q : Packer} {payload : Payload} (h : p.nextPayload = some (payload, q)) :
    q.queue.length < p.queue.length := by
  unfold nextPayload at h
  split at h
  · cases h
  · next first rest hqueue =>
    obtain ⟨-, rfl⟩ := Prod.mk.inj (Option.some.inj h)
    have hsplit := congrArg List.length (takeFitting_append p.limit (first.joinedSize true) rest)
    rw [List.length_append] at hsplit
    rw [hqueue, List.length_cons]
    show (takeFitting p.limit (first.joinedSize true) rest).2.length < _
    omega

end Packer

end Tracing
