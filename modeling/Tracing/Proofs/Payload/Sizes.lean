import Mathlib.Data.List.Chain
import Tracing.Proofs.Payload.Packing

/-!
# Payloads stay below the limit

Sizes are reckoned with in three places: a chunk counts its spans and commas as they are added (`push`), a
span is added where there is room for it (`hasRoom`), and a payload takes chunks until the next one, with a
comma in front, exceeds the limit (`takeFitting`). All three count the bytes of the joined text
(`textSize`):

* `Chunk.Counted`: a chunk in the making knows the size of its text, which fits into a payload;
* `Piled`: the chunks of a trace are counted and not empty, and neighbours do not fit together;
* `Sound`: every chunk that is queued is counted and not empty, whatever was added and taken before;
* `takeFitting_size`: the text of the chunks that are taken together fits into a payload;
* `chunksOf_single`: a trace that fits into a payload is one chunk.
-/

namespace Tracing

open Packer (spansOf spansOf_nil spansOf_cons)

/-- The size of the text of encoded spans, with commas between them. -/
def textSize (spans : List String) : Nat := (String.intercalate "," spans).utf8ByteSize

theorem textSize_singleton (span : String) : textSize [span] = span.utf8ByteSize := by
  unfold textSize
  rw [String.intercalate_singleton]

theorem textSize_append {spans later : List String} (h : spans ≠ []) (h' : later ≠ []) :
    textSize (spans ++ later) = textSize spans + 1 + textSize later := by
  have hcomma : ",".utf8ByteSize = 1 := by decide
  unfold textSize
  rw [String.intercalate_append_of_ne_nil h h', String.utf8ByteSize_append,
    String.utf8ByteSize_append, hcomma]

theorem textSize_pos {spans : List String} (h : spans ≠ []) (hpos : ∀ span ∈ spans, 0 < span.utf8ByteSize) :
    0 < textSize spans := by
  obtain ⟨span, rest, rfl⟩ := List.exists_cons_of_ne_nil h
  have hspan := hpos span List.mem_cons_self
  by_cases hrest : rest = []
  · rw [hrest, textSize_singleton]
    exact hspan
  · have happend := textSize_append (List.cons_ne_nil span []) hrest
    rw [textSize_singleton] at happend
    change 0 < textSize ([span] ++ rest)
    omega

theorem textSize_le_append (spans later : List String) : textSize spans ≤ textSize (spans ++ later) := by
  by_cases hspans : spans = []
  · simp [hspans, textSize]
  · by_cases hlater : later = []
    · simp [hlater]
    · rw [textSize_append hspans hlater]
      omega

theorem textSize_le_append_left (spans later : List String) : textSize later ≤ textSize (spans ++ later) := by
  by_cases hspans : spans = []
  · simp [hspans]
  · by_cases hlater : later = []
    · simp [hlater, textSize]
    · rw [textSize_append hspans hlater]
      omega

theorem Payload.size_eq (payload : Payload) : payload.size = textSize payload.spans + 2 := by
  have hopen : "[".utf8ByteSize = 1 := by decide
  have hclose : "]".utf8ByteSize = 1 := by decide
  unfold Payload.size Payload.body textSize
  rw [String.utf8ByteSize_append, String.utf8ByteSize_append, hopen, hclose]
  omega

/-! ### Chunks -/

namespace Chunk

/-- What holds of a chunk in the making. -/
structure Counted (limit : Nat) (chunk : Chunk) : Prop where
  size : chunk.size = textSize chunk.spans
  fits : chunk.size ≤ limit
  spans : ∀ span ∈ chunk.spans, 0 < span.utf8ByteSize

/-- What holds of a chunk that is queued. -/
structure Queued (limit : Nat) (chunk : Chunk) : Prop extends Counted limit chunk where
  filled : chunk.spans ≠ []

variable {limit : Nat} {chunk : Chunk} {span : String}

theorem counted_empty : Counted limit {} := ⟨rfl, Nat.zero_le _, fun _ h => absurd h List.not_mem_nil⟩

theorem hasRoom_iff : chunk.hasRoom limit span = true ↔ (chunk.push span).size ≤ limit := by
  unfold hasRoom push
  simp only [decide_eq_true_eq]
  omega

theorem size_push (h : chunk.size = textSize chunk.spans) :
    (chunk.push span).size = textSize (chunk.push span).spans := by
  by_cases hempty : chunk.spans = []
  · simp [push, h, hempty, textSize]
  · have happend := textSize_append hempty (List.cons_ne_nil span [])
    rw [textSize_singleton] at happend
    simp only [push, h, happend, List.isEmpty_iff, hempty, if_false]
    omega

theorem counted_push (h : Counted limit chunk) (hroom : chunk.hasRoom limit span = true)
    (hpos : 0 < span.utf8ByteSize) : Counted limit (chunk.push span) := by
  refine ⟨size_push h.size, hasRoom_iff.mp hroom, fun s hs => ?_⟩
  rcases List.mem_append.mp hs with hs | hs
  · exact h.spans s hs
  · rw [List.mem_singleton.mp hs]
    exact hpos

/-- A chunk of its own has room for every span that fits into a payload. -/
theorem counted_single (hfits : span.utf8ByteSize ≤ limit) (hpos : 0 < span.utf8ByteSize) :
    Counted limit (push {} span) :=
  counted_push counted_empty (hasRoom_iff.mpr (by simpa [push] using hfits)) hpos

end Chunk

namespace Packer

open Chunk (Counted Queued)

variable {limit : Nat}

theorem place_counted {chunks : List Chunk} {span : String} (h : ∀ chunk ∈ chunks, Counted limit chunk)
    (hpos : 0 < span.utf8ByteSize) (hfits : span.utf8ByteSize ≤ limit) :
    ∀ chunk ∈ place limit chunks span, Counted limit chunk := by
  intro chunk hchunk
  unfold place at hchunk
  split at hchunk
  · next last earlier =>
    split at hchunk
    · next hroom =>
      rcases List.mem_cons.mp hchunk with rfl | hchunk
      · exact Chunk.counted_push (h last List.mem_cons_self) hroom hpos
      · exact h chunk (List.mem_cons_of_mem _ hchunk)
    · rcases List.mem_cons.mp hchunk with rfl | hchunk
      · exact Chunk.counted_single hfits hpos
      · exact h chunk hchunk
  · rw [List.mem_singleton.mp hchunk]
    exact Chunk.counted_single hfits hpos

theorem place_filled {chunks : List Chunk} (h : ∀ chunk ∈ chunks, chunk.spans ≠ []) (span : String) :
    ∀ chunk ∈ place limit chunks span, chunk.spans ≠ [] := by
  have hpush : ∀ chunk : Chunk, (chunk.push span).spans ≠ [] := fun chunk => by simp [Chunk.push]
  intro chunk hchunk
  unfold place at hchunk
  split at hchunk
  · next last earlier =>
    obtain ⟨-, hearlier⟩ := List.forall_mem_cons.mp h
    split at hchunk
    · rcases List.mem_cons.mp hchunk with rfl | hchunk
      · exact hpush last
      · exact hearlier chunk hchunk
    · rcases List.mem_cons.mp hchunk with rfl | hchunk
      · exact hpush {}
      · exact h chunk hchunk
  · rw [List.mem_singleton.mp hchunk]
    exact hpush {}

/-- What holds of the chunks of a trace, last first: each can be queued, and neighbours do not fit into one
payload. -/
structure Piled (limit : Nat) (chunks : List Chunk) : Prop where
  queued : ∀ chunk ∈ chunks, Queued limit chunk
  apart : chunks.IsChain fun later earlier => limit < textSize (earlier.spans ++ later.spans)

theorem piled_place {chunks : List Chunk} {span : String} (h : Piled limit chunks)
    (hpos : 0 < span.utf8ByteSize) (hfits : span.utf8ByteSize ≤ limit) : Piled limit (place limit chunks span) := by
  have hcounted := place_counted (fun chunk hchunk => (h.queued chunk hchunk).toCounted) hpos hfits
  have hfilled := @place_filled limit _ (fun chunk hchunk => (h.queued chunk hchunk).filled) span
  refine ⟨fun chunk hchunk => ⟨hcounted chunk hchunk, hfilled chunk hchunk⟩, ?_⟩
  unfold place
  split
  · next last earlier =>
    obtain ⟨hlast, hearlier⟩ := List.isChain_cons.mp h.apart
    split
    · refine List.isChain_cons.mpr ⟨fun before hbefore => ?_, hearlier⟩
      calc limit < textSize (before.spans ++ last.spans) := hlast before hbefore
        _ ≤ textSize ((before.spans ++ last.spans) ++ [span]) := textSize_le_append _ _
        _ = textSize (before.spans ++ (last.push span).spans) := by rw [List.append_assoc]; rfl
    · next hroom =>
      refine List.isChain_cons_cons.mpr ⟨?_, h.apart⟩
      rwa [Chunk.hasRoom_iff, Chunk.size_push (h.queued last List.mem_cons_self).size, Nat.not_le] at hroom
  · exact List.isChain_singleton _

theorem piled_foldl_place {spans : List String} (hpos : ∀ span ∈ spans, 0 < span.utf8ByteSize)
    (hfits : ∀ span ∈ spans, span.utf8ByteSize ≤ limit) {chunks : List Chunk} (h : Piled limit chunks) :
    Piled limit (spans.foldl (place limit) chunks) := by
  induction spans generalizing chunks with
  | nil => exact h
  | cons span rest ih =>
    rw [List.forall_mem_cons] at hpos hfits
    exact ih hpos.2 hfits.2 (piled_place h hpos.1 hfits.1)

theorem piled_complete {chunks : List Chunk} (h : Piled limit chunks) : Piled limit (complete chunks) := by
  cases chunks with
  | nil => exact h
  | cons last earlier =>
    obtain ⟨hlast, hearlier⟩ := List.forall_mem_cons.mp h.queued
    exact ⟨List.forall_mem_cons.mpr ⟨⟨⟨hlast.size, hlast.fits, hlast.spans⟩, hlast.filled⟩, hearlier⟩,
      List.isChain_cons.mpr (List.isChain_cons.mp h.apart)⟩

theorem piled_chunksOf {spans : List String} (hpos : ∀ span ∈ spans, 0 < span.utf8ByteSize)
    (hfits : ∀ span ∈ spans, span.utf8ByteSize ≤ limit) : Piled limit (chunksOf limit spans).reverse := by
  unfold chunksOf
  rw [List.reverse_reverse]
  cases spans with
  | nil => exact ⟨fun _ h => absurd h List.not_mem_nil, List.isChain_nil⟩
  | cons span rest =>
    obtain ⟨hspan, hrest⟩ := List.forall_mem_cons.mp hpos
    obtain ⟨hsize, hsizes⟩ := List.forall_mem_cons.mp hfits
    -- the chunk that is there from the start is filled by the first span
    have hcounted : Counted limit (Chunk.push {} span) := Chunk.counted_single hsize hspan
    have hfirst : place limit [{}] span = [Chunk.push {} span] := if_pos (Chunk.hasRoom_iff.mpr hcounted.fits)
    have hpiled := piled_foldl_place hrest hsizes
      ⟨List.forall_mem_singleton.mpr ⟨hcounted, List.cons_ne_nil _ _⟩, List.isChain_singleton _⟩
    have hfilter : (rest.foldl (place limit) [Chunk.push {} span]).filter (fun chunk => !chunk.spans.isEmpty) =
        rest.foldl (place limit) [Chunk.push {} span] :=
      List.filter_eq_self.mpr fun chunk hchunk => by simpa using (hpiled.queued chunk hchunk).filled
    rw [List.foldl_cons, hfirst, hfilter]
    exact piled_complete hpiled

section

variable {spans : List String} (hpos : ∀ span ∈ spans, 0 < span.utf8ByteSize)
  (hfits : ∀ span ∈ spans, span.utf8ByteSize ≤ limit)
include hpos hfits

/-- **A trace is queued as chunks that fit.** -/
theorem chunksOf_queued : ∀ chunk ∈ chunksOf limit spans, Queued limit chunk :=
  fun chunk hchunk => (piled_chunksOf hpos hfits).queued chunk (List.mem_reverse.mpr hchunk)

/-- **Neighbouring chunks of a trace do not fit into one payload.** -/
theorem chunksOf_apart :
    (chunksOf limit spans).IsChain fun earlier later => limit < textSize (earlier.spans ++ later.spans) :=
  List.isChain_reverse.mp (piled_chunksOf hpos hfits).apart

end

/-! ### Traces that fit -/

/-- Whether encoded spans fit into one payload. -/
def FitTogether (maxBytes : Nat) (spans : List String) : Prop := (Payload.mk [{ spans }]).size ≤ maxBytes

instance (maxBytes : Nat) (spans : List String) : Decidable (FitTogether maxBytes spans) :=
  inferInstanceAs (Decidable (_ ≤ _))

theorem foldl_place_single {spans : List String} {chunk : Chunk} (hsize : chunk.size = textSize chunk.spans)
    (h : textSize (chunk.spans ++ spans) ≤ limit) :
    ∃ filled, spans.foldl (place limit) [chunk] = [filled] := by
  induction spans generalizing chunk with
  | nil => exact ⟨chunk, rfl⟩
  | cons span rest ih =>
    have hpush : (chunk.push span).spans ++ rest = chunk.spans ++ span :: rest := List.append_assoc _ _ _
    have hroom : chunk.hasRoom limit span = true := by
      rw [Chunk.hasRoom_iff, Chunk.size_push hsize]
      exact Nat.le_trans (textSize_le_append _ rest) (hpush ▸ h)
    have hplace : place limit [chunk] span = [chunk.push span] := if_pos hroom
    rw [List.foldl_cons, hplace]
    exact ih (Chunk.size_push hsize) (hpush ▸ h)

theorem chunksOf_of_le {spans : List String} (hsize : textSize spans ≤ limit) (hne : spans ≠ []) :
    ∃ chunk, chunksOf limit spans = [chunk] := by
  have hspans := chunksOf_spans limit spans
  have hempty : ({} : Chunk).size = textSize ({} : Chunk).spans := rfl
  obtain ⟨filled, hfilled⟩ := foldl_place_single hempty hsize
  unfold chunksOf at hspans ⊢
  rw [hfilled] at hspans ⊢
  cases hfilter : [filled].filter fun chunk => !chunk.spans.isEmpty with
  | nil =>
    rw [hfilter] at hspans
    exact absurd hspans.symm hne
  | cons last earlier =>
    have hlength : earlier = [] := by
      have hle : (last :: earlier).length ≤ [filled].length := hfilter ▸ List.length_filter_le _ _
      exact List.eq_nil_of_length_eq_zero (by simpa using hle)
    exact ⟨_, by rw [hlength]; rfl⟩

/-- **A trace that fits into one payload is not split.** -/
theorem chunksOf_single {maxBytes : Nat} {spans : List String} (h : FitTogether maxBytes spans)
    (hne : spans ≠ []) : ∃ chunk, chunksOf (maxBytes - 2) spans = [chunk] := by
  unfold FitTogether at h
  rw [Payload.size_eq] at h
  have hpayload : (Payload.mk [{ spans }]).spans = spans := List.append_nil spans
  rw [hpayload] at h
  have hsize : textSize spans ≤ maxBytes - 2 := by omega
  exact chunksOf_of_le hsize hne

/-! ### The queue -/

/-- What holds of a packer at any time. -/
def Sound (p : Packer) : Prop := ∀ chunk ∈ p.queue, Queued p.limit chunk

theorem sound_add {p : Packer} (h : p.Sound) (trace : List SpanRecord) : (p.add trace).value.2.Sound := by
  intro chunk hchunk
  rcases List.mem_append.mp hchunk with hchunk | hchunk
  · exact h chunk hchunk
  · rw [encodeAll_value] at hchunk
    refine chunksOf_queued (fun span hspan => ?_) (fun span hspan => ?_) chunk hchunk
    all_goals
      obtain ⟨hmem, hfits⟩ := List.mem_filter.mp hspan
      obtain ⟨r, -, rfl⟩ := List.mem_map.mp hmem
    · exact utf8ByteSize_encodeSpan_pos r p.maxValueLength
    · exact (p.fits_iff r).mp (by simpa using hfits)

theorem spansOf_eq_nil {p : Packer} (h : p.Sound) : spansOf p.queue = [] ↔ p.queue = [] := by
  cases hqueue : p.queue with
  | nil => simp
  | cons first rest =>
    have hfilled := (h first (hqueue ▸ List.mem_cons_self)).filled
    simp [hfilled]

theorem textSize_join {held : List String} {chunk : Chunk} (hne : held ≠ []) (h : Queued limit chunk) :
    textSize held + chunk.joinedSize false = textSize (held ++ chunk.spans) := by
  rw [textSize_append hne h.filled, ← h.size]
  simp only [Chunk.joinedSize, Bool.false_eq_true, if_false]
  omega

/-- **Chunks that are taken together fit.** The size reckoned with is the size of the text. -/
theorem takeFitting_size {chunks : List Chunk} (h : ∀ chunk ∈ chunks, Queued limit chunk)
    {held : List String} (hne : held ≠ []) (hheld : textSize held ≤ limit) :
    textSize (held ++ spansOf (takeFitting limit (textSize held) chunks).1) ≤ limit := by
  induction chunks generalizing held with
  | nil => simpa [takeFitting] using hheld
  | cons chunk rest ih =>
    obtain ⟨hchunk, hrest⟩ := List.forall_mem_cons.mp h
    unfold takeFitting
    rw [textSize_join hne hchunk]
    split
    · next hfits =>
      have htaken := ih hrest (List.append_ne_nil_of_left_ne_nil hne _) hfits
      rwa [List.append_assoc] at htaken
    · simpa using hheld

/-- **A payload fits**, and it is never empty. -/
theorem nextPayload_size {p q : Packer} {payload : Payload} (h : p.Sound)
    (hnext : p.nextPayload = some (payload, q)) :
    payload.size ≤ p.maxBytes ∧ payload.spans ≠ [] ∧ q.Sound := by
  unfold nextPayload at hnext
  split at hnext
  · cases hnext
  · next first rest hqueue =>
    obtain ⟨rfl, rfl⟩ := Prod.mk.inj (Option.some.inj hnext)
    unfold Sound at h
    rw [hqueue] at h
    obtain ⟨hfirst, hrest⟩ := List.forall_mem_cons.mp h
    have hsize : first.joinedSize true = textSize first.spans := hfirst.size
    have htaken := takeFitting_size hrest hfirst.filled (hfirst.size ▸ hfirst.fits)
    -- a limit below the two brackets leaves no room for any chunk
    have hlimit : p.limit + 2 = p.maxBytes := by
      have hpos := textSize_pos hfirst.filled hfirst.spans
      have hfits := hfirst.fits
      rw [hfirst.size] at hfits
      unfold limit at hfits ⊢
      omega
    refine ⟨?_, List.append_ne_nil_of_left_ne_nil hfirst.filled _, fun chunk hchunk => ?_⟩
    · rw [Payload.size_eq, hsize]
      change textSize (first.spans ++ spansOf _) + 2 ≤ _
      omega
    · refine hrest chunk ?_
      rw [← takeFitting_append p.limit (first.joinedSize true) rest]
      exact List.mem_append_right _ hchunk

/-! ### Any use of a packer -/

/-- A use of a packer: a trace is added, or the next payload is taken. -/
inductive Use where
  | add (trace : List SpanRecord)
  | take

/-- The packer after one use. -/
def use (p : Packer) : Use → Packer
  | .add trace => (p.add trace).value.2
  | .take => (p.nextPayload.map Prod.snd).getD p

/-- The packer after some uses of a new one. -/
def after (maxBytes maxValueLength : Nat) (uses : List Use) : Packer :=
  uses.foldl use { maxBytes, maxValueLength }

theorem use_limits (p : Packer) (u : Use) :
    (p.use u).maxBytes = p.maxBytes ∧ (p.use u).maxValueLength = p.maxValueLength := by
  cases u with
  | add trace => exact ⟨rfl, rfl⟩
  | take =>
    unfold use
    cases hnext : p.nextPayload with
    | none => exact ⟨rfl, rfl⟩
    | some taken => exact (nextPayload_spans hnext).2

theorem sound_use {p : Packer} (h : p.Sound) (u : Use) : (p.use u).Sound := by
  cases u with
  | add trace => exact sound_add h trace
  | take =>
    unfold use
    cases hnext : p.nextPayload with
    | none => exact h
    | some taken => exact (nextPayload_size h hnext).2.2

theorem foldl_use {p : Packer} (h : p.Sound) (uses : List Use) :
    (uses.foldl use p).Sound ∧ (uses.foldl use p).maxBytes = p.maxBytes := by
  induction uses generalizing p with
  | nil => exact ⟨h, rfl⟩
  | cons u rest ih =>
    obtain ⟨hsound, hbytes⟩ := ih (sound_use h u)
    exact ⟨hsound, hbytes.trans (use_limits p u).1⟩

theorem sound_after (maxBytes maxValueLength : Nat) (uses : List Use) :
    (after maxBytes maxValueLength uses).Sound ∧ (after maxBytes maxValueLength uses).maxBytes = maxBytes :=
  foldl_use (fun _ h => absurd h List.not_mem_nil) uses

/-- **Every payload is within the limit.** However a packer was used, with whatever limits: there is a next
payload exactly when spans are queued; it takes at most the given number of bytes; and it is the array of
the spans by which the queue gets shorter, at least one of them, and counts them. -/
theorem payload_within_limit (maxBytes maxValueLength : Nat) (uses : List Use) :
    let p := after maxBytes maxValueLength uses
    (p.nextPayload = none ↔ p.isEmpty = true) ∧ (p.isEmpty = true ↔ spansOf p.queue = []) ∧
      ∀ payload q, p.nextPayload = some (payload, q) →
        payload.body.utf8ByteSize ≤ maxBytes ∧ ∃ packed, packed ≠ [] ∧
          spansOf p.queue = packed ++ spansOf q.queue ∧
          payload.body = "[" ++ String.intercalate "," packed ++ "]" ∧
          payload.spanCount = packed.length := by
  intro p
  have hnew : Sound { maxBytes, maxValueLength } := fun _ h => absurd h List.not_mem_nil
  obtain ⟨hsound, hbytes⟩ := foldl_use hnew uses
  have hempty : p.isEmpty = true ↔ p.queue = [] := List.isEmpty_iff
  refine ⟨nextPayload_eq_none.trans hempty.symm, hempty.trans (spansOf_eq_nil hsound).symm, ?_⟩
  intro payload q hnext
  obtain ⟨hsize, hne, -⟩ := nextPayload_size hsound hnext
  rw [hbytes] at hsize
  exact ⟨hsize, payload.spans, hne, (nextPayload_spans hnext).1, rfl, rfl⟩

/-- Two spans and the comma between them fill a payload to the last byte; the third span stays queued. -/
theorem payload_within_limit_full :
    let trace (n : Nat) := [SpanRecord.new (.ofNat n) (.ofNat n) none "op" "svc" 0]
    let p := after 285 100 [.add (trace 1), .add (trace 2), .add (trace 3)]
    ∃ payload q, p.nextPayload = some (payload, q) ∧ payload.body.utf8ByteSize = 285 ∧
      payload.spanCount = 2 ∧ payload.body.utf8ByteSize ≤ 285 ∧ ∃ packed, packed ≠ [] ∧
        spansOf p.queue = packed ++ spansOf q.queue ∧
        payload.body = "[" ++ String.intercalate "," packed ++ "]" ∧
        payload.spanCount = packed.length := by
  intro trace p
  have hsizes : p.nextPayload.map (fun next => (next.1.body.utf8ByteSize, next.1.spanCount)) =
      some (285, 2) := by decide +kernel
  obtain ⟨⟨payload, q⟩, hnext, hpair⟩ := Option.map_eq_some_iff.mp hsizes
  obtain ⟨hsize, hcount⟩ := Prod.mk.inj hpair
  have hwithin := (payload_within_limit 285 100 [.add (trace 1), .add (trace 2), .add (trace 3)]).2.2
  exact ⟨payload, q, hnext, hsize, hcount, hwithin payload q hnext⟩

end Packer

end Tracing
