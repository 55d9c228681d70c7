import Tracing.Proofs.Payload.Draining

/-!
# Traces are split only if they are too long

A trace is cut into chunks when it is added, and the chunks of all traces are distributed over payloads later,
between other additions. Both cuts look at sizes only, and they agree: neighbouring chunks of a trace are never
in one payload, since they do not fit, and a chunk is never in two. So the chunks of a trace come out in
consecutive payloads, one in each.

* `StandsIn`: where some elements of the flattened list stand in a list of groups;
* `StandsIn.consecutive`: elements no neighbours of which share a group stand in consecutive groups;
* `taken_within`: the payloads that were taken fit and are not empty;
* `exists_standsIn_chunks`: the chunks of a trace come out in consecutive payloads;
* `split_only_if_too_long`: a trace that fits comes out whole, and any other as runs that fit.
-/

namespace Tracing

/-! ### Where elements stand in groups -/

section Groups

variable {α : Type} {groups : List (List α)} {before after run : List α} {n : Nat}

/-- A run of elements stands in the group at place `n`, with `before` in front of it in the flattened list. -/
def StandsIn (groups : List (List α)) (n : Nat) (before run : List α) : Prop :=
  ∃ front back, groups[n]? = some (front ++ run ++ back) ∧ (groups.take n).flatten ++ front = before

theorem StandsIn.cons (h : StandsIn groups n before run) (group : List α) :
    StandsIn (group :: groups) (n + 1) (group ++ before) run := by
  obtain ⟨front, back, hrun, rfl⟩ := h
  exact ⟨front, back, hrun, List.append_assoc _ _ _⟩

theorem exists_standsIn {x : α} (h : groups.flatten = before ++ x :: after) :
    ∃ n, StandsIn groups n before [x] := by
  induction groups generalizing before with
  | nil => simp at h
  | cons group groups ih =>
    rw [List.flatten_cons] at h
    -- either the first group is all in front of the element, or the element stands in it
    rcases List.append_eq_append_iff.mp h with ⟨mid, rfl, hrest⟩ | ⟨mid, rfl, hmid⟩
    · obtain ⟨n, hn⟩ := ih hrest
      exact ⟨n + 1, hn.cons group⟩
    · cases mid with
      | nil =>
        have hrest : groups.flatten = [] ++ x :: after := hmid.symm
        obtain ⟨n, hn⟩ := ih hrest
        exact ⟨n + 1, by simpa using hn.cons before⟩
      | cons y back =>
        obtain ⟨rfl, -⟩ := List.cons.inj hmid
        exact ⟨0, before, back, by simp, rfl⟩

theorem standsIn_head {x : α} (h : groups.flatten = x :: after) (hne : ∀ group ∈ groups, group ≠ []) :
    StandsIn groups 0 [] [x] := by
  cases groups with
  | nil => cases h
  | cons group groups =>
    obtain ⟨y, back, rfl⟩ := List.exists_cons_of_ne_nil (hne group List.mem_cons_self)
    obtain ⟨rfl, -⟩ := List.cons.inj h
    exact ⟨[], back, rfl, rfl⟩

/-- If no group holds both of two neighbours, the second stands one place behind the first. -/
theorem StandsIn.next {x y : α} (h : StandsIn groups n before [x])
    (hall : groups.flatten = before ++ x :: y :: after) (hne : ∀ group ∈ groups, group ≠ [])
    (hapart : ∀ group ∈ groups, ¬ [x, y] <:+: group) : StandsIn groups (n + 1) (before ++ [x]) [y] := by
  induction groups generalizing n before with
  | nil => simp at hall
  | cons group groups ih =>
    obtain ⟨front, back, hrun, rfl⟩ := h
    obtain ⟨-, hne'⟩ := List.forall_mem_cons.mp hne
    obtain ⟨hgroup, hapart'⟩ := List.forall_mem_cons.mp hapart
    cases n with
    | zero =>
      obtain rfl : group = front ++ [x] ++ back := Option.some.inj hrun
      have hbehind : back ++ groups.flatten = y :: after := by simpa using hall
      cases back with
      | nil => simpa using (standsIn_head hbehind hne').cons (front ++ [x])
      | cons z back =>
        obtain ⟨rfl, -⟩ := List.cons.inj hbehind
        exact absurd ⟨front, back, by simp⟩ hgroup
    | succ n =>
      have hall' : groups.flatten = (groups.take n).flatten ++ front ++ x :: y :: after := by
        simpa using hall
      have hlater := (ih ⟨front, back, hrun, rfl⟩ hall' hne' hapart').cons group
      simpa using hlater

/-- **Elements no two neighbours of which share a group** stand in consecutive groups, one in each. -/
theorem StandsIn.consecutive {x : α} (h : StandsIn groups n before [x])
    (hall : groups.flatten = before ++ x :: run ++ after) (hne : ∀ group ∈ groups, group ≠ [])
    (hapart : (x :: run).IsChain fun y z => ∀ group ∈ groups, ¬ [y, z] <:+: group) :
    ∀ k y, (x :: run)[k]? = some y → StandsIn groups (n + k) (before ++ (x :: run).take k) [y] := by
  induction run generalizing x n before with
  | nil =>
    intro k y hy
    obtain ⟨rfl, rfl⟩ : k = 0 ∧ x = y := by simpa [List.getElem?_singleton] using hy
    simpa using h
  | cons z run ih =>
    obtain ⟨hxz, hrun⟩ := List.isChain_cons_cons.mp hapart
    have hfront : groups.flatten = before ++ x :: z :: (run ++ after) := by simpa using hall
    have hnext : StandsIn groups (n + 1) (before ++ [x]) [z] := h.next hfront hne hxz
    intro k y hy
    cases k with
    | zero =>
      obtain rfl : x = y := by simpa using hy
      simpa using h
    | succ k =>
      have hlater := ih hnext (by simpa using hall) hrun k y (by simpa using hy)
      simpa [Nat.add_assoc, Nat.add_comm 1 k] using hlater

end Groups

namespace Packer

variable {maxBytes maxValueLength : Nat}

/-! ### What was taken, and what was added -/

theorem packer_after (uses : List Use) :
    (Account.after maxBytes maxValueLength uses).packer = after maxBytes maxValueLength uses := by
  induction uses using List.reverseRecOn with
  | nil => rfl
  | append_singleton uses u ih =>
    have hafter : after maxBytes maxValueLength (uses ++ [u]) = (after maxBytes maxValueLength uses).use u :=
      List.foldl_concat _ _ _ _
    rw [Account.after_concat, hafter, ← ih]
    cases u with
    | add trace => rfl
    | take =>
      unfold Account.record use
      cases hnext : (Account.after maxBytes maxValueLength uses).packer.nextPayload with
      | none => rfl
      | some next => rfl

theorem sound_packer (uses : List Use) : (Account.after maxBytes maxValueLength uses).packer.Sound ∧
    (Account.after maxBytes maxValueLength uses).packer.maxBytes = maxBytes := by
  rw [packer_after]
  exact sound_after maxBytes maxValueLength uses

/-- **Every payload that was taken fits**, and it is not empty. -/
theorem taken_within (uses : List Use) : ∀ payload ∈ (Account.after maxBytes maxValueLength uses).taken,
    payload.size ≤ maxBytes ∧ payload.spans ≠ [] := by
  induction uses using List.reverseRecOn with
  | nil => exact fun payload h => absurd h List.not_mem_nil
  | append_singleton uses u ih =>
    rw [Account.after_concat]
    cases u with
    | add trace => exact ih
    | take =>
      cases hnext : (Account.after maxBytes maxValueLength uses).packer.nextPayload with
      | none => simpa only [Account.record, hnext] using ih
      | some next =>
        simp only [Account.record, hnext]
        obtain ⟨hsound, hbytes⟩ := @sound_packer maxBytes maxValueLength uses
        obtain ⟨hsize, hspans, -⟩ := nextPayload_size hsound hnext
        rw [hbytes] at hsize
        exact List.forall_mem_append.mpr ⟨ih, List.forall_mem_singleton.mpr ⟨hsize, hspans⟩⟩

theorem added_append (uses later : List Use) : ∃ more,
    (Account.after maxBytes maxValueLength (uses ++ later)).added =
      (Account.after maxBytes maxValueLength uses).added ++ more := by
  induction later using List.reverseRecOn with
  | nil => exact ⟨[], by simp⟩
  | append_singleton later u ih =>
    obtain ⟨more, hmore⟩ := ih
    rw [← List.append_assoc, Account.after_concat]
    cases u with
    | add trace => exact ⟨more ++ [trace], by rw [← List.append_assoc, ← hmore]; rfl⟩
    | take =>
      refine ⟨more, ?_⟩
      unfold Account.record
      simp only
      split <;> exact hmore

/-! ### Where a trace comes out -/

theorem spansOf_flatten (groups : List (List Chunk)) :
    spansOf groups.flatten = (groups.map spansOf).flatten := by
  unfold spansOf
  rw [List.flatMap_def, List.map_flatten, List.flatten_flatten, List.map_map]
  rfl

theorem standsIn_spans {payloads : List Payload} {before run : List Chunk} {n : Nat}
    (h : StandsIn (payloads.map Payload.chunks) n before run) :
    StandsIn (payloads.map Payload.spans) n (spansOf before) (spansOf run) := by
  have hspans : payloads.map Payload.spans = (payloads.map Payload.chunks).map spansOf := by
    rw [List.map_map]
    rfl
  obtain ⟨front, back, hrun, rfl⟩ := h
  refine ⟨spansOf front, spansOf back, ?_, ?_⟩
  · rw [hspans, List.getElem?_map, hrun, Option.map_some, spansOf_append, spansOf_append]
  · rw [hspans, spansOf_append, spansOf_flatten, List.map_take]

theorem of_mem_packable {trace : List SpanRecord} {span : String}
    (h : span ∈ packable maxBytes maxValueLength trace) :
    0 < span.utf8ByteSize ∧ span.utf8ByteSize ≤ maxBytes - 2 := by
  obtain ⟨hmem, hlong⟩ := List.mem_filter.mp h
  obtain ⟨r, -, rfl⟩ := List.mem_map.mp hmem
  refine ⟨utf8ByteSize_encodeSpan_pos r maxValueLength, ?_⟩
  simpa [isTooLong] using hlong

theorem not_infix_of_size {payload : Payload} (h : payload.size ≤ maxBytes) {x y : Chunk}
    (hxy : maxBytes - 2 < textSize (x.spans ++ y.spans)) : ¬ [x, y] <:+: payload.chunks := by
  rintro ⟨front, back, hchunks⟩
  have hspans : payload.spans = spansOf front ++ ((x.spans ++ y.spans) ++ spansOf back) := by
    show spansOf payload.chunks = _
    rw [← hchunks]
    simp
  have hsize : textSize (x.spans ++ y.spans) ≤ textSize payload.spans := by
    rw [hspans]
    exact (textSize_le_append _ (spansOf back)).trans (textSize_le_append_left (spansOf front) _)
  rw [Payload.size_eq] at h
  omega

/-- What was taken and what draining takes are all chunks that were queued, in payloads that fit and are not
empty. -/
theorem drained {uses : List Use} {payloads : List Payload}
    (h : Drains (Account.after maxBytes maxValueLength uses).packer payloads) :
    let a := Account.after maxBytes maxValueLength uses
    ((a.taken ++ payloads).map Payload.chunks).flatten =
        (a.added.map (packable maxBytes maxValueLength)).flatMap (chunksOf (maxBytes - 2)) ∧
      ∀ payload ∈ a.taken ++ payloads, payload.size ≤ maxBytes ∧ payload.spans ≠ [] := by
  intro a
  obtain ⟨hsound, hbytes⟩ := @sound_packer maxBytes maxValueLength uses
  obtain ⟨hflatten, hfits⟩ := h.cut hsound
  rw [hbytes] at hfits
  have hqueued := (@balanced_after maxBytes maxValueLength uses).chunks
  constructor
  · rw [← hqueued, ← hflatten, List.map_append, List.flatten_append, List.flatMap_def]
  · refine List.forall_mem_append.mpr ⟨taken_within uses, fun payload hpayload => ?_⟩
    exact ⟨hfits _ (List.mem_map_of_mem hpayload), h.filled hsound payload hpayload⟩

/-- **The chunks of a trace come out in consecutive payloads.** -/
theorem exists_standsIn_chunks (earlier later : List Use) (trace : List SpanRecord) {payloads : List Payload}
    (h : Drains (Account.after maxBytes maxValueLength (earlier ++ .add trace :: later)).packer payloads) :
    let before := ((Account.after maxBytes maxValueLength earlier).added.map
      (packable maxBytes maxValueLength)).flatMap (chunksOf (maxBytes - 2))
    let a := Account.after maxBytes maxValueLength (earlier ++ .add trace :: later)
    let chunks := chunksOf (maxBytes - 2) (packable maxBytes maxValueLength trace)
    ∃ first, ∀ k chunk, chunks[k]? = some chunk →
      StandsIn ((a.taken ++ payloads).map Payload.chunks) (first + k) (before ++ chunks.take k) [chunk] := by
  intro before a chunks
  obtain ⟨hflatten, hwithin⟩ := drained h
  obtain ⟨more, hmore⟩ := @added_append maxBytes maxValueLength (earlier ++ [.add trace]) later
  have hadded : a.added = (Account.after maxBytes maxValueLength earlier).added ++ trace :: more := by
    rw [Account.after_concat, List.append_assoc, List.singleton_append] at hmore
    exact hmore.trans (List.append_assoc _ [trace] more)
  have hall : ((a.taken ++ payloads).map Payload.chunks).flatten =
      before ++ chunks ++ (more.map (packable maxBytes maxValueLength)).flatMap (chunksOf (maxBytes - 2)) := by
    rw [hflatten, hadded, List.map_append, List.map_cons, List.flatMap_append, List.flatMap_cons,
      ← List.append_assoc]
  have hne : ∀ group ∈ (a.taken ++ payloads).map Payload.chunks, group ≠ [] := by
    refine List.forall_mem_map.mpr fun payload hpayload hnil => (hwithin payload hpayload).2 ?_
    show spansOf payload.chunks = []
    rw [hnil, spansOf_nil]
  have hapart : chunks.IsChain fun x y =>
      ∀ group ∈ (a.taken ++ payloads).map Payload.chunks, ¬ [x, y] <:+: group := by
    have hchain := chunksOf_apart (fun span hspan => (@of_mem_packable maxBytes maxValueLength trace span hspan).1)
      (fun span hspan => (of_mem_packable hspan).2)
    refine hchain.imp fun x y hxy => List.forall_mem_map.mpr fun payload hpayload => ?_
    exact not_infix_of_size (hwithin payload hpayload).1 hxy
  cases hcases : chunks with
  | nil => exact ⟨0, fun k chunk hchunk => by simp at hchunk⟩
  | cons chunk run =>
    rw [hcases] at hall hapart
    rw [List.append_assoc] at hall
    obtain ⟨first, hfirst⟩ := exists_standsIn hall
    rw [← List.append_assoc] at hall
    exact ⟨first, hfirst.consecutive hall hne hapart⟩

/-- **A trace is split only if it has to be.** The packed spans of a trace are cut into runs, in order. No run is
empty, each fits between the brackets of a payload, and no neighbours do so together; a trace that fits is one
run. Whatever a packer was used for before the trace was added and is used for later: draining ends, and among
all payloads that were taken by then the runs stand in consecutive ones, one in each, behind the spans of the
earlier traces. -/
theorem split_only_if_too_long (maxBytes maxValueLength : Nat) (trace : List SpanRecord) :
    let spans := packable maxBytes maxValueLength trace
    ∃ runs : List (List String), runs.flatten = spans ∧
      (∀ run ∈ runs, run ≠ [] ∧ textSize run ≤ maxBytes - 2) ∧
      runs.IsChain (fun run next => maxBytes - 2 < textSize (run ++ next)) ∧
      (spans ≠ [] → textSize spans ≤ maxBytes - 2 → runs = [spans]) ∧
      ∀ earlier later : List Use,
        let before := ((Account.after maxBytes maxValueLength earlier).added.map
          (packable maxBytes maxValueLength)).flatten
        let a := Account.after maxBytes maxValueLength (earlier ++ .add trace :: later)
        ∃ payloads, Drains a.packer payloads ∧ ∃ first, ∀ k run, runs[k]? = some run →
          StandsIn ((a.taken ++ payloads).map Payload.spans) (first + k) (before ++ (runs.take k).flatten) run := by
  intro spans
  have hpos : ∀ span ∈ spans, 0 < span.utf8ByteSize := fun span h => (of_mem_packable h).1
  have hfits : ∀ span ∈ spans, span.utf8ByteSize ≤ maxBytes - 2 := fun span h => (of_mem_packable h).2
  have hflatten : ((chunksOf (maxBytes - 2) spans).map Chunk.spans).flatten = spans := chunksOf_spans _ _
  refine ⟨(chunksOf (maxBytes - 2) spans).map Chunk.spans, hflatten, ?_,
    (List.isChain_map Chunk.spans).mpr (chunksOf_apart hpos hfits), fun hne hfit => ?_, ?_⟩
  · refine List.forall_mem_map.mpr fun chunk hchunk => ?_
    have hqueued := chunksOf_queued hpos hfits chunk hchunk
    exact ⟨hqueued.filled, hqueued.size ▸ hqueued.fits⟩
  · obtain ⟨chunk, hchunk⟩ := chunksOf_of_le hfit hne
    rw [hchunk] at hflatten ⊢
    simpa using hflatten
  · intro earlier later before a
    obtain ⟨payloads, hdrains⟩ := exists_drains a.packer
    obtain ⟨first, hfirst⟩ := exists_standsIn_chunks earlier later trace hdrains
    refine ⟨payloads, hdrains, first, fun k run hrun => ?_⟩
    rw [List.getElem?_map, Option.map_eq_some_iff] at hrun
    obtain ⟨chunk, hchunk, rfl⟩ := hrun
    have hstands := standsIn_spans (hfirst k chunk hchunk)
    have hchunk : spansOf [chunk] = chunk.spans := List.append_nil _
    have htake : spansOf ((chunksOf (maxBytes - 2) spans).take k) =
        (((chunksOf (maxBytes - 2) spans).map Chunk.spans).take k).flatten := by
      rw [← List.map_take]
      rfl
    rwa [spansOf_append, spansOf_chunksOf, hchunk, htake] at hstands

/-- Of three spans two fit into a payload, so the trace is split behind the second. -/
example :
    let trace := [1, 2, 3].map fun n => SpanRecord.new (.ofNat 1) (.ofNat n) none "op" "svc" 0
    (chunksOf 283 (packable 285 100 trace)).map (fun chunk => chunk.spans.length) = [2, 1] := by
  decide +kernel

end Packer

end Tracing
