import Mathlib.Data.List.SplitLengths
import Tracing.Proofs.Export.Ledger

/-!
# Which traces count as sent

A trace that is too long for one payload is split into chunks. They travel in different payloads, which the
transport accepts or not independently of each other, and the trace is counted with its last chunk. So a
trace counts as sent when its end was delivered (`tracesSent_delivered`). That all of it was delivered
follows only if it was not split or nothing of it failed; a split trace whose first part was lost is counted
all the same (`not_tracesSent_le_delivered`).

The spans handed over are cut along the accepted traces into the `shares` of these; `Shared` is the same cut
between chunks.
-/

namespace Tracing

open Packer (chunksOf spansOf FitTogether packable packable_eq)

/-- The spans handed over, in order, each with whether its payload was accepted. -/
def outcomes (attempts : List Attempt) : List (String × Bool) :=
  (finals attempts).flatMap fun a => a.payload.spans.map (·, a.isAccepted)

/-- What was handed over of each trace. -/
def shares (traces : List (List String)) (handed : List (String × Bool)) : List (List (String × Bool)) :=
  (traces.map List.length).splitLengths handed

/-- Whether the last span of a trace was handed over and accepted. -/
def EndDelivered (spans : List String) (share : List (String × Bool)) : Prop :=
  share.length = spans.length ∧ share.getLast?.any Prod.snd = true

instance (spans : List String) (share : List (String × Bool)) : Decidable (EndDelivered spans share) :=
  inferInstanceAs (Decidable (_ ∧ _))

/-- Whether every span was in a payload that the transport accepted. -/
def Delivered (attempts : List Attempt) (spans : List String) : Prop :=
  ∀ span ∈ spans, ∃ a ∈ attempts, a.isAccepted = true ∧ span ∈ a.payload.spans

instance (attempts : List Attempt) (spans : List String) : Decidable (Delivered attempts spans) :=
  inferInstanceAs (Decidable (∀ span ∈ spans, ∃ a ∈ attempts, _))

/-! ### Chunks that were handed over -/

/-- The spans of some chunks, each with what is known of its chunk. -/
def spread (handed : List (Chunk × Bool)) : List (String × Bool) :=
  handed.flatMap fun x => x.1.spans.map (·, x.2)

/-- Whether a chunk ends a trace and was accepted. -/
def endsDelivered (x : Chunk × Bool) : Bool := x.1.completesTrace && x.2

@[simp] theorem spread_append (handed later : List (Chunk × Bool)) :
    spread (handed ++ later) = spread handed ++ spread later := List.flatMap_append

theorem map_fst_spread (handed : List (Chunk × Bool)) :
    (spread handed).map Prod.fst = spansOf (handed.map Prod.fst) := by
  unfold spread spansOf
  rw [List.map_flatMap, List.flatMap_map]
  refine congrArg₂ _ (funext fun x => ?_) rfl
  rw [List.map_map]
  exact List.map_id _

theorem length_spread (handed : List (Chunk × Bool)) :
    (spread handed).length = (spansOf (handed.map Prod.fst)).length := by
  rw [← map_fst_spread, List.length_map]

/-- The chunks handed over, in order, each with whether its payload was accepted. -/
def verdicts (attempts : List Attempt) : List (Chunk × Bool) :=
  (finals attempts).flatMap fun a => a.payload.chunks.map (·, a.isAccepted)

theorem outcomes_eq (attempts : List Attempt) : outcomes attempts = spread (verdicts attempts) := by
  unfold outcomes spread verdicts Payload.spans
  rw [List.flatMap_assoc]
  refine congrArg₂ _ (funext fun a => ?_) rfl
  rw [List.map_flatMap, List.flatMap_map]

theorem map_fst_verdicts (attempts : List Attempt) :
    (verdicts attempts).map Prod.fst = ((finals attempts).map Attempt.payload).flatMap Payload.chunks := by
  unfold verdicts
  rw [List.map_flatMap, List.flatMap_map]
  refine congrArg₂ _ (funext fun a => ?_) rfl
  rw [List.map_map]
  exact List.map_id _

theorem sum_accepted (attempts : List Attempt) :
    ((attempts.filter Attempt.isAccepted).map fun a => a.payload.traceCount).sum =
      (verdicts attempts).countP endsDelivered := by
  rw [← filter_finals]
  unfold verdicts
  induction finals attempts with
  | nil => rfl
  | cons a rest ih =>
    have hcount : (a.payload.chunks.map (·, a.isAccepted)).countP endsDelivered =
        if a.isAccepted then a.payload.traceCount else 0 := by
      rw [List.countP_map]
      unfold Payload.traceCount Function.comp endsDelivered
      cases a.isAccepted <;> simp
    rw [List.flatMap_cons, List.countP_append, hcount, ← ih, List.filter_cons]
    split <;> simp

theorem exists_of_mem_outcomes {attempts : List Attempt} {span : String}
    (h : (span, true) ∈ outcomes attempts) :
    ∃ a ∈ attempts, a.isAccepted = true ∧ span ∈ a.payload.spans := by
  obtain ⟨a, ha, hmem⟩ := List.mem_flatMap.mp h
  obtain ⟨_, hspan, heq⟩ := List.mem_map.mp hmem
  obtain ⟨rfl, haccepted⟩ := Prod.mk.inj heq
  exact ⟨a, mem_of_mem_finals ha, haccepted, hspan⟩

/-! ### One trace -/

section Share

variable {limit : Nat} {spans : List String} {part : List (Chunk × Bool)} {rest : List Chunk}
  (cut : part.map Prod.fst ++ rest = chunksOf limit spans)
include cut

theorem spread_share : (spread part).map Prod.fst ++ spansOf rest = spans := by
  rw [map_fst_spread, ← Packer.spansOf_append, cut, Packer.chunksOf_spans]

theorem length_share : (spread part).length + (spansOf rest).length = spans.length := by
  rw [← spread_share cut, List.length_append, List.length_map]

theorem rest_eq_nil (hlength : (spread part).length = spans.length) : rest = [] := by
  have hnone : spansOf rest = [] := by
    have hsplit := length_share cut
    exact List.eq_nil_of_length_eq_zero (by omega)
  refine List.eq_nil_iff_forall_not_mem.mpr fun chunk hchunk => ?_
  exact Packer.chunksOf_filled spans chunk (cut ▸ List.mem_append_right _ hchunk)
    (List.flatMap_eq_nil_iff.mp hnone chunk hchunk)

/-- **A trace is counted once, if its end was delivered.** -/
theorem countP_share : part.countP endsDelivered = if EndDelivered spans (spread part) then 1 else 0 := by
  by_cases hrest : rest = []
  · have hparts : part.map Prod.fst = chunksOf limit spans := by rw [← cut, hrest, List.append_nil]
    have hlength : (spread part).length = spans.length := by
      rw [length_spread, hparts, Packer.chunksOf_spans]
    by_cases hspans : spans = []
    · rw [hspans, Packer.chunksOf_eq_nil.mpr rfl, List.map_eq_nil_iff] at hparts
      rw [hparts, if_neg fun hend => by cases hend.2]
      rfl
    · obtain ⟨earlier, last, hchunks, hlast, hearlier⟩ := @Packer.chunksOf_marks limit spans hspans
      rw [hchunks] at hparts
      obtain ⟨before, final, rfl, hbefore, hfinal⟩ := List.map_eq_append_iff.mp hparts
      obtain ⟨⟨chunk, ok⟩, rfl, rfl⟩ := List.map_eq_singleton_iff.mp hfinal
      replace hlast : chunk.completesTrace = true := hlast
      have hnone : before.countP endsDelivered = 0 := by
        refine List.countP_eq_zero.mpr fun x hx => ?_
        have hunmarked := hearlier x.1 (hbefore ▸ List.mem_map_of_mem hx)
        simp [endsDelivered, hunmarked]
      have hfilled : chunk.spans ≠ [] :=
        Packer.chunksOf_filled spans chunk (hchunks ▸ List.mem_append_right _ List.mem_cons_self)
      have hend : (spread (before ++ [(chunk, ok)])).getLast? = some (chunk.spans.getLast hfilled, ok) := by
        rw [spread_append, List.getLast?_append_of_ne_nil]
        · simp [spread, List.getLast?_map, List.getLast?_eq_some_getLast hfilled]
        · simpa [spread] using hfilled
      rw [List.countP_append, hnone, List.countP_singleton]
      simp only [EndDelivered, hlength, hend, endsDelivered, hlast, Bool.true_and, Option.any_some, true_and,
        Nat.zero_add]
  · have hnot : ¬ EndDelivered spans (spread part) := fun hend => hrest (rest_eq_nil cut hend.1)
    -- the end of the trace is in the chunks that are left
    have hmarked : (part.map Prod.fst).countP Chunk.completesTrace = 0 := by
      have hrestEnd := Packer.countP_suffix cut
      have hall := @Packer.countP_chunksOf limit spans
      rw [← cut, List.countP_append, hrestEnd, if_neg hrest] at hall
      split at hall <;> omega
    rw [if_neg hnot]
    refine List.countP_eq_zero.mpr fun x hx => ?_
    have hunmarked := List.countP_eq_zero.mp hmarked x.1 (List.mem_map_of_mem hx)
    simp [endsDelivered, hunmarked]

/-- **When the end of a trace was delivered**, all of it was, unless it was split and a part of it failed. -/
theorem accepted_of_endDelivered (hend : EndDelivered spans (spread part))
    (whole : (∃ chunk, chunksOf limit spans = [chunk]) ∨ ∀ x ∈ spread part, x.2 = true) :
    ∀ span ∈ spans, (span, true) ∈ spread part := by
  have hrest := rest_eq_nil cut hend.1
  have haccepted : ∀ x ∈ spread part, x.2 = true := by
    rcases whole with ⟨chunk, hchunk⟩ | haccepted
    · rw [hrest, List.append_nil, hchunk] at cut
      obtain ⟨⟨chunk, ok⟩, rfl, rfl⟩ := List.map_eq_singleton_iff.mp cut
      have hlast := hend.2
      intro x hx
      -- one chunk means one payload and one outcome for all
      have hsame : ∀ y ∈ spread [(chunk, ok)], y.2 = ok := by simp [spread]
      cases hget : (spread [(chunk, ok)]).getLast? with
      | none =>
        rw [hget] at hlast
        cases hlast
      | some last =>
        rw [hget] at hlast
        exact (hsame x hx).trans ((hsame last (List.mem_of_getLast? hget)).symm.trans hlast)
    · exact haccepted
  have hspans := spread_share cut
  rw [hrest, Packer.spansOf_nil, List.append_nil] at hspans
  intro span hspan
  rw [← hspans] at hspan
  obtain ⟨⟨_, ok⟩, hmem, rfl⟩ := List.mem_map.mp hspan
  obtain rfl : ok = true := haccepted _ hmem
  exact hmem

end Share

/-! ### All traces -/

/-- Chunks handed over are those of some traces, one trace after the other; where the chunks of a trace are
not complete, nothing more was handed over. -/
inductive Shared (limit : Nat) : List (List String) → List (Chunk × Bool) → Prop where
  | nil : Shared limit [] []
  | cons {spans : List String} {traces : List (List String)} {part later : List (Chunk × Bool)}
      (rest : List Chunk) (cut : part.map Prod.fst ++ rest = chunksOf limit spans)
      (ends : rest = [] ∨ later = []) (shared : Shared limit traces later) :
      Shared limit (spans :: traces) (part ++ later)

theorem shared_nil (limit : Nat) (traces : List (List String)) : Shared limit traces [] := by
  induction traces with
  | nil => exact .nil
  | cons spans traces ih => exact @Shared.cons limit spans traces [] [] (chunksOf limit spans) rfl (.inr rfl) ih

variable {limit : Nat}

/-- **Handed over is handed over trace by trace.** -/
theorem shared_of_append {traces : List (List String)} {handed : List (Chunk × Bool)} {rest : List Chunk}
    (h : handed.map Prod.fst ++ rest = traces.flatMap (chunksOf limit)) : Shared limit traces handed := by
  induction traces generalizing handed with
  | nil =>
    obtain rfl := List.map_eq_nil_iff.mp (List.append_eq_nil_iff.mp h).1
    exact .nil
  | cons spans traces ih =>
    rw [List.flatMap_cons] at h
    rcases List.append_eq_append_iff.mp h with ⟨mid, hchunks, -⟩ | ⟨mid, hhanded, hlater⟩
    · have hshared := Shared.cons mid hchunks.symm (.inr rfl) (shared_nil limit traces)
      rwa [List.append_nil] at hshared
    · obtain ⟨part, later, rfl, hpart, rfl⟩ := List.map_eq_append_iff.mp hhanded
      exact .cons [] (by rw [hpart, List.append_nil]) (.inl rfl) (ih hlater.symm)

theorem shares_cons {spans : List String} {traces : List (List String)} {part later : List (Chunk × Bool)}
    {rest : List Chunk} (cut : part.map Prod.fst ++ rest = chunksOf limit spans)
    (ends : rest = [] ∨ later = []) :
    shares (spans :: traces) (spread (part ++ later)) = spread part :: shares traces (spread later) := by
  have hlength := length_share cut
  unfold shares
  rw [List.map_cons, List.splitLengths_cons, spread_append]
  rcases ends with rfl | rfl
  · rw [← hlength, Packer.spansOf_nil, List.length_nil, Nat.add_zero, List.take_left, List.drop_left]
  · rw [show spread ([] : List (Chunk × Bool)) = [] from rfl, List.append_nil,
      List.take_of_length_le (by omega), List.drop_of_length_le (by omega)]

theorem countP_shared {traces : List (List String)} {handed : List (Chunk × Bool)}
    (h : Shared limit traces handed) : handed.countP endsDelivered =
      (traces.zip (shares traces (spread handed))).countP fun x => EndDelivered x.1 x.2 := by
  induction h with
  | nil => rfl
  | cons rest cut ends _ ih =>
    rw [shares_cons cut ends, List.zip_cons_cons, List.countP_cons, List.countP_append, ih, countP_share cut,
      Nat.add_comm]
    simp only [decide_eq_true_eq]

theorem share_of_mem {traces : List (List String)} {handed : List (Chunk × Bool)}
    (h : Shared limit traces handed) {x : List String × List (String × Bool)}
    (hx : x ∈ traces.zip (shares traces (spread handed))) :
    ∃ part rest, part.map Prod.fst ++ rest = chunksOf limit x.1 ∧ x.2 = spread part ∧
      ∀ y ∈ x.2, y ∈ spread handed := by
  induction h with
  | nil => cases hx
  | @cons spans traces part later rest cut ends _ ih =>
    rw [shares_cons cut ends, List.zip_cons_cons] at hx
    rw [spread_append]
    rcases List.mem_cons.mp hx with rfl | hx
    · exact ⟨part, rest, cut, rfl, fun y hy => List.mem_append_left _ hy⟩
    · obtain ⟨part', rest', hcut, hshare, hmem⟩ := ih hx
      exact ⟨part', rest', hcut, hshare, fun y hy => List.mem_append_right _ (hmem y hy)⟩

/-! ### Runs -/

namespace ExportRun

variable {transport : Transport}

/-- What was handed over are the first chunks of the accepted traces. -/
theorem shared_after {c : Config} {e : Exporter} (h : Exporter.ofConfig? c = some e)
    (transport : Transport) (ops : List ExportOp) :
    let s := after transport e ops
    Shared (c.maxPayloadBytes - 2) (s.accepted.map (encodable c.maxPayloadBytes c.maxValueLength))
        (verdicts s.exporter.attempts) ∧
      s.exporter.stats.tracesSent = (verdicts s.exporter.attempts).countP endsDelivered := by
  intro s
  obtain ⟨a, b, hledger⟩ := ledger_after h transport ops
  have hpackable : encodable c.maxPayloadBytes c.maxValueLength =
      packable c.maxPayloadBytes c.maxValueLength := funext fun trace => (packable_eq trace).symm
  constructor
  · have hchunks := hledger.booked.balanced.chunks
    rw [hledger.booked.taken] at hchunks
    unfold Books.taken at hchunks
    rw [hledger.attempts, List.flatMap_append, ← map_fst_verdicts] at hchunks
    -- behind what was handed over come the payload at hand, the packer, and the queue
    have hall : (verdicts s.exporter.attempts).map Prod.fst ++ (b.fresh.toList.flatMap Payload.chunks ++
        (a.packer.queue ++ (b.queue.map (packable c.maxPayloadBytes c.maxValueLength)).flatMap
          (chunksOf (c.maxPayloadBytes - 2)))) =
        (s.accepted.map (encodable c.maxPayloadBytes c.maxValueLength)).flatMap
          (chunksOf (c.maxPayloadBytes - 2)) := by
      rw [hledger.accepted, hpackable, List.map_append, List.flatMap_append, ← hchunks]
      simp only [s, List.append_assoc]
    exact shared_of_append hall
  · rw [← sum_accepted, ← hledger.attempts, ← hledger.tracesSent]
    exact hledger.booked.tracesSent

/-- **A trace counts as sent when its end was delivered.** In every run of an exporter that was made for a
configuration, with every transport: the traces counted as sent are the accepted traces whose last encodable
span was in an accepted payload. All encodable spans of such a trace were in accepted payloads, if they fit
into one payload or if none of them was in a payload that was not accepted. -/
theorem tracesSent_delivered {c : Config} {e : Exporter} (h : Exporter.ofConfig? c = some e)
    (transport : Transport) (ops : List ExportOp) :
    let s := after transport e ops
    let traces := s.accepted.map (encodable c.maxPayloadBytes c.maxValueLength)
    let shared := traces.zip (shares traces (outcomes s.exporter.attempts))
    s.exporter.stats.tracesSent = shared.countP (fun x => EndDelivered x.1 x.2) ∧
      ∀ x ∈ shared, x.2.map Prod.fst <+: x.1 ∧
        (EndDelivered x.1 x.2 → FitTogether c.maxPayloadBytes x.1 ∨ (∀ y ∈ x.2, y.2 = true) →
          Delivered s.exporter.attempts x.1) := by
  intro s traces shared
  obtain ⟨hshared, hsent⟩ := shared_after h transport ops
  have houtcomes : shared = traces.zip (shares traces (spread (verdicts s.exporter.attempts))) := by
    rw [← outcomes_eq]
  rw [houtcomes]
  refine ⟨hsent.trans (countP_shared hshared), fun x hx => ?_⟩
  obtain ⟨part, rest, hcut, hshare, hhanded⟩ := share_of_mem hshared hx
  refine ⟨⟨spansOf rest, hshare ▸ spread_share hcut⟩, fun hend hwhole span hspan => ?_⟩
  have hsingle : (∃ chunk, chunksOf (c.maxPayloadBytes - 2) x.1 = [chunk]) ∨
      ∀ y ∈ spread part, y.2 = true :=
    hwhole.imp (fun hfit => Packer.chunksOf_single hfit (List.ne_nil_of_mem hspan)) (hshare ▸ ·)
  have haccepted := accepted_of_endDelivered hcut (hshare ▸ hend) hsingle span hspan
  refine exists_of_mem_outcomes ?_
  rw [outcomes_eq]
  exact hhanded _ (hshare ▸ haccepted)

/-- A payload holds one span, and the second of three payloads is rejected. The trace of one span was
delivered; the trace of two spans counts as well. -/
theorem tracesSent_delivered_split :
    let c := { Config.default with maxPayloadBytes := 143 }
    let e := (Exporter.ofConfig? c).getD default
    let transport : Transport := ⟨fun n => if n = 1 then .failed (.permanent none "") else .accepted⟩
    let span (t n : Nat) := SpanRecord.new (.ofNat t) (.ofNat n) none "op" "svc" 0
    let ops : List ExportOp := [.start, .enqueue [span 1 1], .enqueue [span 2 1, span 2 2], .cancel]
      ++ List.replicate 12 .work
    let s := after transport e ops
    let traces := s.accepted.map (encodable c.maxPayloadBytes c.maxValueLength)
    let shared := traces.zip (shares traces (outcomes s.exporter.attempts))
    Exporter.ofConfig? c = some e ∧ s.exporter.isFinished = true ∧ s.exporter.stats.tracesSent = 2 ∧
      shared.map (fun x => x.2.map Prod.snd) = [[true], [false, true]] ∧
      s.exporter.stats.tracesSent = shared.countP (fun x => EndDelivered x.1 x.2) ∧
      ∀ x ∈ shared.head?, Delivered s.exporter.attempts x.1 := by
  intro c e transport span ops
  have he : Exporter.ofConfig? c = some e := rfl
  obtain ⟨hfinished, hsent, houtcomes, hfits⟩ :
      (after transport e ops).exporter.isFinished = true ∧
        (after transport e ops).exporter.stats.tracesSent = 2 ∧
        (let traces := (after transport e ops).accepted.map (encodable c.maxPayloadBytes c.maxValueLength)
        let shared := traces.zip (shares traces (outcomes (after transport e ops).exporter.attempts))
        shared.map (fun x => x.2.map Prod.snd) = [[true], [false, true]] ∧
          ∀ x ∈ shared.head?, EndDelivered x.1 x.2 ∧ FitTogether c.maxPayloadBytes x.1) := by
    decide +kernel
  obtain ⟨hcount, hdelivered⟩ := tracesSent_delivered he transport ops
  refine ⟨he, hfinished, hsent, houtcomes, hcount, fun x hx => ?_⟩
  obtain ⟨hend, hfit⟩ := hfits x hx
  exact (hdelivered x (List.mem_of_mem_head? hx)).2 hend (.inl hfit)

/-- **Not all that counts as sent was delivered.** A payload holds one span; of the two payloads of one
trace the first is rejected and the second accepted. -/
theorem not_tracesSent_le_delivered :
    ¬ ∀ (c : Config) (e : Exporter), Exporter.ofConfig? c = some e →
      ∀ (transport : Transport) (ops : List ExportOp), let s := after transport e ops
        s.exporter.stats.tracesSent ≤ s.accepted.countP fun trace =>
          Delivered s.exporter.attempts (encodable c.maxPayloadBytes c.maxValueLength trace) := by
  intro hall
  have hle := hall { Config.default with maxPayloadBytes := 143 } _ rfl
    ⟨fun n => if n = 0 then .failed (.permanent (some ⟨400⟩) "bad payload") else .accepted⟩
    ([.start, .enqueue ([1, 2].map fun n => SpanRecord.new (.ofNat 1) (.ofNat n) none "op" "svc" 0), .cancel]
      ++ List.replicate 10 .work)
  revert hle
  decide +kernel

end ExportRun

end Tracing
