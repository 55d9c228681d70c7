import Mathlib.Order.Bounds.Basic
import Tracing.Proofs.Payload.Accounting

/-!
# Draining takes as few payloads as possible

Payloads are taken from a packer until there is none (`Drains`). Each takes chunks from the front of the queue
as long as they fit, so taking them all is one way of cutting the queue into groups that fit (`Cut`). No other
way has fewer groups, since none is ever further through the queue:

* `nextPayload_takes`: a payload takes all chunks at the front of the queue that fit together;
* `exists_drains`, `Drains.unique`: draining ends, in one way;
* `Drains.cut`: the payloads that are taken cut the queue;
* `Drains.length_le`: no cut of the queue, or of more chunks in front of it, has fewer groups;
* `drains_least`: the number of payloads is the least, however the packer was used before.
-/

namespace Tracing.Packer

open Chunk (Queued)

variable {limit : Nat}

/-! ### A payload takes as much as it can -/

theorem takeFitting_takes {front : List Chunk} (h : ∀ chunk ∈ front, Queued limit chunk) (rest : List Chunk)
    {held : List String} (hne : held ≠ []) (hfits : textSize (held ++ spansOf front) ≤ limit) :
    ∃ more, (takeFitting limit (textSize held) (front ++ rest)).1 = front ++ more := by
  induction front generalizing held with
  | nil => exact ⟨_, rfl⟩
  | cons chunk front ih =>
    obtain ⟨hchunk, hfront⟩ := List.forall_mem_cons.mp h
    rw [spansOf_cons, ← List.append_assoc] at hfits
    have hroom : textSize (held ++ chunk.spans) ≤ limit := (textSize_le_append _ _).trans hfits
    obtain ⟨more, hmore⟩ := ih hfront (List.append_ne_nil_of_left_ne_nil hne _) hfits
    refine ⟨more, ?_⟩
    rw [List.cons_append, takeFitting, textSize_join hne hchunk, if_pos hroom]
    exact congrArg (chunk :: ·) hmore

/-- **A payload takes all chunks at the front of the queue that fit together.** -/
theorem nextPayload_takes {p q : Packer} {payload : Payload} (h : p.Sound)
    (hnext : p.nextPayload = some (payload, q)) {front rest : List Chunk} (hqueue : p.queue = front ++ rest)
    (hfits : (Payload.mk front).size ≤ p.maxBytes) : ∃ more, rest = more ++ q.queue := by
  obtain ⟨hchunks, -⟩ := nextPayload_chunks hnext
  cases front with
  | nil => exact ⟨payload.chunks, hqueue.symm.trans hchunks⟩
  | cons first front =>
    have hqueued : ∀ chunk ∈ first :: front, Queued p.limit chunk :=
      fun chunk hchunk => h chunk (hqueue ▸ List.mem_append_left _ hchunk)
    obtain ⟨hfirst, hfront⟩ := List.forall_mem_cons.mp hqueued
    have hsize : first.joinedSize true = textSize first.spans := hfirst.size
    have hroom : textSize (first.spans ++ spansOf front) ≤ p.limit := by
      rw [Payload.size_eq] at hfits
      exact Nat.le_sub_of_add_le hfits
    obtain ⟨more, hmore⟩ := takeFitting_takes hfront rest hfirst.filled hroom
    have hpayload : payload.chunks = first :: (front ++ more) := by
      unfold nextPayload at hnext
      rw [hqueue, List.cons_append] at hnext
      obtain ⟨rfl, -⟩ := Prod.mk.inj (Option.some.inj hnext)
      rw [← hmore, ← hsize]
    refine ⟨more, ?_⟩
    rw [hqueue, hpayload] at hchunks
    simpa using hchunks

/-! ### Draining -/

/-- Payloads are taken one after the other until there is none. -/
inductive Drains : Packer → List Payload → Prop where
  | empty {p : Packer} (none : p.nextPayload = none) : Drains p []
  | next {p q : Packer} {payload : Payload} {payloads : List Payload}
      (some : p.nextPayload = some (payload, q)) (rest : Drains q payloads) : Drains p (payload :: payloads)

/-- **Draining ends**: every payload makes the queue shorter. -/
theorem exists_drains (p : Packer) : ∃ payloads, Drains p payloads := by
  induction hlength : p.queue.length using Nat.strong_induction_on generalizing p with
  | h n ih =>
    cases hnext : p.nextPayload with
    | none => exact ⟨[], .empty hnext⟩
    | some next =>
      obtain ⟨payloads, hrest⟩ := ih _ (hlength ▸ length_nextPayload hnext) next.2 rfl
      exact ⟨next.1 :: payloads, .next hnext hrest⟩

theorem Drains.unique {p : Packer} {payloads others : List Payload} (h : Drains p payloads)
    (h' : Drains p others) : others = payloads := by
  induction h generalizing others with
  | empty hnone =>
    cases h' with
    | empty => rfl
    | next hsome => simp [hnone] at hsome
  | next hsome _ ih =>
    cases h' with
    | empty hnone => simp [hnone] at hsome
    | next hsome' hrest =>
      rw [hsome, Option.some.injEq, Prod.mk.injEq] at hsome'
      obtain ⟨rfl, rfl⟩ := hsome'
      rw [ih hrest]

theorem Drains.filled {p : Packer} {payloads : List Payload} (hd : Drains p payloads) (h : p.Sound) :
    ∀ payload ∈ payloads, payload.spans ≠ [] := by
  induction hd with
  | empty => exact fun payload hpayload => absurd hpayload List.not_mem_nil
  | next hsome _ ih =>
    obtain ⟨-, hspans, hsound⟩ := nextPayload_size h hsome
    exact List.forall_mem_cons.mpr ⟨hspans, ih hsound⟩

/-! ### Cutting the queue -/

/-- A way of cutting chunks into consecutive groups each of which fits into a payload. -/
structure Cut (maxBytes : Nat) (chunks : List Chunk) (groups : List (List Chunk)) : Prop where
  flatten : groups.flatten = chunks
  fits : ∀ group ∈ groups, (Payload.mk group).size ≤ maxBytes

theorem Drains.cut {p : Packer} {payloads : List Payload} (hd : Drains p payloads) (h : p.Sound) :
    Cut p.maxBytes p.queue (payloads.map Payload.chunks) := by
  induction hd with
  | empty hnone => exact ⟨(nextPayload_eq_none.mp hnone).symm, fun group hgroup => absurd hgroup List.not_mem_nil⟩
  | next hsome _ ih =>
    obtain ⟨hchunks, -, hbytes, -⟩ := nextPayload_chunks hsome
    obtain ⟨hsize, -, hsound⟩ := nextPayload_size h hsome
    obtain ⟨hflatten, hfits⟩ := ih hsound
    refine ⟨?_, List.forall_mem_cons.mpr ⟨hsize, hbytes ▸ hfits⟩⟩
    rw [List.map_cons, List.flatten_cons, hflatten, hchunks]

theorem size_le_append (front : List Chunk) (chunks : List Chunk) :
    (Payload.mk chunks).size ≤ (Payload.mk (front ++ chunks)).size := by
  have hsize := textSize_le_append_left (spansOf front) (spansOf chunks)
  rw [← spansOf_append] at hsize
  rw [Payload.size_eq, Payload.size_eq]
  exact Nat.add_le_add_right hsize 2

/-- **No cut has fewer groups than draining takes payloads.** The cut may be one of more chunks that end with
those in the queue: then draining is ahead of it. -/
theorem Drains.length_le {p : Packer} {payloads : List Payload} (hd : Drains p payloads) (h : p.Sound)
    {gone : List Chunk} {groups : List (List Chunk)} (hcut : Cut p.maxBytes (gone ++ p.queue) groups) :
    payloads.length ≤ groups.length := by
  induction groups generalizing p payloads gone with
  | nil =>
    obtain ⟨-, hqueue⟩ := List.append_eq_nil_iff.mp hcut.flatten.symm
    cases hd with
    | empty => exact Nat.le_refl _
    | next hsome =>
      rw [nextPayload_eq_none.mpr hqueue] at hsome
      cases hsome
  | cons group groups ih =>
    obtain ⟨hflatten, hfits⟩ := hcut
    obtain ⟨hgroup, hgroups⟩ := List.forall_mem_cons.mp hfits
    rw [List.flatten_cons] at hflatten
    -- the queue begins behind the first group, or inside it
    rcases List.append_eq_append_iff.mp hflatten with ⟨mid, rfl, hrest⟩ | ⟨mid, rfl, hqueue⟩
    · exact (ih hd h ⟨hrest, hgroups⟩).trans (Nat.le_succ _)
    · cases hd with
      | empty => exact Nat.zero_le _
      | next hsome hrest =>
        obtain ⟨more, hmore⟩ := nextPayload_takes h hsome hqueue ((size_le_append gone mid).trans hgroup)
        obtain ⟨-, -, hbytes, -⟩ := nextPayload_chunks hsome
        obtain ⟨-, -, hsound⟩ := nextPayload_size h hsome
        exact Nat.succ_le_succ (ih hrest hsound ⟨hmore, hbytes ▸ hgroups⟩)

/-- **Draining ends and packs optimally.** However a packer was used, with whatever limits: taking payloads until
there is none ends, in one way; the payloads cut the queue into consecutive groups that fit; and their number is
the least that such a cut can have. -/
theorem drains_least (maxBytes maxValueLength : Nat) (uses : List Use) :
    let p := after maxBytes maxValueLength uses
    ∃ payloads, Drains p payloads ∧ (∀ others, Drains p others → others = payloads) ∧
      Cut maxBytes p.queue (payloads.map Payload.chunks) ∧
      IsLeast {n | ∃ groups, Cut maxBytes p.queue groups ∧ groups.length = n} payloads.length := by
  intro p
  obtain ⟨hsound, hbytes⟩ := sound_after maxBytes maxValueLength uses
  obtain ⟨payloads, hdrains⟩ := exists_drains p
  have hcut : Cut maxBytes p.queue (payloads.map Payload.chunks) := hbytes ▸ hdrains.cut hsound
  refine ⟨payloads, hdrains, fun others => hdrains.unique, hcut, ⟨_, hcut, List.length_map _⟩, ?_⟩
  rintro n ⟨groups, hgroups, rfl⟩
  have hnone_gone : Cut p.maxBytes ([] ++ p.queue) groups := hbytes ▸ hgroups
  exact hdrains.length_le hsound hnone_gone

end Tracing.Packer
