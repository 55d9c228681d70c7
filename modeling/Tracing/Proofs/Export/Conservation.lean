import Tracing.Proofs.Export.Run

/-!
# The exporter loses, repeats and reorders nothing

The spans of accepted traces move from the queue into the packer, from there into a payload, and with its
first attempt to the transport. `work_conserves` is the law of this flow: a step of the worker changes
where the spans are, but not their sequence. The law needs to know that a retry sends what was sent before
and that the worker stops only with nothing left, which is the invariant `Orderly`.

* `exported_in_order`: in every run, what was handed to the transport is the beginning of what was
  accepted, and all of it once the worker has stopped.
-/

namespace Tracing

open Packer (spansOf)

/-! ### What the transport was handed -/

/-- Whether a payload may be sent again after a reply. -/
def Reply.isTransient : Reply → Bool
  | failed failure => !failure.isPermanent
  | accepted | silence => false

/-- Whether an attempt sends the payload of the attempt before it again. -/
def Attempt.isRetryOf (a before : Attempt) : Bool :=
  a.payload = before.payload ∧ a.failed = before.failed + 1 ∧ before.reply.isTransient

/-- The payloads of attempts that follow another one, consecutive retries counted once. -/
def handedAfter : Option Attempt → List Attempt → List Payload
  | _, [] => []
  | before, a :: rest =>
    (if before.any a.isRetryOf then [] else [a.payload]) ++ handedAfter (some a) rest

/-- The payloads handed to the transport, consecutive retries counted once. -/
def handed (attempts : List Attempt) : List Payload := handedAfter none attempts

/-- The spans handed to the transport. -/
def sent (attempts : List Attempt) : List String := (handed attempts).flatMap Payload.spans

theorem handedAfter_concat (before : Option Attempt) (attempts : List Attempt) (a : Attempt) :
    handedAfter before (attempts ++ [a]) = handedAfter before attempts ++
      if (attempts.getLast?.or before).any a.isRetryOf then [] else [a.payload] := by
  induction attempts generalizing before with
  | nil => exact List.append_nil _
  | cons b rest ih =>
    have hlast : ((b :: rest).getLast?.or before) = rest.getLast?.or (some b) := by
      cases rest <;> simp [List.getLast?_cons]
    rw [List.cons_append, handedAfter, ih, handedAfter, hlast, List.append_assoc]

theorem sent_fresh (attempts : List Attempt) {a : Attempt} (h : a.failed = 0) :
    sent (attempts ++ [a]) = sent attempts ++ a.payload.spans := by
  have hnot : ∀ before : Attempt, a.isRetryOf before = false := by
    intro before
    simp [Attempt.isRetryOf, h]
  have hany : (attempts.getLast?.or none).any a.isRetryOf = false := by
    cases attempts.getLast?.or none with
    | none => rfl
    | some before => exact hnot before
  unfold sent handed
  rw [handedAfter_concat, hany]
  simp

theorem sent_retry {attempts : List Attempt} {a before : Attempt} (hlast : attempts.getLast? = some before)
    (h : a.isRetryOf before = true) : sent (attempts ++ [a]) = sent attempts := by
  unfold sent handed
  rw [handedAfter_concat, hlast]
  simp [h]

/-! ### Control -/

namespace Phase

/-- The payload that has failed so far, and how often. -/
def retry? : Phase → Option (Payload × Nat)
  | sending _ payload (failed + 1) _ => some (payload, failed + 1)
  | pausing _ payload failed _ _ => some (payload, failed)
  | _ => none

/-- Whether the worker is past its queue for good. -/
def isClosing : Phase → Bool
  | flushing trigger | sending trigger _ _ _ | pausing trigger _ _ _ _ => trigger == .closing
  | stopped => true
  | _ => false

/-- The spans of a payload that was taken and not yet handed to the transport. -/
def held : Phase → List String
  | sending _ payload 0 _ => payload.spans
  | _ => []

end Phase

namespace Exporter

variable {transport : Transport} {e e' : Exporter}

/-- A retry repeats the last attempt, and the worker stops only with nothing left. -/
structure Orderly (e : Exporter) : Prop where
  retrying : ∀ payload failed, e.phase.retry? = some (payload, failed) →
    ∃ last, e.attempts.getLast? = some last ∧ last.payload = payload ∧ failed = last.failed + 1 ∧
      last.reply.isTransient = true
  draining : e.phase = .draining → e.closed = true
  closing : e.phase.isClosing = true → e.closed = true ∧ e.queue = []
  stopped : e.phase = .stopped → e.packer.queue = []

theorem Orderly.frame (h : Orderly e) (phase : e'.phase = e.phase) (attempts : e'.attempts = e.attempts)
    (closed : e'.closed = e.closed) (queue : e'.queue = e.queue)
    (packer : e'.packer = e.packer) : Orderly e' := by
  obtain ⟨hretrying, hdraining, hclosing, hstopped⟩ := h
  rw [← phase] at hretrying hdraining hclosing hstopped
  constructor
  · rwa [attempts]
  · rwa [closed]
  · rwa [closed, queue]
  · rwa [packer]

theorem orderly_of_phase (hretry : e.phase.retry? = none) (hdraining : e.phase ≠ .draining)
    (hclosing : e.phase.isClosing = false) : Orderly e := by
  constructor
  · intro payload failed h
    rw [hretry] at h
    cases h
  · intro h
    exact absurd h hdraining
  · intro h
    rw [hclosing] at h
    cases h
  · intro h
    rw [h] at hclosing
    cases hclosing

theorem orderly_work (h : Orderly e) (effect : WorkEffect transport e e') : Orderly e' := by
  have hclosing := h.closing
  cases effect with
  | discarded => exact orderly_of_phase rfl (by simp [discard]) rfl
  | began => exact orderly_of_phase rfl (by simp) rfl
  | closed =>
    exact ⟨by simp [close, Phase.retry?], fun _ => rfl, by simp [close, Phase.isClosing],
      by simp [close]⟩
  | received trace rest phase =>
    have hphase : (e.packed trace rest).phase = .waiting := phase
    exact orderly_of_phase (by rw [hphase]; rfl) (by simp [hphase]) (by rw [hphase]; rfl)
  | filled | ticked => exact orderly_of_phase rfl (by simp) rfl
  | drained trace rest phase =>
    have hphase : (e.packed trace rest).phase = .draining := phase
    refine ⟨?_, fun _ => h.draining phase, ?_, ?_⟩ <;> rw [hphase] <;> intros <;> contradiction
  | emptied phase queue =>
    exact ⟨by simp [Phase.retry?], by simp, fun _ => ⟨h.draining phase, queue⟩, by simp⟩
  | taken trigger payload packer phase =>
    rw [phase] at hclosing
    exact ⟨by simp [Phase.retry?], by simp, hclosing, by simp⟩
  | resumed trigger phase empty =>
    rw [phase] at hclosing
    cases trigger with
    | threshold | tick => exact orderly_of_phase rfl (by simp [resume]) rfl
    | closing =>
      exact ⟨by simp [resume, Phase.retry?], by simp [resume], fun _ => hclosing rfl, fun _ => empty⟩
  | delivered trigger payload failed backoff phase =>
    rw [phase] at hclosing
    exact ⟨by simp [deliver, Phase.retry?], by simp [deliver], hclosing, by simp [deliver]⟩
  | gaveUp trigger payload failed backoff failure phase =>
    rw [phase] at hclosing
    exact ⟨by simp [giveUp, Phase.retry?], by simp [giveUp], hclosing, by simp [giveUp]⟩
  | hung => exact orderly_of_phase rfl (by simp) rfl
  | backedOff trigger payload failed backoff failure phase _ transient =>
    rw [phase] at hclosing
    refine ⟨fun payload' failed' hretry => ?_, by simp [backOff], hclosing, by simp [backOff]⟩
    obtain ⟨rfl, rfl⟩ := Prod.mk.inj (Option.some.inj hretry)
    refine ⟨_, List.getLast?_concat, rfl, rfl, ?_⟩
    simp [Reply.isTransient, transient]
  | woke trigger payload failed backoff wake phase =>
    rw [phase] at hclosing
    obtain ⟨last, hlast, hpayload, hfailed, htransient⟩ := h.retrying payload failed (by rw [phase]; rfl)
    refine ⟨fun payload' failed' hretry => ?_, by simp, hclosing, by simp⟩
    subst hfailed
    obtain ⟨rfl, rfl⟩ := Prod.mk.inj (Option.some.inj hretry)
    exact ⟨last, hlast, hpayload, rfl, htransient⟩

/-! ### The flow of spans -/

/-- The spans that a packer can export of a trace. -/
def exportable (e : Exporter) (trace : List SpanRecord) : List String :=
  encodable e.packer.maxBytes e.packer.maxValueLength trace

/-- The spans on their way to the transport, those that come first in front. -/
def inTransit (e : Exporter) : List String :=
  e.phase.held ++ (spansOf e.packer.queue ++ e.queue.flatMap e.exportable)

theorem inTransit_accept (e : Exporter) (trace : List SpanRecord) :
    inTransit { e with queue := e.queue ++ [trace] } = e.inTransit ++ e.exportable trace := by
  have hsame : ({ e with queue := e.queue ++ [trace] } : Exporter).exportable = e.exportable := rfl
  unfold inTransit
  rw [hsame, List.flatMap_append]
  simp

theorem pack_conserves {trace : List SpanRecord} {rest : List (List SpanRecord)}
    (queue : e.queue = trace :: rest) :
    spansOf (e.packed trace rest).packer.queue ++ rest.flatMap e.exportable =
      spansOf e.packer.queue ++ e.queue.flatMap e.exportable := by
  have hqueue : spansOf (e.packed trace rest).packer.queue =
      spansOf e.packer.queue ++ e.exportable trace := by
    show spansOf (e.packer.enqueue (e.packer.encodeAll trace).value).queue = _
    rw [Packer.enqueue_spans, Packer.encodeAll_value]
    rfl
  rw [hqueue, queue, List.flatMap_cons, List.append_assoc]

theorem record_conserves (h : Orderly e) {trigger : Trigger} {payload : Payload} {failed backoff : Nat}
    (phase : e.phase = .sending trigger payload failed backoff) (reply : Reply) :
    sent (e.record payload failed reply).attempts = sent e.attempts ++ e.phase.held := by
  cases failed with
  | zero =>
    rw [phase]
    exact sent_fresh e.attempts rfl
  | succ failed =>
    obtain ⟨last, hlast, hpayload, hfailed, htransient⟩ :=
      h.retrying payload (failed + 1) (by rw [phase]; rfl)
    rw [phase]
    show _ = sent e.attempts ++ []
    rw [List.append_nil]
    refine sent_retry hlast ?_
    simp [Attempt.isRetryOf, hpayload, hfailed, htransient]

/-- A worker that is gone stays so, and only discarding it makes it so. -/
theorem work_alive (effect : WorkEffect transport e e') :
    (e.aborting = true ∧ e' = e.discard) ∨
      (e.phase ≠ .gone ∧ e'.phase ≠ .gone ∧ e'.aborting = e.aborting) := by
  cases effect with
  | discarded aborting => exact .inl ⟨aborting, rfl⟩
  | received trace rest phase | drained trace rest phase =>
    have hphase : (e.packed trace rest).phase = e.phase := rfl
    exact .inr ⟨by simp [phase], by simp [hphase, phase], rfl⟩
  | resumed trigger phase =>
    exact .inr ⟨by simp [phase], by cases trigger <;> simp [resume], by cases trigger <;> rfl⟩
  | began phase | ticked phase | emptied phase | filled _ _ phase | taken _ _ _ phase | hung _ _ _ _ phase
  | woke _ _ _ _ _ phase => exact .inr ⟨by simp [phase], by simp, rfl⟩
  | closed phase | delivered _ _ _ _ phase | gaveUp _ _ _ _ _ phase | backedOff _ _ _ _ _ phase =>
    exact .inr ⟨by simp [phase], by simp [close, deliver, giveUp, backOff], rfl⟩

/-- **The worker moves spans on and keeps their sequence.** Only discarding it loses what was on the way. -/
theorem work_conserves (h : Orderly e) (effect : WorkEffect transport e e') :
    e'.packer.maxBytes = e.packer.maxBytes ∧ e'.packer.maxValueLength = e.packer.maxValueLength ∧
      (e' = e.discard ∨ sent e'.attempts ++ inTransit e' = sent e.attempts ++ inTransit e) := by
  cases effect with
  | discarded => exact ⟨rfl, rfl, .inl rfl⟩
  | began phase | closed phase | ticked phase | emptied phase =>
    refine ⟨rfl, rfl, .inr ?_⟩
    unfold inTransit
    rw [phase]
    rfl
  | received trace rest _ _ queue | drained trace rest _ queue =>
    refine ⟨rfl, rfl, .inr ?_⟩
    show sent e.attempts ++ (e.phase.held
      ++ (spansOf (e.packed trace rest).packer.queue ++ rest.flatMap e.exportable)) = _
    rw [pack_conserves queue]
    rfl
  | filled trace rest phase _ queue =>
    refine ⟨rfl, rfl, .inr ?_⟩
    show sent e.attempts ++ ([]
      ++ (spansOf (e.packed trace rest).packer.queue ++ rest.flatMap e.exportable)) = _
    rw [pack_conserves queue]
    unfold inTransit
    rw [phase]
    rfl
  | taken trigger payload packer phase next =>
    obtain ⟨hspans, hbytes, hlength⟩ := Packer.nextPayload_spans next
    refine ⟨hbytes, hlength, .inr ?_⟩
    have hexportable : ({ e with packer } : Exporter).exportable = e.exportable := by
      funext trace
      unfold exportable
      rw [hbytes, hlength]
    show sent e.attempts ++ (payload.spans
      ++ (spansOf packer.queue ++ e.queue.flatMap ({ e with packer } : Exporter).exportable)) = _
    unfold inTransit
    rw [hexportable, phase, hspans, List.append_assoc]
    rfl
  | resumed trigger phase =>
    refine ⟨by cases trigger <;> rfl, by cases trigger <;> rfl, .inr ?_⟩
    unfold inTransit
    rw [phase]
    cases trigger <;> rfl
  | delivered trigger payload failed backoff phase reply
  | gaveUp trigger payload failed backoff failure phase reply
  | hung trigger payload failed backoff phase reply
  | backedOff trigger payload failed backoff failure phase reply =>
    refine ⟨rfl, rfl, .inr ?_⟩
    unfold inTransit
    rw [← List.append_assoc (sent e.attempts), ← record_conserves h phase]
    rfl
  | woke trigger payload failed backoff wake phase =>
    obtain ⟨last, -, -, hfailed, -⟩ := h.retrying payload failed (by rw [phase]; rfl)
    refine ⟨rfl, rfl, .inr ?_⟩
    unfold inTransit
    rw [phase, hfailed]
    rfl

end Exporter

/-! ### Runs -/

namespace ExportRun

open Exporter

variable {transport : Transport} {maxBytes maxValueLength : Nat} {s : ExportRun}

/-- The spans to be exported of all accepted traces. -/
def acceptedSpans (maxBytes maxValueLength : Nat) (s : ExportRun) : List String :=
  s.accepted.flatMap (encodable maxBytes maxValueLength)

/-- The accepted spans are those handed over and those on their way, unless the worker was discarded. -/
structure Conserved (maxBytes maxValueLength : Nat) (s : ExportRun) : Prop where
  orderly : s.exporter.Orderly
  maxBytes_eq : s.exporter.packer.maxBytes = maxBytes
  maxValueLength_eq : s.exporter.packer.maxValueLength = maxValueLength
  balance : s.exporter.phase ≠ .gone →
    acceptedSpans maxBytes maxValueLength s = sent s.exporter.attempts ++ s.exporter.inTransit
  lost : s.exporter.phase = .gone → sent s.exporter.attempts <+: acceptedSpans maxBytes maxValueLength s

theorem Conserved.sent_accepted (h : Conserved maxBytes maxValueLength s) :
    sent s.exporter.attempts <+: acceptedSpans maxBytes maxValueLength s := by
  by_cases hgone : s.exporter.phase = .gone
  · exact h.lost hgone
  · rw [h.balance hgone]
    exact List.prefix_append _ _

theorem Conserved.frame (h : Conserved maxBytes maxValueLength s) {e : Exporter}
    (phase : e.phase = s.exporter.phase) (attempts : e.attempts = s.exporter.attempts)
    (closed : e.closed = s.exporter.closed) (queue : e.queue = s.exporter.queue)
    (packer : e.packer = s.exporter.packer) :
    Conserved maxBytes maxValueLength { s with exporter := e } := by
  have htransit : e.inTransit = s.exporter.inTransit := by
    unfold inTransit exportable
    rw [phase, queue, packer]
  refine ⟨h.orderly.frame phase attempts closed queue packer, ?_, ?_, fun hgone => ?_, fun hgone => ?_⟩
  · show e.packer.maxBytes = maxBytes
    rw [packer, h.maxBytes_eq]
  · show e.packer.maxValueLength = maxValueLength
    rw [packer, h.maxValueLength_eq]
  · show acceptedSpans maxBytes maxValueLength s = sent e.attempts ++ e.inTransit
    rw [attempts, htransit]
    exact h.balance (phase ▸ hgone)
  · show sent e.attempts <+: acceptedSpans maxBytes maxValueLength s
    rw [attempts]
    exact h.lost (phase ▸ hgone)

theorem conserved_discard (h : Conserved maxBytes maxValueLength s) :
    Conserved maxBytes maxValueLength { s with exporter := s.exporter.discard } :=
  ⟨orderly_of_phase rfl (by simp [Exporter.discard]) rfl, h.maxBytes_eq, h.maxValueLength_eq,
    fun hgone => absurd rfl hgone, fun _ => h.sent_accepted⟩

theorem conserved_work (h : Conserved maxBytes maxValueLength s) {e : Exporter}
    (effect : WorkEffect transport s.exporter e) :
    Conserved maxBytes maxValueLength { s with exporter := e } := by
  obtain ⟨hbytes, hlength, hlaw⟩ := work_conserves h.orderly effect
  rcases work_alive effect with ⟨-, hdiscard⟩ | ⟨hbefore, hafter, -⟩
  · rw [hdiscard]
    exact conserved_discard h
  · refine ⟨orderly_work h.orderly effect, hbytes.trans h.maxBytes_eq,
      hlength.trans h.maxValueLength_eq, fun _ => ?_, fun hgone => absurd hgone hafter⟩
    rcases hlaw with hdiscard | hlaw
    · exact absurd (by rw [hdiscard]; rfl) hafter
    · exact (h.balance hbefore).trans hlaw.symm

theorem conserved_accept (h : Conserved maxBytes maxValueLength s) (opened : s.exporter.closed = false)
    (trace : List SpanRecord) : Conserved maxBytes maxValueLength
      { exporter := { s.exporter with queue := s.exporter.queue ++ [trace] }, accepted := s.accepted ++ [trace] } := by
  have haccepted : acceptedSpans maxBytes maxValueLength { s with accepted := s.accepted ++ [trace] } =
      acceptedSpans maxBytes maxValueLength s ++ encodable maxBytes maxValueLength trace := by
    simp [acceptedSpans]
  refine ⟨⟨h.orderly.retrying, h.orderly.draining, fun hclosing => ?_, h.orderly.stopped⟩, h.maxBytes_eq,
    h.maxValueLength_eq, fun hgone => ?_, fun hgone => ?_⟩
  · have hclosed := (h.orderly.closing hclosing).1
    rw [opened] at hclosed
    cases hclosed
  · refine haccepted.trans ?_
    rw [h.balance hgone, ← h.maxBytes_eq, ← h.maxValueLength_eq, List.append_assoc]
    exact congrArg _ (inTransit_accept s.exporter trace).symm
  · exact (h.lost hgone).trans (haccepted ▸ List.prefix_append _ _)

theorem conserved_step (s : ExportRun) (op : ExportOp) (h : Conserved maxBytes maxValueLength s) :
    Conserved maxBytes maxValueLength (s.step transport op) := by
  have effect := @step_effect transport s op
  generalize s.step transport op = s' at effect ⊢
  cases effect with
  | accepted trace _ opened => exact conserved_accept h opened trace
  | worked next step => exact conserved_work h (work_effect step)
  | started phase =>
    refine ⟨orderly_of_phase rfl (by simp) rfl, h.maxBytes_eq, h.maxValueLength_eq, fun _ => ?_,
      fun hgone => by cases hgone⟩
    have hbalance := h.balance (by simp [phase])
    unfold inTransit at hbalance
    rw [phase] at hbalance
    exact hbalance
  | discarded => exact conserved_discard h
  | refused | aborting | rejected | released | cancelled | clocked => exact h.frame rfl rfl rfl rfl rfl
  | unchanged => exact h

theorem conserved_new {c : Config} {e : Exporter} (h : Exporter.ofConfig? c = some e) :
    Conserved c.maxPayloadBytes c.maxValueLength { exporter := e } := by
  obtain rfl := eq_of_ofConfig? h
  exact ⟨orderly_of_phase rfl (by simp) rfl, rfl, rfl, fun _ => rfl, fun _ => List.prefix_refl _⟩

theorem inTransit_of_finished {e : Exporter} (h : Orderly e) (hstopped : e.phase = .stopped) :
    e.inTransit = [] := by
  have hqueue : e.queue = [] := (h.closing (by rw [hstopped]; rfl)).2
  unfold inTransit
  rw [hstopped, h.stopped hstopped, hqueue]
  rfl

/-- **The exporter loses, repeats and reorders nothing.** In every run of an exporter that was made for a
configuration, with every transport: the spans of the payloads handed to the transport, a payload and its
retries counted once, are the beginning of the encodable spans of the accepted traces, in order; and they
are all of them when the worker has finished. -/
theorem exported_in_order {c : Config} {e : Exporter} (h : Exporter.ofConfig? c = some e)
    (transport : Transport) (ops : List ExportOp) :
    let s := after transport e ops
    sent s.exporter.attempts <+: acceptedSpans c.maxPayloadBytes c.maxValueLength s ∧
      (s.exporter.isFinished = true →
        sent s.exporter.attempts = acceptedSpans c.maxPayloadBytes c.maxValueLength s) := by
  intro s
  have hs : Conserved c.maxPayloadBytes c.maxValueLength s :=
    after_induction (conserved_new h) conserved_step ops
  refine ⟨hs.sent_accepted, fun hfinished => ?_⟩
  have hstopped : s.exporter.phase = .stopped := eq_of_beq hfinished
  rw [hs.balance (by simp [hstopped]), inTransit_of_finished hs.orderly hstopped, List.append_nil]

/-- Two traces, a first attempt that fails, and a request to stop: both are exported. -/
theorem exported_in_order_retried :
    let e := (Exporter.ofConfig? .default).getD default
    let transport : Transport := ⟨fun n => if n = 0 then .failed (.transient "reset") else .accepted⟩
    let trace (n : Nat) := [SpanRecord.new (.ofNat n) (.ofNat 1) none "op" "svc" 0]
    let ops : List ExportOp := [.start, .enqueue (trace 1), .enqueue (trace 2), .cancel]
      ++ List.replicate 7 .work ++ .clock 100 :: List.replicate 4 .work
    let s := after transport e ops
    Exporter.ofConfig? .default = some e ∧ s.exporter.isFinished = true ∧
      s.exporter.attempts.length = 2 ∧ sent s.exporter.attempts =
        acceptedSpans Config.default.maxPayloadBytes Config.default.maxValueLength s := by
  intro e transport trace ops
  have he : Exporter.ofConfig? .default = some e := rfl
  have hfinished : (after transport e ops).exporter.isFinished = true := by decide +kernel
  have hall := (exported_in_order he transport ops).2 hfinished
  exact ⟨he, hfinished, by decide +kernel, hall⟩

end ExportRun

end Tracing
