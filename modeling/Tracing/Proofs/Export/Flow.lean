import Tracing.Proofs.Export.Conservation
import Tracing.Proofs.Payload.Accounting

/-!
# What the worker moves

For questions about traces, payloads and counters most of an exporter does not matter: not what it waits
for, not the time, not what made it flush. Its `Books` are the rest: the queue, the packer, the payload that
was taken and not yet tried, the attempts, and the counters of the worker.

* `finals` are the attempts that no retry follows, one for each payload handed over (`handed_eq`);
* `Flow` lists what a step of the worker does to the books, and `work_flow` says that the list is complete.
-/

namespace Tracing

/-! ### The last attempt of every payload -/

namespace Attempt

def isAccepted (a : Attempt) : Bool :=
  match a.reply with
  | .accepted => true
  | .failed _ | .silence => false

/-- Whether an attempt was answered, but not accepted. -/
def isFailed (a : Attempt) : Bool :=
  match a.reply with
  | .failed _ => true
  | .accepted | .silence => false

def isUnanswered (a : Attempt) : Bool :=
  match a.reply with
  | .silence => true
  | .accepted | .failed _ => false

theorem isFailed_of_isRetryOf {a last : Attempt} (h : a.isRetryOf last = true) : last.isFailed = true := by
  simp only [isRetryOf, decide_eq_true_eq] at h
  unfold isFailed
  cases hreply : last.reply with
  | failed => rfl
  | accepted | silence =>
    rw [hreply] at h
    cases h.2.2

theorem payload_of_isRetryOf {a last : Attempt} (h : a.isRetryOf last = true) :
    a.payload = last.payload := by
  simp only [isRetryOf, decide_eq_true_eq] at h
  exact h.1

end Attempt

theorem sum_by_reply (f : Attempt → Nat) (attempts : List Attempt) :
    (attempts.map f).sum = ((attempts.filter Attempt.isAccepted).map f).sum +
      ((attempts.filter Attempt.isFailed).map f).sum + ((attempts.filter Attempt.isUnanswered).map f).sum := by
  induction attempts with
  | nil => rfl
  | cons a rest ih =>
    rw [List.map_cons, List.sum_cons, ih, List.filter_cons, List.filter_cons, List.filter_cons]
    cases hreply : a.reply <;>
      simp only [Attempt.isAccepted, Attempt.isFailed, Attempt.isUnanswered, hreply, Bool.false_eq_true,
        if_true, if_false, List.map_cons, List.sum_cons] <;> omega

/-- The attempts that no retry follows: the last attempt of every payload handed over. -/
def finals : List Attempt → List Attempt
  | [] => []
  | a :: rest => if rest.head?.any (·.isRetryOf a) then finals rest else a :: finals rest

theorem finals_cons_cons (a b : Attempt) (rest : List Attempt) : finals (a :: b :: rest) =
    if b.isRetryOf a then finals (b :: rest) else a :: finals (b :: rest) := rfl

theorem finals_ne_nil {attempts : List Attempt} (h : attempts ≠ []) : finals attempts ≠ [] := by
  induction attempts with
  | nil => exact absurd rfl h
  | cons a rest ih =>
    unfold finals
    split
    · next hretry =>
      refine ih ?_
      rintro rfl
      cases hretry
    · exact List.cons_ne_nil _ _

theorem finals_concat (attempts : List Attempt) (a : Attempt) :
    finals (attempts ++ [a]) =
      (if attempts.getLast?.any a.isRetryOf then (finals attempts).dropLast else finals attempts) ++ [a] := by
  induction attempts with
  | nil => rfl
  | cons b rest ih =>
    cases rest with
    | nil =>
      by_cases hretry : a.isRetryOf b = true
      · simp [finals, hretry]
      · simp [finals, hretry]
    | cons c rest =>
      have hlast : (b :: c :: rest).getLast? = (c :: rest).getLast? := List.getLast?_cons_cons
      have hne : finals (c :: rest) ≠ [] := finals_ne_nil (List.cons_ne_nil c rest)
      rw [List.cons_append, List.cons_append, finals_cons_cons, ← List.cons_append, ih, finals_cons_cons, hlast]
      split
      · rfl
      · split
        · rw [List.dropLast_cons_of_ne_nil hne, List.cons_append]
        · rfl

theorem getLast?_finals (attempts : List Attempt) : (finals attempts).getLast? = attempts.getLast? := by
  induction attempts using List.reverseRecOn with
  | nil => rfl
  | append_singleton attempts a => rw [finals_concat, List.getLast?_concat, List.getLast?_concat]

theorem mem_of_mem_finals {attempts : List Attempt} {a : Attempt} (h : a ∈ finals attempts) :
    a ∈ attempts := by
  induction attempts with
  | nil => cases h
  | cons b rest ih =>
    unfold finals at h
    split at h
    · exact List.mem_cons_of_mem b (ih h)
    · rcases List.mem_cons.mp h with rfl | h
      · exact List.mem_cons_self
      · exact List.mem_cons_of_mem b (ih h)

/-- The last attempts are replaced from behind by a retry, and otherwise become more. -/
theorem finals_retry {attempts : List Attempt} {a last : Attempt} (hlast : attempts.getLast? = some last)
    (hretry : a.isRetryOf last = true) :
    ∃ earlier, finals attempts = earlier ++ [last] ∧ finals (attempts ++ [a]) = earlier ++ [a] := by
  have hfinals : (finals attempts).getLast? = some last := (getLast?_finals attempts).trans hlast
  refine ⟨(finals attempts).dropLast, (List.dropLast_append_getLast? last hfinals).symm, ?_⟩
  rw [finals_concat, hlast]
  simp [hretry]

theorem finals_fresh (attempts : List Attempt) {a : Attempt} (h : a.failed = 0) :
    finals (attempts ++ [a]) = finals attempts ++ [a] := by
  have hnot : attempts.getLast?.any a.isRetryOf = false := by
    cases attempts.getLast? with
    | none => rfl
    | some before => simp [Attempt.isRetryOf, h]
  rw [finals_concat, hnot]
  rfl

/-- **Every payload handed over has one last attempt.** -/
theorem handed_eq (attempts : List Attempt) : handed attempts = (finals attempts).map Attempt.payload := by
  induction attempts using List.reverseRecOn with
  | nil => rfl
  | append_singleton attempts a ih =>
    have hhanded : handed (attempts ++ [a]) =
        handed attempts ++ if attempts.getLast?.any a.isRetryOf then [] else [a.payload] := by
      unfold handed
      rw [handedAfter_concat, Option.or_none]
    rw [hhanded, ih]
    cases hlast : attempts.getLast? with
    | none =>
      rw [finals_concat, hlast]
      simp
    | some last =>
      by_cases hretry : a.isRetryOf last = true
      · obtain ⟨earlier, hbefore, hafter⟩ := finals_retry hlast hretry
        rw [hbefore, hafter]
        simp [hretry, Attempt.payload_of_isRetryOf hretry]
      · rw [finals_concat, hlast]
        simp [hretry]

theorem filter_finals (attempts : List Attempt) :
    (finals attempts).filter Attempt.isAccepted = attempts.filter Attempt.isAccepted := by
  induction attempts using List.reverseRecOn with
  | nil => rfl
  | append_singleton attempts a ih =>
    rw [List.filter_append, ← ih]
    cases hlast : attempts.getLast? with
    | none =>
      rw [finals_concat, hlast]
      simp
    | some last =>
      by_cases hretry : a.isRetryOf last = true
      · obtain ⟨earlier, hbefore, hafter⟩ := finals_retry hlast hretry
        have hnot : last.isAccepted = false := by
          have hfailed := Attempt.isFailed_of_isRetryOf hretry
          unfold Attempt.isFailed at hfailed
          unfold Attempt.isAccepted
          cases hreply : last.reply with
          | failed | silence => rfl
          | accepted =>
            rw [hreply] at hfailed
            cases hfailed
        rw [hbefore, hafter, List.filter_append, List.filter_append]
        simp [hnot]
      · rw [finals_concat, hlast]
        simp [hretry]

theorem exists_of_mem_sent {attempts : List Attempt} {span : String} (h : span ∈ sent attempts) :
    ∃ a ∈ attempts, span ∈ a.payload.spans := by
  unfold sent at h
  rw [handed_eq] at h
  obtain ⟨payload, hpayload, hspan⟩ := List.mem_flatMap.mp h
  obtain ⟨a, ha, rfl⟩ := List.mem_map.mp hpayload
  exact ⟨a, mem_of_mem_finals ha, hspan⟩

/-! ### Books -/

namespace Phase

/-- The payload that was taken and not yet handed to the transport. -/
def fresh? : Phase → Option Payload
  | sending _ payload 0 _ => some payload
  | _ => none

theorem held_eq (phase : Phase) : phase.held = phase.fresh?.toList.flatMap Payload.spans := by
  cases phase with
  | sending trigger payload failed backoff =>
    cases failed with
    | zero => exact (List.append_nil payload.spans).symm
    | succ => rfl
  | _ => rfl

/-- Whether a reply is awaited that never comes. -/
def isHanging : Phase → Bool
  | hanging => true
  | _ => false

/-- Whether a payload is on its way: taken from the packer, and neither delivered nor given up. -/
def inFlight : Phase → Bool
  | sending .. | pausing .. | hanging => true
  | _ => false

theorem of_not_inFlight {phase : Phase} (h : phase.inFlight = false) :
    phase.fresh? = none ∧ phase.retry? = none ∧ phase.isHanging = false := by
  cases phase with
  | sending | pausing | hanging => cases h
  | _ => exact ⟨rfl, rfl, rfl⟩

end Phase

/-- What an exporter holds and has counted. -/
structure Books where
  queue : List (List SpanRecord)
  packer : Packer
  /-- The payload that was taken and not yet tried. -/
  fresh : Option Payload
  /-- Whether the payload of the last attempt is to be tried again. -/
  retrying : Bool
  /-- Whether the last attempt is never answered. -/
  hanging : Bool
  attempts : List Attempt
  payloadsSent : Nat
  tracesSent : Nat
  exportFailures : Nat

def Exporter.books (e : Exporter) : Books where
  queue := e.queue
  packer := e.packer
  fresh := e.phase.fresh?
  retrying := e.phase.retry?.isSome
  hanging := e.phase.isHanging
  attempts := e.attempts
  payloadsSent := e.stats.payloadsSent
  tracesSent := e.stats.tracesSent
  exportFailures := e.stats.exportFailures

namespace Books

/-- The payloads taken from the packer so far, the oldest first. -/
def taken (b : Books) : List Payload := (finals b.attempts).map Attempt.payload ++ b.fresh.toList

/-- An attempt is made with the payload that was taken last: for the first time, or again. -/
def IsTurn (b : Books) (a : Attempt) : Prop :=
  b.hanging = false ∧ ((b.fresh = some a.payload ∧ a.failed = 0 ∧ b.retrying = false) ∨
    (b.fresh = none ∧ b.retrying = true ∧ ∃ last, b.attempts.getLast? = some last ∧ a.isRetryOf last = true))

/-- The books after an attempt, which is to be repeated or not. -/
def tried (b : Books) (a : Attempt) (again : Bool) : Books :=
  { b with
    fresh := none
    retrying := again
    hanging := a.isUnanswered
    attempts := b.attempts ++ [a]
    payloadsSent := b.payloadsSent + if a.isAccepted then 1 else 0
    tracesSent := b.tracesSent + if a.isAccepted then a.payload.traceCount else 0
    exportFailures := b.exportFailures + if a.isFailed && !again then 1 else 0 }

/-- **An attempt takes the place of the one that it repeats.** -/
theorem finals_tried {b : Books} {a : Attempt} (turn : b.IsTurn a) :
    ∃ earlier repeated, finals b.attempts = earlier ++ repeated ∧
      finals (b.attempts ++ [a]) = earlier ++ [a] ∧ repeated.countP Attempt.isFailed = b.retrying.toNat ∧
      repeated.map Attempt.payload ++ b.fresh.toList = [a.payload] := by
  obtain ⟨-, ⟨hfresh, hfailed, hretrying⟩ | ⟨hfresh, hretrying, last, hlast, hretry⟩⟩ := turn
  · refine ⟨finals b.attempts, [], (List.append_nil _).symm, finals_fresh b.attempts hfailed, ?_, ?_⟩
    · rw [hretrying]
      rfl
    · rw [hfresh]
      rfl
  · obtain ⟨earlier, hbefore, hafter⟩ := finals_retry hlast hretry
    refine ⟨earlier, [last], hbefore, hafter, ?_, ?_⟩
    · rw [hretrying, List.countP_singleton, Attempt.isFailed_of_isRetryOf hretry]
      rfl
    · rw [hfresh, Attempt.payload_of_isRetryOf hretry]
      rfl

theorem taken_tried {b : Books} {a : Attempt} (turn : b.IsTurn a) (again : Bool) :
    (b.tried a again).taken = b.taken := by
  obtain ⟨earlier, repeated, hbefore, hafter, -, hpayload⟩ := finals_tried turn
  have htaken : b.taken = earlier.map Attempt.payload ++ [a.payload] := by
    unfold taken
    rw [hbefore, List.map_append, List.append_assoc, hpayload]
  rw [htaken]
  show (finals (b.attempts ++ [a])).map Attempt.payload ++ [] = _
  rw [hafter, List.append_nil, List.map_append, List.map_singleton]

end Books

/-! ### What a step of the worker does to the books -/

/-- **What one step of the worker can do to the books.** -/
inductive Flow (b : Books) : Books → Prop where
  | unchanged : Flow b b
  | packed (trace : List SpanRecord) (rest : List (List SpanRecord)) (queue : b.queue = trace :: rest) :
      Flow b { b with
        queue := rest
        packer := (b.packer.add trace).value.2
        exportFailures := b.exportFailures + (b.packer.add trace).value.1 }
  | took (payload : Payload) (packer : Packer) (fresh : b.fresh = none)
      (next : b.packer.nextPayload = some (payload, packer)) :
      Flow b { b with packer, fresh := some payload }
  | tried (a : Attempt) (again : Bool) (turn : b.IsTurn a) (failed : again = true → a.isFailed = true) :
      Flow b (b.tried a again)

namespace Exporter

variable {transport : Transport} {e e' : Exporter}

theorem isTurn_of_sending (h : Orderly e) {trigger : Trigger} {payload : Payload} {failed backoff : Nat}
    (phase : e.phase = .sending trigger payload failed backoff) (reply : Reply) :
    e.books.IsTurn { time := e.now, payload, failed, reply } := by
  have hhanging : e.books.hanging = false := by
    show e.phase.isHanging = false
    rw [phase]
    rfl
  refine ⟨hhanging, ?_⟩
  cases failed with
  | zero =>
    refine .inl ⟨?_, rfl, ?_⟩
    · show e.phase.fresh? = _
      rw [phase]
      rfl
    · show e.phase.retry?.isSome = false
      rw [phase]
      rfl
  | succ failed =>
    obtain ⟨last, hlast, hpayload, hfailed, htransient⟩ :=
      h.retrying payload (failed + 1) (by rw [phase]; rfl)
    refine .inr ⟨?_, ?_, last, hlast, ?_⟩
    · show e.phase.fresh? = _
      rw [phase]
      rfl
    · show e.phase.retry?.isSome = true
      rw [phase]
      rfl
    · simp [Attempt.isRetryOf, hpayload, hfailed, htransient]

theorem books_congr (hbefore : e.phase.inFlight = false) (hafter : e'.phase.inFlight = false)
    (queue : e'.queue = e.queue) (packer : e'.packer = e.packer) (attempts : e'.attempts = e.attempts)
    (stats : e'.stats = e.stats) : e'.books = e.books := by
  obtain ⟨hfresh, hretry, hhanging⟩ := Phase.of_not_inFlight hbefore
  obtain ⟨hfresh', hretry', hhanging'⟩ := Phase.of_not_inFlight hafter
  unfold books
  rw [hfresh, hretry, hhanging, hfresh', hretry', hhanging', queue, packer, attempts, stats]

theorem flow_of_control (hbefore : e.phase.inFlight = false) (hafter : e'.phase.inFlight = false)
    (queue : e'.queue = e.queue) (packer : e'.packer = e.packer) (attempts : e'.attempts = e.attempts)
    (stats : e'.stats = e.stats) : Flow e.books e'.books := by
  rw [books_congr hbefore hafter queue packer attempts stats]
  exact .unchanged

/-- **The list is complete**, as long as the worker is not discarded. -/
theorem work_flow (h : Orderly e) (effect : WorkEffect transport e e') :
    e' = e.discard ∨ Flow e.books e'.books := by
  cases effect with
  | discarded => exact .inl rfl
  | began phase | closed phase | ticked phase | emptied phase =>
    exact .inr (flow_of_control (by rw [phase]; rfl) rfl rfl rfl rfl rfl)
  | received trace rest phase _ queue | drained trace rest phase queue =>
    exact .inr (.packed trace rest queue)
  | filled trace rest phase _ queue =>
    have hbooks : ({ e.packed trace rest with phase := .flushing .threshold } : Exporter).books =
        (e.packed trace rest).books :=
      books_congr (by show e.phase.inFlight = false; rw [phase]; rfl) rfl rfl rfl rfl rfl
    rw [hbooks]
    exact .inr (.packed trace rest queue)
  | taken trigger payload packer phase next =>
    have hbooks : ({ e with packer, phase := .sending trigger payload 0 firstBackoff } : Exporter).books =
        { e.books with packer, fresh := some payload } := by
      unfold books
      rw [phase]
      rfl
    rw [hbooks]
    refine .inr (.took payload packer ?_ next)
    show e.phase.fresh? = none
    rw [phase]
    rfl
  | resumed trigger phase =>
    cases trigger <;> exact .inr (flow_of_control (by rw [phase]; rfl) rfl rfl rfl rfl rfl)
  | delivered trigger payload failed backoff phase =>
    exact .inr (.tried _ false (isTurn_of_sending h phase .accepted) nofun)
  | hung trigger payload failed backoff phase =>
    exact .inr (.tried _ false (isTurn_of_sending h phase .silence) nofun)
  | gaveUp trigger payload failed backoff failure phase =>
    exact .inr (.tried _ false (isTurn_of_sending h phase (.failed failure)) nofun)
  | backedOff trigger payload failed backoff failure phase =>
    exact .inr (.tried _ true (isTurn_of_sending h phase (.failed failure)) fun _ => rfl)
  | woke trigger payload failed backoff wake phase =>
    obtain ⟨last, -, -, hfailed, -⟩ := h.retrying payload failed (by rw [phase]; rfl)
    have hbooks : ({ e with phase := .sending trigger payload failed backoff } : Exporter).books = e.books := by
      unfold books
      rw [phase, hfailed]
      rfl
    rw [hbooks]
    exact .inr .unchanged

end Exporter

end Tracing
