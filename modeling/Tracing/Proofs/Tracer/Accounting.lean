import Tracing.Proofs.Payload.Identity
import Tracing.Proofs.Tracer.Completion

/-!
# Every completed trace is accounted for

The notes that a run takes of completed traces are a ledger (`Accounted`): every closed trace is noted once,
with one of three outcomes that goes with its priority, and the counters of the exporter count the notes.
Accepted traces are what the exporter was given (`conserved_exports`), so a payload holds spans of accepted
traces and never a span of a rejected one.

* `completed_accounted`: the whole ledger, for every run of a tracer.
-/

namespace Tracing

/-! ### Outcomes -/

def Fate.isRejected : Fate → Bool
  | rejected => true
  | _ => false

def Fate.isRefused : Fate → Bool
  | refused => true
  | _ => false

theorem Fate.isRejected_iff {fate : Fate} : fate.isRejected = true ↔ fate = rejected := by
  cases fate <;> simp [isRejected]

/-- The outcome of a completed trace goes with its priority: a reject is rejected, a keep is accepted or
refused. -/
def Completion.Settled (c : Completion) : Prop :=
  match c.fate with
  | .rejected => ∃ p, c.priority = some p ∧ p.isKeep = false
  | .accepted _ | .refused => ∃ p, c.priority = some p ∧ p.isKeep = true
  | .lost => False

/-- **Settled traces are rejected, refused or accepted.** -/
theorem length_of_settled {completed : List Completion} (h : ∀ c ∈ completed, c.Settled) :
    completed.length = completed.countP (·.fate.isRejected) + completed.countP (·.fate.isRefused) +
      (completed.filterMap (·.fate.unit?)).length := by
  induction completed with
  | nil => rfl
  | cons c rest ih =>
    obtain ⟨hc, hrest⟩ := List.forall_mem_cons.mp h
    have hlength := ih hrest
    rw [List.length_cons, List.countP_cons, List.countP_cons, List.filterMap_cons]
    unfold Completion.Settled at hc
    cases hfate : c.fate with
    | lost =>
      rw [hfate] at hc
      exact hc.elim
    | rejected =>
      change rest.length + 1 = rest.countP _ + 1 + (rest.countP _ + 0) + (rest.filterMap _).length
      omega
    | refused =>
      change rest.length + 1 = rest.countP _ + 0 + (rest.countP _ + 1) + (rest.filterMap _).length
      omega
    | accepted unit =>
      change rest.length + 1 = rest.countP _ + 0 + (rest.countP _ + 0) + ((rest.filterMap _).length + 1)
      omega

namespace TracerRun

variable {s s' : TracerRun} {i : Nat}

/-! ### Names -/

/-- The trace and the identity of every handle. -/
def names (s : TracerRun) : List (Nat × SpanIdentity) := s.handles.map fun a => (a.trace, a.span.identity)

theorem identities_eq (s : TracerRun) (i : Nat) :
    s.identities i = (s.names.filter (·.1 = i)).map Prod.snd := map_spansIn Span.identity i s.handles

/-- The trace and the context of every handle. -/
def places (s : TracerRun) : List (Nat × SpanContext) := s.handles.map fun a => (a.trace, a.span.context)

theorem names_eq (s : TracerRun) : s.names = s.places.map fun e => (e.1, e.2.lineage.identity) := by
  unfold names places
  rw [List.map_map]
  rfl

/-- The trace and the context of the handle that an operation gives out. -/
def begun (s : TracerRun) : TracerOp → List (Nat × SpanContext)
  | .start origin _ draw clock => (s.parent? origin).toList.map fun parent =>
    let found := s.tracer.traceFor parent draw.trace clock
    let trace := found.2.2.traceAt found.1
    (found.1, ⟨trace.traceId, .fresh draw.span, found.2.1, trace.origin⟩)
  | _ => []

theorem places_act (s : TracerRun) (k : Nat) {action : Span → Trace → SpanStep}
    (h : ∀ span t, (action span t).span.context = span.context) (clock : Clock) :
    (s.act k action clock).places = s.places := by
  cases ha : s.handles[k]? with
  | none => rw [act_of_none ha]
  | some a =>
    rw [act_of_some ha]
    unfold places
    rw [List.map_set, h]
    exact set_of_getElem? (by simp [ha])

/-- **Handles keep their contexts**, and only a start gives out another one. -/
theorem places_step (s : TracerRun) (op : TracerOp) : (s.step op).places = s.places ++ s.begun op := by
  have hthrough : ∀ k f, (s.through k f).places = s.places := fun k f =>
    congrArg (List.map _) (s.handles_through k f)
  cases op with
  | start origin options draw clock =>
    cases hparent : s.parent? origin with
    | none =>
      rw [step_start_of_none hparent, begun, hparent]
      exact (List.append_nil _).symm
    | some parent =>
      rw [step_start_of_some hparent, begun, hparent]
      unfold places
      rw [List.map_append, List.map_singleton, context_newRecord]
      rfl
  | change k c clock =>
    exact (places_act s k (TraceRun.context_change c) clock).trans (List.append_nil _).symm
  | finish k ending clock =>
    exact (places_act s k (TraceRun.context_end ending) clock).trans (List.append_nil _).symm
  | decide k | decideWith k | choose k => exact (hthrough k _).trans (List.append_nil _).symm
  | agentRates | worker | sleep | shutdown => exact (List.append_nil _).symm

theorem identities_prefix_step (s : TracerRun) (op : TracerOp) (i : Nat) :
    s.identities i <+: (s.step op).identities i := by
  rw [identities_eq, identities_eq, names_eq, names_eq, places_step]
  exact (((List.prefix_append _ _).map _).filter _).map _

/-! ### The ledger -/

/-- **The ledger of a run**: every completed trace is noted once, its outcome goes with its priority, and the
exporter has counted the notes. -/
structure Accounted (s : TracerRun) : Prop where
  once : (s.completed.map Completion.trace).Nodup
  closed : ∀ i, i ∈ s.completed.map Completion.trace ↔ s.isClosed i = true
  settled : ∀ c ∈ s.completed, c.Settled
  bySample : s.tracer.stats.droppedBySample = s.completed.countP (·.fate.isRejected)
  queueFull : s.tracer.stats.droppedQueueFull = s.completed.countP (·.fate.isRefused)
  whole : ∀ c ∈ s.completed, ∀ unit, c.fate = .accepted unit →
    unit.map SpanRecord.identity <+: s.identities c.trace

theorem Accounted.note (h : Accounted s) {p : Priority} {fate : Fate} (completes : Completes s s' i p fate)
    (settled : Completion.Settled ⟨i, some p, fate⟩)
    (bySample : s'.tracer.stats.droppedBySample =
      s.tracer.stats.droppedBySample + if fate.isRejected then 1 else 0)
    (queueFull : s'.tracer.stats.droppedQueueFull =
      s.tracer.stats.droppedQueueFull + if fate.isRefused then 1 else 0)
    (grows : ∀ i, s.identities i <+: s'.identities i)
    (whole : ∀ unit, fate = .accepted unit → unit.map SpanRecord.identity <+: s'.identities i) :
    Accounted s' := by
  have hnew : i ∉ s.completed.map Completion.trace := fun hmem => by
    have hclosed := (h.closed i).mp hmem
    rw [completes.before] at hclosed
    cases hclosed
  have htraces : s'.completed.map Completion.trace = s.completed.map Completion.trace ++ [i] := by
    rw [completes.completed, List.map_append, List.map_singleton]
  have hmem : ∀ c ∈ s'.completed, c ∈ s.completed ∨ c = ⟨i, some p, fate⟩ := by
    intro c hc
    rw [completes.completed, List.mem_append, List.mem_singleton] at hc
    exact hc
  refine ⟨?_, fun k => ?_, fun c hc => ?_, ?_, ?_, fun c hc unit hunit => ?_⟩
  · rw [htraces]
    exact List.nodup_append.mpr ⟨h.once, List.nodup_singleton i, fun a ha b hb => by
      rw [List.mem_singleton.mp hb]
      exact fun heq => hnew (heq ▸ ha)⟩
  · rw [htraces, List.mem_append, List.mem_singleton, h.closed]
    by_cases hk : k = i
    · subst hk
      simp [completes.after]
    · rw [completes.others k hk]
      simp [hk]
  · rcases hmem c hc with hc | rfl
    · exact h.settled c hc
    · exact settled
  · rw [bySample, h.bySample, completes.completed, List.countP_append, List.countP_singleton]
  · rw [queueFull, h.queueFull, completes.completed, List.countP_append, List.countP_singleton]
  · rcases hmem c hc with hc | rfl
    · exact (h.whole c hc unit hunit).trans (grows c.trace)
    · exact whole unit hunit

theorem accounted_step (h : Accounted s) (effect : CompletionEffect s s')
    (grows : ∀ i, s.identities i <+: s'.identities i) : Accounted s' := by
  cases effect with
  | quiet completed closed moves drops =>
    obtain ⟨hbySample, hqueueFull⟩ := Prod.mk.inj drops
    refine ⟨completed ▸ h.once, fun i => ?_, completed ▸ h.settled, ?_, ?_, fun c hc unit hunit => ?_⟩
    · rw [completed, closed, h.closed]
    · rw [hbySample, completed, h.bySample]
    · rw [hqueueFull, completed, h.queueFull]
    · exact (h.whole c (completed ▸ hc) unit hunit).trans (grows c.trace)
  | rejected i p completes reject exporter drops =>
    obtain ⟨hbySample, hqueueFull⟩ := Prod.mk.inj drops
    exact h.note completes ⟨p, rfl, reject⟩ hbySample hqueueFull grows (by simp)
  | accepted i p unit completes keep all exporter drops =>
    obtain ⟨hbySample, hqueueFull⟩ := Prod.mk.inj drops
    refine h.note completes ⟨p, rfl, keep⟩ hbySample hqueueFull grows fun other hother => ?_
    obtain rfl := Fate.accepted.inj hother
    exact all ▸ List.prefix_rfl
  | refused i p unit completes keep all exporter drops =>
    obtain ⟨hbySample, hqueueFull⟩ := Prod.mk.inj drops
    exact h.note completes ⟨p, rfl, keep⟩ hbySample hqueueFull grows (by simp)

/-! ### What is exported -/

theorem Completes.units {p : Priority} {fate : Fate} (h : Completes s s' i p fate) :
    s'.units = s.units ++ fate.unit?.toList := by
  unfold TracerRun.units
  rw [h.completed, List.filterMap_append]
  cases fate <;> rfl

theorem exports_enqueue (s : TracerRun) (unit : List SpanRecord) :
    s.exports.step s.tracer.transport (.enqueue unit) = {
      exporter := (s.tracer.exporter.enqueue unit).value.2
      accepted := if (s.tracer.exporter.enqueue unit).value.1 then s.units ++ [unit] else s.units } := rfl

/-- A completed trace is an operation of the exporter. -/
theorem exports_of_effect (effect : CompletionEffect s s') :
    (s'.units = s.units ∧ s.tracer.exporter.Moves s.tracer.transport s'.tracer.exporter) ∨
      ∃ op, s'.exports = s.exports.step s.tracer.transport op := by
  cases effect with
  | quiet completed closed moves drops => exact .inl ⟨by unfold units; rw [completed], moves⟩
  | rejected i p completes reject exporter drops =>
    refine .inr ⟨.reject, ?_⟩
    unfold exports
    rw [completes.units, exporter]
    exact congrArg _ (List.append_nil _)
  | accepted i p unit completes keep all exporter drops =>
    refine .inr ⟨.enqueue unit, ?_⟩
    rw [exports_enqueue, exporter]
    unfold exports
    rw [completes.units]
    rfl
  | refused i p unit completes keep all exporter drops =>
    refine .inr ⟨.enqueue unit, ?_⟩
    rw [exports_enqueue, exporter]
    unfold exports
    rw [completes.units]
    exact congrArg _ (List.append_nil _)

/-- **The exporter of a run holds and sends what the run notes as accepted.** -/
theorem conserved_exports {maxBytes maxValueLength : Nat}
    (h : ExportRun.Conserved maxBytes maxValueLength s.exports) (effect : CompletionEffect s s') :
    ExportRun.Conserved maxBytes maxValueLength s'.exports := by
  rcases exports_of_effect effect with ⟨hunits, moves⟩ | ⟨op, hstep⟩
  · unfold exports
    rw [hunits]
    exact moves.induction (fun r event hr => ExportRun.conserved_step r event.op hr) h
  · rw [hstep]
    exact ExportRun.conserved_step s.exports op h

/-! ### Runs -/

/-- What holds of every run: each trace has a run of its own, the ledger, and the export. -/
structure Sound (config : Config) (s : TracerRun) : Prop where
  followed : Followed s
  accounted : Accounted s
  conserved : ExportRun.Conserved config.maxPayloadBytes config.maxValueLength s.exports

theorem sound_step {config : Config} (s : TracerRun) (op : TracerOp) (h : Sound config s) :
    Sound config (s.step op) := by
  have effect := completion_effect h.followed op
  exact ⟨followed_step h.followed op, accounted_step h.accounted effect (identities_prefix_step s op),
    conserved_exports h.conserved effect⟩

theorem build_eq_ok {engine : PatternEngine} {config : Config} {transport : Transport} {hasRuntime : Bool}
    {clock : Clock} {t : Tracer} (h : (Tracer.build engine config transport hasRuntime clock).value = .ok t) :
    ∃ e, Exporter.ofConfig? config = some e ∧ t.traces = [] ∧ t.exporter = e.start := by
  unfold Tracer.build at h
  split at h
  · cases h
  · split at h
    · cases h
    · rw [Logged.value_bind] at h
      cases he : Exporter.ofConfig? config with
      | none =>
        rw [he] at h
        cases h
      | some e =>
        rw [he] at h
        obtain rfl := Except.ok.inj h
        exact ⟨e, rfl, rfl, rfl⟩

theorem stats_ofConfig? {config : Config} {e : Exporter} (h : Exporter.ofConfig? config = some e) :
    e.start.stats = {} := by
  unfold Exporter.ofConfig? at h
  simp only at h
  split at h
  · cases h
    rfl
  · cases h

theorem sound_new {engine : PatternEngine} {config : Config} {transport : Transport} {hasRuntime : Bool}
    {clock : Clock} {t : Tracer} (h : (Tracer.build engine config transport hasRuntime clock).value = .ok t) :
    Sound config { tracer := t } := by
  obtain ⟨e, he, htraces, hexporter⟩ := build_eq_ok h
  have hstats : t.stats = {} := by
    unfold Tracer.stats
    rw [hexporter, stats_ofConfig? he]
  refine ⟨⟨fun i hi => ?_, fun a ha => absurd ha List.not_mem_nil⟩,
    ⟨List.nodup_nil, fun i => ?_, fun c hc => absurd hc List.not_mem_nil, ?_, ?_,
      fun c hc => absurd hc List.not_mem_nil⟩, ?_⟩
  · rw [htraces] at hi
    exact absurd hi (Nat.not_lt_zero i)
  · unfold isClosed Tracer.traceAt
    rw [htraces]
    simp
    rfl
  · rw [hstats]
    rfl
  · rw [hstats]
    rfl
  · show ExportRun.Conserved _ _ { exporter := t.exporter }
    rw [hexporter]
    exact @ExportRun.conserved_step transport _ _ _ .start (ExportRun.conserved_new he)

theorem sound_after {engine : PatternEngine} {config : Config} {transport : Transport} {hasRuntime : Bool}
    {clock : Clock} {t : Tracer} (h : (Tracer.build engine config transport hasRuntime clock).value = .ok t)
    (ops : List TracerOp) :
    Sound config (after t ops) := after_induction (sound_new h) sound_step ops

/-! ### What is sent -/

/-- No attempt carries a span of this identity, in whatever length its values are written. -/
def NeverSent (id : SpanIdentity) (attempts : List Attempt) : Prop :=
  ∀ attempt ∈ attempts, ∀ (r : SpanRecord) (length : Nat), r.identity = id →
    encodeSpan r length ∉ attempt.payload.spans

/-- **What a payload holds comes from an accepted trace.** -/
theorem exists_accepted_of_mem {config : Config} (h : Sound config s) {attempt : Attempt} {text : String}
    (hattempt : attempt ∈ s.tracer.exporter.attempts) (htext : text ∈ attempt.payload.spans) :
    ∃ c ∈ s.completed, ∃ unit, c.fate = .accepted unit ∧
      ∃ r ∈ unit, encodeSpan r config.maxValueLength = text := by
  have haccepted := h.conserved.sent_accepted.subset (mem_sent hattempt htext)
  obtain ⟨unit, hunit, hencodable⟩ := List.mem_flatMap.mp haccepted
  obtain ⟨r, hr, henc⟩ := List.mem_map.mp (List.mem_of_mem_filter hencodable)
  obtain ⟨c, hc, hfate⟩ := List.mem_filterMap.mp hunit
  refine ⟨c, hc, unit, ?_, r, hr, henc⟩
  cases hother : c.fate with
  | accepted other =>
    rw [hother] at hfate
    rw [Option.some.inj hfate]
  | rejected | refused | lost =>
    rw [hother] at hfate
    cases hfate

/-- **No span of a trace that was not accepted is ever sent**, unless a span of another trace has its
identity. -/
theorem neverSent_of_not_accepted {config : Config} (h : Sound config s) {c : Completion}
    (hc : c ∈ s.completed) (hfate : ∀ unit, c.fate ≠ .accepted unit) {id : SpanIdentity}
    (hid : ∀ k, k ≠ c.trace → id ∉ s.identities k) : NeverSent id s.tracer.exporter.attempts := by
  intro attempt hattempt r length hr hmem
  obtain ⟨d, hd, unit, hunit, r', hr', henc⟩ := exists_accepted_of_mem h hattempt hmem
  have hidentity : r'.identity = id := (identity_of_encodeSpan henc).trans hr
  have hmember : id ∈ s.identities d.trace :=
    (h.accounted.whole d hd unit hunit).subset (hidentity ▸ List.mem_map_of_mem hr')
  have htrace : d.trace = c.trace := by_contra fun hne => hid d.trace hne hmember
  obtain rfl := List.inj_on_of_nodup_map h.accounted.once hd hc htrace
  exact hfate unit hunit

/-! ### The ledger of every run -/

/-- **Every completed trace is accounted for, and rejected traces are never exported.** In every run of a
tracer, each operation completes at most one trace and rejects it, has it accepted with all its spans, or
has it refused and counted; the counters and the accepted traces together are the completed traces; what is
sent comes from accepted traces, in their order; and no span of a rejected trace is ever sent. -/
theorem completed_accounted {engine : PatternEngine} {config : Config} {transport : Transport} {hasRuntime : Bool}
    {clock : Clock} {t : Tracer} (h : (Tracer.build engine config transport hasRuntime clock).value = .ok t)
    (ops : List TracerOp) :
    let s := after t ops
    (∀ op, CompletionEffect s (s.step op)) ∧ Accounted s ∧
      s.completed.length =
        s.tracer.stats.droppedBySample + s.tracer.stats.droppedQueueFull + s.units.length ∧
      sent s.tracer.exporter.attempts <+:
        s.units.flatMap (encodable config.maxPayloadBytes config.maxValueLength) ∧
      (∀ attempt ∈ s.tracer.exporter.attempts, ∀ text ∈ attempt.payload.spans,
        ∃ c ∈ s.completed, ∃ unit, c.fate = .accepted unit ∧
          ∃ r ∈ unit, encodeSpan r config.maxValueLength = text) ∧
      ∀ c ∈ s.completed, c.fate = .rejected → ∀ id ∈ s.identities c.trace,
        (∀ k, k ≠ c.trace → id ∉ s.identities k) → NeverSent id s.tracer.exporter.attempts := by
  intro s
  have hs : Sound config s := sound_after h ops
  refine ⟨completion_effect hs.followed, hs.accounted, ?_, hs.conserved.sent_accepted,
    fun attempt hattempt text => exists_accepted_of_mem hs hattempt, fun c hc hrejected id _ hid => ?_⟩
  · rw [hs.accounted.bySample, hs.accounted.queueFull]
    exact length_of_settled hs.accounted.settled
  · exact neverSent_of_not_accepted hs hc (by rw [hrejected]; simp) hid

/-- Three traces and a queue with room for one: the first to be completed is accepted and sent, the next is
rejected, the last is refused. -/
theorem completed_accounted_each_fate :
    let start (n : Nat) : TracerOp := .start .root { operation := "op" } ⟨n, n⟩ ⟨0, 0⟩
    let ops := [start 1, start 2, start 3, .choose 0 .userReject, .choose 1 .userKeep, .choose 2 .autoKeep,
      .finish 1 (.at 5) ⟨9, 9⟩, .finish 0 (.at 6) ⟨9, 9⟩, .finish 2 (.at 7) ⟨9, 9⟩, .worker .cancel] ++
      List.replicate 6 (.worker .work)
    let config := { Config.default with queueCapacity := 1 }
    ∃ t, (Tracer.new config ⟨fun _ => .accepted⟩ true ⟨0, 0⟩).value = .ok t ∧
      let s := after t ops
      s.completed.map Completion.trace = [1, 0, 2] ∧ s.tracer.stats.drops = (1, 1) ∧
        s.tracer.exporter.attempts.length = 1 ∧
        s.completed.length =
          s.tracer.stats.droppedBySample + s.tracer.stats.droppedQueueFull + s.units.length ∧
        ∃ id ∈ s.identities 0, NeverSent id s.tracer.exporter.attempts := by
  intro start ops config
  have h : (Tracer.new config ⟨fun _ => .accepted⟩ true ⟨0, 0⟩).value = .ok _ := rfl
  refine ⟨_, h, ?_⟩
  intro s
  obtain ⟨-, -, hlength, -, -, hnever⟩ := completed_accounted h ops
  have hrejected : (s.completed[1]?.map fun c => (c.trace, c.fate.isRejected)) = some (0, true) := by
    decide +kernel
  obtain ⟨c, hc, hpair⟩ := Option.map_eq_some_iff.mp hrejected
  obtain ⟨htrace, hfate⟩ := Prod.mk.inj hpair
  have hmem : (⟨.ofNat 2, .ofNat 2⟩ : SpanIdentity) ∈ s.identities 0 := by decide +kernel
  -- no other trace has a span of this name
  have hnames : ∀ e ∈ s.names, e.2 = ⟨.ofNat 2, .ofNat 2⟩ → e.1 = 0 := by decide +kernel
  have hother : ∀ k, k ≠ c.trace → ⟨.ofNat 2, .ofNat 2⟩ ∉ s.identities k := by
    intro k hk hid
    rw [identities_eq] at hid
    obtain ⟨e, he, heq⟩ := List.mem_map.mp hid
    obtain ⟨hmem, hplace⟩ := List.mem_filter.mp he
    exact hk ((of_decide_eq_true hplace).symm.trans ((hnames e hmem heq).trans htrace.symm))
  have hcompleted : c ∈ s.completed := List.mem_of_getElem? hc
  have hown : ⟨.ofNat 2, .ofNat 2⟩ ∈ s.identities c.trace := by
    rw [htrace]
    exact hmem
  have hsent := hnever c hcompleted (Fate.isRejected_iff.mp hfate) _ hown hother
  have htraces : s.completed.map Completion.trace = [1, 0, 2] := by decide +kernel
  have hdrops : s.tracer.stats.drops = (1, 1) := by decide +kernel
  have hattempts : s.tracer.exporter.attempts.length = 1 := by decide +kernel
  exact ⟨htraces, hdrops, hattempts, hlength, _, hmem, hsent⟩

end TracerRun

end Tracing
