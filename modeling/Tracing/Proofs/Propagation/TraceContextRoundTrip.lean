import Tracing.Proofs.Propagation.Hops
import Tracing.Proofs.Propagation.ParentHeader
import Tracing.Proofs.Propagation.StateItems

/-!
# Trace context headers come back

What is written into both headers of a carrier is read back (`extract_inject`): the ids and the sampled flag
from the parent header, all else from the member of the state header. The priority of the member counts only
if it agrees with the flag, which it does unless a tag has put another in its place (`isKeep_agreedPriority`).
`trace_context_round_trip` says what this means for a context whose tags hold no separator (`Portable`).
-/

namespace Tracing.TraceContext

open Text

variable {out : Outgoing} {carrier : Carrier}

/-! ### The priority -/

theorem isKeep_auto (keep : Bool) : (Priority.auto keep).isKeep = keep := by
  cases keep <;> rfl

/-- Whatever a state header says, the trace is kept if and only if it is sampled. -/
theorem isKeep_agreedPriority (sampled : Bool) (stated : Option Priority) :
    (agreedPriority sampled stated).isKeep = sampled := by
  unfold agreedPriority
  split
  · split
    · assumption
    · exact isKeep_auto sampled
  · exact isKeep_auto sampled

theorem agreedPriority_isSampled (out : Outgoing) :
    agreedPriority (isSampled out) out.priority = out.priority.getD .autoReject := by
  unfold agreedPriority isSampled
  cases out.priority with
  | none => rfl
  | some p => simp

/-! ### Both headers -/

theorem lowercase_headers : lowercase parentHeader ≠ lowercase stateHeader := by
  decide +kernel

theorem get?_inject (h : carrier.isOpen = true) :
    (inject out carrier).value.get? parentHeader = some (String.ofList (writeParent out)) ∧
      (inject out carrier).value.get? stateHeader = some (String.ofList (writeState out)) := by
  have hopen := (Carrier.isOpen_set carrier parentHeader (String.ofList (writeParent out))).trans h
  constructor
  · exact (Carrier.get?_set hopen _ _ _).trans <| (if_neg lowercase_headers.symm).trans <|
      (Carrier.get?_set h _ _ _).trans (if_pos rfl)
  · exact (Carrier.get?_set hopen _ _ _).trans (if_pos rfl)

theorem extract_inject (h : Fitting out) (htrace : out.traceId.isZero = false)
    (hspan : out.spanId.isZero = false) (hopen : carrier.isOpen = true) :
    (extract (inject out carrier).value).value = some ⟨out.traceId, out.spanId,
      some (agreedPriority (isSampled out) (readBack out).priority), (readBack out).origin,
      (readBack out).tags⟩ := by
  obtain ⟨hparent, hstate⟩ := @get?_inject out carrier hopen
  have hextract : (extractState (inject out carrier).value).value = some (readBack out) := by
    unfold extractState
    rw [hstate]
    exact readState_writeState h
  unfold extract
  rw [hparent]
  simp only [String.toList_ofList, trim_writeParent, Logged.value_bind,
    readParent_writeParent htrace hspan, hextract]
  rfl

/-! ### Contexts without separators -/

/-- What can be written into trace context headers without loss: neither id is zero, and the tags hold
nothing that ends an item or the member. -/
structure Portable (out : Outgoing) : Prop where
  traceId : out.traceId.isZero = false
  spanId : out.spanId.isZero = false
  keys : ∀ tag ∈ out.tags.entries, ∀ rest, tag.1.toList = propagatedLead.toList ++ rest →
    ∀ c ∈ rest, 0x20 ≤ c.toNat ∧ c.toNat ≤ 0x7e ∧ c ≠ ':' ∧ c ≠ ';' ∧ c ≠ ','
  values : ∀ tag ∈ out.tags.entries, tag.2.toList.getLast? ≠ some ' '

theorem Portable.fitting (h : Portable out) : Fitting out := by
  refine ⟨fun tag htag rest hrest c hc => ?_, h.values⟩
  obtain ⟨hlow, hhigh, -, -, hcomma⟩ := h.keys tag htag rest hrest c hc
  exact (Datadog.isTagChar_iff c).mpr ⟨hlow, hhigh, hcomma⟩

theorem Portable.clean (h : Portable out) : Clean out := by
  intro tag htag rest hrest
  constructor
  · intro hmem
    exact (h.keys tag htag rest hrest _ hmem).2.2.1 rfl
  · intro hmem
    exact (h.keys tag htag rest hrest _ hmem).2.2.2.1 rfl

/-- **Trace context headers come back.** Whatever is portable is read from the headers that it is written
into, with the span as parent and a priority in any case; of origin and tags come back all characters that
are not lost, and the tags are those of `carriedTag?`. -/
theorem trace_context_round_trip (h : Portable out) (hopen : carrier.isOpen = true) :
    ∃ tags, (extract (inject out carrier).value).value = some ⟨out.traceId, out.spanId,
        some (out.priority.getD .autoReject), out.origin.map carried, tags⟩ ∧
      ∀ key, tags.get? key = carriedTag? out key := by
  have hclean := h.clean
  refine ⟨(readBack out).tags, ?_, get?_tags_readBack hclean⟩
  rw [extract_inject h.fitting h.traceId h.spanId hopen, origin_readBack (not_hidesItem_of_clean hclean 'o'),
    priority_readBack (not_hidesItem_of_clean hclean 's'), agreedPriority_isSampled]

/-- A wide trace id and an origin with characters of both kinds. Of four tags, one keeps most of its value,
the decision maker keeps it whole, and two are left out. -/
theorem trace_context_round_trip_wide :
    let tags : Dict String :=
      .ofList [("_dd.p.dm", "-4"), ("_dd.p.tid", "000000000000000f"), ("_dd.p.usr", "a=b,c"), ("team", "web")]
    let out : Outgoing := ⟨.ofParts 5 7, .ofNat 9, none, some "é;=1", some .userKeep, tags⟩
    Portable out ∧ Carrier.empty.isOpen = true ∧ ∃ tags' : Dict String,
      (extract (inject out .empty).value).value =
        some ⟨out.traceId, out.spanId, some .userKeep, some "__=1", tags'⟩ ∧
      tags'.get? "_dd.p.dm" = some "-4" ∧ tags'.get? "_dd.p.usr" = some "a=b_c" ∧
        tags'.get? "_dd.p.tid" = none ∧ tags'.get? "team" = none := by
  intro tags out
  have hout : Portable out := by
    have hkeys : (tags.entries.all fun tag => (tag.1.toList.drop propagatedLead.toList.length).all fun c =>
        Datadog.isTagChar c && c != ':' && c != ';') = true := by
      decide +kernel
    have hvalues : (tags.entries.all fun tag => tag.2.toList.getLast? != some ' ') = true := by
      decide +kernel
    refine ⟨by decide, by decide, fun tag htag rest hrest c hc => ?_, fun tag htag => ?_⟩
    · have hkey := List.all_eq_true.mp hkeys tag htag
      rw [hrest, List.drop_left] at hkey
      have hchar := List.all_eq_true.mp hkey c hc
      simp only [Bool.and_eq_true, Datadog.isTagChar_iff, bne_iff_ne] at hchar
      tauto
    · exact bne_iff_ne.mp (List.all_eq_true.mp hvalues tag htag)
  obtain ⟨tags', hread, hget⟩ := @trace_context_round_trip out .empty hout rfl
  have horigin : carried "é;=1" = "__=1" := by decide
  refine ⟨hout, rfl, tags', ?_, ?_⟩
  · rw [← horigin]
    exact hread
  · simp only [hget]
    decide +kernel

end Tracing.TraceContext
