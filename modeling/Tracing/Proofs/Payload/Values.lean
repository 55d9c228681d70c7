import Mathlib.Data.List.Forall2
import Tracing.Proofs.Dict
import Tracing.Payload.Zipkin

/-!
# The values of an exported span

Every value under a tag of an exported span, and every value of an event, is a front part of one text of the
span (`source?`), and the whole of it if the text is no longer than values may be. It is also cut to that
length, with two exceptions: the type of the span and the mark of a failed one are exported whole (`isWhole`).
-/

namespace Tracing.ZipkinSpan

variable {r : SpanRecord} {length : Nat} {key : String}

/-! ### Cutting -/

/-- A value is a front part of a text, and all of it if that is short enough. -/
structure IsFront (length : Nat) (text value : String) : Prop where
  front : value.toList <+: text.toList
  short : text.length ≤ length → value = text

theorem IsFront.refl (length : Nat) (text : String) : IsFront length text text := ⟨List.prefix_rfl, fun _ => rfl⟩

theorem length_truncate (length : Nat) (text : String) : (truncate length text).length = min length text.length := by
  rw [truncate, String.length_ofList, List.length_take, String.length_toList]

theorem isFront_truncate (length : Nat) (text : String) : IsFront length text (truncate length text) := by
  refine ⟨?_, fun hshort => ?_⟩
  · rw [truncate, String.toList_ofList]
    exact List.take_prefix length text.toList
  · rw [truncate, List.take_of_length_le (by rwa [String.length_toList]), String.ofList_toList]

/-! ### Where values come from -/

/-- The tags that are exported whole: the mark of a failed span, and its type. -/
def isWhole (r : SpanRecord) (key : String) : Bool :=
  (r.error && key = errorTag) || (r.spanType.isSome && key = typeTag)

/-- The text that the value under a tag is built from: the fields of the span come before its own tags, and the
kind of the span is no tag. -/
def source? (r : SpanRecord) (key : String) : Option String :=
  if r.error ∧ key = errorTag then some "true"
  else if r.spanType.isSome ∧ key = typeTag then r.spanType
  else if r.resource ≠ r.name ∧ r.resource ≠ "" ∧ key = resourceTag then some r.resource
  else if key = kindTag then none
  else (r.tags.get? key).map TagValue.display

theorem get?_ownTags (r : SpanRecord) (length : Nat) (key : String) : (ownTags r length).get? key =
    if key = kindTag then none else (r.tags.get? key).map fun value => truncate length value.display := by
  have hentries : Entries.get? key (r.tags.erase kindTag).entries.reverse = (r.tags.erase kindTag).get? key := by
    rw [← Dict.get?_ofList, Dict.ofList_entries]
  rw [ownTags, Dict.get?_ofList, ← List.map_reverse,
    Entries.get?_map (fun value => truncate length (TagValue.display value)), hentries, Dict.get?_erase]
  by_cases hkind : key = kindTag
  · rw [if_pos hkind.symm, if_pos hkind]
    rfl
  · rw [if_neg (Ne.symm hkind), if_neg hkind]

/-- The tags that fields make have different keys, so each is found under its own. -/
theorem get?_fieldTags (r : SpanRecord) (length : Nat) (key : String) :
    Entries.get? key (fieldTags r length).reverse =
      if r.error ∧ key = errorTag then some "true"
      else if r.spanType.isSome ∧ key = typeTag then r.spanType
      else if r.resource ≠ r.name ∧ r.resource ≠ "" ∧ key = resourceTag then some (truncate length r.resource)
      else none := by
  have herror : Entries.get? key (if r.error then [(errorTag, "true")] else []).reverse =
      if r.error ∧ key = errorTag then some "true" else none := by
    by_cases h : r.error = true <;> simp [h, Entries.get?, eq_comm]
  have htype : Entries.get? key (r.spanType.map fun t => (typeTag, t)).toList.reverse =
      if r.spanType.isSome ∧ key = typeTag then r.spanType else none := by
    cases r.spanType <;> simp [Entries.get?, eq_comm]
  have hresource : Entries.get? key (if r.resource ≠ r.name ∧ r.resource ≠ ""
        then [(resourceTag, truncate length r.resource)] else []).reverse =
      if r.resource ≠ r.name ∧ r.resource ≠ "" ∧ key = resourceTag then some (truncate length r.resource)
      else none := by
    by_cases h : r.resource ≠ r.name ∧ r.resource ≠ ""
    · rw [if_pos h]
      simp [h.1, h.2, Entries.get?, eq_comm]
    · rw [if_neg h, if_neg fun hall => h ⟨hall.1, hall.2.1⟩]
      rfl
  rw [fieldTags, List.reverse_append, List.reverse_append, Entries.get?_append, Entries.get?_append, herror, htype,
    hresource]
  split
  · rfl
  · split
    · next htype => rw [Option.none_or, Option.or_of_isSome htype.1]
    · rfl

/-- **The value under a tag is its text, cut to a length unless it is exported whole.** -/
theorem get?_tags (r : SpanRecord) (length : Nat) (key : String) : (ofRecord r length).tags.get? key =
    (source? r key).map fun text => if isWhole r key then text else truncate length text := by
  show ((fieldTags r length).foldl (fun tags e => tags.insert e.1 e.2) (ownTags r length)).get? key = _
  rw [Dict.get?_foldl, get?_ownTags, get?_fieldTags]
  unfold source? isWhole
  by_cases herror : r.error ∧ key = errorTag
  · simp [herror]
  · by_cases htype : r.spanType.isSome ∧ key = typeTag
    · rw [if_neg herror, if_pos htype, if_neg herror, if_pos htype, Option.or_of_isSome htype.1]
      simp [htype]
    · have hcut : ((r.error && key = errorTag) || (r.spanType.isSome && key = typeTag)) = false := by
        simpa [not_and] using And.intro herror htype
      rw [if_neg herror, if_neg htype, if_neg herror, if_neg htype, hcut]
      split
      · rfl
      · split
        · rfl
        · rw [Option.none_or, Option.map_map]
          rfl

/-! ### All values -/

theorem isFront_of_get? {value : String} (h : (ofRecord r length).tags.get? key = some value) :
    ∃ text, source? r key = some text ∧ IsFront length text value ∧
      (value.length ≤ length ↔ (isWhole r key = true → text.length ≤ length)) := by
  rw [get?_tags, Option.map_eq_some_iff] at h
  obtain ⟨text, htext, rfl⟩ := h
  refine ⟨text, htext, ?_⟩
  cases hwhole : isWhole r key with
  | true => exact ⟨.refl length text, ⟨fun hle _ => hle, fun hle => hle rfl⟩⟩
  | false =>
    refine ⟨isFront_truncate length text, iff_of_true ?_ nofun⟩
    rw [if_neg Bool.false_ne_true, length_truncate]
    exact Nat.min_le_left _ _

/-- **Exported values are cut to a length, but for the type of the span and the mark of a failed one.** For every
span and every length: a value under a tag is a front part of the text that it is built from, and all of it if
that is short enough; it is longer than values may be exactly if it is exported whole and its text is longer.
The values of events are front parts of the texts of the events, all of them if these are short enough, and
none is longer than values may be. -/
theorem values_cut (r : SpanRecord) (length : Nat) :
    (∀ key value, (ofRecord r length).tags.get? key = some value →
      ∃ text, source? r key = some text ∧ IsFront length text value ∧
        (value.length ≤ length ↔ (isWhole r key = true → text.length ≤ length))) ∧
    (∀ key, ((ofRecord r length).tags.get? key).isSome = (source? r key).isSome) ∧
    List.Forall₂ (fun (event : Int × String) (a : Annotation) =>
      IsFront length event.2 a.value ∧ a.value.length ≤ length) r.annotations (ofRecord r length).annotations := by
  refine ⟨fun key value h => isFront_of_get? h, fun key => ?_, ?_⟩
  · rw [get?_tags, Option.isSome_map]
  · refine List.forall₂_map_right_iff.mpr (List.forall₂_same.mpr fun event _ => ?_)
    refine ⟨isFront_truncate length event.2, ?_⟩
    rw [length_truncate]
    exact Nat.min_le_left _ _

/-- A long statement and a long event are cut, between characters and not between bytes. -/
theorem values_cut_statement :
    let r := { SpanRecord.new (.ofNat 1) (.ofNat 1) none "op" "svc" 0 with
      tags := .ofList [("sql.query", .text "SELECT * FROM carts")]
      annotations := [(0, "héllo wörld")] }
    (ofRecord r 6).tags.get? "sql.query" = some "SELECT" ∧ IsFront 6 "SELECT * FROM carts" "SELECT" ∧
      (ofRecord r 6).annotations.map Annotation.value = ["héllo "] ∧ IsFront 6 "héllo wörld" "héllo " := by
  intro r
  have htag : (ofRecord r 6).tags.get? "sql.query" = some "SELECT" := by decide +kernel
  have hsource : source? r "sql.query" = some "SELECT * FROM carts" := by decide +kernel
  have hevents : (ofRecord r 6).annotations = [⟨0, "héllo "⟩] := by decide +kernel
  obtain ⟨htags, -, hannotations⟩ := values_cut r 6
  obtain ⟨text, htext, hfront, -⟩ := htags _ _ htag
  obtain rfl := Option.some.inj (hsource.symm.trans htext)
  rw [hevents] at hannotations ⊢
  exact ⟨htag, hfront, rfl, (List.forall₂_cons.mp hannotations).1.1⟩

/-- The type of a span is exported whole, however long it is, and so is the mark of a failed one. -/
theorem not_values_cut :
    let r := { SpanRecord.new (.ofNat 1) (.ofNat 1) none "op" "svc" 0 with spanType := some "database", error := true }
    (ofRecord r 3).tags.get? typeTag = some "database" ∧ 3 < "database".length ∧
      (ofRecord r 3).tags.get? errorTag = some "true" ∧ 3 < "true".length := by
  decide +kernel

end Tracing.ZipkinSpan
