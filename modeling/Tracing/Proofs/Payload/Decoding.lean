import Tracing.Proofs.Dict
import Tracing.Proofs.Json.RoundTrip
import Tracing.Proofs.Payload.Accounting
import Tracing.Proofs.Ident

/-!
# Payloads are read back as their spans

The text of a payload is a JSON array with one object for each span (`Payload.toList_body`). The object of a span has
the members that `ZipkinSpan.fields` lists, and as none of them is changed by reading (`Kept`), the object that is
read has exactly these (`member?_ofMembers_fields`). `Describes` says what they tell of the span: its ids, its times
in microseconds, its texts, and what it has of the optional members.

* `Packer.payloads_decode`: every payload that is ever taken is read as the spans that were packed into it.
-/

namespace Tracing

open Text

/-! ### Optional entries -/

namespace Entries

variable {α : Type}

/-- The entries that have a value. -/
def present (fields : List (String × Option α)) : List (String × α) :=
  fields.filterMap fun field => field.2.map fun value => (field.1, value)

theorem sublist_keys_present (fields : List (String × Option α)) :
    ((present fields).map Prod.fst).Sublist (fields.map Prod.fst) := by
  induction fields with
  | nil => exact .slnil
  | cons field rest ih =>
    obtain ⟨key, _ | value⟩ := field
    · exact ih.cons key
    · exact ih.cons_cons key

theorem get?_present {fields : List (String × Option α)} (h : (fields.map Prod.fst).Nodup) (key : String) :
    get? key (present fields) = (get? key fields).join := by
  induction fields with
  | nil => rfl
  | cons field rest ih =>
    obtain ⟨hfirst, hrest⟩ := List.nodup_cons.mp h
    obtain ⟨first, _ | value⟩ := field
    · show get? key (present rest) = (if first = key then some none else get? key rest).join
      split
      · next heq =>
        exact get?_eq_none fun e he hname =>
          hfirst (heq.trans hname.symm ▸ (sublist_keys_present rest).subset (List.mem_map_of_mem he))
      · exact ih hrest
    · show (if first = key then some value else get? key (present rest)) =
        (if first = key then some (some value) else get? key rest).join
      split
      · rfl
      · exact ih hrest

end Entries

/-! ### The members of a span -/

namespace ZipkinSpan

/-- The members of the object of a span by name; one without a value is left out. -/
def fields (z : ZipkinSpan) : List (String × Option Json) :=
  [("id", some (.str z.id)),
    ("traceId", some (.str z.traceId)),
    ("parentId", z.parentId.map .str),
    ("name", some (.str z.name)),
    ("timestamp", some (.int z.timestamp)),
    ("duration", some (.int z.duration)),
    ("kind", z.kind.map .str),
    ("localEndpoint", some (.obj [("serviceName", .str z.serviceName)])),
    ("tags", some (.obj (z.tags.entries.map fun e => (e.1, .str e.2)))),
    ("annotations", if z.annotations.isEmpty then none else some (.arr (z.annotations.map annotationJson)))]

theorem toJson_eq_present (z : ZipkinSpan) : z.toJson = .obj (Entries.present z.fields) := by
  unfold toJson fields
  cases z.parentId <;> cases z.kind <;> cases z.annotations <;> rfl

theorem nodup_fields (z : ZipkinSpan) : (z.fields.map Prod.fst).Nodup := by
  have hnames : z.fields.map Prod.fst = ["id", "traceId", "parentId", "name", "timestamp", "duration", "kind",
    "localEndpoint", "tags", "annotations"] := rfl
  rw [hnames]
  decide

/-- A value that is read back as it is, as long as the given number of levels may still open. -/
structure Kept (depth : Nat) (j : Json) : Prop where
  readable : j.Readable depth
  normal : j.normal = j

theorem kept_texts {depth : Nat} (h : 1 < depth) (d : Dict String) :
    Kept depth (.obj (d.entries.map fun e => (e.1, .str e.2))) := by
  have hordered : Entries.Ordered (d.entries.map fun e => (e.1, Json.str e.2)) :=
    List.pairwise_map.mpr d.ordered
  refine ⟨⟨h, Json.readableMembers_iff.mpr fun m hm => ?_⟩, ?_⟩
  · obtain ⟨e, -, rfl⟩ := List.mem_map.mp hm
    trivial
  · rw [Json.normal, Json.normalMembers_eq, List.map_map]
    exact Json.ofMembers_of_ordered hordered

theorem kept_number {depth n : Nat} (h : n ≤ maxWord) : Kept depth (.int n) := by
  have hmax : maxWord = 2 ^ 64 - 1 := by decide
  refine ⟨?_, rfl⟩
  show -(2 ^ 63) ≤ (n : Int) ∧ (n : Int) < 2 ^ 64
  omega

theorem kept_array {depth : Nat} (h : 1 < depth) {items : List Json}
    (hitems : ∀ item ∈ items, Kept (depth - 1) item) : Kept depth (.arr items) := by
  refine ⟨⟨h, Json.readableItems_iff.mpr fun item hitem => (hitems item hitem).readable⟩, ?_⟩
  rw [Json.normal, Json.normalItems_eq, List.map_congr_left fun item hitem => (hitems item hitem).normal,
    List.map_id']

theorem kept_annotationJson {depth : Nat} (h : 1 < depth) {a : Annotation} (ha : a.timestamp ≤ maxWord) :
    Kept depth (annotationJson a) := by
  have hnames : "timestamp" < "value" := by decide
  exact ⟨⟨h, (kept_number ha).readable, trivial, trivial⟩,
    Json.ofMembers_of_ordered (List.pairwise_pair.mpr hnames)⟩

/-- The times of a span are of 64 bits. -/
structure Bounded (z : ZipkinSpan) : Prop where
  timestamp : z.timestamp ≤ maxWord
  duration : z.duration ≤ maxWord
  annotations : ∀ a ∈ z.annotations, a.timestamp ≤ maxWord

theorem kept_fields {z : ZipkinSpan} (h : z.Bounded) {depth : Nat} (hdepth : 2 < depth) :
    ∀ field ∈ z.fields, ∀ value, field.2 = some value → Kept depth value := by
  have text : ∀ s, Kept depth (.str s) := fun _ => ⟨trivial, rfl⟩
  have optional : ∀ (s : Option String) value, s.map Json.str = some value → Kept depth value := by
    intro s value hvalue
    obtain ⟨s, -, rfl⟩ := Option.map_eq_some_iff.mp hvalue
    exact text s
  intro field hfield value hvalue
  simp only [fields, List.mem_cons, List.not_mem_nil, or_false] at hfield
  rcases hfield with rfl | rfl | rfl | rfl | rfl | rfl | rfl | rfl | rfl | rfl
  · exact Option.some.inj hvalue ▸ text _
  · exact Option.some.inj hvalue ▸ text _
  · exact optional _ _ hvalue
  · exact Option.some.inj hvalue ▸ text _
  · exact Option.some.inj hvalue ▸ kept_number h.timestamp
  · exact Option.some.inj hvalue ▸ kept_number h.duration
  · exact optional _ _ hvalue
  · exact Option.some.inj hvalue ▸ ⟨⟨by omega, trivial, trivial⟩, rfl⟩
  · exact Option.some.inj hvalue ▸ kept_texts (by omega) _
  · obtain ⟨-, hitems⟩ := Option.ite_none_left_eq_some.mp hvalue
    refine Option.some.inj hitems ▸ kept_array (by omega) fun item hitem => ?_
    obtain ⟨a, ha, rfl⟩ := List.mem_map.mp hitem
    exact kept_annotationJson (by omega) (h.annotations a ha)

/-- **The object of a span is read back with all its members.** -/
theorem read_toJson {z : ZipkinSpan} (h : z.Bounded) {depth : Nat} (hdepth : 3 < depth) :
    z.toJson.Readable depth ∧ z.toJson.normal = .ofMembers (Entries.present z.fields) := by
  have hkept : ∀ m ∈ Entries.present z.fields, Kept (depth - 1) m.2 := by
    intro m hm
    obtain ⟨field, hfield, hvalue⟩ := List.mem_filterMap.mp hm
    obtain ⟨value, hsome, rfl⟩ := Option.map_eq_some_iff.mp hvalue
    exact kept_fields h (by omega) field hfield value hsome
  rw [toJson_eq_present]
  refine ⟨⟨by omega, Json.readableMembers_iff.mpr fun m hm => (hkept m hm).readable⟩, ?_⟩
  rw [Json.normal, Json.normalMembers_eq, List.map_congr_left fun m hm => congrArg (Prod.mk m.1) (hkept m hm).normal,
    List.map_id']

theorem member?_ofMembers_fields (z : ZipkinSpan) (name : String) :
    (Json.ofMembers (Entries.present z.fields)).member? name = (Entries.get? name z.fields).join := by
  rw [Json.ofMembers_eq]
  refine (Dict.get?_ofList _ name).trans ?_
  rw [Entries.get?_reverse ((Entries.sublist_keys_present _).nodup z.nodup_fields),
    Entries.get?_present z.nodup_fields]

/-! ### Times -/

/-- **Microseconds are whole, and at most 64 bits of them are kept.** -/
theorem micros_eq (nanos : Nat) : micros nanos = min maxWord (nanos / 1000) := by
  unfold micros
  omega

theorem bounded_ofRecord (r : SpanRecord) (length : Nat) : (ofRecord r length).Bounded := by
  have hmicros : ∀ nanos, micros nanos ≤ maxWord := fun nanos => micros_eq nanos ▸ Nat.min_le_left _ _
  refine ⟨hmicros _, hmicros _, fun a ha => ?_⟩
  obtain ⟨event, -, rfl⟩ := List.mem_map.mp ha
  exact hmicros _

end ZipkinSpan

/-! ### What an object tells of its span -/

/-- The text of an id in hexadecimal digits. -/
def IsHex (n : Nat) (value : Option Json) : Prop :=
  ∃ text, value = some (.str text) ∧ Hex.readNat text.toList = some n

/-- An object that tells of a span, its values cut to a length: it has exactly the members of the exported form,
the ids and times are those of the span, and the optional members are there if and only if the span has them. -/
structure Describes (length : Nat) (r : SpanRecord) (item : Json) : Prop where
  object : ∃ members : Dict Json, item = .obj members.entries
  members : ∀ name, item.member? name = (Entries.get? name (ZipkinSpan.ofRecord r length).fields).join
  id : IsHex r.spanId.toNat (item.member? "id")
  traceId : IsHex r.traceId.toNat (item.member? "traceId")
  parentId : ∀ parent, r.parentId = some parent → IsHex parent.toNat (item.member? "parentId")
  noParentId : r.parentId = none → item.member? "parentId" = none
  name : item.member? "name" = some (.str r.name)
  timestamp : item.member? "timestamp" = some (.int (min (2 ^ 64 - 1) (r.start.toNat / 1000) : Nat))
  duration : item.member? "duration" = some (.int (min (2 ^ 64 - 1) (r.duration / 1000) : Nat))
  kind : item.member? "kind" = (r.tags.get? "span.kind").map fun kind => .str (uppercase kind.display)
  service : item.member? "localEndpoint" = some (.obj [("serviceName", .str r.service)])
  annotations : item.member? "annotations" = none ↔ r.annotations = []

theorem isHex_of_readNat {digits : List Char} {n : Nat} (h : Hex.readNat digits = some n) :
    IsHex n (some (.str (String.ofList digits))) :=
  ⟨_, rfl, by rw [String.toList_ofList]; exact h⟩

theorem describes_of_fields {length : Nat} {r : SpanRecord} :
    Describes length r (.ofMembers (Entries.present (ZipkinSpan.ofRecord r length).fields)) := by
  have hmember := (ZipkinSpan.ofRecord r length).member?_ofMembers_fields
  have hmax : 2 ^ 64 - 1 = ZipkinSpan.maxWord := by decide
  have at_place : ∀ {i : Nat} {field}, (ZipkinSpan.ofRecord r length).fields[i]? = some field →
      (Json.ofMembers (Entries.present (ZipkinSpan.ofRecord r length).fields)).member? field.1 = field.2 := by
    intro i field hfield
    rw [hmember, Entries.get?_of_getElem? (ZipkinSpan.nodup_fields _) hfield]
    rfl
  refine ⟨⟨_, Json.ofMembers_eq _⟩, hmember, ?_, ?_, fun parent hparent => ?_, fun hnone => ?_,
    ?_, ?_, ?_, ?_, ?_, ?_⟩
  · rw [at_place (i := 0) rfl]
    exact isHex_of_readNat r.spanId.readNat_toHex
  · rw [at_place (i := 1) rfl]
    exact isHex_of_readNat r.traceId.readNat_toHex
  · rw [at_place (i := 2) rfl]
    simp only [ZipkinSpan.ofRecord, hparent, Option.map_some]
    exact isHex_of_readNat parent.readNat_toHex
  · rw [at_place (i := 2) rfl]
    simp only [ZipkinSpan.ofRecord, hnone, Option.map_none]
  · exact at_place (i := 3) rfl
  · rw [hmax, ← ZipkinSpan.micros_eq]
    exact at_place (i := 4) rfl
  · rw [hmax, ← ZipkinSpan.micros_eq]
    exact at_place (i := 5) rfl
  · rw [at_place (i := 6) rfl]
    exact Option.map_map _ _ _
  · exact at_place (i := 7) rfl
  · rw [at_place (i := 9) rfl]
    show (if (r.annotations.map _).isEmpty = true then none else some _) = none ↔ _
    simp

/-! ### Payloads -/

theorem toList_intercalate (items : List Json) :
    (String.intercalate "," (items.map Json.text)).toList = Json.writeItems items := by
  have htexts : (items.map Json.text).map String.toList = items.map Json.write := by
    rw [List.map_map]
    exact List.map_congr_left fun _ _ => String.toList_ofList
  rw [String.toList_intercalate, htexts, Json.writeItems_eq]
  rfl

theorem Payload.toList_body {payload : Payload} {items : List Json} (h : payload.spans = items.map Json.text) :
    payload.body.toList = (Json.arr items).write := by
  unfold Payload.body
  rw [h, String.toList_append, String.toList_append, toList_intercalate]
  rfl

/-- **The text of a payload is read as an array of objects that tell of its spans.** -/
theorem Payload.read_body {payload : Payload} {records : List SpanRecord} {length : Nat}
    (h : payload.spans = records.map fun r => encodeSpan r length) :
    ∃ items, Json.read? payload.body.toList = some (.arr items) ∧ items.length = payload.spanCount ∧
      List.Forall₂ (Describes length) records items := by
  let item (r : SpanRecord) : Json := .ofMembers (Entries.present (ZipkinSpan.ofRecord r length).fields)
  have hbody : payload.body.toList =
      (Json.arr (records.map fun r => (ZipkinSpan.ofRecord r length).toJson)).write :=
    Payload.toList_body (h.trans (by rw [List.map_map]; rfl))
  have hitem := fun r => (ZipkinSpan.ofRecord r length).read_toJson (ZipkinSpan.bounded_ofRecord r length)
    (show 3 < 127 by decide)
  refine ⟨records.map item, ?_, ?_, ?_⟩
  · rw [hbody, Json.read?_write, Json.normal, Json.normalItems_eq, List.map_map]
    · exact congrArg (fun items => some (Json.arr items)) (List.map_congr_left fun r _ => (hitem r).2)
    · refine ⟨by decide, Json.readableItems_iff.mpr fun j hj => ?_⟩
      obtain ⟨r, -, rfl⟩ := List.mem_map.mp hj
      exact (hitem r).1
  · unfold Payload.spanCount
    rw [h, List.length_map, List.length_map]
  · exact List.forall₂_map_right_iff.mpr (List.forall₂_same.mpr fun r _ => describes_of_fields)

namespace Packer

/-- The spans that are packed: those whose encoding fits into a payload. -/
def packedOf (maxBytes maxValueLength : Nat) (traces : List (List SpanRecord)) : List SpanRecord :=
  traces.flatten.filter fun r => Fits maxBytes (encodeSpan r maxValueLength)

theorem flatten_packable (maxBytes maxValueLength : Nat) (traces : List (List SpanRecord)) :
    (traces.map (packable maxBytes maxValueLength)).flatten =
      (packedOf maxBytes maxValueLength traces).map fun r => encodeSpan r maxValueLength := by
  induction traces with
  | nil => rfl
  | cons trace traces ih =>
    unfold packedOf at ih ⊢
    rw [List.map_cons, List.flatten_cons, List.flatten_cons, ih, List.filter_append, List.map_append, packable_eq,
      encodable, List.filter_map]
    rfl

/-- Lists that make up the image of a list are the images of slices of it. -/
theorem exists_slices {α β : Type} {f : α → β} {pieces : List (List β)} {left : List β} {whole : List α}
    (h : pieces.flatten ++ left = whole.map f) : ∃ (slices : List (List α)) (rest : List α),
      slices.flatten ++ rest = whole ∧ left = rest.map f ∧
        List.Forall₂ (fun piece slice => piece = slice.map f) pieces slices := by
  induction pieces generalizing whole with
  | nil => exact ⟨[], whole, rfl, h, .nil⟩
  | cons piece pieces ih =>
    rw [List.flatten_cons, List.append_assoc] at h
    obtain ⟨slice, behind, rfl, hslice, hbehind⟩ := List.append_eq_map_iff.mp h
    obtain ⟨slices, rest, rfl, hleft, hslices⟩ := ih hbehind.symm
    exact ⟨slice :: slices, rest, List.append_assoc _ _ _, hleft, .cons hslice.symm hslices⟩

/-- **Payloads are read back as their spans.** However a packer was used, with whatever limits and texts: the text of
every payload taken so far is read as an array with as many objects as the payload counts spans, and each object tells
of its span. The spans of the payloads in their order, followed by those that are still queued, are all spans that
were added and fit into a payload. -/
theorem payloads_decode (maxBytes maxValueLength : Nat) (uses : List Use) :
    let a := Account.after maxBytes maxValueLength uses
    ∃ (packed : List (List SpanRecord)) (left : List SpanRecord),
      packed.flatten ++ left = packedOf maxBytes maxValueLength a.added ∧
      spansOf a.packer.queue = left.map (fun r => encodeSpan r maxValueLength) ∧
      List.Forall₂ (fun payload records => ∃ items, Json.read? payload.body.toList = some (.arr items) ∧
        items.length = payload.spanCount ∧ List.Forall₂ (Describes maxValueLength) records items)
        a.taken packed := by
  intro a
  have h : Balanced maxBytes maxValueLength a := balanced_after uses
  have hspans : (a.taken.map Payload.spans).flatten ++ spansOf a.packer.queue =
      (packedOf maxBytes maxValueLength a.added).map fun r => encodeSpan r maxValueLength := by
    rw [← spansOf_taken, ← spansOf_append, h.chunks, spansOf_chunksOf, flatten_packable]
  obtain ⟨packed, left, hpacked, hleft, hslices⟩ := exists_slices hspans
  exact ⟨packed, left, hpacked, hleft, (List.forall₂_map_left_iff.mp hslices).imp fun _ _ => Payload.read_body⟩

end Packer

end Tracing
