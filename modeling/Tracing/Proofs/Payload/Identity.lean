import Tracing.Payload.Zipkin
import Tracing.Proofs.Ident
import Tracing.Proofs.Text.Reading
import Tracing.Proofs.Trace.Identity

/-!
# The identity of an exported span

The exported text of a span starts with its id and the id of its trace, both as hexadecimal digits. So spans
with the same text have the same identity (`identity_of_encodeSpan`).
-/

namespace Tracing

open Text

/-! ### Exported text -/

namespace Json

theorem escapeChar_digit {width n : Nat} {c : Char} (h : c ∈ Hex.write width n) :
    escapeChar c = [c] ∧ c ≠ '"' := by
  have hdigit := Hex.isDigit_of_mem_write h
  have hlow := (Hex.visible_of_mem_write h).1
  have hne : ∀ d : Char, Hex.isDigit d = false → c ≠ d := by
    rintro d hd rfl
    rw [hdigit] at hd
    cases hd
  refine ⟨?_, hne _ (by decide)⟩
  unfold escapeChar
  rw [if_neg (hne _ (by decide)), if_neg (hne _ (by decide)), if_neg (hne _ (by decide)),
    if_neg (hne _ (by decide)), if_neg (hne _ (by decide)), if_neg (hne _ (by decide)),
    if_neg (hne _ (by decide)), if_neg (by omega)]

theorem write_digits (width n : Nat) :
    write (.str (String.ofList (Hex.write width n))) = '"' :: Hex.write width n ++ ['"'] := by
  have hplain : (Hex.write width n).flatMap escapeChar = (Hex.write width n).flatMap fun c => [c] :=
    List.flatMap_congr fun c hc => (escapeChar_digit hc).1
  rw [write, String.toList_ofList, writeString, hplain, List.flatMap_singleton']

theorem writeMembers_cons (name : String) (value : Json) (members : List (String × Json)) :
    writeMembers ((name, value) :: members) = writeString name.toList ++ ':' :: write value ++
      if members = [] then [] else ',' :: writeMembers members := by
  cases members with
  | nil => simp [writeMembers]
  | cons => simp [writeMembers]

end Json

/-- What stands in front of the id of a span. -/
def idLead : List Char := "\x7b\"id\":\"".toList

/-- What stands between the id of a span and the id of its trace. -/
def traceIdLead : List Char := "\",\"traceId\":\"".toList

theorem ZipkinSpan.toJson_eq (z : ZipkinSpan) : ∃ members,
    z.toJson = .obj (("id", .str z.id) :: ("traceId", .str z.traceId) :: members) := by
  unfold toJson
  simp only [List.append_assoc, List.cons_append, List.nil_append]
  exact ⟨_, rfl⟩

theorem toList_encodeSpan (r : SpanRecord) (length : Nat) : ∃ rest, (encodeSpan r length).toList =
    idLead ++ (r.spanId.toHex ++ (traceIdLead ++ (r.traceId.toHex ++ '"' :: rest))) := by
  obtain ⟨width, -, -, htrace⟩ := r.traceId.toHex_eq
  obtain ⟨members, hjson⟩ := (ZipkinSpan.ofRecord r length).toJson_eq
  have hlead : idLead = '\x7b' :: Json.writeString "id".toList ++ [':', '"'] := by decide
  have hbetween : traceIdLead = '"' :: ',' :: Json.writeString "traceId".toList ++ [':', '"'] := by decide
  have htext : (encodeSpan r length).toList = (Json.obj (("id", .str (String.ofList r.spanId.toHex)) ::
      ("traceId", .str (String.ofList r.traceId.toHex)) :: members)).write := by
    rw [encodeSpan, Json.text, String.toList_ofList, hjson]
    rfl
  refine ⟨(if members = [] then [] else ',' :: Json.writeMembers members) ++ ['\x7d'], ?_⟩
  rw [htext, htrace, SpanId.toHex, Json.write, Json.writeMembers_cons, Json.writeMembers_cons,
    Json.write_digits, Json.write_digits, if_neg (List.cons_ne_nil _ _), hlead, hbetween]
  simp only [List.append_assoc, List.cons_append, List.nil_append]

/-- **The exported text of a span tells its identity.** -/
theorem identity_of_encodeSpan {r r' : SpanRecord} {length length' : Nat}
    (h : encodeSpan r length = encodeSpan r' length') : r.identity = r'.identity := by
  obtain ⟨rest, hr⟩ := toList_encodeSpan r length
  obtain ⟨rest', hr'⟩ := toList_encodeSpan r' length'
  rw [h, hr'] at hr
  have hlength : r'.spanId.toHex.length = r.spanId.toHex.length := by
    rw [SpanId.toHex, SpanId.toHex, Hex.length_write, Hex.length_write]
  obtain ⟨hspan, hrest⟩ := List.append_inj (List.append_cancel_left hr) hlength
  -- no digit of the trace id is the quote that ends it
  have htake : ∀ (t : TraceId) (rest : List Char),
      (t.toHex ++ '"' :: rest).takeWhile (· ≠ '"') = t.toHex := by
    intro t rest
    obtain ⟨width, -, -, ht⟩ := t.toHex_eq
    rw [ht, List.takeWhile_append_of_pos, List.takeWhile_cons]
    · simp
    · exact fun c hc => by simpa using (Json.escapeChar_digit hc).2
  have htrace : r.traceId.toHex = r'.traceId.toHex := by
    rw [← htake r.traceId rest, ← htake r'.traceId rest', List.append_cancel_left hrest]
  unfold SpanRecord.identity
  rw [TraceId.toHex_injective htrace, ← SpanId.toHex_injective hspan]

end Tracing
