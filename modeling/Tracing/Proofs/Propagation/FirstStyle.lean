import Tracing.Config.Basic
import Tracing.Proofs.Propagation.Headers

/-!
# The first style that finds a trace

Styles are asked for a context one after the other, until one of them finds a trace (`extractFirst_value`).
Nothing is merged: the outcome is what that style reads alone, and only the headers of the styles that were
asked so far can change it (`extractFirst_congr`). `extract_never_merges` says this of the styles that a
configuration lists.
-/

namespace Tracing

open Text

variable {carrier other : Carrier} {style : Style} {styles : List Style}

namespace Style

/-- Whether a style reads a context that names a trace. -/
def finds (style : Style) (carrier : Carrier) : Bool :=
  (style.extract carrier).value.any Extracted.isValid

/-- The styles that are asked: the first one that finds a trace and those in front of it, or all of them. -/
def asked (styles : List Style) (carrier : Carrier) : List Style :=
  styles.takeWhile (fun style => !style.finds carrier) ++ (styles.find? fun style => style.finds carrier).toList

theorem asked_of_finds (h : style.finds carrier = true) : asked (style :: styles) carrier = [style] := by
  simp [asked, h]

theorem asked_of_not_finds (h : style.finds carrier = false) :
    asked (style :: styles) carrier = style :: asked styles carrier := by
  simp [asked, h]

theorem head_mem_asked : style ∈ asked (style :: styles) carrier := by
  cases h : style.finds carrier with
  | true => simp [asked_of_finds h]
  | false => simp [asked_of_not_finds h]

theorem finds_congr (h : style.extract carrier = style.extract other) :
    style.finds carrier = style.finds other := by
  unfold finds
  rw [h]

end Style

/-! ### Asking one style after the other -/

namespace Propagator

theorem extractFirst_of_finds (h : style.finds carrier = true) :
    extractFirst carrier (style :: styles) = style.extract carrier := by
  unfold Style.finds at h
  rw [extractFirst]
  generalize style.extract carrier = read at h ⊢
  obtain ⟨value, events⟩ := read
  cases value with
  | none => cases h
  | some found =>
    have hfilter : (some found).filter Extracted.isValid = some found := Option.filter_eq_some_iff.mpr ⟨rfl, h⟩
    simp only [bind, hfilter]
    simp

theorem extractFirst_of_not_finds (h : style.finds carrier = false) :
    extractFirst carrier (style :: styles) = style.extract carrier >>= fun _ => extractFirst carrier styles := by
  unfold Style.finds at h
  rw [extractFirst]
  generalize style.extract carrier = read at h ⊢
  obtain ⟨value, events⟩ := read
  have hfilter : value.filter Extracted.isValid = none := by
    rw [Option.filter_eq_none_iff]
    intro found hfound
    obtain rfl : value = some found := hfound
    exact Bool.eq_false_iff.mp h
  simp only [bind, hfilter]

/-- **The first style that finds a trace decides alone.** -/
theorem extractFirst_value (carrier : Carrier) (styles : List Style) : (extractFirst carrier styles).value =
    (styles.find? fun style => style.finds carrier).bind fun style => (style.extract carrier).value := by
  induction styles with
  | nil => rfl
  | cons style rest ih =>
    cases h : style.finds carrier with
    | true => simp [extractFirst_of_finds h, h]
    | false => simp [extractFirst_of_not_finds h, h, ih]

/-- **Only the headers of the styles that are asked matter**, also to what is logged on the way. -/
theorem extractFirst_congr (h : ∀ style ∈ Style.asked styles carrier, carrier.AgreeOn style.headers other) :
    extractFirst other styles = extractFirst carrier styles := by
  induction styles with
  | nil => rfl
  | cons style rest ih =>
    have hextract := Style.extract_congr (h style Style.head_mem_asked)
    have hfinds := Style.finds_congr hextract
    cases hfound : style.finds carrier with
    | true => rw [extractFirst_of_finds hfound, extractFirst_of_finds (hfinds ▸ hfound), hextract]
    | false =>
      rw [Style.asked_of_not_finds hfound, List.forall_mem_cons] at h
      rw [extractFirst_of_not_finds hfound, extractFirst_of_not_finds (hfinds ▸ hfound), hextract, ih h.2]

theorem extractFirst_filter (carrier : Carrier) (styles : List Style) :
    extractFirst carrier (styles.filter (· != .none)) = extractFirst carrier styles := by
  induction styles with
  | nil => rfl
  | cons style rest ih =>
    cases style with
    | none => exact ih
    | datadog | traceContext | b3multi | b3 =>
      rw [List.filter_cons_of_pos rfl]
      unfold extractFirst
      rw [ih]

end Propagator

/-! ### The styles of a configuration -/

/-- The styles that are read with a configuration: those it lists for reading, or else for both directions. -/
def Config.readStyles (config : Config) : List Style :=
  if config.styleExtract.isEmpty then config.style else config.styleExtract

theorem Style.parentSpanIdHeader_ne : ∀ style : Style, ∀ header ∈ style.headers,
    lowercase B3Multi.parentSpanIdHeader ≠ lowercase header := by
  intro style
  cases style <;> decide +kernel

/-- **Extraction never merges formats.** With any configuration, carriers that agree on the headers of the styles
that are asked are read alike, and what is read is what the first style to find a trace reads alone, if there
is one. So nothing that is stored under other names has any influence, be it read by a later style, by one
that is not listed, or by none, such as the parent span. -/
theorem extract_never_merges (config : Config) (carrier : Carrier) :
    let p := Propagator.ofStyles config.style config.styleExtract config.styleInject
    let styles := config.readStyles
    (∀ other : Carrier, (∀ style ∈ Style.asked styles carrier, carrier.AgreeOn style.headers other) →
      p.extract other = p.extract carrier ∧ (p.extract other).value =
        (styles.find? fun style => style.finds carrier).bind fun style => (style.extract carrier).value) ∧
    (∀ headers, (∀ style ∈ Style.asked styles carrier, ∀ name ∈ style.headers, ¬ Carrier.Writes headers name) →
      p.extract (carrier.setAll headers) = p.extract carrier) ∧
    ∀ parent, p.extract (carrier.set B3Multi.parentSpanIdHeader parent) = p.extract carrier := by
  intro p styles
  have hextract : ∀ c, p.extract c = Propagator.extractFirst c styles := fun c =>
    Propagator.extractFirst_filter c styles
  have hagree : ∀ other : Carrier, (∀ style ∈ Style.asked styles carrier, carrier.AgreeOn style.headers other) →
      p.extract other = p.extract carrier := fun other h => by
    rw [hextract, hextract, Propagator.extractFirst_congr h]
  refine ⟨fun other h => ⟨hagree other h, ?_⟩, fun headers h => ?_, fun parent => ?_⟩
  · rw [hagree other h, hextract, Propagator.extractFirst_value]
  · refine hagree _ fun style hstyle name hname => ?_
    exact (Carrier.get?_setAll_of_not_written (h style hstyle name hname)).symm
  · refine hagree _ fun style _ name hname => ?_
    exact (Carrier.get?_set_of_ne (Style.parentSpanIdHeader_ne style name hname) parent).symm

/-- A malformed `b3` header is passed over, and the Datadog headers behind it are not mixed with those of trace
context or of a style that is not listed. -/
theorem extract_never_merges_passed_over :
    let config := { Config.default with style := [.b3, .none, .datadog, .traceContext] }
    let p := Propagator.ofStyles config.style config.styleExtract config.styleInject
    let carrier := Carrier.empty.setAll [("b3", "1"), ("x-datadog-trace-id", "7"),
      ("traceparent", "00-00000000000000000000000000000009-0000000000000009-01")]
    let other := Carrier.empty.setAll [("x-datadog-trace-id", "7"), ("b3", "1"), ("x-b3-sampled", "1")]
    let foreign := [("tracestate", "dd=s:2"), ("x-b3-parentspanid", "0000000000000005"), ("accept", "*/*")]
    Style.asked config.readStyles carrier = [.b3, .none, .datadog] ∧
      (∀ style ∈ Style.asked config.readStyles carrier, carrier.AgreeOn style.headers other) ∧
      (p.extract other).value = some ⟨.ofNat 7, .zero, none, none, ∅⟩ ∧
      (∀ style ∈ Style.asked config.readStyles carrier, ∀ name ∈ style.headers,
        ¬ Carrier.Writes foreign name) ∧
      p.extract (carrier.setAll foreign) = p.extract carrier := by
  intro config p carrier other foreign
  obtain ⟨hagree, hforeign, -⟩ := extract_never_merges config carrier
  have hasked : Style.asked config.readStyles carrier = [.b3, .none, .datadog] := by decide +kernel
  have hother : ∀ style ∈ Style.asked config.readStyles carrier, carrier.AgreeOn style.headers other := by
    rw [hasked]
    decide +kernel
  have hfree : ∀ style ∈ Style.asked config.readStyles carrier, ∀ name ∈ style.headers,
      ¬ Carrier.Writes foreign name := by
    rw [hasked]
    decide +kernel
  refine ⟨hasked, hother, (hagree other hother).2.trans ?_, hfree, hforeign foreign hfree⟩
  decide +kernel

end Tracing
