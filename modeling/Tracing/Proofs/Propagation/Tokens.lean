import Tracing.Proofs.Text.Reading
import Tracing.Propagation.Carrier

/-!
# The values of a repeated header

A repeated header holds its values separated by commas (`tokens`), and a reader takes the first one that means
anything to it. What this comes to is told by a relation between texts and meanings (`FirstMeaning`), for any
reader that accepts what the relation says (`firstMeaning_iff`).
-/

namespace Tracing

open Text

/-- The values of a header without the blanks around them; a header that is not there has none. -/
def tokens : Option String → List (List Char)
  | none => []
  | some value => (splitOn ',' value.toList).map trim

theorem trim_of_mem_tokens {header : Option String} {text : List Char} (h : text ∈ tokens header) :
    trim text = text := by
  cases header with
  | none => cases h
  | some value =>
    obtain ⟨piece, -, rfl⟩ := List.mem_map.mp h
    exact trim_trim piece

section FirstMeaning

variable {α : Type} {Means : List Char → α → Prop} {read : List Char → Option α} {texts : List (List Char)}

/-- A text satisfies `p`, and none of those before it does. -/
def IsFirst (p : List Char → Prop) (texts : List (List Char)) (text : List Char) : Prop :=
  ∃ front back, texts = front ++ text :: back ∧ (∀ other ∈ front, ¬ p other) ∧ p text

/-- What the first text means that means anything; nothing if no text does. -/
def FirstMeaning (Means : List Char → α → Prop) (texts : List (List Char)) : Option α → Prop
  | none => ∀ text ∈ texts, ∀ a, ¬ Means text a
  | some a => ∃ text, IsFirst (fun other => ∃ b, Means other b) texts text ∧ Means text a

theorem read_eq_none_iff {text : List Char} (h : ∀ a, read text = some a ↔ Means text a) :
    read text = none ↔ ¬ ∃ a, Means text a := by
  rw [Option.eq_none_iff_forall_ne_some, not_exists]
  exact forall_congr' fun a => not_congr (h a)

/-- **A reader finds the first text that means anything.** -/
theorem firstMeaning_iff (h : ∀ text ∈ texts, ∀ a, read text = some a ↔ Means text a) {found : Option α} :
    FirstMeaning Means texts found ↔ texts.findSome? read = found := by
  cases found with
  | none =>
    rw [List.findSome?_eq_none_iff]
    refine forall₂_congr fun text htext => ?_
    rw [read_eq_none_iff (h text htext), not_exists]
  | some a =>
    rw [List.findSome?_eq_some_iff]
    constructor
    · rintro ⟨text, ⟨front, back, rfl, hfront, -⟩, ha⟩
      refine ⟨front, text, back, rfl, (h text (by simp) a).mpr ha, fun other hother => ?_⟩
      exact (read_eq_none_iff (h other (by simp [hother]))).mpr (hfront other hother)
    · rintro ⟨front, text, back, rfl, ha, hfront⟩
      have ha := (h text (by simp) a).mp ha
      refine ⟨text, ⟨front, back, rfl, fun other hother => ?_, ⟨a, ha⟩⟩, ha⟩
      exact (read_eq_none_iff (h other (by simp [hother]))).mp (hfront other hother)

theorem isSome_findSome?_iff (h : ∀ text ∈ texts, ∀ a, read text = some a ↔ Means text a) :
    (texts.findSome? read).isSome = true ↔ ∃ text ∈ texts, ∃ a, Means text a := by
  rw [List.findSome?_isSome_iff]
  refine exists_congr fun text => and_congr_right fun htext => ?_
  rw [Option.isSome_iff_exists]
  exact exists_congr (h text htext)

end FirstMeaning

theorem bind_firstValid {α : Type} (header : Option String) (read : List Char → Option α) :
    (header.bind fun value => firstValid read value.toList) = (tokens header).findSome? read := by
  cases header with
  | none => rfl
  | some value => rfl

end Tracing
