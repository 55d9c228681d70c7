/-!
# Blank characters

The characters with the White_Space property, and cutting them from both ends of a text.
-/

namespace Tracing.Text

/-- Ranges of code points with the White_Space property. -/
def blankRanges : List (Nat × Nat) :=
  [(0x9, 0xd), (0x20, 0x20), (0x85, 0x85), (0xa0, 0xa0), (0x1680, 0x1680), (0x2000, 0x200a),
   (0x2028, 0x2029), (0x202f, 0x202f), (0x205f, 0x205f), (0x3000, 0x3000)]

/-- Whether a code point lies in one of the ranges. -/
def inRanges (ranges : List (Nat × Nat)) (n : Nat) : Bool :=
  ranges.any fun r => r.1 ≤ n && n ≤ r.2

/-- Whether a character has the White_Space property. -/
def isBlank (c : Char) : Bool := inRanges blankRanges c.toNat

/-- The text without the characters at its end that satisfy `p`. -/
def dropEndWhile (p : Char → Bool) (text : List Char) : List Char :=
  (text.reverse.dropWhile p).reverse

/-- The text without blank characters at either end. -/
def trim (text : List Char) : List Char :=
  dropEndWhile isBlank (text.dropWhile isBlank)

theorem dropEndWhile_concat {p : Char → Bool} {text : List Char} {c : Char} (h : p c = false) :
    dropEndWhile p (text ++ [c]) = text ++ [c] := by
  simp [dropEndWhile, h]

/-- A text without blanks at its ends is its own trim. -/
theorem trim_eq_self {text : List Char} (hfirst : ∀ c ∈ text.head?, isBlank c = false)
    (hlast : ∀ c ∈ text.getLast?, isBlank c = false) : trim text = text := by
  cases text with
  | nil => rfl
  | cons c rest =>
    have hc : isBlank c = false := hfirst c rfl
    rw [trim, List.dropWhile_cons_of_neg (by simp [hc])]
    obtain ⟨init, last, heq⟩ : ∃ init last, c :: rest = init ++ [last] :=
      ⟨(c :: rest).dropLast, (c :: rest).getLast (by simp), (List.dropLast_concat_getLast _).symm⟩
    rw [heq] at hlast ⊢
    exact dropEndWhile_concat (hlast last (by simp))

end Tracing.Text
