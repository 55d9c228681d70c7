import Tracing.Text.Blank
import Tracing.Text.Category
import Tracing.Text.CaseTable

/-!
# Upper and lower case of text

The full case mappings: a character may become several, and a capital sigma at the end of a word becomes
the final form of the letter.
-/

namespace Tracing.Text

/-! ### Characters -/

/-- The lowercase of an ASCII character. -/
def lowerAscii (c : Char) : Char :=
  if 'A' ≤ c ∧ c ≤ 'Z' then Char.ofNat (c.toNat + 32) else c

/-- The lowercase of a character, outside the rule for a final sigma. -/
def lowerChar (c : Char) : List Char :=
  if c.toNat < 128 then [lowerAscii c]
  else if c.toNat = 0x130 then ['i', '\u0307']
  else [Char.ofNat (CaseRun.apply lowerRuns c.toNat)]

/-- The uppercase of a character. -/
def upperChar (c : Char) : List Char :=
  if c.toNat < 128 then [if 'a' ≤ c ∧ c ≤ 'z' then Char.ofNat (c.toNat - 32) else c]
  else match upperSequences.find? (·.1 == c.toNat) with
    | some (_, codes) => codes.map Char.ofNat
    | none => [Char.ofNat (CaseRun.apply upperRuns c.toNat)]

/-! ### Words -/

/-- Characters that a word break may stand inside of without ending a word, apart from those whose
category says so. -/
def midWordRanges : List (Nat × Nat) :=
  [(0x27, 0x27), (0x2e, 0x2e), (0x3a, 0x3a), (0xb7, 0xb7), (0x387, 0x387), (0x55f, 0x55f),
   (0x5f4, 0x5f4), (0x2018, 0x2019), (0x2024, 0x2024), (0x2027, 0x2027), (0xfe13, 0xfe13),
   (0xfe52, 0xfe52), (0xfe55, 0xfe55), (0xff07, 0xff07), (0xff0e, 0xff0e), (0xff1a, 0xff1a)]

/-- Numerals and circled letters that have case without being letters. -/
def casedSymbolRanges : List (Nat × Nat) :=
  [(0xaa, 0xaa), (0xba, 0xba), (0x2160, 0x217f), (0x24b6, 0x24e9), (0x1f130, 0x1f149),
   (0x1f150, 0x1f169), (0x1f170, 0x1f189)]

/-- Characters that are skipped when looking for the letter next to a sigma. -/
def isCaseIgnorable (c : Char) : Bool :=
  match Category.ofChar c with
  | .mn | .me | .cf | .lm | .sk => true
  | _ => inRanges midWordRanges c.toNat

/-- Characters that have case. -/
def isCased (c : Char) : Bool :=
  match Category.ofChar c with
  | .lu | .ll | .lt => true
  | _ => inRanges casedSymbolRanges c.toNat

/-- Whether the first character that is not skipped has case. -/
def meetsCased (text : List Char) : Bool :=
  ((text.dropWhile isCaseIgnorable).head?.map isCased).getD false

/-- The lowercase of `text`, where `before` holds the characters to its left, nearest first. A capital
sigma takes its final form after a letter and before none. -/
def lowerAfter : List Char → List Char → List Char
  | _, [] => []
  | before, c :: rest =>
    if c = 'Σ' then
      (if meetsCased before && !meetsCased rest then 'ς' else 'σ') :: lowerAfter (c :: before) rest
    else lowerChar c ++ lowerAfter (c :: before) rest

/-- The lowercase of a text. -/
def lower (text : List Char) : List Char := lowerAfter [] text

/-- The uppercase of a text. -/
def upper (text : List Char) : List Char := text.flatMap upperChar

/-- The lowercase of a string. -/
def lowercase (s : String) : String := String.ofList (lower s.toList)

/-- The uppercase of a string. -/
def uppercase (s : String) : String := String.ofList (upper s.toList)

/-! ### Case-insensitive comparison -/

/-- The code point that stands for all case variants of a code point, by the simple mappings. The two
dotted and dotless variants of the letter i that only some languages fold stand for themselves. -/
def foldCode (code : Nat) : Nat :=
  if code = 0x130 ∨ code = 0x131 then code
  else CaseRun.apply lowerRuns (CaseRun.apply upperRuns code)

/-- All code points that fold to the same code point as `code`. -/
def caseVariants (code : Nat) : List Nat :=
  let key := foldCode code
  let lowered := key :: CaseRun.preimages lowerRuns key
  let all := code :: lowered ++ lowered.flatMap (CaseRun.preimages upperRuns)
  all.filter fun other => foldCode other == key

end Tracing.Text
