/-!
# Splitting text

Cutting a list of characters at a separator, at its first occurrence (`splitOnce`) or at all of them
(`splitOn`), and joining pieces again. Joining undoes splitting (`joinWith_splitOn`), and pieces that do
not hold the separator survive the round trip (`splitOn_joinWith`).
-/

namespace Tracing.Text

/-- The pieces between the occurrences of `sep`; the text without `sep` is one piece. -/
def splitOn (sep : Char) : List Char → List (List Char)
  | [] => [[]]
  | c :: rest =>
    if c = sep then [] :: splitOn sep rest
    else match splitOn sep rest with
      | [] => [[c]]
      | piece :: pieces => (c :: piece) :: pieces

/-- The text before and after the first `sep`. -/
def splitOnce (sep : Char) : List Char → Option (List Char × List Char)
  | [] => none
  | c :: rest =>
    if c = sep then some ([], rest)
    else (splitOnce sep rest).map fun (before, after) => (c :: before, after)

/-- The pieces with `sep` between neighbours. -/
def joinWith (sep : List Char) : List (List Char) → List Char
  | [] => []
  | [piece] => piece
  | piece :: pieces => piece ++ sep ++ joinWith sep pieces

/-- What follows `lead` in a text that starts with it. -/
def dropLead? : List Char → List Char → Option (List Char)
  | [], text => some text
  | _ :: _, [] => none
  | l :: lead, c :: text => if l = c then dropLead? lead text else none

theorem splitOn_ne_nil (sep : Char) (text : List Char) : splitOn sep text ≠ [] := by
  cases text with
  | nil => simp [splitOn]
  | cons c rest =>
    simp only [splitOn]
    split
    · simp
    · split <;> simp

theorem splitOn_of_not_mem {sep : Char} {text : List Char} (h : sep ∉ text) :
    splitOn sep text = [text] := by
  induction text with
  | nil => rfl
  | cons c rest ih =>
    simp only [List.mem_cons, not_or] at h
    simp [splitOn, Ne.symm h.1, ih h.2]

theorem splitOn_append {sep : Char} {piece : List Char} (h : sep ∉ piece) (rest : List Char) :
    splitOn sep (piece ++ sep :: rest) = piece :: splitOn sep rest := by
  induction piece with
  | nil => simp [splitOn]
  | cons c piece ih =>
    simp only [List.mem_cons, not_or] at h
    simp [splitOn, Ne.symm h.1, ih h.2]

/-- Pieces free of the separator come back when their join is split. -/
theorem splitOn_joinWith {sep : Char} {pieces : List (List Char)} (hne : pieces ≠ [])
    (h : ∀ piece ∈ pieces, sep ∉ piece) : splitOn sep (joinWith [sep] pieces) = pieces := by
  induction pieces with
  | nil => exact absurd rfl hne
  | cons piece pieces ih =>
    cases pieces with
    | nil => simpa [joinWith] using splitOn_of_not_mem (h piece List.mem_cons_self)
    | cons next pieces =>
      have := splitOn_append (h piece List.mem_cons_self) (joinWith [sep] (next :: pieces))
      simp only [joinWith, List.append_assoc, List.cons_append, List.nil_append] at this ⊢
      rw [this, ih (by simp) fun p hp => h p (List.mem_cons_of_mem _ hp)]

/-- Joining undoes splitting. -/
theorem joinWith_splitOn (sep : Char) (text : List Char) :
    joinWith [sep] (splitOn sep text) = text := by
  induction text with
  | nil => rfl
  | cons c rest ih =>
    simp only [splitOn]
    split
    · next h =>
      subst h
      cases hs : splitOn c rest with
      | nil => exact absurd hs (splitOn_ne_nil c rest)
      | cons piece pieces => rw [← ih, hs]; simp [joinWith]
    · cases hs : splitOn sep rest with
      | nil => exact absurd hs (splitOn_ne_nil sep rest)
      | cons piece pieces =>
        rw [← ih, hs]
        cases pieces <;> simp [joinWith]

theorem splitOnce_append {sep : Char} {before : List Char} (h : sep ∉ before) (after : List Char) :
    splitOnce sep (before ++ sep :: after) = some (before, after) := by
  induction before with
  | nil => simp [splitOnce]
  | cons c before ih =>
    simp only [List.mem_cons, not_or] at h
    simp [splitOnce, Ne.symm h.1, ih h.2]

theorem dropLead?_append (lead text : List Char) : dropLead? lead (lead ++ text) = some text := by
  induction lead with
  | nil => simp [dropLead?]
  | cons l lead ih => simp [dropLead?, ih]

theorem eq_append_of_dropLead? {lead text rest : List Char} (h : dropLead? lead text = some rest) :
    text = lead ++ rest := by
  induction lead generalizing text with
  | nil => simpa [dropLead?] using h
  | cons l lead ih =>
    cases text with
    | nil => simp [dropLead?] at h
    | cons c text =>
      simp only [dropLead?] at h
      split at h
      · next heq => rw [heq, ih h]; rfl
      · exact absurd h (by simp)

end Tracing.Text
