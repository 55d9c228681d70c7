import Tracing.Pattern.CharSet

/-!
# Patterns

Regular patterns on text and whether they match somewhere in it. A text is seen as the list of its
positions, each with the characters on either side; `Pattern.run` moves a set of marked positions over a
pattern, so that a pattern matches when some mark survives.
-/

namespace Tracing.Pattern

/-- A condition on a position that takes no character. `wide` words have letters of all scripts. -/
inductive Look where
  | textStart | textEnd
  /-- At the start of a line; `crlf` lines may also end in a carriage return. -/
  | lineStart (crlf : Bool)
  | lineEnd (crlf : Bool)
  | wordBoundary (wide : Bool)
  | notWordBoundary (wide : Bool)
  | wordStart (wide : Bool)
  | wordEnd (wide : Bool)
  | wordStartHalf (wide : Bool)
  | wordEndHalf (wide : Bool)
deriving DecidableEq, Repr

/-- A regular pattern. -/
inductive Node where
  | empty
  | set (s : CharSet)
  | look (l : Look)
  | cat (a b : Node)
  | alt (a b : Node)
  | rep (a : Node) (least : Nat) (most : Option Nat)
deriving Inhabited

/-- A position in a text: the characters before and after it. -/
structure Position where
  before : Option Char
  after : Option Char
deriving DecidableEq, Repr

/-- The positions of a text, given the character before its first. -/
def positionsAfter (before : Option Char) : List Char → List Position
  | [] => [⟨before, none⟩]
  | c :: rest => ⟨before, some c⟩ :: positionsAfter (some c) rest

/-- The positions of a text, one more than its characters. -/
def positions (text : List Char) : List Position := positionsAfter none text

namespace Look

/-- Whether there is a character of words. -/
def isWord (wide : Bool) (c : Option Char) : Bool :=
  match c with
  | some c => (CharSet.word wide).contains c.toNat
  | none => false

/-- Whether the condition holds at a position. -/
def holds (l : Look) (p : Position) : Bool :=
  match l with
  | textStart => p.before.isNone
  | textEnd => p.after.isNone
  | lineStart crlf =>
    p.before.isNone || p.before == some '\n'
      || (crlf && p.before == some '\r' && p.after != some '\n')
  | lineEnd crlf =>
    p.after.isNone || (p.after == some '\n' && !(crlf && p.before == some '\r'))
      || (crlf && p.after == some '\r')
  | wordBoundary wide => isWord wide p.before != isWord wide p.after
  | notWordBoundary wide => isWord wide p.before == isWord wide p.after
  | wordStart wide => !isWord wide p.before && isWord wide p.after
  | wordEnd wide => isWord wide p.before && !isWord wide p.after
  | wordStartHalf wide => !isWord wide p.before
  | wordEndHalf wide => !isWord wide p.after

end Look

/-- A mark for every position. -/
abbrev Marks := List Bool

def orMarks (a b : Marks) : Marks := List.zipWith (· || ·) a b

/-- Moves marks over one character of a set. -/
def stepSet (s : CharSet) (positions : List Position) (marks : Marks) : Marks :=
  false :: (List.zipWith (fun m p => m && match p.after with
    | some c => s.contains c.toNat
    | none => false) marks positions).dropLast

/-- Applies `f` a number of times, as long as it changes something. -/
def iterate (f : Marks → Marks) : Nat → Marks → Marks
  | 0, marks => marks
  | n + 1, marks =>
    let next := f marks
    if next == marks then marks else iterate f n next

namespace Node

/-- The positions where the pattern can end when it starts at a marked one. -/
def run : Node → List Position → Marks → Marks
  | empty, _, marks => marks
  | set s, positions, marks => stepSet s positions marks
  | look l, positions, marks => List.zipWith (fun m p => m && l.holds p) marks positions
  | cat a b, positions, marks => b.run positions (a.run positions marks)
  | alt a b, positions, marks => orMarks (a.run positions marks) (b.run positions marks)
  | rep a least most, positions, marks =>
    let started := iterate (fun m => a.run positions m) least marks
    let more := match most with
      | some most => most - least
      | none => positions.length
    iterate (fun m => orMarks m (a.run positions m)) more started

/-- Whether the pattern matches somewhere in a text. -/
def isMatch (pattern : Node) (text : List Char) : Bool :=
  let ps := positions text
  (pattern.run ps (ps.map fun _ => true)).any id

/-- About how many bytes a compiled pattern takes up. -/
def cost : Node → Nat
  | empty => 32
  | set s => if s.isAscii then 32 + 8 * s.size else 64 * s.size
  | look _ => 32
  | cat a b => a.cost + b.cost
  | alt a b => a.cost + b.cost + 64
  | rep a least most =>
    match most with
    | some most => max least most * (a.cost + 32)
    | none => max least 1 * a.cost + 32

end Node

end Tracing.Pattern
