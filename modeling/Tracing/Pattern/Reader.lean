import Tracing.Pattern.Basic
import Tracing.Text.Hex
import Tracing.Text.Integer

/-!
# Reading patterns

The grammar of patterns: literals, escapes, classes with set operations, groups with flags, alternatives,
repetitions and conditions on positions. There is neither look-around nor back reference, and a pattern
that would take up too much memory is refused. Of the properties of characters the general categories are
known, but only some scripts, and neither ages nor emoji.
-/

namespace Tracing.Pattern

open Text

/-- The flags that a pattern can set. -/
structure Flags where
  caseless : Bool := false
  multiline : Bool := false
  dotAll : Bool := false
  wide : Bool := true
  verbose : Bool := false
  crlf : Bool := false
deriving DecidableEq, Repr

/-- The flags in force and the group names taken so far. -/
structure Reader where
  flags : Flags := {}
  names : List (List Char) := []

/-- The text without the blanks and comments that a verbose pattern may hold. -/
def skipVerbose (flags : Flags) : (comment : Bool) → List Char → List Char
  | _, [] => []
  | true, c :: rest => skipVerbose flags (c != '\n') rest
  | false, c :: rest =>
    if flags.verbose && isBlank c then skipVerbose flags false rest
    else if flags.verbose && c == '#' then skipVerbose flags true rest
    else c :: rest

/-- The next character that is neither blank nor comment, and what follows. -/
def skip (flags : Flags) (text : List Char) : List Char := skipVerbose flags false text

/-! ### Escapes -/

/-- What an escape stands for. -/
inductive Escape where
  | literal (code : Nat)
  | set (s : CharSet)
  | look (l : Look)

/-- Characters that mean something in patterns. -/
def isMeta (c : Char) : Bool := "\\.+*?()|[]\x7b\x7d^$#&-~".toList.contains c

/-- ASCII characters that an escape may stand in front of to mean themselves. -/
def isEscapable (c : Char) : Bool :=
  isMeta c || (c.toNat < 128 && !c.isAlphanum && c ≠ '<' && c ≠ '>')

/-- A code point that is a character, and within ASCII if only that is allowed. -/
def checkCode (flags : Flags) (n : Nat) : Option Escape :=
  if n.isValidChar ∧ (flags.wide ∨ n < 128) then some (.literal n) else none

/-- Reads a code point in hexadecimal digits: `width` of them, or any number in braces. -/
def readCode (flags : Flags) (width : Nat) : List Char → Option (Escape × List Char)
  | '\x7b' :: rest => do
    let digits := rest.takeWhile (· ≠ '\x7d')
    let rest ← dropLead? ['\x7d'] (rest.dropWhile (· ≠ '\x7d'))
    if digits.isEmpty then none
    let n ← Hex.readNat digits
    let code ← checkCode flags n
    return (code, rest)
  | rest => do
    let digits := rest.take width
    if digits.length ≠ width then none
    let n ← Hex.readNat digits
    let code ← checkCode flags n
    return (code, rest.drop width)

/-- Reads the name of a property: one letter, or a name in braces, maybe with a value. -/
def readProperty : List Char → Option (CharSet × List Char)
  | [] => none
  | '\x7b' :: rest => do
    let name := rest.takeWhile (· ≠ '\x7d')
    let rest ← dropLead? ['\x7d'] (rest.dropWhile (· ≠ '\x7d'))
    let set ← match splitOnce '=' name, splitOnce ':' name with
      | some (property, value), _ =>
        if property.getLast? = some '!' then (CharSet.valued? property.dropLast value).map .compl
        else CharSet.valued? property value
      | none, some (property, value) => CharSet.valued? property value
      | none, none => CharSet.named? name
    return (set, rest)
  | c :: rest => if c = '\\' then none else (CharSet.named? [c]).map fun s => (s, rest)

/-- A set under the flags: with case variants if case does not count, then complemented. -/
def withFlags (flags : Flags) (negated : Bool) (s : CharSet) : CharSet :=
  .negateIf negated (if flags.caseless then .fold flags.wide s else s)

/-- A class by a letter; its complement needs characters of all scripts. -/
def letterSet (flags : Flags) (negated : Bool) (s : CharSet) : Option Escape :=
  if negated && !flags.wide then none else some (.set (.negateIf negated s))

/-- Reads what follows `\b`: nothing, or the kind of boundary in braces. -/
def readBoundary (flags : Flags) (text : List Char) : Option (Escape × List Char) :=
  let plain := (Escape.look (.wordBoundary flags.wide), text)
  match text with
  | '\x7b' :: rest =>
    let kind := rest.takeWhile fun c => c.isAlpha || c == '-'
    if kind.isEmpty then some plain
    else match rest.dropWhile fun c => c.isAlpha || c == '-' with
      | '\x7d' :: rest =>
        match String.ofList kind with
        | "start" => some (.look (.wordStart flags.wide), rest)
        | "end" => some (.look (.wordEnd flags.wide), rest)
        | "start-half" => some (.look (.wordStartHalf flags.wide), rest)
        | "end-half" => some (.look (.wordEndHalf flags.wide), rest)
        | _ => none
      | _ => none
  | _ => some plain

/-- Reads an escape behind its backslash. -/
def readEscape (flags : Flags) : List Char → Option (Escape × List Char)
  | [] => none
  | c :: rest =>
    match c with
    | 'x' => readCode flags 2 rest
    | 'u' => readCode flags 4 rest
    | 'U' => readCode flags 8 rest
    | 'p' | 'P' =>
      if flags.wide then
        (readProperty rest).map fun (s, rest) => (.set (withFlags flags (c == 'P') s), rest)
      else none
    | 'd' | 'D' => (letterSet flags (c == 'D') (.digit flags.wide)).map fun e => (e, rest)
    | 's' | 'S' => (letterSet flags (c == 'S') (.space flags.wide)).map fun e => (e, rest)
    | 'w' | 'W' => (letterSet flags (c == 'W') (.word flags.wide)).map fun e => (e, rest)
    | 'a' => some (.literal 7, rest)
    | 'f' => some (.literal 12, rest)
    | 't' => some (.literal 9, rest)
    | 'n' => some (.literal 10, rest)
    | 'r' => some (.literal 13, rest)
    | 'v' => some (.literal 11, rest)
    | 'A' => some (.look .textStart, rest)
    | 'z' => some (.look .textEnd, rest)
    | 'b' => readBoundary flags rest
    | 'B' => some (.look (.notWordBoundary flags.wide), rest)
    | '<' => some (.look (.wordStart flags.wide), rest)
    | '>' => some (.look (.wordEnd flags.wide), rest)
    | _ => if isEscapable c then some (.literal c.toNat, rest) else none

/-! ### Classes -/

/-- Reads a named class such as `[:alpha:]` behind its opening bracket. There is no set for a complement that needs
characters of all scripts where only ASCII is allowed. -/
def readNamedClass (flags : Flags) : List Char → Option (Option CharSet × List Char)
  | ':' :: rest =>
    let (negated, rest) := match rest with
      | '^' :: rest => (true, rest)
      | rest => (false, rest)
    match splitOnce ':' rest with
    | some (name, ']' :: rest) =>
      (CharSet.asciiClass? (String.ofList name)).map fun s =>
        (if negated && !flags.wide then none else some (withFlags flags negated s), rest)
    | _ => none
  | _ => none

/-- One item of a class: a code point, which may start a range, or a set. -/
inductive ClassItem where
  | code (n : Nat)
  | set (s : CharSet)

/-- The set of an item. -/
def ClassItem.toSet (flags : Flags) : ClassItem → CharSet
  | code n => withFlags flags false (.single n)
  | set s => s

/-- Reads a literal or an escape inside a class. -/
def readClassItem (flags : Flags) : List Char → Option (ClassItem × List Char)
  | [] => none
  | '\\' :: rest =>
    match readEscape flags rest with
    | some (.literal n, rest) => some (.code n, rest)
    | some (.set s, rest) => some (.set s, rest)
    | _ => none
  | c :: rest => if flags.wide || c.toNat < 128 then some (.code c.toNat, rest) else none

/-- Reads an item or a range of code points. -/
def readClassRange (flags : Flags) (text : List Char) : Option (CharSet × List Char) := do
  let (first, rest) ← readClassItem flags text
  let rest := skip flags rest
  match rest with
  | '-' :: more =>
    match skip flags more with
    | [] => none
    | ']' :: _ => some (first.toSet flags, rest)
    | '-' :: _ => some (first.toSet flags, rest)
    | more =>
      let (last, rest) ← readClassItem flags more
      match first, last with
      | .code a, .code b => if a ≤ b then some (withFlags flags false (.range a b), rest) else none
      | _, _ => none
  | rest => some (first.toSet flags, rest)

/-- The dashes and the closing bracket that stand for themselves at the start of a class. -/
def readClassStart (flags : Flags) : (fuel : Nat) → CharSet → List Char → CharSet × List Char
  | 0, set, text => (set, text)
  | fuel + 1, set, text =>
    match skip flags text with
    | '-' :: rest =>
      readClassStart flags fuel (.union set (withFlags flags false (.single 45))) rest
    | text => (set, text)

/-- An operation on sets of characters. -/
inductive SetOperation where
  | intersection | difference | symmetric

/-- Joins two sets. -/
def SetOperation.apply (op : SetOperation) (a b : CharSet) : CharSet :=
  match op with
  | intersection => .inter a b
  | difference => .inter a (.compl b)
  | symmetric => .union (.inter a (.compl b)) (.inter b (.compl a))

/-- A set whose right operand is still being read. -/
structure Pending where
  left : Option (CharSet × SetOperation) := none
  right : CharSet := .empty

/-- Applies the operation that waits for its right operand. -/
def Pending.close (p : Pending) : CharSet :=
  match p.left with
  | some (left, op) => op.apply left p.right
  | none => p.right

/-- Adds to the right operand. -/
def Pending.add (p : Pending) (s : CharSet) : Pending := { p with right := .union p.right s }

/-- Starts the right operand of an operation. -/
def Pending.operate (p : Pending) (op : SetOperation) : Pending := { left := some (p.close, op) }

mutual

/-- Reads a class behind its opening bracket. -/
def readClass (flags : Flags) : (fuel : Nat) → List Char → Option (CharSet × List Char)
  | 0, _ => none
  | fuel + 1, text => do
    let text := skip flags text
    let (negated, text) := match text with
      | '^' :: rest => (true, skip flags rest)
      | text => (false, text)
    if negated && !flags.wide then none
    let (start, rest) := readClassStart flags text.length .empty text
    let (start, rest) := match start, rest with
      | .empty, ']' :: rest => (withFlags flags false (.single 93), rest)
      | start, rest => (start, rest)
    let (set, rest) ← readClassBody flags fuel { right := start } rest
    return (.negateIf negated set, rest)

/-- Reads the items of a class up to its closing bracket. -/
def readClassBody (flags : Flags) : (fuel : Nat) → Pending → List Char → Option (CharSet × List Char)
  | 0, _, _ => none
  | fuel + 1, pending, text =>
    match skip flags text with
    | [] => none
    | ']' :: rest => some (pending.close, rest)
    | '&' :: '&' :: rest => readClassBody flags fuel (pending.operate .intersection) rest
    | '-' :: '-' :: rest => readClassBody flags fuel (pending.operate .difference) rest
    | '~' :: '~' :: rest => readClassBody flags fuel (pending.operate .symmetric) rest
    | '[' :: rest =>
      match readNamedClass flags rest with
      | some (some s, rest) => readClassBody flags fuel (pending.add s) rest
      | some (none, _) => none
      | none =>
        match readClass flags fuel rest with
        | some (s, rest) => readClassBody flags fuel (pending.add s) rest
        | none => none
    | text =>
      match readClassRange flags text with
      | some (s, rest) => readClassBody flags fuel (pending.add s) rest
      | none => none

end

/-! ### Repetitions -/

/-- Reads a count with blanks around it. -/
def readCount (text : List Char) : Option (Nat × List Char) := do
  let text := text.dropWhile isBlank
  let n ← Integer.readNat (text.takeWhile Char.isDigit)
  if n < 1 <<< 32 then some (n, (text.dropWhile Char.isDigit).dropWhile isBlank) else none

/-- Reads the counts of a repetition behind its opening brace. -/
def readCounts (text : List Char) : Option ((Nat × Option Nat) × List Char) := do
  let (least, rest) ← readCount text
  match rest with
  | '\x7d' :: rest => some ((least, some least), rest)
  | ',' :: rest =>
    match rest.dropWhile isBlank with
    | '\x7d' :: rest => some ((least, none), rest)
    | rest =>
      let (most, rest) ← readCount rest
      match rest with
      | '\x7d' :: rest => if least ≤ most then some ((least, some most), rest) else none
      | _ => none
  | _ => none

/-- The text without the mark for the shortest match, which does not change whether there is one. -/
def skipLazy : List Char → List Char
  | '?' :: rest => rest
  | text => text

/-! ### Groups -/

/-- One flag letter. -/
def setFlag (flags : Flags) (value : Bool) : Char → Option Flags
  | 'i' => some { flags with caseless := value }
  | 'm' => some { flags with multiline := value }
  | 's' => some { flags with dotAll := value }
  | 'U' => some flags
  | 'u' => some { flags with wide := value }
  | 'x' => some { flags with verbose := value }
  | 'R' => some { flags with crlf := value }
  | _ => none

/-- Reads flags up to a colon or a closing parenthesis. A flag may not be given twice, and a minus sign
needs a flag behind it. -/
def readFlags (flags : Flags) : (value : Bool) → (seen : List Char) → List Char →
    Option (Flags × Char × List Char)
  | _, _, [] => none
  | value, seen, c :: rest =>
    if c = ':' ∨ c = ')' then
      if seen.head? = some '-' ∨ (seen.isEmpty ∧ c = ')') then none else some (flags, c, rest)
    else if seen.contains c then none
    else if c = '-' then readFlags flags false (c :: seen) rest
    else match setFlag flags value c with
      | some flags => readFlags flags value (c :: seen) rest
      | none => none

/-- Whether a character may stand in a group name, at its start or behind. -/
def isNameChar (first : Bool) (c : Char) : Bool :=
  if first then c == '_' || (Category.ofChar c).isLetter
  else c == '_' || c == '.' || c == '[' || c == ']' || (Category.ofChar c).isLetter
    || Category.ofChar c == .nd || Category.ofChar c == .nl || Category.ofChar c == .no

/-- Reads a group name up to its closing angle; it must be new. -/
def readName (taken : List (List Char)) (text : List Char) : Option (List Char × List Char) := do
  let name := text.takeWhile (· ≠ '>')
  let rest ← dropLead? ['>'] (text.dropWhile (· ≠ '>'))
  match name with
  | [] => none
  | c :: cs =>
    if isNameChar true c && cs.all (isNameChar false) && !taken.contains name then some (name, rest)
    else none

/-- How a group opens. -/
inductive Opening where
  /-- A group whose content is read under the given flags. -/
  | group (flags : Flags) (names : List (List Char))
  /-- Flags for the rest of the group around. -/
  | flags (flags : Flags)

/-- Reads how a group opens behind its parenthesis. -/
def readOpening (r : Reader) (text : List Char) : Option (Opening × List Char) :=
  match text with
  | '?' :: 'P' :: '<' :: rest =>
    (readName r.names rest).map fun (name, rest) => (.group r.flags (name :: r.names), rest)
  | '?' :: '<' :: rest =>
    (readName r.names rest).map fun (name, rest) => (.group r.flags (name :: r.names), rest)
  | '?' :: rest =>
    match readFlags r.flags true [] rest with
    | some (flags, ':', rest) => some (.group flags r.names, rest)
    | some (flags, _, rest) => some (.flags flags, rest)
    | none => none
  | rest => some (.group r.flags r.names, rest)

/-! ### Patterns -/

/-- One character under the flags. -/
def literal (flags : Flags) (code : Nat) : Node := .set (withFlags flags false (.single code))

/-- Any character, line ends apart unless the flags say so. -/
def dot (flags : Flags) : Option Node :=
  if !flags.wide then none
  else if flags.dotAll then some (.set (.range 0 0x10ffff))
  else if flags.crlf then some (.set (.compl (.ranges [(10, 10), (13, 13)])))
  else some (.set (.compl (.single 10)))

/-- The start or the end of the text, or of a line. -/
def anchor (flags : Flags) (atStart : Bool) : Node :=
  .look (match flags.multiline, atStart with
    | true, true => .lineStart flags.crlf
    | true, false => .lineEnd flags.crlf
    | false, true => .textStart
    | false, false => .textEnd)

/-- The items of a sequence read so far, last first; a change of flags is an item without a pattern. -/
abbrev Items := List (Option Node)

/-- The pattern for a sequence of items. -/
def sequence (items : Items) : Node :=
  items.foldl (fun after item => match item with
    | some node => .cat node after
    | none => after) .empty

/-- Repeats the last item; flags and nothing cannot be repeated. -/
def repeatLast (least : Nat) (most : Option Nat) : Items → Option Items
  | some node :: items => some (some (.rep node least most) :: items)
  | _ => none

mutual

/-- Reads alternatives up to a closing parenthesis or the end. -/
def readAlternatives : (fuel : Nat) → Reader → List Char → Option (Node × Reader × List Char)
  | 0, _, _ => none
  | fuel + 1, r, text =>
    match readSequence fuel r [] text with
    | some (first, r, '|' :: rest) =>
      match readAlternatives fuel r rest with
      | some (other, r, rest) => some (.alt first other, r, rest)
      | none => none
    | result => result

/-- Reads a sequence of items up to a bar, a closing parenthesis or the end. -/
def readSequence : (fuel : Nat) → Reader → Items → List Char → Option (Node × Reader × List Char)
  | 0, _, _, _ => none
  | fuel + 1, r, items, text =>
    match skip r.flags text with
    | [] => some (sequence items, r, [])
    | '|' :: rest => some (sequence items, r, '|' :: rest)
    | ')' :: rest => some (sequence items, r, ')' :: rest)
    | '(' :: rest =>
      match readOpening r (skip r.flags rest) with
      | some (.flags flags, rest) => readSequence fuel { r with flags } (none :: items) rest
      | some (.group flags names, rest) =>
        match readAlternatives fuel { flags, names } rest with
        | some (node, inner, ')' :: rest) =>
          readSequence fuel { r with names := inner.names } (some node :: items) rest
        | _ => none
      | none => none
    | '[' :: rest =>
      match readClass r.flags fuel rest with
      | some (s, rest) => readSequence fuel r (some (.set s) :: items) rest
      | none => none
    | '*' :: rest =>
      match repeatLast 0 none items with
      | some items => readSequence fuel r items (skipLazy rest)
      | none => none
    | '+' :: rest =>
      match repeatLast 1 none items with
      | some items => readSequence fuel r items (skipLazy rest)
      | none => none
    | '?' :: rest =>
      match repeatLast 0 (some 1) items with
      | some items => readSequence fuel r items (skipLazy rest)
      | none => none
    | '\x7b' :: rest =>
      match readCounts rest with
      | some ((least, most), rest) =>
        match repeatLast least most items with
        | some items => readSequence fuel r items (skipLazy rest)
        | none => none
      | none => none
    | '.' :: rest =>
      match dot r.flags with
      | some node => readSequence fuel r (some node :: items) rest
      | none => none
    | '^' :: rest => readSequence fuel r (some (anchor r.flags true) :: items) rest
    | '$' :: rest => readSequence fuel r (some (anchor r.flags false) :: items) rest
    | '\\' :: rest =>
      match readEscape r.flags rest with
      | some (.literal n, rest) => readSequence fuel r (some (literal r.flags n) :: items) rest
      | some (.set s, rest) => readSequence fuel r (some (.set s) :: items) rest
      | some (.look l, rest) => readSequence fuel r (some (.look l) :: items) rest
      | none => none
    | c :: rest => readSequence fuel r (some (literal r.flags c.toNat) :: items) rest

end

/-- The memory that a compiled pattern may take up. -/
def maxCost : Nat := 10 * (1 <<< 20)

/-- Why a text denotes no pattern. -/
inductive Failure where
  | malformed
  | tooLarge
deriving DecidableEq, Repr

def Failure.message : Failure → String
  | malformed => "it cannot be read"
  | tooLarge => "Compiled regex exceeds size limit of " ++ toString maxCost ++ " bytes."

/-- The pattern that a text denotes. -/
def read (text : List Char) : Except Failure Node :=
  match readAlternatives (2 * text.length + 2) {} text with
  | some (node, _, []) => if node.cost ≤ maxCost then .ok node else .error .tooLarge
  | _ => .error .malformed

end Tracing.Pattern
