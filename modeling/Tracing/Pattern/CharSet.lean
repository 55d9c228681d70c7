import Tracing.Text.Case

/-!
# Sets of characters

The sets that a pattern names: ranges, general categories and the usual classes, under union,
intersection, complement and case folding. `CharSet.contains` decides membership of a code point.
-/

namespace Tracing.Pattern

open Text

/-- A set of code points. -/
inductive CharSet where
  | empty
  | range (first last : Nat)
  | ranges (all : List (Nat × Nat))
  | categories (all : List Category)
  | union (a b : CharSet)
  | inter (a b : CharSet)
  | compl (a : CharSet)
  /-- The set with all case variants of its members; only the ASCII ones if `wide` does not hold. -/
  | fold (wide : Bool) (a : CharSet)
deriving Inhabited

namespace CharSet

/-- The other case of an ASCII letter, and the code point itself. -/
def asciiVariants (code : Nat) : List Nat :=
  if 65 ≤ code ∧ code ≤ 90 then [code, code + 32]
  else if 97 ≤ code ∧ code ≤ 122 then [code, code - 32]
  else [code]

/-- Whether a code point belongs to the set. -/
def contains : CharSet → Nat → Bool
  | empty, _ => false
  | range first last, n => first ≤ n && n ≤ last
  | ranges all, n => inRanges all n
  | categories all, n => all.contains (Category.ofCode n)
  | union a b, n => a.contains n || b.contains n
  | inter a b, n => a.contains n && b.contains n
  | compl a, n => !a.contains n
  | fold wide a, n => (if wide then caseVariants n else asciiVariants n).any a.contains

/-- How many runs of code points some categories take up. -/
def countRuns (all : List Category) : Nat :=
  (Category.starts.foldl (fun (count, inside) (_, c) =>
    let member := all.contains c
    (if member && !inside then count + 1 else count, member)) (0, false)).1

/-- About how many ranges make up the set. -/
def size : CharSet → Nat
  | empty => 0
  | range _ _ => 1
  | ranges all => all.length
  | categories all => countRuns all
  | union a b => a.size + b.size
  | inter a b => a.size + b.size
  | compl a => a.size + 1
  | fold _ a => 2 * a.size

/-- Whether the set is known to hold ASCII only. -/
def isAscii : CharSet → Bool
  | empty => true
  | range _ last => last < 128
  | ranges all => all.all (·.2 < 128)
  | categories _ => false
  | union a b => a.isAscii && b.isAscii
  | inter a b => a.isAscii || b.isAscii
  | compl _ => false
  | fold wide a => !wide && a.isAscii

def single (n : Nat) : CharSet := range n n

/-- The complement of a set if `negated` holds. -/
def negateIf (negated : Bool) (a : CharSet) : CharSet := if negated then compl a else a

/-! ### Named sets -/

def digit (wide : Bool) : CharSet := if wide then categories [.nd] else range 48 57

def space (wide : Bool) : CharSet :=
  if wide then ranges blankRanges else ranges [(9, 13), (32, 32)]

def word (wide : Bool) : CharSet :=
  if wide then
    union (categories [.lu, .ll, .lt, .lm, .lo, .nl, .mn, .mc, .me, .nd, .pc])
      (ranges [(0x200c, 0x200d), (0x24b6, 0x24e9), (0x1f130, 0x1f149), (0x1f150, 0x1f169),
        (0x1f170, 0x1f189)])
  else ranges [(48, 57), (65, 90), (95, 95), (97, 122)]

/-- The classes of ASCII characters that have a name in brackets. -/
def asciiClass? : String → Option CharSet
  | "alnum" => some (ranges [(48, 57), (65, 90), (97, 122)])
  | "alpha" => some (ranges [(65, 90), (97, 122)])
  | "ascii" => some (range 0 127)
  | "blank" => some (ranges [(9, 9), (32, 32)])
  | "cntrl" => some (ranges [(0, 31), (127, 127)])
  | "digit" => some (range 48 57)
  | "graph" => some (range 33 126)
  | "lower" => some (range 97 122)
  | "print" => some (range 32 126)
  | "punct" => some (ranges [(33, 47), (58, 64), (91, 96), (123, 126)])
  | "space" => some (ranges [(9, 13), (32, 32)])
  | "upper" => some (range 65 90)
  | "word" => some (word false)
  | "xdigit" => some (ranges [(48, 57), (65, 70), (97, 102)])
  | _ => none

/-- The categories with a given name, short or long. -/
def categories? : String → Option (List Category)
  | "l" | "letter" => some [.lu, .ll, .lt, .lm, .lo]
  | "lc" | "casedletter" => some [.lu, .ll, .lt]
  | "lu" | "uppercaseletter" => some [.lu]
  | "ll" | "lowercaseletter" => some [.ll]
  | "lt" | "titlecaseletter" => some [.lt]
  | "lm" | "modifierletter" => some [.lm]
  | "lo" | "otherletter" => some [.lo]
  | "m" | "mark" | "combiningmark" => some [.mn, .mc, .me]
  | "mn" | "nonspacingmark" => some [.mn]
  | "mc" | "spacingmark" => some [.mc]
  | "me" | "enclosingmark" => some [.me]
  | "n" | "number" => some [.nd, .nl, .no]
  | "nd" | "decimalnumber" | "digit" => some [.nd]
  | "nl" | "letternumber" => some [.nl]
  | "no" | "othernumber" => some [.no]
  | "p" | "punctuation" | "punct" => some [.pc, .pd, .ps, .pe, .pi, .pf, .po]
  | "pc" | "connectorpunctuation" => some [.pc]
  | "pd" | "dashpunctuation" => some [.pd]
  | "ps" | "openpunctuation" => some [.ps]
  | "pe" | "closepunctuation" => some [.pe]
  | "pi" | "initialpunctuation" => some [.pi]
  | "pf" | "finalpunctuation" => some [.pf]
  | "po" | "otherpunctuation" => some [.po]
  | "s" | "symbol" => some [.sm, .sc, .sk, .so]
  | "sm" | "mathsymbol" => some [.sm]
  | "sc" | "currencysymbol" => some [.sc]
  | "sk" | "modifiersymbol" => some [.sk]
  | "so" | "othersymbol" => some [.so]
  | "z" | "separator" => some [.zs, .zl, .zp]
  | "zs" | "spaceseparator" => some [.zs]
  | "zl" | "lineseparator" => some [.zl]
  | "zp" | "paragraphseparator" => some [.zp]
  | "c" | "other" => some [.cc, .cf, .co, .cn]
  | "cc" | "control" | "cntrl" => some [.cc]
  | "cf" | "format" => some [.cf]
  | "co" | "privateuse" => some [.co]
  | "cn" | "unassigned" => some [.cn]
  | _ => none

/-- Ranges of the scripts that have a name here. -/
def script? : String → Option (List (Nat × Nat))
  | "latin" | "latn" => some [(0x41, 0x5a), (0x61, 0x7a), (0xaa, 0xaa), (0xba, 0xba), (0xc0, 0xd6),
      (0xd8, 0xf6), (0xf8, 0x2b8), (0x2e0, 0x2e4), (0x1d00, 0x1d25), (0x1d2c, 0x1d5c),
      (0x1d62, 0x1d65), (0x1d6b, 0x1d77), (0x1d79, 0x1dbe), (0x1e00, 0x1eff), (0x2071, 0x2071),
      (0x207f, 0x207f), (0x2090, 0x209c), (0x212a, 0x212b), (0x2132, 0x2132), (0x214e, 0x214e),
      (0x2160, 0x2188), (0x2c60, 0x2c7f), (0xa722, 0xa787), (0xa78b, 0xa7cd), (0xa7d0, 0xa7d1),
      (0xa7d3, 0xa7d3), (0xa7d5, 0xa7dc), (0xa7f2, 0xa7ff), (0xab30, 0xab5a), (0xab5c, 0xab64),
      (0xab66, 0xab69), (0xfb00, 0xfb06), (0xff21, 0xff3a), (0xff41, 0xff5a), (0x10780, 0x10785),
      (0x10787, 0x107b0), (0x107b2, 0x107ba), (0x1df00, 0x1df1e), (0x1df25, 0x1df2a)]
  | "greek" | "grek" => some [(0x370, 0x373), (0x375, 0x377), (0x37a, 0x37d), (0x37f, 0x37f),
      (0x384, 0x384), (0x386, 0x386), (0x388, 0x38a), (0x38c, 0x38c), (0x38e, 0x3a1),
      (0x3a3, 0x3e1), (0x3f0, 0x3ff), (0x1d26, 0x1d2a), (0x1d5d, 0x1d61), (0x1d66, 0x1d6a),
      (0x1dbf, 0x1dbf), (0x1f00, 0x1f15), (0x1f18, 0x1f1d), (0x1f20, 0x1f45), (0x1f48, 0x1f4d),
      (0x1f50, 0x1f57), (0x1f59, 0x1f59), (0x1f5b, 0x1f5b), (0x1f5d, 0x1f5d), (0x1f5f, 0x1f7d),
      (0x1f80, 0x1fb4), (0x1fb6, 0x1fc4), (0x1fc6, 0x1fd3), (0x1fd6, 0x1fdb), (0x1fdd, 0x1fef),
      (0x1ff2, 0x1ff4), (0x1ff6, 0x1ffe), (0x2126, 0x2126), (0xab65, 0xab65), (0x10140, 0x1018e),
      (0x101a0, 0x101a0), (0x1d200, 0x1d245)]
  | "cyrillic" | "cyrl" => some [(0x400, 0x484), (0x487, 0x52f), (0x1c80, 0x1c8a), (0x1d2b, 0x1d2b),
      (0x1d78, 0x1d78), (0x2de0, 0x2dff), (0xa640, 0xa69f), (0xfe2e, 0xfe2f), (0x1e030, 0x1e06d),
      (0x1e08f, 0x1e08f)]
  | "han" | "hani" => some [(0x2e80, 0x2e99), (0x2e9b, 0x2ef3), (0x2f00, 0x2fd5), (0x3005, 0x3005),
      (0x3007, 0x3007), (0x3021, 0x3029), (0x3038, 0x303b), (0x3400, 0x4dbf), (0x4e00, 0x9fff),
      (0xf900, 0xfa6d), (0xfa70, 0xfad9), (0x16fe2, 0x16fe3), (0x16ff0, 0x16ff1),
      (0x20000, 0x2a6df), (0x2a700, 0x2b739), (0x2b740, 0x2b81d), (0x2b820, 0x2cea1),
      (0x2ceb0, 0x2ebe0), (0x2ebf0, 0x2ee5d), (0x2f800, 0x2fa1d), (0x30000, 0x3134a),
      (0x31350, 0x323af)]
  | "hiragana" | "hira" => some [(0x3041, 0x3096), (0x309d, 0x309f), (0x1b001, 0x1b11f),
      (0x1b132, 0x1b132), (0x1b150, 0x1b152), (0x1f200, 0x1f200)]
  | "katakana" | "kana" => some [(0x30a1, 0x30fa), (0x30fd, 0x30ff), (0x31f0, 0x31ff),
      (0x32d0, 0x32fe), (0x3300, 0x3357), (0xff66, 0xff6f), (0xff71, 0xff9d), (0x1aff0, 0x1aff3),
      (0x1aff5, 0x1affb), (0x1affd, 0x1affe), (0x1b000, 0x1b000), (0x1b120, 0x1b122),
      (0x1b155, 0x1b155), (0x1b164, 0x1b167)]
  | "hebrew" | "hebr" => some [(0x591, 0x5c7), (0x5d0, 0x5ea), (0x5ef, 0x5f4), (0xfb1d, 0xfb36),
      (0xfb38, 0xfb3c), (0xfb3e, 0xfb3e), (0xfb40, 0xfb41), (0xfb43, 0xfb44), (0xfb46, 0xfb4f)]
  | "arabic" | "arab" => some [(0x600, 0x604), (0x606, 0x60b), (0x60d, 0x61a), (0x61c, 0x61e),
      (0x620, 0x63f), (0x641, 0x64a), (0x656, 0x66f), (0x671, 0x6dc), (0x6de, 0x6ff),
      (0x750, 0x77f), (0x870, 0x88e), (0x890, 0x891), (0x897, 0x8e1), (0x8e3, 0x8ff),
      (0xfb50, 0xfbc2), (0xfbd3, 0xfd3d), (0xfd40, 0xfd8f), (0xfd92, 0xfdc7), (0xfdcf, 0xfdcf),
      (0xfdf0, 0xfdff), (0xfe70, 0xfe74), (0xfe76, 0xfefc)]
  | "thai" => some [(0xe01, 0xe3a), (0xe40, 0xe5b)]
  | "devanagari" | "deva" => some [(0x900, 0x950), (0x955, 0x963), (0x966, 0x97f),
      (0xa8e0, 0xa8ff), (0x11b00, 0x11b09)]
  | "hangul" | "hang" => some [(0x1100, 0x11ff), (0x302e, 0x302f), (0x3131, 0x318e),
      (0x3200, 0x321e), (0x3260, 0x327e), (0xa960, 0xa97c), (0xac00, 0xd7a3), (0xd7b0, 0xd7c6),
      (0xd7cb, 0xd7fb), (0xffa0, 0xffbe), (0xffc2, 0xffc7), (0xffca, 0xffcf), (0xffd2, 0xffd7),
      (0xffda, 0xffdc)]
  | _ => none

/-- Code points with case that are numerals or symbols, uppercase first. -/
def upperSymbols : List (Nat × Nat) :=
  [(0x2160, 0x216f), (0x24b6, 0x24cf), (0x1f130, 0x1f149), (0x1f150, 0x1f169), (0x1f170, 0x1f189)]

/-- Lowercase code points that are not letters of that category. -/
def lowerSymbols : List (Nat × Nat) :=
  [(0xaa, 0xaa), (0xba, 0xba), (0x2b0, 0x2b8), (0x2c0, 0x2c1), (0x2e0, 0x2e4), (0x345, 0x345),
   (0x37a, 0x37a), (0x1d2c, 0x1d6a), (0x1d78, 0x1d78), (0x1d9b, 0x1dbf), (0x2071, 0x2071),
   (0x207f, 0x207f), (0x2090, 0x209c), (0x2170, 0x217f), (0x24d0, 0x24e9), (0x2c7c, 0x2c7d),
   (0xa69c, 0xa69d), (0xa770, 0xa770), (0xa7f8, 0xa7f9), (0xab5c, 0xab5f)]

/-- The set of a binary property by name. -/
def property? : String → Option CharSet
  | "any" => some (range 0 0x10ffff)
  | "ascii" => some (range 0 127)
  | "assigned" => some (compl (categories [.cn]))
  | "alphabetic" | "alpha" =>
    some (union (categories [.lu, .ll, .lt, .lm, .lo, .nl]) (ranges (upperSymbols ++ lowerSymbols)))
  | "uppercase" | "upper" => some (union (categories [.lu]) (ranges upperSymbols))
  | "lowercase" | "lower" => some (union (categories [.ll]) (ranges lowerSymbols))
  | "whitespace" | "space" | "wspace" => some (ranges blankRanges)
  | _ => none

/-- A property name without what does not matter in it: case, blanks, dashes and underscores. -/
def normalName (name : List Char) : String :=
  String.ofList ((name.map lowerAscii).filter fun c => c ≠ ' ' && c ≠ '_' && c ≠ '-')

/-- The set that a property name stands for: a binary property, a category or a script. -/
def named? (name : List Char) : Option CharSet :=
  let name := normalName name
  match property? name with
  | some s => some s
  | none =>
    match categories? name with
    | some cs => some (categories cs)
    | none => (script? name).map ranges

/-- The set of the code points for which a property has a value. -/
def valued? (property value : List Char) : Option CharSet :=
  let value := normalName value
  match normalName property with
  | "gc" | "generalcategory" => (categories? value).map categories
  | "sc" | "script" | "scx" | "scriptextensions" => (script? value).map ranges
  | _ => none

end CharSet

end Tracing.Pattern
