import Tracing.Text.Blank
import Tracing.Text.Category
import Tracing.Text.Hex

/-!
# Quoted text

Text in double quotes for diagnostics: quotes and backslashes are escaped, the common control characters
by a letter, and every other character that has no glyph of its own by its code point.
-/

namespace Tracing.Text

/-- Spacing marks and half-width marks that extend the character before them. -/
def extenderRanges : List (Nat × Nat) :=
  [(0x9be, 0x9be), (0x9d7, 0x9d7), (0xb3e, 0xb3e), (0xb57, 0xb57), (0xbbe, 0xbbe), (0xbd7, 0xbd7),
   (0xcc2, 0xcc2), (0xcd5, 0xcd6), (0xd3e, 0xd3e), (0xd57, 0xd57), (0xdcf, 0xdcf), (0xddf, 0xddf),
   (0x1b35, 0x1b35), (0x302e, 0x302f), (0xff9e, 0xff9f), (0x1133e, 0x1133e), (0x11357, 0x11357),
   (0x114b0, 0x114b0), (0x114bd, 0x114bd), (0x115af, 0x115af), (0x11930, 0x11930),
   (0x1d165, 0x1d165), (0x1d16e, 0x1d172)]

/-- Whether a character is shown by a glyph of its own. -/
def isVisible (c : Char) : Bool :=
  if c.toNat < 128 then 32 ≤ c.toNat && c.toNat < 127
  else match Category.ofChar c with
    | .cc | .cf | .cs | .co | .cn | .zl | .zp | .zs | .mn | .me => false
    | _ => !inRanges extenderRanges c.toNat

/-- A character inside quotes. -/
def quotedChar (c : Char) : List Char :=
  if c = '"' ∨ c = '\\' then ['\\', c]
  else if c = '\t' then ['\\', 't']
  else if c = '\n' then ['\\', 'n']
  else if c = '\r' then ['\\', 'r']
  else if c.toNat = 0 then ['\\', '0']
  else if isVisible c then [c]
  else ['\\', 'u', '\x7b'] ++ Hex.writeShort c.toNat ++ ['\x7d']

/-- A text in quotes. -/
def quoted (s : String) : String :=
  String.ofList ('"' :: s.toList.flatMap quotedChar ++ ['"'])

end Tracing.Text
