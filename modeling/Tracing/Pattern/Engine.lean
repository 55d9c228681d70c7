import Tracing.Pattern.Reader

/-!
# Pattern engines

What compiles the patterns of sampling rules and matches them is not the sampler's own. A sampler relies on no more
than that a text always comes to the same: to a compiled pattern, of which it is fixed what it matches, or to a reason
against it. So samplers are built over any engine. The program runs on `PatternEngine.builtin`, which knows the usual
grammar of patterns but not every property of characters, and measures only roughly how large a pattern is.
-/

namespace Tracing

/-- What compiles patterns and matches them. -/
structure PatternEngine where
  /-- The compiled patterns. -/
  Compiled : Type
  /-- Compiles a text, or says why it denotes no pattern. -/
  compile : String → Except String Compiled
  /-- Whether a compiled pattern matches somewhere in a text. -/
  isMatch : Compiled → String → Bool

/-- The engine of the program. -/
def PatternEngine.builtin : PatternEngine where
  Compiled := Pattern.Node
  compile text := (Pattern.read text.toList).mapError Pattern.Failure.message
  isMatch pattern text := pattern.isMatch text.toList

end Tracing
