/-!
# Token buckets

A bucket lets through so many requests a second. It holds tokens, at most one second's worth and at least
room for one; they flow in with time, and a request takes one. The arithmetic is that of any amounts, so
the bucket that runs on floating-point numbers has an exact twin on rationals.
-/

namespace Tracing

/-- Numbers that tokens are counted in. -/
class Amount (α : Type) extends Add α, Sub α, Mul α, Div α, LE α where
  ofNat : Nat → α
  decLe : DecidableLE α

instance Amount.decidableLE {α : Type} [Amount α] : DecidableLE α := Amount.decLe

instance : Amount Float where
  ofNat := Float.ofNat
  decLe := inferInstance

instance : Amount Rat where
  ofNat n := (n : Rat)
  decLe := inferInstance

/-- A bucket of tokens. Instants are in nanoseconds. -/
structure TokenBucket (α : Type) where
  /-- Tokens that flow in each second. -/
  limit : α
  /-- The most tokens it holds. -/
  size : α
  tokens : α
  lastRefill : Nat
  /-- The window in which requests are counted. -/
  windowStart : Nat
  checked : Nat
  allowed : Nat
  /-- The share allowed in the window before, if that was just before. -/
  previousRate : Option α

namespace TokenBucket

variable {α : Type} [Amount α]

def least (a b : α) : α := if a ≤ b then a else b

/-- A full bucket. A limit below zero, or one that is no number, counts as zero. -/
def full (limit : α) (now : Nat) : TokenBucket α :=
  let limit := if Amount.ofNat 0 ≤ limit then limit else Amount.ofNat 0
  let size := if limit ≤ Amount.ofNat 0 then Amount.ofNat 0
    else if limit ≤ Amount.ofNat 1 then Amount.ofNat 1 else limit
  { limit, size, tokens := size, lastRefill := now, windowStart := now
    checked := 0, allowed := 0, previousRate := none }

/-- Nanoseconds as seconds. -/
def seconds (nanos : Nat) : α :=
  Amount.ofNat (nanos / 1000000000)
    + Amount.ofNat (nanos % 1000000000) / Amount.ofNat 1000000000

/-- A window in nanoseconds. -/
def window : Nat := 1000000000

/-- The share of the requests of this window that were allowed. -/
def share (b : TokenBucket α) : α := Amount.ofNat b.allowed / Amount.ofNat b.checked

/-- Starts a new window when the last one is over. A gap of two windows or more leaves no earlier share. -/
def rollWindow (b : TokenBucket α) (now : Nat) : TokenBucket α :=
  let elapsed := now - b.windowStart
  if elapsed < window then b
  else
    { b with
      previousRate := if elapsed < 2 * window ∧ 0 < b.checked then some b.share else none
      windowStart := now
      checked := 0
      allowed := 0 }

/-- Lets tokens flow in for the time since the last refill. -/
def refill (b : TokenBucket α) (now : Nat) : TokenBucket α :=
  let elapsed := now - b.lastRefill
  if elapsed = 0 then b
  else
    { b with
      tokens := least (b.tokens + seconds elapsed * b.limit) b.size
      lastRefill := now }

/-- Takes a token if there is one. -/
def take (b : TokenBucket α) : Bool × TokenBucket α :=
  if Amount.ofNat 1 ≤ b.tokens then
    (true, { b with
      tokens := b.tokens - Amount.ofNat 1, checked := b.checked + 1, allowed := b.allowed + 1 })
  else (false, { b with checked := b.checked + 1 })

/-- Asks for a token at an instant. -/
def allowAt (b : TokenBucket α) (now : Nat) : Bool × TokenBucket α :=
  ((b.rollWindow now).refill now).take

/-- The share of requests allowed, averaged over this window and the one before. -/
def effectiveRate (b : TokenBucket α) : α :=
  if b.checked = 0 then b.previousRate.getD (Amount.ofNat 1)
  else match b.previousRate with
    | some previous => (b.share + previous) / Amount.ofNat 2
    | none => b.share

end TokenBucket

end Tracing
