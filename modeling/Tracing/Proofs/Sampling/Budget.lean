import Tracing.Proofs.Decimal.Unpacked
import Tracing.Sampling.TokenBucket

/-!
# The budget of a token bucket

On rationals the tokens are accounted for exactly: a call adds what flowed in since the last refill, capped by
the size of the bucket, and takes one token if it is allowed (`allowAt_flows`). From any moment on, the calls
allowed up to an instant have used the tokens at hand and what flowed in until then (`granted_le_flow`), which
bounds the calls allowed in any window (`granted_le`). A bucket without room allows nothing, on floating-point
numbers too (`never_allows`).
-/

namespace Tracing

namespace TokenBucket

/-- One for an allowed call, which takes a token. -/
def cost (allowed : Bool) : Nat := if allowed then 1 else 0

/-! ### Runs -/

section Runs

variable {α : Type} [Amount α]

/-- The answers to calls at instants, one after the other. -/
def answers (b : TokenBucket α) : List Nat → List Bool
  | [] => []
  | now :: later => (b.allowAt now).1 :: (b.allowAt now).2.answers later

/-- The bucket after calls at instants. -/
def after (b : TokenBucket α) (instants : List Nat) : TokenBucket α :=
  instants.foldl (fun b now => (b.allowAt now).2) b

/-- How many calls are allowed of those from one instant to another. -/
def granted (b : TokenBucket α) (since till : Nat) (instants : List Nat) : Nat :=
  (instants.zip (b.answers instants)).countP fun (now, allowed) => since ≤ now && now ≤ till && allowed

theorem granted_cons (b : TokenBucket α) (since till now : Nat) (later : List Nat) :
    b.granted since till (now :: later) =
      (if since ≤ now ∧ now ≤ till then cost (b.allowAt now).1 else 0) +
        (b.allowAt now).2.granted since till later := by
  unfold granted cost
  rw [answers, List.zip_cons_cons, List.countP_cons, Nat.add_comm]
  cases (b.allowAt now).1 <;> simp

theorem after_of_step {P : TokenBucket α → Prop} (step : ∀ b now, P b → P (b.allowAt now).2)
    {b : TokenBucket α} (h : P b) (instants : List Nat) : P (b.after instants) := by
  induction instants generalizing b with
  | nil => exact h
  | cons now later ih => exact ih (step b now h)

theorem answers_of_step {P : TokenBucket α → Prop} {Q : Bool → Prop}
    (step : ∀ b now, P b → Q (b.allowAt now).1 ∧ P (b.allowAt now).2)
    {b : TokenBucket α} (h : P b) (instants : List Nat) : ∀ answer ∈ b.answers instants, Q answer := by
  induction instants generalizing b with
  | nil => simp [answers]
  | cons now later ih =>
    rw [answers, List.forall_mem_cons]
    exact ⟨(step b now h).1, ih (step b now h).2⟩

/-! ### The parts of a call -/

variable (b : TokenBucket α) (now : Nat)

theorem rollWindow_cases : b.rollWindow now = b ∨ ∃ previousRate : Option α,
    (∀ rate ∈ previousRate, 0 < b.checked ∧ rate = b.share) ∧
      b.rollWindow now = { b with previousRate, windowStart := now, checked := 0, allowed := 0 } := by
  unfold rollWindow
  dsimp only
  split
  · exact .inl rfl
  · refine .inr ⟨_, ?_, rfl⟩
    intro rate hrate
    split at hrate
    · next h => exact ⟨h.2, (Option.some.inj hrate).symm⟩
    · cases hrate

theorem refill_of_le (h : now ≤ b.lastRefill) : b.refill now = b := if_pos (Nat.sub_eq_zero_of_le h)

theorem refill_of_lt (h : b.lastRefill < now) : b.refill now =
    { b with tokens := least (b.tokens + seconds (now - b.lastRefill) * b.limit) b.size, lastRefill := now } :=
  if_neg (Nat.sub_ne_zero_of_lt h)

end Runs

/-! ### Tokens, exactly -/

section Exact

variable {b b' : TokenBucket ℚ} {now : Nat} {allowed : Bool} {inflow : ℚ}

/-- What a bucket holds is never negative and fits into it. -/
structure Sound (b : TokenBucket ℚ) : Prop where
  limit_nonneg : 0 ≤ b.limit
  tokens_nonneg : 0 ≤ b.tokens
  tokens_le : b.tokens ≤ b.size

/-- The tokens that flow in over a time. -/
def flow (b : TokenBucket ℚ) (nanos : Nat) : ℚ := b.limit * ((nanos : ℚ) / 10 ^ 9)

/-- A call at an instant lets tokens flow in, no more than the time allows for, and takes one if it is allowed. -/
structure Flows (b : TokenBucket ℚ) (now : Nat) (allowed : Bool) (b' : TokenBucket ℚ) (inflow : ℚ) : Prop where
  limit : b'.limit = b.limit
  size : b'.size = b.size
  lastRefill : b'.lastRefill = max b.lastRefill now
  inflow_nonneg : 0 ≤ inflow
  inflow_le : inflow ≤ b.flow (now - b.lastRefill)
  fits : b.tokens + inflow ≤ b.size
  covered : (cost allowed : ℚ) ≤ b.tokens + inflow
  tokens : b'.tokens = b.tokens + inflow - cost allowed

theorem flow_zero (b : TokenBucket ℚ) : b.flow 0 = 0 := by simp [flow]

theorem flow_add (b : TokenBucket ℚ) (m n : Nat) : b.flow (m + n) = b.flow m + b.flow n := by
  unfold flow
  push_cast
  ring

theorem Sound.flow_nonneg (hb : b.Sound) (nanos : Nat) : 0 ≤ b.flow nanos :=
  mul_nonneg hb.limit_nonneg (by positivity)

theorem Sound.flow_mono (hb : b.Sound) {m n : Nat} (h : m ≤ n) : b.flow m ≤ b.flow n := by
  rw [← Nat.add_sub_cancel' h, flow_add]
  linarith [hb.flow_nonneg (n - m)]

theorem seconds_eq (nanos : Nat) : (seconds nanos : ℚ) = (nanos : ℚ) / 10 ^ 9 := by
  have hsplit : ((nanos / 1000000000 * 1000000000 + nanos % 1000000000 : Nat) : ℚ) = nanos := by
    rw [Nat.div_add_mod']
  change ((nanos / 1000000000 : Nat) : ℚ) + ((nanos % 1000000000 : Nat) : ℚ) / ((1000000000 : Nat) : ℚ) = _
  rw [← hsplit]
  push_cast
  ring

theorem least_eq (a b : ℚ) : least a b = min a b := (min_def a b).symm

theorem refill_flows (hb : b.Sound) (now : Nat) : ∃ inflow, Flows b now false (b.refill now) inflow := by
  have hfree : (cost false : ℚ) = 0 := Nat.cast_zero
  have hle := hb.tokens_le
  have hnonneg := hb.tokens_nonneg
  rcases Nat.lt_or_ge b.lastRefill now with hlt | hge
  · have hgain := hb.flow_nonneg (now - b.lastRefill)
    have htokens : (b.refill now).tokens = min (b.tokens + b.flow (now - b.lastRefill)) b.size := by
      rw [refill_of_lt b now hlt, flow, ← seconds_eq, mul_comm b.limit]
      exact least_eq _ _
    have hkeeps : b.tokens ≤ (b.refill now).tokens := htokens ▸ le_min (by linarith) hle
    have hflows : (b.refill now).tokens ≤ b.tokens + b.flow (now - b.lastRefill) := htokens ▸ min_le_left ..
    have hfits : (b.refill now).tokens ≤ b.size := htokens ▸ min_le_right ..
    refine ⟨(b.refill now).tokens - b.tokens, ?_⟩
    rw [refill_of_lt b now hlt] at hkeeps hflows hfits ⊢
    refine ⟨rfl, rfl, (Nat.max_eq_right hlt.le).symm, ?_, ?_, ?_, ?_, ?_⟩
    · linarith
    · linarith
    · linarith
    · linarith
    · rw [hfree]; ring
  · rw [refill_of_le b now hge]
    refine ⟨0, rfl, rfl, (Nat.max_eq_left hge).symm, le_rfl, hb.flow_nonneg _, ?_, ?_, ?_⟩
    · linarith
    · linarith
    · rw [hfree]; ring

/-- **What a call does to the tokens.** -/
theorem allowAt_flows (hb : b.Sound) (now : Nat) :
    ∃ inflow, Flows b now (b.allowAt now).1 (b.allowAt now).2 inflow := by
  have hfree : (cost false : ℚ) = 0 := Nat.cast_zero
  have hone : (cost true : ℚ) = 1 := Nat.cast_one
  -- rolling the window touches nothing that the tokens depend on
  obtain ⟨inflow, hflows⟩ : ∃ inflow, Flows b now false ((b.rollWindow now).refill now) inflow := by
    rcases rollWindow_cases b now with hroll | ⟨previousRate, -, hroll⟩
    · rw [hroll]
      exact refill_flows hb now
    · rw [hroll]
      obtain ⟨inflow, hflows⟩ := @refill_flows
        { b with previousRate, windowStart := now, checked := 0, allowed := 0 } { hb with } now
      exact ⟨inflow, { hflows with }⟩
  obtain ⟨hlimit, hsize, hrefill, hnonneg, hle, hfits, hcovered, htokens⟩ := hflows
  refine ⟨inflow, ?_⟩
  rw [hfree, sub_zero] at htokens
  rw [allowAt, take]
  split
  · next htoken =>
    have htoken' : (1 : ℚ) ≤ ((b.rollWindow now).refill now).tokens := by
      rw [← Nat.cast_one]; exact htoken
    refine ⟨hlimit, hsize, hrefill, hnonneg, hle, hfits, by linarith, ?_⟩
    change ((b.rollWindow now).refill now).tokens - ((1 : Nat) : ℚ) = _
    rw [htokens, hone, Nat.cast_one]
  · refine ⟨hlimit, hsize, hrefill, hnonneg, hle, hfits, hcovered, ?_⟩
    rw [hfree, sub_zero]
    exact htokens

theorem Flows.sound (hflows : Flows b now allowed b' inflow) (hb : b.Sound) : b'.Sound where
  limit_nonneg := by rw [hflows.limit]; exact hb.limit_nonneg
  tokens_nonneg := by linarith [hflows.tokens, hflows.covered]
  tokens_le := by
    have hcost : (0 : ℚ) ≤ cost allowed := Nat.cast_nonneg _
    rw [hflows.size]
    linarith [hflows.tokens, hflows.fits]

theorem Flows.flow_eq (hflows : Flows b now allowed b' inflow) (nanos : Nat) : b'.flow nanos = b.flow nanos := by
  rw [flow, flow, hflows.limit]

theorem Flows.tokens_of_le (hflows : Flows b now allowed b' inflow) (h : now ≤ b.lastRefill) :
    b'.tokens = b.tokens - cost allowed ∧ b'.lastRefill = b.lastRefill := by
  have hnone : inflow ≤ 0 := by
    have hle := hflows.inflow_le
    rwa [Nat.sub_eq_zero_of_le h, flow_zero] at hle
  refine ⟨?_, ?_⟩
  · linarith [hflows.tokens, hflows.inflow_nonneg]
  · rw [hflows.lastRefill, Nat.max_eq_left h]

/-! ### Calls in a window -/

theorem granted_of_gone {since till : Nat} (b : TokenBucket ℚ) {instants : List Nat}
    (hsorted : (now :: instants).Pairwise (· ≤ ·)) (hgone : till < now) :
    b.granted since till (now :: instants) = 0 := by
  induction instants generalizing b now with
  | nil => rw [granted_cons, if_neg (by omega)]; rfl
  | cons next later ih =>
    obtain ⟨hfirst, hlater⟩ := List.pairwise_cons.mp hsorted
    rw [granted_cons, if_neg (by omega), Nat.zero_add]
    exact ih _ hlater (Nat.lt_of_lt_of_le hgone (hfirst next List.mem_cons_self))

/-- **The calls allowed up to an instant live on the tokens at hand and what flows in until then.** -/
theorem granted_le_flow (hb : b.Sound) {since till : Nat} {instants : List Nat}
    (hsorted : instants.Pairwise (· ≤ ·)) :
    (b.granted since till instants : ℚ) ≤ b.tokens + b.flow (till - b.lastRefill) := by
  induction instants generalizing b with
  | nil =>
    change ((0 : Nat) : ℚ) ≤ _
    rw [Nat.cast_zero]
    linarith [hb.tokens_nonneg, hb.flow_nonneg (till - b.lastRefill)]
  | cons now later ih =>
    have hlater := (List.pairwise_cons.mp hsorted).2
    obtain ⟨inflow, hflows⟩ := allowAt_flows hb now
    rcases Nat.lt_or_ge till now with hgone | hwithin
    · rw [granted_of_gone b hsorted hgone, Nat.cast_zero]
      linarith [hb.tokens_nonneg, hb.flow_nonneg (till - b.lastRefill)]
    · have hcount : b.granted since till (now :: later) ≤
          cost (b.allowAt now).1 + (b.allowAt now).2.granted since till later := by
        rw [granted_cons]
        split <;> omega
      have hrest := ih (hflows.sound hb) hlater
      rw [hflows.flow_eq, hflows.lastRefill] at hrest
      have htime : till - b.lastRefill = (now - b.lastRefill) + (till - max b.lastRefill now) := by omega
      calc (b.granted since till (now :: later) : ℚ)
          ≤ cost (b.allowAt now).1 + (b.allowAt now).2.granted since till later := by exact_mod_cast hcount
        _ ≤ b.tokens + inflow + b.flow (till - max b.lastRefill now) := by linarith [hflows.tokens]
        _ ≤ b.tokens + b.flow (now - b.lastRefill) + b.flow (till - max b.lastRefill now) := by
          linarith [hflows.inflow_le]
        _ = b.tokens + b.flow (till - b.lastRefill) := by rw [htime, flow_add, add_assoc]

/-- **In any window a bucket allows no more calls than it holds and than flow in.** -/
theorem granted_le (hb : b.Sound) {since till : Nat} {instants : List Nat} (hsorted : instants.Pairwise (· ≤ ·)) :
    (b.granted since till instants : ℚ) ≤ b.size + b.flow (till - since) := by
  have hroom : ∀ {b : TokenBucket ℚ}, b.Sound → 0 ≤ b.size + b.flow (till - since) := fun hb => by
    linarith [hb.tokens_nonneg, hb.tokens_le, hb.flow_nonneg (till - since)]
  induction instants generalizing b with
  | nil => exact_mod_cast hroom hb
  | cons now later ih =>
    have hlater := (List.pairwise_cons.mp hsorted).2
    obtain ⟨inflow, hflows⟩ := allowAt_flows hb now
    rcases Nat.lt_or_ge now since with hbefore | hsince
    · -- nothing is counted yet
      have hrest := ih (hflows.sound hb) hlater
      rw [hflows.flow_eq, hflows.size] at hrest
      rw [granted_cons, if_neg (by omega), Nat.zero_add]
      exact hrest
    · rcases Nat.lt_or_ge till now with hgone | hwithin
      · rw [granted_of_gone b hsorted hgone, Nat.cast_zero]
        exact hroom hb
      · -- the first call of the window finds a bucket that is full at most
        have hrest : ((b.allowAt now).2.granted since till later : ℚ) ≤ _ :=
          granted_le_flow (hflows.sound hb) hlater
        rw [hflows.flow_eq, hflows.lastRefill] at hrest
        have hflow : b.flow (till - max b.lastRefill now) ≤ b.flow (till - since) := hb.flow_mono (by omega)
        rw [granted_cons, if_pos ⟨hsince, hwithin⟩, Nat.cast_add]
        linarith [hflows.tokens, hflows.fits]

/-! ### Counted calls -/

/-- No more calls of a window are allowed than are asked, and a share is a share. -/
structure Counted (b : TokenBucket ℚ) : Prop where
  allowed_le : b.allowed ≤ b.checked
  previous : ∀ rate ∈ b.previousRate, 0 ≤ rate ∧ rate ≤ 1

theorem Counted.share (hb : b.Counted) : 0 ≤ b.share ∧ b.share ≤ 1 := by
  have hle : (b.allowed : ℚ) ≤ b.checked := Nat.cast_le.mpr hb.allowed_le
  change 0 ≤ (b.allowed : ℚ) / b.checked ∧ (b.allowed : ℚ) / b.checked ≤ 1
  exact ⟨by positivity, div_le_one_of_le₀ hle (Nat.cast_nonneg _)⟩

theorem Counted.rollWindow (hb : b.Counted) (now : Nat) : (b.rollWindow now).Counted := by
  rcases rollWindow_cases b now with hroll | ⟨previousRate, hshare, hroll⟩
  · rw [hroll]
    exact hb
  · rw [hroll]
    refine ⟨le_rfl, fun rate hrate => ?_⟩
    rw [(hshare rate hrate).2]
    exact hb.share

theorem Counted.refill (hb : b.Counted) (now : Nat) : (b.refill now).Counted := by
  rcases Nat.lt_or_ge b.lastRefill now with hlt | hge
  · rw [refill_of_lt b now hlt]
    exact ⟨hb.allowed_le, hb.previous⟩
  · rw [refill_of_le b now hge]
    exact hb

theorem Counted.take (hb : b.Counted) : b.take.2.Counted := by
  unfold TokenBucket.take
  split
  · exact ⟨Nat.succ_le_succ hb.allowed_le, hb.previous⟩
  · exact ⟨Nat.le_succ_of_le hb.allowed_le, hb.previous⟩

theorem Counted.allowAt (hb : b.Counted) (now : Nat) : (b.allowAt now).2.Counted :=
  ((hb.rollWindow now).refill now).take

theorem Counted.effectiveRate (hb : b.Counted) : 0 ≤ b.effectiveRate ∧ b.effectiveRate ≤ 1 := by
  have hshare := hb.share
  unfold TokenBucket.effectiveRate
  cases hprevious : b.previousRate with
  | none =>
    split
    · exact ⟨zero_le_one' ℚ, le_refl (1 : ℚ)⟩
    · exact hshare
  | some previous =>
    have hprevious := hb.previous previous hprevious
    split
    · exact hprevious
    · change 0 ≤ (b.share + previous) / ((2 : Nat) : ℚ) ∧ (b.share + previous) / ((2 : Nat) : ℚ) ≤ 1
      push_cast
      constructor <;> linarith

end Exact

/-! ### Buckets without room -/

section Closed

variable {α : Type} [Amount α] {b : TokenBucket α}

/-- A bucket that holds nothing, has no room and gets nothing. -/
structure Closed (b : TokenBucket α) : Prop where
  size : b.size = Amount.ofNat 0
  tokens : b.tokens = Amount.ofNat 0
  flow : ∀ amount, least (Amount.ofNat 0 + amount * b.limit) (Amount.ofNat 0) = Amount.ofNat 0

theorem Closed.allowAt (hone : ¬ (Amount.ofNat 1 : α) ≤ Amount.ofNat 0) (hb : b.Closed) (now : Nat) :
    (b.allowAt now).1 = false ∧ (b.allowAt now).2.Closed := by
  have hroll : (b.rollWindow now).Closed := by
    rcases rollWindow_cases b now with hroll | ⟨previousRate, -, hroll⟩
    · rw [hroll]; exact hb
    · rw [hroll]; exact ⟨hb.size, hb.tokens, hb.flow⟩
  have hrefill : ((b.rollWindow now).refill now).Closed := by
    rcases Nat.lt_or_ge (b.rollWindow now).lastRefill now with hlt | hge
    · rw [refill_of_lt _ now hlt]
      refine ⟨hroll.size, ?_, hroll.flow⟩
      simp only [hroll.size, hroll.tokens]
      exact hroll.flow _
    · rw [refill_of_le _ now hge]
      exact hroll
  have hnone : ¬ (Amount.ofNat 1 : α) ≤ ((b.rollWindow now).refill now).tokens := by
    rw [hrefill.tokens]
    exact hone
  rw [TokenBucket.allowAt, TokenBucket.take, if_neg hnone]
  exact ⟨rfl, hrefill.size, hrefill.tokens, hrefill.flow⟩

/-- **A bucket without room never allows a call**, and stays so. -/
theorem Closed.never_allows (hone : ¬ (Amount.ofNat 1 : α) ≤ Amount.ofNat 0) (hb : b.Closed)
    (instants : List Nat) : (∀ answer ∈ b.answers instants, answer = false) ∧ (b.after instants).Closed :=
  ⟨answers_of_step (fun _ now h => h.allowAt hone now) hb instants,
    after_of_step (fun _ now h => (h.allowAt hone now).2) hb instants⟩

end Closed

/-! ### The limit -/

/-- The size of a bucket for a limit: one second's worth of tokens and room for one, none for a limit of zero or
less. -/
def capacity (limit : ℚ) : ℚ := if 0 < limit then max limit 1 else 0

theorem limit_full (limit : ℚ) (start : Nat) : (full limit start).limit = max limit 0 := by
  change (if ((0 : Nat) : ℚ) ≤ limit then limit else ((0 : Nat) : ℚ)) = max limit 0
  rw [Nat.cast_zero]
  split
  · next h => exact (max_eq_left h).symm
  · next h => exact (max_eq_right (le_of_not_ge h)).symm

theorem size_full (limit : ℚ) (start : Nat) : (full limit start).size = capacity limit := by
  have hsize : (full limit start).size = if (full limit start).limit ≤ 0 then 0
      else if (full limit start).limit ≤ 1 then 1 else (full limit start).limit := by
    rw [← Nat.cast_zero, ← Nat.cast_one]
    rfl
  rw [hsize, limit_full, capacity]
  rcases lt_or_ge 0 limit with hpos | hneg
  · rw [max_eq_left hpos.le, if_neg (not_le.mpr hpos), if_pos hpos]
    split
    · next h => exact (max_eq_right h).symm
    · next h => exact (max_eq_left (le_of_not_ge h)).symm
  · rw [max_eq_right hneg, if_pos le_rfl, if_neg (not_lt.mpr hneg)]

theorem capacity_nonneg (limit : ℚ) : 0 ≤ capacity limit := by
  unfold capacity
  split
  · exact le_max_of_le_right zero_le_one
  · exact le_rfl

theorem sound_full (limit : ℚ) (start : Nat) : (full limit start).Sound where
  limit_nonneg := by rw [limit_full]; exact le_max_right ..
  tokens_nonneg := (capacity_nonneg limit).trans_eq (size_full limit start).symm
  tokens_le := le_refl (full limit start).size

theorem counted_full (limit : ℚ) (start : Nat) : (full limit start).Counted :=
  ⟨le_rfl, fun _ hrate => nomatch hrate⟩

theorem sound_after (limit : ℚ) (start : Nat) (instants : List Nat) :
    ((full limit start).after instants).Sound ∧ ((full limit start).after instants).size = capacity limit := by
  refine after_of_step (P := fun b => b.Sound ∧ b.size = capacity limit) (fun b now hb => ?_)
    ⟨sound_full limit start, size_full limit start⟩ instants
  obtain ⟨inflow, hflows⟩ := allowAt_flows hb.1 now
  exact ⟨hflows.sound hb.1, hflows.size.trans hb.2⟩

theorem closed_full {limit : ℚ} (h : limit ≤ 0) (start : Nat) : (full limit start).Closed := by
  have hsize : (full limit start).size = 0 := by rw [size_full, capacity, if_neg (not_lt.mpr h)]
  refine ⟨hsize, hsize, fun amount => ?_⟩
  rw [limit_full, max_eq_right h, least_eq]
  change min (((0 : Nat) : ℚ) + amount * 0) ((0 : Nat) : ℚ) = ((0 : Nat) : ℚ)
  simp

/-- A limit that is no number counts as zero. -/
theorem closed_full_float {limit : Float} (h : limit.isNaN = true ∨ limit ≤ 0) (start : Nat) :
    (full limit start).Closed := by
  have hlimit : 0 ≤ (full limit start).limit ∧ (full limit start).limit ≤ 0 := by
    change (0 : Float) ≤ (if (0 : Float) ≤ limit then limit else 0) ∧
      (if (0 : Float) ≤ limit then limit else 0) ≤ (0 : Float)
    split
    · next hge => exact ⟨hge, h.resolve_left fun hnan => Decimal.not_le_of_isNaN hnan hge⟩
    · decide +kernel
  have hsize : (full limit start).size = Amount.ofNat 0 := if_pos hlimit.2
  exact ⟨hsize, hsize, fun amount => Decimal.capped_zero amount hlimit.1 hlimit.2⟩

/-- **A limiter enforces its limit.** The tokens are never negative and fit into the bucket; nothing is allowed
without a limit above zero; in a window no more calls are allowed than the bucket holds and than flow in, a
negative limit counting as zero; a clock that goes back adds nothing; and the share that is reported is one. -/
theorem limit_enforced (limit : ℚ) (start : Nat) (instants : List Nat) :
    let b := (full limit start).after instants
    (0 ≤ b.tokens ∧ b.tokens ≤ capacity limit) ∧
    (limit ≤ 0 → ∀ answer ∈ (full limit start).answers instants, answer = false) ∧
    (instants.Pairwise (· ≤ ·) → ∀ since till, since ≤ till →
      ((full limit start).granted since till instants : ℚ) ≤
        capacity limit + max limit 0 * (((till : ℚ) - since) / 10 ^ 9)) ∧
    (∀ now ≤ b.lastRefill, (b.allowAt now).2.tokens = b.tokens - cost (b.allowAt now).1 ∧
      (b.allowAt now).2.lastRefill = b.lastRefill) ∧
    b.allowed ≤ b.checked ∧ (0 ≤ b.effectiveRate ∧ b.effectiveRate ≤ 1) ∧
    ∀ limit : Float, limit.isNaN = true ∨ limit ≤ 0 →
      ((full limit start).after instants).size = 0 ∧ ((full limit start).after instants).tokens = 0 ∧
      ∀ answer ∈ (full limit start).answers instants, answer = false := by
  intro b
  have hone : ¬ (Amount.ofNat 1 : ℚ) ≤ Amount.ofNat 0 := by decide
  have hone' : ¬ (Amount.ofNat 1 : Float) ≤ Amount.ofNat 0 := by decide +kernel
  obtain ⟨hsound, hsize⟩ : b.Sound ∧ b.size = capacity limit := sound_after limit start instants
  have hcounted : b.Counted :=
    after_of_step (fun _ now hb => hb.allowAt now) (counted_full limit start) instants
  refine ⟨⟨hsound.tokens_nonneg, hsize ▸ hsound.tokens_le⟩,
    fun hclosed => ((closed_full hclosed start).never_allows hone instants).1, ?window, ?back,
    hcounted.allowed_le, hcounted.effectiveRate, ?number⟩
  case window =>
    intro hsorted since till hwindow
    have hbound : ((full limit start).granted since till instants : ℚ) ≤ _ :=
      granted_le (sound_full limit start) hsorted
    rwa [size_full, flow, limit_full, Nat.cast_sub hwindow] at hbound
  case back =>
    intro now hnow
    obtain ⟨inflow, hflows⟩ := allowAt_flows hsound now
    exact hflows.tokens_of_le hnow
  case number =>
    intro limit hlimit
    obtain ⟨hanswers, hclosed⟩ := (closed_full_float hlimit start).never_allows hone' instants
    exact ⟨hclosed.size, hclosed.tokens, hanswers⟩

/-- With two calls a second, four are allowed within one: as many as the bound says. A clock that goes back to
the start adds nothing after that, and without a limit nothing is allowed. -/
theorem limit_enforced_twice :
    (full (2 : ℚ) 0).granted 0 1000000000 [0, 0, 0, 500000000, 1000000000] = 4 ∧
    ((full (2 : ℚ) 0).granted 0 1000000000 [0, 0, 0, 500000000, 1000000000] : ℚ) ≤ 4 ∧
    (((full (2 : ℚ) 0).after [0, 500000000]).allowAt 0).2.tokens = 0 ∧
    (∀ answer ∈ (full (-1 : ℚ) 0).answers [0, 7], answer = false) ∧
    ∀ answer ∈ (full Float.nan 0).answers [0, 7], answer = false := by
  have hwindow := (limit_enforced 2 0 [0, 0, 0, 500000000, 1000000000]).2.2.1 (by decide) 0 1000000000 (by decide)
  have hback := (limit_enforced 2 0 [0, 500000000]).2.2.2.1 0 (by decide)
  have hbound : capacity 2 + max 2 0 * ((((1000000000 : Nat) : ℚ) - (0 : Nat)) / 10 ^ 9) = 4 := by
    norm_num [capacity]
  refine ⟨by decide +kernel, hwindow.trans_eq hbound, ?_, (limit_enforced (-1) 0 [0, 7]).2.1 (by decide),
    ((limit_enforced 0 0 [0, 7]).2.2.2.2.2.2 Float.nan (.inl (by decide +kernel))).2.2⟩
  rw [hback.1]
  decide +kernel

end TokenBucket
end Tracing
