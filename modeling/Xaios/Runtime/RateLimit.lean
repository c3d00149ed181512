import Mathlib.Algebra.Order.Ring.Nat
import Xaios.Status

/-!
# Token buckets

The buckets of `kernel/runtime/rate_limit.c`, one each for the processor time, the received and
the sent bytes of a cell.

A call credits the time since the last refill only if it is worth a token, so a bucket carries
time over that is not credited yet. Tokens and uncredited time together are a potential that
grows no faster than the clock (`RateLimit.Called`), whatever wraps at 64 bits. Hence no
interval sees more than the capacity and its own share of the rate
(`RateLimit.bucket_bounded`).
-/

namespace Xaios.RateLimit

/-- `xaios_token_bucket_t`. -/
structure TokenBucket where
  capacity : ℕ
  tokens : ℕ
  refillRate : ℕ
  lastRefillNs : ℕ

/-- A call of `bucket_consume`: what the clock shows and what is asked for. -/
structure Consume where
  now : ℕ
  count : ℕ

/-- `bucket_init`, at a reading of the clock. -/
def bucketInit (capacity refillRate now : ℕ) : TokenBucket :=
  ⟨capacity, capacity, refillRate, now⟩

namespace TokenBucket

/-- `elapsed_ns * refill_rate` in 64 bits: the time since the last refill, in billionths of a
token. -/
def uncredited (b : TokenBucket) (now : ℕ) : ℕ :=
  (now - b.lastRefillNs) * b.refillRate % 2 ^ 64

/-- `bucket_refill`. -/
def refill (b : TokenBucket) (now : ℕ) : TokenBucket :=
  if now ≤ b.lastRefillNs then b
  else
    let newTokens := b.uncredited now / 1000000000
    if 0 < newTokens then
      { b with
        tokens := min ((b.tokens + newTokens) % 2 ^ 64) b.capacity
        lastRefillNs := now }
    else b

/-- `bucket_consume`. -/
def consume (b : TokenBucket) (c : Consume) : Status × TokenBucket :=
  let b := b.refill c.now
  if b.tokens < c.count then (.busy, b) else (.ok, { b with tokens := b.tokens - c.count })

/-- The bucket after a sequence of calls. -/
def after (b : TokenBucket) (calls : List Consume) : TokenBucket :=
  calls.foldl (fun b c => (b.consume c).2) b

/-- The tokens that a call is granted. -/
def grant (b : TokenBucket) (c : Consume) : ℕ :=
  if (b.consume c).1 = .ok then c.count else 0

/-- The tokens that a sequence of calls is granted. -/
def granted (b : TokenBucket) : List Consume → ℕ
  | [] => 0
  | c :: calls => b.grant c + (b.consume c).2.granted calls

end TokenBucket

/-- The clock does not go back, from a reading on. -/
def Forward : ℕ → List Consume → Prop
  | _, [] => True
  | start, c :: calls => start ≤ c.now ∧ Forward c.now calls

/-! ### One call -/

/-- What a call at a time can do: it leaves less than a token in uncredited time, and what it
gives out comes from the tokens and the uncredited time. -/
structure Called (b b' : TokenBucket) (now given : ℕ) : Prop where
  capacity : b'.capacity = b.capacity
  refillRate : b'.refillRate = b.refillRate
  last : b'.lastRefillNs ≤ now
  full : b.tokens ≤ b.capacity → b'.tokens + given ≤ b.capacity
  carried : b'.uncredited now < 1000000000
  potential : 1000000000 * (b'.tokens + given) + b'.uncredited now ≤
    1000000000 * b.tokens + b.uncredited now

section Call

variable {b : TokenBucket} {s now : ℕ}

/-- The share of the rate in an interval is the sum over its parts. -/
theorem share_add {r s t : ℕ} (rate : ℕ) (hr : r ≤ s) (hs : s ≤ t) :
    (t - r) * rate = (s - r) * rate + (t - s) * rate := by
  rw [← Nat.add_mul, Nat.add_comm, Nat.sub_add_sub_cancel hs hr]

/-- Wrapping at 64 bits loses time only. -/
theorem uncredited_le (hlast : b.lastRefillNs ≤ s) (hs : s ≤ now) :
    b.uncredited now ≤ b.uncredited s + (now - s) * b.refillRate := by
  rw [TokenBucket.uncredited, share_add _ hlast hs, ← Nat.mod_add_mod]
  exact Nat.mod_le _ _

theorem called_refill (hlast : b.lastRefillNs ≤ now) : Called b (b.refill now) now 0 := by
  have hzero : ∀ b : TokenBucket, now ≤ b.lastRefillNs → b.uncredited now = 0 := fun b h => by
    rw [TokenBucket.uncredited, Nat.sub_eq_zero_of_le h, Nat.zero_mul, Nat.zero_mod]
  unfold TokenBucket.refill
  split
  case isTrue h => exact ⟨rfl, rfl, hlast, id, by rw [hzero b h]; decide, le_rfl⟩
  case isFalse h =>
    dsimp only
    split
    case isTrue hnew =>
      -- all of the time is credited, and a part of a token is lost
      refine ⟨rfl, rfl, le_rfl, fun _ => Nat.min_le_right _ _, ?_, ?_⟩ <;>
        rw [hzero ⟨_, _, _, now⟩ le_rfl]
      · decide
      · dsimp only
        omega
    case isFalse hnew => exact ⟨rfl, rfl, hlast, id, by omega, le_rfl⟩

theorem called_consume {c : Consume} (hlast : b.lastRefillNs ≤ c.now) :
    Called b (b.consume c).2 c.now (b.grant c) := by
  have h := called_refill hlast
  unfold TokenBucket.grant TokenBucket.consume
  dsimp only
  split
  case isTrue => exact h
  case isFalse hcount =>
    -- the tokens that are given out were there
    have hsum : (b.refill c.now).tokens - c.count + c.count = (b.refill c.now).tokens + 0 := by
      omega
    rw [if_pos rfl]
    refine ⟨h.capacity, h.refillRate, h.last, ?_, h.carried, ?_⟩ <;> dsimp only <;> rw [hsum]
    exacts [h.full, h.potential]

end Call

/-! ### Runs -/

/-- **What is granted up to a time** comes from the tokens, the uncredited time and the time
that passes. -/
theorem granted_le {calls : List Consume} {b : TokenBucket} {s e : ℕ}
    (hlast : b.lastRefillNs ≤ s) (hclock : Forward s calls) (hs : s ≤ e)
    (hend : ∀ c ∈ calls, c.now ≤ e) :
    1000000000 * b.granted calls ≤
      1000000000 * b.tokens + b.uncredited s + (e - s) * b.refillRate := by
  induction calls generalizing b s with
  | nil => exact Nat.zero_le _
  | cons c calls ih =>
    obtain ⟨hc, hclock⟩ := hclock
    rw [List.forall_mem_cons] at hend
    have hcall := called_consume (hlast.trans hc)
    have hpast := uncredited_le hlast hc
    have hrest := ih hcall.last hclock hend.1 hend.2
    have htime := share_add b.refillRate hc hend.1
    have hpotential := hcall.potential
    rw [hcall.refillRate] at hrest
    rw [TokenBucket.granted]
    omega

/-- In an interval the tokens and the uncredited time of its first call are at most the capacity
and less than a token. -/
theorem granted_window_le {before window : List Consume} {b : TokenBucket} {s t d : ℕ}
    (hfull : b.tokens ≤ b.capacity) (hlast : b.lastRefillNs ≤ s)
    (hclock : Forward s (before ++ window))
    (hwindow : ∀ c ∈ window, t ≤ c.now ∧ c.now ≤ t + d) :
    (b.after before).granted window ≤
      b.capacity + (b.refillRate * d + 999999999) / 1000000000 := by
  induction before generalizing b s with
  | nil =>
    cases window with
    | nil => exact Nat.zero_le _
    | cons c window =>
      obtain ⟨hc, hclock⟩ := hclock
      rw [List.forall_mem_cons] at hwindow
      obtain ⟨⟨ht, hd⟩, hwindow⟩ := hwindow
      have hcall := called_consume (hlast.trans hc)
      have hrest := granted_le hcall.last hclock hd fun c hc => (hwindow c hc).2
      have hlength : (t + d - c.now) * b.refillRate ≤ d * b.refillRate :=
        Nat.mul_le_mul_right _ (by omega)
      have hcapacity := hcall.full hfull
      have hcarried := hcall.carried
      rw [hcall.refillRate] at hrest
      change b.grant c + (b.consume c).2.granted window ≤ _
      rw [Nat.mul_comm]
      omega
  | cons c before ih =>
    obtain ⟨hc, hclock⟩ := hclock
    have hcall := called_consume (hlast.trans hc)
    have hwithin := hcall.full hfull
    have h := ih (by rw [hcall.capacity]; omega) hcall.last hclock
    rwa [hcall.capacity, hcall.refillRate] at h

/-- **A token bucket bounds what it grants.** Whatever the capacity and the rate, and whatever is
asked for: the calls of an interval of `d` nanoseconds are granted the capacity and the share of
the interval, rounded up, at most, and all calls together the capacity and the share of the time
since the bucket was made, rounded down. -/
theorem bucket_bounded {capacity rate start : ℕ} {before window : List Consume}
    (hclock : Forward start (before ++ window)) :
    (∀ t d, (∀ c ∈ window, t ≤ c.now ∧ c.now ≤ t + d) →
      ((bucketInit capacity rate start).after before).granted window ≤
        capacity + (rate * d + 999999999) / 1000000000) ∧
    ∀ elapsed, (∀ c ∈ before ++ window, c.now ≤ start + elapsed) →
      (bucketInit capacity rate start).granted (before ++ window) ≤
        capacity + rate * elapsed / 1000000000 := by
  refine ⟨fun t d => granted_window_le le_rfl le_rfl hclock, fun elapsed hend => ?_⟩
  have h := granted_le (b := bucketInit capacity rate start) le_rfl hclock
    (Nat.le_add_right start elapsed) hend
  simp only [TokenBucket.uncredited, bucketInit, Nat.sub_self, Nat.zero_mul, Nat.zero_mod,
    Nat.add_sub_cancel_left, Nat.mul_comm elapsed] at h ⊢
  omega

/-- A bucket of two tokens, one a second, in the tenth of a second after three have passed. -/
theorem bucket_bounded_two :
    ((bucketInit 2 1 0).after [⟨1000000000, 2⟩]).granted [⟨3000000000, 2⟩, ⟨3100000000, 1⟩] ≤
      2 + (1 * 100000000 + 999999999) / 1000000000 :=
  (bucket_bounded (show Forward 0 ([⟨1000000000, 2⟩] ++ [⟨3000000000, 2⟩, ⟨3100000000, 1⟩]) from
    ⟨by decide, by decide, by decide, trivial⟩)).1 3000000000 100000000 (by decide)

end Xaios.RateLimit
