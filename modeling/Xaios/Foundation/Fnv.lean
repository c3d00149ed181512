import Mathlib.Algebra.Ring.Nat
import Mathlib.Data.List.Basic

/-!
# The FNV-1a hash on 64 bits

One step mixes a byte into the state by exclusive or and multiplies by an odd
constant, so it is a bijection of the state for each byte, and of the byte for
each state. The consequences a checksum argument needs are

* `Foundation.fnvFrom_inj`: hashing the same bytes from two states gives the
  same result only from the same state – whatever two inputs share at the end
  can be cancelled;
* `Foundation.toNat_fnvFrom_replicate_zero`: a run of zero bytes multiplies the
  state by a power of the constant.
-/

namespace Foundation

/-- The multiplier of FNV-1a. -/
def fnvPrime : UInt64 := 1099511628211

/-- The initial state of FNV-1a. -/
def fnvOffset : UInt64 := 14695981039346656037

/-- One step of FNV-1a. -/
def fnvStep (h : UInt64) (b : UInt8) : UInt64 := (h ^^^ b.toUInt64) * fnvPrime

/-- FNV-1a from a given state. -/
def fnvFrom (h : UInt64) (bs : List UInt8) : UInt64 := bs.foldl fnvStep h

/-- The FNV-1a hash of a byte string. -/
def fnv1a64 (bs : List UInt8) : UInt64 := fnvFrom fnvOffset bs

@[simp] theorem fnvFrom_nil (h : UInt64) : fnvFrom h [] = h := rfl

@[simp] theorem fnvFrom_cons (h : UInt64) (b : UInt8) (bs : List UInt8) :
    fnvFrom h (b :: bs) = fnvFrom (fnvStep h b) bs := rfl

theorem fnvFrom_append (h : UInt64) (bs cs : List UInt8) :
    fnvFrom h (bs ++ cs) = fnvFrom (fnvFrom h bs) cs := by
  simp [fnvFrom]

/-- The inverse of the multiplier: it is odd. -/
def fnvInv : UInt64 := 14886173955864302971

theorem fnvPrime_mul_inv : fnvPrime * fnvInv = 1 := by decide

/-- The multiplier can be cancelled. -/
theorem mul_fnvPrime_inj {x y : UInt64} (h : x * fnvPrime = y * fnvPrime) : x = y := by
  have hx : x * fnvPrime * fnvInv = x := by
    rw [UInt64.mul_assoc, fnvPrime_mul_inv, UInt64.mul_one]
  have hy : y * fnvPrime * fnvInv = y := by
    rw [UInt64.mul_assoc, fnvPrime_mul_inv, UInt64.mul_one]
  rw [← hx, ← hy, h]

/-- **A common tail can be cancelled.** -/
theorem fnvFrom_inj (bs : List UInt8) {h h' : UInt64} : fnvFrom h bs = fnvFrom h' bs ↔ h = h' := by
  refine ⟨?_, fun e => by rw [e]⟩
  induction bs generalizing h h' with
  | nil => exact id
  | cons b bs ih => exact fun e => (UInt64.xor_left_inj _).mp (mul_fnvPrime_inj (ih e))

/-- A run of zero bytes multiplies the state by a power of the constant. -/
theorem toNat_fnvFrom_replicate_zero (h : UInt64) (n : ℕ) :
    (fnvFrom h (List.replicate n 0)).toNat = h.toNat * 1099511628211 ^ n % 2 ^ 64 := by
  induction n generalizing h with
  | zero => simp
  | succ n ih =>
    have hstep : (fnvStep h 0).toNat = h.toNat * 1099511628211 % 2 ^ 64 := by
      simp [fnvStep, fnvPrime, UInt64.toNat_mul]
    rw [List.replicate_succ, fnvFrom_cons, ih, hstep, Nat.mod_mul_mod, Nat.mul_assoc,
      Nat.pow_succ 1099511628211 n, Nat.mul_comm 1099511628211]

end Foundation
