import Mathlib.Data.Nat.ModEq
import Mathlib.Algebra.BigOperators.Group.List.Basic

/-!
# One's complement sums

Words from `0` to `M` are added with the carry going around: a sum above `M` loses `M`.
A word *represents* a number when it is congruent to it modulo `M`, and zero only when the
number is (`Foundation.OnesRep`); of the two words that are congruent to zero, a
number other than zero has `M`. So whatever the order in which a number was summed or the
carries were folded, the word `M` says that it is a positive multiple of `M`
(`Foundation.OnesRep.eq_max_iff`).
-/

namespace Foundation

variable {M m n x y : ℕ}

/-- The word that stands for a number. -/
structure OnesRep (M n x : ℕ) : Prop where
  le : x ≤ M
  modEq : x ≡ n [MOD M]
  eq_zero_iff : x = 0 ↔ n = 0

namespace OnesRep

/-- A word stands for itself. -/
theorem self (h : n ≤ M) : OnesRep M n n := ⟨h, rfl, Iff.rfl⟩

/-- **The word of all ones** stands for the positive multiples of `M`. -/
theorem eq_max_iff (h : OnesRep M n x) (hM : 0 < M) : x = M ↔ 0 < n ∧ M ∣ n := by
  constructor
  · rintro rfl
    refine ⟨Nat.pos_of_ne_zero fun hn => hM.ne' (h.eq_zero_iff.mpr hn), ?_⟩
    exact (Nat.modEq_zero_iff_dvd).mp (h.modEq.symm.trans (Nat.modEq_zero_iff_dvd.mpr dvd_rfl))
  · rintro ⟨hpos, hdvd⟩
    have hx : M ∣ x :=
      Nat.modEq_zero_iff_dvd.mp (h.modEq.trans (Nat.modEq_zero_iff_dvd.mpr hdvd))
    have hne : 0 < x := Nat.pos_of_ne_zero fun hx => hpos.ne' (h.eq_zero_iff.mp hx)
    exact le_antisymm h.le (Nat.le_of_dvd hne hx)

end OnesRep

/-- The sum of two words, with the carry going around. -/
def onesAdd (M x y : ℕ) : ℕ := if x + y ≤ M then x + y else x + y - M

theorem OnesRep.add (hx : OnesRep M n x) (hy : y ≤ M) : OnesRep M (n + y) (onesAdd M x y) := by
  have hle := hx.le
  have hzero := hx.eq_zero_iff
  have hsum : x + y ≡ n + y [MOD M] := hx.modEq.add_right y
  unfold onesAdd
  split
  · next hfits => exact ⟨hfits, hsum, by omega⟩
  · next hcarry =>
    refine ⟨by omega, ?_, by omega⟩
    have hback : x + y - M + M = x + y := by omega
    exact Nat.ModEq.trans (Nat.add_modEq_right.symm.trans (by rw [hback])) hsum

/-- The one's complement sum of some words. -/
def onesSum (M : ℕ) (ws : List ℕ) : ℕ := ws.foldl (onesAdd M) 0

theorem onesRep_foldl (ws : List ℕ) (hws : ∀ w ∈ ws, w ≤ M) (hx : OnesRep M n x) :
    OnesRep M (n + ws.sum) (ws.foldl (onesAdd M) x) := by
  induction ws generalizing n x with
  | nil => exact hx
  | cons w ws ih =>
    rw [List.forall_mem_cons] at hws
    rw [List.foldl_cons, List.sum_cons, ← Nat.add_assoc]
    exact ih hws.2 (hx.add hws.1)

/-- The sum of words stands for the sum of the numbers. -/
theorem onesRep_onesSum (ws : List ℕ) (hws : ∀ w ∈ ws, w ≤ M) :
    OnesRep M ws.sum (onesSum M ws) := by
  have h := onesRep_foldl ws hws (OnesRep.self (Nat.zero_le M))
  rwa [Nat.zero_add] at h

end Foundation
