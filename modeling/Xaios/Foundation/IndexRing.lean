import Mathlib.Algebra.Ring.Nat
import Mathlib.Data.Nat.ModEq

/-!
# Rings with free-running indices

Two sides that share a ring of `n` cells count what they have written and read with
16-bit numbers that are never reset: a number is a position of the ring modulo `n`. As long
as `n` divides 2¹⁶ the position is the one of the count itself (`Foundation.slot_ofNat`), and
as long as no more than `n` cells are in use, what is between the two counts is a queue
(`Foundation.window_push`, `Foundation.window_pop`).
-/

namespace Foundation

open List

variable {n : ℕ} [NeZero n] {α : Type}

/-- The cell of a count. -/
def cell (n : ℕ) [NeZero n] (k : ℕ) : Fin n := Fin.ofNat n k

/-- The cell of a free-running index. -/
def slot (n : ℕ) [NeZero n] (i : UInt16) : Fin n := Fin.ofNat n i.toNat

/-- The index of a count is at the count's cell. -/
theorem slot_ofNat (h : n ∣ 2 ^ 16) (k : ℕ) : slot n (UInt16.ofNat k) = cell n k := by
  apply Fin.ext
  simp only [slot, cell, Fin.val_ofNat, UInt16.toNat_ofNat']
  exact Nat.mod_mod_of_dvd k h

theorem cell_eq_iff {j k : ℕ} : cell n j = cell n k ↔ j % n = k % n := by
  rw [cell, cell, Fin.ext_iff, Fin.val_ofNat, Fin.val_ofNat]

/-- Counts that are less than a turn apart have different cells. -/
theorem cell_ne {j k : ℕ} (hlt : j < k) (hnear : k < j + n) : cell n j ≠ cell n k := by
  rw [Ne, cell_eq_iff]
  intro h
  have hdvd : n ∣ k - j := (Nat.modEq_iff_dvd' hlt.le).mp h
  exact absurd (Nat.le_of_dvd (by omega) hdvd) (by omega)

/-- What is in the cells between two counts. -/
def window (ring : Fin n → α) (start count : ℕ) : List α :=
  (range count).map fun j => ring (cell n (start + j))

@[simp] theorem length_window (ring : Fin n → α) (start count : ℕ) :
    (window ring start count).length = count := by
  rw [window, length_map, length_range]

/-- A window from an index on is one from its count on. -/
theorem window_toNat (h : n ∣ 2 ^ 16) (ring : Fin n → α) (start count : ℕ) :
    window ring (UInt16.ofNat start).toNat count = window ring start count := by
  refine map_congr_left fun j _ => congrArg ring (cell_eq_iff.mpr ?_)
  rw [UInt16.toNat_ofNat', Nat.add_mod, Nat.mod_mod_of_dvd start h, ← Nat.add_mod]

/-- The distance between two indices is the one of their counts. -/
theorem toNat_ofNat_sub {j k : ℕ} (hle : j ≤ k) (hlt : k - j < 2 ^ 16) :
    (UInt16.ofNat k - UInt16.ofNat j).toNat = k - j := by
  rw [← UInt16.ofNat_sub hle, UInt16.toNat_ofNat', Nat.mod_eq_of_lt hlt]

theorem ofNat_eq_iff {j k : ℕ} (hle : j ≤ k) (hlt : k - j < 2 ^ 16) :
    UInt16.ofNat j = UInt16.ofNat k ↔ j = k := by
  constructor
  · intro h
    have hdist := toNat_ofNat_sub hle hlt
    rw [h, UInt16.sub_self] at hdist
    change 0 = k - j at hdist
    omega
  · exact congrArg _

/-- The first cell is read. -/
theorem window_pop (ring : Fin n → α) (start count : ℕ) :
    window ring start (count + 1) = ring (cell n start) :: window ring (start + 1) count := by
  rw [window, range_succ_eq_map, map_cons, map_map, Nat.add_zero]
  refine congrArg _ (map_congr_left fun j _ => ?_)
  rw [Function.comp_apply, Nat.succ_eq_add_one, Nat.add_comm j, Nat.add_assoc]

/-- The next cell is written. -/
theorem window_push (ring : Fin n → α) (start count : ℕ) (h : count < n) (x : α) :
    window (Function.update ring (cell n (start + count)) x) start (count + 1) =
      window ring start count ++ [x] := by
  rw [window, range_succ, map_append, map_singleton, Function.update_self]
  refine congrArg (· ++ [x]) (map_congr_left fun j hj => ?_)
  have hlt := mem_range.mp hj
  exact Function.update_of_ne (cell_ne (by omega) (by omega)) _ _

end Foundation
