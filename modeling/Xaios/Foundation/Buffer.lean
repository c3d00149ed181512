import Mathlib.Data.List.GetD
import Mathlib.Tactic.Common

/-!
# Buffers

A buffer is memory from an address on: a byte at every index. Bytes are stored at an
index and loaded from one; a buffer keeps what was there before at all other indices, so
a load that is longer than the last store shows what an earlier one left.
-/

namespace Foundation

open List

/-- Memory from an address on. -/
abbrev Buffer := ℕ → UInt8

namespace Buffer

variable (buffer : Buffer) (k n : ℕ) (bytes : List UInt8)

/-- The bytes from an index on. -/
def load : List UInt8 := (range n).map fun i => buffer (k + i)

/-- Bytes are copied to an index. -/
def store : Buffer := fun i =>
  if k ≤ i ∧ i < k + bytes.length then bytes.getD (i - k) 0 else buffer i

@[simp] theorem length_load : (buffer.load k n).length = n := by
  rw [load, length_map, length_range]

variable {n bytes} in
/-- **A load from what was stored.** -/
theorem load_store {j : ℕ} (h : j + n ≤ bytes.length) :
    (buffer.store k bytes).load (k + j) n = (bytes.drop j).take n := by
  apply ext_getElem
  · rw [length_load, length_take, length_drop]
    omega
  · intro i hi _
    rw [length_load] at hi
    have hstored : k ≤ k + j + i ∧ k + j + i < k + bytes.length := by omega
    have hsub : k + j + i - k = j + i := by omega
    simp only [load, store, getElem_map, getElem_range, getElem_take,
      getElem_drop, if_pos hstored, hsub]
    exact (getElem_eq_getD 0).symm

/-- What was stored is loaded. -/
theorem load_store_self : (buffer.store k bytes).load k bytes.length = bytes := by
  have h := buffer.load_store k (Nat.le_of_eq (Nat.zero_add bytes.length))
  rwa [drop_zero, take_length] at h

/-- Bytes are stored behind those that were stored before. -/
theorem store_store (more : List UInt8) :
    (buffer.store k bytes).store (k + bytes.length) more = buffer.store k (bytes ++ more) := by
  funext i
  unfold store
  rw [length_append]
  rcases Nat.lt_or_ge i (k + bytes.length) with hi | hi
  · rw [if_neg (by omega)]
    by_cases hk : k ≤ i
    · rw [if_pos ⟨hk, hi⟩, if_pos ⟨hk, by omega⟩, getD_append _ _ _ _ (by omega)]
    · rw [if_neg (by omega), if_neg (by omega)]
  · by_cases hend : i < k + bytes.length + more.length
    · rw [if_pos ⟨hi, hend⟩, if_pos (by omega), getD_append_right _ _ _ _ (by omega)]
      congr 1
      omega
    · rw [if_neg (by omega), if_neg (by omega), if_neg (by omega)]

end Buffer

end Foundation
