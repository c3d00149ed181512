import Mathlib.Algebra.Group.Fin.Basic
import Mathlib.Tactic.Abel

/-!
# Ring buffers

A ring of `n` cells with a write position, a read position and a count. Positions
are elements of `Fin n`, so that they wrap around by themselves. The count says how
far the write position is ahead, and tells a full ring from an empty one.

`Foundation.Ring.contents` is what the ring holds, oldest first. It is a bounded
queue:

* `Foundation.Ring.contents_write`: writing appends as much as there is room for;
* `Foundation.Ring.read_eq` and `Foundation.Ring.contents_read`: reading takes from
  the front;
* `Foundation.Ring.contents_push`: storing in any case keeps the newest values.
-/

namespace Foundation

open List

/-- A ring of `n` cells. The write position is ahead of the read position by the count. -/
@[ext] structure Ring (α : Type) (n : ℕ) [NeZero n] where
  cells : Fin n → α
  head : Fin n
  tail : Fin n
  count : ℕ
  count_le : count ≤ n
  head_eq : head = tail + Fin.ofNat n count

namespace Ring

variable {α : Type} {n : ℕ} [NeZero n]

/-! ### Distances on the ring -/

theorem ofNat_succ (k : ℕ) : Fin.ofNat n (k + 1) = Fin.ofNat n k + 1 := by
  apply Fin.ext
  simp [Fin.val_add]

theorem ofNat_add_ofNat (j k : ℕ) : Fin.ofNat n (j + k) = Fin.ofNat n j + Fin.ofNat n k := by
  apply Fin.ext
  simp [Fin.val_add]

/-- From the next position on, the distance to any other cell is one less. -/
theorem val_sub_succ {p h : Fin n} (hne : p ≠ h) : (p - (h + 1)).val + 1 = (p - h).val := by
  have hd : p - h ≠ 0 := sub_ne_zero.mpr hne
  have hpos : (p - h).val ≠ 0 := fun hv => hd (Fin.ext hv)
  rw [← sub_sub, Fin.val_sub_one_of_ne_zero hd]
  omega

/-- From the next position on, the cell itself is the farthest. -/
theorem val_sub_succ_self (h : Fin n) : (h - (h + 1)).val + 1 = n := by
  rw [sub_add_cancel_left]
  obtain ⟨m, rfl⟩ := Nat.exists_eq_succ_of_ne_zero (NeZero.ne n)
  exact congrArg (· + 1) Fin.coe_neg_one

/-- The distance between two cells that are given by their distance from a third. -/
theorem val_add_sub_add (t : Fin n) {j k : ℕ} (hj : j < n) (hk : k ≤ n) :
    (t + Fin.ofNat n j - (t + Fin.ofNat n k)).val = if k ≤ j then j - k else n + j - k := by
  rw [add_sub_add_left_eq_sub, Fin.sub_def, Fin.val_ofNat, Fin.val_ofNat, Nat.mod_eq_of_lt hj]
  dsimp only
  rcases Nat.lt_or_ge k n with hlt | hge
  · rw [Nat.mod_eq_of_lt hlt]
    split
    · rw [Nat.mod_eq_sub_mod (by omega), Nat.mod_eq_of_lt (by omega)]
      omega
    · rw [Nat.mod_eq_of_lt (by omega)]
      omega
  · obtain rfl : k = n := by omega
    rw [Nat.mod_self, if_neg (by omega), Nat.sub_zero, Nat.add_mod_left, Nat.mod_eq_of_lt hj]
    omega

/-! ### Contents -/

/-- What the ring holds, oldest first. -/
def contents (r : Ring α n) : List α :=
  (range r.count).map fun j => r.cells (r.tail + Fin.ofNat n j)

variable (r : Ring α n)

@[simp] theorem length_contents : r.contents.length = r.count := by
  simp [contents]

/-- How many cells are free. -/
def available (r : Ring α n) : ℕ := n - r.count

/-- A ring that holds nothing, with given cells and both positions at the first of them. -/
def empty (cells : Fin n → α) : Ring α n where
  cells := cells
  head := 0
  tail := 0
  count := 0
  count_le := Nat.zero_le n
  head_eq := by simp

/-! ### Writing -/

/-- Values stored one behind the other from a position on: the cells, and the position
behind the last. -/
def writeLoop : (Fin n → α) → Fin n → List α → (Fin n → α) × Fin n
  | cells, head, [] => (cells, head)
  | cells, head, x :: xs => writeLoop (Function.update cells head x) (head + 1) xs

theorem writeLoop_head (cells : Fin n → α) (head : Fin n) (xs : List α) :
    (writeLoop cells head xs).2 = head + Fin.ofNat n xs.length := by
  induction xs generalizing cells head with
  | nil => simp [writeLoop]
  | cons x xs ih =>
    rw [writeLoop, ih, length_cons, ofNat_succ]
    abel

/-- **What a cell holds after the loop**: the value at its distance from the position, if
the loop came that far. -/
theorem writeLoop_cells (cells : Fin n → α) (head : Fin n) {xs : List α} (hlen : xs.length ≤ n)
    (p : Fin n) :
    (writeLoop cells head xs).1 p = (xs[(p - head).val]?).getD (cells p) := by
  induction xs generalizing cells head with
  | nil => simp [writeLoop]
  | cons x xs ih =>
    rw [length_cons] at hlen
    rw [writeLoop, ih _ _ (by omega)]
    rcases eq_or_ne p head with rfl | hne
    · -- the loop does not come around to the cell again
      have hfar := val_sub_succ_self p
      rw [getElem?_eq_none (by omega), sub_self, Function.update_self]
      rfl
    · rw [← val_sub_succ hne, getElem?_cons_succ, Function.update_of_ne hne]

/-- The ring after as many values were stored as there is room for. -/
def write (r : Ring α n) (xs : List α) : Ring α n where
  cells := (writeLoop r.cells r.head (xs.take r.available)).1
  head := (writeLoop r.cells r.head (xs.take r.available)).2
  tail := r.tail
  count := r.count + min xs.length r.available
  count_le := by
    have := r.count_le
    unfold available
    omega
  head_eq := by
    rw [writeLoop_head, r.head_eq, length_take, Nat.min_comm, add_assoc, ← ofNat_add_ofNat]

@[simp] theorem count_write (xs : List α) :
    (r.write xs).count = r.count + min xs.length r.available := rfl

/-- **Writing appends what there is room for.** -/
theorem contents_write (xs : List α) :
    (r.write xs).contents = r.contents ++ xs.take r.available := by
  have hroom : r.count + r.available = n := by
    have := r.count_le
    unfold available
    omega
  have hlen : (xs.take r.available).length ≤ n := by
    rw [length_take]
    omega
  refine ext_getElem (by simp [Nat.min_comm]) fun j hj hj' => ?_
  rw [length_contents, count_write] at hj
  have hcell : (r.write xs).contents[j] = (r.write xs).cells (r.tail + Fin.ofNat n j) := by
    simp [contents, write]
  have hdist := val_add_sub_add r.tail (by omega : j < n) r.count_le
  rw [hcell]
  change (writeLoop r.cells r.head (xs.take r.available)).1 _ = _
  rw [writeLoop_cells _ _ hlen, r.head_eq, hdist]
  rcases Nat.lt_or_ge j r.count with hlt | hge
  · -- an old value: the loop does not come so far
    rw [if_neg (by omega), getElem?_eq_none (by rw [length_take]; omega),
      getElem_append_left (by simpa using hlt)]
    simp [contents]
  · rw [if_pos hge, getElem_append_right (by simpa using hge),
      getElem?_eq_getElem (by rw [length_take]; omega)]
    simp

/-! ### Reading -/

/-- The ring after up to `len` values were taken, and these values. -/
def read (r : Ring α n) (len : ℕ) : List α × Ring α n :=
  ((range (min len r.count)).map fun j => r.cells (r.tail + Fin.ofNat n j),
    { cells := r.cells
      head := r.head
      tail := r.tail + Fin.ofNat n (min len r.count)
      count := r.count - min len r.count
      count_le := le_trans (Nat.sub_le _ _) r.count_le
      head_eq := by
        rw [r.head_eq, add_assoc, ← ofNat_add_ofNat]
        congr 2
        omega })

/-- **Reading takes from the front.** -/
theorem read_eq (len : ℕ) : (r.read len).1 = r.contents.take len := by
  rw [read, contents, ← map_take, take_range]

/-- **The rest stays.** -/
theorem contents_read (len : ℕ) : (r.read len).2.contents = r.contents.drop len := by
  refine ext_getElem (by simp [read]; omega) fun j hj hj' => ?_
  have hlt : len < r.count := by
    rw [length_drop, length_contents] at hj'
    omega
  simp only [contents, read, getElem_map, getElem_range, getElem_drop]
  rw [Nat.min_eq_left hlt.le, ofNat_add_ofNat, add_assoc]

/-! ### Overwriting -/

/-- The last `n` values of a list. -/
def newest (n : ℕ) (xs : List α) : List α := xs.drop (xs.length - n)

omit [NeZero n] in
theorem newest_newest (xs ys : List α) : newest n (newest n xs ++ ys) = newest n (xs ++ ys) := by
  have hsum : xs.length - n + (xs.length - (xs.length - n) + ys.length - n) =
      xs.length + ys.length - n := by omega
  simp only [newest, length_append, length_drop]
  rw [← drop_append_of_le_length (Nat.sub_le _ _), drop_drop, hsum]

/-- The ring after a value was stored, in place of the oldest one if it was full. -/
def push (r : Ring α n) (x : α) : Ring α n := (if n ≤ r.count then (r.read 1).2 else r).write [x]

/-- **A ring that overwrites keeps the newest values.** -/
theorem contents_push (x : α) : (r.push x).contents = newest n (r.contents ++ [x]) := by
  have hle := r.count_le
  have hpos := Nat.pos_of_ne_zero (NeZero.ne n)
  have hdrop : newest n (r.contents ++ [x]) = r.contents.drop (r.count + 1 - n) ++ [x] := by
    rw [newest, length_append, length_contents, length_singleton,
      drop_append_of_le_length (by rw [length_contents]; omega)]
  have hroom : 1 ≤ (if n ≤ r.count then (r.read 1).2 else r).available := by
    unfold available
    split
    · simp only [read]
      omega
    · omega
  rw [push, contents_write, take_of_length_le hroom, hdrop]
  split
  · rw [contents_read, show r.count + 1 - n = 1 by omega]
  · rw [show r.count + 1 - n = 0 by omega, drop_zero]

end Ring

end Foundation
