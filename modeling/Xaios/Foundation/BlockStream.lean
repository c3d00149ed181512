import Mathlib.Algebra.Ring.Nat
import Mathlib.Data.List.Basic

/-!
# Consuming a stream block by block

A state that is updated with blocks of a fixed size, as hash functions are. What of a
string does not fill a block is left over, and waits for what comes next.

`Foundation.BlockHash.absorb` takes in all whole blocks of a string and answers the
state and the rest. A string that arrives in two parts is absorbed as if it had come in
one, if the rest of the first part is put before the second
(`Foundation.BlockHash.absorb_append`); so how a string is cut does not matter.
-/

namespace Foundation

open List

/-- A way to update a state with a block. -/
structure BlockHash (α σ : Type) where
  /-- The number of elements of a block. -/
  size : ℕ
  size_pos : 0 < size
  /-- The state after one more block. -/
  compress : σ → List α → σ

namespace BlockHash

variable {α σ : Type} (H : BlockHash α σ)

/-- The state after the first blocks of a string. -/
def blocks : ℕ → σ → List α → σ
  | 0, s, _ => s
  | n + 1, s, xs => blocks n (H.compress s (xs.take H.size)) (xs.drop H.size)

/-- The state after all whole blocks of a string, and the rest of it. -/
def absorb (s : σ) (xs : List α) : σ × List α :=
  (H.blocks (xs.length / H.size) s xs, xs.drop (H.size * (xs.length / H.size)))

theorem absorb_of_lt {s : σ} {xs : List α} (h : xs.length < H.size) : H.absorb s xs = (s, xs) := by
  rw [absorb, Nat.div_eq_of_lt h]
  rfl

theorem absorb_of_le {s : σ} {xs : List α} (h : H.size ≤ xs.length) :
    H.absorb s xs = H.absorb (H.compress s (xs.take H.size)) (xs.drop H.size) := by
  have hdiv : xs.length / H.size = (xs.drop H.size).length / H.size + 1 := by
    rw [length_drop, Nat.div_eq_sub_div H.size_pos h]
  rw [absorb, hdiv, absorb, drop_drop, Nat.mul_succ, Nat.add_comm (H.size * _)]
  rfl

/-- A whole block and what follows it. -/
theorem absorb_block {s : σ} {b : List α} (hb : b.length = H.size) (xs : List α) :
    H.absorb s (b ++ xs) = H.absorb (H.compress s b) xs := by
  rw [absorb_of_le H (by rw [length_append]; omega), ← hb, take_left', drop_left'] <;>
    rfl

@[simp] theorem absorb_nil (s : σ) : H.absorb s [] = (s, []) := H.absorb_of_lt H.size_pos

theorem absorb_single {s : σ} {b : List α} (hb : b.length = H.size) :
    H.absorb s b = (H.compress s b, []) := by
  simpa using H.absorb_block hb []

/-- What has been left over becomes a block. -/
theorem absorb_fill {s : σ} {rest xs : List α} (hrest : rest.length ≤ H.size)
    (hxs : H.size - rest.length ≤ xs.length) :
    H.absorb s (rest ++ xs) = H.absorb (H.compress s (rest ++ xs.take (H.size - rest.length)))
      (xs.drop (H.size - rest.length)) := by
  rw [H.absorb_of_le (by rw [length_append]; omega), take_append, drop_append,
    take_of_length_le hrest, drop_of_length_le hrest, nil_append]

theorem length_absorb (s : σ) (xs : List α) : (H.absorb s xs).2.length = xs.length % H.size := by
  rw [absorb, length_drop, Nat.mod_eq_sub_mul_div]

/-- **How a string is cut does not matter.** -/
theorem absorb_append (s : σ) (xs ys : List α) :
    H.absorb s (xs ++ ys) = H.absorb (H.absorb s xs).1 ((H.absorb s xs).2 ++ ys) := by
  -- on the number of elements: a whole block comes off both sides
  induction hn : xs.length using Nat.strongRecOn generalizing s xs with
  | ind n ih =>
    rcases lt_or_ge xs.length H.size with hlt | hle
    · rw [H.absorb_of_lt hlt]
    · have hpos := H.size_pos
      obtain ⟨b, zs, rfl, hb⟩ : ∃ b zs, xs = b ++ zs ∧ b.length = H.size :=
        ⟨xs.take H.size, xs.drop H.size, (take_append_drop _ _).symm,
          length_take_of_le hle⟩
      have hlen : zs.length < n := by
        rw [← hn, length_append]
        omega
      rw [append_assoc, H.absorb_block hb, H.absorb_block hb]
      exact ih _ hlen _ _ rfl

/-- **What has taken in a string in pieces** has taken in the whole. -/
theorem foldl_pieces {τ : Type} (Holds : τ → List α → Prop) {update : τ → List α → τ} {t : τ}
    {m : List α} (hstep : ∀ t m piece, Holds t m → Holds (update t piece) (m ++ piece))
    (h : Holds t m) (pieces : List (List α)) :
    Holds (pieces.foldl update t) (m ++ pieces.flatten) := by
  induction pieces generalizing t m with
  | nil => simpa using h
  | cons piece pieces ih =>
    rw [flatten_cons, ← append_assoc]
    exact ih (hstep t m piece h)

end BlockHash

end Foundation
