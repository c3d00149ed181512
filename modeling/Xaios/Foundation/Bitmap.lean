import Mathlib.Data.Finset.Card

/-!
# Bitmaps

Bitmaps in words of 64 bits, and the search for a set bit that goes over the words in a
circle from a start and takes the lowest set bit of the first word that has one below the
limit.

The search is sound and complete: what it answers is a set bit below the limit
(`Foundation.Bitmap.nextFit_sound`), and it answers nothing only if there is none
(`Foundation.Bitmap.nextFit_complete`), wherever it starts.
-/

namespace Foundation

open Function List

/-- Words of 64 bits. -/
abbrev Bitmap : Type := ℕ → BitVec 64

namespace Bitmap

/-- A bit. -/
def test (b : Bitmap) (i : ℕ) : Bool := (b (i / 64)).getLsbD (i % 64)

/-- A bit set. -/
def set (b : Bitmap) (i : ℕ) : Bitmap :=
  update b (i / 64) (b (i / 64) ||| 1#64 <<< (i % 64))

/-- A bit cleared. -/
def clear (b : Bitmap) (i : ℕ) : Bitmap :=
  update b (i / 64) (b (i / 64) &&& ~~~(1#64 <<< (i % 64)))

/-- The lowest set bit of a word. -/
def lowestBit (w : BitVec 64) : Option ℕ := (range 64).find? fun k => w.getLsbD k

/-- One word of the search. -/
def probe (b : Bitmap) (limit word : ℕ) : Option ℕ :=
  match lowestBit (b word) with
  | none => none
  | some k => if limit ≤ word * 64 + k then none else some (word * 64 + k)

/-- The search over the words in a circle. -/
def nextFit (b : Bitmap) (start words limit : ℕ) : Option ℕ :=
  (range words).findSome? fun i => b.probe limit ((start + i) % words)

variable {b : Bitmap} {i j limit word start words : ℕ}

theorem getLsbD_one_shiftLeft {k m : ℕ} (hk : k < 64) :
    (1#64 <<< m).getLsbD k = decide (k = m) := by
  rw [BitVec.getLsbD_shiftLeft, BitVec.getLsbD_one]
  by_cases h : k = m
  · simp [h, h ▸ hk]
  · rcases Nat.lt_or_gt_of_ne h with hlt | hgt
    · simp [h, hlt]
    · have : k - m ≠ 0 := by omega
      simp [h, this]

theorem test_set (b : Bitmap) (i j : ℕ) : (b.set i).test j = (decide (j = i) || b.test j) := by
  have hj : j % 64 < 64 := Nat.mod_lt j (by decide)
  rw [test, set, test]
  by_cases hword : j / 64 = i / 64
  · rw [hword, update_self, BitVec.getLsbD_or, getLsbD_one_shiftLeft hj, Bool.or_comm]
    congr 1
    exact decide_eq_decide.mpr (by omega)
  · have hne : j ≠ i := fun h => hword (by rw [h])
    rw [update_of_ne hword, decide_eq_false hne, Bool.false_or]

theorem test_clear (b : Bitmap) (i j : ℕ) :
    (b.clear i).test j = (!decide (j = i) && b.test j) := by
  have hj : j % 64 < 64 := Nat.mod_lt j (by decide)
  rw [test, clear, test]
  by_cases hword : j / 64 = i / 64
  · rw [hword, update_self, BitVec.getLsbD_and, BitVec.getLsbD_not,
      getLsbD_one_shiftLeft hj, decide_eq_true hj, Bool.true_and, Bool.and_comm]
    congr 2
    exact decide_eq_decide.mpr (by omega)
  · have hne : j ≠ i := fun h => hword (by rw [h])
    rw [update_of_ne hword, decide_eq_false hne, Bool.not_false, Bool.true_and]

theorem probe_sound (h : b.probe limit word = some i) : b.test i = true ∧ i < limit := by
  rw [probe] at h
  split at h
  · cases h
  · next k hk =>
    have hlow := find?_some hk
    have hlt := mem_range.mp (mem_of_find?_eq_some hk)
    split at h
    · cases h
    · next hlimit =>
      cases h
      have hdiv : (word * 64 + k) / 64 = word := by omega
      have hmod : (word * 64 + k) % 64 = k := by omega
      rw [test, hdiv, hmod]
      exact ⟨hlow, Nat.lt_of_not_le hlimit⟩

theorem probe_complete (h : b.probe limit (i / 64) = none) (hi : i < limit) : b.test i = false := by
  by_contra htest
  rw [Bool.not_eq_false] at htest
  have hmod : i % 64 < 64 := Nat.mod_lt i (by decide)
  rw [probe] at h
  split at h
  · next hnone =>
    have := find?_eq_none.mp hnone (i % 64) (mem_range.mpr hmod)
    exact this htest
  · next k hk =>
    -- the lowest set bit is not above this one
    have hle : k ≤ i % 64 := by
      obtain ⟨-, as, bs, happ, has⟩ := find?_eq_some_iff_append.mp hk
      by_contra hgt
      have hmem : i % 64 ∈ as := by
        have hsorted : (as ++ k :: bs).Pairwise (· < ·) := happ ▸ pairwise_lt_range
        have hin : i % 64 ∈ as ++ k :: bs := happ ▸ mem_range.mpr hmod
        rcases mem_append.mp hin with hin | hin
        · exact hin
        · rcases mem_cons.mp hin with heq | hin
          · omega
          · have := rel_of_pairwise_cons (pairwise_append.mp hsorted).2.1 hin
            omega
      have := has _ hmem
      rw [test] at htest
      rw [htest] at this
      cases this
    split at h
    · next hlimit => omega
    · cases h

/-- **What the search answers is a set bit below the limit.** -/
theorem nextFit_sound (h : b.nextFit start words limit = some i) :
    b.test i = true ∧ i < limit := by
  obtain ⟨-, k, -, -, hk, -⟩ := findSome?_eq_some_iff.mp h
  exact probe_sound hk

/-- Going round from anywhere visits every place. -/
theorem exists_add_mod_eq (start : ℕ) (hword : word < words) :
    ∃ k < words, (start + k) % words = word := by
  have hpos : 0 < words := Nat.zero_lt_of_lt hword
  have hlt := Nat.mod_lt start hpos
  refine ⟨(word + (words - start % words)) % words, Nat.mod_lt _ hpos, ?_⟩
  have hsum : start + (word + (words - start % words)) = word + words * (start / words + 1) := by
    have hdiv := Nat.div_add_mod start words
    rw [Nat.mul_add_one]
    omega
  rw [Nat.add_mod_mod, hsum, Nat.add_mul_mod_self_left, Nat.mod_eq_of_lt hword]

/-- **The search answers nothing only if there is no set bit**: going round it visits every
word. -/
theorem nextFit_complete (h : b.nextFit start words limit = none) (hwords : limit ≤ words * 64)
    (hi : i < limit) : b.test i = false := by
  have hword : i / 64 < words := by omega
  rw [nextFit, findSome?_eq_none_iff] at h
  obtain ⟨k, hk, hvisits⟩ := exists_add_mod_eq start hword
  have hnone := h k (mem_range.mpr hk)
  rw [hvisits] at hnone
  exact probe_complete hnone hi

end Bitmap

end Foundation
