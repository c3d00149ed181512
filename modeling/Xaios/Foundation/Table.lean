import Mathlib.Data.List.FinRange

/-!
# Searching a table

The loop `for (i = 0; i < n; ++i) if (p(table[i])) return i;` is `List.find?` over
`List.finRange`. It answers the least slot with the property
(`Foundation.find?_finRange_eq_some_iff`). When one slot gets the property, the answer is
the old one or that slot (`Foundation.find?_finRange_insert`).

The slots in which two tables differ are a filter; when there is only one,
`Foundation.filter_finRange_eq_singleton` names it.
-/

namespace Foundation

open List

variable {n : ℕ} {p q : Fin n → Bool} {i j : Fin n}

/-- **The search answers the first slot with the property.** -/
theorem find?_finRange_eq_some_iff :
    (finRange n).find? p = some i ↔ p i = true ∧ ∀ k, k < i → p k = false := by
  rw [find?_eq_some_iff_getElem]
  constructor
  · rintro ⟨hp, m, hm, hget, hlt⟩
    refine ⟨hp, fun k hk => ?_⟩
    rw [getElem_finRange] at hget
    subst hget
    simpa using hlt k hk
  · rintro ⟨hp, hlt⟩
    refine ⟨hp, i, by simp, by simp, fun k hk => ?_⟩
    simpa using hlt ⟨k, hk.trans i.2⟩ hk

theorem find?_finRange_eq_none_iff :
    (finRange n).find? p = none ↔ ∀ k, p k = false := by
  simp [find?_eq_none]

/-- One more slot has the property. -/
theorem find?_finRange_insert (hne : ∀ k, k ≠ j → q k = p k) (hj : p j = false)
    (hq : q j = true) :
    (finRange n).find? q = (finRange n).find? p ∨
      (finRange n).find? q = some j := by
  rcases hp : (finRange n).find? p with _ | i
  · right
    refine find?_finRange_eq_some_iff.mpr ⟨hq, fun k hk => ?_⟩
    rw [hne k hk.ne]
    exact find?_finRange_eq_none_iff.mp hp k
  · obtain ⟨hi, hlt⟩ := find?_finRange_eq_some_iff.mp hp
    have hij : i ≠ j := by
      rintro rfl
      rw [hi] at hj
      cases hj
    rcases lt_or_gt_of_ne hij with hlt' | hgt
    · left
      refine find?_finRange_eq_some_iff.mpr ⟨(hne i hij).trans hi, fun k hk => ?_⟩
      rw [hne k (hk.trans hlt').ne]
      exact hlt k hk
    · right
      refine find?_finRange_eq_some_iff.mpr ⟨hq, fun k hk => ?_⟩
      rw [hne k hk.ne]
      exact hlt k (hk.trans hgt)

/-- A property that only one slot has. -/
theorem filter_finRange_eq_singleton (hi : p i = true) (hne : ∀ k, k ≠ i → p k = false) :
    (finRange n).filter p = [i] := by
  have hp : p = fun k => decide (k = i) := by
    funext k
    rcases eq_or_ne k i with rfl | h
    · rw [hi, decide_eq_true rfl]
    · rw [hne k h, decide_eq_false h]
  rw [hp, filter_eq, count_eq_one_of_mem (nodup_finRange n) (mem_finRange i)]
  rfl

end Foundation
