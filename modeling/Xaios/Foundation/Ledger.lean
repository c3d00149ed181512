import Mathlib.Algebra.BigOperators.Fin

/-!
# Ledgers

A fixed number of accounts, each holding a list of resources. What all accounts
hold together is `Foundation.total`, a list up to order. The main rule is
`Foundation.total_update_perm`: replacing what one account holds exchanges the
two lists in the total and moves nothing else. Accounts of two lists are two
ledgers (`Foundation.total_append_perm`).
-/

namespace Foundation

open Function List Finset

variable {α : Type} [DecidableEq α] {n : ℕ}

/-- What all accounts hold. -/
def total (f : Fin n → List α) : List α := (finRange n).flatMap f

omit [DecidableEq α] in
theorem mem_total {f : Fin n → List α} {a : α} : a ∈ total f ↔ ∃ i, a ∈ f i := by
  simp [total]

theorem count_total (f : Fin n → List α) (a : α) : (total f).count a = ∑ i, (f i).count a := by
  rw [total, count_flatMap, Fin.sum_univ_def]
  rfl

omit [DecidableEq α] in
theorem length_total (f : Fin n → List α) : (total f).length = ∑ i, (f i).length := by
  rw [total, length_flatMap, Fin.sum_univ_def]

/-- Two lists in each account. -/
theorem total_append_perm (f g : Fin n → List α) :
    (total fun i => f i ++ g i).Perm (total f ++ total g) := by
  rw [perm_iff_count]
  intro a
  rw [count_append, count_total, count_total, count_total, ← sum_add_distrib]
  exact sum_congr rfl fun i _ => count_append

/-- A sum over a family with one member replaced. -/
theorem sum_update_add (f : Fin n → ℕ) (i : Fin n) (x : ℕ) :
    (∑ j, update f i x j) + f i = (∑ j, f j) + x := by
  rw [sum_update_of_mem (mem_univ i),
    ← add_sum_erase Finset.univ f (mem_univ i), sdiff_singleton_eq_erase]
  omega

/-- **Replacing what one account holds exchanges the two lists in the total.** -/
theorem total_update_perm (f : Fin n → List α) (i : Fin n) (l : List α) :
    (total (update f i l) ++ f i).Perm (total f ++ l) := by
  rw [perm_iff_count]
  intro a
  have hcongr : ∀ j, (update f i l j).count a =
      update (fun j => (f j).count a) i (l.count a) j := by
    intro j
    rcases eq_or_ne j i with rfl | hne
    · simp
    · simp [hne]
  rw [count_append, count_append, count_total, count_total,
    sum_congr rfl fun j _ => hcongr j, sum_update_add]

end Foundation
