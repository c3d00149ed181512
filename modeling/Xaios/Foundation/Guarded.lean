import Mathlib.Data.Nat.Notation
import Mathlib.Tactic.Common

/-!
# Guarded reading

Computations that stop with a fault when they read or write outside of their data, when a
subtraction of lengths would go below zero or when a loop does not end in its rounds. A
translation of a function into these operations that is shown to equal a pure value makes no
such step, whatever its input.

Inside the bounds the operations are the pure ones (`Foundation.fetch_eq`,
`Foundation.fetchRange_eq`, `Foundation.guardedSub_eq`, `Foundation.putRange_eq`), and outside
they stop (`Foundation.fetch_error`); a loop stops as soon as one of its rounds does
(`Foundation.foldlM_error`, `Foundation.mapM_error`).
-/

namespace Foundation

open List

/-- What can go wrong. -/
inductive Fault where
  /-- An index that is not below the length of the data. -/
  | outOfBounds (index length : ℕ)
  /-- A subtraction of a larger number. -/
  | underflow (a b : ℕ)
  /-- A loop that has used up its rounds. -/
  | unfinished
  deriving DecidableEq, Repr

/-- A computation that may stop with a fault. -/
abbrev Guarded (α : Type) : Type := Except Fault α

variable {α β : Type}

/-- `data[i]`. -/
def fetch (data : List α) (i : ℕ) : Guarded α :=
  match data[i]? with
  | some x => .ok x
  | none => .error (.outOfBounds i data.length)

/-- `data[offset]`, …, `data[offset + len - 1]`, one after the other. -/
def fetchRange (data : List α) (offset len : ℕ) : Guarded (List α) :=
  (range len).mapM fun k => fetch data (offset + k)

/-- `a - b` on unsigned numbers. -/
def guardedSub (a b : ℕ) : Guarded ℕ := if b ≤ a then .ok (a - b) else .error (.underflow a b)

@[simp] theorem ok_bind (a : α) (f : α → Guarded β) : ((.ok a : Guarded α) >>= f) = f a := rfl

variable {x : Guarded α}

/-- What is done first has not stopped. -/
theorem exists_of_bind {f : α → Guarded β} {b : β} (h : x >>= f = .ok b) :
    ∃ a, x = .ok a ∧ f a = .ok b := by
  cases x with
  | error e => cases h
  | ok a => exact ⟨a, rfl, h⟩

variable {data : List α}

variable {i : ℕ}

theorem fetch_eq (h : i < data.length) (d : α) : fetch data i = .ok (data.getD i d) := by
  rw [fetch, getD, getElem?_eq_getElem h]
  rfl

theorem guardedSub_eq {a b : ℕ} (h : b ≤ a) : guardedSub a b = .ok (a - b) := if_pos h

/-- An early return. -/
theorem ite_eq_ok {c : Prop} [Decidable c] {a b : α} (h : ¬c → x = .ok b) :
    (if c then pure a else x) = .ok (if c then a else b) := by
  split
  · rfl
  · next hc => exact h hc

variable {ι : Type} {l : List ι}

/-- A loop whose rounds all succeed. -/
theorem mapM_eq {f : ι → Guarded α} {g : ι → α} (h : ∀ i ∈ l, f i = .ok (g i)) :
    l.mapM f = .ok (l.map g) := by
  induction l with
  | nil => rfl
  | cons i l ih =>
    rw [mapM_cons, h i mem_cons_self, ok_bind,
      ih fun j hj => h j (mem_cons_of_mem i hj), ok_bind]
    rfl

variable {offset len : ℕ}

theorem fetchRange_eq (h : offset + len ≤ data.length) (d : α) :
    fetchRange data offset len = .ok ((range len).map fun k => data.getD (offset + k) d) := by
  refine mapM_eq fun k hk => fetch_eq ?_ d
  rw [mem_range] at hk
  omega

/-- A loop with an accumulator whose rounds all succeed. -/
theorem foldlM_eq {f : β → ι → Guarded β} {g : β → ι → β} (b : β)
    (h : ∀ b, ∀ i ∈ l, f b i = .ok (g b i)) : l.foldlM f b = .ok (l.foldl g b) := by
  induction l generalizing b with
  | nil => rfl
  | cons i l ih =>
    rw [foldlM_cons, h b i mem_cons_self, ok_bind, foldl_cons]
    exact ih _ fun b j hj => h b j (mem_cons_of_mem i hj)

/-! ### Faults -/

theorem fetch_error (h : data.length ≤ i) : fetch data i = .error (.outOfBounds i data.length) := by
  rw [fetch, getElem?_eq_none h]

/-- What is done first stops. -/
theorem bind_error (h : ∃ e, x = .error e) (f : α → Guarded β) : ∃ e, x >>= f = .error e := by
  obtain ⟨e, rfl⟩ := h
  exact ⟨e, rfl⟩

/-- What follows does not stop. -/
theorem bind_ok_iff {f : α → Guarded β} (hf : ∀ a, ∃ b, f a = .ok b) :
    (∃ b, x >>= f = .ok b) ↔ ∃ a, x = .ok a := by
  cases x with
  | error e =>
    refine iff_of_false ?_ ?_
    · rintro ⟨b, hb⟩
      cases hb
    · rintro ⟨a, ha⟩
      cases ha
  | ok a => exact iff_of_true (hf a) ⟨a, rfl⟩

/-- Two reads next to each other, not both inside of the data. -/
theorem fetch_pair_error (h : data.length < i + 2) (f : α → α → Guarded β) :
    ∃ e, (fetch data i >>= fun a => fetch data (i + 1) >>= f a) = .error e := by
  cases fetch data i with
  | error e => exact ⟨e, rfl⟩
  | ok a => exact bind_error ⟨_, fetch_error (by omega)⟩ _

/-- **A loop stops if one of its rounds does**, whatever was accumulated before. -/
theorem foldlM_error {f : β → ι → Guarded β} (h : ∃ i ∈ l, ∀ b, ∃ e, f b i = .error e) (b : β) :
    ∃ e, l.foldlM f b = .error e := by
  induction l generalizing b with
  | nil =>
    obtain ⟨i, hi, -⟩ := h
    cases hi
  | cons j l ih =>
    rw [foldlM_cons]
    obtain ⟨i, hi, herr⟩ := h
    rcases mem_cons.mp hi with rfl | hl
    · exact bind_error (herr b) _
    · cases hj : f b j with
      | error e => exact ⟨e, rfl⟩
      | ok b' => exact ih ⟨i, hl, herr⟩ b'

theorem mapM_error {f : ι → Guarded α} (h : ∃ i ∈ l, ∃ e, f i = .error e) :
    ∃ e, l.mapM f = .error e := by
  induction l with
  | nil =>
    obtain ⟨i, hi, -⟩ := h
    cases hi
  | cons j l ih =>
    rw [mapM_cons]
    obtain ⟨i, hi, herr⟩ := h
    rcases mem_cons.mp hi with rfl | hl
    · exact bind_error herr _
    · cases hj : f j with
      | error e => exact ⟨e, rfl⟩
      | ok a => exact bind_error (ih ⟨i, hl, herr⟩) _

/-- A range that ends behind the data. -/
theorem fetchRange_error (hlen : 0 < len) (h : data.length < offset + len) :
    ∃ e, fetchRange data offset len = .error e := by
  refine mapM_error ⟨len - 1, mem_range.mpr (by omega), _, fetch_error (by omega)⟩

/-! ### Writes -/

/-- `data[i] = x`. -/
def put (data : List α) (i : ℕ) (x : α) : Guarded (List α) :=
  if i < data.length then .ok (data.set i x) else .error (.outOfBounds i data.length)

/-- Writes at an index and those after it, one after the other. -/
def putRange (data : List α) : ℕ → List α → Guarded (List α)
  | _, [] => .ok data
  | i, x :: xs => do putRange (← put data i x) (i + 1) xs

variable {data xs : List α}

/-- **A range of writes inside of the data** replaces what was there. -/
theorem putRange_eq (h : i + xs.length ≤ data.length) :
    putRange data i xs = .ok (data.take i ++ xs ++ data.drop (i + xs.length)) := by
  induction xs generalizing data i with
  | nil => rw [putRange, append_nil, length_nil, Nat.add_zero, take_append_drop]
  | cons x xs ih =>
    rw [length_cons] at h
    have hset : (data.set i x).take (i + 1) = data.take i ++ [x] := by
      rw [take_add_one, take_set_of_le (Nat.le_refl i), getElem?_set_self (by omega)]
      rfl
    have hdrop : (data.set i x).drop (i + 1 + xs.length) = data.drop (i + (xs.length + 1)) := by
      rw [drop_set_of_lt (by omega), Nat.add_right_comm, Nat.add_assoc]
    rw [putRange, put, if_pos (by omega), ok_bind, ih (by rw [length_set]; omega), hset, hdrop,
      append_assoc (data.take i), singleton_append, length_cons]

/-- **What a range of writes leaves** up to its end, where it has not stopped. -/
theorem take_of_putRange {out : List α} (h : putRange data i xs = .ok out) (hi : i ≤ data.length) :
    i + xs.length ≤ out.length ∧ out.take (i + xs.length) = data.take i ++ xs := by
  have hle : ∀ {data : List α} {i : ℕ}, putRange data i xs = .ok out → i ≤ data.length →
      i + xs.length ≤ data.length := by
    clear h hi
    induction xs with
    | nil => exact fun _ hi => hi
    | cons x xs ih =>
      intro data i h hi
      obtain ⟨data', hput, h⟩ := exists_of_bind h
      rw [put] at hput
      split at hput
      · cases hput
        have hrest := ih h (by rw [length_set]; omega)
        rw [length_set] at hrest
        rw [length_cons]
        omega
      · cases hput
  have hend := hle h hi
  rw [putRange_eq hend] at h
  cases h
  constructor
  · simp only [length_append, length_take, length_drop]
    omega
  · exact take_left' (by rw [length_append, length_take_of_le hi])

/-- What follows a range of writes inside of the data goes on with as many data. -/
theorem putRange_bind (h : i + xs.length ≤ data.length) {f : List α → Guarded β}
    (hf : ∀ data', data'.length = data.length → ∃ b, f data' = .ok b) :
    ∃ b, putRange data i xs >>= f = .ok b := by
  rw [putRange_eq h, ok_bind]
  refine hf _ ?_
  simp only [length_append, length_take, length_drop]
  omega

/-- What follows a range of reads inside of the data. -/
theorem fetchRange_bind (h : offset + len ≤ data.length) {f : List α → Guarded β}
    (hf : ∀ xs : List α, xs.length = len → ∃ b, f xs = .ok b) :
    ∃ b, fetchRange data offset len >>= f = .ok b := by
  rcases Nat.eq_zero_or_pos data.length with hnil | hpos
  · obtain rfl : len = 0 := by omega
    exact hf [] rfl
  · rw [fetchRange_eq h (data.get ⟨0, hpos⟩), ok_bind]
    exact hf _ (by rw [length_map, length_range])

end Foundation
