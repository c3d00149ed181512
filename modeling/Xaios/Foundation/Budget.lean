import Mathlib.Algebra.Ring.Nat
import Mathlib.Data.List.Infix
import Xaios.Foundation.Loop

/-!
# Loops on a budget

A loop whose step `i` first gives back some units and then takes some, and fails
when there are not enough. Whether the loop goes through depends on the order of
the steps: `Foundation.forEach_ok_iff_fits` says that it does exactly when no
prefix of the steps takes more than there was at the start and was given back up
to there (`Foundation.Fits`).
-/

namespace Foundation

open List

/-- A list of steps, each with the units it gives back and the units it takes,
can be paid from `room` units, in this order. -/
def Fits (room : ℕ) (steps : List (ℕ × ℕ)) : Prop :=
  ∀ p, p <+: steps → (p.map Prod.snd).sum ≤ room + (p.map Prod.fst).sum

theorem fits_nil (room : ℕ) : Fits room [] := by
  intro p hp
  rw [prefix_nil.mp hp]
  simp

/-- The first step is paid, and what it leaves pays for the others. -/
theorem fits_cons {room give take : ℕ} {steps : List (ℕ × ℕ)} :
    Fits room ((give, take) :: steps) ↔ take ≤ room + give ∧ Fits (room + give - take) steps := by
  constructor
  · intro h
    have hfirst : take ≤ room + give := by
      simpa using h [(give, take)] (by simp)
    refine ⟨hfirst, fun p hp => ?_⟩
    have hp' := h ((give, take) :: p) (by simpa using hp)
    simp only [map_cons, sum_cons] at hp'
    omega
  · rintro ⟨hfirst, h⟩ p hp
    rcases prefix_cons_iff.mp hp with rfl | ⟨p', rfl, hp'⟩
    · simp
    · have hrest := h p' hp'
      simp only [map_cons, sum_cons]
      omega

variable {ι σ ε : Type} [DecidableEq ε] {ok : ε}

/-- **A loop on a budget goes through exactly when its steps fit.** The state has
some `room`; step `i` has a cost `(give, take)` that other steps do not change. -/
theorem forEach_ok_iff_fits {f : ι → σ → ε × σ} (room : σ → ℕ) (cost : ι → σ → ℕ × ℕ)
    (P : σ → Prop)
    (hok : ∀ i s, P s → ((f i s).1 = ok ↔ (cost i s).2 ≤ room s + (cost i s).1))
    (hroom : ∀ i s, P s → (f i s).1 = ok →
      room (f i s).2 + (cost i s).2 = room s + (cost i s).1)
    (hcost : ∀ i j s, P s → (f i s).1 = ok → j ≠ i → cost j (f i s).2 = cost j s)
    (hP : ∀ i s, P s → (f i s).1 = ok → P (f i s).2)
    {is : List ι} (hnd : is.Nodup) {s : σ} (hs : P s) :
    (forEach ok f is s).1 = ok ↔ Fits (room s) (is.map fun i => cost i s) := by
  induction is generalizing s with
  | nil => exact iff_of_true rfl (fits_nil _)
  | cons i is ih =>
    obtain ⟨hi, hnd'⟩ := nodup_cons.mp hnd
    rw [map_cons, show cost i s = ((cost i s).1, (cost i s).2) from rfl, fits_cons,
      ← hok i s hs]
    rcases eq_or_ne (f i s).1 ok with h | h
    · have hmap : (is.map fun j => cost j (f i s).2) = is.map fun j => cost j s :=
        map_congr_left fun j hj => hcost i j s hs h fun hji => hi (hji ▸ hj)
      have hleft : room (f i s).2 = room s + (cost i s).1 - (cost i s).2 := by
        have := hroom i s hs h
        omega
      rw [forEach_cons_ok h, ih hnd' (hP i s hs h), hmap, hleft]
      exact ⟨fun hfits => ⟨h, hfits⟩, fun hfits => hfits.2⟩
    · rw [forEach_cons_err h]
      exact iff_of_false h fun hfits => h hfits.1

end Foundation
