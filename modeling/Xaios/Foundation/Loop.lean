import Mathlib.Data.List.Basic

/-!
# Loops that return early

The loop `for (i …) { status = f(i); if (status != OK) return status; }` over a
list of indices, with the state passed through. A body that answers `ok` is
followed by the next index; the first other answer ends the loop, and the state
is the one that body left.

What every body preserves the loop preserves (`Foundation.forEach_induct`).

A run is a fold. `Foundation.Along` says that each of its steps is allowed in the
state it is taken in, and `Foundation.Along.foldl_induct` is the rule of
invariants for such runs; what no step changes at all is `Foundation.foldl_frame`.
Two conditions on steps are compared along whole runs by `Foundation.Along.congr`, and
`Foundation.along_of_forall` and `Foundation.Along.imp` derive one from an invariant.
-/

namespace Foundation

open List

variable {ι σ ε : Type} [DecidableEq ε] {ok : ε}

/-- The loop over a list of indices, left at the first answer that is not
`ok`. -/
def forEach (ok : ε) (f : ι → σ → ε × σ) : List ι → σ → ε × σ
  | [], s => (ok, s)
  | i :: is, s => if (f i s).1 = ok then forEach ok f is (f i s).2 else f i s

@[simp] theorem forEach_nil (f : ι → σ → ε × σ) (s : σ) : forEach ok f [] s = (ok, s) := rfl

variable {is : List ι} {s : σ}

variable {f : ι → σ → ε × σ}

theorem forEach_cons_ok {i : ι} (h : (f i s).1 = ok) :
    forEach ok f (i :: is) s = forEach ok f is (f i s).2 := by
  rw [forEach, if_pos h]

theorem forEach_cons_err {i : ι} (h : (f i s).1 ≠ ok) : forEach ok f (i :: is) s = f i s := by
  rw [forEach, if_neg h]

/-- **What every body preserves the loop preserves.** -/
theorem forEach_induct {P : σ → Prop} (hf : ∀ i ∈ is, ∀ t, P t → P (f i t).2) (hs : P s) :
    P (forEach ok f is s).2 := by
  induction is generalizing s with
  | nil => exact hs
  | cons i is ih =>
    have hi : P (f i s).2 := hf i (by simp) s hs
    by_cases h : (f i s).1 = ok
    · rw [forEach_cons_ok h]
      exact ih (fun j hj => hf j (by simp [hj])) hi
    · rw [forEach_cons_err h]
      exact hi

/-! ### Runs -/

/-- Along a run every step is taken in a state that allows it. -/
def Along (step : σ → ι → σ) (P : σ → ι → Prop) : σ → List ι → Prop
  | _, [] => True
  | s, i :: is => P s i ∧ Along step P (step s i) is

variable {step : σ → ι → σ}

variable {P : σ → ι → Prop}

theorem along_append {is js : List ι} :
    Along step P s (is ++ js) ↔ Along step P s is ∧ Along step P (is.foldl step s) js := by
  induction is generalizing s with
  | nil => exact (and_iff_right trivial).symm
  | cons i is ih =>
    rw [cons_append, Along, ih, foldl_cons, Along, and_assoc]

variable {Q : σ → ι → Prop}

theorem along_and :
    Along step (fun s i => P s i ∧ Q s i) s is ↔ Along step P s is ∧ Along step Q s is := by
  induction is generalizing s with
  | nil => exact (and_iff_left trivial).symm
  | cons i is ih => rw [Along, Along, Along, ih, and_and_and_comm]

/-- A condition on steps that does not read the state. -/
theorem along_const {Q : ι → Prop} :
    Along step (fun _ i => Q i) s is ↔ ∀ i ∈ is, Q i := by
  induction is generalizing s with
  | nil => exact iff_of_true trivial fun i hi => absurd hi not_mem_nil
  | cons i is ih => rw [Along, ih, forall_mem_cons]

variable {I : σ → Prop}

/-- **What every allowed step preserves holds at the end of the run.** -/
theorem Along.foldl_induct (h : Along step P s is) (hs : I s)
    (hstep : ∀ s i, I s → P s i → I (step s i)) : I (is.foldl step s) := by
  induction is generalizing s with
  | nil => exact hs
  | cons i is ih => exact ih h.2 (hstep s i hs h.1)

/-- **What no step changes is the same at the end.** -/
theorem foldl_frame {τ : Type} (g : σ → τ) (hstep : ∀ s i, g (step s i) = g s)
    (is : List ι) (s : σ) : g (is.foldl step s) = g s := by
  induction is generalizing s with
  | nil => rfl
  | cons i is ih => exact (ih (step s i)).trans (hstep s i)

/-- **Two conditions on steps that agree wherever an invariant holds** agree on runs. The
invariant has to be kept by allowed steps only. -/
theorem Along.congr (hs : I s) (hstep : ∀ s i, I s → Q s i → I (step s i))
    (hPQ : ∀ s i, I s → (P s i ↔ Q s i)) (is : List ι) : Along step P s is ↔ Along step Q s is := by
  induction is generalizing s with
  | nil => exact .rfl
  | cons i is ih =>
    rw [Along, Along, hPQ s i hs]
    exact and_congr_right fun hq => ih (hstep s i hs hq)

/-- **A condition on steps that follows from an invariant** holds along every run whose
steps are all allowed. -/
theorem along_of_forall {Q : ι → Prop} (hs : I s) (his : ∀ i ∈ is, Q i)
    (hstep : ∀ s i, I s → Q i → P s i ∧ I (step s i)) : Along step P s is := by
  induction is generalizing s with
  | nil => trivial
  | cons i is ih =>
    obtain ⟨hP, hI⟩ := hstep s i hs (his i mem_cons_self)
    exact ⟨hP, ih hI fun j hj => his j (mem_cons_of_mem i hj)⟩

/-- **What an invariant and the condition on a step give** holds along the run. -/
theorem Along.imp (h : Along step P s is) (hs : I s)
    (hstep : ∀ s i, I s → P s i → Q s i ∧ I (step s i)) : Along step Q s is := by
  induction is generalizing s with
  | nil => trivial
  | cons i is ih =>
    obtain ⟨hQ, hI⟩ := hstep s i hs h.1
    exact ⟨hQ, ih h.2 hI⟩

end Foundation
