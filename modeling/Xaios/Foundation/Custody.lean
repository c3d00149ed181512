import Mathlib.Logic.Function.Basic
import Mathlib.Logic.Relation
import Mathlib.Tactic.Common

/-!
# Custody of cells

Cells of a pool are handed out to fields that refer to them; a field belongs to something
that is alive or not. There are three things that can happen
(`Foundation.Custody.Step`): a field that was dead takes a fresh cell, or none if the pool
is empty; a field dies and gives its cell back; and fields die as they are, keeping what
they refer to.

No step makes two fields refer to one cell (`Foundation.Custody.Sound`). Every cell in use
is held by something alive (`Foundation.Custody.Conserved`) as long as the fields that die
as they are refer to nothing.
-/

namespace Foundation

open Function

/-- Who refers to which cell, which cells are in use, and which fields are alive. -/
@[ext]
structure Custody (ι β : Type) where
  ref : ι → Option β
  used : β → Bool
  live : ι → Bool

namespace Custody

variable {ι β : Type} [DecidableEq ι] [DecidableEq β]

/-- A field takes a cell, if there is one. -/
def take (c : Custody ι β) (r : ι) (x : Option β) : Custody ι β where
  ref := update c.ref r x
  used b := decide (x = some b) || c.used b
  live := update c.live r true

/-- A field dies and gives its cell back. -/
def drop (c : Custody ι β) (r : ι) : Custody ι β where
  ref := update c.ref r none
  used b := !decide (c.ref r = some b) && c.used b
  live := update c.live r false

/-- The steps. Where `K` holds, the fields that die as they are refer to nothing. -/
inductive Step (K : Prop) : Custody ι β → Custody ι β → Prop where
  | take (c : Custody ι β) (r : ι) (x : Option β) (hx : ∀ b, x = some b → c.used b = false)
      (hr : c.live r = false) : Step K c (c.take r x)
  | drop (c : Custody ι β) (r : ι) : Step K c (c.drop r)
  | relive (c : Custody ι β) (live : ι → Bool)
      (h : K → ∀ r, live r = false → c.live r = false ∨ c.ref r = none) :
      Step K c { c with live := live }

/-- **No cell is referred to twice**, and what is referred to is in use. -/
structure Sound (c : Custody ι β) : Prop where
  used : ∀ r b, c.ref r = some b → c.used b = true
  distinct : ∀ r r' b, c.ref r = some b → c.ref r' = some b → r = r'

/-- **What is in use is held**, by something alive. -/
structure Conserved (c : Custody ι β) : Prop extends Sound c where
  held : ∀ b, c.used b = true → ∃ r, c.ref r = some b
  dead : ∀ r, c.live r = false → c.ref r = none

variable {K : Prop} {c c' : Custody ι β}

omit [DecidableEq ι] [DecidableEq β] in
/-- **Every cell in use has exactly one holder alive.** -/
theorem Conserved.existsUnique (h : c.Conserved) {b : β} (hb : c.used b = true) :
    ∃! r, c.live r = true ∧ c.ref r = some b := by
  obtain ⟨r, hr⟩ := h.held b hb
  refine ⟨r, ⟨?_, hr⟩, fun r' hr' => h.distinct r' r b hr'.2 hr⟩
  by_contra hlive
  rw [h.dead r (Bool.eq_false_iff.mpr hlive)] at hr
  nomatch hr

/-! ### The rules -/

section Fields

variable (c) {r r' : ι} (x : Option β)

theorem ref_take_self (r : ι) : (c.take r x).ref r = x := by simp [take]

theorem ref_take_of_ne (hne : r' ≠ r) : (c.take r x).ref r' = c.ref r' := by simp [take, hne]

theorem live_take_self (r : ι) : (c.take r x).live r = true := by simp [take]

theorem live_take_of_ne (hne : r' ≠ r) : (c.take r x).live r' = c.live r' := by simp [take, hne]

theorem ref_drop_self (r : ι) : (c.drop r).ref r = none := by simp [drop]

theorem ref_drop_of_ne (hne : r' ≠ r) : (c.drop r).ref r' = c.ref r' := by simp [drop, hne]

theorem live_drop_of_ne (hne : r' ≠ r) : (c.drop r).live r' = c.live r' := by simp [drop, hne]

end Fields

/-- What a field refers to after taking a cell. -/
theorem ref_take {r r' : ι} {x : Option β} {b : β} (h : (c.take r x).ref r' = some b) :
    r' = r ∧ x = some b ∨ r' ≠ r ∧ c.ref r' = some b := by
  rcases eq_or_ne r' r with rfl | hne
  · rw [ref_take_self] at h
    exact .inl ⟨rfl, h⟩
  · rw [ref_take_of_ne c x hne] at h
    exact .inr ⟨hne, h⟩

/-- What a field refers to after one was dropped. -/
theorem ref_drop {r r' : ι} {b : β} (h : (c.drop r).ref r' = some b) :
    r' ≠ r ∧ c.ref r' = some b := by
  rcases eq_or_ne r' r with rfl | hne
  · rw [ref_drop_self] at h
    nomatch h
  · rw [ref_drop_of_ne c hne] at h
    exact ⟨hne, h⟩

theorem Sound.take (h : c.Sound) (r : ι) {x : Option β}
    (hx : ∀ b, x = some b → c.used b = false) : (c.take r x).Sound := by
  -- a fresh cell was referred to by nobody
  have hfresh : ∀ r' b, x = some b → c.ref r' ≠ some b := by
    intro r' b hb hr'
    have hused := h.used r' b hr'
    rw [hx b hb] at hused
    nomatch hused
  constructor
  · intro r' b hr'
    rcases ref_take hr' with ⟨-, hb⟩ | ⟨-, hb⟩
    · simp [Custody.take, hb]
    · simp [Custody.take, h.used r' b hb]
  · intro r₁ r₂ b h₁ h₂
    rcases ref_take h₁ with ⟨rfl, hb₁⟩ | ⟨-, hb₁⟩ <;> rcases ref_take h₂ with ⟨rfl, hb₂⟩ | ⟨-, hb₂⟩
    · rfl
    · exact absurd hb₂ (hfresh r₂ b hb₁)
    · exact absurd hb₁ (hfresh r₁ b hb₂)
    · exact h.distinct r₁ r₂ b hb₁ hb₂

theorem Sound.drop (h : c.Sound) (r : ι) : (c.drop r).Sound := by
  constructor
  · intro r' b hr'
    obtain ⟨hne, hb⟩ := ref_drop hr'
    have hother : c.ref r ≠ some b := fun hr => hne (h.distinct r' r b hb hr)
    simp [Custody.drop, hother, h.used r' b hb]
  · intro r₁ r₂ b h₁ h₂
    exact h.distinct r₁ r₂ b (ref_drop h₁).2 (ref_drop h₂).2

/-- **No step makes two fields refer to one cell.** -/
theorem Step.sound (hstep : Step K c c') (h : c.Sound) : c'.Sound := by
  cases hstep with
  | take r x hx hr => exact h.take r hx
  | drop r => exact h.drop r
  | relive live hlive => exact ⟨h.used, h.distinct⟩

theorem Conserved.take (h : c.Conserved) {r : ι} {x : Option β}
    (hx : ∀ b, x = some b → c.used b = false) (hr : c.live r = false) :
    (c.take r x).Conserved := by
  refine ⟨h.toSound.take r hx, ?_, ?_⟩
  · intro b hb
    simp only [Custody.take, Bool.or_eq_true, decide_eq_true_eq] at hb
    rcases hb with hb | hb
    · exact ⟨r, (ref_take_self c x r).trans hb⟩
    · obtain ⟨r', hr'⟩ := h.held b hb
      -- the field itself was dead, so it held nothing
      have hne : r' ≠ r := by
        rintro rfl
        rw [h.dead r' hr] at hr'
        nomatch hr'
      exact ⟨r', (ref_take_of_ne c x hne).trans hr'⟩
  · intro r' hr'
    rcases eq_or_ne r' r with rfl | hne
    · rw [live_take_self] at hr'
      nomatch hr'
    · rw [live_take_of_ne c x hne] at hr'
      exact (ref_take_of_ne c x hne).trans (h.dead r' hr')

theorem Conserved.drop (h : c.Conserved) (r : ι) : (c.drop r).Conserved := by
  refine ⟨h.toSound.drop r, ?_, ?_⟩
  · intro b hb
    simp only [Custody.drop, Bool.and_eq_true, Bool.not_eq_true', decide_eq_false_iff_not] at hb
    obtain ⟨r', hr'⟩ := h.held b hb.2
    have hne : r' ≠ r := by
      rintro rfl
      exact hb.1 hr'
    exact ⟨r', (ref_drop_of_ne c hne).trans hr'⟩
  · intro r' hr'
    rcases eq_or_ne r' r with rfl | hne
    · exact ref_drop_self c r'
    · rw [live_drop_of_ne c hne] at hr'
      exact (ref_drop_of_ne c hne).trans (h.dead r' hr')

/-- **Every step keeps what is in use held**, as long as nothing dies with a cell. -/
theorem Step.conserved (hstep : Step K c c') (hK : K) (h : c.Conserved) : c'.Conserved := by
  cases hstep with
  | take r x hx hr => exact h.take hx hr
  | drop r => exact h.drop r
  | relive live hlive =>
    refine ⟨⟨h.used, h.distinct⟩, h.held, fun r hr => ?_⟩
    rcases hlive hK r hr with hdead | hnone
    · exact h.dead r hdead
    · exact hnone

/-- Some steps. -/
abbrev Steps (K : Prop) (c c' : Custody ι β) : Prop := Relation.ReflTransGen (Step K) c c'

theorem Steps.sound (hsteps : Steps K c c') (h : c.Sound) : c'.Sound := by
  induction hsteps with
  | refl => exact h
  | tail _ hstep ih => exact hstep.sound ih

theorem Steps.conserved (hsteps : Steps K c c') (hK : K) (h : c.Conserved) : c'.Conserved := by
  induction hsteps with
  | refl => exact h
  | tail _ hstep ih => exact hstep.conserved hK ih

end Custody

end Foundation
