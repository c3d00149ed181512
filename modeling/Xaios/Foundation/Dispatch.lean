import Mathlib.Data.List.Nodup
import Mathlib.Data.List.Perm.Subperm
import Mathlib.Data.Set.Insert

/-!
# Dispatching

One processor and the tasks it knows: some wait in a queue, at most one runs, and some have
asked to run. The steps (`Foundation.Dispatch.Step`) learn of a task, forget one, wake one, let
one rest, put the running task back and take another, or take one while the running task is
left behind.

The processor is sound (`Foundation.Dispatch.Sound`) if the queue has no task twice, the
running task is not in it, all of them are known, and every task that asked to run is one of
them. Each step keeps this; what it costs is that a task which is left behind did not ask to
run, and that the running task is not woken.

A queue of known tasks is shorter than any list of all known tasks as long as one of them is
missing (`Foundation.length_lt_of_notMem`), so a queue with as many places as tasks can be
known is never full when a task is put into it.
-/

namespace Foundation

open List

variable {α : Type} [DecidableEq α]

/-- A queue with a task put at its end, unless it is there. -/
def enqueue (l : List α) (x : α) : List α := if x ∈ l then l else l ++ [x]

theorem mem_enqueue {l : List α} {x y : α} : y ∈ enqueue l x ↔ y = x ∨ y ∈ l := by
  rw [enqueue]
  split
  · next h =>
    constructor
    · exact .inr
    · rintro (rfl | hy)
      · exact h
      · exact hy
  · rw [mem_append, mem_singleton, or_comm]

theorem nodup_enqueue {l : List α} (h : l.Nodup) (x : α) : (enqueue l x).Nodup := by
  rw [enqueue]
  split
  · exact h
  · next hx => exact nodup_append.mpr ⟨h, nodup_singleton x, fun a ha b hb hab => by
      rw [mem_singleton] at hb
      exact hx (hb ▸ hab ▸ ha)⟩

omit [DecidableEq α] in
/-- **A queue that misses a known task is shorter than the list of what is known.** -/
theorem length_lt_of_notMem {l known : List α} {x : α} (hl : l.Nodup) (hsub : ∀ y ∈ l, y ∈ known)
    (hx : x ∈ known) (hnot : x ∉ l) : l.length < known.length := by
  have hcons : (x :: l).Nodup := nodup_cons.mpr ⟨hnot, hl⟩
  have hle := (hcons.subperm fun y hy => by
    rcases mem_cons.mp hy with rfl | hy
    · exact hx
    · exact hsub y hy).length_le
  rwa [length_cons] at hle

/-- A processor: the tasks it knows, those that wait, the one that runs, and those that
asked to run. -/
structure Dispatch (α : Type) where
  known : Set α
  ready : List α
  running : Option α
  wanted : Set α

namespace Dispatch

/-- The steps of a processor. -/
inductive Step : Dispatch α → Dispatch α → Prop where
  /-- Nothing happens. -/
  | idle (d : Dispatch α) : Step d d
  /-- A task becomes known. -/
  | learn (d : Dispatch α) (x : α) : Step d { d with known := insert x d.known }
  /-- A task is taken out everywhere. -/
  | forget (d : Dispatch α) (x : α) (known : Set α)
      (hknown : ∀ y, y ≠ x → y ∈ d.known → y ∈ known) :
      Step d ⟨known, d.ready.erase x, d.running.filter (· ≠ x), d.wanted \ {x}⟩
  /-- A task that does not run asks to run. -/
  | wake (d : Dispatch α) (x : α) (hx : x ∈ d.known) (hrun : d.running ≠ some x) :
      Step d { d with ready := enqueue d.ready x, wanted := insert x d.wanted }
  /-- A task no longer asks to run. -/
  | rest (d : Dispatch α) (x : α) :
      Step d { d with ready := d.ready.erase x, wanted := d.wanted \ {x} }
  /-- The running task goes back to the queue, and one of the queue runs. -/
  | rotate (d : Dispatch α) (x y : α) (hx : d.running = some x) (hy : y ∈ enqueue d.ready x) :
      Step d { d with ready := (enqueue d.ready x).erase y, running := some y }
  /-- One of the queue runs, and the running task is left behind. -/
  | take (d : Dispatch α) (y : α) (hy : y ∈ d.ready)
      (hleft : ∀ x, d.running = some x → x ∉ d.wanted) :
      Step d { d with ready := d.ready.erase y, running := some y }
  /-- Nothing runs, and the running task is left behind. -/
  | stop (d : Dispatch α) (hleft : ∀ x, d.running = some x → x ∉ d.wanted) :
      Step d { d with running := none }

/-- **No task that asked to run is lost**, and none is held twice. -/
structure Sound (d : Dispatch α) : Prop where
  nodup : d.ready.Nodup
  known_ready : ∀ x ∈ d.ready, x ∈ d.known
  known_running : ∀ x, d.running = some x → x ∈ d.known
  apart : ∀ x, d.running = some x → x ∉ d.ready
  kept : ∀ x ∈ d.wanted, d.running = some x ∨ x ∈ d.ready

variable {d d' : Dispatch α}

omit [DecidableEq α] in
theorem Sound.known_wanted (h : d.Sound) {x : α} (hx : x ∈ d.wanted) : x ∈ d.known := by
  rcases h.kept x hx with hrun | hready
  · exact h.known_running x hrun
  · exact h.known_ready x hready

/-- **A task that asked to run has exactly one place.** -/
theorem Sound.one_place (h : d.Sound) {x : α} (hx : x ∈ d.wanted) :
    d.running = some x ∧ x ∉ d.ready ∨ d.running ≠ some x ∧ d.ready.count x = 1 := by
  by_cases hrun : d.running = some x
  · exact .inl ⟨hrun, h.apart x hrun⟩
  · have hready : x ∈ d.ready := (h.kept x hx).resolve_left hrun
    exact .inr ⟨hrun, count_eq_one_of_mem h.nodup hready⟩

/-- A task of the queue runs, all others keep their places. -/
theorem Sound.run {ready : List α} {y : α} (hnodup : ready.Nodup)
    (hknown : ∀ x ∈ ready, x ∈ d.known) (hkept : ∀ x ∈ d.wanted, x ∈ ready) (hy : y ∈ ready) :
    Sound { d with ready := ready.erase y, running := some y } where
  nodup := hnodup.erase y
  known_ready x hx := hknown x (mem_of_mem_erase hx)
  known_running := by
    rintro _ ⟨⟩
    exact hknown y hy
  apart := by
    rintro _ ⟨⟩
    exact hnodup.not_mem_erase
  kept x hx := by
    rcases eq_or_ne x y with rfl | hne
    · exact .inl rfl
    · exact .inr ((mem_erase_of_ne hne).mpr (hkept x hx))

/-- **Every step keeps the processor sound.** -/
theorem Sound.step (h : d.Sound) (hstep : Step d d') : d'.Sound := by
  cases hstep with
  | idle => exact h
  | learn x =>
    exact ⟨h.nodup, fun y hy => .inr (h.known_ready y hy),
      fun y hy => .inr (h.known_running y hy), h.apart, h.kept⟩
  | forget x known hknown =>
    have hmem : ∀ y ∈ d.ready.erase x, y ≠ x ∧ y ∈ d.ready :=
      fun y hy => (h.nodup.mem_erase_iff).mp hy
    have hrun : ∀ y, d.running.filter (· ≠ x) = some y → y ≠ x ∧ d.running = some y := by
      intro y hy
      obtain ⟨hsome, hne⟩ := Option.filter_eq_some_iff.mp hy
      exact ⟨of_decide_eq_true hne, hsome⟩
    refine ⟨h.nodup.erase x, fun y hy => ?_, fun y hy => ?_, fun y hy hin => ?_, ?_⟩
    · exact hknown y (hmem y hy).1 (h.known_ready y (hmem y hy).2)
    · exact hknown y (hrun y hy).1 (h.known_running y (hrun y hy).2)
    · exact h.apart y (hrun y hy).2 (hmem y hin).2
    · rintro y ⟨hy, hne : y ≠ x⟩
      rcases h.kept y hy with hsome | hin
      · exact .inl (Option.filter_eq_some_iff.mpr ⟨hsome, decide_eq_true hne⟩)
      · exact .inr ((mem_erase_of_ne hne).mpr hin)
  | wake x hx hrun =>
    refine ⟨nodup_enqueue h.nodup x, fun y hy => ?_, h.known_running, fun y hy hin => ?_, ?_⟩
    · rcases mem_enqueue.mp hy with rfl | hy
      · exact hx
      · exact h.known_ready y hy
    · rcases mem_enqueue.mp hin with rfl | hin
      · exact hrun hy
      · exact h.apart y hy hin
    · rintro y (rfl | hy)
      · exact .inr (mem_enqueue.mpr (.inl rfl))
      · exact (h.kept y hy).imp_right fun hin => mem_enqueue.mpr (.inr hin)
  | rest x =>
    refine ⟨h.nodup.erase x, fun y hy => h.known_ready y (mem_of_mem_erase hy),
      h.known_running, fun y hy hin => h.apart y hy (mem_of_mem_erase hin), ?_⟩
    rintro y ⟨hy, hne : y ≠ x⟩
    exact (h.kept y hy).imp_right fun hin => (mem_erase_of_ne hne).mpr hin
  | rotate x y hx hy =>
    refine Sound.run (nodup_enqueue h.nodup x) (fun z hz => ?_) (fun z hz => ?_) hy
    · rcases mem_enqueue.mp hz with rfl | hz
      · exact h.known_running z hx
      · exact h.known_ready z hz
    · rcases h.kept z hz with hrun | hin
      · rw [hx] at hrun
        exact mem_enqueue.mpr (.inl (Option.some.inj hrun).symm)
      · exact mem_enqueue.mpr (.inr hin)
  | take y hy hleft =>
    refine Sound.run h.nodup h.known_ready (fun z hz => ?_) hy
    exact (h.kept z hz).resolve_left fun hrun => hleft z hrun hz
  | stop hleft =>
    refine ⟨h.nodup, h.known_ready, ?_, ?_, fun z hz => .inr ?_⟩
    · rintro _ ⟨⟩
    · rintro _ ⟨⟩
    · exact (h.kept z hz).resolve_left fun hrun => hleft z hrun hz

end Dispatch

end Foundation
