import Xaios.Foundation.Dispatch
import Xaios.Sched.Scheduler

/-!
# The scheduler of one CPU

What the calls of the scheduler do on a machine whose only CPU is CPU 0. Nothing is stolen
and every task is placed in table 0, so a call writes the records of that table and its run
queue. Each call is told by three things: the records keep their process ids
(`Scheduler.SameTasks`), and the queue and the current task become what the lemma says.

The queue never overflows. Its entries are different processes with a record in the table,
and the table has no more records than the queue has entries
(`Scheduler.length_lt_of_found`).
-/

namespace Xaios

open Function List Option

open Sched Foundation

/-- CPU 0 is the only one. -/
def Sched.Machine.Sole (M : Machine) : Prop := ∀ cpu, M.Online cpu ↔ cpu = 0

namespace Sched

variable {M : Machine}

variable {t : TaskTable} {i : ℕ}

theorem TaskTable.holds_iff {pid : ℕ} : t.holds pid i = true ↔
    t.slotBitmap.test i = true ∧ (t.tasks i).active = true ∧ (t.tasks i).pid = pid := by
  rw [TaskTable.holds, Bool.and_eq_true, Bool.and_eq_true, beq_iff_eq, and_assoc]

/-- A slot is taken. -/
theorem TaskTable.holds_of_set {t' : TaskTable} (hbitmap : t'.slotBitmap = t.slotBitmap.set i)
    (hne : ∀ j, j ≠ i → t'.tasks j = t.tasks j) (hactive : (t'.tasks i).active = true) (y j : ℕ) :
    t'.holds y j = true ↔ j = i ∧ (t'.tasks i).pid = y ∨ j ≠ i ∧ t.holds y j = true := by
  rw [TaskTable.holds_iff, TaskTable.holds_iff, hbitmap, Bitmap.test_set]
  rcases eq_or_ne j i with rfl | hj
  · simp [hactive]
  · simp [hj, hne j hj]

/-- A slot is given back. -/
theorem TaskTable.holds_of_clear {t' : TaskTable} (hbitmap : t'.slotBitmap = t.slotBitmap.clear i)
    (hne : ∀ j, j ≠ i → t'.tasks j = t.tasks j) (y j : ℕ) :
    t'.holds y j = true ↔ j ≠ i ∧ t.holds y j = true := by
  rw [TaskTable.holds_iff, TaskTable.holds_iff, hbitmap, Bitmap.test_clear]
  rcases eq_or_ne j i with rfl | hj
  · simp
  · simp [hj, hne j hj]

theorem Machine.Sole.smpOnlineCount (hM : M.Sole) : M.smpOnlineCount = 1 := by
  have hcongr : (range maxCpus).countP (fun cpu => (M.cpuState cpu).online) =
      (range maxCpus).countP (fun cpu => decide (cpu = 0)) := by
    refine countP_congr fun cpu hcpu => ?_
    have hiff := hM cpu
    rw [Machine.Online, and_iff_right (mem_range.mp hcpu)] at hiff
    rw [hiff, decide_eq_true_eq]
  rw [Machine.smpOnlineCount, hcongr]
  decide +kernel

/-- A task is placed on a CPU below the number of CPUs. -/
theorem Machine.findLeastLoadedCpu_lt (M : Machine) (thisCpu timer : ℕ) :
    M.findLeastLoadedCpu thisCpu timer = 0 ∨
      M.findLeastLoadedCpu thisCpu timer < M.smpOnlineCount := by
  rw [Machine.findLeastLoadedCpu]
  dsimp only
  split
  · exact .inl rfl
  next hne =>
    have hlt : ∀ cpu ∈ (range M.smpOnlineCount).map
        (fun i => (timer % 2 ^ 32 % M.smpOnlineCount + i) % M.smpOnlineCount),
        cpu < M.smpOnlineCount := by
      intro cpu hcpu
      obtain ⟨i, -, rfl⟩ := mem_map.mp hcpu
      exact Nat.mod_lt _ (Nat.pos_of_ne_zero hne)
    split
    · next cpu hfind => exact .inr (hlt cpu (mem_of_find?_eq_some hfind))
    · cases hfind : find? M.places ((range M.smpOnlineCount).map
        (fun i => (timer % 2 ^ 32 % M.smpOnlineCount + i) % M.smpOnlineCount)) with
      | none => exact .inl rfl
      | some cpu => exact .inr (hlt cpu (mem_of_find?_eq_some hfind))

theorem Machine.Sole.findLeastLoadedCpu (hM : M.Sole) (thisCpu timer : ℕ) :
    M.findLeastLoadedCpu thisCpu timer = 0 := by
  have hlt := M.findLeastLoadedCpu_lt thisCpu timer
  rw [hM.smpOnlineCount] at hlt
  omega

/-- The best task is one of the queue. -/
theorem pickBest_mem {task : ℕ → Option Task} (htask : ∀ pid t, task pid = some t → t.pid = pid)
    (l : List ℕ) (best : ℕ) (prio : TaskPriority) : pickBest task l best prio ∈ best :: l := by
  induction l generalizing best prio with
  | nil => exact mem_singleton_self best
  | cons pid rest ih =>
    -- the best task so far is the old one or the one that is looked at
    have hstep : ∀ next : ℕ × TaskPriority, next.1 = best ∨ next.1 = pid →
        (if next.2 = .high then next.1 else pickBest task rest next.1 next.2) ∈
          best :: pid :: rest := by
      intro next hnext
      have hmem : ∀ y ∈ next.1 :: rest, y ∈ best :: pid :: rest := by
        intro y hy
        rcases mem_cons.mp hy with rfl | hy
        · rcases hnext with h | h
          · exact h ▸ mem_cons_self
          · exact h ▸ mem_cons_of_mem _ mem_cons_self
        · exact mem_cons_of_mem _ (mem_cons_of_mem _ hy)
      split
      · exact hmem _ mem_cons_self
      · exact hmem _ (ih next.1 next.2)
    rw [pickBest]
    refine hstep _ ?_
    cases hpid : task pid with
    | none => exact .inl rfl
    | some t =>
      dsimp only
      split
      · exact .inr (htask pid t hpid)
      · exact .inl rfl

theorem Runqueue.tasks_add {rq : Runqueue} {pid : ℕ}
    (h : pid ∉ rq.tasks → rq.tasks.length < schedulerPerCpuRunqueue) :
    (rq.add pid).tasks = enqueue rq.tasks pid := by
  rw [Runqueue.add, enqueue]
  by_cases hmem : pid ∈ rq.tasks
  · rw [if_neg fun hand => hand.2 hmem, if_pos hmem]
  · rw [if_pos ⟨h hmem, hmem⟩, if_neg hmem]

@[simp] theorem Runqueue.currentPid_add (rq : Runqueue) (pid : ℕ) :
    (rq.add pid).currentPid = rq.currentPid := by
  rw [Runqueue.add]
  split
  · rfl
  · rfl

end Sched

namespace Scheduler

variable {M : Machine} {s t u : Scheduler} {pid i : ℕ}

/-! ### Finding a task -/

theorem isSome_findTaskLocal : (s.findTaskLocal 0 pid).isSome = true ↔
    ∃ i < taskSlotsPerCpu, (s.cpuTasks 0).holds pid i = true := by
  rw [findTaskLocal, if_neg (by decide), find?_isSome]
  exact exists_congr fun i => and_congr_left fun _ => mem_range

theorem holds_of_findTaskLocal (h : s.findTaskLocal 0 pid = some i) :
    i < taskSlotsPerCpu ∧ (s.cpuTasks 0).holds pid i = true := by
  rw [findTaskLocal, if_neg (by decide)] at h
  exact ⟨mem_range.mp (mem_of_find?_eq_some h), find?_some h⟩

theorem pid_of_taskLocal {x : Task} (h : s.taskLocal 0 pid = some x) : x.pid = pid := by
  obtain ⟨i, hi, rfl⟩ := map_eq_some_iff.mp h
  exact (TaskTable.holds_iff.mp (holds_of_findTaskLocal hi).2).2.2

/-- The state of the task with a process id, if there is one. -/
def stateLocal (s : Scheduler) (cpu pid : ℕ) : Option TaskState :=
  (s.taskLocal cpu pid).map Task.state

theorem stateLocal_of_none (h : s.findTaskLocal 0 pid = none) : s.stateLocal 0 pid = none := by
  rw [stateLocal, taskLocal, h]
  rfl

/-- **Different processes of the table that miss one of it leave room.** -/
theorem length_lt_of_found {l : List ℕ} (hl : l.Nodup)
    (hfound : ∀ y ∈ l, (s.findTaskLocal 0 y).isSome = true)
    (hpid : (s.findTaskLocal 0 pid).isSome = true) (hnot : pid ∉ l) :
    l.length < schedulerPerCpuRunqueue := by
  have hmem : ∀ y, (s.findTaskLocal 0 y).isSome = true →
      y ∈ (range taskSlotsPerCpu).map fun i => ((s.cpuTasks 0).tasks i).pid := by
    intro y hy
    obtain ⟨i, hi, hholds⟩ := isSome_findTaskLocal.mp hy
    exact mem_map.mpr ⟨i, mem_range.mpr hi, (TaskTable.holds_iff.mp hholds).2.2⟩
  have hlt := length_lt_of_notMem hl (fun y hy => hmem y (hfound y hy)) (hmem pid hpid) hnot
  rwa [length_map, length_range] at hlt

/-! ### Writes that keep the tasks -/

/-- The records of CPU 0 keep what they are found by, and the queues of other CPUs are the
same. -/
structure SameTasks (s t : Scheduler) : Prop where
  slotBitmap : (t.cpuTasks 0).slotBitmap = (s.cpuTasks 0).slotBitmap
  pid : ∀ i, ((t.cpuTasks 0).tasks i).pid = ((s.cpuTasks 0).tasks i).pid
  active : ∀ i, ((t.cpuTasks 0).tasks i).active = ((s.cpuTasks 0).tasks i).active
  assignedCpu : ∀ i, ((t.cpuTasks 0).tasks i).assignedCpu = ((s.cpuTasks 0).tasks i).assignedCpu
  others : ∀ cpu, cpu ≠ 0 → t.runqueues cpu = s.runqueues cpu

/-- What a write to a record keeps. -/
theorem field_onTask {α : Type} (s : Scheduler) {f : Task → Task} (field : Task → α)
    (h : field (f ((s.cpuTasks 0).tasks i)) = field ((s.cpuTasks 0).tasks i)) (j : ℕ) :
    field (((s.onTask 0 i f).cpuTasks 0).tasks j) = field ((s.cpuTasks 0).tasks j) := by
  rw [cpuTasks_onTask_self]
  dsimp only
  rcases eq_or_ne j i with rfl | hne
  · rw [update_self, h]
  · rw [update_of_ne hne]

namespace SameTasks

theorem refl (s : Scheduler) : SameTasks s s :=
  ⟨rfl, fun _ => rfl, fun _ => rfl, fun _ => rfl, fun _ _ => rfl⟩

theorem trans (h : SameTasks s t) (h' : SameTasks t u) : SameTasks s u where
  slotBitmap := h'.slotBitmap.trans h.slotBitmap
  pid i := (h'.pid i).trans (h.pid i)
  active i := (h'.active i).trans (h.active i)
  assignedCpu i := (h'.assignedCpu i).trans (h.assignedCpu i)
  others cpu hcpu := (h'.others cpu hcpu).trans (h.others cpu hcpu)

theorem onQueue (s : Scheduler) (g : Runqueue → Runqueue) : SameTasks s (s.onQueue 0 g) where
  slotBitmap := rfl
  pid _ := rfl
  active _ := rfl
  assignedCpu _ := rfl
  others _ hcpu := runqueues_onQueue_of_ne s 0 g hcpu

theorem count (s : Scheduler) (c : Counters → Counters) : SameTasks s (s.count c) :=
  ⟨rfl, fun _ => rfl, fun _ => rfl, fun _ => rfl, fun _ _ => rfl⟩

theorem onTask (s : Scheduler) (i : ℕ) {f : Task → Task}
    (hf : ∀ x, (f x).pid = x.pid ∧ (f x).active = x.active ∧ (f x).assignedCpu = x.assignedCpu) :
    SameTasks s (s.onTask 0 i f) := by
  refine ⟨?_, fun j => ?_, fun j => ?_, fun j => ?_, fun _ _ => rfl⟩
  · rw [cpuTasks_onTask_self]
  · exact field_onTask s Task.pid (hf _).1 j
  · exact field_onTask s Task.active (hf _).2.1 j
  · exact field_onTask s Task.assignedCpu (hf _).2.2 j

/-- A record and the queue are written. -/
theorem onTask_onQueue (s : Scheduler) (i : ℕ) {f : Task → Task} (g : Runqueue → Runqueue)
    (hf : ∀ x, (f x).pid = x.pid ∧ (f x).active = x.active ∧ (f x).assignedCpu = x.assignedCpu) :
    SameTasks s ((s.onTask 0 i f).onQueue 0 g) ∧
      ((s.onTask 0 i f).onQueue 0 g).runqueues 0 = g (s.runqueues 0) :=
  ⟨(onTask s i hf).trans (.onQueue _ g), by rw [runqueues_onQueue_self, runqueues_onTask]⟩

theorem holds (h : SameTasks s t) : (t.cpuTasks 0).holds pid i = (s.cpuTasks 0).holds pid i := by
  rw [TaskTable.holds, TaskTable.holds, h.slotBitmap, h.active, h.pid]

theorem findTaskLocal (h : SameTasks s t) (pid : ℕ) :
    t.findTaskLocal 0 pid = s.findTaskLocal 0 pid := by
  have hfun : (t.cpuTasks 0).holds pid = (s.cpuTasks 0).holds pid := funext fun i => h.holds
  rw [Scheduler.findTaskLocal, Scheduler.findTaskLocal, hfun]

theorem stateLocal (h : SameTasks s t)
    (hstate : ∀ i, ((t.cpuTasks 0).tasks i).state = ((s.cpuTasks 0).tasks i).state) (pid : ℕ) :
    t.stateLocal 0 pid = s.stateLocal 0 pid := by
  rw [Scheduler.stateLocal, taskLocal, h.findTaskLocal, Scheduler.stateLocal, taskLocal,
    Option.map_map, Option.map_map]
  exact congrArg (Option.map · _) (funext hstate)

end SameTasks

/-- Every task has its place on CPU 0, and the other CPUs are idle. -/
structure Placed (s : Scheduler) : Prop where
  slot : ∀ pid i, (s.cpuTasks 0).holds pid i = true →
    pid ≠ 0 ∧ ((s.cpuTasks 0).tasks i).assignedCpu = 0
  others : ∀ cpu, cpu ≠ 0 → (s.runqueues cpu).tasks = [] ∧ (s.runqueues cpu).currentPid = 0

theorem Placed.of_same (hs : s.Placed) (h : SameTasks s t) : t.Placed where
  slot pid i hi := by
    rw [h.assignedCpu]
    exact hs.slot pid i (h.holds ▸ hi)
  others cpu hcpu := by
    rw [h.others cpu hcpu]
    exact hs.others cpu hcpu

theorem Placed.of_find (hs : s.Placed) (h : s.findTaskLocal 0 pid = some i) :
    pid ≠ 0 ∧ ((s.cpuTasks 0).tasks i).assignedCpu = 0 :=
  hs.slot pid i (holds_of_findTaskLocal h).2

theorem Placed.find_zero (hs : s.Placed) : s.findTaskLocal 0 0 = none := by
  rcases h : s.findTaskLocal 0 0 with _ | i
  · rfl
  · exact absurd rfl (hs.of_find h).1

/-- The queue of CPU 0 and its current task. -/
def first (s : Scheduler) : List ℕ × ℕ := ((s.runqueues 0).tasks, (s.runqueues 0).currentPid)

/-- The queue holds different tasks of the table. -/
structure Settled (s : Scheduler) : Prop extends s.Placed where
  nodup : (s.runqueues 0).tasks.Nodup
  found : ∀ y ∈ (s.runqueues 0).tasks, (s.findTaskLocal 0 y).isSome = true

namespace Settled

theorem ne_zero (hs : s.Settled) {y : ℕ} (hy : y ∈ (s.runqueues 0).tasks) : y ≠ 0 := by
  obtain ⟨i, hi⟩ := isSome_iff_exists.mp (hs.found y hy)
  exact (hs.of_find hi).1

theorem of_same (hs : s.Settled) (h : SameTasks s t)
    (hqueue : (t.runqueues 0).tasks = (s.runqueues 0).tasks) : t.Settled where
  toPlaced := hs.toPlaced.of_same h
  nodup := hqueue ▸ hs.nodup
  found y hy := by
    rw [h.findTaskLocal]
    exact hs.found y (hqueue ▸ hy)

/-- **A task of the table finds room in the queue.** -/
theorem add (hs : s.Settled) (h : SameTasks s t) (hpid : (s.findTaskLocal 0 pid).isSome = true)
    (hadd : t.runqueues 0 = (s.runqueues 0).add pid) :
    t.Settled ∧ t.first = (enqueue (s.runqueues 0).tasks pid, (s.runqueues 0).currentPid) := by
  have htasks : (t.runqueues 0).tasks = enqueue (s.runqueues 0).tasks pid := by
    rw [hadd, Runqueue.tasks_add fun hnot => length_lt_of_found hs.nodup hs.found hpid hnot]
  refine ⟨⟨hs.toPlaced.of_same h, htasks ▸ nodup_enqueue hs.nodup pid, fun y hy => ?_⟩, ?_⟩
  · rw [h.findTaskLocal]
    rw [htasks] at hy
    rcases mem_enqueue.mp hy with rfl | hy
    · exact hpid
    · exact hs.found y hy
  · rw [first, htasks, hadd, Runqueue.currentPid_add]

end Settled

/-- The processor takes a task of its queue, or none if there is none. -/
def Takes (q : List ℕ) (r : List ℕ × ℕ) : Prop :=
  q = [] ∧ r = ([], 0) ∨ ∃ y ∈ q, r = (q.erase y, y)

/-! ### The calls for one task -/

/-- `scheduler_set_runnable` puts the task into the queue. -/
theorem schedulerSetRunnable_cases (hs : s.Placed) (pid : ℕ) :
    s.findTaskLocal 0 pid = none ∧ s.schedulerSetRunnable 0 pid = (.invalid, s) ∨
    (s.findTaskLocal 0 pid).isSome = true ∧ ∃ t, s.schedulerSetRunnable 0 pid = (.ok, t) ∧
      SameTasks s t ∧ t.runqueues 0 = (s.runqueues 0).add pid := by
  rw [schedulerSetRunnable]
  cases h : s.findTaskLocal 0 pid with
  | none => exact .inl ⟨rfl, rfl⟩
  | some i =>
    refine .inr ⟨rfl, _, rfl, ?_⟩
    rw [(hs.of_find h).2, if_pos (by decide)]
    exact SameTasks.onTask_onQueue s i (·.add pid) fun _ => ⟨rfl, rfl, rfl⟩

/-- `scheduler_set_blocked` takes the task out of the queue. -/
theorem schedulerSetBlocked_cases (hs : s.Placed) (pid : ℕ) :
    s.findTaskLocal 0 pid = none ∧ s.schedulerSetBlocked 0 pid = (.invalid, s) ∨
    ∃ t, s.schedulerSetBlocked 0 pid = (.ok, t) ∧
      SameTasks s t ∧ t.runqueues 0 = (s.runqueues 0).remove pid := by
  rw [schedulerSetBlocked]
  cases h : s.findTaskLocal 0 pid with
  | none => exact .inl ⟨rfl, rfl⟩
  | some i =>
    refine .inr ⟨_, rfl, ?_⟩
    rw [(hs.of_find h).2, if_pos (by decide)]
    exact SameTasks.onTask_onQueue s i (·.remove pid) fun _ => ⟨rfl, rfl, rfl⟩

/-- A task gets a slot of the table. -/
theorem Placed.of_set (hs : s.Placed) (hi : i < taskSlotsPerCpu)
    (hclear : (s.cpuTasks 0).slotBitmap.test i = false)
    (hbitmap : (t.cpuTasks 0).slotBitmap = (s.cpuTasks 0).slotBitmap.set i)
    (hne : ∀ j, j ≠ i → (t.cpuTasks 0).tasks j = (s.cpuTasks 0).tasks j)
    (hactive : ((t.cpuTasks 0).tasks i).active = true)
    (hpid : ((t.cpuTasks 0).tasks i).pid = pid) (hzero : pid ≠ 0)
    (hassigned : ((t.cpuTasks 0).tasks i).assignedCpu = 0) (hqueues : t.runqueues = s.runqueues) :
    t.Placed ∧ ∀ y, (t.findTaskLocal 0 y).isSome = true ↔
      y = pid ∨ (s.findTaskLocal 0 y).isSome = true := by
  have htable := TaskTable.holds_of_set hbitmap hne hactive
  rw [hpid] at htable
  refine ⟨⟨fun y j hj => ?_, by rw [hqueues]; exact hs.others⟩, fun y => ?_⟩
  · rcases (htable y j).mp hj with ⟨rfl, rfl⟩ | ⟨hji, hold⟩
    · exact ⟨hzero, hassigned⟩
    · rw [hne j hji]
      exact hs.slot y j hold
  · rw [isSome_findTaskLocal, isSome_findTaskLocal]
    constructor
    · rintro ⟨j, hj, hholds⟩
      rcases (htable y j).mp hholds with ⟨-, rfl⟩ | ⟨-, hold⟩
      · exact .inl rfl
      · exact .inr ⟨j, hj, hold⟩
    · rintro (rfl | ⟨j, hj, hold⟩)
      · exact ⟨i, hi, (htable y i).mpr (.inl ⟨rfl, rfl⟩)⟩
      · refine ⟨j, hj, (htable y j).mpr (.inr ⟨?_, hold⟩)⟩
        rintro rfl
        rw [(TaskTable.holds_iff.mp hold).1] at hclear
        cases hclear

/-- `scheduler_register_with_priority` makes one process more known. -/
theorem schedulerRegister_cases (hM : M.Sole) (hs : s.Placed) (timer pid : ℕ)
    (priority : TaskPriority) :
    (s.schedulerRegisterWithPriority M 0 timer pid priority).2 = s ∨
    ∃ t, (s.schedulerRegisterWithPriority M 0 timer pid priority).2 = t ∧
      t.runqueues = s.runqueues ∧ t.Placed ∧ ∀ y, (t.findTaskLocal 0 y).isSome = true ↔
        y = pid ∨ (s.findTaskLocal 0 y).isSome = true := by
  rw [schedulerRegisterWithPriority]
  split
  · exact .inl rfl
  next hpid =>
    rw [hM.findLeastLoadedCpu]
    dsimp only
    rw [allocTaskSlot, if_neg (by decide)]
    cases hfree : (range taskSlotsPerCpu).find?
        fun i => !(s.cpuTasks 0).slotBitmap.test i with
    | none => exact .inl rfl
    | some i =>
      refine .inr ⟨_, rfl, rfl, ?_⟩
      refine hs.of_set (mem_range.mp (mem_of_find?_eq_some hfree)) ?_ ?_
        (fun j hj => ?_) ?_ ?_ (fun h => hpid (.inl h)) ?_ rfl
      · simpa using find?_some hfree
      · rw [cpuTasks_onTask_self, cpuTasks_onTask_self, cpuTasks_onBitmap_self]
      · rw [cpuTasks_onTask_self, cpuTasks_onTask_self, cpuTasks_onBitmap_self]
        exact (update_of_ne hj ..).trans (update_of_ne hj ..)
      all_goals
        rw [cpuTasks_onTask_self]
        dsimp only
        rw [update_self]

/-- A slot of the table is given back. -/
theorem Placed.of_clear (hs : s.Placed) (h : s.findTaskLocal 0 pid = some i)
    (hbitmap : (t.cpuTasks 0).slotBitmap = (s.cpuTasks 0).slotBitmap.clear i)
    (hne : ∀ j, j ≠ i → (t.cpuTasks 0).tasks j = (s.cpuTasks 0).tasks j)
    (hothers : ∀ cpu, cpu ≠ 0 → t.runqueues cpu = s.runqueues cpu) :
    t.Placed ∧ ∀ y, y ≠ pid → (s.findTaskLocal 0 y).isSome = true →
      (t.findTaskLocal 0 y).isSome = true := by
  have htable := TaskTable.holds_of_clear hbitmap hne
  refine ⟨⟨fun y j hj => ?_, fun cpu hcpu => ?_⟩, fun y hy hfound => ?_⟩
  · obtain ⟨hji, hold⟩ := (htable y j).mp hj
    rw [hne j hji]
    exact hs.slot y j hold
  · rw [hothers cpu hcpu]
    exact hs.others cpu hcpu
  · obtain ⟨j, hj, hold⟩ := isSome_findTaskLocal.mp hfound
    refine isSome_findTaskLocal.mpr ⟨j, hj, (htable y j).mpr ⟨?_, hold⟩⟩
    rintro rfl
    have hpid := (TaskTable.holds_iff.mp (holds_of_findTaskLocal h).2).2.2
    exact hy ((TaskTable.holds_iff.mp hold).2.2.symm.trans hpid)

/-- `scheduler_unregister` takes a task out of the table and the queue; one with the same
process id may be left. -/
theorem schedulerUnregister_cases (hs : s.Placed) (pid : ℕ) :
    s.findTaskLocal 0 pid = none ∧ s.schedulerUnregister 0 pid = (false, s) ∨
    ∃ t, s.schedulerUnregister 0 pid = (true, t) ∧
      t.first = ((s.runqueues 0).tasks.erase pid,
        if (s.runqueues 0).currentPid = pid then 0 else (s.runqueues 0).currentPid) ∧
      t.Placed ∧ ∀ y, y ≠ pid → (s.findTaskLocal 0 y).isSome = true →
        (t.findTaskLocal 0 y).isSome = true := by
  rw [schedulerUnregister]
  cases h : s.findTaskLocal 0 pid with
  | none => exact .inl ⟨rfl, rfl⟩
  | some i =>
    refine .inr ⟨_, rfl, ?_⟩
    rw [(hs.of_find h).2, if_pos (by decide)]
    refine ⟨?_, hs.of_clear h ?_ (fun j hj => ?_) fun cpu hcpu => ?_⟩
    · rw [first, runqueues_onQueue_self, runqueues_onBitmap, runqueues_onTask]
      rfl
    · rw [cpuTasks_onQueue, cpuTasks_onBitmap_self, cpuTasks_onTask_self]
    · rw [cpuTasks_onQueue, cpuTasks_onBitmap_self, cpuTasks_onTask_self]
      exact update_of_ne hj ..
    · rw [runqueues_onQueue_of_ne _ _ _ hcpu, runqueues_onBitmap, runqueues_onTask]

/-! ### The next task -/

/-- The counters are all that differs. -/
theorem count_count (c c' : Counters → Counters) : (s.count c).count c' = s.count (c' ∘ c) := rfl

/-- Nothing is stolen where there is nobody else. -/
theorem stealFrom_sole (hM : M.Sole) (free : ℕ → Bool) (members : List ℕ) (attempts : ℕ) :
    ∃ c, stealFrom M free 0 members attempts s = (0, s.count c) := by
  induction members generalizing attempts with
  | nil => exact ⟨_, rfl⟩
  | cons victim rest ih =>
    rw [stealFrom]
    split
    · exact ⟨_, rfl⟩
    rw [if_pos]
    · exact ih attempts
    · rcases eq_or_ne victim 0 with hzero | hne
      · exact .inl hzero
      · refine .inr (.inl ?_)
        rw [Machine.smpCpuState]
        split
        · rfl
        next hmax =>
          have honline : (M.cpuState victim).online = false := Bool.eq_false_iff.mpr fun h =>
            hne ((hM victim).mp ⟨Nat.not_le.mp hmax, h⟩)
          rw [any_some, honline]
          rfl

theorem tryStealDomain_sole (hM : M.Sole) (free : ℕ → Bool) (s : Scheduler)
    (domain : Option ℕ) : ∃ c, s.tryStealDomain M free 0 domain = (0, s.count c) := by
  rw [tryStealDomain]
  split
  · exact ⟨id, rfl⟩
  · exact ⟨id, rfl⟩
  · exact stealFrom_sole hM free _ 0

theorem tryStealHierarchical_sole (hM : M.Sole) (free : ℕ → Bool) (s : Scheduler) :
    ∃ c, s.tryStealHierarchical M free 0 = (0, s.count c) := by
  rw [tryStealHierarchical]
  obtain ⟨c, hc⟩ := tryStealDomain_sole hM free s (M.coreDomain 0)
  rw [hc]
  rw [if_neg (not_not_intro rfl)]
  obtain ⟨c', hc'⟩ := tryStealDomain_sole hM free (s.count c) (M.socketDomain 0)
  rw [hc']
  rw [if_neg (not_not_intro rfl)]
  rw [count_count]
  split
  · exact ⟨_, rfl⟩
  · obtain ⟨c'', hc''⟩ := tryStealDomain_sole hM free (s.count (c' ∘ c)) (M.numaDomain 0)
    rw [hc'', count_count]
    exact ⟨_, rfl⟩

/-- `periodic_load_balance` only counts. -/
theorem periodicLoadBalance_eq (M : Machine) (s : Scheduler) (cpu : ℕ) :
    ∃ c, s.periodicLoadBalance M cpu = s.count c := by
  rw [periodicLoadBalance]
  dsimp only
  split
  · exact ⟨_, rfl⟩
  · split
    · exact ⟨_, rfl⟩
    · split
      · exact ⟨_, count_count _ _⟩
      · exact ⟨_, rfl⟩

/-- `rq_pick_best` takes a task out of the queue, if there is one. -/
theorem rqPickBest_cases (s : Scheduler) :
    (s.runqueues 0).tasks = [] ∧ s.rqPickBest 0 = (0, s) ∨
    ∃ y ∈ (s.runqueues 0).tasks, s.rqPickBest 0 = (y, s.onQueue 0 (·.remove y)) := by
  rw [rqPickBest]
  split
  next h => exact .inl ⟨h, rfl⟩
  next pid rest h =>
    have hmem : pickBest (s.taskLocal 0) (s.runqueues 0).tasks pid .low ∈
        pid :: (s.runqueues 0).tasks := pickBest_mem (fun _ _ => pid_of_taskLocal) _ _ _
    refine .inr ⟨_, ?_, rfl⟩
    rcases mem_cons.mp hmem with heq | hmem
    · rw [heq, h]
      exact mem_cons_self
    · exact hmem

theorem pickNext_cases (hM : M.Sole) (free : ℕ → Bool) (hs : s.Settled) :
    ((s.runqueues 0).tasks = [] ∧ ∃ c, s.pickNext M free 0 = (0, s.count c)) ∨
    ∃ y ∈ (s.runqueues 0).tasks, s.pickNext M free 0 = (y, s.onQueue 0 (·.remove y)) := by
  rw [pickNext]
  rcases s.rqPickBest_cases with ⟨hempty, h⟩ | ⟨y, hy, h⟩
  · rw [h]
    exact .inl ⟨hempty, tryStealHierarchical_sole hM free s⟩
  · rw [h]
    exact .inr ⟨y, hy, if_neg (hs.ne_zero hy)⟩

variable {current : ℕ}

/-- The end of a tick makes the next task the current one. -/
theorem switchTo_spec {next : ℕ} (hcurrent : (s.runqueues 0).currentPid = current)
    (hnext : next = 0 ∨ (s.findTaskLocal 0 next).isSome = true) :
    SameTasks s (s.switchTo M 0 current next) ∧
      (s.switchTo M 0 current next).first = ((s.runqueues 0).tasks, next) := by
  rw [switchTo]
  split
  next hzero =>
    obtain ⟨c, hc⟩ := periodicLoadBalance_eq M ((s.onQueue 0 fun rq =>
      { rq with idleTicks := rq.idleTicks + 1, currentPid := 0 }).count
        (·.on 0 fun c => { c with idleTicks := c.idleTicks + 1 })) 0
    rw [hc]
    refine ⟨(SameTasks.onQueue s _).trans ((SameTasks.count _ _).trans (.count _ _)), ?_⟩
    rw [first, runqueues_count, runqueues_count, runqueues_onQueue_self, hzero]
  next hzero =>
    split
    next hsame =>
      refine ⟨(SameTasks.onQueue s _).trans (.count _ _), ?_⟩
      rw [busyTick, first, runqueues_count, runqueues_onQueue_self, hsame]
      exact congrArg (Prod.mk _) hcurrent
    next hother =>
      obtain ⟨i, hi⟩ := isSome_iff_exists.mp (hnext.resolve_left hzero)
      rw [hi]
      obtain ⟨hkeep, hqueue⟩ := SameTasks.onTask_onQueue s i
        (f := fun t => { t with state := .running, switchCount := t.switchCount + 1 })
        (fun rq => { rq.busy with currentPid := next }) fun _ => ⟨rfl, rfl, rfl⟩
      refine ⟨hkeep.trans (.count _ _), ?_⟩
      rw [first, runqueues_count, hqueue]
      rfl

/-- **Taking the next task**: none if the queue is empty, otherwise one of the queue. -/
theorem reschedule_spec (hM : M.Sole) (free : ℕ → Bool) (hs : s.Settled)
    (hcurrent : (s.runqueues 0).currentPid = current) :
    let r := s.pickNext M free 0
    SameTasks s (r.2.switchTo M 0 current r.1) ∧
      Takes (s.runqueues 0).tasks (r.2.switchTo M 0 current r.1).first := by
  intro r
  rcases pickNext_cases hM free hs with ⟨hempty, c, hr⟩ | ⟨y, hy, hr⟩
  · have hswitch := switchTo_spec (M := M) (s := s.count c) hcurrent (.inl rfl)
    rw [show r = (0, s.count c) from hr]
    refine ⟨(SameTasks.count s c).trans hswitch.1, .inl ⟨hempty, ?_⟩⟩
    rw [hswitch.2, runqueues_count, hempty]
  · have hsame : SameTasks s (s.onQueue 0 (·.remove y)) := .onQueue s _
    have hcur : ((s.onQueue 0 (·.remove y)).runqueues 0).currentPid = current := by
      rw [runqueues_onQueue_self]
      exact hcurrent
    have hsome : ((s.onQueue 0 (·.remove y)).findTaskLocal 0 y).isSome = true := by
      rw [hsame.findTaskLocal]
      exact hs.found y hy
    have hswitch := switchTo_spec (M := M) hcur (.inr hsome)
    rw [show r = (y, s.onQueue 0 (·.remove y)) from hr]
    refine ⟨hsame.trans hswitch.1, .inr ⟨y, hy, ?_⟩⟩
    rw [hswitch.2, runqueues_onQueue_self]
    rfl

/-! ### Tick and yield -/

theorem chargeTick_spec (s : Scheduler) (current : ℕ) :
    SameTasks s (s.chargeTick 0 current) ∧ (s.chargeTick 0 current).runqueues = s.runqueues ∧
      ∀ i, (((s.chargeTick 0 current).cpuTasks 0).tasks i).state =
        ((s.cpuTasks 0).tasks i).state := by
  rw [chargeTick]
  split
  · exact ⟨.refl s, rfl, fun _ => rfl⟩
  · split
    · exact ⟨.refl s, rfl, fun _ => rfl⟩
    next i _ =>
      exact ⟨.onTask s i fun _ => ⟨rfl, rfl, rfl⟩, rfl, field_onTask s Task.state rfl⟩

/-- Whether the tick looks for another task, and what happens to the current one. -/
theorem needReschedule_cases (hs : s.Settled) (current : ℕ) :
    (s.needReschedule 0 current = (false, s) ∧ s.stateLocal 0 current = some .runnable) ∨
    (s.needReschedule 0 current = (true, s) ∧ s.stateLocal 0 current ≠ some .runnable) ∨
    (s.stateLocal 0 current = some .runnable ∧
      ∃ t, s.needReschedule 0 current = (true, t) ∧ SameTasks s t ∧ t.Settled ∧
        t.first = (enqueue (s.runqueues 0).tasks current, (s.runqueues 0).currentPid)) := by
  have hnone : s.findTaskLocal 0 current = none → s.stateLocal 0 current ≠ some .runnable := by
    intro h
    rw [stateLocal_of_none h]
    rintro ⟨⟩
  rw [needReschedule]
  split
  next hzero => exact .inr (.inl ⟨rfl, hnone (hzero ▸ hs.find_zero)⟩)
  next hzero =>
    cases h : s.findTaskLocal 0 current with
    | none => exact .inr (.inl ⟨rfl, hnone h⟩)
    | some i =>
      rw [stateLocal, taskLocal, h]
      dsimp only [Option.map]
      split
      next hstate => exact .inr (.inl ⟨rfl, fun heq => hstate (some.inj heq)⟩)
      next hstate =>
        have hrunnable := congrArg some (not_not.mp hstate)
        split
        · obtain ⟨hsame, hadd⟩ := SameTasks.onTask_onQueue s i
            (f := fun t =>
              { t with state := .runnable, remainingTicks := prioritySlice t.priority })
            (·.add current) fun _ => ⟨rfl, rfl, rfl⟩
          exact .inr (.inr ⟨hrunnable, _, rfl, hsame, hs.add hsame (by rw [h]; rfl) hadd⟩)
        · exact .inl ⟨rfl, hrunnable⟩

/-- The part of a tick under the lock. -/
theorem tickLocked_cases (hM : M.Sole) (free : ℕ → Bool) (hs : s.Settled)
    (hcurrent : (s.runqueues 0).currentPid = current) :
    SameTasks s (s.tickLocked M free 0 current) ∧
    ((s.stateLocal 0 current = some .runnable ∧
        (s.tickLocked M free 0 current).first = ((s.runqueues 0).tasks, current)) ∨
      (s.stateLocal 0 current ≠ some .runnable ∧
        Takes (s.runqueues 0).tasks (s.tickLocked M free 0 current).first) ∨
      (s.stateLocal 0 current = some .runnable ∧
        Takes (enqueue (s.runqueues 0).tasks current) (s.tickLocked M free 0 current).first)) := by
  rw [tickLocked]
  obtain ⟨hcharge, hqueues, hstates⟩ := s.chargeTick_spec current
  generalize s.chargeTick 0 current = u at hcharge hqueues hstates ⊢
  have hu : u.Settled := hs.of_same hcharge (by rw [hqueues])
  have hcur : (u.runqueues 0).currentPid = current := by rw [hqueues, hcurrent]
  rw [← hcharge.stateLocal hstates, ← hqueues]
  rcases u.needReschedule_cases hu current with ⟨hneed, hrun⟩ | ⟨hneed, hrun⟩ |
    ⟨hrun, t, hneed, hsame, ht, hfirst⟩
  · -- the slice is not over
    rw [hneed]
    rw [if_pos Bool.not_false]
    refine ⟨(hcharge.trans (.onQueue u _)).trans (.count _ _), .inl ⟨hrun, ?_⟩⟩
    rw [busyTick, first, runqueues_count, runqueues_onQueue_self]
    exact congrArg (Prod.mk _) hcur
  · -- the current task is left behind
    rw [hneed]
    obtain ⟨hres, hqueue⟩ := reschedule_spec hM free hu hcur
    exact ⟨hcharge.trans hres, .inr (.inl ⟨hrun, hqueue⟩)⟩
  · -- the slice is over
    rw [hneed]
    obtain ⟨htasks, hcurt⟩ := Prod.mk.inj hfirst
    obtain ⟨hres, hqueue⟩ := reschedule_spec hM free ht (hcurt.trans hcur)
    rw [htasks] at hqueue
    exact ⟨(hcharge.trans hsame).trans hres, .inr (.inr ⟨hrun, hqueue⟩)⟩

/-- **A tick**: nothing happens to the queue, because the tick is ignored or the current task
is runnable and has a part of its slice left; or the current task is in another state and is
left behind; or its slice is over and it goes back to the queue. -/
theorem schedulerTick_cases (hM : M.Sole) (free : ℕ → Bool) (hs : s.Settled) :
    let q := (s.runqueues 0).tasks
    let current := (s.runqueues 0).currentPid
    SameTasks s (s.schedulerTick M free 0) ∧
    (((s.ticks M 0 = false ∨ s.stateLocal 0 current = some .runnable) ∧
        (s.schedulerTick M free 0).first = s.first) ∨
      (s.ticks M 0 = true ∧ s.stateLocal 0 current ≠ some .runnable ∧
        Takes q (s.schedulerTick M free 0).first) ∨
      (s.stateLocal 0 current = some .runnable ∧
        Takes (enqueue q current) (s.schedulerTick M free 0).first)) := by
  intro q current
  rw [schedulerTick]
  cases hticks : s.ticks M 0 with
  | false => exact ⟨.refl s, .inl ⟨.inl rfl, rfl⟩⟩
  | true =>
    rw [if_neg (by decide)]
    dsimp only
    generalize hc : s.count _ = u
    have hsame : SameTasks s u := hc ▸ .count s _
    have hqueues : u.runqueues = s.runqueues := hc ▸ rfl
    have hstate : u.stateLocal 0 current = s.stateLocal 0 current := hc ▸ rfl
    have hcases := tickLocked_cases hM free (hs.of_same hsame (by rw [hqueues]))
      (show (u.runqueues 0).currentPid = current by rw [hqueues])
    rw [hqueues, hstate] at hcases
    rw [hqueues]
    obtain ⟨htick, hkept | hleft | hback⟩ := hcases
    · exact ⟨hsame.trans htick, .inl ⟨.inr hkept.1, hkept.2⟩⟩
    · exact ⟨hsame.trans htick, .inr (.inl ⟨rfl, hleft⟩)⟩
    · exact ⟨hsame.trans htick, .inr (.inr hback)⟩

/-- The best task of the queue becomes the current one. -/
theorem yieldLocked_spec (hu : s.giveUp 0 current = u) (hs : u.Settled)
    (hcur : (u.runqueues 0).currentPid = current) :
    SameTasks u (s.yieldLocked 0 current) ∧
      ((u.runqueues 0).tasks = [] ∧ (s.yieldLocked 0 current).first = ([], current) ∨
        ∃ y ∈ (u.runqueues 0).tasks,
          (s.yieldLocked 0 current).first = ((u.runqueues 0).tasks.erase y, y)) := by
  rw [yieldLocked, hu]
  rcases u.rqPickBest_cases with ⟨hempty, h⟩ | ⟨y, hy, h⟩
  · rw [h, if_neg fun hand => hand.1 rfl]
    exact ⟨.refl u, .inl ⟨hempty, by rw [first, hempty, hcur]⟩⟩
  · rw [h]
    dsimp only
    split
    next hand =>
      refine ⟨?_, .inr ⟨y, hy, ?_⟩⟩
      · refine SameTasks.trans (SameTasks.trans ?_ (.onQueue _ _)) (.count _ _)
        split
        · refine SameTasks.trans (.onQueue u (·.remove y)) ?_
          exact .onTask _ _ fun _ => ⟨rfl, rfl, rfl⟩
        · exact .onQueue u _
      · rw [first, runqueues_count, runqueues_onQueue_self]
        split
        · rw [runqueues_onTask, runqueues_onQueue_self]
          rfl
        · rw [runqueues_onQueue_self]
          rfl
    next hand =>
      have hsame : y = current := not_not.mp fun hne => hand ⟨hs.ne_zero hy, hne⟩
      refine ⟨.onQueue u _, .inr ⟨y, hy, ?_⟩⟩
      rw [first, runqueues_onQueue_self, hsame]
      exact congrArg (Prod.mk _) hcur

/-- **A yield**: the current task goes back to the queue, and the best of the queue runs. -/
theorem schedulerYield_cases (hs : s.Settled)
    (hknown : (s.runqueues 0).currentPid = 0 ∨
      (s.findTaskLocal 0 (s.runqueues 0).currentPid).isSome = true) :
    let q := (s.runqueues 0).tasks
    let current := (s.runqueues 0).currentPid
    SameTasks s (s.schedulerYield 0) ∧
    ((s.schedulerYield 0).first = s.first ∨
      (current = 0 ∧ Takes q (s.schedulerYield 0).first) ∨
      (current ≠ 0 ∧ Takes (enqueue q current) (s.schedulerYield 0).first)) := by
  intro q current
  rw [schedulerYield]
  split
  · exact ⟨.refl s, .inl rfl⟩
  rw [if_neg (by decide)]
  dsimp only
  generalize hc : (s.count _).count _ = v
  have hsame : SameTasks s v := hc ▸ (SameTasks.count s _).trans (.count _ _)
  have hqueues : v.runqueues = s.runqueues := hc ▸ rfl
  have hv : v.Settled := hs.of_same hsame (by rw [hqueues])
  rw [hqueues]
  by_cases hzero : current = 0
  · -- nothing ran
    obtain ⟨hyield, hqueue⟩ :=
      yieldLocked_spec (if_pos hzero) hv (show (v.runqueues 0).currentPid = current by rw [hqueues])
    rw [hqueues] at hqueue
    refine ⟨hsame.trans hyield, ?_⟩
    rcases hqueue with ⟨hempty, hfirst⟩ | hqueue
    · exact .inl (hfirst.trans (congrArg (Prod.mk · current) hempty.symm))
    · exact .inr (.inl ⟨hzero, .inr hqueue⟩)
  · -- the current task is in the queue when the best is taken
    have hsome : (v.findTaskLocal 0 current).isSome = true := by
      rw [hsame.findTaskLocal]
      exact hknown.resolve_left hzero
    obtain ⟨i, hi⟩ := isSome_iff_exists.mp hsome
    obtain ⟨hgive, hadd⟩ := SameTasks.onTask_onQueue v i
      (f := fun t => { t with remainingTicks := 0, state := .runnable }) (·.add current)
      fun _ => ⟨rfl, rfl, rfl⟩
    obtain ⟨hu, hfirst⟩ := hv.add hgive hsome hadd
    obtain ⟨htasks, hcur⟩ := Prod.mk.inj hfirst
    rw [hqueues] at htasks hcur
    obtain ⟨hyield, hqueue⟩ := yieldLocked_spec (by rw [giveUp, if_neg hzero, hi]) hu hcur
    rw [htasks] at hqueue
    refine ⟨(hsame.trans hgive).trans hyield, .inr (.inr ⟨hzero, ?_⟩)⟩
    rcases hqueue with ⟨hempty, -⟩ | hqueue
    · exact absurd (mem_enqueue.mpr (.inl rfl)) (hempty ▸ not_mem_nil)
    · exact .inr hqueue

end Scheduler

end Xaios
