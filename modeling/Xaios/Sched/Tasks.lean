import Xaios.Foundation.Loop
import Xaios.Sched.OneCpu

/-!
# Tasks that are lost

Runs of the scheduler. Beside it stands the set of the processes whose last request was to
be runnable (`Tasks`). None is lost if each of them is in one place, as the current
task of a CPU or once in a queue, and is found from every CPU (`Tasks.NoneLost`).

Tasks are lost. `find_task_local` looks into the table of one CPU only, so a task is not found
from any other. And a task that is dispatched has the state `running`, while the tick puts
the current task back into the queue only if its state is `runnable`: the second tick drops
it (`tick_drops_task`).

On a machine with one CPU that is all. A run there loses no task exactly if no tick finds a
task that asked to run in another state than `runnable`, and no task is made runnable while
it is the current one (`none_lost_iff`). Its calls are steps of the abstract processor
(`run_refines_dispatch`).
-/

namespace Xaios

open Sched Foundation List Scheduler

/-- A call of the scheduler, with the CPU it is made on. A registration is given the value of
the timer, a tick the locks that are free. -/
inductive SchedCall where
  | register (cpu timer pid : ℕ) (priority : TaskPriority)
  | unregister (cpu pid : ℕ)
  | setRunnable (cpu pid : ℕ)
  | setBlocked (cpu pid : ℕ)
  | yield (cpu : ℕ)
  | tick (cpu : ℕ) (free : ℕ → Bool)
  | lock (cpu : ℕ)
  | unlock (cpu : ℕ)

/-- The CPU a call is made on. -/
def SchedCall.cpu : SchedCall → ℕ
  | .register cpu _ _ _ => cpu
  | .unregister cpu _ => cpu
  | .setRunnable cpu _ => cpu
  | .setBlocked cpu _ => cpu
  | .yield cpu => cpu
  | .tick cpu _ => cpu
  | .lock cpu => cpu
  | .unlock cpu => cpu

/-- The scheduler, and the processes whose last request was to be runnable. -/
structure Tasks where
  sched : Scheduler
  wanted : Finset ℕ

/-- One call. A request that is refused does not count. -/
def Tasks.exec (M : Machine) (t : Tasks) : SchedCall → Tasks
  | .register cpu timer pid priority =>
    ⟨(t.sched.schedulerRegisterWithPriority M cpu timer pid priority).2, t.wanted⟩
  | .unregister cpu pid =>
    let r := t.sched.schedulerUnregister cpu pid
    ⟨r.2, if r.1 then t.wanted.erase pid else t.wanted⟩
  | .setRunnable cpu pid =>
    let r := t.sched.schedulerSetRunnable cpu pid
    ⟨r.2, if r.1 = .ok then insert pid t.wanted else t.wanted⟩
  | .setBlocked cpu pid =>
    let r := t.sched.schedulerSetBlocked cpu pid
    ⟨r.2, if r.1 = .ok then t.wanted.erase pid else t.wanted⟩
  | .yield cpu => ⟨t.sched.schedulerYield cpu, t.wanted⟩
  | .tick cpu free => ⟨t.sched.schedulerTick M free cpu, t.wanted⟩
  | .lock cpu => ⟨t.sched.schedulerLock cpu, t.wanted⟩
  | .unlock cpu => ⟨t.sched.schedulerUnlock cpu, t.wanted⟩

/-- After `scheduler_init` nothing has been asked for. -/
def tasksInit : Tasks := ⟨Scheduler.schedulerInit, ∅⟩

/-- A process has exactly one place: it is the current task of one CPU, or once in one
queue. -/
def Scheduler.InOnePlace (s : Scheduler) (pid : ℕ) : Prop :=
  ∃ cpu < maxCpus,
    (((s.runqueues cpu).currentPid = pid ∧ pid ∉ (s.runqueues cpu).tasks) ∨
      ((s.runqueues cpu).currentPid ≠ pid ∧ (s.runqueues cpu).tasks.count pid = 1)) ∧
    ∀ c < maxCpus, c ≠ cpu → (s.runqueues c).currentPid ≠ pid ∧ pid ∉ (s.runqueues c).tasks

/-- **No task is lost**: each process that asked to run has exactly one place, and is found
from every CPU. -/
def Tasks.NoneLost (M : Machine) (t : Tasks) : Prop :=
  ∀ pid ∈ t.wanted, t.sched.InOnePlace pid ∧
    ∀ cpu, M.Online cpu → (t.sched.findTaskLocal cpu pid).isSome = true

/-- **A call that loses nothing**: a task is not made runnable while it is the current one,
and a tick that is not ignored finds the current task runnable if it asked to run. -/
def SchedCall.KeepsTasks (M : Machine) (t : Tasks) : SchedCall → Prop
  | .setRunnable cpu pid => (t.sched.findTaskLocal cpu pid).isSome = true →
      (t.sched.runqueues cpu).currentPid ≠ pid
  | .tick cpu _ => t.sched.ticks M cpu = true → (t.sched.runqueues cpu).currentPid ∈ t.wanted →
      t.sched.stateLocal cpu (t.sched.runqueues cpu).currentPid = some .runnable
  | _ => True

/-! ### The abstract processor -/

/-- The current task as an option. -/
def running (pid : ℕ) : Option ℕ := if pid = 0 then none else some pid

theorem running_eq_some {pid x : ℕ} : running pid = some x ↔ pid = x ∧ x ≠ 0 := by
  rw [running]
  split
  next h =>
    constructor
    · rintro ⟨⟩
    · rintro ⟨rfl, hne⟩
      exact absurd h hne
  next h =>
    rw [Option.some_inj]
    constructor
    · rintro rfl
      exact ⟨rfl, h⟩
    · exact And.left

theorem running_unless (current pid : ℕ) :
    running (if current = pid then 0 else current) = (running current).filter (· ≠ pid) := by
  rcases eq_or_ne current pid with rfl | hne
  · rw [if_pos rfl, running, running, if_pos rfl]
    split
    · rfl
    · simp [Option.filter]
  · rw [if_neg hne, running]
    split
    · rfl
    · simp [Option.filter, hne]

namespace Tasks

variable {M : Machine} {t t' : Tasks} {c : SchedCall} {pid : ℕ}

/-- CPU 0 as an abstract processor. -/
def dispatch (t : Tasks) : Dispatch ℕ where
  known := {pid | (t.sched.findTaskLocal 0 pid).isSome = true}
  ready := (t.sched.runqueues 0).tasks
  running := running (t.sched.runqueues 0).currentPid
  wanted := ↑t.wanted

/-- The invariant of one CPU. -/
structure Inv (t : Tasks) : Prop where
  placed : t.sched.Placed
  sound : t.dispatch.Sound

theorem inv_tasksInit : tasksInit.Inv where
  placed := by
    refine ⟨fun pid i h => ?_, fun _ _ => ⟨rfl, rfl⟩⟩
    have hbit := (TaskTable.holds_iff.mp h).2.1
    cases hbit
  sound := by
    refine ⟨nodup_nil, ?_, ?_, ?_, ?_⟩
    · rintro _ ⟨⟩
    · rintro _ ⟨⟩
    · rintro _ ⟨⟩
    · intro x hx
      exact absurd (Finset.mem_coe.mp hx) (Finset.notMem_empty x)

variable {q : List ℕ} {current : ℕ}

theorem dispatch_eq {known : Set ℕ}
    (hknown : ∀ y, (t.sched.findTaskLocal 0 y).isSome = true ↔ y ∈ known)
    (hfirst : t.sched.first = (q, current)) :
    t.dispatch = ⟨known, q, running current, ↑t.wanted⟩ := by
  have hset : t.dispatch.known = known := Set.ext hknown
  obtain ⟨hq, hcurrent⟩ := Prod.mk.inj hfirst
  rw [← hset, ← hq, ← hcurrent]
  rfl

theorem dispatch_of_same (h : Scheduler.SameTasks t.sched t'.sched)
    (hfirst : t'.sched.first = (q, current)) :
    t'.dispatch = ⟨t.dispatch.known, q, running current, ↑t'.wanted⟩ := by
  refine dispatch_eq (fun y => ?_) hfirst
  rw [h.findTaskLocal]
  exact .rfl

namespace Inv

theorem mem_known (h : t.Inv) (hpid : pid ∈ t.dispatch.known) : pid ≠ 0 := by
  obtain ⟨i, hi⟩ := Option.isSome_iff_exists.mp hpid
  exact (h.placed.of_find hi).1

theorem settled (h : t.Inv) : t.sched.Settled := ⟨h.placed, h.sound.nodup, h.sound.known_ready⟩

theorem current_known (h : t.Inv) : (t.sched.runqueues 0).currentPid = 0 ∨
    (t.sched.findTaskLocal 0 (t.sched.runqueues 0).currentPid).isSome = true := by
  by_cases hzero : (t.sched.runqueues 0).currentPid = 0
  · exact .inl hzero
  · exact .inr (h.sound.known_running _ (running_eq_some.mpr ⟨rfl, hzero⟩))

/-- A task that is left behind and did not ask to run. -/
theorem left_of_notMem (hnot : (t.sched.runqueues 0).currentPid ∉ t.wanted) :
    ∀ x, t.dispatch.running = some x → x ∉ t.dispatch.wanted := by
  intro x hx hwanted
  rw [(running_eq_some.mp hx).1] at hnot
  exact hnot (Finset.mem_coe.mp hwanted)

/-- The processor takes a task of its queue, or none. -/
theorem takes (h : t.Inv) (hsame : Scheduler.SameTasks t.sched t'.sched)
    (hwanted : t'.wanted = t.wanted) (hnot : (t.sched.runqueues 0).currentPid ∉ t.wanted)
    (hfirst : Scheduler.Takes (t.sched.runqueues 0).tasks t'.sched.first) :
    Dispatch.Step t.dispatch t'.dispatch := by
  rcases hfirst with ⟨hempty, hfirst⟩ | ⟨y, hy, hfirst⟩
  · rw [dispatch_of_same hsame hfirst, hwanted, ← hempty]
    exact .stop t.dispatch (left_of_notMem hnot)
  · have hrun : running y = some y := running_eq_some.mpr ⟨rfl, h.settled.ne_zero hy⟩
    rw [dispatch_of_same hsame hfirst, hwanted, hrun]
    exact .take t.dispatch y hy (left_of_notMem hnot)

/-- The processor puts its task back and takes one. -/
theorem rotates (h : t.Inv) (hsame : Scheduler.SameTasks t.sched t'.sched)
    (hwanted : t'.wanted = t.wanted) (hzero : (t.sched.runqueues 0).currentPid ≠ 0)
    (hfirst : Scheduler.Takes (enqueue (t.sched.runqueues 0).tasks
      (t.sched.runqueues 0).currentPid) t'.sched.first) :
    Dispatch.Step t.dispatch t'.dispatch := by
  rcases hfirst with ⟨hempty, -⟩ | ⟨y, hy, hfirst⟩
  · exact absurd (mem_enqueue.mpr (.inl rfl)) (hempty ▸ not_mem_nil)
  have hrun : running y = some y := by
    refine running_eq_some.mpr ⟨rfl, ?_⟩
    rcases mem_enqueue.mp hy with rfl | hy
    · exact hzero
    · exact h.settled.ne_zero hy
  rw [dispatch_of_same hsame hfirst, hwanted, hrun]
  exact .rotate t.dispatch _ y (running_eq_some.mpr ⟨rfl, hzero⟩) hy

/-- Nothing happens to the processor. -/
theorem idles (hsame : Scheduler.SameTasks t.sched t'.sched) (hwanted : t'.wanted = t.wanted)
    (hfirst : t'.sched.first = t.sched.first) : Dispatch.Step t.dispatch t'.dispatch := by
  rw [dispatch_of_same hsame hfirst, hwanted]
  exact .idle t.dispatch

end Inv

/-- **Refinement.** On one CPU, a call that loses nothing is a step of the abstract
processor. -/
theorem Inv.refines (hM : M.Sole) (h : t.Inv) (hcpu : c.cpu = 0) (hc : c.KeepsTasks M t) :
    (t.exec M c).sched.Placed ∧ Dispatch.Step t.dispatch (t.exec M c).dispatch := by
  have hidle : t.sched.Placed ∧ Dispatch.Step t.dispatch t.dispatch := ⟨h.placed, .idle t.dispatch⟩
  cases c with
  | register cpu timer pid priority =>
    obtain rfl : cpu = 0 := hcpu
    rcases schedulerRegister_cases hM h.placed timer pid priority with
      hself | ⟨s, hs, hqueues, hplaced, hknown⟩
    · rw [exec, hself]
      exact hidle
    · rw [exec, hs]
      refine ⟨hplaced, ?_⟩
      have hfirst : s.first = t.sched.first := by rw [first, hqueues, first]
      have hdispatch : dispatch ⟨s, t.wanted⟩ =
          { t.dispatch with known := insert pid t.dispatch.known } := dispatch_eq hknown hfirst
      rw [hdispatch]
      exact .learn t.dispatch pid
  | unregister cpu pid =>
    obtain rfl : cpu = 0 := hcpu
    rcases schedulerUnregister_cases h.placed pid with
      ⟨-, hself⟩ | ⟨s, hs, hfirst, hplaced, hknown⟩
    · rw [exec, hself]
      exact hidle
    · rw [exec, hs]
      refine ⟨hplaced, ?_⟩
      change Dispatch.Step t.dispatch (dispatch ⟨s, t.wanted.erase pid⟩)
      rw [dispatch_eq (t := ⟨s, t.wanted.erase pid⟩) (fun _ => .rfl) hfirst, running_unless,
        Finset.coe_erase]
      exact .forget t.dispatch pid _ hknown
  | setRunnable cpu pid =>
    obtain rfl : cpu = 0 := hcpu
    rcases schedulerSetRunnable_cases h.placed pid with
      ⟨-, hself⟩ | ⟨hsome, s, hs, hsame, hadd⟩
    · rw [exec, hself]
      exact hidle
    · rw [exec, hs]
      refine ⟨h.placed.of_same hsame, ?_⟩
      change Dispatch.Step t.dispatch (dispatch ⟨s, insert pid t.wanted⟩)
      obtain ⟨-, hfirst⟩ := h.settled.add hsame hsome hadd
      have hdispatch : dispatch ⟨s, insert pid t.wanted⟩ = _ := dispatch_of_same hsame hfirst
      rw [hdispatch, Finset.coe_insert]
      exact .wake t.dispatch pid hsome fun hrun => hc hsome (running_eq_some.mp hrun).1
  | setBlocked cpu pid =>
    obtain rfl : cpu = 0 := hcpu
    rcases schedulerSetBlocked_cases h.placed pid with
      ⟨-, hself⟩ | ⟨s, hs, hsame, hremove⟩
    · rw [exec, hself]
      exact hidle
    · rw [exec, hs]
      refine ⟨h.placed.of_same hsame, ?_⟩
      change Dispatch.Step t.dispatch (dispatch ⟨s, t.wanted.erase pid⟩)
      have hfirst : s.first = ((t.sched.runqueues 0).tasks.erase pid,
          (t.sched.runqueues 0).currentPid) := by
        rw [first, hremove]
        rfl
      have hdispatch : dispatch ⟨s, t.wanted.erase pid⟩ = _ := dispatch_of_same hsame hfirst
      rw [hdispatch, Finset.coe_erase]
      exact .rest t.dispatch pid
  | yield cpu =>
    obtain rfl : cpu = 0 := hcpu
    obtain ⟨hsame, hfirst | ⟨hzero, hfirst⟩ | ⟨hne, hfirst⟩⟩ :=
      schedulerYield_cases h.settled h.current_known
    · exact ⟨h.placed.of_same hsame, idles hsame rfl hfirst⟩
    · refine ⟨h.placed.of_same hsame, h.takes hsame rfl ?_ hfirst⟩
      rw [hzero]
      exact fun hwanted => h.mem_known (h.sound.known_wanted (Finset.mem_coe.mpr hwanted)) rfl
    · exact ⟨h.placed.of_same hsame, h.rotates hsame rfl hne hfirst⟩
  | tick cpu free =>
    obtain rfl : cpu = 0 := hcpu
    obtain ⟨hsame, ⟨-, hfirst⟩ | ⟨hticks, hleft, hfirst⟩ | ⟨hrun, hfirst⟩⟩ :=
      schedulerTick_cases hM free h.settled
    · exact ⟨h.placed.of_same hsame, idles hsame rfl hfirst⟩
    · exact ⟨h.placed.of_same hsame,
        h.takes hsame rfl (fun hwanted => hleft (hc hticks hwanted)) hfirst⟩
    · refine ⟨h.placed.of_same hsame, h.rotates hsame rfl (fun hzero => ?_) hfirst⟩
      rw [hzero, stateLocal_of_none h.placed.find_zero] at hrun
      cases hrun
  | lock cpu | unlock cpu =>
    simp only [exec, schedulerLock, schedulerUnlock]
    split
    · exact ⟨⟨h.placed.slot, h.placed.others⟩, .idle t.dispatch⟩
    · exact hidle

theorem Inv.exec (hM : M.Sole) (h : t.Inv) (hcpu : c.cpu = 0) (hc : c.KeepsTasks M t) :
    (t.exec M c).Inv :=
  ⟨(h.refines hM hcpu hc).1, h.sound.step (h.refines hM hcpu hc).2⟩

/-- Where the processor is sound no task is lost. -/
theorem Inv.noneLost (hM : M.Sole) (h : t.Inv) : t.NoneLost M := by
  intro pid hpid
  have hwanted : pid ∈ t.dispatch.wanted := Finset.mem_coe.mpr hpid
  have hknown := h.sound.known_wanted hwanted
  have hzero := h.mem_known hknown
  refine ⟨⟨0, by decide, ?_, fun c _ hc => ?_⟩, fun cpu hcpu => ?_⟩
  · have hrun : t.dispatch.running = some pid ↔ (t.sched.runqueues 0).currentPid = pid :=
      running_eq_some.trans (and_iff_left hzero)
    have hplace := h.sound.one_place hwanted
    rw [ne_eq, hrun] at hplace
    exact hplace
  · rw [(h.placed.others c hc).1, (h.placed.others c hc).2]
    exact ⟨hzero.symm, not_mem_nil⟩
  · rw [(hM cpu).mp hcpu]
    exact hknown

/-- A process that is neither the current task nor in the queue is lost. -/
theorem not_noneLost_of_first (hplaced : t.sched.Placed) (hfirst : t.sched.first = (q, current))
    (hpid : pid ∈ t.wanted) (hzero : pid ≠ 0)
    (hbad : current = pid ∧ pid ∈ q ∨ current ≠ pid ∧ pid ∉ q) : ¬t.NoneLost M := by
  intro hlost
  obtain ⟨⟨cpu, -, hplace, -⟩, -⟩ := hlost pid hpid
  obtain ⟨hq, hcurrent⟩ := Prod.mk.inj hfirst
  rcases eq_or_ne cpu 0 with rfl | hcpu
  · rw [hq, hcurrent] at hplace
    rcases hbad with ⟨hrun, hin⟩ | ⟨hrun, hin⟩
    · rcases hplace with ⟨-, hout⟩ | ⟨hnot, -⟩
      · exact hout hin
      · exact hnot hrun
    · rcases hplace with ⟨hrun', -⟩ | ⟨-, hcount⟩
      · exact hrun hrun'
      · rw [count_eq_zero.mpr hin] at hcount
        cases hcount
  · rw [(hplaced.others cpu hcpu).1, (hplaced.others cpu hcpu).2] at hplace
    rcases hplace with ⟨hrun, -⟩ | ⟨-, hcount⟩
    · exact hzero hrun.symm
    · cases hcount

/-- **One call** on one CPU loses no task exactly if it meets the condition. -/
theorem Inv.noneLost_exec_iff (hM : M.Sole) (h : t.Inv) (hcpu : c.cpu = 0) :
    (t.exec M c).NoneLost M ↔ c.KeepsTasks M t := by
  refine ⟨fun hlost => ?_, fun hc => (h.exec hM hcpu hc).noneLost hM⟩
  cases c with
  | setRunnable cpu pid =>
    obtain rfl : cpu = 0 := hcpu
    intro hsome hcurrent
    rcases schedulerSetRunnable_cases h.placed pid with
      ⟨hnone, -⟩ | ⟨-, s, hs, hsame, hadd⟩
    · rw [hnone] at hsome
      cases hsome
    · rw [Tasks.exec, hs] at hlost
      refine not_noneLost_of_first (h.placed.of_same hsame) rfl
        (Finset.mem_insert_self pid t.wanted) (h.mem_known hsome) (.inl ⟨?_, ?_⟩) hlost
      · rw [hadd, Runqueue.currentPid_add, hcurrent]
      · rw [(Prod.mk.inj (h.settled.add hsame hsome hadd).2).1]
        exact mem_enqueue.mpr (.inl rfl)
  | tick cpu free =>
    obtain rfl : cpu = 0 := hcpu
    intro hticks hwanted
    by_contra hstate
    have hzero := h.mem_known (h.sound.known_wanted (Finset.mem_coe.mpr hwanted))
    have hapart : (t.sched.runqueues 0).currentPid ∉ (t.sched.runqueues 0).tasks :=
      h.sound.apart _ (running_eq_some.mpr ⟨rfl, hzero⟩)
    obtain ⟨hsame, ⟨hkept, -⟩ | ⟨-, -, hfirst⟩ | ⟨hrun, -⟩⟩ :=
      schedulerTick_cases hM free h.settled
    · rcases hkept with hoff | hrun
      · rw [hticks] at hoff
        cases hoff
      · exact hstate hrun
    · rcases hfirst with ⟨hempty, hfirst⟩ | ⟨y, hy, hfirst⟩
      · exact not_noneLost_of_first (t := t.exec M (.tick 0 free)) (h.placed.of_same hsame) hfirst
          hwanted hzero (.inr ⟨hzero.symm, not_mem_nil⟩) hlost
      · refine not_noneLost_of_first (t := t.exec M (.tick 0 free)) (h.placed.of_same hsame) hfirst
          hwanted hzero (.inr ⟨?_, fun hin => hapart (mem_of_mem_erase hin)⟩) hlost
        rintro rfl
        exact hapart hy
    · exact hstate hrun
  | _ => trivial

end Tasks

/-- **Tasks on one CPU.** On a machine whose only CPU is CPU 0, a run of calls loses no task
exactly if each of its calls meets the condition. -/
theorem none_lost_iff {M : Machine} (hM : M.Sole) {cs : List SchedCall}
    (hcs : ∀ c ∈ cs, M.Online c.cpu) :
    Along (Tasks.exec M) (fun t c => (t.exec M c).NoneLost M) tasksInit cs ↔
      Along (Tasks.exec M) (fun t c => c.KeepsTasks M t) tasksInit cs := by
  have honline : Along (Tasks.exec M) (fun _ c => M.Online c.cpu) tasksInit cs :=
    along_of_forall (I := fun _ => True) trivial hcs fun _ _ _ h => ⟨h, trivial⟩
  have hcongr := Along.congr
    (Q := fun t c => M.Online c.cpu ∧ SchedCall.KeepsTasks M t c) Tasks.inv_tasksInit
    (fun t c h hc => h.exec hM ((hM _).mp hc.1) hc.2)
    (fun t c h => and_congr_right fun hc => h.noneLost_exec_iff hM ((hM _).mp hc)) cs
  rw [along_and, along_and] at hcongr
  exact ⟨fun h => (hcongr.mp ⟨honline, h⟩).2, fun h => (hcongr.mpr ⟨honline, h⟩).2⟩

/-- **The scheduler of one CPU is a processor with a set of waiting tasks.** In a run whose calls
meet the condition, every call makes one step of the abstract processor. -/
theorem run_refines_dispatch {M : Machine} (hM : M.Sole) {cs : List SchedCall}
    (hcs : ∀ c ∈ cs, M.Online c.cpu)
    (hkeeps : Along (Tasks.exec M) (fun t c => c.KeepsTasks M t) tasksInit cs) :
    Along (Tasks.exec M) (fun t c => Dispatch.Step t.dispatch (t.exec M c).dispatch)
      tasksInit cs := by
  have honline : Along (Tasks.exec M) (fun _ c => M.Online c.cpu) tasksInit cs :=
    along_const.mpr hcs
  refine (along_and.mpr ⟨honline, hkeeps⟩).imp (I := Tasks.Inv) Tasks.inv_tasksInit
    fun t c h hc => ?_
  have hcpu := (hM _).mp hc.1
  exact ⟨(h.refines hM hcpu hc.2).2, h.exec hM hcpu hc.2⟩

/-! ### Machines of the kind the kernel boots on -/

/-- The machine `qemu-virt` with at most sixteen CPUs after `smp_init_qemu_virt` and
`topology_init`: one node, and a domain of all CPUs. `scheduling_enabled` is never set for
CPU 0. -/
def qemuVirt (cpus : ℕ) : Machine where
  cpuState cpu :=
    if cpu = 0 then ⟨true, .housekeeping, false⟩
    else if cpu < cpus then ⟨true, .scheduling, true⟩
    else ⟨false, .offline, false⟩
  coreDomain cpu := if cpu < cpus then some 3 else some 0
  socketDomain _ := some 1
  numaDomain _ := some 1
  domain
    | 0 => some [1]
    | 1 => some [2]
    | 2 => some [3]
    | 3 => some (range cpus)
    | _ => some []
  numaNode _ := some 0

theorem sole_qemuVirt : (qemuVirt 1).Sole := by
  intro cpu
  constructor
  · rintro ⟨-, honline⟩
    by_contra hzero
    have hlt : ¬cpu < 1 := fun h => hzero (Nat.lt_one_iff.mp h)
    change (ite _ _ _ : CpuState).online = true at honline
    rw [if_neg hzero, if_neg hlt] at honline
    cases honline
  · rintro rfl
    exact ⟨by decide, rfl⟩

/-- A task is registered, made runnable, and runs; it yields twice. -/
def yieldCalls : List SchedCall :=
  [.register 0 0 1 .normal, .setRunnable 0 1, .yield 0, .yield 0]

/-- The result at these calls. -/
theorem none_lost_yieldCalls : (∀ c ∈ yieldCalls, (qemuVirt 1).Online c.cpu) ∧
    Along (Tasks.exec (qemuVirt 1)) (fun t c => (t.exec (qemuVirt 1) c).NoneLost (qemuVirt 1))
      tasksInit yieldCalls := by
  have honline : ∀ c ∈ yieldCalls, (qemuVirt 1).Online c.cpu := by
    intro c hc
    refine (sole_qemuVirt _).mpr ?_
    simp only [yieldCalls, mem_cons, not_mem_nil, or_false] at hc
    rcases hc with rfl | rfl | rfl | rfl <;> rfl
  refine ⟨honline, (none_lost_iff sole_qemuVirt honline).mpr
    ⟨trivial, ?_, trivial, trivial, trivial⟩⟩
  intro _
  decide +kernel

theorem yieldCalls_refine : Along (Tasks.exec (qemuVirt 1))
    (fun t c => Dispatch.Step t.dispatch (t.exec (qemuVirt 1) c).dispatch)
    tasksInit yieldCalls := by
  refine run_refines_dispatch sole_qemuVirt (fun c hc => (sole_qemuVirt _).mpr ?_)
    ⟨trivial, fun _ => by decide +kernel, trivial, trivial, trivial⟩
  simp only [yieldCalls, mem_cons, not_mem_nil, or_false] at hc
  rcases hc with rfl | rfl | rfl | rfl <;> rfl

/-- A task is registered on CPU 1 and made runnable there, and the timer ticks twice. -/
def tickCalls : List SchedCall :=
  [.register 1 1 1 .normal, .setRunnable 1 1, .tick 1 fun _ => true, .tick 1 fun _ => true]

/-- The state after these calls. -/
def tasksDropped : Tasks := tickCalls.foldl (Tasks.exec (qemuVirt 2)) tasksInit

theorem foldl_tickCalls : tickCalls.foldl (Tasks.exec (qemuVirt 2)) tasksInit = tasksDropped := rfl

-- the state is evaluated by the kernel only
attribute [irreducible] tasksDropped

/-- **The second tick drops the task**: its record is there, but no CPU runs it and no queue
has it. It was never found from CPU 0. -/
theorem tick_drops_task :
    (∀ c ∈ tickCalls, (qemuVirt 2).Online c.cpu) ∧ 1 ∈ tasksDropped.wanted ∧
    tasksDropped.sched.stateLocal 1 1 = some .running ∧
    (∀ cpu < maxCpus, (tasksDropped.sched.runqueues cpu).currentPid ≠ 1 ∧
      1 ∉ (tasksDropped.sched.runqueues cpu).tasks) ∧
    tasksDropped.sched.findTaskLocal 0 1 = none ∧
    ¬Along (Tasks.exec (qemuVirt 2)) (fun t c => (t.exec (qemuVirt 2) c).NoneLost (qemuVirt 2))
      tasksInit tickCalls := by
  have hwanted : 1 ∈ tasksDropped.wanted := by decide +kernel
  have hall : ((range maxCpus).all fun cpu =>
      decide ((tasksDropped.sched.runqueues cpu).currentPid ≠ 1 ∧
        1 ∉ (tasksDropped.sched.runqueues cpu).tasks)) = true := by
    decide +kernel
  have hqueues : ∀ cpu < maxCpus, (tasksDropped.sched.runqueues cpu).currentPid ≠ 1 ∧
      1 ∉ (tasksDropped.sched.runqueues cpu).tasks := fun cpu hcpu =>
    of_decide_eq_true (all_eq_true.mp hall cpu (mem_range.mpr hcpu))
  have hstate : tasksDropped.sched.stateLocal 1 1 = some .running := by decide +kernel
  have hfind : tasksDropped.sched.findTaskLocal 0 1 = none := by decide +kernel
  have honline : ∀ c ∈ tickCalls, (qemuVirt 2).Online c.cpu := by
    intro c hc
    have hone : c.cpu = 1 := by
      simp only [tickCalls, mem_cons, not_mem_nil, or_false] at hc
      rcases hc with rfl | rfl | rfl | rfl <;> rfl
    rw [hone]
    exact ⟨by decide, rfl⟩
  refine ⟨honline, hwanted, hstate, hqueues, hfind, ?_⟩
  intro hrun
  have hlast := hrun.foldl_induct
    (fun pid hpid => absurd hpid (Finset.notMem_empty pid)) fun _ _ _ h => h
  rw [foldl_tickCalls] at hlast
  obtain ⟨⟨cpu, hcpu, hplace, -⟩, -⟩ := hlast 1 hwanted
  rcases hplace with ⟨hcurrent, -⟩ | ⟨-, hcount⟩
  · exact (hqueues cpu hcpu).1 hcurrent
  · have hzero : (tasksDropped.sched.runqueues cpu).tasks.count 1 = 0 :=
      count_eq_zero.mpr (hqueues cpu hcpu).2
    exact absurd (hzero.symm.trans hcount) (by decide)

end Xaios
