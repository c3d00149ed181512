import Mathlib.Algebra.Ring.Nat
import Xaios.Foundation.Bitmap
import Xaios.Status

/-!
# The scheduler

`kernel/sched/scheduler.c`. Every CPU has a table of tasks and a run queue. The records of
the tasks are in the tables, each in the table of the CPU it was registered on; the run
queues and the field for the current task hold process ids only. What the CPUs are and how
they are grouped comes from `kernel/arch/aarch64/smp.c` and `topology.c`
(`Sched.Machine`).

A call is one step: the spin locks are free between calls, and `xaios_spin_trylock` of a
victim's lock answers what the call is given.
-/

namespace Xaios

namespace Sched

open Foundation Function

/-! ### Tasks -/

/-- `XAIOS_MAX_CPUS`. -/
def maxCpus : ℕ := 256

/-- `XAIOS_SCHEDULER_MAX_TASKS`. -/
def schedulerMaxTasks : ℕ := 32768

/-- `XAIOS_SCHEDULER_PER_CPU_RUNQUEUE`. -/
def schedulerPerCpuRunqueue : ℕ := 128

/-- `XAIOS_TASK_SLOTS_PER_CPU`. -/
def taskSlotsPerCpu : ℕ := 128

/-- `xaios_task_priority_t`. -/
inductive TaskPriority where
  | high
  | normal
  | low
  deriving DecidableEq, Repr

/-- The number of a priority; the smaller comes first. -/
def TaskPriority.toNat : TaskPriority → ℕ
  | .high => 0
  | .normal => 1
  | .low => 2

/-- `xaios_task_state_t`. -/
inductive TaskState where
  | unused
  | registered
  | runnable
  | running
  | blocked
  deriving DecidableEq, Repr

/-- `xaios_sched_task_t`, without the saved registers. -/
structure Task where
  pid : ℕ
  active : Bool
  tickCount : ℕ
  switchCount : ℕ
  priority : TaskPriority
  state : TaskState
  assignedCpu : ℕ
  remainingTicks : ℕ

/-- A record of zero bytes. -/
def Task.zero : Task := ⟨0, false, 0, 0, .high, .unused, 0, 0⟩

/-- `priority_slice`. -/
def prioritySlice : TaskPriority → ℕ
  | .high => 4
  | .normal => 2
  | .low => 1

/-- `xaios_cpu_task_table_t`. -/
structure TaskTable where
  slotBitmap : Bitmap
  tasks : ℕ → Task

/-- The test of `find_task_local`. -/
def TaskTable.holds (t : TaskTable) (pid i : ℕ) : Bool :=
  t.slotBitmap.test i && (t.tasks i).active && (t.tasks i).pid == pid

/-! ### Run queues -/

/-- `xaios_runqueue_t`: the first `count` entries, the current task, and two counters. -/
structure Runqueue where
  tasks : List ℕ
  currentPid : ℕ
  idleTicks : ℕ
  busyTicks : ℕ

/-- `rq_add`. -/
def Runqueue.add (rq : Runqueue) (pid : ℕ) : Runqueue :=
  if rq.tasks.length < schedulerPerCpuRunqueue ∧ pid ∉ rq.tasks then
    { rq with tasks := rq.tasks ++ [pid] }
  else rq

/-- `rq_remove`. -/
def Runqueue.remove (rq : Runqueue) (pid : ℕ) : Runqueue :=
  { rq with tasks := rq.tasks.erase pid }

/-- `++rq->busy_ticks`. -/
def Runqueue.busy (rq : Runqueue) : Runqueue := { rq with busyTicks := rq.busyTicks + 1 }

/-- The loop of `rq_pick_best`, with the best task so far. -/
def pickBest (task : ℕ → Option Task) : List ℕ → ℕ → TaskPriority → ℕ
  | [], best, _ => best
  | pid :: rest, best, prio =>
    let next := match task pid with
      | some t => if t.priority.toNat < prio.toNat then (t.pid, t.priority) else (best, prio)
      | none => (best, prio)
    if next.2 = .high then next.1 else pickBest task rest next.1 next.2

/-- The loop of `rq_pick_stealable`, with the best task so far. -/
def pickStealable (task : ℕ → Option Task) (current : ℕ) : List ℕ → ℕ → TaskPriority → ℕ
  | [], best, _ => best
  | pid :: rest, best, prio =>
    if pid = current then pickStealable task current rest best prio
    else match task pid with
      | none => pickStealable task current rest best prio
      | some t =>
        if t.priority.toNat ≤ prio.toNat ∧ (t.priority.toNat < prio.toNat ∨ best = 0) then
          pickStealable task current rest pid t.priority
        else pickStealable task current rest best prio

/-! ### The machine -/

/-- `xaios_cpu_role_t`. -/
inductive CpuRole where
  | offline
  | housekeeping
  | scheduling
  | aiHot
  deriving DecidableEq, Repr

/-- `xaios_cpu_state_t`, as far as the scheduler reads it. -/
structure CpuState where
  online : Bool
  role : CpuRole
  schedulingEnabled : Bool

/-- The CPUs and their topology. `UINT32_MAX` for a domain or a node is `none`; a domain is
the list of its members. -/
structure Machine where
  cpuState : ℕ → CpuState
  coreDomain : ℕ → Option ℕ
  socketDomain : ℕ → Option ℕ
  numaDomain : ℕ → Option ℕ
  domain : ℕ → Option (List ℕ)
  numaNode : ℕ → Option ℕ

namespace Machine

/-- `smp_cpu_state`. -/
def smpCpuState (M : Machine) (cpu : ℕ) : Option CpuState :=
  if maxCpus ≤ cpu then none else some (M.cpuState cpu)

/-- `smp_online_count`. -/
def smpOnlineCount (M : Machine) : ℕ :=
  (List.range maxCpus).countP fun cpu => (M.cpuState cpu).online

/-- A CPU of the machine that is running. -/
def Online (M : Machine) (cpu : ℕ) : Prop := cpu < maxCpus ∧ (M.cpuState cpu).online = true

/-- A CPU on which a task may be placed. -/
def places (M : Machine) (cpu : ℕ) : Bool :=
  (M.smpCpuState cpu).any fun state =>
    state.online && (state.role == .scheduling || state.role == .housekeeping)

/-- `find_least_loaded_cpu`, called on a CPU, with the value of the timer. -/
def findLeastLoadedCpu (M : Machine) (thisCpu timer : ℕ) : ℕ :=
  let online := M.smpOnlineCount
  if online = 0 then 0
  else
    let start := timer % 2 ^ 32 % online
    let cpus := (List.range online).map fun i => (start + i) % online
    let nearby : ℕ → Bool := fun cpu => match M.numaNode thisCpu with
      | some node => M.numaNode cpu == some node
      | none => true
    match cpus.find? fun cpu => M.places cpu && nearby cpu with
    | some cpu => cpu
    | none => (cpus.find? M.places).getD 0

end Machine

/-! ### The state -/

/-- `xaios_sched_stats_t`, the counters that are written. -/
structure SchedStats where
  tickCount : ℕ
  contextSwitchCount : ℕ
  yieldCount : ℕ
  stealSuccessCount : ℕ
  stealFailCount : ℕ
  loadBalanceCount : ℕ
  idleTicks : ℕ
  busyTicks : ℕ

/-- The counters of the scheduler. -/
structure Counters where
  stats : ℕ → SchedStats
  tickCount : ℕ
  contextSwitchCount : ℕ
  yieldCount : ℕ
  stealCount : ℕ
  balanceCounter : ℕ

/-- Counting on one CPU. -/
def Counters.on (c : Counters) (cpu : ℕ) (f : SchedStats → SchedStats) : Counters :=
  { c with stats := update c.stats cpu (f (c.stats cpu)) }

end Sched

open Sched Foundation Function

/-- The variables of `scheduler.c`. -/
structure Scheduler where
  cpuTasks : ℕ → TaskTable
  runqueues : ℕ → Runqueue
  lockDepthPerCpu : ℕ → ℕ
  initialized : Bool
  counters : Counters

namespace Scheduler

/-- A write to one run queue. -/
def onQueue (s : Scheduler) (cpu : ℕ) (f : Runqueue → Runqueue) : Scheduler :=
  { s with runqueues := update s.runqueues cpu (f (s.runqueues cpu)) }

/-- A write to one record. -/
def onTask (s : Scheduler) (cpu slot : ℕ) (f : Task → Task) : Scheduler :=
  { s with
    cpuTasks := update s.cpuTasks cpu
      { s.cpuTasks cpu with
        tasks := update (s.cpuTasks cpu).tasks slot (f ((s.cpuTasks cpu).tasks slot)) } }

/-- A write to the bitmap of one table. -/
def onBitmap (s : Scheduler) (cpu : ℕ) (f : Bitmap → Bitmap) : Scheduler :=
  { s with
    cpuTasks := update s.cpuTasks cpu
      { s.cpuTasks cpu with slotBitmap := f (s.cpuTasks cpu).slotBitmap } }

/-- Counting. -/
def count (s : Scheduler) (f : Counters → Counters) : Scheduler :=
  { s with counters := f s.counters }

section Writes

variable (s : Scheduler) (cpu slot : ℕ) (f : Task → Task) (g : Runqueue → Runqueue)
  (b : Bitmap → Bitmap) (c : Counters → Counters)

@[simp] theorem runqueues_onTask : (s.onTask cpu slot f).runqueues = s.runqueues := rfl

@[simp] theorem runqueues_onBitmap : (s.onBitmap cpu b).runqueues = s.runqueues := rfl

@[simp] theorem runqueues_count : (s.count c).runqueues = s.runqueues := rfl

@[simp] theorem cpuTasks_onQueue : (s.onQueue cpu g).cpuTasks = s.cpuTasks := rfl

@[simp] theorem runqueues_onQueue_self :
    (s.onQueue cpu g).runqueues cpu = g (s.runqueues cpu) := update_self ..

theorem runqueues_onQueue_of_ne {cpu' : ℕ} (h : cpu' ≠ cpu) :
    (s.onQueue cpu g).runqueues cpu' = s.runqueues cpu' := update_of_ne h ..

@[simp] theorem cpuTasks_onTask_self : (s.onTask cpu slot f).cpuTasks cpu =
    { s.cpuTasks cpu with
      tasks := update (s.cpuTasks cpu).tasks slot (f ((s.cpuTasks cpu).tasks slot)) } :=
  update_self ..

@[simp] theorem cpuTasks_onBitmap_self : (s.onBitmap cpu b).cpuTasks cpu =
    { s.cpuTasks cpu with slotBitmap := b (s.cpuTasks cpu).slotBitmap } :=
  update_self ..

end Writes

/-- `find_task_local`; a pointer to a record is its slot. -/
def findTaskLocal (s : Scheduler) (cpu pid : ℕ) : Option ℕ :=
  if maxCpus ≤ cpu then none
  else (List.range taskSlotsPerCpu).find? ((s.cpuTasks cpu).holds pid)

/-- The record `find_task_local` points to. -/
def taskLocal (s : Scheduler) (cpu pid : ℕ) : Option Task :=
  (s.findTaskLocal cpu pid).map (s.cpuTasks cpu).tasks

/-- `alloc_task_slot`: the first clear bit is claimed and the record zeroed. -/
def allocTaskSlot (s : Scheduler) (cpu : ℕ) : Option (ℕ × Scheduler) :=
  if maxCpus ≤ cpu then none
  else match (List.range taskSlotsPerCpu).find? fun i => !(s.cpuTasks cpu).slotBitmap.test i with
    | none => none
    | some i => some (i, (s.onBitmap cpu (·.set i)).onTask cpu i fun _ => Task.zero)

/-- `rq_pick_best`. -/
def rqPickBest (s : Scheduler) (cpu : ℕ) : ℕ × Scheduler :=
  match (s.runqueues cpu).tasks with
  | [] => (0, s)
  | pid :: _ =>
    let best := pickBest (s.taskLocal cpu) (s.runqueues cpu).tasks pid .low
    (best, s.onQueue cpu (·.remove best))

/-- `rq_pick_stealable`. -/
def rqPickStealable (s : Scheduler) (victim : ℕ) : ℕ × Scheduler :=
  let rq := s.runqueues victim
  let best := pickStealable (s.taskLocal victim) rq.currentPid rq.tasks 0 .low
  if best = 0 then (0, s) else (best, s.onQueue victim (·.remove best))

/-! ### Work stealing -/

/-- The loop of `try_steal_domain` over the members that are left. -/
def stealFrom (M : Machine) (free : ℕ → Bool) (thisCpu : ℕ) :
    List ℕ → ℕ → Scheduler → ℕ × Scheduler
  | [], _, s =>
    (0, s.count (·.on thisCpu fun c => { c with stealFailCount := c.stealFailCount + 1 }))
  | victim :: rest, attempts, s =>
    if 3 ≤ attempts then
      (0, s.count (·.on thisCpu fun c => { c with stealFailCount := c.stealFailCount + 1 }))
    else if victim = thisCpu ∨
        !(M.smpCpuState victim).any (fun state => state.online && state.schedulingEnabled) ∨
        (s.runqueues victim).tasks.length ≤ 2 ∨ !free victim then
      stealFrom M free thisCpu rest attempts s
    else
      let (stolen, s) := s.rqPickStealable victim
      if stolen = 0 then stealFrom M free thisCpu rest (attempts + 1) s
      else
        let s := match s.findTaskLocal victim stolen with
          | some i => s.onTask victim i fun t =>
              { t with assignedCpu := thisCpu, remainingTicks := prioritySlice t.priority }
          | none => s
        (stolen, (s.onQueue thisCpu (·.add stolen)).count fun c =>
          { c.on thisCpu fun c => { c with stealSuccessCount := c.stealSuccessCount + 1 } with
            stealCount := c.stealCount + 1 })

/-- `try_steal_domain`. -/
def tryStealDomain (M : Machine) (free : ℕ → Bool) (s : Scheduler) (thisCpu : ℕ)
    (domain : Option ℕ) : ℕ × Scheduler :=
  match domain.bind M.domain with
  | none => (0, s)
  | some [] => (0, s)
  | some members => stealFrom M free thisCpu members 0 s

/-- `try_steal_hierarchical`. -/
def tryStealHierarchical (M : Machine) (free : ℕ → Bool) (s : Scheduler) (thisCpu : ℕ) :
    ℕ × Scheduler :=
  let core := s.tryStealDomain M free thisCpu (M.coreDomain thisCpu)
  if core.1 ≠ 0 then core
  else
    let socket := core.2.tryStealDomain M free thisCpu (M.socketDomain thisCpu)
    if socket.1 ≠ 0 then socket
    else if M.numaDomain thisCpu = M.socketDomain thisCpu then (0, socket.2)
    else socket.2.tryStealDomain M free thisCpu (M.numaDomain thisCpu)

/-- The busiest member of a domain in `periodic_load_balance`, with its number of tasks. -/
def busiest (s : Scheduler) (members : List ℕ) : Option ℕ × ℕ :=
  members.foldl (fun b cpu =>
    let n := (s.runqueues cpu).tasks.length
    if b.2 < n then (some cpu, n) else b) (none, 0)

/-- `periodic_load_balance`: an imbalance is counted, nothing is moved. -/
def periodicLoadBalance (M : Machine) (s : Scheduler) (thisCpu : ℕ) : Scheduler :=
  let round := s.counters.balanceCounter
  let s := s.count fun c => { c with balanceCounter := (c.balanceCounter + 1) % 2 ^ 32 }
  if round % 1000 ≠ 0 then s
  else match (M.coreDomain thisCpu).bind M.domain with
    | none => s
    | some members =>
      let b := s.busiest members
      if (s.runqueues thisCpu).tasks.length * 2 < b.2 ∧ 4 < b.2 ∧ b.1 ≠ none ∧
          b.1 ≠ some thisCpu then
        s.count (·.on thisCpu fun c => { c with loadBalanceCount := c.loadBalanceCount + 1 })
      else s

/-! ### The calls -/

/-- `scheduler_init`; the tables and queues of CPUs that are not up are zero from the
start. -/
def schedulerInit : Scheduler where
  cpuTasks _ := ⟨fun _ => 0, fun _ => Task.zero⟩
  runqueues _ := ⟨[], 0, 0, 0⟩
  lockDepthPerCpu _ := 0
  initialized := true
  counters := ⟨fun _ => ⟨0, 0, 0, 0, 0, 0, 0, 0⟩, 0, 0, 0, 0, 0⟩

/-- `scheduler_register_with_priority`, called on a CPU, with the value of the timer. -/
def schedulerRegisterWithPriority (M : Machine) (s : Scheduler) (thisCpu timer pid : ℕ)
    (priority : TaskPriority) : Status × Scheduler :=
  if pid = 0 ∨ schedulerMaxTasks < pid then (.invalid, s)
  else
    let cpu := M.findLeastLoadedCpu thisCpu timer
    match s.allocTaskSlot cpu with
    | none => (.noMemory, s)
    | some (i, s) => (.ok, s.onTask cpu i fun t =>
        { t with
          pid := pid
          active := true
          priority := priority
          state := .registered
          remainingTicks := prioritySlice priority
          assignedCpu := cpu })

/-- `scheduler_register`. -/
def schedulerRegister (M : Machine) (s : Scheduler) (thisCpu timer pid : ℕ) : Status × Scheduler :=
  s.schedulerRegisterWithPriority M thisCpu timer pid .normal

/-- `scheduler_unregister`; the answer says whether the task was found. -/
def schedulerUnregister (s : Scheduler) (cpu pid : ℕ) : Bool × Scheduler :=
  match s.findTaskLocal cpu pid with
  | none => (false, s)
  | some i =>
    let assigned := ((s.cpuTasks cpu).tasks i).assignedCpu
    let s := s.onTask cpu i fun t => { t with active := false, state := .unused }
    let s := s.onBitmap cpu (·.clear i)
    (true, if assigned < maxCpus then s.onQueue assigned fun rq =>
        { rq.remove pid with currentPid := if rq.currentPid = pid then 0 else rq.currentPid }
      else s)

/-- `scheduler_set_runnable`. -/
def schedulerSetRunnable (s : Scheduler) (cpu pid : ℕ) : Status × Scheduler :=
  match s.findTaskLocal cpu pid with
  | none => (.invalid, s)
  | some i =>
    let assigned := ((s.cpuTasks cpu).tasks i).assignedCpu
    let s := s.onTask cpu i fun t =>
      { t with state := .runnable, remainingTicks := prioritySlice t.priority }
    (.ok, if assigned < maxCpus then s.onQueue assigned (·.add pid) else s)

/-- `scheduler_set_blocked`. -/
def schedulerSetBlocked (s : Scheduler) (cpu pid : ℕ) : Status × Scheduler :=
  match s.findTaskLocal cpu pid with
  | none => (.invalid, s)
  | some i =>
    let assigned := ((s.cpuTasks cpu).tasks i).assignedCpu
    let s := s.onTask cpu i fun t => { t with state := .blocked }
    (.ok, if assigned < maxCpus then s.onQueue assigned (·.remove pid) else s)

/-- `scheduler_lock`. -/
def schedulerLock (s : Scheduler) (cpu : ℕ) : Scheduler :=
  if cpu < maxCpus then
    { s with lockDepthPerCpu := update s.lockDepthPerCpu cpu (s.lockDepthPerCpu cpu + 1) }
  else s

/-- `scheduler_unlock`. -/
def schedulerUnlock (s : Scheduler) (cpu : ℕ) : Scheduler :=
  if cpu < maxCpus ∧ 0 < s.lockDepthPerCpu cpu then
    { s with lockDepthPerCpu := update s.lockDepthPerCpu cpu (s.lockDepthPerCpu cpu - 1) }
  else s

/-! ### The tick -/

/-- A tick is not ignored. -/
def ticks (M : Machine) (s : Scheduler) (cpu : ℕ) : Bool :=
  s.initialized && decide (cpu < maxCpus) && s.lockDepthPerCpu cpu == 0 &&
    (M.smpCpuState cpu).all (·.schedulingEnabled)

/-- The tick is charged to the current task. -/
def chargeTick (s : Scheduler) (cpu current : ℕ) : Scheduler :=
  if current = 0 then s
  else match s.findTaskLocal cpu current with
    | none => s
    | some i => s.onTask cpu i fun t =>
        { t with tickCount := t.tickCount + 1, remainingTicks := t.remainingTicks - 1 }

/-- Whether another task is to be looked for. A task that is runnable and has used up its
slice goes back to the queue; one in any other state does not. -/
def needReschedule (s : Scheduler) (cpu current : ℕ) : Bool × Scheduler :=
  if current = 0 then (true, s)
  else match s.findTaskLocal cpu current with
    | none => (true, s)
    | some i =>
      let t := (s.cpuTasks cpu).tasks i
      if t.state ≠ .runnable then (true, s)
      else if t.remainingTicks = 0 then
        (true, (s.onTask cpu i fun t =>
          { t with state := .runnable, remainingTicks := prioritySlice t.priority }).onQueue cpu
            (·.add current))
      else (false, s)

/-- A tick that leaves the current task as it is. -/
def busyTick (s : Scheduler) (cpu : ℕ) : Scheduler :=
  (s.onQueue cpu Runqueue.busy).count (·.on cpu fun c => { c with busyTicks := c.busyTicks + 1 })

/-- The next task: the best of the own queue, or a stolen one. -/
def pickNext (M : Machine) (free : ℕ → Bool) (s : Scheduler) (cpu : ℕ) : ℕ × Scheduler :=
  let best := s.rqPickBest cpu
  if best.1 = 0 then best.2.tryStealHierarchical M free cpu else best

/-- The end of a tick, with the task that was current and the next one. -/
def switchTo (M : Machine) (s : Scheduler) (cpu current next : ℕ) : Scheduler :=
  if next = 0 then
    ((s.onQueue cpu fun rq => { rq with idleTicks := rq.idleTicks + 1, currentPid := 0 }).count
      (·.on cpu fun c => { c with idleTicks := c.idleTicks + 1 })).periodicLoadBalance M cpu
  else if next = current then s.busyTick cpu
  else match s.findTaskLocal cpu next with
    | none => s
    | some i =>
      ((s.onTask cpu i fun t =>
        { t with state := .running, switchCount := t.switchCount + 1 }).onQueue cpu fun rq =>
          { rq.busy with currentPid := next }).count fun c =>
        { c.on cpu fun c => { c with contextSwitchCount := c.contextSwitchCount + 1 } with
          contextSwitchCount := c.contextSwitchCount + 1 }

/-- The part of a tick under the lock of the queue, with the current task. -/
def tickLocked (M : Machine) (free : ℕ → Bool) (s : Scheduler) (cpu current : ℕ) : Scheduler :=
  let r := (s.chargeTick cpu current).needReschedule cpu current
  if !r.1 then r.2.busyTick cpu
  else
    let next := r.2.pickNext M free cpu
    next.2.switchTo M cpu current next.1

/-- `scheduler_tick`. -/
def schedulerTick (M : Machine) (free : ℕ → Bool) (s : Scheduler) (cpu : ℕ) : Scheduler :=
  if !s.ticks M cpu then s
  else
    let s := s.count fun c =>
      { c.on cpu fun c => { c with tickCount := c.tickCount + 1 } with
        tickCount := c.tickCount + 1 }
    s.tickLocked M free cpu (s.runqueues cpu).currentPid

/-- The current task gives up the CPU: its slice is over, and it goes back to the queue
whatever its state. -/
def giveUp (s : Scheduler) (cpu current : ℕ) : Scheduler :=
  if current = 0 then s
  else match s.findTaskLocal cpu current with
    | none => s
    | some i =>
      (s.onTask cpu i fun t => { t with remainingTicks := 0, state := .runnable }).onQueue cpu
        (·.add current)

/-- The part of a yield under the lock of the queue, with the current task. -/
def yieldLocked (s : Scheduler) (cpu current : ℕ) : Scheduler :=
  let r := (s.giveUp cpu current).rqPickBest cpu
  if r.1 ≠ 0 ∧ r.1 ≠ current then
    let s := match r.2.findTaskLocal cpu r.1 with
      | some i => r.2.onTask cpu i fun t =>
          { t with state := .running, switchCount := t.switchCount + 1 }
      | none => r.2
    (s.onQueue cpu fun rq => { rq with currentPid := r.1 }).count fun c =>
      { c.on cpu fun c => { c with contextSwitchCount := c.contextSwitchCount + 1 } with
        contextSwitchCount := c.contextSwitchCount + 1 }
  else r.2

/-- `scheduler_yield`. -/
def schedulerYield (s : Scheduler) (cpu : ℕ) : Scheduler :=
  if !s.initialized then s
  else
    let s := s.count fun c => { c with yieldCount := c.yieldCount + 1 }
    if maxCpus ≤ cpu then s
    else
      let s := s.count (·.on cpu fun c => { c with yieldCount := c.yieldCount + 1 })
      s.yieldLocked cpu (s.runqueues cpu).currentPid

end Scheduler

end Xaios
