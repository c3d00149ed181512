import Mathlib.Algebra.Ring.Nat
import Xaios.Status

/-!
# The supervisor of services

The part of `user/service.c` that starts a service again after a crash, with a delay that
should double from crash to crash.

`supervisor_restart_failed_child` doubles the delay that is recorded in the service and then
calls `start_service`, which sets it to zero. So after every restart no delay is recorded, and
every restart is the first one to the supervisor (`Supervisor.backoff_never_grows`).
The number of restarts is bounded.
-/

namespace Xaios.Supervisor

/-- `xaios_service_state_t`. -/
inductive ServiceState where
  | stopped
  | starting
  | running
  | exited
  | failed
  deriving DecidableEq

/-- The values of `restart_policy`. -/
inductive RestartPolicy where
  | unset
  | never
  | always
  | onFailure
  deriving DecidableEq

/-- `xaios_service_t`, as far as it has to do with crashes. The counters and times are `uint64_t`
in the source: a counter would wrap only after `2 ^ 64` crashes of the service, the times are
stored and not computed with, and the delay is doubled with its wrap (`nextBackoff`). -/
structure Service where
  restartPolicy : RestartPolicy
  maxRestarts : ℕ
  state : ServiceState
  exitCode : Int
  starts : ℕ
  restartAttempts : ℕ
  crashCount : ℕ
  cleanupCount : ℕ
  backoffNs : ℕ
  lastStartNs : ℕ
  lastHeartbeatNs : ℕ
  watchdogEnabled : Bool

/-- `XAIOS_BACKOFF_BASE_NS`. -/
def backoffBaseNs : ℕ := 1000000000

/-- `XAIOS_BACKOFF_CAP_NS`. -/
def backoffCapNs : ℕ := 60000000000

/-- The delay before a restart, from the one that is recorded. -/
def nextBackoff (backoffNs : ℕ) : ℕ :=
  if backoffNs = 0 then backoffBaseNs
  else
    let doubled := backoffNs * 2 % 2 ^ 64
    if backoffCapNs < doubled then backoffCapNs else doubled

namespace Service

variable (now : ℕ) (s : Service)

/-- `start_service`. -/
def startService : Status × Service :=
  if s.state ≠ .stopped ∧ s.state ≠ .exited ∧ s.state ≠ .failed then (.invalid, s)
  else if s.state ≠ .stopped ∧ s.maxRestarts ≠ 0xffffffff ∧ s.maxRestarts ≤ s.starts then
    (.invalid, s)
  else (.ok, { s with
    state := .running
    starts := s.starts + 1
    lastStartNs := now
    lastHeartbeatNs := now
    watchdogEnabled := true
    backoffNs := 0 })

/-- `supervisor_restart_failed_child`. -/
def supervisorRestartFailedChild : Status × Service :=
  if s.restartPolicy ≠ .always ∧ s.restartPolicy ≠ .onFailure then (.invalid, s)
  else
    let s := { s with restartAttempts := s.restartAttempts + 1 }
    if s.maxRestarts ≠ 0xffffffff ∧ s.maxRestarts < s.restartAttempts then (.invalid, s)
    else startService now { s with
      backoffNs := nextBackoff s.backoffNs
      cleanupCount := s.cleanupCount + 1
      state := .stopped }

/-- `mark_service_exit`. -/
def markServiceExit (exitCode : Int) (supervise : Bool) : Status × Service :=
  if s.state ≠ .running then (.invalid, s)
  else if exitCode = 0 then
    (.ok, { s with exitCode := 0, state := .exited, cleanupCount := s.cleanupCount + 1 })
  else
    let s := { s with exitCode := exitCode, state := .failed, crashCount := s.crashCount + 1 }
    if supervise then s.supervisorRestartFailedChild now else (.ok, s)

end Service

/-- A number of crashes in a row, each of them followed by a restart. -/
inductive Crashes : ℕ → Service → Service → Prop where
  | start (s : Service) : Crashes 0 s s
  | crash {k now : ℕ} {s s' s'' : Service} {exitCode : Int} : Crashes k s s' → exitCode ≠ 0 →
    s'.markServiceExit now exitCode true = (.ok, s'') → Crashes (k + 1) s s''

variable {s s' : Service} {now k : ℕ} {exitCode : Int}

/-- **What a crash with a restart does**: no delay is recorded, and one more attempt is. -/
theorem crash_cases (hcode : exitCode ≠ 0) (h : s.markServiceExit now exitCode true = (.ok, s')) :
    s'.backoffNs = 0 ∧ s'.maxRestarts = s.maxRestarts ∧
      s'.restartAttempts = s.restartAttempts + 1 ∧
      (s.maxRestarts ≠ 0xffffffff → s'.restartAttempts ≤ s.maxRestarts) := by
  rw [Service.markServiceExit, if_neg hcode] at h
  split at h
  · cases h
  rw [if_pos rfl, Service.supervisorRestartFailedChild] at h
  split at h
  · cases h
  dsimp only at h
  split at h
  · cases h
  next hroom =>
    rw [Service.startService] at h
    dsimp only at h
    rw [if_neg (by decide), if_neg (fun hs => hs.1 rfl)] at h
    cases h
    exact ⟨rfl, rfl, rfl, fun hmax => not_lt.mp fun hlt => hroom ⟨hmax, hlt⟩⟩

/-- The attempts that crashes leave. -/
theorem Crashes.attempts (h : Crashes k s s') : s'.maxRestarts = s.maxRestarts ∧
    s'.restartAttempts = s.restartAttempts + k ∧
    (0 < k → s.maxRestarts ≠ 0xffffffff → s'.restartAttempts ≤ s.maxRestarts) := by
  induction h with
  | start s => exact ⟨rfl, rfl, fun hk => absurd hk (lt_irrefl 0)⟩
  | crash _ hcode hexit ih =>
    obtain ⟨-, hmax, hattempts, hbound⟩ := crash_cases hcode hexit
    obtain ⟨hmax', hattempts', -⟩ := ih
    refine ⟨hmax.trans hmax', ?_, fun _ hne => ?_⟩
    · rw [hattempts, hattempts', Nat.add_assoc]
    · rw [hmax'] at hbound
      exact hbound hne

/-- **The delay never grows.** After any number of crashes in a row, each followed by a
restart by the supervisor: the delay that is recorded is none and not the one that doubles
with each crash up to the cap, and the next restart waits for the base delay again. There are
never more restarts than the maximum. -/
theorem backoff_never_grows (h : Crashes k s s') (hk : 0 < k) :
    s'.backoffNs ≠ min (backoffBaseNs * 2 ^ (k - 1)) backoffCapNs ∧
      nextBackoff s'.backoffNs = backoffBaseNs ∧
      (s.maxRestarts ≠ 0xffffffff → k ≤ s.maxRestarts) := by
  have hattempts := h.attempts
  refine ⟨?_, ?_, fun hmax => ?_⟩
  · cases h with
    | start => cases hk
    | crash _ hcode hexit =>
      rw [(crash_cases hcode hexit).1]
      exact ne_of_lt (lt_min (Nat.mul_pos (by decide) (Nat.two_pow_pos _)) (by decide))
  · cases h with
    | start => cases hk
    | crash _ hcode hexit =>
      rw [(crash_cases hcode hexit).1]
      rfl
  · omega

/-- A service that runs and may be restarted five times. -/
def worker : Service :=
  ⟨.onFailure, 5, .running, 0, 1, 0, 0, 0, 0, 1000, 1000, true⟩

theorem crashes_worker : Crashes 1 worker (worker.markServiceExit 2000 11 true).2 :=
  .crash (.start worker) (by decide : (11 : Int) ≠ 0)
    (show worker.markServiceExit 2000 11 true = (.ok, _) from rfl)

/-- The result at the first crash of the service. -/
theorem backoff_after_crash : (worker.markServiceExit 2000 11 true).2.backoffNs ≠
    min (backoffBaseNs * 2 ^ (1 - 1)) backoffCapNs :=
  (backoff_never_grows crashes_worker (by decide)).1

/-- **After two crashes no delay is recorded**, where it should be two seconds. -/
theorem second_backoff_lost : ∃ s, Crashes 2 worker s ∧ s.backoffNs = 0 ∧
    min (backoffBaseNs * 2 ^ (2 - 1)) backoffCapNs = 2000000000 :=
  ⟨_, .crash crashes_worker (by decide : (11 : Int) ≠ 0)
    (show Service.markServiceExit 3000 _ 11 true = (.ok, _) from rfl), rfl, by decide⟩

end Xaios.Supervisor
