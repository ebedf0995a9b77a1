import NeoZygisk.Monitor.Rearm
import NeoZygisk.Monitor.Children

/-!
# The commands of the control socket

What the monitor does for START, STOP, EXIT, REARM and for the messages of the daemon. `requestStop` is in
the module of the handlers, which need it too.
-/

set_option autoImplicit false

namespace NeoZygisk.Monitor

namespace AppMonitor

/-- Whether `request_start` seizes init. -/
def startSeizes (m : AppMonitor) : Bool := m.tracingState == .stopped

/-- `request_start`. The result of `PTRACE_SEIZE` is not looked at. -/
def requestStart (m : AppMonitor) : AppMonitor :=
  if m.tracingState = .stopping then { m with tracingState := .tracing }
  else if m.tracingState = .stopped then { m with tracingState := .tracing }
  else m

/-- `request_exit`. -/
def requestExit (m : AppMonitor) : AppMonitor :=
  { m with tracingState := .exiting, stopReason := "user requested" }

/-- `request_rearm`: what the rearm leaves, and the monitor. -/
def requestRearm (o : RearmOutcomes) (ignoreDisable : Bool) (m : AppMonitor) : Rearmed × AppMonitor :=
  let m := if m.tracingState ≠ .tracing then m.requestStart else m
  let r := rearm o ignoreDisable m.abi
  let m := { m with abi := r.abi }
  if r.result = .failed then (r, m.requestStop "rearm failed") else (r, m)

@[simp] theorem requestStart_abi (m : AppMonitor) : m.requestStart.abi = m.abi := by
  simp only [requestStart]
  split_ifs <;> rfl

theorem requestStart_tracingState (m : AppMonitor) :
    m.requestStart.tracingState =
      if m.tracingState = .exiting then .exiting else .tracing := by
  simp only [requestStart]
  cases hstate : m.tracingState <;> simp [hstate]

@[simp] theorem requestStart_tracees (m : AppMonitor) : m.requestStart.tracees = m.tracees := by
  simp only [requestStart]
  split_ifs <;> rfl

theorem requestStop_tracingState (reason : String) (m : AppMonitor) :
    (m.requestStop reason).tracingState =
      if m.tracingState = .tracing then .stopping else m.tracingState := by
  simp only [requestStop]
  split_ifs <;> rfl

section Rearm

variable (o : RearmOutcomes) (ignoreDisable : Bool) (m : AppMonitor)

theorem requestRearm_fst : (m.requestRearm o ignoreDisable).1 = rearm o ignoreDisable m.abi := by
  simp only [requestRearm]
  split_ifs <;> simp

theorem requestRearm_abi :
    (m.requestRearm o ignoreDisable).2.abi = (rearm o ignoreDisable m.abi).abi := by
  simp only [requestRearm]
  split_ifs <;> simp

theorem requestRearm_tracees : (m.requestRearm o ignoreDisable).2.tracees = m.tracees := by
  simp only [requestRearm]
  split_ifs <;> simp

/-- A rearm asks for tracing, and gives it up again if it fails. -/
theorem requestRearm_tracingState :
    (m.requestRearm o ignoreDisable).2.tracingState =
      if m.tracingState = .exiting then .exiting
      else if (rearm o ignoreDisable m.abi).result = .failed then .stopping
      else .tracing := by
  simp only [requestRearm]
  split_ifs <;> simp_all [requestStart_tracingState, requestStop_tracingState]

end Rearm

end AppMonitor

namespace ZygoteAbi

/-- `notify_injected`. A message without a pid is passed on as `-1`. -/
def notifyInjected (pid : Int) (abi : ZygoteAbi) : ZygoteAbi :=
  { abi with
    hooked := if 0 < pid then insert pid.toNat abi.hooked else abi.hooked
    zygote := .injected }

/-- `set_daemon_crashed`. -/
def setDaemonCrashed (abi : ZygoteAbi) : ZygoteAbi := { abi with daemonRunning := false }

theorem mem_hooked_notifyInjected {injected : Int} {abi : ZygoteAbi} {pid : Pid} :
    pid ∈ (abi.notifyInjected injected).hooked ↔ pid ∈ abi.hooked ∨ 0 < injected ∧ injected = pid := by
  simp only [notifyInjected]
  split_ifs with hpos
  · rw [Finset.mem_insert, or_comm]
    refine or_congr_right ⟨?_, ?_⟩
    · rintro rfl
      exact ⟨hpos, (Int.toNat_of_nonneg hpos.le).symm⟩
    · rintro ⟨-, rfl⟩
      exact (Int.toNat_natCast pid).symm
  · simp [hpos]

end ZygoteAbi

end NeoZygisk.Monitor
