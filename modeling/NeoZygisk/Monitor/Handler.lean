import Mathlib.Data.Finset.Basic
import Mathlib.Data.List.Infix
import Mathlib.Logic.Function.Basic

/-!
# The monitor's candidates and the zygote handover

The monitor traces init, and through it every process init forks, until the first exec tells what the
process is. A stub zygote is promoted to a monitored parent, the zygote is stopped and handed to an
injector process, anything else is detached. `handleTracedProcess` and `handleExecEvent` share one
status: the handover waits for a stop of its own and overwrites the exec stop its caller looks at.

The kernel side is a `Tracee`: whether it lives, is attached, how it is stopped and which signals are
pending. What a system call does to it is an operation of `Tracee`; whether the call succeeds, what the
wait reports and which signal stop the target meets by itself is the `Outcomes` of one event.
-/

set_option autoImplicit false

namespace NeoZygisk.Monitor

abbrev Pid := Nat

abbrev Signal := Nat

def sigTrap : Signal := 5

def sigCont : Signal := 18

def sigStop : Signal := 19

/-- `PTRACE_EVENT_EXEC`. -/
def eventExec : Nat := 4

/-- `PTRACE_EVENT_STOP`. -/
def eventStop : Nat := 128

/-- A status of `waitpid`. A stop carries its signal and its ptrace event, which is zero for the
delivery of a signal. -/
inductive WaitStatus where
  | exited (code : Nat)
  | signaled (sig : Signal)
  | stopped (sig : Signal) (event : Nat)
  deriving DecidableEq, Repr

/-- `WIFSTOPPED`. -/
def WaitStatus.isStopped : WaitStatus → Bool
  | .stopped _ _ => true
  | _ => false

/-- `stopped_with`. -/
def stoppedWith (status : WaitStatus) (sig : Signal) (event : Nat) : Bool :=
  decide (status = .stopped sig event)

/-! ## A traced process -/

/-- What holds a living process: nothing, a ptrace stop, or a stop signal that took effect. -/
inductive RunState where
  | running
  | traced (sig : Signal) (event : Nat)
  | halted
  deriving DecidableEq, Repr

structure Tracee where
  alive : Bool
  attached : Bool
  state : RunState
  pending : Finset Signal
  /-- The monitor sent `SIGSTOP`. -/
  stopSent : Bool
  /-- The monitor or its children sent `SIGCONT`. -/
  contSent : Bool
  /-- An injector was executed for the process. -/
  injector : Bool
  deriving DecidableEq

namespace Tracee

/-- A process at its exec stop, with any signals pending. -/
def execStop (pending : Finset Signal) : Tracee :=
  ⟨true, true, .traced sigTrap eventExec, pending, false, false, false⟩

/-- `kill(pid, SIGSTOP)`: a stop signal drops a pending `SIGCONT`. -/
def sendStop (t : Tracee) : Tracee :=
  { t with pending := insert sigStop (t.pending.erase sigCont), stopSent := true }

/-- `kill(pid, SIGCONT)`: it drops a pending `SIGSTOP` and resumes a halted process, but not one in a
ptrace stop. -/
def sendCont (t : Tracee) : Tracee :=
  { t with
    pending := t.pending.erase sigStop
    state := if t.state = .halted then .running else t.state
    contSent := true }

/-- `PTRACE_CONT` without a signal. -/
def cont (t : Tracee) : Tracee := { t with state := .running }

/-- `PTRACE_DETACH`. The signal it passes on takes effect. -/
def detach (sig : Signal) (t : Tracee) : Tracee :=
  { t with
    attached := false
    state := if sig = sigStop then .halted else .running
    stopSent := t.stopSent || sig == sigStop }

/-- The change of state that `waitpid` reports. A signal stop takes its signal off the pending ones;
the others stay pending. -/
def report (status : WaitStatus) (t : Tracee) : Tracee :=
  match status with
  | .exited _ => { t with alive := false }
  | .signaled _ => { t with alive := false }
  | .stopped sig event =>
      { t with
        state := .traced sig event
        pending := if event = 0 then t.pending.erase sig else t.pending }

/-- What the process does by itself between two calls of the monitor: a running tracee may reach the
stop of a pending signal. -/
def reach (next : Option Signal) (t : Tracee) : Tracee :=
  match next with
  | none => t
  | some sig =>
      if t.attached ∧ t.state = .running ∧ sig ∈ t.pending then t.report (.stopped sig 0) else t

/-- The injector's `execl` succeeds in the grandchild. -/
def startInjector (t : Tracee) : Tracee := { t with injector := true }

/-- Stopped by `SIGSTOP`, or about to be. -/
def HeldByStop (t : Tracee) : Prop :=
  sigStop ∈ t.pending ∨ t.state = .halted ∨ t.state = .traced sigStop 0

/-- A living process held by the monitor's `SIGSTOP` that nobody is going to release. -/
def LeftFrozen (t : Tracee) : Prop :=
  t.alive = true ∧ t.stopSent = true ∧ t.HeldByStop ∧ t.injector = false ∧ t.contSent = false

instance (t : Tracee) : Decidable t.HeldByStop := inferInstanceAs (Decidable (_ ∨ _ ∨ _))

instance (t : Tracee) : Decidable t.LeftFrozen :=
  inferInstanceAs (Decidable (_ ∧ _ ∧ _ ∧ _ ∧ _))

end Tracee

/-! ## The monitor -/

inductive TracingState where
  | tracing
  | stopping
  | stopped
  | exiting
  deriving DecidableEq, Repr

inductive ZygoteState where
  | notInjected
  | injected
  | needsRestart
  deriving DecidableEq, Repr

structure StartCounter where
  lastStartTime : Int
  count : Nat
  deriving DecidableEq, Repr

/-- `ZygoteAbiManager`. A daemon pid of `-1` is `none`. -/
structure ZygoteAbi where
  programPath : String
  tracerPath : String
  supported : Bool
  zygote : ZygoteState
  daemonRunning : Bool
  daemonPid : Option Pid
  counter : StartCounter
  hooked : Finset Pid
  deriving DecidableEq

/-- The manager of one ABI as it is constructed. -/
def zygoteAbi (moduleDir : String) (is64bit : Bool) : ZygoteAbi where
  programPath := if is64bit then "/system/bin/app_process64" else "/system/bin/app_process32"
  tracerPath := moduleDir ++ if is64bit then "/bin/zygisk-ptrace64" else "/bin/zygisk-ptrace32"
  supported := false
  zygote := .notInjected
  daemonRunning := false
  daemonPid := none
  counter := ⟨0, 0⟩
  hooked := ∅

structure AppMonitor where
  tracingState : TracingState
  stopReason : String
  abi : ZygoteAbi
  process : Finset Pid
  stubProcesses : Finset Pid
  tracees : Pid → Tracee

/-- What one event meets: the program of the process, the clock, and the outcome of each call. -/
structure Outcomes where
  program : String
  now : Int
  /-- The pid of a newly forked daemon. -/
  daemonFork : Option Pid
  /-- `kill(pid, SIGSTOP)`. -/
  killStop : Bool
  /-- `PTRACE_CONT` after it. -/
  cont : Bool
  /-- The status of the handover's `waitpid`, or `none` if it fails. -/
  wait : Option WaitStatus
  /-- `PTRACE_DETACH` with `SIGSTOP`. -/
  detachStopped : Bool
  /-- The two forks of `fork_dont_care`. -/
  forkChild : Option Pid
  forkGrandchild : Bool
  exec : Bool
  /-- `kill(pid, SIGCONT)`, in the grandchild or in the monitor. -/
  killCont : Bool
  /-- The signal stop the target reaches before the caller detaches it. -/
  reached : Option Signal
  /-- The caller's own `PTRACE_CONT` or `PTRACE_DETACH`. -/
  resume : Bool

namespace AppMonitor

/-- Effect of a call on one process, where the call succeeds. -/
def call (pid : Pid) (ok : Bool) (f : Tracee → Tracee) (m : AppMonitor) : AppMonitor :=
  if ok then { m with tracees := Function.update m.tracees pid (f (m.tracees pid)) } else m

@[simp] theorem call_tracees_self (pid : Pid) (ok : Bool) (f : Tracee → Tracee) (m : AppMonitor) :
    (m.call pid ok f).tracees pid = if ok then f (m.tracees pid) else m.tracees pid := by
  cases ok <;> simp [call]

/-- `request_stop`. The interrupt of init is not part of the model. -/
def requestStop (reason : String) (m : AppMonitor) : AppMonitor :=
  if m.tracingState = .tracing then { m with tracingState := .stopping, stopReason := reason } else m

@[simp] theorem requestStop_tracees (reason : String) (m : AppMonitor) :
    (m.requestStop reason).tracees = m.tracees := by
  simp only [requestStop]
  split <;> rfl

end AppMonitor

/-! ## Preparing an injection -/

def crashLoopRetryCount : Nat := 5

def crashLoopWindowSeconds : Int := 30

/-- The counter after one more start of the zygote. -/
def StartCounter.tick (now : Int) (c : StartCounter) : StartCounter :=
  if now - c.lastStartTime < crashLoopWindowSeconds then ⟨now, c.count + 1⟩ else ⟨now, 1⟩

/-- `is_in_crash_loop`. -/
def isInCrashLoop (now : Int) (abi : ZygoteAbi) : Bool × ZygoteAbi :=
  let counter := abi.counter.tick now
  (decide (crashLoopRetryCount ≤ counter.count), { abi with counter })

/-- `ensure_daemon_created`. -/
def ensureDaemonCreated (fork : Option Pid) (abi : ZygoteAbi) : Bool × ZygoteAbi :=
  match abi.daemonPid with
  | some _ => (abi.daemonRunning, abi)
  | none =>
      let abi := { abi with hooked := ∅, zygote := .notInjected }
      match fork with
      | none => (false, abi)
      | some pid =>
          (true, { abi with supported := true, daemonPid := some pid, daemonRunning := true })

/-- `check_and_prepare_injection`: the injector's path, or `none` where the monitor stops instead. -/
def checkAndPrepareInjection (o : Outcomes) (m : AppMonitor) : Option String × AppMonitor :=
  let loop := isInCrashLoop o.now m.abi
  if loop.1 then
    (none, { m with abi := loop.2 }.requestStop "zygote crashed")
  else
    let daemon := ensureDaemonCreated o.daemonFork loop.2
    let m := { m with abi := daemon.2 }
    if daemon.1 then (some daemon.2.tracerPath, m) else (none, m.requestStop "daemon not running")

/-! ## The handlers -/

/-- What `fork_dont_care` returns: the first child's pid in the caller, and zero in the grandchild if
there is one. The exit status of the first child is dropped. -/
structure Forked where
  inCaller : Option Pid
  inGrandchild : Bool
  deriving DecidableEq, Repr

/-- `fork_dont_care`. -/
def forkDontCare (child : Option Pid) (grandchild : Bool) : Forked :=
  match child with
  | none => ⟨none, false⟩
  | some pid => ⟨some pid, grandchild⟩

/-- The handover of a stopped target: detach it stopped and start the injector. -/
def startInjection (pid : Pid) (o : Outcomes) (m : AppMonitor) : AppMonitor :=
  let m := m.call pid o.detachStopped (.detach sigStop)
  let p := forkDontCare o.forkChild o.forkGrandchild
  -- The grandchild either becomes the injector or releases the target itself.
  let m := m.call pid (p.inGrandchild && o.exec) .startInjector
  let m := m.call pid (p.inGrandchild && !o.exec && o.killCont) .sendCont
  m.call pid (p.inCaller.isNone && o.killCont) .sendCont

/-- The zygote handover sequence. -/
def handOver (pid : Pid) (status : WaitStatus) (o : Outcomes) (m : AppMonitor) :
    Bool × WaitStatus × AppMonitor :=
  let m := m.call pid o.killStop .sendStop
  let m := m.call pid o.cont .cont
  let m := m.call pid o.wait.isSome (.report (o.wait.getD status))
  -- A failed wait leaves the exec stop in `status`.
  let status := o.wait.getD status
  if stoppedWith status sigStop 0 then (true, status, startInjection pid o m)
  else (false, status, m)

/-- `program.find("stub_zygote") != npos`. -/
def isStubZygote (program : String) : Bool :=
  decide ("stub_zygote".toList <:+: program.toList)

/-- `handleExecEvent`. -/
def handleExecEvent (pid : Pid) (status : WaitStatus) (o : Outcomes) (m : AppMonitor) :
    Bool × WaitStatus × AppMonitor :=
  if isStubZygote o.program then
    let m := { m with stubProcesses := insert pid m.stubProcesses }
    (true, status, m.call pid o.resume .cont)
  else if m.tracingState ≠ .tracing then (false, status, m)
  else if o.program ≠ m.abi.programPath then (false, status, m)
  else
    let prepared := checkAndPrepareInjection o m
    match prepared.1 with
    | none => (false, status, prepared.2)
    | some _ => handOver pid status o prepared.2

/-- First half of `handleTracedProcess`: look at the stop and decide whether to stay attached. -/
def identifyStop (pid : Pid) (status : WaitStatus) (o : Outcomes) (m : AppMonitor) :
    Bool × WaitStatus × AppMonitor :=
  if stoppedWith status sigTrap eventExec then handleExecEvent pid status o m
  else if stoppedWith status sigTrap eventStop then (true, status, m.call pid o.resume .cont)
  else (false, status, m)

/-- Second half of `handleTracedProcess`: a process that is kept leaves the candidates only if the
status is still its exec stop; any other is forgotten and, if it is stopped, detached. -/
def routeTraced (pid : Pid) (o : Outcomes) (keepAttached : Bool) (status : WaitStatus)
    (m : AppMonitor) : AppMonitor :=
  if keepAttached then
    if stoppedWith status sigTrap eventExec then { m with process := m.process.erase pid } else m
  else
    let m := { m with process := m.process.erase pid }
    if status.isStopped then
      (m.call pid true (.reach o.reached)).call pid o.resume (.detach 0)
    else m

/-- `handleTracedProcess`. -/
def handleTracedProcess (pid : Pid) (status : WaitStatus) (o : Outcomes) (m : AppMonitor) :
    AppMonitor :=
  let identified := identifyStop pid status o m
  routeTraced pid o identified.1 identified.2.1 identified.2.2

end NeoZygisk.Monitor
