import NeoZygisk.Lib.Transition
import NeoZygisk.Monitor.Commands

/-!
# The monitor among daemons and zygotes

A `Session` is the monitor, the process table, and the datagrams on their way to the control socket, which
are handled in the order in which they were sent. Beside these it keeps a record that no code reads: how many
daemons were started, which daemon confirmed which process, which zygotes the last rearm wants restarted,
which zygotes carry hooks, and which processes have been through the specialization of a `system_server`.

`SessionMove` tells the steps apart by what they do to the confirmations: most only keep them, or clear them
for a new daemon.
-/

set_option autoImplicit false

namespace NeoZygisk.Monitor

open NeoZygisk.Lib.Transition

/-! ## Datagrams -/

/-- The datagrams that change the monitor. The number of the daemon that sent a confirmation is not part of
the message. -/
inductive Datagram where
  | start
  | stop
  | exit
  | rearm (ignoreDisable : Bool)
  | zygoteInjected (daemon : Nat) (pid : Int)
  | daemonSetErrorInfo
  deriving DecidableEq, Repr

/-- A run of an injector on `system_server`, and whether that process had been specialized before. -/
structure LateRun where
  pid : Pid
  served : Bool
  deriving DecidableEq, Repr

structure Session where
  monitor : AppMonitor
  table : ProcessTable
  queue : List Datagram
  /-- The number of daemons started so far, which is the number of the last one. -/
  daemons : Nat
  /-- The processes and the daemon that confirmed each. -/
  confirmed : Finset (Pid × Nat)
  /-- The living zygotes that the last rearm judged to need a restart. -/
  judged : Finset Pid
  /-- The living zygotes that carry hooks. -/
  carriers : Finset Pid
  /-- The living processes that were injected late or forked by a zygote with hooks. -/
  served : Finset Pid
  lateRuns : List LateRun

/-- What handling a datagram meets. -/
structure HandleOutcomes where
  daemonFork : Option Pid
  attach : Pid → Attach

inductive SessionLabel where
  /-- A daemon or a caller of `ctl` sends a datagram. -/
  | send (d : Datagram)
  /-- The monitor handles the oldest datagram. -/
  | handle (o : HandleOutcomes)
  | status (pid : Pid) (status : WaitStatus) (o : Outcomes)
  /-- Processes start, change and end. A pid is not handed out again in the same step. -/
  | processes (table : ProcessTable)
  /-- The injector the monitor started at the exec of a zygote hooks it. -/
  | spawnHooks (pid : Pid)

def ProcessTable.pids (t : ProcessTable) : List Pid := t.procs.map Process.pid

/-- The processes that a hooked zygote has just forked. -/
def forkedBy (carriers : Finset Pid) (old new : ProcessTable) : Finset Pid :=
  ((new.procs.filter fun p => decide (p.pid ∉ old.pids) && decide (0 < p.ppid) &&
    decide (p.ppid.toNat ∈ carriers)).map Process.pid).toFinset

namespace Session

/-- Another state of the monitor. A daemon was started if none was recorded before. -/
def advance (m : AppMonitor) (s : Session) : Session :=
  { s with
    monitor := m
    daemons :=
      if s.monitor.abi.daemonPid.isNone && m.abi.daemonPid.isSome then s.daemons + 1 else s.daemons }

/-- What the rearm sees. -/
def rearmOutcomes (o : HandleOutcomes) (s : Session) : RearmOutcomes := ⟨s.table, o.daemonFork, o.attach⟩

/-- The injectors of a rearm that hooked their target. -/
def hookingRuns (o : HandleOutcomes) (r : Rearmed) (flag : ModeFlag) : List Pid :=
  (r.runs.filter fun run => decide (run.flag = flag) && (o.attach run.pid).hooks).map InjectorRun.pid

def rearmed (o : HandleOutcomes) (ignoreDisable : Bool) (s : Session) : Session :=
  let r := s.monitor.requestRearm (s.rearmOutcomes o) ignoreDisable
  let s' := s.advance r.2
  { s' with
    confirmed := s.confirmed ∪
      ((hookingRuns o r.1 .standalone ++ hookingRuns o r.1 .systemServer).map
        fun pid => (pid, s'.daemons)).toFinset
    judged := r.1.restarts.toFinset
    carriers := s.carriers ∪ (hookingRuns o r.1 .standalone).toFinset
    served := s.served ∪ (hookingRuns o r.1 .systemServer).toFinset
    lateRuns := s.lateRuns ++ (r.1.runs.filter (·.flag = .systemServer)).map
      fun run => ⟨run.pid, decide (run.pid ∈ s.served)⟩ }

/-- `SocketHandler::HandleEvent` for one datagram. -/
def dispatch (o : HandleOutcomes) (d : Datagram) (s : Session) : Session :=
  match d with
  | .start => s.advance s.monitor.requestStart
  | .stop => s.advance (s.monitor.requestStop "user requested")
  | .exit => s.advance s.monitor.requestExit
  | .rearm ignoreDisable => s.rearmed o ignoreDisable
  | .zygoteInjected daemon pid =>
      { s.advance { s.monitor with abi := s.monitor.abi.notifyInjected pid } with
        confirmed := if 0 < pid then insert (pid.toNat, daemon) s.confirmed else s.confirmed }
  | .daemonSetErrorInfo =>
      s.advance { s.monitor with abi := s.monitor.abi.setDaemonCrashed }

/-- Other processes. What is kept about a process ends with it. -/
def withProcesses (table : ProcessTable) (s : Session) : Session :=
  { s with
    table
    judged := s.judged.filter (· ∈ table.pids)
    carriers := s.carriers.filter (· ∈ table.pids)
    served := s.served.filter (· ∈ table.pids) ∪ forkedBy s.carriers s.table table }

/-- A confirmation comes from a daemon that was started. -/
def canSend (d : Datagram) (s : Session) : Bool :=
  match d with
  | .zygoteInjected daemon _ => decide (0 < daemon ∧ daemon ≤ s.daemons)
  | _ => true

end Session

def sessionStep (s : Session) : SessionLabel → Option Session
  -- the sender names the daemon it belongs to, which the monitor does not see
  | .send d => if s.canSend d then some { s with queue := s.queue ++ [d] } else none
  | .handle o =>
      match s.queue with
      | [] => none
      | d :: queue => some ({ s with queue }.dispatch o d)
  | .status pid status o => some (s.advance (reap pid status o s.monitor).2)
  | .processes table => some (s.withProcesses table)
  | .spawnHooks pid =>
      if pid ∈ s.table.pids then some { s with carriers := insert pid s.carriers } else none

/-! ## What a step does to the confirmations -/

/-- No daemon was started if the recorded one is the same or none is recorded. -/
theorem Session.advance_daemons {s : Session} {m : AppMonitor}
    (h : m.abi.daemonPid = s.monitor.abi.daemonPid ∨ m.abi.daemonPid = none) :
    (s.advance m).daemons = s.daemons := by
  simp only [advance]
  refine if_neg ?_
  rcases h with h | h
  · rw [h]
    cases s.monitor.abi.daemonPid with
    | none => exact Bool.false_ne_true
    | some pid => exact Bool.false_ne_true
  · simp [h]

/-- The confirmations and the zygote's status are kept, or a daemon has to be started and both are cleared. -/
structure Keeps (abi abi' : ZygoteAbi) : Prop where
  programPath : abi'.programPath = abi.programPath
  kept : (abi'.hooked = abi.hooked ∧ abi'.zygote = abi.zygote ∧
      (abi'.daemonPid = abi.daemonPid ∨ abi'.daemonPid = none)) ∨
    abi.daemonPid = none ∧ abi'.hooked = ∅ ∧ abi'.zygote = .notInjected

theorem Keeps.refl (abi : ZygoteAbi) : Keeps abi abi := ⟨rfl, .inl ⟨rfl, rfl, .inl rfl⟩⟩

theorem ensureDaemonCreated_keeps (fork : Option Pid) (abi : ZygoteAbi) :
    Keeps abi (ensureDaemonCreated fork abi).2 := by
  simp only [ensureDaemonCreated]
  split
  · exact .refl abi
  · rename_i hnone
    split
    · exact ⟨rfl, .inr ⟨hnone, rfl, rfl⟩⟩
    · exact ⟨rfl, .inr ⟨hnone, rfl, rfl⟩⟩

theorem checkAndPrepareInjection_keeps (o : Outcomes) (m : AppMonitor) :
    Keeps m.abi (checkAndPrepareInjection o m).2.abi := by
  rw [checkAndPrepareInjection_abi]
  split_ifs
  · exact ⟨rfl, .inl ⟨rfl, rfl, .inl rfl⟩⟩
  · have hkeeps := ensureDaemonCreated_keeps o.daemonFork (isInCrashLoop o.now m.abi).2
    exact ⟨hkeeps.programPath, hkeeps.kept⟩

/-- A status confirms nothing. -/
theorem reap_abi (pid : Pid) (status : WaitStatus) (o : Outcomes) (m : AppMonitor) :
    Keeps m.abi (reap pid status o m).2.abi := by
  -- a daemon that ended is forgotten, and a candidate may start a new one
  cases hrole : m.role pid with
  | parent =>
      rw [(reap_parent pid status o m hrole).2.2.1]
      exact .refl m.abi
  | daemon =>
      rw [reap_daemon pid status o m hrole]
      exact ⟨rfl, .inl ⟨rfl, rfl, .inr rfl⟩⟩
  | candidate =>
      rw [reap_candidate pid status o m hrole, AppMonitor.issue_abi]
      rcases tracedMonitor_prepared pid status o (m.issue pid [.report status]) with
        ⟨habi, -⟩ | ⟨-, habi, -⟩
      · rw [habi]
        exact .refl m.abi
      · rw [habi]
        exact checkAndPrepareInjection_keeps o (m.issue pid [.report status])
  | new =>
      rw [reap_new pid status o m hrole]
      exact .refl m.abi

/-! ## What a step can be -/

/-- The steps, told apart by what they do to the confirmations. -/
inductive SessionMove (s : Session) : SessionLabel → Session → Prop where
  | sent (d : Datagram) : SessionMove s (.send d) { s with queue := s.queue ++ [d] }
  /-- A status, or a command other than REARM. -/
  | kept (label : SessionLabel) (m : AppMonitor) (queue : List Datagram)
      (h : Keeps s.monitor.abi m.abi) : SessionMove s label ({ s with queue }.advance m)
  | rearmed (o : HandleOutcomes) (ignoreDisable : Bool) (queue : List Datagram)
      (h : s.queue = .rearm ignoreDisable :: queue) :
      SessionMove s (.handle o) ({ s with queue }.rearmed o ignoreDisable)
  | confirmed (o : HandleOutcomes) (daemon : Nat) (pid : Int) (queue : List Datagram)
      (h : s.queue = .zygoteInjected daemon pid :: queue) :
      SessionMove s (.handle o) ({ s with queue }.dispatch o (.zygoteInjected daemon pid))
  | processes (table : ProcessTable) : SessionMove s (.processes table) (s.withProcesses table)
  | spawned (pid : Pid) : SessionMove s (.spawnHooks pid) { s with carriers := insert pid s.carriers }

theorem sessionStep_move {s s' : Session} {label : SessionLabel} (h : sessionStep s label = some s') :
    SessionMove s label s' := by
  cases label with
  | send d =>
      simp only [sessionStep] at h
      split_ifs at h
      obtain rfl := Option.some.inj h
      exact .sent d
  | handle o =>
      simp only [sessionStep] at h
      split at h
      · cases h
      · rename_i d queue hqueue
        obtain rfl := Option.some.inj h
        cases d with
        | start => exact .kept _ _ queue (by rw [AppMonitor.requestStart_abi]; exact .refl _)
        | stop => exact .kept _ _ queue (by rw [AppMonitor.requestStop_abi]; exact .refl _)
        | exit => exact .kept _ _ queue (.refl _)
        | rearm ignoreDisable => exact .rearmed o ignoreDisable queue hqueue
        | zygoteInjected daemon pid => exact .confirmed o daemon pid queue hqueue
        | daemonSetErrorInfo => exact .kept _ _ queue ⟨rfl, .inl ⟨rfl, rfl, .inl rfl⟩⟩
  | status pid status o =>
      obtain rfl := Option.some.inj h
      exact .kept _ _ s.queue (reap_abi pid status o s.monitor)
  | processes table =>
      obtain rfl := Option.some.inj h
      exact .processes table
  | spawnHooks pid =>
      simp only [sessionStep] at h
      split_ifs at h
      obtain rfl := Option.some.inj h
      exact .spawned pid

end NeoZygisk.Monitor
