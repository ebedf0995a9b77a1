import NeoZygisk.Monitor.Handover

/-!
# The statuses of children

`waitpid` reports a change of some child, and `handleChildEvent` routes it by the role of the pid: init and
the stubs, the daemon, the candidates, and pids in no role. Beside the monitor each handler gives the
operations on that process in order: the statuses `waitpid` returned for it and the calls made about it.
The process is what these operations make of it, one after the other (`AppMonitor.issue`), and
`handleTracedProcess_eq` says so for the handler of the candidates.
-/

set_option autoImplicit false

namespace NeoZygisk.Monitor

def sigChld : Signal := 17

def sigTstp : Signal := 20

def sigTtin : Signal := 21

def sigTtou : Signal := 22

/-- `PTRACE_EVENT_FORK`. -/
def eventFork : Nat := 1

/-! ## Operations on one process -/

/-- A status of the process that `waitpid` returned, or a call about it and whether it succeeds. -/
inductive Op where
  | report (status : WaitStatus)
  /-- `PTRACE_CONT`, with the signal it passes on. -/
  | cont (sig : Signal) (ok : Bool)
  /-- `PTRACE_DETACH`. -/
  | detach (sig : Signal) (ok : Bool)
  | sendStop (ok : Bool)
  | sendCont (ok : Bool)
  | startInjector (ok : Bool)
  /-- A signal stop the process may meet by itself. -/
  | reach (next : Option Signal)
  deriving DecidableEq, Repr

/-- What an operation does to the process. A call that fails does nothing. -/
def Op.apply (t : Tracee) : Op → Tracee
  | .report status => t.report status
  | .cont _ ok => if ok then t.cont else t
  | .detach sig ok => if ok then t.detach sig else t
  | .sendStop ok => if ok then t.sendStop else t
  | .sendCont ok => if ok then t.sendCont else t
  | .startInjector ok => if ok then t.startInjector else t
  | .reach next => t.reach next

namespace AppMonitor

/-- The operations, in order. -/
def issue (pid : Pid) (ops : List Op) (m : AppMonitor) : AppMonitor :=
  { m with tracees := Function.update m.tracees pid (ops.foldl Op.apply (m.tracees pid)) }

variable (pid : Pid) (m : AppMonitor)

@[simp] theorem issue_nil : m.issue pid [] = m := by
  simp [issue]

@[simp] theorem issue_issue (ops ops' : List Op) :
    (m.issue pid ops).issue pid ops' = m.issue pid (ops ++ ops') := by
  simp [issue]

@[simp] theorem issue_tracees_self (ops : List Op) :
    (m.issue pid ops).tracees pid = ops.foldl Op.apply (m.tracees pid) := by
  simp [issue]

theorem issue_tracees_of_ne {pid' : Pid} (h : pid' ≠ pid) (ops : List Op) :
    (m.issue pid ops).tracees pid' = m.tracees pid' := by
  simp [issue, h]

@[simp] theorem issue_process (ops : List Op) : (m.issue pid ops).process = m.process := rfl

@[simp] theorem issue_stubProcesses (ops : List Op) :
    (m.issue pid ops).stubProcesses = m.stubProcesses := rfl

@[simp] theorem issue_abi (ops : List Op) : (m.issue pid ops).abi = m.abi := rfl

@[simp] theorem issue_tracingState (ops : List Op) :
    (m.issue pid ops).tracingState = m.tracingState := rfl

/-- A call is one operation. -/
theorem call_eq_issue {ok : Bool} {f : Tracee → Tracee} (op : Op)
    (h : ∀ t : Tracee, op.apply t = if ok then f t else t) : m.call pid ok f = m.issue pid [op] := by
  cases ok with
  | true => simp [call, issue, h]
  | false => simp [call, issue, h]

theorem call_sendStop (ok : Bool) : m.call pid ok .sendStop = m.issue pid [.sendStop ok] :=
  m.call_eq_issue pid _ fun _ => rfl

theorem call_sendCont (ok : Bool) : m.call pid ok .sendCont = m.issue pid [.sendCont ok] :=
  m.call_eq_issue pid _ fun _ => rfl

theorem call_startInjector (ok : Bool) :
    m.call pid ok .startInjector = m.issue pid [.startInjector ok] :=
  m.call_eq_issue pid _ fun _ => rfl

theorem call_cont (ok : Bool) : m.call pid ok .cont = m.issue pid [.cont 0 ok] :=
  m.call_eq_issue pid _ fun _ => rfl

theorem call_detach (sig : Signal) (ok : Bool) :
    m.call pid ok (.detach sig) = m.issue pid [.detach sig ok] :=
  m.call_eq_issue pid _ fun _ => rfl

theorem call_reach (next : Option Signal) : m.call pid true (.reach next) = m.issue pid [.reach next] :=
  m.call_eq_issue pid _ fun _ => rfl

theorem call_report (status : WaitStatus) :
    m.call pid true (.report status) = m.issue pid [.report status] :=
  m.call_eq_issue pid _ fun _ => rfl

@[simp] theorem requestStop_abi (reason : String) : (m.requestStop reason).abi = m.abi := by
  simp only [requestStop]
  split <;> rfl

theorem requestStop_pool (reason : String) :
    (m.requestStop reason).process = m.process ∧
      (m.requestStop reason).stubProcesses = m.stubProcesses := by
  simp only [requestStop]
  split <;> exact ⟨rfl, rfl⟩

end AppMonitor

/-! ## The candidates -/

/-- The operations of the handover. -/
def handOverOps (status : WaitStatus) (o : Outcomes) : List Op :=
  [.sendStop o.killStop, .cont 0 o.cont] ++ (o.wait.toList.map .report) ++
    if stoppedWith (o.wait.getD status) sigStop 0 then
      let p := forkDontCare o.forkChild o.forkGrandchild
      [.detach sigStop o.detachStopped, .startInjector (p.inGrandchild && o.exec),
        .sendCont (p.inGrandchild && !o.exec && o.killCont),
        .sendCont (p.inCaller.isNone && o.killCont)]
    else []

/-- A process that is not kept is detached, if it is stopped. -/
def dropOps (status : WaitStatus) (o : Outcomes) : List Op :=
  if status.isStopped then [.reach o.reached, .detach 0 o.resume] else []

/-- What the handler takes a candidate for. -/
inductive TracedAs where
  | stub
  | irrelevant
  /-- A zygote, but the monitor stops instead of injecting. -/
  | unprepared
  | zygote
  /-- A child that has just been attached. -/
  | forked
  | unexpected
  deriving DecidableEq, Repr

def tracedAs (status : WaitStatus) (o : Outcomes) (m : AppMonitor) : TracedAs :=
  if stoppedWith status sigTrap eventExec then
    if isStubZygote o.program then .stub
    else if m.tracingState ≠ .tracing then .irrelevant
    else if o.program ≠ m.abi.programPath then .irrelevant
    else if (checkAndPrepareInjection o m).1.isSome then .zygote
    else .unprepared
  else if stoppedWith status sigTrap eventStop then .forked
  else .unexpected

/-- The operations of `handleTracedProcess`. -/
def tracedOps (status : WaitStatus) (o : Outcomes) (m : AppMonitor) : List Op :=
  match tracedAs status o m with
  | .stub => [.cont 0 o.resume]
  | .forked => [.cont 0 o.resume]
  | .zygote =>
      handOverOps status o ++
        if stoppedWith (o.wait.getD status) sigStop 0 then [] else dropOps (o.wait.getD status) o
  | _ => dropOps status o

/-- The monitor's own fields after `handleTracedProcess`. -/
def tracedMonitor (pid : Pid) (status : WaitStatus) (o : Outcomes) (m : AppMonitor) : AppMonitor :=
  match tracedAs status o m with
  | .stub =>
      { m with stubProcesses := insert pid m.stubProcesses, process := m.process.erase pid }
  | .forked => m
  | .zygote =>
      let m := (checkAndPrepareInjection o m).2
      -- the status is no longer the exec stop, so the zygote stays among the candidates
      if stoppedWith (o.wait.getD status) sigStop 0 then m
      else { m with process := m.process.erase pid }
  | .unprepared =>
      let m := (checkAndPrepareInjection o m).2
      { m with process := m.process.erase pid }
  | _ => { m with process := m.process.erase pid }

section Traced

variable (pid : Pid) (status : WaitStatus) (o : Outcomes) (m : AppMonitor)

theorem startInjection_eq :
    startInjection pid o m =
      m.issue pid
        [.detach sigStop o.detachStopped,
          .startInjector ((forkDontCare o.forkChild o.forkGrandchild).inGrandchild && o.exec),
          .sendCont ((forkDontCare o.forkChild o.forkGrandchild).inGrandchild && !o.exec && o.killCont),
          .sendCont ((forkDontCare o.forkChild o.forkGrandchild).inCaller.isNone && o.killCont)] := by
  simp only [startInjection, AppMonitor.call_detach, AppMonitor.call_startInjector,
    AppMonitor.call_sendCont, AppMonitor.issue_issue, List.cons_append, List.nil_append]

theorem handOver_eq :
    handOver pid status o m =
      (stoppedWith (o.wait.getD status) sigStop 0, o.wait.getD status,
        m.issue pid (handOverOps status o)) := by
  have hparked : ((m.call pid o.killStop .sendStop).call pid o.cont .cont).call pid
      o.wait.isSome (.report (o.wait.getD status)) =
        m.issue pid ([.sendStop o.killStop, .cont 0 o.cont] ++ o.wait.toList.map .report) := by
    rw [AppMonitor.call_sendStop, AppMonitor.call_cont, AppMonitor.issue_issue]
    cases o.wait with
    | none => simp [AppMonitor.call]
    | some reply => simp [AppMonitor.call_report]
  simp only [handOver, hparked, handOverOps]
  split
  · rename_i hstop
    simp [hstop, startInjection_eq]
  · rename_i hstop
    simp [hstop]

/-- A zygote is handed over exactly in the cases the handover's module is about. -/
theorem tracedAs_eq_zygote_iff : tracedAs status o m = .zygote ↔ HandsOver status o m := by
  simp only [tracedAs, HandsOver, stoppedWith, decide_eq_true_iff]
  split_ifs <;> simp_all

/-- The two stops a candidate is expected at. -/
theorem tracedAs_expected (h : tracedAs status o m ≠ .unexpected) :
    status = .stopped sigTrap eventExec ∧ tracedAs status o m ≠ .forked ∨
      status = .stopped sigTrap eventStop ∧ tracedAs status o m = .forked := by
  simp only [tracedAs, stoppedWith, decide_eq_true_iff] at h ⊢
  by_cases hexec : status = .stopped sigTrap eventExec
  · left
    refine ⟨hexec, ?_⟩
    rw [if_pos hexec]
    split_ifs <;> decide
  · rw [if_neg hexec] at h ⊢
    split_ifs at h ⊢ with hstop
    · exact .inr ⟨hstop, rfl⟩
    · exact absurd rfl h

/-- Whether an injection can be prepared depends on the manager only. -/
theorem checkAndPrepareInjection_fst :
    (checkAndPrepareInjection o m).1 =
      if (isInCrashLoop o.now m.abi).1 then none
      else if (ensureDaemonCreated o.daemonFork (isInCrashLoop o.now m.abi).2).1 then
        some (ensureDaemonCreated o.daemonFork (isInCrashLoop o.now m.abi).2).2.tracerPath
      else none := by
  simp only [checkAndPrepareInjection, apply_ite Prod.fst]

theorem checkAndPrepareInjection_abi :
    (checkAndPrepareInjection o m).2.abi =
      if (isInCrashLoop o.now m.abi).1 then (isInCrashLoop o.now m.abi).2
      else (ensureDaemonCreated o.daemonFork (isInCrashLoop o.now m.abi).2).2 := by
  simp only [checkAndPrepareInjection]
  split_ifs <;> simp [AppMonitor.requestStop_abi]

theorem checkAndPrepareInjection_tracingState :
    (checkAndPrepareInjection o m).2.tracingState =
      if (checkAndPrepareInjection o m).1.isSome ∨ m.tracingState ≠ .tracing then m.tracingState
      else .stopping := by
  simp only [checkAndPrepareInjection]
  split_ifs <;> simp_all [AppMonitor.requestStop]

/-- Preparing an injection leaves the roles of processes alone. -/
theorem checkAndPrepareInjection_pool :
    (checkAndPrepareInjection o m).2.process = m.process ∧
      (checkAndPrepareInjection o m).2.stubProcesses = m.stubProcesses := by
  simp only [checkAndPrepareInjection]
  split_ifs
  · exact AppMonitor.requestStop_pool _ _
  · exact ⟨rfl, rfl⟩
  · exact AppMonitor.requestStop_pool _ _

theorem tracedAs_issue (ops : List Op) :
    tracedAs status o (m.issue pid ops) = tracedAs status o m := by
  simp only [tracedAs, checkAndPrepareInjection_fst]
  rfl

theorem tracedOps_issue (ops : List Op) :
    tracedOps status o (m.issue pid ops) = tracedOps status o m := by
  simp only [tracedOps, tracedAs_issue]

theorem handleExecEvent_eq (hexec : stoppedWith status sigTrap eventExec = true) :
    handleExecEvent pid status o m =
      match tracedAs status o m with
      | .stub =>
          (true, status, { m with stubProcesses := insert pid m.stubProcesses }.issue pid
            [.cont 0 o.resume])
      | .zygote => handOver pid status o (checkAndPrepareInjection o m).2
      | .unprepared => (false, status, (checkAndPrepareInjection o m).2)
      | _ => (false, status, m) := by
  simp only [handleExecEvent, tracedAs, hexec, if_true, AppMonitor.call_cont]
  split
  · rfl
  · split
    · rfl
    · split
      · rfl
      · cases hprepared : (checkAndPrepareInjection o m).1 with
        | none => simp
        | some tracer => simp

theorem routeTraced_eq (keepAttached : Bool) :
    routeTraced pid o keepAttached status m =
      if keepAttached then
        if stoppedWith status sigTrap eventExec then { m with process := m.process.erase pid } else m
      else { m with process := m.process.erase pid }.issue pid (dropOps status o) := by
  simp only [routeTraced, dropOps, AppMonitor.call_reach, AppMonitor.call_detach]
  split
  · rfl
  · split
    · simp
    · simp

theorem handleTracedProcess_eq :
    handleTracedProcess pid status o m =
      (tracedMonitor pid status o m).issue pid (tracedOps status o m) := by
  simp only [handleTracedProcess, identifyStop]
  by_cases hexec : stoppedWith status sigTrap eventExec = true
  · rw [if_pos hexec, handleExecEvent_eq pid status o m hexec]
    simp only [tracedMonitor, tracedOps]
    cases htraced : tracedAs status o m with
    | stub => simp [routeTraced_eq, hexec, AppMonitor.issue]
    | irrelevant => simp [routeTraced_eq]
    | unprepared => simp [routeTraced_eq]
    | forked =>
        -- an exec stop is not taken for the first stop of a child
        simp only [tracedAs, hexec, if_true] at htraced
        split_ifs at htraced
    | unexpected => simp [routeTraced_eq]
    | zygote =>
        simp only [handOver_eq, routeTraced_eq]
        by_cases hstop : stoppedWith (o.wait.getD status) sigStop 0 = true
        · -- the status that routes the caller is the handover's own
          have hother : stoppedWith (o.wait.getD status) sigTrap eventExec = false := by
            rw [stoppedWith, decide_eq_true_iff] at hstop
            rw [hstop]
            decide
          simp [hstop, hother]
        · simp [hstop, AppMonitor.issue]
  · rw [if_neg hexec]
    simp only [tracedMonitor, tracedOps, tracedAs, if_neg hexec]
    by_cases hforked : stoppedWith status sigTrap eventStop = true
    · simp [hforked, routeTraced_eq, hexec, AppMonitor.call_cont]
    · simp [hforked, routeTraced_eq]

end Traced

/-! ## The other roles -/

/-- The signals that are not passed on to a parent: those that would stop it, and for a stub also
`SIGCHLD`. -/
def suppresses (pid : Pid) (sig : Signal) : Bool :=
  if sig == sigStop || sig == sigTstp || sig == sigTtin || sig == sigTtou then true
  else pid != 1 && sig == sigChld

/-- The end of `handleParentEvent`: a stopped parent is resumed. -/
def resumeParent (pid : Pid) (status : WaitStatus) (o : Outcomes) : List Op :=
  match status with
  | .stopped sig event =>
      if event = 0 then
        if suppresses pid sig then [.cont 0 o.resume] else [.cont sig o.resume]
      else [.cont 0 o.resume]
  | _ => []

/-- `notify_init_detached`. -/
def AppMonitor.notifyInitDetached (m : AppMonitor) : AppMonitor := { m with tracingState := .stopped }

/-- `handleParentEvent`. -/
def handleParentEvent (pid : Pid) (status : WaitStatus) (o : Outcomes) (m : AppMonitor) :
    List Op × AppMonitor :=
  -- the pid of a forked child is only logged
  if stoppedWith status sigTrap eventFork then
    (resumeParent pid status o, m.issue pid (resumeParent pid status o))
  else if pid == 1 && stoppedWith status sigTrap eventStop && m.tracingState == .stopping then
    ([.detach 0 o.resume], (m.issue pid [.detach 0 o.resume]).notifyInitDetached)
  else if pid != 1 && !status.isStopped then
    ([], { m with stubProcesses := m.stubProcesses.erase pid })
  else (resumeParent pid status o, m.issue pid (resumeParent pid status o))

/-- `handle_daemon_exit_if_match`. -/
def handleDaemonExitIfMatch (pid : Pid) (abi : ZygoteAbi) : Bool × ZygoteAbi :=
  if abi.supported ∧ abi.daemonPid = some pid then
    (true, { abi with daemonRunning := false, daemonPid := none })
  else (false, abi)

/-- `handleNewProcess`. It does not look at the status. -/
def handleNewProcess (pid : Pid) (o : Outcomes) (m : AppMonitor) : List Op × AppMonitor :=
  ([.cont 0 o.resume], { m with process := insert pid m.process }.issue pid [.cont 0 o.resume])

/-- `handleChildEvent`, with the operations it issues. -/
def handleChildEvent (pid : Pid) (status : WaitStatus) (o : Outcomes) (m : AppMonitor) :
    List Op × AppMonitor :=
  if pid = 1 ∨ pid ∈ m.stubProcesses then handleParentEvent pid status o m
  else
    let daemon := handleDaemonExitIfMatch pid m.abi
    if daemon.1 then ([], { m with abi := daemon.2 })
    else if pid ∈ m.process then (tracedOps status o m, handleTracedProcess pid status o m)
    else handleNewProcess pid o m

/-- One round of the loop around `waitpid`: the status is reported and handled. -/
def reap (pid : Pid) (status : WaitStatus) (o : Outcomes) (m : AppMonitor) : List Op × AppMonitor :=
  let handled := handleChildEvent pid status o (m.issue pid [.report status])
  (.report status :: handled.1, handled.2)

/-- The role of a pid. -/
inductive Role where
  | parent
  | daemon
  | candidate
  | new
  deriving DecidableEq, Repr

def AppMonitor.role (pid : Pid) (m : AppMonitor) : Role :=
  if pid = 1 ∨ pid ∈ m.stubProcesses then .parent
  else if m.abi.supported ∧ m.abi.daemonPid = some pid then .daemon
  else if pid ∈ m.process then .candidate
  else .new

section Children

variable (pid : Pid) (status : WaitStatus) (o : Outcomes) (m : AppMonitor)

@[simp] theorem AppMonitor.role_issue (pid' : Pid) (ops : List Op) :
    (m.issue pid ops).role pid' = m.role pid' := rfl

theorem handleChildEvent_eq :
    handleChildEvent pid status o m =
      match m.role pid with
      | .parent => handleParentEvent pid status o m
      | .daemon => ([], { m with abi := { m.abi with daemonRunning := false, daemonPid := none } })
      | .candidate => (tracedOps status o m, handleTracedProcess pid status o m)
      | .new => handleNewProcess pid o m := by
  simp only [handleChildEvent, handleDaemonExitIfMatch, AppMonitor.role]
  by_cases hparent : pid = 1 ∨ pid ∈ m.stubProcesses
  · simp only [if_pos hparent]
  · simp only [if_neg hparent]
    by_cases hdaemon : m.abi.supported = true ∧ m.abi.daemonPid = some pid
    · simp only [if_pos hdaemon, if_true]
    · simp only [if_neg hdaemon, Bool.false_eq_true, if_false]
      by_cases hmem : pid ∈ m.process
      · simp only [if_pos hmem]
      · simp only [if_neg hmem]

/-- A stopped parent is resumed once. -/
theorem resumeParent_of_stopped (h : status.isStopped = true) :
    ∃ sig, resumeParent pid status o = [.cont sig o.resume] := by
  cases status with
  | exited code => cases h
  | signaled sig => cases h
  | stopped sig event =>
      simp only [resumeParent]
      split_ifs
      · exact ⟨0, rfl⟩
      · exact ⟨sig, rfl⟩
      · exact ⟨0, rfl⟩

/-- A process that stops and is resumed lives on and stays attached. -/
theorem resumed_keeps (t : Tracee) (status : WaitStatus) (hstopped : status.isStopped = true)
    (sig : Signal) (ok : Bool) :
    (([.report status, .cont sig ok] : List Op).foldl Op.apply t).alive = t.alive ∧
      (([.report status, .cont sig ok] : List Op).foldl Op.apply t).attached = t.attached := by
  cases status with
  | exited code => cases hstopped
  | signaled sig => cases hstopped
  | stopped sig event => cases ok <;> exact ⟨rfl, rfl⟩

/-- The operations of `handleParentEvent`. -/
def parentOps (pid : Pid) (status : WaitStatus) (o : Outcomes) (state : TracingState) : List Op :=
  if pid == 1 && stoppedWith status sigTrap eventStop && state == .stopping then
    [.detach 0 o.resume]
  else resumeParent pid status o

theorem handleParentEvent_ops :
    (handleParentEvent pid status o m).1 = parentOps pid status o m.tracingState := by
  simp only [handleParentEvent, parentOps]
  by_cases hfork : stoppedWith status sigTrap eventFork = true
  · have hstop : stoppedWith status sigTrap eventStop = false := by
      rw [stoppedWith, decide_eq_true_iff] at hfork
      rw [hfork]
      decide
    simp [hfork, hstop]
  · rw [if_neg hfork]
    split_ifs with hdetach hexit
    · rfl
    · -- a stub that is gone is not resumed
      cases status with
      | exited code => rfl
      | signaled sig => rfl
      | stopped sig event => simp [WaitStatus.isStopped] at hexit
    · rfl

/-- The operations of an event, from the status to its answer. -/
theorem reap_ops :
    (reap pid status o m).1 =
      .report status ::
        match m.role pid with
        | .parent => parentOps pid status o m.tracingState
        | .daemon => []
        | .candidate => tracedOps status o m
        | .new => [.cont 0 o.resume] := by
  simp only [reap, handleChildEvent_eq, AppMonitor.role_issue]
  cases m.role pid with
  | parent => simp only [handleParentEvent_ops, AppMonitor.issue_tracingState]
  | daemon => rfl
  | candidate => simp only [tracedOps_issue]
  | new => rfl

/-- The process is what the operations of the event make of it; no other process is touched. -/
theorem reap_tracees :
    (reap pid status o m).2.tracees = (m.issue pid (reap pid status o m).1).tracees := by
  have hone : ∀ (m' : AppMonitor) (ops : List Op), m'.tracees = (m.issue pid [.report status]).tracees →
      (m'.issue pid ops).tracees = (m.issue pid (.report status :: ops)).tracees := by
    intro m' ops h
    simp [AppMonitor.issue, h]
  simp only [reap, handleChildEvent_eq, AppMonitor.role_issue]
  cases m.role pid with
  | parent =>
      simp only [handleParentEvent]
      split_ifs
      · exact hone _ _ rfl
      · exact hone _ _ rfl
      · rfl
      · exact hone _ _ rfl
  | daemon => rfl
  | candidate =>
      simp only [handleTracedProcess_eq]
      refine hone _ _ ?_
      simp only [tracedMonitor]
      split
      · rfl
      · rfl
      · split
        · exact checkAndPrepareInjection_tracees _ _
        · exact checkAndPrepareInjection_tracees _ _
      · exact checkAndPrepareInjection_tracees _ _
      · rfl
  | new => exact hone _ _ rfl

/-! ## The monitor's own fields -/

theorem tracedMonitor_process :
    (tracedMonitor pid status o m).process =
      if tracedAs status o m = .forked ∨
          tracedAs status o m = .zygote ∧ stoppedWith (o.wait.getD status) sigStop 0 = true then
        m.process
      else m.process.erase pid := by
  simp only [tracedMonitor]
  cases tracedAs status o m with
  | zygote =>
      cases stoppedWith (o.wait.getD status) sigStop 0 <;>
        simp [(checkAndPrepareInjection_pool o m).1]
  | unprepared => simp [(checkAndPrepareInjection_pool o m).1]
  | stub => simp
  | irrelevant => simp
  | forked => simp
  | unexpected => simp

theorem tracedMonitor_stubProcesses :
    (tracedMonitor pid status o m).stubProcesses =
      if tracedAs status o m = .stub then insert pid m.stubProcesses else m.stubProcesses := by
  simp only [tracedMonitor]
  cases tracedAs status o m with
  | zygote =>
      cases stoppedWith (o.wait.getD status) sigStop 0 <;>
        simp [(checkAndPrepareInjection_pool o m).2]
  | unprepared => simp [(checkAndPrepareInjection_pool o m).2]
  | stub => simp
  | irrelevant => simp
  | forked => simp
  | unexpected => simp

/-- The manager and the tracing state change only where an injection is prepared. -/
theorem tracedMonitor_prepared :
    ((tracedMonitor pid status o m).abi = m.abi ∧
        (tracedMonitor pid status o m).tracingState = m.tracingState) ∨
      m.tracingState = .tracing ∧
        (tracedMonitor pid status o m).abi = (checkAndPrepareInjection o m).2.abi ∧
        (tracedMonitor pid status o m).tracingState = (checkAndPrepareInjection o m).2.tracingState := by
  have hstate : tracedAs status o m = .zygote ∨ tracedAs status o m = .unprepared →
      m.tracingState = .tracing := by
    simp only [tracedAs]
    split_ifs <;> simp_all
  simp only [tracedMonitor]
  cases htraced : tracedAs status o m with
  | zygote =>
      right
      refine ⟨hstate (.inl htraced), ?_⟩
      cases stoppedWith (o.wait.getD status) sigStop 0 <;> exact ⟨rfl, rfl⟩
  | unprepared => exact .inr ⟨hstate (.inr htraced), rfl, rfl⟩
  | stub => exact .inl ⟨rfl, rfl⟩
  | irrelevant => exact .inl ⟨rfl, rfl⟩
  | forked => exact .inl ⟨rfl, rfl⟩
  | unexpected => exact .inl ⟨rfl, rfl⟩

theorem reap_parent (h : m.role pid = .parent) :
    (reap pid status o m).2.process = m.process ∧
      (reap pid status o m).2.stubProcesses =
        (if pid ≠ 1 ∧ status.isStopped = false then m.stubProcesses.erase pid
          else m.stubProcesses) ∧
      (reap pid status o m).2.abi = m.abi ∧
      (reap pid status o m).2.tracingState =
        if pid = 1 ∧ status = .stopped sigTrap eventStop ∧ m.tracingState = .stopping then .stopped
        else m.tracingState := by
  simp only [reap, handleChildEvent_eq, AppMonitor.role_issue, h, handleParentEvent,
    AppMonitor.issue_tracingState]
  by_cases hfork : stoppedWith status sigTrap eventFork = true
  · obtain rfl : status = .stopped sigTrap eventFork := of_decide_eq_true hfork
    simp [stoppedWith, WaitStatus.isStopped, eventFork, eventStop]
  · rw [if_neg hfork]
    by_cases hinit : pid = 1
    · by_cases hdetach : status = .stopped sigTrap eventStop ∧ m.tracingState = .stopping
      · simp [hinit, hdetach, stoppedWith, AppMonitor.notifyInitDetached]
      · have hkept : ¬ (stoppedWith status sigTrap eventStop && m.tracingState == .stopping) = true := by
          simpa [stoppedWith] using hdetach
        simp [hinit, hdetach, Bool.eq_false_iff.mpr hkept]
    · by_cases hstopped : status.isStopped = true
      · simp [hinit, hstopped]
      · simp [hinit, hstopped]

theorem reap_daemon (h : m.role pid = .daemon) :
    (reap pid status o m).2 =
      { m.issue pid [.report status] with
        abi := { m.abi with daemonRunning := false, daemonPid := none } } := by
  simp only [reap, handleChildEvent_eq, AppMonitor.role_issue, h]
  rfl

theorem reap_candidate (h : m.role pid = .candidate) :
    (reap pid status o m).2 =
      (tracedMonitor pid status o (m.issue pid [.report status])).issue pid (tracedOps status o m) := by
  simp only [reap, handleChildEvent_eq, AppMonitor.role_issue, h, handleTracedProcess_eq,
    tracedOps_issue]

theorem reap_new (h : m.role pid = .new) :
    (reap pid status o m).2 =
      { m with process := insert pid m.process }.issue pid [.report status, .cont 0 o.resume] := by
  simp only [reap, handleChildEvent_eq, AppMonitor.role_issue, h, handleNewProcess]
  simp [AppMonitor.issue]

/-- A status of another process than init changes the tracing state only where an injection cannot be
prepared. -/
theorem reap_tracingState (h : pid ≠ 1) :
    (reap pid status o m).2.tracingState = m.tracingState ∨
      m.tracingState = .tracing ∧ (reap pid status o m).2.tracingState = .stopping := by
  cases hrole : m.role pid with
  | parent =>
      left
      rw [(reap_parent pid status o m hrole).2.2.2, if_neg]
      exact fun hinit => h hinit.1
  | daemon => exact .inl (by rw [reap_daemon pid status o m hrole]; rfl)
  | candidate =>
      rw [reap_candidate pid status o m hrole, AppMonitor.issue_tracingState]
      rcases tracedMonitor_prepared pid status o (m.issue pid [.report status]) with
        ⟨-, hsame⟩ | ⟨htracing, -, hprepared⟩
      · exact .inl hsame
      · rw [hprepared, checkAndPrepareInjection_tracingState]
        split_ifs
        · exact .inl rfl
        · exact .inr ⟨htracing, rfl⟩
  | new => exact .inl (by rw [reap_new pid status o m hrole]; rfl)

end Children

end NeoZygisk.Monitor
