import NeoZygisk.Monitor.StatusText

/-!
# The status is never out of date

Each handler of the monitor changes some of what the status shows, and calls `update_status` itself. Here the handlers
are those of the control socket and of the children once more, with these calls where they stand: `Shown` is the state
together with module.prop. Nobody calls `update_status` from outside, so that a handler that forgets it leaves the file
behind the state.

`handle_control` and `reap_monitor` say that the state is the one of the other modules. `status_shown` is the result:
after every datagram and every status of a child the file tells what is to be seen, no more and no less, if the last
attempt to write it worked. There is one exception, a rearm that fails after EXIT (`handle_rearm_stale`).
-/

set_option autoImplicit false

namespace NeoZygisk.Monitor.StatusFile

open NeoZygisk.Lib.Bytes
open NeoZygisk.Lib.Transition
open NeoZygisk.Monitor.StatusText

/-! ## The handlers and the file -/

/-- The module, and whether module.prop can be opened and written at each call of `update_status`. -/
structure Env where
  module : Module
  opens : Nat → Bool

/-- The state, the contents of module.prop, and the number of calls of `update_status`. -/
structure Shown where
  control : ControlState
  file : List Byte
  calls : Nat

namespace Shown

variable (e : Env) (s : Shown)

/-- `update_status`. A file that cannot be opened stays as it is. -/
def updateStatus : Shown where
  control := s.control
  file := if e.opens s.calls then readout e.module s.control else s.file
  calls := s.calls + 1

def withMonitor (f : AppMonitor → AppMonitor) : Shown :=
  { s with control := { s.control with monitor := f s.control.monitor } }

def withAbi (abi : ZygoteAbi) : Shown := s.withMonitor fun m => { m with abi }

/-- `request_start`. -/
def requestStart : Shown := (s.withMonitor AppMonitor.requestStart).updateStatus e

/-- `request_stop`. -/
def requestStop (reason : String) : Shown :=
  if s.control.monitor.tracingState = .tracing then (s.withMonitor (.requestStop reason)).updateStatus e else s

/-- `request_exit`. -/
def requestExit : Shown := (s.withMonitor AppMonitor.requestExit).updateStatus e

/-- `rearm`. Without a zygote or a daemon it returns before its own call. -/
def rearm (o : RearmOutcomes) (ignoreDisable : Bool) : RearmResult × Shown :=
  let r := Monitor.rearm o ignoreDisable s.control.monitor.abi
  let s := s.withAbi r.abi
  match r.result with
  | .noZygote => (r.result, s)
  | .failed => (r.result, s)
  | _ => (r.result, s.updateStatus e)

/-- `request_rearm`. -/
def requestRearm (o : RearmOutcomes) (ignoreDisable : Bool) : Shown :=
  let s := if s.control.monitor.tracingState ≠ .tracing then s.requestStart e else s
  let r := s.rearm e o ignoreDisable
  if r.1 = .failed then r.2.requestStop e "rearm failed" else r.2.updateStatus e

/-- The switch of `SocketHandler::HandleEvent`. -/
def handle (o : RearmOutcomes) : Request → Shown
  | .start => s.requestStart e
  | .stop => s.requestStop e "user requested"
  | .exit => s.requestExit e
  | .rearm ignoreDisable => s.requestRearm e o ignoreDisable
  | .zygoteInjected pid => (s.withAbi (s.control.monitor.abi.notifyInjected pid)).updateStatus e
  | .daemonSetInfo info =>
      updateStatus e { s with control := { s.control with daemonInfo := withoutTrailingNuls info } }
  | .daemonSetErrorInfo error =>
      let s := s.withAbi s.control.monitor.abi.setDaemonCrashed
      updateStatus e { s with control := { s.control with daemonErrorInfo := withoutTrailingNuls error } }
  | .systemServerStarted => s
  | .unknown _ => s

/-- `check_and_prepare_injection`. -/
def checkAndPrepareInjection (o : Outcomes) : Option String × Shown :=
  let loop := isInCrashLoop o.now s.control.monitor.abi
  if loop.1 then (none, (s.withAbi loop.2).requestStop e "zygote crashed")
  else
    let daemon := ensureDaemonCreated o.daemonFork loop.2
    let s := s.withAbi daemon.2
    if daemon.1 then (some daemon.2.tracerPath, s) else (none, s.requestStop e "daemon not running")

/-- `handleExecEvent`, whichever way it leaves its block. -/
def handleExecEvent (pid : Pid) (status : WaitStatus) (o : Outcomes) : Bool × WaitStatus × Shown :=
  let handled :=
    if isStubZygote o.program then
      (true, status, s.withMonitor fun m => { m with stubProcesses := insert pid m.stubProcesses }.call pid o.resume .cont)
    else if s.control.monitor.tracingState ≠ .tracing then (false, status, s)
    else if o.program ≠ s.control.monitor.abi.programPath then (false, status, s)
    else
      let prepared := s.checkAndPrepareInjection e o
      match prepared.1 with
      | none => (false, status, prepared.2)
      | some _ =>
          let handedOver := handOver pid status o prepared.2.control.monitor
          (handedOver.1, handedOver.2.1, prepared.2.withMonitor fun _ => handedOver.2.2)
  (handled.1, handled.2.1, handled.2.2.updateStatus e)

/-- First half of `handleTracedProcess`. -/
def identifyStop (pid : Pid) (status : WaitStatus) (o : Outcomes) : Bool × WaitStatus × Shown :=
  if stoppedWith status sigTrap eventExec then s.handleExecEvent e pid status o
  else if stoppedWith status sigTrap eventStop then (true, status, s.withMonitor fun m => m.call pid o.resume .cont)
  else (false, status, s)

/-- `handleTracedProcess`. -/
def handleTracedProcess (pid : Pid) (status : WaitStatus) (o : Outcomes) : Shown :=
  let identified := s.identifyStop e pid status o
  identified.2.2.withMonitor (routeTraced pid o identified.1 identified.2.1)

/-- `handle_daemon_exit_if_match`. What `parse_status` makes of the status is kept if the daemon said nothing. -/
def handleDaemonExitIfMatch (pid : Pid) (statusText : List Byte) : Bool × Shown :=
  let daemon := Monitor.handleDaemonExitIfMatch pid s.control.monitor.abi
  if daemon.1 then
    let s := s.withAbi daemon.2
    (true,
      updateStatus e
        { s with
          control :=
            { s.control with
              daemonErrorInfo := if s.control.daemonErrorInfo = [] then statusText else s.control.daemonErrorInfo } })
  else (false, s)

/-- `handleChildEvent`. -/
def handleChildEvent (pid : Pid) (status : WaitStatus) (statusText : List Byte) (o : Outcomes) : Shown :=
  if pid = 1 ∨ pid ∈ s.control.monitor.stubProcesses then
    s.withMonitor fun m => (handleParentEvent pid status o m).2
  else
    let daemon := s.handleDaemonExitIfMatch e pid statusText
    if daemon.1 then daemon.2
    else if pid ∈ s.control.monitor.process then s.handleTracedProcess e pid status o
    else s.withMonitor fun m => (handleNewProcess pid o m).2

/-- One round of the loop around `waitpid`. -/
def reap (pid : Pid) (status : WaitStatus) (statusText : List Byte) (o : Outcomes) : Shown :=
  (s.withMonitor fun m => m.issue pid [.report status]).handleChildEvent e pid status statusText o

end Shown

/-! ## Runs -/

/-- What the event loop hands on: a message, or the status of a child and the text of it. -/
inductive Event where
  | message (request : Request) (o : RearmOutcomes)
  | status (pid : Pid) (status : WaitStatus) (statusText : List Byte) (o : Outcomes)

def step (e : Env) (s : Shown) : Event → Option Shown
  | .message request o => some (s.handle e o request)
  | .status pid status statusText o => some (s.reap e pid status statusText o)

/-- The monitor when `prepare_environment` returns. What the file has before is there to stay if it cannot be
opened. -/
def prepared (e : Env) (m : AppMonitor) (old : List Byte) : Shown := Shown.updateStatus e ⟨⟨m, [], []⟩, old, 0⟩

/-! ## The state is that of the other modules -/

section State

variable (e : Env) (s : Shown)

@[simp] theorem updateStatus_control : (s.updateStatus e).control = s.control := rfl

@[simp] theorem requestStart_control :
    (s.requestStart e).control = { s.control with monitor := s.control.monitor.requestStart } := rfl

@[simp] theorem requestStop_control (reason : String) :
    (s.requestStop e reason).control = { s.control with monitor := s.control.monitor.requestStop reason } := by
  unfold Shown.requestStop AppMonitor.requestStop
  split_ifs with htracing
  · simp [Shown.withMonitor, htracing]
  · rfl

theorem rearm_cases_update (o : RearmOutcomes) (ignoreDisable : Bool) :
    let r := rearm o ignoreDisable s.control.monitor.abi
    ((r.result = .noZygote ∨ r.result = .failed) ∧ s.rearm e o ignoreDisable = (r.result, s.withAbi r.abi)) ∨
      (r.result ≠ .failed ∧ s.rearm e o ignoreDisable = (r.result, (s.withAbi r.abi).updateStatus e)) := by
  dsimp only [Shown.rearm]
  cases hresult : (rearm o ignoreDisable s.control.monitor.abi).result with
  | noZygote => exact .inl ⟨.inl rfl, rfl⟩
  | failed => exact .inl ⟨.inr rfl, rfl⟩
  | injected | alreadyHooked | injecting | needsRestart => exact .inr ⟨RearmResult.noConfusion, rfl⟩

theorem rearm_fst (o : RearmOutcomes) (ignoreDisable : Bool) :
    (s.rearm e o ignoreDisable).1 = (rearm o ignoreDisable s.control.monitor.abi).result := by
  rcases rearm_cases_update e s o ignoreDisable with ⟨-, heq⟩ | ⟨-, heq⟩
  · rw [heq]
  · rw [heq]

theorem rearm_control (o : RearmOutcomes) (ignoreDisable : Bool) :
    (s.rearm e o ignoreDisable).2.control =
      { s.control with
        monitor := { s.control.monitor with abi := (rearm o ignoreDisable s.control.monitor.abi).abi } } := by
  rcases rearm_cases_update e s o ignoreDisable with ⟨-, heq⟩ | ⟨-, heq⟩
  · rw [heq]
    rfl
  · rw [heq]
    rfl

theorem requestRearm_control (o : RearmOutcomes) (ignoreDisable : Bool) :
    (s.requestRearm e o ignoreDisable).control =
      { s.control with monitor := (s.control.monitor.requestRearm o ignoreDisable).2 } := by
  unfold Shown.requestRearm AppMonitor.requestRearm
  dsimp only
  by_cases htracing : s.control.monitor.tracingState = .tracing
  · rw [if_neg (not_not.mpr htracing), if_neg (not_not.mpr htracing), rearm_fst]
    split_ifs
    · rw [requestStop_control, rearm_control]
    · rw [updateStatus_control, rearm_control]
  · rw [if_pos htracing, if_pos htracing, rearm_fst, requestStart_control]
    split_ifs
    · rw [requestStop_control, rearm_control, requestStart_control]
    · rw [updateStatus_control, rearm_control, requestStart_control]

/-- A message does to the state what it does without the file. -/
theorem handle_control (o : RearmOutcomes) (request : Request) :
    (s.handle e o request).control = request.handle o s.control := by
  cases request with
  | start | exit | zygoteInjected pid | daemonSetInfo info | daemonSetErrorInfo error | systemServerStarted
  | unknown value => rfl
  | stop => exact requestStop_control e s "user requested"
  | rearm ignoreDisable => exact requestRearm_control e s o ignoreDisable

theorem checkAndPrepareInjection_monitor (o : Outcomes) :
    (s.checkAndPrepareInjection e o).1 = (checkAndPrepareInjection o s.control.monitor).1 ∧
      (s.checkAndPrepareInjection e o).2.control.monitor = (checkAndPrepareInjection o s.control.monitor).2 := by
  unfold Shown.checkAndPrepareInjection checkAndPrepareInjection
  dsimp only
  split_ifs
  · exact ⟨rfl, congrArg ControlState.monitor (requestStop_control e _ _)⟩
  · exact ⟨rfl, rfl⟩
  · exact ⟨rfl, congrArg ControlState.monitor (requestStop_control e _ _)⟩

theorem handleExecEvent_monitor (pid : Pid) (status : WaitStatus) (o : Outcomes) :
    let r := s.handleExecEvent e pid status o
    (r.1, r.2.1, r.2.2.control.monitor) = handleExecEvent pid status o s.control.monitor := by
  unfold Shown.handleExecEvent handleExecEvent
  obtain ⟨hpath, hmonitor⟩ := checkAndPrepareInjection_monitor e s o
  dsimp only
  split_ifs
  · rfl
  · rfl
  · rfl
  · rw [hpath, ← hmonitor]
    cases (checkAndPrepareInjection o s.control.monitor).1 with
    | none => rfl
    | some tracer => rfl

theorem handleTracedProcess_monitor (pid : Pid) (status : WaitStatus) (o : Outcomes) :
    (s.handleTracedProcess e pid status o).control.monitor =
      handleTracedProcess pid status o s.control.monitor := by
  have hexec := handleExecEvent_monitor e s pid status o
  unfold Shown.handleTracedProcess handleTracedProcess Shown.identifyStop identifyStop
  dsimp only at hexec ⊢
  split_ifs
  · rw [← hexec]
    rfl
  · rfl
  · rfl

theorem handleDaemonExitIfMatch_monitor (pid : Pid) (statusText : List Byte) :
    (s.handleDaemonExitIfMatch e pid statusText).1 = (handleDaemonExitIfMatch pid s.control.monitor.abi).1 ∧
      ((s.handleDaemonExitIfMatch e pid statusText).1 = true →
        (s.handleDaemonExitIfMatch e pid statusText).2.control.monitor =
          { s.control.monitor with abi := (handleDaemonExitIfMatch pid s.control.monitor.abi).2 }) := by
  unfold Shown.handleDaemonExitIfMatch
  dsimp only
  cases hdaemon : (handleDaemonExitIfMatch pid s.control.monitor.abi).1 with
  | true => exact ⟨rfl, fun _ => rfl⟩
  | false => exact ⟨rfl, fun hno => nomatch hno⟩

theorem handleChildEvent_monitor (pid : Pid) (status : WaitStatus) (statusText : List Byte) (o : Outcomes) :
    (s.handleChildEvent e pid status statusText o).control.monitor =
      (handleChildEvent pid status o s.control.monitor).2 := by
  obtain ⟨hmatch, hmonitor⟩ := handleDaemonExitIfMatch_monitor e s pid statusText
  unfold Shown.handleChildEvent handleChildEvent
  dsimp only
  by_cases hparent : pid = 1 ∨ pid ∈ s.control.monitor.stubProcesses
  · rw [if_pos hparent, if_pos hparent]
    rfl
  · rw [if_neg hparent, if_neg hparent, ← hmatch]
    cases hdaemon : (s.handleDaemonExitIfMatch e pid statusText).1 with
    | true => exact hmonitor hdaemon
    | false =>
        simp only [Bool.false_eq_true, if_false]
        split_ifs
        · exact handleTracedProcess_monitor e s pid status o
        · rfl

/-- So does a status. -/
theorem reap_monitor (pid : Pid) (status : WaitStatus) (statusText : List Byte) (o : Outcomes) :
    (s.reap e pid status statusText o).control.monitor = (reap pid status o s.control.monitor).2 :=
  handleChildEvent_monitor e _ pid status statusText o

end State

/-! ## The file and the state -/

/-- The file is the text of the state, if the last attempt to write it worked. -/
def Shown.UpToDate (e : Env) (s : Shown) : Prop :=
  e.opens (s.calls - 1) = true → s.file = readout e.module s.control

variable {e : Env} {s s' : Shown}

theorem upToDate_updateStatus (e : Env) (s : Shown) : (s.updateStatus e).UpToDate e := by
  intro hopens
  exact if_pos hopens

/-- A step that shows nothing new needs no call. -/
theorem Shown.UpToDate.of_view (h : s.UpToDate e) (hfile : s'.file = s.file) (hcalls : s'.calls = s.calls)
    (hview : view s'.control = view s.control) : s'.UpToDate e := by
  intro hopens
  rw [hcalls] at hopens
  rw [hfile, h hopens, readout_eq, readout_eq, hview]

/-- The readout is taken from three fields of the monitor and the texts of the daemon. -/
theorem view_congr {c c' : ControlState} (hstate : c'.monitor.tracingState = c.monitor.tracingState)
    (hreason : c'.monitor.stopReason = c.monitor.stopReason) (habi : c'.monitor.abi = c.monitor.abi)
    (hinfo : c'.daemonInfo = c.daemonInfo) (herror : c'.daemonErrorInfo = c.daemonErrorInfo) : view c' = view c := by
  simp only [view, viewAbi, hstate, hreason, habi, hinfo, herror]

theorem Shown.UpToDate.withMonitor {f : AppMonitor → AppMonitor} (h : s.UpToDate e)
    (hview : view (s.withMonitor f).control = view s.control) : (s.withMonitor f).UpToDate e :=
  h.of_view rfl rfl hview

theorem upToDate_requestStop (h : s.UpToDate e) (reason : String) : (s.requestStop e reason).UpToDate e := by
  unfold Shown.requestStop
  split_ifs
  · exact upToDate_updateStatus e _
  · exact h

/-- A stop that is one writes the file. -/
theorem upToDate_requestStop_of_tracing (h : s.control.monitor.tracingState = .tracing) (reason : String) :
    (s.requestStop e reason).UpToDate e := by
  unfold Shown.requestStop
  rw [if_pos h]
  exact upToDate_updateStatus e _

/-! ### Messages -/

/-- A rearm fails for want of a daemon, where nothing was known of the ABI and the monitor is about to exit. -/
def FailsAfterExit (s : Shown) : Event → Prop
  | .message (.rearm ignoreDisable) o =>
      s.control.monitor.tracingState = .exiting ∧ s.control.monitor.abi.supported = false ∧
        (rearm o ignoreDisable s.control.monitor.abi).result = .failed
  | _ => False

/-- A rearm that fails makes the ABI a supported one, and does nothing else that is shown after EXIT. -/
theorem rearm_failed {o : RearmOutcomes} {ignoreDisable : Bool} {abi : ZygoteAbi}
    (h : (rearm o ignoreDisable abi).result = .failed) :
    (rearm o ignoreDisable abi).abi.supported = true ∧
      (rearm o ignoreDisable abi).abi.daemonRunning = abi.daemonRunning := by
  rcases rearm_cases ignoreDisable o abi with ⟨-, heq⟩ | ⟨-, hdaemon, heq⟩ | ⟨hzygotes, hdaemon⟩
  · rw [heq] at h
    cases h
  · rw [heq]
    unfold RearmOutcomes.daemon ensureDaemonCreated at hdaemon ⊢
    dsimp only at hdaemon ⊢
    cases hpid : abi.daemonPid with
    | some pid => exact ⟨rfl, rfl⟩
    | none =>
        cases hfork : o.daemonFork with
        | none => exact ⟨rfl, rfl⟩
        | some pid => simp [hpid, hfork] at hdaemon
  · rw [rearm_of_daemon ignoreDisable hzygotes hdaemon] at h
    unfold Sweep.verdict at h
    dsimp only at h
    split_ifs at h

/-- So it is not seen if the ABI is supported already. -/
theorem view_rearm_failed {o : RearmOutcomes} {ignoreDisable : Bool} (hstate : s.control.monitor.tracingState = .exiting)
    (hsupported : s.control.monitor.abi.supported = true)
    (h : (rearm o ignoreDisable s.control.monitor.abi).result = .failed) :
    view (s.withAbi (rearm o ignoreDisable s.control.monitor.abi).abi).control = view s.control := by
  obtain ⟨hsupported', hrunning⟩ := rearm_failed h
  simp [view, viewAbi, viewZygote, Shown.withAbi, Shown.withMonitor, hstate, hsupported, hsupported', hrunning]

theorem upToDate_requestRearm (o : RearmOutcomes) (ignoreDisable : Bool)
    (h : ¬FailsAfterExit s (.message (.rearm ignoreDisable) o)) : (s.requestRearm e o ignoreDisable).UpToDate e := by
  unfold Shown.requestRearm
  dsimp only
  by_cases htracing : s.control.monitor.tracingState = .tracing
  · rw [if_neg (not_not.mpr htracing), rearm_fst]
    split_ifs with hfailed
    · apply upToDate_requestStop_of_tracing
      rw [rearm_control]
      exact htracing
    · exact upToDate_updateStatus e _
  · rw [if_pos htracing, rearm_fst]
    split_ifs with hfailed
    · rcases rearm_cases_update e (s.requestStart e) o ignoreDisable with ⟨-, heq⟩ | ⟨hne, -⟩
      · rw [heq]
        have hstate := AppMonitor.requestStart_tracingState s.control.monitor
        by_cases hexiting : s.control.monitor.tracingState = .exiting
        · -- there is no stop, and the rearm is not to be seen
          rw [if_pos hexiting] at hstate
          have hsupported : s.control.monitor.abi.supported = true := by
            rw [← Bool.not_eq_false]
            intro hno
            rw [requestStart_control, AppMonitor.requestStart_abi] at hfailed
            exact h ⟨hexiting, hno, hfailed⟩
          apply upToDate_requestStop
          apply (upToDate_updateStatus e (s.withMonitor AppMonitor.requestStart)).withMonitor
          apply view_rearm_failed hstate _ hfailed
          rw [requestStart_control, AppMonitor.requestStart_abi]
          exact hsupported
        · rw [if_neg hexiting] at hstate
          exact upToDate_requestStop_of_tracing hstate _
      · exact absurd hfailed hne
    · exact upToDate_updateStatus e _

/-- In the exception the status says nothing of the ABI, where there is something to say. -/
theorem handle_rearm_stale {o : RearmOutcomes} {ignoreDisable : Bool}
    (h : FailsAfterExit s (.message (.rearm ignoreDisable) o)) (hopens : e.opens s.calls = true)
    (hreason : closing ∉ utf8 s.control.monitor.stopReason) :
    ¬(s.handle e o (.rearm ignoreDisable)).UpToDate e := by
  obtain ⟨hexiting, hsupported, hfailed⟩ := h
  have hstart : s.requestStart e = s.updateStatus e := by
    unfold Shown.requestStart Shown.withMonitor AppMonitor.requestStart
    simp [hexiting]
  have hne : s.control.monitor.tracingState ≠ .tracing := by
    rw [hexiting]
    exact TracingState.noConfusion
  have heq : s.handle e o (.rearm ignoreDisable) =
      (s.updateStatus e).withAbi (rearm o ignoreDisable s.control.monitor.abi).abi := by
    unfold Shown.handle Shown.requestRearm
    dsimp only
    rw [if_pos hne, hstart, rearm_fst, updateStatus_control, if_pos hfailed]
    rcases rearm_cases_update e (s.updateStatus e) o ignoreDisable with ⟨-, hearly⟩ | ⟨hno, -⟩
    · rw [hearly]
      exact if_neg hne
    · exact absurd hfailed hno
  intro hfresh
  rw [heq] at hfresh
  -- what was written is the text of the state before
  have hwritten := (upToDate_updateStatus e s hopens).symm.trans (hfresh hopens)
  have hview : view s.control =
      view ((s.updateStatus e).withAbi (rearm o ignoreDisable s.control.monitor.abi).abi).control :=
    readout_inj e.module hreason hreason hwritten
  simp [view, Shown.updateStatus, Shown.withAbi, Shown.withMonitor, hsupported, (rearm_failed hfailed).1] at hview

theorem upToDate_handle (o : RearmOutcomes) (request : Request) (h : ¬FailsAfterExit s (.message request o))
    (hfresh : s.UpToDate e) : (s.handle e o request).UpToDate e := by
  cases request with
  | start | exit | zygoteInjected pid | daemonSetInfo info | daemonSetErrorInfo error =>
      exact upToDate_updateStatus e _
  | stop => exact upToDate_requestStop hfresh "user requested"
  | rearm ignoreDisable => exact upToDate_requestRearm o ignoreDisable h
  | systemServerStarted => exact hfresh
  | unknown value => exact hfresh

/-! ### Statuses of children -/

theorem routeTraced_shown (pid : Pid) (o : Outcomes) (keepAttached : Bool) (status : WaitStatus) (m : AppMonitor) :
    (routeTraced pid o keepAttached status m).tracingState = m.tracingState ∧
      (routeTraced pid o keepAttached status m).stopReason = m.stopReason ∧
        (routeTraced pid o keepAttached status m).abi = m.abi := by
  rw [routeTraced_eq]
  split_ifs
  · exact ⟨rfl, rfl, rfl⟩
  · exact ⟨rfl, rfl, rfl⟩
  · exact ⟨rfl, rfl, rfl⟩

theorem upToDate_identifyStop (pid : Pid) (status : WaitStatus) (o : Outcomes) (hfresh : s.UpToDate e) :
    (s.identifyStop e pid status o).2.2.UpToDate e := by
  unfold Shown.identifyStop
  split_ifs
  · exact upToDate_updateStatus e _
  · apply hfresh.withMonitor
    simp only [Shown.withMonitor, AppMonitor.call_cont]
    exact view_congr rfl rfl rfl rfl rfl
  · exact hfresh

theorem upToDate_handleTracedProcess (pid : Pid) (status : WaitStatus) (o : Outcomes) (hfresh : s.UpToDate e) :
    (s.handleTracedProcess e pid status o).UpToDate e := by
  apply (upToDate_identifyStop pid status o hfresh).withMonitor
  obtain ⟨hstate, hreason, habi⟩ :=
    routeTraced_shown pid o (s.identifyStop e pid status o).1 (s.identifyStop e pid status o).2.1
      (s.identifyStop e pid status o).2.2.control.monitor
  exact view_congr hstate hreason habi rfl rfl

/-- A parent that is detached was to be left, which looks the same. -/
theorem view_handleParentEvent (pid : Pid) (status : WaitStatus) (o : Outcomes) (c : ControlState) :
    view { c with monitor := (handleParentEvent pid status o c.monitor).2 } = view c := by
  unfold handleParentEvent
  split_ifs with hfork hdetach
  · exact view_congr rfl rfl rfl rfl rfl
  · have hstopping : c.monitor.tracingState = .stopping := by
      simp only [Bool.and_eq_true, beq_iff_eq] at hdetach
      exact hdetach.2
    simp [view, viewAbi, viewZygote, viewActivity, AppMonitor.notifyInitDetached, AppMonitor.issue, hstopping]
  · exact view_congr rfl rfl rfl rfl rfl
  · exact view_congr rfl rfl rfl rfl rfl

theorem upToDate_handleDaemonExitIfMatch {pid : Pid} {statusText : List Byte}
    (h : (s.handleDaemonExitIfMatch e pid statusText).1 = true) :
    (s.handleDaemonExitIfMatch e pid statusText).2.UpToDate e := by
  unfold Shown.handleDaemonExitIfMatch at h ⊢
  dsimp only at h ⊢
  cases hmatch : (handleDaemonExitIfMatch pid s.control.monitor.abi).1 with
  | true =>
      simp only [if_true]
      exact upToDate_updateStatus e _
  | false => simp [hmatch] at h

theorem upToDate_handleChildEvent (pid : Pid) (status : WaitStatus) (statusText : List Byte) (o : Outcomes)
    (hfresh : s.UpToDate e) : (s.handleChildEvent e pid status statusText o).UpToDate e := by
  unfold Shown.handleChildEvent
  dsimp only
  split_ifs with hparent hdaemon hcandidate
  · exact hfresh.withMonitor (view_handleParentEvent pid status o s.control)
  · exact upToDate_handleDaemonExitIfMatch hdaemon
  · exact upToDate_handleTracedProcess pid status o hfresh
  · exact hfresh.withMonitor (view_congr rfl rfl rfl rfl rfl)

theorem upToDate_reap (pid : Pid) (status : WaitStatus) (statusText : List Byte) (o : Outcomes)
    (hfresh : s.UpToDate e) : (s.reap e pid status statusText o).UpToDate e := by
  apply upToDate_handleChildEvent
  exact hfresh.withMonitor (view_congr rfl rfl rfl rfl rfl)

/-! ## The reasons to stop -/

/-- The reasons the code gives, and none. -/
def stopReasons : List String := ["", "user requested", "zygote crashed", "daemon not running", "rearm failed"]

theorem closing_notMem {reason : String} (h : reason ∈ stopReasons) : closing ∉ utf8 reason := by
  have hall : ∀ r ∈ stopReasons, closing ∉ utf8 r := by decide
  exact hall reason h

theorem stopReason_requestStop {m : AppMonitor} {reason : String} (hreason : reason ∈ stopReasons)
    (h : m.stopReason ∈ stopReasons) : (m.requestStop reason).stopReason ∈ stopReasons := by
  unfold AppMonitor.requestStop
  split_ifs
  · exact hreason
  · exact h

theorem stopReason_requestStart (m : AppMonitor) : m.requestStart.stopReason = m.stopReason := by
  unfold AppMonitor.requestStart
  split_ifs
  · rfl
  · rfl
  · rfl

theorem stopReason_requestRearm {m : AppMonitor} (o : RearmOutcomes) (ignoreDisable : Bool)
    (h : m.stopReason ∈ stopReasons) : (m.requestRearm o ignoreDisable).2.stopReason ∈ stopReasons := by
  unfold AppMonitor.requestRearm
  dsimp only
  have hstarted : (if m.tracingState ≠ .tracing then m.requestStart else m).stopReason ∈ stopReasons := by
    split_ifs
    · rw [stopReason_requestStart]
      exact h
    · exact h
  by_cases hfailed :
      (rearm o ignoreDisable (if m.tracingState ≠ .tracing then m.requestStart else m).abi).result = .failed
  · rw [if_pos hfailed]
    exact stopReason_requestStop (by decide) hstarted
  · rw [if_neg hfailed]
    exact hstarted

theorem stopReason_handle {c : ControlState} (o : RearmOutcomes) (request : Request)
    (h : c.monitor.stopReason ∈ stopReasons) : (request.handle o c).monitor.stopReason ∈ stopReasons := by
  cases request with
  | start =>
      have hkept := stopReason_requestStart c.monitor
      simpa only [Request.handle, hkept] using h
  | stop => exact stopReason_requestStop (by decide) h
  | exit => exact List.mem_cons_of_mem _ List.mem_cons_self
  | rearm ignoreDisable => exact stopReason_requestRearm o ignoreDisable h
  | zygoteInjected pid | daemonSetInfo info | daemonSetErrorInfo error | systemServerStarted | unknown value => exact h

theorem stopReason_checkAndPrepareInjection {m : AppMonitor} (o : Outcomes) (h : m.stopReason ∈ stopReasons) :
    (checkAndPrepareInjection o m).2.stopReason ∈ stopReasons := by
  unfold checkAndPrepareInjection
  dsimp only
  split_ifs
  · exact stopReason_requestStop (by decide) h
  · exact h
  · exact stopReason_requestStop (by decide) h

theorem stopReason_reap {m : AppMonitor} (pid : Pid) (status : WaitStatus) (o : Outcomes)
    (h : m.stopReason ∈ stopReasons) : (reap pid status o m).2.stopReason ∈ stopReasons := by
  cases hrole : m.role pid with
  | parent =>
      simp only [reap, handleChildEvent_eq, AppMonitor.role_issue, hrole, handleParentEvent]
      split_ifs
      · exact h
      · exact h
      · exact h
      · exact h
  | daemon =>
      rw [reap_daemon pid status o m hrole]
      exact h
  | candidate =>
      rw [reap_candidate pid status o m hrole]
      have hprepared : (checkAndPrepareInjection o (m.issue pid [.report status])).2.stopReason ∈ stopReasons :=
        stopReason_checkAndPrepareInjection o h
      simp only [AppMonitor.issue, tracedMonitor]
      split
      · exact h
      · exact h
      · split_ifs
        · exact hprepared
        · exact hprepared
      · exact hprepared
      · exact h
  | new =>
      rw [reap_new pid status o m hrole]
      exact h

/-! ## Every run -/

/-- The file is up to date, and the reason is one of those in the code. -/
structure Inv (e : Env) (s : Shown) : Prop where
  upToDate : s.UpToDate e
  stopReason : s.control.monitor.stopReason ∈ stopReasons

theorem inv_step {event : Event} (h : ¬FailsAfterExit s event) (hinv : Inv e s) (hstep : step e s event = some s') :
    Inv e s' := by
  cases event with
  | message request o =>
      obtain rfl := Option.some.inj hstep
      refine ⟨upToDate_handle o request h hinv.upToDate, ?_⟩
      rw [handle_control]
      exact stopReason_handle o request hinv.stopReason
  | status pid status statusText o =>
      obtain rfl := Option.some.inj hstep
      refine ⟨upToDate_reap pid status statusText o hinv.upToDate, ?_⟩
      rw [reap_monitor]
      exact stopReason_reap pid status o hinv.stopReason

/-- The runs in which no rearm fails after EXIT. -/
abbrev Runs (e : Env) (m : AppMonitor) (old : List Byte) : Shown → Prop :=
  GuardedReach (step e) (fun s event => ¬FailsAfterExit s event) (prepared e m old)

theorem Runs.inv {m : AppMonitor} {old : List Byte} (h : Runs e m old s) (hreason : m.stopReason = "") : Inv e s := by
  apply h.invariant
  · refine ⟨upToDate_updateStatus e _, ?_⟩
    have hmem : m.stopReason ∈ stopReasons := by
      rw [hreason]
      exact List.mem_cons_self
    exact hmem
  · intro s event s' hinv hevent hstep
    exact inv_step hevent hinv hstep

/-- After every event the file tells what is to be seen of the state, if the last attempt to write it worked: it is the
text of this state, and of no other state that looks different. -/
theorem status_shown {m : AppMonitor} {old : List Byte} (hreason : m.stopReason = "") (h : Runs e m old s)
    (hopens : e.opens (s.calls - 1) = true) :
    s.file = readout e.module s.control ∧
      ∀ c : ControlState, closing ∉ utf8 c.monitor.stopReason →
        (s.file = readout e.module c ↔ view c = view s.control) := by
  have hinv := h.inv hreason
  have hfile := hinv.upToDate hopens
  refine ⟨hfile, ?_⟩
  intro c hc
  rw [hfile]
  constructor
  · intro heq
    exact (readout_inj e.module (closing_notMem hinv.stopReason) hc heq).symm
  · intro hview
    rw [readout_eq, readout_eq, hview]

/-- The file cannot be opened the second time. -/
def sampleEnv : Env where
  module := Module.read (utf8 "64") (utf8 "id=zygisksu\ndescription=Standalone implementation of Zygisk\n")
  opens := fun n => n != 1

/-- The daemon says what it found, a zygote confirms its injection, the user stops the monitor and the daemon dies. -/
def sampleEvents : List Event :=
  [.message (.daemonSetInfo (utf8 "Root: KernelSU, Modules (2): zn_audit, zn_plt")) noProcesses,
    .message (.zygoteInjected 812) noProcesses, .message .stop noProcesses,
    .status 700 (.exited 1) (utf8 "exited with 1") smoothHandover]

theorem status_shown_stop :
    ∃ s, replay (step sampleEnv) (prepared sampleEnv bootMonitor []) sampleEvents = some s ∧
      s.file = readout sampleEnv.module s.control ∧
        ∀ c : ControlState, closing ∉ utf8 c.monitor.stopReason →
          (s.file = readout sampleEnv.module c ↔ view c = view s.control) :=
  ⟨_, rfl, status_shown rfl (guardedReach_of_replay sampleEvents rfl
    ⟨id, fun _ _ => ⟨id, fun _ _ => ⟨id, fun _ _ => ⟨id, fun _ _ => trivial⟩⟩⟩⟩) (by decide)⟩

end NeoZygisk.Monitor.StatusFile
