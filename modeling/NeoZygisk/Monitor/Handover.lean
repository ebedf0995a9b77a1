import NeoZygisk.Monitor.Handler

/-!
# Who releases a stopped zygote

The handover stops the zygote and counts on the injector to let it go. `handover_releases_iff` says for
which outcomes of the calls nobody is left holding it: the handover is not reached, the target died, or
the wait met the monitor's own `SIGSTOP` and then either an injector was executed or `SIGCONT` sent.

Two kinds of outcome break this. A second fork that fails shows only in an exit status that
`fork_dont_care` drops, so the caller takes the injector for started. And another pending signal may be
reported before `SIGSTOP`: the target is then detached as irrelevant with `SIGSTOP` still pending.
`handover_leaves_frozen` has a run of each.
-/

set_option autoImplicit false

namespace NeoZygisk.Monitor

/-- The monitor when `waitpid` has reported the exec stop of `pid`. -/
def AppMonitor.atExecStop (pid : Pid) (pending : Finset Signal) (m : AppMonitor) : AppMonitor :=
  { m with tracees := Function.update m.tracees pid (.execStop pending) }

/-! ## When the handover releases its target -/

/-- The event is the exec of the zygote, and the monitor is ready to inject. -/
def HandsOver (status : WaitStatus) (o : Outcomes) (m : AppMonitor) : Prop :=
  status = .stopped sigTrap eventExec ∧ isStubZygote o.program = false ∧
    m.tracingState = .tracing ∧ o.program = m.abi.programPath ∧
    (checkAndPrepareInjection o m).1.isSome

/-- Both forks and the exec succeed. -/
def Outcomes.StartsInjector (o : Outcomes) : Prop :=
  o.forkChild.isSome ∧ o.forkGrandchild ∧ o.exec

/-- `SIGCONT` reaches the target: after a failed first fork, or from a grandchild whose exec fails. -/
def Outcomes.SendsCont (o : Outcomes) : Prop :=
  o.killCont ∧ (o.forkChild = none ∨ (o.forkGrandchild ∧ o.exec = false))

/-- The outcomes under which a handover leaves no living target held by the monitor's `SIGSTOP`. -/
def Outcomes.Releases (o : Outcomes) : Prop :=
  match o.wait with
  | some (.exited _) => True
  | some (.signaled _) => True
  | some (.stopped sig event) =>
      if sig = sigStop ∧ event = 0 then
        -- without a signal of its own the monitor stops the target by detaching it
        (o.killStop = false ∧ o.detachStopped = false) ∨ o.StartsInjector ∨ o.SendsCont
      else o.killStop = false
  | none =>
      -- the target meets `SIGSTOP` late, and the caller's detach drops it
      o.killStop = false ∨ (o.cont ∧ o.reached = some sigStop ∧ o.resume)

instance (status : WaitStatus) (o : Outcomes) (m : AppMonitor) : Decidable (HandsOver status o m) :=
  inferInstanceAs (Decidable (_ ∧ _ ∧ _ ∧ _ ∧ _))

/-! ## Steps that send no signal -/

namespace Tracee

theorem not_leftFrozen_of_unsent {t : Tracee} (h : t.stopSent = false) : ¬ t.LeftFrozen := by
  rintro ⟨-, hsent, -⟩
  rw [h] at hsent
  cases hsent

theorem not_leftFrozen_of_dead {t : Tracee} (h : t.alive = false) : ¬ t.LeftFrozen := by
  rintro ⟨halive, -⟩
  rw [h] at halive
  cases halive

@[simp] theorem stopSent_reach (next : Option Signal) (t : Tracee) :
    (t.reach next).stopSent = t.stopSent := by
  cases next with
  | none => rfl
  | some sig =>
      simp only [reach]
      split
      · rfl
      · rfl

@[simp] theorem stopSent_detach_zero (t : Tracee) : (t.detach 0).stopSent = t.stopSent := by
  simp [detach, sigStop]

@[simp] theorem stopSent_report (status : WaitStatus) (t : Tracee) :
    (t.report status).stopSent = t.stopSent := by
  cases status with
  | exited code => rfl
  | signaled sig => rfl
  | stopped sig event => rfl

end Tracee

/-! ## The target after each part of the handover -/

/-- The target when the handover's wait returns. -/
def parked (o : Outcomes) (pending : Finset Signal) : Tracee :=
  let t := if o.killStop then (Tracee.execStop pending).sendStop else .execStop pending
  let t := if o.cont then t.cont else t
  match o.wait with
  | none => t
  | some status => t.report status

/-- The target when the caller has detached it as irrelevant. -/
def dropped (o : Outcomes) (t : Tracee) : Tracee :=
  if o.resume then (t.reach o.reached).detach 0 else t.reach o.reached

/-- The target after `startInjection`. -/
def handed (o : Outcomes) (t : Tracee) : Tracee :=
  let t := if o.detachStopped then t.detach sigStop else t
  match o.forkChild with
  | none => if o.killCont then t.sendCont else t
  | some _ =>
      if o.forkGrandchild then
        if o.exec then t.startInjector else if o.killCont then t.sendCont else t
      else t

theorem startInjection_tracee (pid : Pid) (o : Outcomes) (m : AppMonitor) :
    (startInjection pid o m).tracees pid = handed o (m.tracees pid) := by
  simp only [startInjection, handed, AppMonitor.call_tracees_self]
  cases o.forkChild with
  | none => simp [forkDontCare]
  | some child =>
      simp only [forkDontCare]
      cases o.forkGrandchild <;> cases o.exec <;> simp

theorem handOver_tracee (pid : Pid) (status : WaitStatus) (o : Outcomes) (m : AppMonitor)
    (pending : Finset Signal) (h : m.tracees pid = .execStop pending) :
    (handOver pid status o m).2.2.tracees pid =
      if (handOver pid status o m).1 then handed o (parked o pending) else parked o pending := by
  have hparked : ∀ status, (((m.call pid o.killStop .sendStop).call pid o.cont .cont).call pid
      o.wait.isSome (.report (o.wait.getD status))).tracees pid = parked o pending := by
    intro status
    simp only [AppMonitor.call_tracees_self, h, parked]
    cases o.wait with
    | none => rfl
    | some reply => rfl
  simp only [handOver]
  split
  · rw [if_pos rfl, startInjection_tracee, hparked]
  · rw [if_neg Bool.false_ne_true, hparked]

theorem handOver_status (pid : Pid) (status : WaitStatus) (o : Outcomes) (m : AppMonitor) :
    (handOver pid status o m).2.1 = o.wait.getD status := by
  simp only [handOver]
  split <;> rfl

theorem handOver_handled (pid : Pid) (status : WaitStatus) (o : Outcomes) (m : AppMonitor) :
    (handOver pid status o m).1 = stoppedWith (o.wait.getD status) sigStop 0 := by
  simp only [handOver]
  split
  · rename_i h
    exact h.symm
  · rename_i h
    exact ((Bool.not_eq_true _).mp h).symm

theorem checkAndPrepareInjection_tracees (o : Outcomes) (m : AppMonitor) :
    (checkAndPrepareInjection o m).2.tracees = m.tracees := by
  simp only [checkAndPrepareInjection]
  split
  · rw [AppMonitor.requestStop_tracees]
  · split
    · rfl
    · rw [AppMonitor.requestStop_tracees]

/-- Without a handover no handler sends `SIGSTOP`. -/
theorem handleExecEvent_stopSent (pid : Pid) (status : WaitStatus) (o : Outcomes) (m : AppMonitor)
    (hstatus : status = .stopped sigTrap eventExec) (h : ¬ HandsOver status o m) :
    ((handleExecEvent pid status o m).2.2.tracees pid).stopSent = (m.tracees pid).stopSent := by
  simp only [handleExecEvent]
  split
  · -- the stub is resumed and watched further
    simp only [AppMonitor.call_tracees_self]
    split
    · rfl
    · rfl
  · rename_i hstub
    split
    · rfl
    · rename_i hstate
      split
      · rfl
      · rename_i hprogram
        split
        · rw [checkAndPrepareInjection_tracees]
        · -- every guard has passed: this is a handover
          rename_i tracer hprepared
          exact absurd ⟨hstatus, (Bool.not_eq_true _).mp hstub, not_not.mp hstate,
            not_not.mp hprogram, by rw [hprepared]; rfl⟩ h

theorem handleExecEvent_of_handsOver (pid : Pid) {status : WaitStatus} {o : Outcomes} {m : AppMonitor}
    (h : HandsOver status o m) :
    handleExecEvent pid status o m = handOver pid status o (checkAndPrepareInjection o m).2 := by
  obtain ⟨-, hstub, hstate, hprogram, hprepared⟩ := h
  obtain ⟨tracer, htracer⟩ := Option.isSome_iff_exists.mp hprepared
  simp only [handleExecEvent, hstub, htracer]
  rw [if_neg Bool.false_ne_true, if_neg (not_not.mpr hstate), if_neg (not_not.mpr hprogram)]

theorem identifyStop_stopSent (pid : Pid) (status : WaitStatus) (o : Outcomes) (m : AppMonitor)
    (h : ¬ HandsOver status o m) :
    ((identifyStop pid status o m).2.2.tracees pid).stopSent = (m.tracees pid).stopSent := by
  simp only [identifyStop]
  split
  · rename_i hexec
    exact handleExecEvent_stopSent pid status o m (of_decide_eq_true hexec) h
  · split
    · simp only [AppMonitor.call_tracees_self]
      split <;> rfl
    · rfl

/-- What the second half does to the process. -/
theorem routeTraced_tracee (pid : Pid) (o : Outcomes) (keepAttached : Bool) (status : WaitStatus)
    (m : AppMonitor) :
    (routeTraced pid o keepAttached status m).tracees pid =
      if keepAttached = false ∧ status.isStopped then dropped o (m.tracees pid)
      else m.tracees pid := by
  cases keepAttached with
  | true =>
      rw [if_neg (by simp)]
      simp only [routeTraced, if_true]
      split <;> rfl
  | false =>
      simp only [routeTraced, Bool.false_eq_true, if_false, true_and]
      split
      · simp only [AppMonitor.call_tracees_self, dropped, if_true]
      · rfl

/-- Neither a signal stop met on the way nor a detach without a signal counts as sending one. -/
@[simp] theorem dropped_stopSent (o : Outcomes) (t : Tracee) :
    (dropped o t).stopSent = t.stopSent := by
  simp only [dropped]
  split <;> simp

/-- The whole event without a handover. -/
theorem handleTracedProcess_stopSent (pid : Pid) (status : WaitStatus) (o : Outcomes)
    (m : AppMonitor) (h : ¬ HandsOver status o m) :
    ((handleTracedProcess pid status o m).tracees pid).stopSent = (m.tracees pid).stopSent := by
  rw [← identifyStop_stopSent pid status o m h]
  simp only [handleTracedProcess, routeTraced_tracee]
  split
  · rw [dropped_stopSent]
  · rfl

/-- The whole event with a handover. The status that routes the caller is the one the handover's own
wait left behind. -/
theorem handleTracedProcess_tracee (pid : Pid) (status : WaitStatus) (o : Outcomes)
    (m : AppMonitor) (pending : Finset Signal) (h : HandsOver status o m)
    (hpid : m.tracees pid = .execStop pending) :
    (handleTracedProcess pid status o m).tracees pid =
      if stoppedWith (o.wait.getD status) sigStop 0 then handed o (parked o pending)
      else if (o.wait.getD status).isStopped then dropped o (parked o pending)
      else parked o pending := by
  have hexec : stoppedWith status sigTrap eventExec = true := decide_eq_true h.1
  have htracee := handOver_tracee pid status o (checkAndPrepareInjection o m).2 pending
    (by rw [checkAndPrepareInjection_tracees, hpid])
  simp only [handleTracedProcess, routeTraced_tracee, identifyStop, hexec, if_true,
    handleExecEvent_of_handsOver pid h, htracee, handOver_status, handOver_handled]
  cases stoppedWith (o.wait.getD status) sigStop 0 with
  | true => simp
  | false => simp

/-! ## Which of them are left frozen -/

section Target

variable {o : Outcomes} (pending : Finset Signal)

@[simp] theorem parked_stopSent : (parked o pending).stopSent = o.killStop := by
  simp only [parked]
  cases o.wait with
  | none => cases o.killStop <;> cases o.cont <;> rfl
  | some status =>
      simp only [Tracee.stopSent_report]
      cases o.killStop <;> cases o.cont <;> rfl

/-- A sent `SIGSTOP` stays pending through the wait, unless the wait reports just that signal. -/
theorem mem_pending_parked (hkill : o.killStop = true)
    (hwait : o.wait ≠ some (.stopped sigStop 0)) : sigStop ∈ (parked o pending).pending := by
  simp only [parked, hkill, if_true]
  have hsent : sigStop ∈ (if o.cont then (Tracee.execStop pending).sendStop.cont
      else (Tracee.execStop pending).sendStop).pending := by
    cases o.cont <;> exact Finset.mem_insert_self _ _
  cases hreply : o.wait with
  | none => exact hsent
  | some status =>
      cases status with
      | exited code => exact hsent
      | signaled sig => exact hsent
      | stopped sig event =>
          simp only [Tracee.report]
          split
          · -- the reported signal leaves the set, and it is another one
            rename_i hevent
            apply Finset.mem_erase.mpr
            refine ⟨?_, hsent⟩
            rintro rfl
            exact hwait (by rw [hreply, hevent])
          · exact hsent

/-- Nothing has been released yet when the wait returns. -/
theorem parked_unreleased :
    (parked o pending).contSent = false ∧ (parked o pending).injector = false := by
  simp only [parked]
  cases o.wait with
  | none => cases o.killStop <;> cases o.cont <;> exact ⟨rfl, rfl⟩
  | some status =>
      cases status <;> cases o.killStop <;> cases o.cont <;> exact ⟨rfl, rfl⟩

/-- A pending `SIGSTOP` is lost in one way: the running target stops for it and is detached there. -/
theorem held_dropped_iff {t : Tracee} (hmem : sigStop ∈ t.pending) :
    (dropped o t).HeldByStop ↔
      ¬ (t.attached = true ∧ t.state = .running ∧ o.reached = some sigStop ∧ o.resume = true) := by
  by_cases hmet : t.attached = true ∧ t.state = .running ∧ o.reached = some sigStop
  · -- the target has stopped for `SIGSTOP` by the time of the detach
    obtain ⟨hattached, hrunning, hreached⟩ := hmet
    have hreach : t.reach o.reached = t.report (.stopped sigStop 0) := by
      simp only [Tracee.reach, hreached]
      exact if_pos ⟨hattached, hrunning, hmem⟩
    cases hresume : o.resume with
    | true =>
        simp only [dropped, hresume, if_true, hreach]
        simp [Tracee.HeldByStop, Tracee.report, Tracee.detach, hattached, hrunning, hreached, sigStop]
    | false =>
        simp [dropped, hresume, hreach, Tracee.HeldByStop, Tracee.report]
  · -- it stays pending, whatever the detach does
    have hkept : sigStop ∈ (t.reach o.reached).pending := by
      cases hreached : o.reached with
      | none => exact hmem
      | some sig =>
          simp only [Tracee.reach]
          split
          · rename_i hguard
            apply Finset.mem_erase.mpr
            refine ⟨?_, hmem⟩
            rintro rfl
            exact hmet ⟨hguard.1, hguard.2.1, hreached⟩
          · exact hmem
    have hheld : (dropped o t).HeldByStop := by
      simp only [dropped]
      split
      · exact .inl hkept
      · exact .inl hkept
    exact ⟨fun _ h => hmet ⟨h.1, h.2.1, h.2.2.1⟩, fun _ => hheld⟩

theorem dropped_eq_fields (t : Tracee) :
    (dropped o t).alive = t.alive ∧ (dropped o t).contSent = t.contSent ∧
      (dropped o t).injector = t.injector := by
  have hreach : (t.reach o.reached).alive = t.alive ∧ (t.reach o.reached).contSent = t.contSent ∧
      (t.reach o.reached).injector = t.injector := by
    cases o.reached with
    | none => exact ⟨rfl, rfl, rfl⟩
    | some sig =>
        simp only [Tracee.reach]
        split <;> exact ⟨rfl, rfl, rfl⟩
  simp only [dropped]
  split
  · exact hreach
  · exact hreach

/-- A living target that the caller detaches as irrelevant, with the monitor's `SIGSTOP` not yet
reported. -/
theorem dropped_leftFrozen_iff (halive : (parked o pending).alive = true)
    (hwait : o.wait ≠ some (.stopped sigStop 0)) :
    (dropped o (parked o pending)).LeftFrozen ↔
      o.killStop = true ∧ ¬ ((parked o pending).attached = true ∧
        (parked o pending).state = .running ∧ o.reached = some sigStop ∧ o.resume = true) := by
  obtain ⟨hlive, hcont, hinjector⟩ := dropped_eq_fields (o := o) (parked o pending)
  obtain ⟨huncont, huninjected⟩ := parked_unreleased (o := o) pending
  simp only [Tracee.LeftFrozen, hlive, halive, dropped_stopSent, parked_stopSent, hcont, huncont,
    hinjector, huninjected, and_true, true_and]
  constructor
  · rintro ⟨hkill, hheld⟩
    exact ⟨hkill, (held_dropped_iff (mem_pending_parked pending hkill hwait)).mp hheld⟩
  · rintro ⟨hkill, hfree⟩
    exact ⟨hkill, (held_dropped_iff (mem_pending_parked pending hkill hwait)).mpr hfree⟩

/-- The wait met `SIGSTOP`: the target stays held by it whatever the detach does, so the forks, the
exec and the last `kill` decide. -/
theorem handed_leftFrozen_iff (hwait : o.wait = some (.stopped sigStop 0)) :
    (handed o (parked o pending)).LeftFrozen ↔
      (o.killStop = true ∨ o.detachStopped = true) ∧ ¬ o.StartsInjector ∧ ¬ o.SendsCont := by
  have hparked : (parked o pending).alive = true ∧
      (parked o pending).state = .traced sigStop 0 := by
    simp only [parked, hwait]
    cases o.killStop <;> cases o.cont <;> exact ⟨rfl, rfl⟩
  obtain ⟨halive, hstate⟩ := hparked
  obtain ⟨huncont, huninjected⟩ := parked_unreleased (o := o) pending
  -- before the forks: held as soon as one of the two signals was sent
  have hdetached : (if o.detachStopped then (parked o pending).detach sigStop
      else parked o pending).LeftFrozen ↔ o.killStop = true ∨ o.detachStopped = true := by
    cases o.detachStopped with
    | true => simp [Tracee.LeftFrozen, Tracee.HeldByStop, Tracee.detach, halive, huncont, huninjected]
    | false => simp [Tracee.LeftFrozen, Tracee.HeldByStop, halive, hstate, huncont, huninjected]
  simp only [handed, Outcomes.StartsInjector, Outcomes.SendsCont]
  cases o.forkChild with
  | none =>
      cases o.killCont with
      | true => simp [Tracee.LeftFrozen, Tracee.sendCont]
      | false => simpa using hdetached
  | some child =>
      cases o.forkGrandchild with
      | false => simpa using hdetached
      | true =>
          cases o.exec with
          | true => simp [Tracee.LeftFrozen, Tracee.startInjector]
          | false =>
              cases o.killCont with
              | true => simp [Tracee.LeftFrozen, Tracee.sendCont]
              | false => simpa using hdetached

end Target

/-- Which handovers release their target. -/
theorem target_released_iff (o : Outcomes) (pending : Finset Signal) (status : WaitStatus)
    (hexec : status = .stopped sigTrap eventExec) :
    ¬ (if stoppedWith (o.wait.getD status) sigStop 0 then handed o (parked o pending)
      else if (o.wait.getD status).isStopped then dropped o (parked o pending)
      else parked o pending).LeftFrozen ↔ o.Releases := by
  cases hwait : o.wait with
  | none =>
      -- the status is still that of the exec stop, so the caller detaches
      have halive : (parked o pending).alive = true ∧ (parked o pending).attached = true ∧
          ((parked o pending).state = .running ↔ o.cont = true) := by
        simp only [parked, hwait]
        cases o.killStop <;> cases o.cont <;>
          simp [Tracee.sendStop, Tracee.cont, Tracee.execStop]
      have hfrozen := dropped_leftFrozen_iff (o := o) pending halive.1 (by rw [hwait]; simp)
      simp only [Option.getD_none, hexec, WaitStatus.isStopped, if_true, Outcomes.Releases, hwait]
      rw [if_neg (by decide), hfrozen, halive.2.2]
      simp only [halive.2.1, true_and]
      rw [not_and_not_right, ← Bool.not_eq_true, imp_iff_not_or]
  | some reply =>
      cases reply with
      | exited code =>
          have hdead : (parked o pending).alive = false := by simp only [parked, hwait, Tracee.report]
          simp only [Outcomes.Releases, hwait, iff_true]
          exact Tracee.not_leftFrozen_of_dead hdead
      | signaled sig =>
          have hdead : (parked o pending).alive = false := by simp only [parked, hwait, Tracee.report]
          simp only [Outcomes.Releases, hwait, iff_true]
          exact Tracee.not_leftFrozen_of_dead hdead
      | stopped sig event =>
          simp only [Option.getD_some, WaitStatus.isStopped, if_true, Outcomes.Releases, hwait]
          by_cases hown : sig = sigStop ∧ event = 0
          · obtain ⟨rfl, rfl⟩ := hown
            rw [if_pos (by decide), handed_leftFrozen_iff pending hwait, if_pos ⟨rfl, rfl⟩]
            rw [not_and_or, not_or, Bool.not_eq_true, Bool.not_eq_true, ← not_or, not_not]
          · have hother : o.wait ≠ some (.stopped sigStop 0) := by
              rw [hwait]
              intro heq
              cases heq
              exact hown ⟨rfl, rfl⟩
            have halive : (parked o pending).alive = true ∧
                (parked o pending).state = .traced sig event := by
              simp only [parked, hwait]
              cases o.killStop <;> cases o.cont <;> exact ⟨rfl, rfl⟩
            have hnot : stoppedWith (.stopped sig event) sigStop 0 = false := by
              simpa [stoppedWith] using hown
            rw [hnot, if_neg Bool.false_ne_true, if_neg hown,
              dropped_leftFrozen_iff pending halive.1 hother]
            -- the target sits in the stop of the other signal and cannot reach its `SIGSTOP`
            simp [halive.2]

/-! ## The handover -/

/-- Once `handleTracedProcess` returns, no living target is left held by the monitor's `SIGSTOP` without
an injector or a `SIGCONT`, exactly when the event is no handover or the outcomes release it. -/
theorem handover_releases_iff (m : AppMonitor) (pid : Pid) (pending : Finset Signal)
    (status : WaitStatus) (o : Outcomes) :
    ¬ ((handleTracedProcess pid status o (m.atExecStop pid pending)).tracees pid).LeftFrozen ↔
      ¬ HandsOver status o (m.atExecStop pid pending) ∨ o.Releases := by
  have hpid : (m.atExecStop pid pending).tracees pid = .execStop pending := by
    simp [AppMonitor.atExecStop]
  by_cases h : HandsOver status o (m.atExecStop pid pending)
  · rw [handleTracedProcess_tracee pid status o _ pending h hpid]
    rw [target_released_iff o pending status h.1]
    simp only [h, not_true_eq_false, false_or]
  · -- nobody sends `SIGSTOP` outside a handover
    simp only [h, not_false_eq_true, true_or, iff_true]
    apply Tracee.not_leftFrozen_of_unsent
    rw [handleTracedProcess_stopSent pid status o _ h, hpid]
    rfl

/-- A monitor that traces init and has a daemon running. -/
def bootMonitor : AppMonitor where
  tracingState := .tracing
  stopReason := ""
  abi := { zygoteAbi "/data/adb/modules/zygisksu" true with
    supported := true, daemonRunning := true, daemonPid := some 700 }
  process := {812}
  stubProcesses := ∅
  tracees := fun _ => .execStop ∅

/-- A zygote starts and every call succeeds. -/
def smoothHandover : Outcomes where
  program := "/system/bin/app_process64"
  now := 60
  daemonFork := none
  killStop := true
  cont := true
  wait := some (.stopped sigStop 0)
  detachStopped := true
  forkChild := some 813
  forkGrandchild := true
  exec := true
  killCont := true
  reached := none
  resume := true

/-- The zygote is left frozen when the second fork fails, and when a pending `SIGTERM` is reported
before the monitor's `SIGSTOP`. -/
theorem handover_leaves_frozen :
    ((handleTracedProcess 812 (.stopped sigTrap eventExec)
      { smoothHandover with forkGrandchild := false }
      (bootMonitor.atExecStop 812 ∅)).tracees 812).LeftFrozen ∧
    ((handleTracedProcess 812 (.stopped sigTrap eventExec)
      { smoothHandover with wait := some (.stopped 15 0) }
      (bootMonitor.atExecStop 812 {15})).tracees 812).LeftFrozen := by
  decide

end NeoZygisk.Monitor
