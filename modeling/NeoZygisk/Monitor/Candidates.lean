import NeoZygisk.Monitor.Answers

/-!
# The candidate pool

`process_` is to hold the processes the monitor is attached to and has not identified yet. The statuses
come in any order; of the kernel the model knows that a stop is reported only of a living process the
monitor is attached to, that an exit is reported once, and that a new daemon gets the pid of no living
process. Processes the monitor is not attached to come and go as they like.

A handover that works leaves the zygote in the pool: its wait overwrites the exec stop the caller looks
for. And a pid in no role is added whatever its status says. In runs without these two the pool is exact
(`pool_exact`).
-/

set_option autoImplicit false

namespace NeoZygisk.Monitor

open NeoZygisk.Lib.Transition

/-! ## Runs -/

/-- The monitor, and the processes whose exec was reported to it. -/
structure Pool where
  monitor : AppMonitor
  executed : Finset Pid

inductive PoolLabel where
  /-- `waitpid` reports a status. -/
  | status (e : ChildEvent)
  /-- A process the monitor is not attached to starts, is attached at its fork, or ends. -/
  | other (pid : Pid) (alive attached : Bool)

/-- What the kernel may report. -/
def ChildEvent.feasible (m : AppMonitor) (e : ChildEvent) : Bool :=
  (m.tracees e.pid).alive && (!e.status.isStopped || (m.tracees e.pid).attached) &&
    e.outcomes.daemonFork.all fun pid => pid != 1 && !(m.tracees pid).alive

/-- The processes that have executed a program, after a status. -/
def executedAfter (e : ChildEvent) (executed : Finset Pid) : Finset Pid :=
  if stoppedWith e.status sigTrap eventExec then insert e.pid executed
  else if e.status.isStopped then executed
  else executed.erase e.pid

/-- A process of which the monitor knows nothing yet. -/
def Tracee.fresh (alive attached : Bool) : Tracee := ⟨alive, attached, .running, ∅, false, false, false⟩

def poolStep (w : Pool) : PoolLabel → Option Pool
  | .status e =>
      if e.feasible w.monitor then
        some ⟨(reap e.pid e.status e.outcomes w.monitor).2, executedAfter e w.executed⟩
      else none
  | .other pid alive attached =>
      if (w.monitor.tracees pid).alive && (w.monitor.tracees pid).attached then none
      else
        some ⟨{ w.monitor with
          tracees := Function.update w.monitor.tracees pid (.fresh alive attached) },
          w.executed.erase pid⟩

/-! ## The pool -/

/-- The pool holds living, attached processes that have not executed a program, and neither init, nor a
stub, nor the daemon. -/
structure PoolExact (w : Pool) : Prop where
  candidates : ∀ pid ∈ w.monitor.process,
    (w.monitor.tracees pid).alive = true ∧ (w.monitor.tracees pid).attached = true ∧
      pid ∉ w.executed
  disjoint : ∀ pid ∈ w.monitor.process, pid ∉ w.monitor.stubProcesses
  init : 1 ∉ w.monitor.process ∧ 1 ∉ w.monitor.stubProcesses
  daemon : ∀ pid, w.monitor.abi.daemonPid = some pid →
    pid ∉ w.monitor.process ∧ pid ∉ w.monitor.stubProcesses

/-- A handover that works. -/
def CompletesHandover (m : AppMonitor) (e : ChildEvent) : Prop :=
  m.role e.pid = .candidate ∧ HandsOver e.status e.outcomes m ∧
    e.outcomes.wait = some (.stopped sigStop 0)

/-- A status of a pid in no role that is not a stop before its exec. -/
def StrayStatus (w : Pool) (e : ChildEvent) : Prop :=
  w.monitor.role e.pid = .new ∧
    (e.status.isStopped = false ∨ e.status = .stopped sigTrap eventExec ∨ e.pid ∈ w.executed)

/-- The steps that keep the pool exact. -/
def KeepsPool (w : Pool) : PoolLabel → Prop
  | .status e => ¬ CompletesHandover w.monitor e ∧ ¬ StrayStatus w e
  | .other _ _ _ => True

/-- The monitor as it starts. -/
structure PoolInitial (w : Pool) : Prop where
  process : w.monitor.process = ∅
  stubProcesses : w.monitor.stubProcesses = ∅
  daemonPid : w.monitor.abi.daemonPid = none

/-- The invariant: the stubs live too, and a recorded daemon belongs to a supported ABI. -/
structure PoolInv (w : Pool) : Prop where
  exact : PoolExact w
  stubs : ∀ pid ∈ w.monitor.stubProcesses,
    (w.monitor.tracees pid).alive = true ∧ (w.monitor.tracees pid).attached = true
  supported : w.monitor.abi.daemonPid.isSome = true → w.monitor.abi.supported = true

theorem PoolInitial.inv {w : Pool} (h : PoolInitial w) : PoolInv w := by
  obtain ⟨hprocess, hstubs, hdaemon⟩ := h
  refine ⟨⟨?_, ?_, ?_, ?_⟩, ?_, ?_⟩
  · simp [hprocess]
  · simp [hprocess]
  · simp [hprocess, hstubs]
  · simp [hdaemon]
  · simp [hstubs]
  · simp [hdaemon]

/-! ## One step -/

/-- A step about one process: of the others the roles only shrink, and of the process itself the
membership it ends with has to be justified. -/
theorem PoolInv.of_frame {w w' : Pool} (pid : Pid) (h : PoolInv w)
    (htracees : ∀ p, p ≠ pid → w'.monitor.tracees p = w.monitor.tracees p)
    (hexecuted : ∀ p, p ≠ pid → p ∈ w'.executed → p ∈ w.executed)
    (hprocess : ∀ p, p ≠ pid → p ∈ w'.monitor.process → p ∈ w.monitor.process)
    (hstubs : ∀ p, p ≠ pid → p ∈ w'.monitor.stubProcesses → p ∈ w.monitor.stubProcesses)
    (hpool : pid ∈ w'.monitor.process →
      ((w'.monitor.tracees pid).alive = true ∧ (w'.monitor.tracees pid).attached = true ∧
        pid ∉ w'.executed) ∧ pid ∉ w'.monitor.stubProcesses ∧ pid ≠ 1)
    (hstub : pid ∈ w'.monitor.stubProcesses →
      ((w'.monitor.tracees pid).alive = true ∧ (w'.monitor.tracees pid).attached = true) ∧ pid ≠ 1)
    (hdaemon : ∀ d, w'.monitor.abi.daemonPid = some d →
      d ∉ w'.monitor.process ∧ d ∉ w'.monitor.stubProcesses)
    (hsupported : w'.monitor.abi.daemonPid.isSome = true → w'.monitor.abi.supported = true) :
    PoolInv w' := by
  refine ⟨⟨?_, ?_, ⟨?_, ?_⟩, hdaemon⟩, ?_, hsupported⟩
  · intro p hp
    by_cases hself : p = pid
    · subst hself
      exact (hpool hp).1
    · obtain ⟨halive, hattached, hnot⟩ := h.exact.candidates p (hprocess p hself hp)
      rw [htracees p hself]
      exact ⟨halive, hattached, fun hmem => hnot (hexecuted p hself hmem)⟩
  · intro p hp hmem
    by_cases hself : p = pid
    · subst hself
      exact (hpool hp).2.1 hmem
    · exact h.exact.disjoint p (hprocess p hself hp) (hstubs p hself hmem)
  · intro hone
    by_cases hself : 1 = pid
    · subst hself
      exact (hpool hone).2.2 rfl
    · exact h.exact.init.1 (hprocess 1 hself hone)
  · intro hone
    by_cases hself : 1 = pid
    · subst hself
      exact (hstub hone).2 rfl
    · exact h.exact.init.2 (hstubs 1 hself hone)
  · intro p hp
    by_cases hself : p = pid
    · subst hself
      exact (hstub hp).1
    · rw [htracees p hself]
      exact h.stubs p (hstubs p hself hp)

section Step

variable {w : Pool} {e : ChildEvent}

theorem feasible_iff :
    e.feasible w.monitor = true ↔
      (w.monitor.tracees e.pid).alive = true ∧
        (e.status.isStopped = true → (w.monitor.tracees e.pid).attached = true) ∧
        ∀ d, e.outcomes.daemonFork = some d → d ≠ 1 ∧ (w.monitor.tracees d).alive = false := by
  simp only [ChildEvent.feasible, Bool.and_eq_true, Bool.or_eq_true, Bool.not_eq_true', and_assoc,
    Option.all_eq_true, bne_iff_ne, ne_eq, ← Bool.not_eq_true, imp_iff_not_or]

/-- Only the process of the event is touched. -/
theorem reap_tracees_of_ne {m : AppMonitor} {p : Pid} (h : p ≠ e.pid) :
    (reap e.pid e.status e.outcomes m).2.tracees p = m.tracees p := by
  rw [reap_tracees, AppMonitor.issue_tracees_of_ne _ _ h]

theorem mem_executedAfter_of_ne {executed : Finset Pid} {p : Pid} (h : p ≠ e.pid)
    (hmem : p ∈ executedAfter e executed) : p ∈ executed := by
  simp only [executedAfter] at hmem
  split_ifs at hmem
  · exact (Finset.mem_insert.mp hmem).resolve_left h
  · exact hmem
  · exact Finset.mem_of_mem_erase hmem

/-- A process that is stopped and has executed nothing still has not, unless this is its exec stop. -/
theorem not_mem_executedAfter {executed : Finset Pid} (hstopped : e.status.isStopped = true)
    (hexec : e.status ≠ .stopped sigTrap eventExec) (hnot : e.pid ∉ executed) :
    e.pid ∉ executedAfter e executed := by
  have hno : stoppedWith e.status sigTrap eventExec = false := by simpa [stoppedWith] using hexec
  simpa [executedAfter, hno, hstopped] using hnot

/-- The daemon that is recorded after preparing an injection was recorded before or has just been
forked. -/
theorem prepared_daemonPid {o : Outcomes} {m : AppMonitor} {d : Pid}
    (h : (checkAndPrepareInjection o m).2.abi.daemonPid = some d) :
    m.abi.daemonPid = some d ∨ o.daemonFork = some d := by
  rw [checkAndPrepareInjection_abi] at h
  split_ifs at h
  · exact .inl h
  · simp only [ensureDaemonCreated] at h
    split at h
    · exact .inl h
    · split at h
      · exact .inl h
      · rename_i pid hfork
        right
        rw [hfork]
        exact h

theorem prepared_supported {o : Outcomes} {m : AppMonitor}
    (hsupported : m.abi.daemonPid.isSome = true → m.abi.supported = true) :
    (checkAndPrepareInjection o m).2.abi.daemonPid.isSome = true →
      (checkAndPrepareInjection o m).2.abi.supported = true := by
  rw [checkAndPrepareInjection_abi]
  split_ifs
  · exact hsupported
  · simp only [ensureDaemonCreated]
    split
    · exact hsupported
    · split
      · exact hsupported
      · exact fun _ => rfl

/-- A process that was resumed at a stop lives on and stays attached. -/
theorem resumed_of_feasible (hfeasible : e.feasible w.monitor = true) (hstopped : e.status.isStopped = true)
    {sig : Signal} (hops : (reap e.pid e.status e.outcomes w.monitor).1 =
      [.report e.status, .cont sig e.outcomes.resume]) :
    ((reap e.pid e.status e.outcomes w.monitor).2.tracees e.pid).alive = true ∧
      ((reap e.pid e.status e.outcomes w.monitor).2.tracees e.pid).attached = true := by
  obtain ⟨halive, hattached, -⟩ := feasible_iff.mp hfeasible
  obtain ⟨hlives, hstays⟩ := resumed_keeps (w.monitor.tracees e.pid) e.status hstopped sig
    e.outcomes.resume
  rw [reap_tracees, hops, AppMonitor.issue_tracees_self, hlives, hstays]
  exact ⟨halive, hattached hstopped⟩

/-- The stubs only lose the parent of the event. -/
theorem parent_stubProcesses (hrole : w.monitor.role e.pid = .parent) {p : Pid}
    (hp : p ∈ (reap e.pid e.status e.outcomes w.monitor).2.stubProcesses) :
    p ∈ w.monitor.stubProcesses := by
  rw [(reap_parent e.pid e.status e.outcomes w.monitor hrole).2.1] at hp
  split_ifs at hp
  · exact Finset.mem_of_mem_erase hp
  · exact hp

/-- A stub that is kept was stopped and is resumed. -/
theorem parent_resumed (h : PoolInv w) (hfeasible : e.feasible w.monitor = true)
    (hrole : w.monitor.role e.pid = .parent)
    (hp : e.pid ∈ (reap e.pid e.status e.outcomes w.monitor).2.stubProcesses) :
    (((reap e.pid e.status e.outcomes w.monitor).2.tracees e.pid).alive = true ∧
      ((reap e.pid e.status e.outcomes w.monitor).2.tracees e.pid).attached = true) ∧ e.pid ≠ 1 := by
  have hne : e.pid ≠ 1 := by
    intro hinit
    have hstub := parent_stubProcesses hrole hp
    rw [hinit] at hstub
    exact h.exact.init.2 hstub
  have hstopped : e.status.isStopped = true := by
    by_contra hnot
    rw [(reap_parent e.pid e.status e.outcomes w.monitor hrole).2.1,
      if_pos ⟨hne, by simpa using hnot⟩] at hp
    exact Finset.notMem_erase e.pid w.monitor.stubProcesses hp
  obtain ⟨sig, hresume⟩ := resumeParent_of_stopped e.pid e.status e.outcomes hstopped
  have hops : (reap e.pid e.status e.outcomes w.monitor).1 =
      [.report e.status, .cont sig e.outcomes.resume] := by
    rw [reap_ops, hrole]
    simp only [parentOps, beq_eq_false_iff_ne.mpr hne, Bool.false_and, Bool.false_eq_true, if_false,
      hresume]
  exact ⟨resumed_of_feasible hfeasible hstopped hops, hne⟩

theorem poolInv_parent (h : PoolInv w) (hfeasible : e.feasible w.monitor = true)
    (hrole : w.monitor.role e.pid = .parent) :
    PoolInv ⟨(reap e.pid e.status e.outcomes w.monitor).2, executedAfter e w.executed⟩ := by
  obtain ⟨hprocess, -, habi, -⟩ := reap_parent e.pid e.status e.outcomes w.monitor hrole
  have hparent := role_eq_parent_iff.mp hrole
  refine h.of_frame e.pid (fun p hp => reap_tracees_of_ne hp) (fun p hp => mem_executedAfter_of_ne hp)
    ?_ (fun p _ hp => parent_stubProcesses hrole hp) ?_ (parent_resumed h hfeasible hrole) ?_ ?_
  · intro p _ hp
    rwa [hprocess] at hp
  · -- a parent is no candidate
    intro hp
    rw [hprocess] at hp
    rcases hparent with hinit | hstub
    · rw [hinit] at hp
      exact absurd hp h.exact.init.1
    · exact absurd hstub (h.exact.disjoint e.pid hp)
  · intro d hd
    rw [habi] at hd
    obtain ⟨hnot, hnot'⟩ := h.exact.daemon d hd
    rw [hprocess]
    exact ⟨hnot, fun hmem => hnot' (parent_stubProcesses hrole hmem)⟩
  · rw [habi]
    exact h.supported

theorem poolInv_daemon (h : PoolInv w) (hrole : w.monitor.role e.pid = .daemon) :
    PoolInv ⟨(reap e.pid e.status e.outcomes w.monitor).2, executedAfter e w.executed⟩ := by
  have hdaemon : w.monitor.abi.daemonPid = some e.pid := by
    simp only [AppMonitor.role] at hrole
    split_ifs at hrole with hparent hmatch
    exact hmatch.2
  obtain ⟨hnot, hnot'⟩ := h.exact.daemon e.pid hdaemon
  refine h.of_frame e.pid (fun p hp => reap_tracees_of_ne hp) (fun p hp => mem_executedAfter_of_ne hp)
    ?_ ?_ ?_ ?_ ?_ ?_
  all_goals simp only [reap_daemon e.pid e.status e.outcomes w.monitor hrole]
  · exact fun p _ hp => hp
  · exact fun p _ hp => hp
  · exact fun hp => absurd hp hnot
  · exact fun hp => absurd hp hnot'
  · intro d hd
    cases hd
  · intro hsome
    cases hsome

/-- The roles of a pid that is no parent and not the daemon. -/
theorem role_cases {m : AppMonitor} {pid : Pid} (hparent : m.role pid ≠ .parent)
    (hdaemon : m.role pid ≠ .daemon) :
    pid ≠ 1 ∧ pid ∉ m.stubProcesses ∧ ¬ (m.abi.supported = true ∧ m.abi.daemonPid = some pid) ∧
      (m.role pid = .candidate ↔ pid ∈ m.process) := by
  simp only [AppMonitor.role] at *
  split_ifs at * with hp hd hmem
  · exact absurd rfl hparent
  · exact absurd rfl hdaemon
  · rw [not_or] at hp
    exact ⟨hp.1, hp.2, hd, by simp [hmem]⟩
  · rw [not_or] at hp
    exact ⟨hp.1, hp.2, hd, by simp [hmem]⟩

/-- A candidate that is kept is resumed and has not executed anything, unless it was handed over. -/
theorem forked_of_kept (hrole : w.monitor.role e.pid = .candidate)
    (hkeeps : ¬ CompletesHandover w.monitor e)
    (hmem : e.pid ∈ (reap e.pid e.status e.outcomes w.monitor).2.process) :
    tracedAs e.status e.outcomes w.monitor = .forked := by
  rw [reap_candidate _ _ _ _ hrole, AppMonitor.issue_process, tracedMonitor_process,
    tracedAs_issue] at hmem
  split_ifs at hmem with hkept
  · rcases hkept with hforked | ⟨hzygote, hstop⟩
    · exact hforked
    · have hhands := tracedAs_eq_zygote_iff _ _ _ |>.mp hzygote
      refine absurd ⟨hrole, hhands, ?_⟩ hkeeps
      -- without a reply the status is still the exec stop
      cases hwait : e.outcomes.wait with
      | none =>
          rw [hwait, Option.getD_none, hhands.1] at hstop
          exact absurd hstop (by decide)
      | some reply =>
          rw [hwait, Option.getD_some, stoppedWith, decide_eq_true_iff] at hstop
          rw [hstop]
  · exact absurd hmem (Finset.notMem_erase _ _)

section Candidate

variable (hrole : w.monitor.role e.pid = .candidate)

include hrole

/-- The pool only loses the candidate of the event. -/
theorem candidate_process {p : Pid} (hp : p ∈ (reap e.pid e.status e.outcomes w.monitor).2.process) :
    p ∈ w.monitor.process := by
  rw [reap_candidate _ _ _ _ hrole, AppMonitor.issue_process, tracedMonitor_process] at hp
  split_ifs at hp
  · exact hp
  · exact Finset.mem_of_mem_erase hp

/-- A stub is new only if the candidate has just been taken for one; it has then left the pool. -/
theorem candidate_stubProcesses {p : Pid}
    (hp : p ∈ (reap e.pid e.status e.outcomes w.monitor).2.stubProcesses) :
    p ∈ w.monitor.stubProcesses ∨
      p = e.pid ∧ tracedAs e.status e.outcomes w.monitor = .stub ∧
        p ∉ (reap e.pid e.status e.outcomes w.monitor).2.process := by
  rw [reap_candidate _ _ _ _ hrole] at hp ⊢
  rw [AppMonitor.issue_stubProcesses, tracedMonitor_stubProcesses, tracedAs_issue] at hp
  split_ifs at hp with hstub
  · rcases Finset.mem_insert.mp hp with rfl | hold
    · refine .inr ⟨rfl, hstub, ?_⟩
      rw [AppMonitor.issue_process, tracedMonitor_process, tracedAs_issue, hstub]
      simp
    · exact .inl hold
  · exact .inl hp

/-- A candidate that is resumed lives on and stays attached. -/
theorem candidate_resumed (hfeasible : e.feasible w.monitor = true)
    (hkind : tracedAs e.status e.outcomes w.monitor = .stub ∨
      tracedAs e.status e.outcomes w.monitor = .forked) :
    ((reap e.pid e.status e.outcomes w.monitor).2.tracees e.pid).alive = true ∧
      ((reap e.pid e.status e.outcomes w.monitor).2.tracees e.pid).attached = true := by
  have hops : (reap e.pid e.status e.outcomes w.monitor).1 =
      [.report e.status, .cont 0 e.outcomes.resume] := by
    rw [reap_ops, hrole]
    simp only [tracedOps]
    rcases hkind with hkind | hkind <;> simp only [hkind]
  have hstopped : e.status.isStopped = true := by
    have hexpected : tracedAs e.status e.outcomes w.monitor ≠ .unexpected := by
      rcases hkind with hkind | hkind <;> rw [hkind] <;> decide
    rcases tracedAs_expected _ _ _ hexpected with ⟨hstatus, -⟩ | ⟨hstatus, -⟩ <;> rw [hstatus] <;> rfl
  exact resumed_of_feasible hfeasible hstopped hops

/-- The daemon that is recorded afterwards. -/
theorem candidate_daemonPid {d : Pid}
    (hd : (reap e.pid e.status e.outcomes w.monitor).2.abi.daemonPid = some d) :
    w.monitor.abi.daemonPid = some d ∨ e.outcomes.daemonFork = some d := by
  rw [reap_candidate _ _ _ _ hrole, AppMonitor.issue_abi] at hd
  rcases tracedMonitor_prepared e.pid e.status e.outcomes (w.monitor.issue e.pid [.report e.status])
    with ⟨habi, -⟩ | ⟨-, habi, -⟩
  · rw [habi] at hd
    exact .inl hd
  · rw [habi] at hd
    have hprepared := prepared_daemonPid hd
    exact hprepared

theorem candidate_supported (h : PoolInv w) :
    (reap e.pid e.status e.outcomes w.monitor).2.abi.daemonPid.isSome = true →
      (reap e.pid e.status e.outcomes w.monitor).2.abi.supported = true := by
  rw [reap_candidate _ _ _ _ hrole, AppMonitor.issue_abi]
  rcases tracedMonitor_prepared e.pid e.status e.outcomes (w.monitor.issue e.pid [.report e.status])
    with ⟨habi, -⟩ | ⟨-, habi, -⟩
  · rw [habi]
    exact h.supported
  · rw [habi]
    exact prepared_supported h.supported

theorem poolInv_candidate (h : PoolInv w) (hfeasible : e.feasible w.monitor = true)
    (hkeeps : ¬ CompletesHandover w.monitor e) :
    PoolInv ⟨(reap e.pid e.status e.outcomes w.monitor).2, executedAfter e w.executed⟩ := by
  have hparent : w.monitor.role e.pid ≠ .parent := by simp [hrole]
  have hdaemon : w.monitor.role e.pid ≠ .daemon := by simp [hrole]
  obtain ⟨hne, hnstub, -, hmem⟩ := role_cases hparent hdaemon
  have hcandidate := h.exact.candidates e.pid (hmem.mp hrole)
  refine h.of_frame e.pid (fun p hp => reap_tracees_of_ne hp) (fun p hp => mem_executedAfter_of_ne hp)
    (fun p _ hp => candidate_process hrole hp) ?_ ?_ ?_ ?_ (candidate_supported hrole h)
  · intro p hp hstub
    exact (candidate_stubProcesses hrole hstub).resolve_right fun hself => hp hself.1
  · intro hp
    have hforked := forked_of_kept hrole hkeeps hp
    obtain ⟨hlives, hstays⟩ := candidate_resumed hrole hfeasible (.inr hforked)
    have hstatus : e.status = .stopped sigTrap eventStop := by
      rcases tracedAs_expected _ _ _ (by rw [hforked]; decide) with ⟨-, hother⟩ | ⟨hstatus, -⟩
      · exact absurd hforked hother
      · exact hstatus
    refine ⟨⟨hlives, hstays, ?_⟩, ?_, hne⟩
    · exact not_mem_executedAfter (by rw [hstatus]; rfl) (by rw [hstatus]; decide) hcandidate.2.2
    · intro hstub
      rcases candidate_stubProcesses hrole hstub with hold | ⟨-, -, hleft⟩
      · exact hnstub hold
      · exact hleft hp
  · intro hp
    rcases candidate_stubProcesses hrole hp with hold | ⟨-, hkind, -⟩
    · exact absurd hold hnstub
    · exact ⟨candidate_resumed hrole hfeasible (.inl hkind), hne⟩
  · intro d hd
    have hnot : d ∉ w.monitor.process ∧ d ∉ w.monitor.stubProcesses := by
      rcases candidate_daemonPid hrole hd with hold | hforked
      · exact h.exact.daemon d hold
      · -- a new daemon has the pid of no living process
        have hdead := ((feasible_iff.mp hfeasible).2.2 d hforked).2
        refine ⟨fun hmem => ?_, fun hmem => ?_⟩
        · simp [(h.exact.candidates d hmem).1] at hdead
        · simp [(h.stubs d hmem).1] at hdead
    refine ⟨fun hp => hnot.1 (candidate_process hrole hp), fun hp => ?_⟩
    rcases candidate_stubProcesses hrole hp with hold | ⟨rfl, -, -⟩
    · exact hnot.2 hold
    · exact hnot.1 (hmem.mp hrole)

end Candidate

theorem poolInv_new (h : PoolInv w) (hfeasible : e.feasible w.monitor = true)
    (hrole : w.monitor.role e.pid = .new) (hkeeps : ¬ StrayStatus w e) :
    PoolInv ⟨(reap e.pid e.status e.outcomes w.monitor).2, executedAfter e w.executed⟩ := by
  have hparent : w.monitor.role e.pid ≠ .parent := by simp [hrole]
  have hdaemon : w.monitor.role e.pid ≠ .daemon := by simp [hrole]
  obtain ⟨hne, hnstub, hndaemon, -⟩ := role_cases hparent hdaemon
  simp only [StrayStatus, hrole, true_and, not_or, Bool.not_eq_false] at hkeeps
  obtain ⟨hstopped, hexec, hnot⟩ := hkeeps
  have hops : (reap e.pid e.status e.outcomes w.monitor).1 =
      [.report e.status, .cont 0 e.outcomes.resume] := by
    rw [reap_ops, hrole]
  have hresumed := resumed_of_feasible hfeasible hstopped hops
  refine h.of_frame e.pid (fun p hp => reap_tracees_of_ne hp) (fun p hp => mem_executedAfter_of_ne hp)
    ?_ ?_ ?_ ?_ ?_ ?_
  all_goals simp only [reap_new e.pid e.status e.outcomes w.monitor hrole, AppMonitor.issue_process,
    AppMonitor.issue_stubProcesses, AppMonitor.issue_abi] at hresumed ⊢
  · intro p hp hmem
    exact (Finset.mem_insert.mp hmem).resolve_left hp
  · exact fun p _ hp => hp
  · intro _
    exact ⟨⟨hresumed.1, hresumed.2, not_mem_executedAfter hstopped hexec hnot⟩, hnstub, hne⟩
  · exact fun hp => absurd hp hnstub
  · intro d hd
    obtain ⟨hnot, hnot'⟩ := h.exact.daemon d hd
    refine ⟨?_, hnot'⟩
    rw [Finset.mem_insert, not_or]
    refine ⟨?_, hnot⟩
    rintro rfl
    exact hndaemon ⟨h.supported (by rw [hd]; rfl), hd⟩
  · exact h.supported

/-- A process the monitor is not attached to has no role but perhaps the daemon's. -/
theorem poolInv_other (h : PoolInv w) (pid : Pid) (alive attached : Bool)
    (hfree : ¬ ((w.monitor.tracees pid).alive && (w.monitor.tracees pid).attached) = true) :
    PoolInv ⟨{ w.monitor with
      tracees := Function.update w.monitor.tracees pid (.fresh alive attached) },
      w.executed.erase pid⟩ := by
  rw [Bool.and_eq_true] at hfree
  refine h.of_frame pid ?_ (fun p _ hp => Finset.mem_of_mem_erase hp) (fun p _ hp => hp)
    (fun p _ hp => hp) ?_ ?_ h.exact.daemon h.supported
  · intro p hp
    exact Function.update_of_ne hp _ _
  · intro hp
    obtain ⟨halive, hattached, -⟩ := h.exact.candidates pid hp
    exact absurd ⟨halive, hattached⟩ hfree
  · intro hp
    exact absurd (h.stubs pid hp) hfree

theorem poolInv_step {w' : Pool} {label : PoolLabel} (h : PoolInv w) (hkeeps : KeepsPool w label)
    (hstep : poolStep w label = some w') : PoolInv w' := by
  cases label with
  | status e =>
      simp only [poolStep] at hstep
      split_ifs at hstep with hfeasible
      obtain rfl := Option.some.inj hstep
      cases hrole : w.monitor.role e.pid with
      | parent => exact poolInv_parent h hfeasible hrole
      | daemon => exact poolInv_daemon h hrole
      | candidate => exact poolInv_candidate hrole h hfeasible hkeeps.1
      | new => exact poolInv_new h hfeasible hrole hkeeps.2
  | other pid alive attached =>
      simp only [poolStep] at hstep
      split_ifs at hstep with hfree
      obtain rfl := Option.some.inj hstep
      exact poolInv_other h pid alive attached hfree

end Step

/-! ## Whole runs -/

/-- In every run from the start in which no handover completes and a pid in no role is reported only at a
stop before its exec, the pool is exact in every state. -/
theorem pool_exact {w₀ w : Pool} (h₀ : PoolInitial w₀) (h : GuardedReach poolStep KeepsPool w₀ w) :
    PoolExact w := by
  refine (h.invariant h₀.inv ?_).exact
  intro w label w' hinv hkeeps hstep
  exact poolInv_step hinv hkeeps hstep

instance (m : AppMonitor) (e : ChildEvent) : Decidable (CompletesHandover m e) :=
  inferInstanceAs (Decidable (_ ∧ _ ∧ _))

instance (w : Pool) (e : ChildEvent) : Decidable (StrayStatus w e) :=
  inferInstanceAs (Decidable (_ ∧ (_ ∨ _ ∨ _)))

instance (w : Pool) (label : PoolLabel) : Decidable (KeepsPool w label) :=
  match label with
  | .status _ => inferInstanceAs (Decidable (_ ∧ _))
  | .other _ _ _ => inferInstanceAs (Decidable True)

/-- The monitor right after it seized init. -/
def startedPool : Pool where
  monitor :=
    { tracingState := .tracing
      stopReason := ""
      abi := zygoteAbi "/data/adb/modules/zygisksu" true
      process := ∅
      stubProcesses := ∅
      tracees := fun _ => .fresh false false }
  executed := ∅

theorem poolInitial_startedPool : PoolInitial startedPool := ⟨rfl, rfl, rfl⟩

/-- A stub zygote is forked, found and promoted. -/
def stubStarts : List PoolLabel :=
  [.other 812 true true, .status ⟨812, .stopped sigTrap eventStop, smoothHandover⟩,
    .status ⟨812, .stopped sigTrap eventExec,
      { smoothHandover with program := "/system/bin/stub_zygote" }⟩]

theorem pool_exact_stub :
    ∃ w, replay poolStep startedPool stubStarts = some w ∧ PoolExact w ∧
      812 ∈ w.monitor.stubProcesses := by
  refine ⟨_, rfl, pool_exact poolInitial_startedPool (guardedReach_of_replay stubStarts rfl ?_),
    by decide⟩
  refine ⟨trivial, fun w₁ h₁ => ?_⟩
  obtain rfl := Option.some.inj h₁
  refine ⟨by decide, fun w₂ h₂ => ?_⟩
  obtain rfl := Option.some.inj h₂
  exact ⟨by decide, fun _ _ => trivial⟩

/-- A zygote is forked, found and handed over. -/
def zygoteStarts : List PoolLabel :=
  [.other 812 true true, .status ⟨812, .stopped sigTrap eventStop, smoothHandover⟩,
    .status ⟨812, .stopped sigTrap eventExec, { smoothHandover with daemonFork := some 700 }⟩]

/-- An injector that outlasted its bounded wait exits. -/
def injectorExits : List PoolLabel :=
  [.other 900 true false, .status ⟨900, .exited 0, smoothHandover⟩]

/-- The zygote that was handed to its injector stays in the pool, and so does the pid of an injector that
has exited. -/
theorem pool_keeps_zygote :
    (∃ w, replay poolStep startedPool zygoteStarts = some w ∧ 812 ∈ w.monitor.process ∧
      (w.monitor.tracees 812).injector = true ∧ ¬ PoolExact w) ∧
    ∃ w, replay poolStep startedPool injectorExits = some w ∧ 900 ∈ w.monitor.process ∧
      (w.monitor.tracees 900).alive = false ∧ ¬ PoolExact w := by
  constructor
  · refine ⟨_, rfl, by decide, by decide, ?_⟩
    intro h
    have hattached := (h.candidates 812 (by decide)).2.1
    revert hattached
    decide
  · refine ⟨_, rfl, by decide, by decide, ?_⟩
    intro h
    have halive := (h.candidates 900 (by decide)).1
    revert halive
    decide

end NeoZygisk.Monitor
