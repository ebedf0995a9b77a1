import NeoZygisk.Lib.Transition
import NeoZygisk.Monitor.Children

/-!
# Every stop is answered

A process that stops under ptrace waits for the monitor. `Standing` follows one process through the
operations of an event: a stop has to be answered by one resuming request before anything else is heard
of the process, and nobody resumes a process that is gone. `stops_answered_iff` is about whole sequences
of statuses: the only ones that go wrong are exits of pids in no role, which `handleNewProcess` resumes
without looking at the status. `signals_passed_iff` is about the signals the answers pass on.
-/

set_option autoImplicit false

namespace NeoZygisk.Monitor

open NeoZygisk.Lib.Transition

/-! ## Answers -/

/-- Where a process stands between two operations. -/
inductive Standing where
  | free
  | stopped
  | gone
  deriving DecidableEq, Repr

/-- The operation is in order: it resumes a stopped process, or reports something new of a free one. -/
def Standing.next : Standing → Op → Option Standing
  | .free, .report (.stopped _ _) => some .stopped
  | .free, .report _ => some .gone
  | .stopped, .cont _ _ => some .free
  | .stopped, .detach _ _ => some .free
  -- a stopped process meets no other stop by itself
  | .stopped, .reach _ => some .stopped
  | s, .sendStop _ => some s
  | s, .sendCont _ => some s
  | s, .startInjector _ => some s
  | _, _ => none

/-- Every stop among the operations is answered by exactly one request, and no request is made for a
process that is gone. -/
def AnsweredOnce (ops : List Op) : Prop :=
  ops.foldlM Standing.next .free = some .free ∨ ops.foldlM Standing.next .free = some .gone

def RunState.isTraced : RunState → Bool
  | .traced _ _ => true
  | _ => false

/-- No process sits in a ptrace stop. -/
def NoneStopped (m : AppMonitor) : Prop := ∀ pid, (m.tracees pid).state.isTraced = false

/-- A status and what handling it meets. -/
structure ChildEvent where
  pid : Pid
  status : WaitStatus
  outcomes : Outcomes

/-- The step of a status. -/
def childStep (m : AppMonitor) (e : ChildEvent) : Option AppMonitor :=
  some (reap e.pid e.status e.outcomes m).2

/-- The stops of the event are answered, and no process is left in one. -/
def Answers (m : AppMonitor) (e : ChildEvent) : Prop :=
  AnsweredOnce (reap e.pid e.status e.outcomes m).1 ∧
    NoneStopped (reap e.pid e.status e.outcomes m).2

/-- The ptrace requests and the handover's wait succeed, and the daemon is not traced. -/
structure Granted (m : AppMonitor) (e : ChildEvent) : Prop where
  cont : e.outcomes.cont = true
  detachStopped : e.outcomes.detachStopped = true
  resume : e.outcomes.resume = true
  wait : e.outcomes.wait.isSome = true
  daemon : m.role e.pid = .daemon → e.status.isStopped = false

/-- The exit of a pid in no role. -/
def StrayExit (m : AppMonitor) (e : ChildEvent) : Prop :=
  m.role e.pid = .new ∧ e.status.isStopped = false

/-! ## Standing and state -/

/-- A request that resumes a process succeeds. -/
def Op.Granted : Op → Prop
  | .cont _ ok => ok = true
  | .detach _ ok => ok = true
  | _ => True

section OpGranted

variable (sig : Signal) (ok : Bool)

@[simp] theorem Op.granted_cont : (Op.cont sig ok).Granted ↔ ok = true := Iff.rfl

@[simp] theorem Op.granted_detach : (Op.detach sig ok).Granted ↔ ok = true := Iff.rfl

@[simp] theorem Op.granted_report (status : WaitStatus) : (Op.report status).Granted := trivial

@[simp] theorem Op.granted_sendStop : (Op.sendStop ok).Granted := trivial

@[simp] theorem Op.granted_sendCont : (Op.sendCont ok).Granted := trivial

@[simp] theorem Op.granted_startInjector : (Op.startInjector ok).Granted := trivial

@[simp] theorem Op.granted_reach (next : Option Signal) : (Op.reach next).Granted := trivial

end OpGranted

section Next

variable {s s' : Standing} {sig : Signal} {ok : Bool}

/-- Only a stopped process is resumed. -/
theorem Standing.next_cont : s.next (.cont sig ok) = some s' ↔ s = .stopped ∧ s' = .free := by
  cases s <;> simp [Standing.next, eq_comm]

theorem Standing.next_detach : s.next (.detach sig ok) = some s' ↔ s = .stopped ∧ s' = .free := by
  cases s <;> simp [Standing.next, eq_comm]

theorem Standing.next_reach {next : Option Signal} :
    s.next (.reach next) = some s' ↔ s = .stopped ∧ s' = .stopped := by
  cases s <;> simp [Standing.next, eq_comm]

theorem Standing.next_sendStop : s.next (.sendStop ok) = some s := by
  cases s <;> rfl

theorem Standing.next_sendCont : s.next (.sendCont ok) = some s := by
  cases s <;> rfl

theorem Standing.next_startInjector : s.next (.startInjector ok) = some s := by
  cases s <;> rfl

end Next

/-- The process is in a ptrace stop exactly where its standing says so. -/
def Standing.Fits (s : Standing) (t : Tracee) : Prop := t.state.isTraced = decide (s = .stopped)

theorem Standing.Fits.next {s s' : Standing} {t : Tracee} {op : Op} (h : s.Fits t) (hop : op.Granted)
    (hnext : s.next op = some s') : s'.Fits (op.apply t) := by
  simp only [Standing.Fits] at h ⊢
  cases op with
  | report status =>
      cases s with
      | free =>
          cases status with
          | stopped sig event =>
              obtain rfl := Option.some.inj hnext
              rfl
          | exited code =>
              obtain rfl := Option.some.inj hnext
              exact h
          | signaled sig =>
              obtain rfl := Option.some.inj hnext
              exact h
      | stopped => simp [Standing.next] at hnext
      | gone => simp [Standing.next] at hnext
  | cont sig ok =>
      obtain rfl : ok = true := hop
      obtain ⟨rfl, rfl⟩ := Standing.next_cont.mp hnext
      rfl
  | detach sig ok =>
      obtain rfl : ok = true := hop
      obtain ⟨rfl, rfl⟩ := Standing.next_detach.mp hnext
      simp only [Op.apply, if_true, Tracee.detach]
      split <;> rfl
  | reach next =>
      obtain ⟨rfl, rfl⟩ := Standing.next_reach.mp hnext
      -- only a running process reaches the stop of a pending signal
      have hstays : t.reach next = t := by
        cases next with
        | none => rfl
        | some sig =>
            refine if_neg ?_
            rintro ⟨-, hrunning, -⟩
            simp [hrunning, RunState.isTraced] at h
      rw [Op.apply, hstays]
      exact h
  | sendStop ok =>
      obtain rfl := Option.some.inj (Standing.next_sendStop.symm.trans hnext)
      cases ok <;> exact h
  | sendCont ok =>
      obtain rfl := Option.some.inj (Standing.next_sendCont.symm.trans hnext)
      cases ok with
      | false => exact h
      | true =>
          simp only [Op.apply, if_true, Tracee.sendCont]
          rw [← h]
          cases t.state <;> rfl
  | startInjector ok =>
      obtain rfl := Option.some.inj (Standing.next_startInjector.symm.trans hnext)
      cases ok <;> exact h

/-- The operations of a whole event. -/
theorem Standing.Fits.foldl {s s' : Standing} {t : Tracee} {ops : List Op} (h : s.Fits t)
    (hops : ∀ op ∈ ops, op.Granted) (hnext : ops.foldlM Standing.next s = some s') :
    s'.Fits (ops.foldl Op.apply t) := by
  induction ops generalizing s t with
  | nil =>
      obtain rfl := Option.some.inj hnext
      exact h
  | cons op ops ih =>
      rw [List.foldlM_cons] at hnext
      obtain ⟨s₁, hs₁, hrest⟩ := Option.bind_eq_some_iff.mp hnext
      exact ih (h.next (hops op List.mem_cons_self) hs₁)
        (fun op' hop' => hops op' (List.mem_cons_of_mem op hop')) hrest

/-! ## The answers of each handler -/

/-- A process whose status was just reported, and one that was dealt with. -/
def Standing.reported (status : WaitStatus) : Standing := if status.isStopped then .stopped else .gone

def Standing.settled (status : WaitStatus) : Standing := if status.isStopped then .free else .gone

theorem next_report (status : WaitStatus) :
    Standing.next .free (.report status) = some (.reported status) := by
  cases status <;> rfl

theorem dropOps_settles (status : WaitStatus) (o : Outcomes) :
    (dropOps status o).foldlM Standing.next (.reported status) = some (.settled status) := by
  cases status <;> rfl

/-- Both stops of a handover are answered: the exec stop and the one it waits for itself. -/
theorem handOverOps_settles (status reply : WaitStatus) (o : Outcomes) (hwait : o.wait = some reply) :
    (handOverOps status o ++
        if stoppedWith (o.wait.getD status) sigStop 0 then [] else
          dropOps (o.wait.getD status) o).foldlM Standing.next .stopped =
      some (.settled reply) := by
  simp only [handOverOps, hwait, Option.toList_some, Option.getD_some, List.map_cons, List.map_nil]
  cases reply with
  | exited code => rfl
  | signaled sig => rfl
  | stopped sig event =>
      by_cases hstop : stoppedWith (.stopped sig event) sigStop 0 = true
      · rw [if_pos hstop, if_pos hstop]
        rfl
      · rw [if_neg hstop, if_neg hstop]
        rfl

/-- A candidate is settled, whatever it is taken for. -/
theorem tracedOps_settles (status : WaitStatus) (o : Outcomes) (m : AppMonitor)
    (hwait : o.wait.isSome = true) :
    (tracedOps status o m).foldlM Standing.next (.reported status) = some .free ∨
      (tracedOps status o m).foldlM Standing.next (.reported status) = some .gone := by
  have hsettled : ∀ status, Standing.settled status = .free ∨ Standing.settled status = .gone := by
    intro status
    cases status with
    | exited code => exact .inr rfl
    | signaled sig => exact .inr rfl
    | stopped sig event => exact .inl rfl
  have hdrop : (dropOps status o).foldlM Standing.next (.reported status) = some .free ∨
      (dropOps status o).foldlM Standing.next (.reported status) = some .gone := by
    rw [dropOps_settles, Option.some_inj, Option.some_inj]
    exact hsettled status
  -- what is resumed was stopped
  have hexec : tracedAs status o m ≠ .unexpected → .reported status = Standing.stopped := by
    intro hne
    rcases tracedAs_expected _ _ _ hne with ⟨rfl, -⟩ | ⟨rfl, -⟩ <;> rfl
  simp only [tracedOps]
  split
  · rename_i htraced
    rw [hexec (by rw [htraced]; decide)]
    exact .inl rfl
  · rename_i htraced
    rw [hexec (by rw [htraced]; decide)]
    exact .inl rfl
  · rename_i htraced
    obtain ⟨reply, hreply⟩ := Option.isSome_iff_exists.mp hwait
    rw [hexec (by rw [htraced]; decide), handOverOps_settles status reply o hreply,
      Option.some_inj, Option.some_inj]
    exact hsettled reply
  · exact hdrop

/-- A parent is resumed exactly if it is stopped. -/
theorem parentOps_settles (pid : Pid) (status : WaitStatus) (o : Outcomes) (state : TracingState) :
    (parentOps pid status o state).foldlM Standing.next (.reported status) =
      some (.settled status) := by
  cases status with
  | exited code => simp [parentOps, stoppedWith, resumeParent, Standing.reported, Standing.settled,
      WaitStatus.isStopped]
  | signaled sig => simp [parentOps, stoppedWith, resumeParent, Standing.reported, Standing.settled,
      WaitStatus.isStopped]
  | stopped sig event =>
      simp only [parentOps, resumeParent]
      split_ifs <;> rfl

section Event

variable {m : AppMonitor} {e : ChildEvent}

theorem answeredOnce_iff (h : Granted m e) :
    AnsweredOnce (reap e.pid e.status e.outcomes m).1 ↔ ¬ StrayExit m e := by
  simp only [AnsweredOnce, reap_ops, List.foldlM_cons, next_report, Option.bind_eq_bind,
    Option.bind_some, StrayExit]
  cases hrole : m.role e.pid with
  | parent =>
      simp only [parentOps_settles, reduceCtorEq, false_and, not_false_eq_true, iff_true]
      cases e.status with
      | exited code => exact .inr rfl
      | signaled sig => exact .inr rfl
      | stopped sig event => exact .inl rfl
  | daemon =>
      simp only [reduceCtorEq, false_and, not_false_eq_true, iff_true]
      have hgone := h.daemon hrole
      right
      simp [Standing.reported, hgone]
  | candidate =>
      simp only [reduceCtorEq, false_and, not_false_eq_true, iff_true]
      exact tracedOps_settles e.status e.outcomes m h.wait
  | new =>
      simp only [true_and, Bool.not_eq_false]
      cases e.status with
      | exited code => simp [Standing.reported, Standing.next, WaitStatus.isStopped]
      | signaled sig => simp [Standing.reported, Standing.next, WaitStatus.isStopped]
      | stopped sig event =>
          simp only [WaitStatus.isStopped, iff_true]
          exact .inl rfl

/-- All requests of a granted event succeed. -/
theorem granted_ops (h : Granted m e) : ∀ op ∈ (reap e.pid e.status e.outcomes m).1, op.Granted := by
  obtain ⟨reply, hreply⟩ := Option.isSome_iff_exists.mp h.wait
  have hdrop : ∀ status, ∀ op ∈ dropOps status e.outcomes, op.Granted := by
    intro status
    simp only [dropOps]
    split <;> simp [h.resume]
  have hhand : ∀ op ∈ handOverOps e.status e.outcomes, op.Granted := by
    simp only [handOverOps, hreply]
    split <;> simp [h.cont, h.detachStopped]
  have hresume : ∀ op ∈ resumeParent e.pid e.status e.outcomes, op.Granted := by
    simp only [resumeParent]
    split
    · split_ifs <;> simp [h.resume]
    · simp
  rw [reap_ops, List.forall_mem_cons]
  refine ⟨trivial, ?_⟩
  cases m.role e.pid with
  | parent =>
      simp only [parentOps]
      split_ifs
      · simp [h.resume]
      · exact hresume
  | daemon => simp
  | candidate =>
      simp only [tracedOps]
      split
      · simp [h.resume]
      · simp [h.resume]
      · rw [List.forall_mem_append]
        refine ⟨hhand, ?_⟩
        split_ifs
        · simp
        · exact hdrop _
      · exact hdrop _
  | new => simp [h.resume]

/-- An answered event leaves no process in a stop. -/
theorem noneStopped_reap (hnone : NoneStopped m) (h : Granted m e)
    (hanswered : AnsweredOnce (reap e.pid e.status e.outcomes m).1) :
    NoneStopped (reap e.pid e.status e.outcomes m).2 := by
  intro pid
  rw [reap_tracees]
  by_cases hpid : pid = e.pid
  · subst hpid
    rw [AppMonitor.issue_tracees_self]
    have hfits : Standing.Fits .free (m.tracees e.pid) := hnone e.pid
    rcases hanswered with hfree | hgone
    · exact hfits.foldl (granted_ops h) hfree
    · exact hfits.foldl (granted_ops h) hgone
  · rw [AppMonitor.issue_tracees_of_ne _ _ hpid]
    exact hnone pid

theorem answers_iff (hnone : NoneStopped m) (h : Granted m e) : Answers m e ↔ ¬ StrayExit m e := by
  rw [← answeredOnce_iff h]
  constructor
  · exact fun hanswers => hanswers.1
  · exact fun hanswered => ⟨hanswered, noneStopped_reap hnone h hanswered⟩

end Event

/-! ## Sequences of statuses -/

/-- From a monitor with no process in a stop, and if its requests succeed, every stop of a sequence of
statuses is answered exactly once and no process is left in one, exactly if no status is the exit of a pid
in no role. -/
theorem stops_answered_iff (m : AppMonitor) (events : List ChildEvent) (hnone : NoneStopped m)
    (hgranted : ReplayOk childStep Granted m events) :
    ReplayOk childStep Answers m events ↔
      ReplayOk childStep (fun m e => ¬ StrayExit m e) m events := by
  refine replayOk_iff ?_ ?_ events hnone hgranted
  · intro m e hnone h
    exact answers_iff hnone h
  · intro m e t _ _ hanswers ht
    obtain rfl := Option.some.inj ht
    exact hanswers.2

/-- A monitor that traces init, has a daemon running and no candidates. -/
def idleMonitor : AppMonitor :=
  { bootMonitor with
    process := ∅
    tracees := fun _ => { Tracee.execStop ∅ with state := .running } }

theorem noneStopped_idleMonitor : NoneStopped idleMonitor := fun _ => rfl

/-- A child of init is found, and becomes a zygote that is handed over. -/
theorem stops_answered_zygote :
    ReplayOk childStep Answers idleMonitor
      [⟨813, .stopped sigTrap eventStop, smoothHandover⟩,
        ⟨813, .stopped sigTrap eventExec, smoothHandover⟩] := by
  refine (stops_answered_iff idleMonitor _ noneStopped_idleMonitor ?_).mpr ?_
  · refine ⟨⟨rfl, rfl, rfl, rfl, by decide⟩, fun t ht => ?_⟩
    obtain rfl := Option.some.inj ht
    exact ⟨⟨rfl, rfl, rfl, rfl, by decide⟩, fun _ _ => trivial⟩
  · simp [ReplayOk, StrayExit, WaitStatus.isStopped]

/-- An injector that outlasts its bounded wait is left to the handler of `SIGCHLD`, which resumes it after
its exit. -/
theorem exited_injector_resumed :
    NoneStopped idleMonitor ∧
      ReplayOk childStep Granted idleMonitor [⟨900, .exited 0, smoothHandover⟩] ∧
      ¬ ReplayOk childStep Answers idleMonitor [⟨900, .exited 0, smoothHandover⟩] := by
  refine ⟨noneStopped_idleMonitor, ⟨⟨rfl, rfl, rfl, rfl, by decide⟩, fun _ _ => trivial⟩, ?_⟩
  rintro ⟨⟨hanswered, -⟩, -⟩
  revert hanswered
  simp only [AnsweredOnce]
  decide

/-! ## Signals -/

/-- The signal the next resuming request passes on. -/
def answeredWith : List Op → Option Signal
  | [] => none
  | .cont sig _ :: _ => some sig
  | .detach sig _ :: _ => some sig
  | _ :: ops => answeredWith ops

/-- The signal whose delivery a status reports. -/
def WaitStatus.delivered : WaitStatus → Option Signal
  | .stopped sig 0 => some sig
  | _ => none

/-- The signals whose delivery was reported, each with the signal its answer passes on. -/
def deliveries : List Op → List (Signal × Option Signal)
  | [] => []
  | .report status :: ops =>
      (status.delivered.toList.map fun sig => (sig, answeredWith ops)) ++ deliveries ops
  | _ :: ops => deliveries ops

/-- The signals a parent is not to see: those that would stop it, and for a stub also `SIGCHLD`. -/
def Withheld (m : AppMonitor) (pid : Pid) (sig : Signal) : Prop :=
  (pid = 1 ∨ pid ∈ m.stubProcesses) ∧ sig ∈ [sigStop, sigTstp, sigTtin, sigTtou] ∨
    pid ≠ 1 ∧ pid ∈ m.stubProcesses ∧ sig = sigChld

/-- Every delivered signal is passed on or is one the process is not to see. -/
def SignalsPassed (m : AppMonitor) (e : ChildEvent) : Prop :=
  ∀ d ∈ deliveries (reap e.pid e.status e.outcomes m).1, d.2 = some d.1 ∨ Withheld m e.pid d.1

/-- The events without a delivered signal for a process that is no parent: neither the status nor, for a
handover, the status it waits for itself, which may be the monitor's own `SIGSTOP`. No signal is zero. -/
def NoStraySignal (m : AppMonitor) (e : ChildEvent) : Prop :=
  m.role e.pid = .parent ∨
    (∀ sig, e.status.delivered = some sig → sig = 0) ∧
      (m.role e.pid = .candidate → HandsOver e.status e.outcomes m →
        ∀ sig, e.outcomes.wait.bind WaitStatus.delivered = some sig → sig = sigStop ∨ sig = 0)

section Signals

variable {m : AppMonitor} {e : ChildEvent}

theorem role_eq_parent_iff {pid : Pid} :
    m.role pid = .parent ↔ pid = 1 ∨ pid ∈ m.stubProcesses := by
  simp only [AppMonitor.role]
  split_ifs with hparent <;> simp [hparent]

theorem not_withheld {pid : Pid} (h : m.role pid ≠ .parent) (sig : Signal) : ¬ Withheld m pid sig := by
  rw [Ne, role_eq_parent_iff] at h
  rintro (⟨hparent, -⟩ | ⟨-, hstub, -⟩)
  · exact h hparent
  · exact h (.inr hstub)

/-- The signals that are not passed on to a parent are those it is not to see. -/
theorem withheld_iff {pid : Pid} (h : m.role pid = .parent) {sig : Signal} :
    Withheld m pid sig ↔ suppresses pid sig = true := by
  rw [role_eq_parent_iff] at h
  simp only [Withheld, h, true_and, suppresses, List.mem_cons, List.not_mem_nil, or_false]
  by_cases hinit : pid = 1
  · simp [hinit, or_assoc]
  · have hstub : pid ∈ m.stubProcesses := h.resolve_left hinit
    simp [hinit, hstub, Decidable.or_iff_not_imp_left]

theorem deliveries_parent (pid : Pid) (status : WaitStatus) (o : Outcomes) (state : TracingState) :
    deliveries (.report status :: parentOps pid status o state) =
      status.delivered.toList.map fun sig => (sig, some (if suppresses pid sig then 0 else sig)) := by
  cases status with
  | exited code => simp [deliveries, WaitStatus.delivered, parentOps, stoppedWith, resumeParent]
  | signaled sig => simp [deliveries, WaitStatus.delivered, parentOps, stoppedWith, resumeParent]
  | stopped sig event =>
      cases event with
      | zero =>
          -- init is detached at a stop of ptrace's own, not at a signal
          simp only [parentOps, stoppedWith, eventStop, WaitStatus.stopped.injEq, resumeParent]
          cases hkept : suppresses pid sig <;>
            simp [deliveries, WaitStatus.delivered, answeredWith, hkept]
      | succ n =>
          simp only [parentOps, resumeParent]
          split_ifs <;> simp [deliveries, WaitStatus.delivered]

theorem deliveries_dropOps (status : WaitStatus) (o : Outcomes) :
    deliveries (.report status :: dropOps status o) =
      status.delivered.toList.map fun sig => (sig, some 0) := by
  cases status with
  | exited code => rfl
  | signaled sig => rfl
  | stopped sig event =>
      cases event with
      | zero => rfl
      | succ n => rfl

/-- What a handover passes on: its own `SIGSTOP`, and nothing of another signal. -/
theorem deliveries_handOverOps (status : WaitStatus) (o : Outcomes) :
    deliveries (handOverOps status o ++
        if stoppedWith (o.wait.getD status) sigStop 0 then [] else dropOps (o.wait.getD status) o) =
      (o.wait.bind WaitStatus.delivered).toList.map fun sig =>
        (sig, some (if sig = sigStop then sigStop else 0)) := by
  simp only [handOverOps]
  cases o.wait with
  | none =>
      -- nothing is reported
      simp only [Option.getD_none, dropOps]
      split_ifs <;> rfl
  | some reply =>
      simp only [Option.getD_some, Option.bind_some]
      cases reply with
      | exited code => rfl
      | signaled sig => rfl
      | stopped sig event =>
          by_cases hstop : stoppedWith (.stopped sig event) sigStop 0 = true
          · obtain ⟨rfl, rfl⟩ : sig = sigStop ∧ event = 0 := by simpa [stoppedWith] using hstop
            rfl
          · rw [if_neg hstop, if_neg hstop]
            cases event with
            | zero =>
                have hother : sig ≠ sigStop := by simpa [stoppedWith] using hstop
                simp [deliveries, WaitStatus.delivered, dropOps, WaitStatus.isStopped, answeredWith,
                  hother]
            | succ n => rfl

theorem deliveries_traced (status : WaitStatus) (o : Outcomes) (m : AppMonitor) :
    deliveries (.report status :: tracedOps status o m) =
      (status.delivered.toList.map fun sig => (sig, some 0)) ++
        if tracedAs status o m = .zygote then
          (o.wait.bind WaitStatus.delivered).toList.map fun sig =>
            (sig, some (if sig = sigStop then sigStop else 0))
        else [] := by
  -- a process that is resumed was not stopped by a signal
  have hexec : tracedAs status o m ≠ .unexpected → status.delivered = none := by
    intro hne
    rcases tracedAs_expected _ _ _ hne with ⟨rfl, -⟩ | ⟨rfl, -⟩ <;> rfl
  simp only [tracedOps]
  split
  · rename_i htraced
    simp [htraced, hexec (by rw [htraced]; decide), deliveries]
  · rename_i htraced
    simp [htraced, hexec (by rw [htraced]; decide), deliveries]
  · rename_i htraced
    rw [if_pos htraced, ← deliveries_handOverOps status o]
    simp [deliveries, hexec (by rw [htraced]; decide)]
  · rename_i htraced
    rw [if_neg htraced, deliveries_dropOps, List.append_nil]

end Signals

/-- The signals delivered to init, a stub, a candidate or a new process are all passed on, but for those a
parent is not to see, exactly if the process is a parent, or no signal but the monitor's own `SIGSTOP` was
delivered. -/
theorem signals_passed_iff (m : AppMonitor) (e : ChildEvent) (hrole : m.role e.pid ≠ .daemon) :
    SignalsPassed m e ↔ NoStraySignal m e := by
  simp only [SignalsPassed, NoStraySignal, reap_ops]
  by_cases hparent : m.role e.pid = .parent
  · simp only [hparent, true_or, iff_true, deliveries_parent, List.forall_mem_map, Option.mem_toList,
      withheld_iff hparent]
    intro sig _
    cases suppresses e.pid sig with
    | true => exact .inr rfl
    | false => exact .inl rfl
  · simp only [not_withheld hparent, or_false]
    cases hother : m.role e.pid with
    | parent => exact absurd hother hparent
    | daemon => exact absurd hother hrole
    | candidate =>
        simp only [deliveries_traced, List.forall_mem_append, List.forall_mem_map, Option.mem_toList,
          Option.some_inj, reduceCtorEq, false_or, true_imp_iff, ← tracedAs_eq_zygote_iff]
        refine and_congr ?_ ?_
        · exact forall_congr' fun sig => imp_congr_right fun _ => eq_comm
        · split_ifs with hzygote
          · simp only [hzygote, true_imp_iff, List.forall_mem_map, Option.mem_toList, Option.some_inj]
            refine forall_congr' fun sig => imp_congr_right fun _ => ?_
            by_cases hstop : sig = sigStop
            · simp [hstop]
            · simp [hstop, eq_comm]
          · simp [hzygote]
    | new =>
        have hnew : deliveries (.report e.status :: [.cont 0 e.outcomes.resume]) =
            e.status.delivered.toList.map fun sig => (sig, some 0) := by
          simp [deliveries, answeredWith]
        simp only [hnew, List.forall_mem_map, Option.mem_toList, Option.some_inj, reduceCtorEq,
          false_or, false_imp_iff, and_true]
        exact forall_congr' fun sig => imp_congr_right fun _ => eq_comm

/-- `SIGTERM` is passed on to init. -/
theorem signals_passed_to_init : SignalsPassed idleMonitor ⟨1, .stopped 15 0, smoothHandover⟩ :=
  (signals_passed_iff idleMonitor ⟨1, .stopped 15 0, smoothHandover⟩ (by decide)).mpr
    (.inl (by decide))

/-- A candidate that meets `SIGTERM` before its exec is detached without it, and a new process that does is
resumed without it. -/
theorem signal_lost_before_exec :
    ¬ SignalsPassed { idleMonitor with process := { 812 } } ⟨812, .stopped 15 0, smoothHandover⟩ ∧
      ¬ SignalsPassed idleMonitor ⟨812, .stopped 15 0, smoothHandover⟩ := by
  constructor
  · intro h
    have hlost := h (15, some 0) (by decide)
    revert hlost
    simp only [Withheld]
    decide
  · intro h
    have hlost := h (15, some 0) (by decide)
    revert hlost
    simp only [Withheld]
    decide

end NeoZygisk.Monitor
