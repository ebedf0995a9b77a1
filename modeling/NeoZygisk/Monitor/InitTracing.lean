import NeoZygisk.Monitor.Answers
import NeoZygisk.Monitor.Commands

/-!
# Tracing init

Stopping is asynchronous: `request_stop` interrupts init, and init is detached at the stop that follows. In
between a start may revoke it. The tracing state is to say whether init is attached, and while stopping, that
the stop is still to come.

A start from the stopped state seizes init and goes to the tracing state whether that worked or not, where
the first seize, at the start of the monitor, is checked. The kernel forgets a pending interrupt when init
enters another stop, which a step may or may not do here. Runs without these two keep the states in
agreement (`init_agrees`), and no run leaves the exiting state.
-/

set_option autoImplicit false

namespace NeoZygisk.Monitor

open NeoZygisk.Lib.Transition

/-- The monitor, and whether a stop of init that it asked for is still to come. -/
structure InitWorld where
  monitor : AppMonitor
  interrupt : Bool

namespace InitWorld

/-- The monitor is attached to init. -/
def attached (w : InitWorld) : Bool := (w.monitor.tracees 1).attached

/-- `PTRACE_SEIZE` of init. -/
def seize (ok : Bool) (w : InitWorld) : InitWorld :=
  if ok then
    { w with monitor := { w.monitor with
      tracees := Function.update w.monitor.tracees 1 { w.monitor.tracees 1 with attached := true } } }
  else w

/-- The seize of a `request_start`. -/
def seizeIfStopped (ok : Bool) (w : InitWorld) : InitWorld :=
  if w.monitor.startSeizes then w.seize ok else w

/-- `request_start`, with the outcome of the seize. -/
def start (ok : Bool) (w : InitWorld) : InitWorld :=
  let w := w.seizeIfStopped ok
  { w with monitor := w.monitor.requestStart }

/-- `request_stop`. The interrupt needs an attached init. -/
def stop (reason : String) (w : InitWorld) : InitWorld where
  monitor := w.monitor.requestStop reason
  interrupt := if w.monitor.tracingState = .tracing then w.attached else w.interrupt

/-- `request_rearm`. It ends in the stopping state only through its own `request_stop`. -/
def rearm (o : RearmOutcomes) (ignoreDisable seizeOk : Bool) (w : InitWorld) : InitWorld :=
  let w := w.seizeIfStopped seizeOk
  let m := (w.monitor.requestRearm o ignoreDisable).2
  ⟨m, if m.tracingState = .stopping then w.attached else w.interrupt⟩

/-- A status of a child. Init is interrupted where the monitor gives up at an exec event; a stop of init is
the one that was asked for, or another one, which may take the interrupt with it. -/
def reap (e : ChildEvent) (swallow : Bool) (w : InitWorld) : InitWorld where
  monitor := (Monitor.reap e.pid e.status e.outcomes w.monitor).2
  interrupt :=
    if e.pid = 1 then
      if e.status = .stopped sigTrap eventStop then false else w.interrupt && !swallow
    else if w.monitor.tracingState = .tracing ∧
        (Monitor.reap e.pid e.status e.outcomes w.monitor).2.tracingState = .stopping then
      w.attached
    else w.interrupt

end InitWorld

inductive InitLabel where
  | start (seizeOk : Bool)
  | stop (reason : String)
  | exit
  | rearm (o : RearmOutcomes) (ignoreDisable seizeOk : Bool)
  | status (e : ChildEvent) (swallow : Bool)

/-- Init is reported at its stops, while it is attached, and its detach succeeds. -/
def initFeasible (w : InitWorld) (e : ChildEvent) : Bool :=
  e.pid != 1 ||
    (e.status.isStopped && w.attached &&
      (!stoppedWith e.status sigTrap eventStop || e.outcomes.resume))

def initStep (w : InitWorld) : InitLabel → Option InitWorld
  | .start seizeOk => some (w.start seizeOk)
  | .stop reason => some (w.stop reason)
  | .exit => some { w with monitor := w.monitor.requestExit }
  | .rearm o ignoreDisable seizeOk => some (w.rearm o ignoreDisable seizeOk)
  | .status e swallow => if initFeasible w e then some (w.reap e swallow) else none

/-- The tracing state agrees with the attachment to init. -/
structure InitAgrees (w : InitWorld) : Prop where
  tracing : w.monitor.tracingState = .tracing → w.attached = true
  stopping : w.monitor.tracingState = .stopping → w.attached = true ∧ w.interrupt = true
  stopped : w.monitor.tracingState = .stopped → w.attached = false

/-- The steps that keep them in agreement: a start from the stopped state seizes init, and no other stop of
init takes the interrupt of a stop request with it. -/
def KeepsInit (w : InitWorld) : InitLabel → Prop
  | .start seizeOk => w.monitor.tracingState = .stopped → seizeOk = true
  | .rearm _ _ seizeOk => w.monitor.tracingState = .stopped → seizeOk = true
  | .status e swallow =>
      e.pid = 1 → w.monitor.tracingState = .stopping → e.status ≠ .stopped sigTrap eventStop →
        swallow = false
  | _ => True

/-! ## One step -/

section Step

variable {w : InitWorld}

@[simp] theorem InitWorld.seizeIfStopped_tracingState (ok : Bool) :
    (w.seizeIfStopped ok).monitor.tracingState = w.monitor.tracingState := by
  simp only [seizeIfStopped, seize]
  split_ifs <;> rfl

theorem InitWorld.seizeIfStopped_attached (ok : Bool) :
    (w.seizeIfStopped ok).attached =
      if w.monitor.tracingState = .stopped then ok || w.attached else w.attached := by
  simp only [seizeIfStopped, AppMonitor.startSeizes, beq_iff_eq, seize]
  split_ifs with hstopped hok
  · simp [attached, hok]
  · simp [hok]
  · rfl

/-- A seize that works leaves init attached in every state but the exiting one. -/
theorem InitAgrees.seized (h : InitAgrees w) {ok : Bool}
    (hok : w.monitor.tracingState = .stopped → ok = true)
    (hexit : w.monitor.tracingState ≠ .exiting) : (w.seizeIfStopped ok).attached = true := by
  rw [InitWorld.seizeIfStopped_attached]
  cases hstate : w.monitor.tracingState with
  | tracing => simp [h.tracing hstate]
  | stopping => simp [(h.stopping hstate).1]
  | stopped => simp [hok hstate]
  | exiting => exact absurd hstate hexit

theorem initAgrees_of_exiting (h : w.monitor.tracingState = .exiting) : InitAgrees w := by
  refine ⟨?_, ?_, ?_⟩ <;> simp [h]

/-- A step that leaves the tracing state and the attachment alone keeps them in agreement if it does not take
the interrupt of a stop request away. -/
theorem InitAgrees.kept {w' : InitWorld} (h : InitAgrees w)
    (hstate : w'.monitor.tracingState = w.monitor.tracingState) (hattached : w'.attached = w.attached)
    (hinterrupt : w.monitor.tracingState = .stopping → w.interrupt = true → w'.interrupt = true) :
    InitAgrees w' := by
  constructor
  · intro htracing
    rw [hattached]
    exact h.tracing (hstate ▸ htracing)
  · intro hstopping
    rw [hstate] at hstopping
    obtain ⟨hatt, hint⟩ := h.stopping hstopping
    rw [hattached]
    exact ⟨hatt, hinterrupt hstopping hint⟩
  · intro hstopped
    rw [hattached]
    exact h.stopped (hstate ▸ hstopped)

theorem initAgrees_start (h : InitAgrees w) {ok : Bool}
    (hok : w.monitor.tracingState = .stopped → ok = true) : InitAgrees (w.start ok) := by
  have hstate : (w.start ok).monitor.tracingState =
      if w.monitor.tracingState = .exiting then .exiting else .tracing := by
    simp [InitWorld.start, AppMonitor.requestStart_tracingState]
  by_cases hexit : w.monitor.tracingState = .exiting
  · exact initAgrees_of_exiting (by rw [hstate, if_pos hexit])
  · rw [if_neg hexit] at hstate
    have hattached : (w.start ok).attached = true := by
      simpa [InitWorld.start, InitWorld.attached] using h.seized hok hexit
    refine ⟨fun _ => hattached, ?_, ?_⟩ <;> simp [hstate]

theorem initAgrees_stop (h : InitAgrees w) (reason : String) : InitAgrees (w.stop reason) := by
  have hattached : (w.stop reason).attached = w.attached := by
    simp [InitWorld.stop, InitWorld.attached]
  have hstate : (w.stop reason).monitor.tracingState =
      if w.monitor.tracingState = .tracing then .stopping else w.monitor.tracingState :=
    AppMonitor.requestStop_tracingState reason w.monitor
  by_cases htracing : w.monitor.tracingState = .tracing
  · rw [if_pos htracing] at hstate
    refine ⟨by simp [hstate], fun _ => ?_, by simp [hstate]⟩
    rw [hattached]
    refine ⟨h.tracing htracing, ?_⟩
    simp [InitWorld.stop, htracing, h.tracing htracing]
  · -- nothing is asked for
    rw [if_neg htracing] at hstate
    refine h.kept hstate hattached ?_
    intro _ hint
    rw [InitWorld.stop, if_neg htracing]
    exact hint

theorem initAgrees_rearm (h : InitAgrees w) (o : RearmOutcomes) (ignoreDisable : Bool) {ok : Bool}
    (hok : w.monitor.tracingState = .stopped → ok = true) :
    InitAgrees (w.rearm o ignoreDisable ok) := by
  have hstate := AppMonitor.requestRearm_tracingState o ignoreDisable (w.seizeIfStopped ok).monitor
  rw [InitWorld.seizeIfStopped_tracingState] at hstate
  by_cases hexit : w.monitor.tracingState = .exiting
  · rw [if_pos hexit] at hstate
    exact initAgrees_of_exiting hstate
  · rw [if_neg hexit] at hstate
    have hseized := h.seized hok hexit
    have hattached : (w.rearm o ignoreDisable ok).attached = true := by
      simpa [InitWorld.rearm, InitWorld.attached, AppMonitor.requestRearm_tracees] using hseized
    refine ⟨fun _ => hattached, fun hs => ⟨hattached, ?_⟩, fun hs => ?_⟩
    -- only a failed rearm ends in the stopping state
    · simp only [InitWorld.rearm] at hs ⊢
      rw [if_pos hs]
      exact hseized
    · simp only [InitWorld.rearm, hstate] at hs
      split_ifs at hs

section Status

variable {e : ChildEvent} (swallow : Bool)

theorem initFeasible_iff :
    initFeasible w e = true ↔
      (e.pid = 1 → e.status.isStopped = true ∧ w.attached = true ∧
        (e.status = .stopped sigTrap eventStop → e.outcomes.resume = true)) := by
  simp only [initFeasible, Bool.or_eq_true, bne_iff_ne, Bool.and_eq_true, Bool.not_eq_true',
    stoppedWith, decide_eq_false_iff_not, ← imp_iff_not_or, and_assoc]

/-- The stop that was asked for: init is detached. -/
theorem init_detached (hinit : e.pid = 1) (hstop : e.status = .stopped sigTrap eventStop)
    (hstopping : w.monitor.tracingState = .stopping) (hresume : e.outcomes.resume = true) :
    (w.reap e swallow).monitor.tracingState = .stopped ∧ (w.reap e swallow).attached = false := by
  have hrole : w.monitor.role e.pid = .parent := role_eq_parent_iff.mpr (.inl hinit)
  constructor
  · exact ((reap_parent e.pid e.status e.outcomes w.monitor hrole).2.2.2).trans
      (if_pos ⟨hinit, hstop, hstopping⟩)
  · have hops : (reap e.pid e.status e.outcomes w.monitor).1 = [.report e.status, .detach 0 true] := by
      rw [reap_ops, hrole]
      simp [parentOps, hinit, hstop, hstopping, stoppedWith, hresume]
    simp only [InitWorld.attached, InitWorld.reap, reap_tracees, hops, ← hinit,
      AppMonitor.issue_tracees_self]
    rw [hstop]
    rfl

/-- Any other stop of init leaves it attached, and the tracing state alone. -/
theorem init_resumed (hinit : e.pid = 1) (hstopped : e.status.isStopped = true)
    (hother : ¬ (e.status = .stopped sigTrap eventStop ∧ w.monitor.tracingState = .stopping)) :
    (w.reap e swallow).monitor.tracingState = w.monitor.tracingState ∧
      (w.reap e swallow).attached = w.attached := by
  have hrole : w.monitor.role e.pid = .parent := role_eq_parent_iff.mpr (.inl hinit)
  constructor
  · refine ((reap_parent e.pid e.status e.outcomes w.monitor hrole).2.2.2).trans (if_neg ?_)
    exact fun hall => hother hall.2
  · obtain ⟨sig, hresume⟩ := resumeParent_of_stopped e.pid e.status e.outcomes hstopped
    have hops : (reap e.pid e.status e.outcomes w.monitor).1 =
        [.report e.status, .cont sig e.outcomes.resume] := by
      rw [reap_ops, hrole]
      simp only [parentOps]
      rw [if_neg, hresume]
      simpa [hinit, stoppedWith] using hother
    simp only [InitWorld.attached, InitWorld.reap, reap_tracees, hops, ← hinit,
      AppMonitor.issue_tracees_self]
    exact (resumed_keeps (w.monitor.tracees e.pid) e.status hstopped sig e.outcomes.resume).2

theorem initAgrees_init (h : InitAgrees w) (hinit : e.pid = 1) (hfeasible : initFeasible w e = true)
    (hkeeps : w.monitor.tracingState = .stopping → e.status ≠ .stopped sigTrap eventStop →
      swallow = false) : InitAgrees (w.reap e swallow) := by
  obtain ⟨hstopped, -, hresume⟩ := initFeasible_iff.mp hfeasible hinit
  -- the stop that was asked for, or another one
  by_cases hasked : e.status = .stopped sigTrap eventStop ∧ w.monitor.tracingState = .stopping
  · obtain ⟨hstate, hattached⟩ := init_detached swallow hinit hasked.1 hasked.2 (hresume hasked.1)
    refine ⟨?_, ?_, fun _ => hattached⟩ <;> simp [hstate]
  · obtain ⟨hstate, hattached⟩ := init_resumed swallow hinit hstopped hasked
    refine h.kept hstate hattached ?_
    intro hs hint
    have hne : e.status ≠ .stopped sigTrap eventStop := fun heq => hasked ⟨heq, hs⟩
    simp [InitWorld.reap, hinit, hne, hint, hkeeps hs hne]

/-- A status of another process. -/
theorem initAgrees_other (h : InitAgrees w) (hother : e.pid ≠ 1) : InitAgrees (w.reap e swallow) := by
  have hattached : (w.reap e swallow).attached = w.attached := by
    simp only [InitWorld.attached, InitWorld.reap, reap_tracees]
    rw [AppMonitor.issue_tracees_of_ne _ _ (Ne.symm hother)]
  rcases reap_tracingState e.pid e.status e.outcomes w.monitor hother with hstate | ⟨htracing, hstate⟩
  · refine h.kept hstate hattached ?_
    intro hs hint
    simp [InitWorld.reap, hother, hs, hint]
  · -- the monitor gives up and interrupts init
    have hgives : (w.reap e swallow).monitor.tracingState = .stopping := hstate
    refine ⟨by simp [hgives], fun _ => ?_, by simp [hgives]⟩
    rw [hattached]
    refine ⟨h.tracing htracing, ?_⟩
    simp [InitWorld.reap, hother, htracing, hstate, h.tracing htracing]

end Status

theorem initAgrees_step {w' : InitWorld} {label : InitLabel} (h : InitAgrees w)
    (hkeeps : KeepsInit w label) (hstep : initStep w label = some w') : InitAgrees w' := by
  cases label with
  | start seizeOk =>
      obtain rfl := Option.some.inj hstep
      exact initAgrees_start h hkeeps
  | stop reason =>
      obtain rfl := Option.some.inj hstep
      exact initAgrees_stop h reason
  | exit =>
      obtain rfl := Option.some.inj hstep
      exact initAgrees_of_exiting rfl
  | rearm o ignoreDisable seizeOk =>
      obtain rfl := Option.some.inj hstep
      exact initAgrees_rearm h o ignoreDisable hkeeps
  | status e swallow =>
      simp only [initStep] at hstep
      split_ifs at hstep with hfeasible
      obtain rfl := Option.some.inj hstep
      by_cases hinit : e.pid = 1
      · exact initAgrees_init swallow h hinit hfeasible (hkeeps hinit)
      · exact initAgrees_other swallow h hinit

/-- The exiting state is never left, whatever a step meets. -/
theorem exiting_step {w' : InitWorld} {label : InitLabel}
    (h : w.monitor.tracingState = .exiting) (hstep : initStep w label = some w') :
    w'.monitor.tracingState = .exiting := by
  cases label with
  | start seizeOk =>
      obtain rfl := Option.some.inj hstep
      simp [InitWorld.start, AppMonitor.requestStart_tracingState, h]
  | stop reason =>
      obtain rfl := Option.some.inj hstep
      simp [InitWorld.stop, AppMonitor.requestStop_tracingState, h]
  | exit =>
      obtain rfl := Option.some.inj hstep
      rfl
  | rearm o ignoreDisable seizeOk =>
      obtain rfl := Option.some.inj hstep
      simp [InitWorld.rearm, AppMonitor.requestRearm_tracingState, h]
  | status e swallow =>
      simp only [initStep] at hstep
      split_ifs at hstep with hfeasible
      obtain rfl := Option.some.inj hstep
      by_cases hinit : e.pid = 1
      -- init is detached from the stopping state only
      · have hstopped := (initFeasible_iff.mp hfeasible hinit).1
        rw [(init_resumed swallow hinit hstopped (by simp [h])).1, h]
      · rcases reap_tracingState e.pid e.status e.outcomes w.monitor hinit with hstate | ⟨htracing, -⟩
        · exact hstate.trans h
        · simp [h] at htracing

end Step

/-! ## Whole runs -/

/-- From a state that agrees, and in a run in which every start from the stopped state seizes init and no
other stop of init takes a stop request's interrupt with it, the tracing state agrees with the attachment to
init. No run leaves the exiting state. -/
theorem init_agrees (w₀ : InitWorld) :
    (InitAgrees w₀ → ∀ w, GuardedReach initStep KeepsInit w₀ w → InitAgrees w) ∧
      (w₀.monitor.tracingState = .exiting → ∀ w, Reach initStep w₀ w →
        w.monitor.tracingState = .exiting) := by
  constructor
  · intro h₀ w h
    refine h.invariant h₀ ?_
    intro w label w' hagrees hkeeps hstep
    exact initAgrees_step hagrees hkeeps hstep
  · intro h₀ w h
    refine h.invariant (I := fun w => w.monitor.tracingState = .exiting) h₀ ?_
    intro w label w' hexit _ hstep
    exact exiting_step hexit hstep

/-- A stop, the stop of init that follows, and a start whose seize works or fails. -/
def stopAndStart (seizeOk : Bool) : List InitLabel :=
  [.stop "user requested", .status ⟨1, .stopped sigTrap eventStop, smoothHandover⟩ false,
    .start seizeOk]

theorem initAgrees_idleMonitor : InitAgrees ⟨idleMonitor, false⟩ := by
  refine ⟨fun _ => rfl, fun h => ?_, fun h => ?_⟩
  · cases h
  · cases h

theorem init_agrees_stopAndStart :
    ∃ w, replay initStep ⟨idleMonitor, false⟩ (stopAndStart true) = some w ∧
      w.monitor.tracingState = .tracing ∧ InitAgrees w := by
  refine ⟨_, rfl, by decide, (init_agrees _).1 initAgrees_idleMonitor _
    (guardedReach_of_replay (stopAndStart true) rfl ?_)⟩
  refine ⟨trivial, fun w₁ h₁ => ?_⟩
  obtain rfl := Option.some.inj h₁
  refine ⟨fun _ _ _ => rfl, fun w₂ h₂ => ⟨fun _ => rfl, fun _ _ => trivial⟩⟩

/-- Another tracer holds init when the start comes: the monitor believes that it traces init. -/
theorem init_traced_unattached :
    ∃ w, replay initStep ⟨idleMonitor, false⟩ (stopAndStart false) = some w ∧
      w.monitor.tracingState = .tracing ∧ w.attached = false ∧ ¬ InitAgrees w := by
  refine ⟨_, rfl, by decide, by decide, ?_⟩
  intro h
  have hattached := h.tracing (by decide)
  revert hattached
  decide

end NeoZygisk.Monitor
