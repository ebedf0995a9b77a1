import NeoZygisk.Monitor.Confirmations

/-!
# The late injection of `system_server`

A running `system_server` is attached to after its zygote was hooked, and this runs the modules'
specialization in it. A second time would enter their lifecycle again, and so would a first time in a
`system_server` that was forked by a hooked zygote. The code goes by whether it hooked a zygote in the same
rearm. That stands for the whole history only while no other bare zygote turns up: `served_once` is about
the runs where none does, and `served_twice` has a run where one does.
-/

set_option autoImplicit false

namespace NeoZygisk.Monitor

open NeoZygisk.Lib.Transition

/-- No injector was run on a `system_server` that had been specialized before. -/
def ServedOnce (s : Session) : Prop := ∀ run ∈ s.lateRuns, run.served = false

/-- While a specialized `system_server` lives, no rearm hooks a bare zygote. -/
def KeepsServer (s : Session) : SessionLabel → Prop
  | .handle o =>
      match s.queue with
      | .rearm _ :: _ =>
          ((s.rearmOutcomes o).daemon s.monitor.abi).1 = true →
            ∀ p, (s.rearmOutcomes o).server s.monitor.abi = some p → p.pid ∈ s.served →
              ¬ (s.rearmOutcomes o).SomeInjectorHooks s.monitor.abi
      | _ => True
  | _ => True

/-- `system_server` is attached to only after an injector hooked a bare zygote. -/
theorem mem_server_runs {o : RearmOutcomes} {abi : ZygoteAbi} {ignoreDisable : Bool} {pid : Pid}
    (h : ⟨pid, .systemServer⟩ ∈ (rearm o ignoreDisable abi).runs) :
    (o.daemon abi).1 = true ∧ o.SomeInjectorHooks abi ∧ ∃ p, o.server abi = some p ∧ p.pid = pid := by
  obtain ⟨-, hrearm⟩ | ⟨-, -, hrearm⟩ | ⟨hzs, hdaemon⟩ := rearm_cases ignoreDisable o abi
  · simp [hrearm] at h
  · simp [hrearm] at h
  refine ⟨hdaemon, ?_⟩
  rcases (mem_rearm_runs ignoreDisable hzs hdaemon).mp h with ⟨z, -, -, heq⟩ | ⟨harms, p, hp, heq⟩
  · cases heq
  · cases heq
    exact ⟨arms_iff.mp harms, p, hp, rfl⟩

section Served

variable {s : Session}

theorem ServedOnce.rearmed (h : ServedOnce s) (o : HandleOutcomes) (ignoreDisable : Bool)
    (hkeeps : ((s.rearmOutcomes o).daemon s.monitor.abi).1 = true →
      ∀ p, (s.rearmOutcomes o).server s.monitor.abi = some p → p.pid ∈ s.served →
        ¬ (s.rearmOutcomes o).SomeInjectorHooks s.monitor.abi) :
    ServedOnce (s.rearmed o ignoreDisable) := by
  intro run hrun
  simp only [Session.rearmed, List.mem_append, List.mem_map, List.mem_filter,
    AppMonitor.requestRearm_fst, decide_eq_true_iff] at hrun
  rcases hrun with hold | ⟨⟨pid, flag⟩, ⟨hmem, rfl⟩, rfl⟩
  · exact h run hold
  · obtain ⟨hdaemon, hhooks, p, hp, rfl⟩ := mem_server_runs hmem
    refine decide_eq_false ?_
    intro hserved
    exact hkeeps hdaemon p hp hserved hhooks

theorem servedOnce_step {s' : Session} {label : SessionLabel} (h : ServedOnce s)
    (hkeeps : KeepsServer s label) (hstep : sessionStep s label = some s') : ServedOnce s' := by
  cases sessionStep_move hstep with
  | sent d => exact h
  | kept label m queue hm => exact h
  | rearmed o ignoreDisable queue hqueue =>
      have hq : ServedOnce { s with queue } := h
      simp only [KeepsServer, hqueue] at hkeeps
      exact hq.rearmed o ignoreDisable hkeeps
  | confirmed o daemon pid queue hqueue => exact h
  | processes table => exact h
  | spawned pid => exact h

end Served

/-- In every run that starts before any late injection, and in which no rearm hooks a bare zygote while a
`system_server` lives that was injected late or forked by a hooked zygote, no injector is run on such a
`system_server`. -/
theorem served_once {s₀ s : Session} (h₀ : s₀.lateRuns = [])
    (h : GuardedReach sessionStep KeepsServer s₀ s) : ServedOnce s := by
  refine h.invariant ?_ ?_
  · simp [ServedOnce, h₀]
  · intro s label s' hinv hkeeps hstep
    exact servedOnce_step hinv hkeeps hstep

/-- Every injector hooks its target, and the first one starts the daemon. -/
def smoothOutcomes : HandleOutcomes :=
  ⟨some 700, fun _ => ⟨some fun _ => .done (.exited traceHooked), true⟩⟩

/-- A zygote with the given mappings, its `system_server`, and perhaps a second, bare zygote. -/
def runningSystem (maps : List String) : ProcessTable :=
  ⟨[zygote64 100 'S' maps, systemServer64 200 100], by simp [zygote64, systemServer64]⟩

def secondZygote : ProcessTable :=
  ⟨[zygote64 100 'S' [libraryPath], zygote64 101 'S' [], systemServer64 200 100], by decide⟩

theorem served_once_rearm :
    ∃ s, replay sessionStep (startedSession (runningSystem []))
        [.send (.rearm false), .handle smoothOutcomes] = some s ∧
      s.lateRuns = [⟨200, false⟩] ∧ ServedOnce s := by
  have hstart : (startedSession (runningSystem [])).lateRuns = [] := rfl
  refine ⟨_, rfl, by decide, served_once hstart (guardedReach_of_replay
    [.send (.rearm false), .handle smoothOutcomes] rfl ?_)⟩
  refine ⟨trivial, fun s₁ h₁ => ⟨?_, fun _ _ => trivial⟩⟩
  obtain rfl := Option.some.inj h₁
  intro _ p _ hserved
  exact absurd hserved (Finset.notMem_empty p.pid)

/-- A second, bare zygote turns up after `system_server` was injected late, or after it was forked by a
zygote that the injector had hooked at its exec. The next rearm injects `system_server` all the same. -/
theorem served_twice :
    (∃ s, replay sessionStep (startedSession (runningSystem []))
        [.send (.rearm false), .handle smoothOutcomes, .processes secondZygote, .send (.rearm false),
          .handle smoothOutcomes] = some s ∧
      s.lateRuns = [⟨200, false⟩, ⟨200, true⟩] ∧ ¬ ServedOnce s) ∧
    ∃ s, replay sessionStep (startedSession ⟨[zygote64 100 'S' [libraryPath]], by simp⟩)
        [.spawnHooks 100, .processes (runningSystem [libraryPath]), .processes secondZygote,
          .send (.rearm false), .handle smoothOutcomes] = some s ∧
      s.lateRuns = [⟨200, true⟩] ∧ ¬ ServedOnce s := by
  constructor
  · refine ⟨_, rfl, by decide, ?_⟩
    intro h
    exact absurd (h ⟨200, true⟩ (by decide)) (by decide)
  · refine ⟨_, rfl, by decide, ?_⟩
    intro h
    exact absurd (h ⟨200, true⟩ (by decide)) (by decide)

end NeoZygisk.Monitor
