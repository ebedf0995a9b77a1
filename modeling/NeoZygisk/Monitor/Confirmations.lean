import NeoZygisk.Monitor.Verdict
import NeoZygisk.Monitor.Candidates
import NeoZygisk.Monitor.Session

/-!
# Confirmations

`hooked_` is to hold what the current daemon confirmed, and the zygote's status is to follow it. A
confirmation names a process but not the daemon it comes from, and the set is cleared when a daemon is
started while messages of the last one may still be queued: `confirmed_by_current` is about the runs without
such a message. The status is written by any confirmation, by a rearm that looks at tracers rather than at
confirmations, and by the start of a daemon; `status_tracks` says in which runs it is right.
-/

set_option autoImplicit false

namespace NeoZygisk.Monitor

open NeoZygisk.Lib.Transition

/-! ## What a rearm confirms -/

section Rearm

variable {o : RearmOutcomes} {abi : ZygoteAbi} {ignoreDisable : Bool}

theorem daemonPid_of_mem_confirmed {pid : Pid} (h : pid ∈ o.confirmed abi) :
    abi.daemonPid.isSome = true := by
  simp only [RearmOutcomes.confirmed, pruneHooked, Finset.mem_filter, RearmOutcomes.daemon,
    ensureDaemonCreated] at h
  obtain ⟨hold, -⟩ := h
  split at hold
  · rename_i daemon hsome
    simpa using congrArg Option.isSome hsome
  · split at hold <;> simp at hold

/-- A confirmation after a rearm is one from before, whose daemon is still there, or comes from an injector
that hooked its target. -/
theorem mem_hooked_rearm {pid : Pid} (h : pid ∈ (rearm o ignoreDisable abi).abi.hooked) :
    pid ∈ abi.hooked ∧
        (abi.daemonPid.isNone && (rearm o ignoreDisable abi).abi.daemonPid.isSome) = false ∨
      ∃ flag, ⟨pid, flag⟩ ∈ (rearm o ignoreDisable abi).runs ∧ (o.attach pid).hooks = true := by
  obtain ⟨-, hrearm⟩ | ⟨-, -, hrearm⟩ | ⟨hzs, hdaemon⟩ := rearm_cases ignoreDisable o abi
  · rw [hrearm] at h ⊢
    exact .inl ⟨h, by cases abi.daemonPid <;> rfl⟩
  · -- without a daemon nothing is run
    rw [hrearm] at h ⊢
    left
    simp only [RearmOutcomes.daemon, ensureDaemonCreated] at h ⊢
    split at h
    · rename_i daemon hsome
      simp only [hsome]
      exact ⟨h, rfl⟩
    · split at h <;> simp at h
  · rcases (mem_rearm_hooked ignoreDisable hzs hdaemon).mp h with
      hold | ⟨z, hz, harmed, rfl⟩ | ⟨harms, p, hp, hhooks, rfl⟩
    · left
      refine ⟨mem_hooked_of_mem_confirmed hold, ?_⟩
      obtain ⟨daemon, hsome⟩ := Option.isSome_iff_exists.mp (daemonPid_of_mem_confirmed hold)
      rw [hsome]
      rfl
    · obtain ⟨hbare, hhooks⟩ := found_eq_armed_iff.mp harmed
      exact .inr ⟨.standalone, (mem_rearm_runs ignoreDisable hzs hdaemon).mpr
        (.inl ⟨z, hz, found_ran_iff.mpr hbare, rfl⟩), hhooks⟩
    · exact .inr ⟨.systemServer, (mem_rearm_runs ignoreDisable hzs hdaemon).mpr
        (.inr ⟨harms, p, hp, rfl⟩), hhooks⟩

end Rearm

/-! ## Confirmed by the current daemon -/

/-- Every process in `hooked_` was confirmed by the last daemon that was started. -/
def ConfirmedByCurrent (s : Session) : Prop :=
  ∀ pid ∈ s.monitor.abi.hooked, (pid, s.daemons) ∈ s.confirmed

/-- The confirmations that are handled come from that daemon. -/
def KeepsConfirmations (s : Session) : SessionLabel → Prop
  | .handle _ =>
      match s.queue with
      | .zygoteInjected daemon pid :: _ => 0 < pid → daemon = s.daemons
      | _ => True
  | _ => True

section Current

variable {s : Session}

/-- A step that confirms nothing. -/
theorem ConfirmedByCurrent.advance {m : AppMonitor} (h : ConfirmedByCurrent s)
    (hkeeps : Keeps s.monitor.abi m.abi) : ConfirmedByCurrent (s.advance m) := by
  intro pid hpid
  rcases hkeeps.kept with ⟨hhooked, -, hdaemon⟩ | ⟨-, hhooked, -⟩
  · rw [Session.advance_daemons hdaemon]
    refine h pid ?_
    rw [← hhooked]
    exact hpid
  · have hempty : (s.advance m).monitor.abi.hooked = ∅ := hhooked
    simp [hempty] at hpid

theorem ConfirmedByCurrent.rearmed (h : ConfirmedByCurrent s) (o : HandleOutcomes)
    (ignoreDisable : Bool) : ConfirmedByCurrent (s.rearmed o ignoreDisable) := by
  intro pid hpid
  have hmem : pid ∈ (rearm (s.rearmOutcomes o) ignoreDisable s.monitor.abi).abi.hooked := by
    rw [← AppMonitor.requestRearm_abi]
    exact hpid
  simp only [Session.rearmed, Finset.mem_union, List.mem_toFinset, List.mem_map, List.mem_append]
  rcases mem_hooked_rearm hmem with ⟨hold, hstarted⟩ | ⟨flag, hrun, hhooks⟩
  · -- the daemon is the one from before
    have hsame : (s.advance (s.monitor.requestRearm (s.rearmOutcomes o) ignoreDisable).2).daemons =
        s.daemons := by
      simp [Session.advance, AppMonitor.requestRearm_abi, hstarted]
    rw [hsame]
    exact .inl (h pid hold)
  · right
    refine ⟨pid, ?_, rfl⟩
    have hhooking : pid ∈ Session.hookingRuns o
        (s.monitor.requestRearm (s.rearmOutcomes o) ignoreDisable).1 flag := by
      rw [AppMonitor.requestRearm_fst]
      refine List.mem_map.mpr ⟨⟨pid, flag⟩, List.mem_filter.mpr ⟨hrun, ?_⟩, rfl⟩
      have hhooks' : (o.attach pid).hooks = true := hhooks
      simpa using hhooks'
    cases flag with
    | standalone => exact .inl hhooking
    | systemServer => exact .inr hhooking

theorem ConfirmedByCurrent.confirmed (h : ConfirmedByCurrent s) (o : HandleOutcomes) {daemon : Nat}
    {injected : Int} (hcurrent : 0 < injected → daemon = s.daemons) :
    ConfirmedByCurrent (s.dispatch o (.zygoteInjected daemon injected)) := by
  intro pid hpid
  have hsame : (s.advance { s.monitor with abi := s.monitor.abi.notifyInjected injected }).daemons =
      s.daemons := Session.advance_daemons (.inl rfl)
  simp only [Session.dispatch, hsame]
  rcases ZygoteAbi.mem_hooked_notifyInjected.mp hpid with hold | ⟨hpos, hself⟩
  · split_ifs
    · exact Finset.mem_insert_of_mem (h pid hold)
    · exact h pid hold
  · rw [if_pos hpos, ← hcurrent hpos, hself]
    exact Finset.mem_insert_self _ _

theorem confirmedByCurrent_step {s' : Session} {label : SessionLabel} (h : ConfirmedByCurrent s)
    (hkeeps : KeepsConfirmations s label) (hstep : sessionStep s label = some s') :
    ConfirmedByCurrent s' := by
  cases sessionStep_move hstep with
  | sent d => exact h
  | kept label m queue hm =>
      have hq : ConfirmedByCurrent { s with queue } := h
      exact hq.advance hm
  | rearmed o ignoreDisable queue hqueue =>
      have hq : ConfirmedByCurrent { s with queue } := h
      exact hq.rearmed o ignoreDisable
  | confirmed o daemon pid queue hqueue =>
      have hq : ConfirmedByCurrent { s with queue } := h
      simp only [KeepsConfirmations, hqueue] at hkeeps
      exact hq.confirmed o hkeeps
  | processes table => exact h
  | spawned pid => exact h

end Current

/-- In every run that starts without confirmations and in which only confirmations of the last daemon are
handled, every process in `hooked_` was confirmed by that daemon. -/
theorem confirmed_by_current {s₀ s : Session} (h₀ : s₀.monitor.abi.hooked = ∅)
    (h : GuardedReach sessionStep KeepsConfirmations s₀ s) : ConfirmedByCurrent s := by
  refine h.invariant ?_ ?_
  · intro pid hpid
    simp [h₀] at hpid
  · intro s label s' hinv hkeeps hstep
    exact confirmedByCurrent_step hinv hkeeps hstep

/-- The monitor right after its start, with the given processes. -/
def startedSession (table : ProcessTable) : Session :=
  ⟨startedPool.monitor, table, [], 0, ∅, ∅, ∅, ∅, []⟩

theorem startedSession_hooked (table : ProcessTable) :
    (startedSession table).monitor.abi.hooked = ∅ := rfl

/-- Handling meets no zygote and no fork. -/
def quietOutcomes : HandleOutcomes := ⟨none, fun _ => ⟨none, false⟩⟩

/-- A zygote is caught at its exec, its daemon is started and confirms it. -/
def zygoteConfirmed : List SessionLabel :=
  [.status 812 (.stopped sigTrap eventStop) smoothHandover,
    .status 812 (.stopped sigTrap eventExec) { smoothHandover with daemonFork := some 700 },
    .send (.zygoteInjected 1 812), .handle quietOutcomes]

theorem confirmed_by_current_zygote :
    ∃ s, replay sessionStep (startedSession ⟨[], List.nodup_nil⟩) zygoteConfirmed = some s ∧
      812 ∈ s.monitor.abi.hooked ∧ ConfirmedByCurrent s := by
  refine ⟨_, rfl, by decide, confirmed_by_current (startedSession_hooked ⟨[], List.nodup_nil⟩)
    (guardedReach_of_replay zygoteConfirmed rfl ?_)⟩
  refine ⟨trivial, fun s₁ h₁ => ⟨trivial, fun s₂ h₂ => ⟨trivial, fun s₃ h₃ => ⟨?_, fun _ _ => trivial⟩⟩⟩⟩
  obtain rfl := Option.some.inj h₁
  obtain rfl := Option.some.inj h₂
  obtain rfl := Option.some.inj h₃
  intro _
  decide

/-- The daemon is killed with its confirmation still queued, and the next zygote starts another one before
the socket is read. -/
def daemonReplaced : List SessionLabel :=
  [.status 812 (.stopped sigTrap eventStop) smoothHandover,
    .status 812 (.stopped sigTrap eventExec) { smoothHandover with daemonFork := some 700 },
    .send (.zygoteInjected 1 812), .status 700 (.signaled 9) smoothHandover,
    .status 900 (.stopped sigTrap eventStop) smoothHandover,
    .status 900 (.stopped sigTrap eventExec)
      { smoothHandover with daemonFork := some 701, now := 120 },
    .handle quietOutcomes]

/-- The confirmation of the dead daemon ends up in `hooked_`. -/
theorem stale_confirmation_kept :
    ∃ s, replay sessionStep (startedSession ⟨[], List.nodup_nil⟩) daemonReplaced = some s ∧
      s.monitor.abi.daemonPid = some 701 ∧ 812 ∈ s.monitor.abi.hooked ∧ ¬ ConfirmedByCurrent s := by
  refine ⟨_, rfl, by decide, by decide, ?_⟩
  intro h
  have hconfirmed := h 812 (by decide)
  revert hconfirmed
  decide

/-! ## The zygote's status -/

/-- The zygotes of the session. -/
def Session.zygotes (s : Session) : List Process := s.table.zygotes s.monitor.abi.programPath

/-- The status follows the confirmations: it says injected where every zygote is confirmed, and does not
where a zygote that is to be restarted is not. -/
structure StatusTracks (s : Session) : Prop where
  injected : s.zygotes ≠ [] → (∀ z ∈ s.zygotes, z.pid ∈ s.monitor.abi.hooked) →
    s.monitor.abi.zygote = .injected
  restart : ∀ pid ∈ s.judged, pid ∉ s.monitor.abi.hooked → s.monitor.abi.zygote ≠ .injected

/-- The rearms after which the status is right: it is wrong if every zygote is confirmed, and all have an
injection in flight or the injector of a bare one fails. -/
structure SettlesStatus (o : RearmOutcomes) (abi : ZygoteAbi) : Prop where
  inFlight : ¬ ((o.zygotes abi ≠ []) ∧
    ∀ z ∈ o.zygotes abi, injectionInFlight z = true ∧ abi.vouches z = true)
  failed : (∀ z ∈ o.zygotes abi, abi.vouches z = true ∨
      z.bare = true ∧ (o.attach z.pid).hooks = true) →
    ∀ z ∈ o.zygotes abi, z.bare = true → abi.vouches z = true → (o.attach z.pid).hooks = true

/-- The steps that keep the status right. A confirmation is the one of the last zygote that is to be
restarted, a rearm settles the status, and processes do not come and go so that only confirmed zygotes are
left while the status says something else. -/
def KeepsStatus (s : Session) : SessionLabel → Prop
  | .handle o =>
      match s.queue with
      | .zygoteInjected _ injected :: _ =>
          ∀ pid ∈ s.judged, pid ∈ s.monitor.abi.hooked ∨ 0 < injected ∧ injected = pid
      | .rearm _ :: _ =>
          ((s.rearmOutcomes o).daemon s.monitor.abi).1 = true →
            SettlesStatus (s.rearmOutcomes o) s.monitor.abi
      | _ => True
  | .processes table =>
      table.zygotes s.monitor.abi.programPath ≠ [] →
        (∀ z ∈ table.zygotes s.monitor.abi.programPath, z.pid ∈ s.monitor.abi.hooked) →
          s.monitor.abi.zygote = .injected
  | _ => True

section Status

variable {s : Session}

theorem StatusTracks.advance {m : AppMonitor} (h : StatusTracks s)
    (hkeeps : Keeps s.monitor.abi m.abi) : StatusTracks (s.advance m) := by
  have hzygotes : (s.advance m).zygotes = s.zygotes := by
    simp only [Session.zygotes, Session.advance, hkeeps.programPath]
  rcases hkeeps.kept with ⟨hhooked, hzygote, -⟩ | ⟨-, hhooked, hzygote⟩
  · have hhooked' : (s.advance m).monitor.abi.hooked = s.monitor.abi.hooked := hhooked
    have hzygote' : (s.advance m).monitor.abi.zygote = s.monitor.abi.zygote := hzygote
    refine ⟨?_, ?_⟩
    · rw [hzygotes, hhooked', hzygote']
      exact h.injected
    · rw [hhooked', hzygote']
      exact h.restart
  · -- a daemon has to be started: nothing is confirmed
    have hhooked' : (s.advance m).monitor.abi.hooked = ∅ := hhooked
    have hzygote' : (s.advance m).monitor.abi.zygote = .notInjected := hzygote
    refine ⟨?_, ?_⟩
    · intro hzs hall
      obtain ⟨z, hz⟩ := List.exists_mem_of_ne_nil _ hzs
      have hmem := hall z hz
      simp [hhooked'] at hmem
    · simp [hzygote']

theorem statusTracks_confirmed (o : HandleOutcomes) (daemon : Nat) {injected : Int}
    (hlast : ∀ pid ∈ s.judged, pid ∈ s.monitor.abi.hooked ∨ 0 < injected ∧ injected = pid) :
    StatusTracks (s.dispatch o (.zygoteInjected daemon injected)) := by
  refine ⟨fun _ _ => rfl, ?_⟩
  intro pid hpid hnot
  exact absurd (ZygoteAbi.mem_hooked_notifyInjected.mpr (hlast pid hpid)) hnot

end Status

/-! ## The status after a rearm -/

section RearmStatus

variable {o : RearmOutcomes} {abi : ZygoteAbi} (ignoreDisable : Bool)

theorem rearm_programPath : (rearm o ignoreDisable abi).abi.programPath = abi.programPath := by
  obtain ⟨-, hrearm⟩ | ⟨-, -, hrearm⟩ | ⟨hzs, hdaemon⟩ := rearm_cases ignoreDisable o abi
  · rw [hrearm]
  · rw [hrearm]
    exact (ensureDaemonCreated_keeps o.daemonFork { abi with supported := true }).programPath
  · exact (rearm_daemon ignoreDisable hzs hdaemon).1

/-- A zygote that is to be restarted: the status says so. -/
theorem rearm_restart_status {pid : Pid} (h : pid ∈ (rearm o ignoreDisable abi).restarts) :
    (rearm o ignoreDisable abi).abi.zygote ≠ .injected := by
  obtain ⟨-, hrearm⟩ | ⟨-, -, hrearm⟩ | ⟨hzs, hdaemon⟩ := rearm_cases ignoreDisable o abi
  · simp [hrearm] at h
  · simp [hrearm] at h
  obtain ⟨z, hz, hrestarts, -⟩ := (mem_rearm_restarts ignoreDisable hzs hdaemon).mp h
  have hany : o.restarts abi = true := List.any_eq_true.mpr ⟨z, hz, hrestarts⟩
  rw [rearm_zygote ignoreDisable hzs hdaemon, if_pos hany]
  decide

/-- A rearm with a daemon that leaves every zygote confirmed says injected, if it settles the status. -/
theorem rearm_injected_status (hzs : o.zygotes abi ≠ []) (hdaemon : (o.daemon abi).1 = true)
    (hsettles : SettlesStatus o abi)
    (hall : ∀ z ∈ o.zygotes abi, z.pid ∈ (rearm o ignoreDisable abi).abi.hooked) :
    (rearm o ignoreDisable abi).abi.zygote = .injected := by
  have hconfirmed : ∀ z ∈ o.zygotes abi, abi.vouches z = true ∨
      z.bare = true ∧ (o.attach z.pid).hooks = true :=
    fun z hz => (zygote_hooked_iff ignoreDisable hdaemon hz).mp (hall z hz)
  have hrestarts : o.restarts abi = false := by
    rw [← Bool.not_eq_true, restarts_iff]
    rintro (⟨z, hz, hbare, hfails⟩ | ⟨z, hz, hflight, hmapped, hnot⟩)
    · rcases hconfirmed z hz with hvouched | ⟨-, hhooks⟩
      · simp [hsettles.failed hconfirmed z hz hbare hvouched] at hfails
      · simp [hhooks] at hfails
    · rcases hconfirmed z hz with hvouched | ⟨hbare, -⟩
      · simp [hvouched] at hnot
      · simp [Process.bare, hmapped] at hbare
  rw [rearm_zygote ignoreDisable hzs hdaemon, hrestarts, if_neg Bool.false_ne_true]
  refine if_pos ?_
  rw [Bool.or_eq_true]
  by_contra hnone
  rw [not_or, Bool.not_eq_true, Bool.not_eq_true] at hnone
  -- neither armed nor found hooked: every zygote is in flight
  refine hsettles.inFlight ⟨hzs, fun z hz => ?_⟩
  have harmed := arms_eq_false_iff.mp hnone.1 z hz
  have hvouched : abi.vouches z = true :=
    (hconfirmed z hz).resolve_right fun hboth => harmed (found_eq_armed_iff.mpr hboth)
  refine ⟨?_, hvouched⟩
  rcases restarts_eq_false_iff.mp hrestarts z hz with hflight | harmed' | ⟨hmapped, -⟩
  · exact hflight
  · exact absurd harmed' harmed
  · by_contra hflight
    have hfound : o.found abi z = .hooked := found_eq_hooked_iff.mpr
      ⟨by simpa using hflight, hmapped, (mem_confirmed_iff (mem_targets.mpr (.inl hz))).mpr hvouched⟩
    have hno := List.any_eq_false.mp hnone.2 z hz
    simp [hfound] at hno

end RearmStatus

section Status

variable {s : Session}

theorem StatusTracks.rearmed (h : StatusTracks s) (o : HandleOutcomes) (ignoreDisable : Bool)
    (hsettles : ((s.rearmOutcomes o).daemon s.monitor.abi).1 = true →
      SettlesStatus (s.rearmOutcomes o) s.monitor.abi) :
    StatusTracks (s.rearmed o ignoreDisable) := by
  have habi : (s.rearmed o ignoreDisable).monitor.abi =
      (rearm (s.rearmOutcomes o) ignoreDisable s.monitor.abi).abi :=
    AppMonitor.requestRearm_abi _ _ _
  have hzygotes : (s.rearmed o ignoreDisable).zygotes =
      (s.rearmOutcomes o).zygotes s.monitor.abi := by
    rw [Session.zygotes, habi, rearm_programPath]
    rfl
  refine ⟨?_, ?_⟩
  · rw [hzygotes, habi]
    intro hzs hall
    by_cases hdaemon : ((s.rearmOutcomes o).daemon s.monitor.abi).1 = true
    · exact rearm_injected_status ignoreDisable hzs hdaemon (hsettles hdaemon) hall
    · -- without a daemon the manager is as it was, or nothing is confirmed
      rw [rearm_of_no_daemon ignoreDisable hzs (by simpa using hdaemon)] at hall ⊢
      have hkeeps := ensureDaemonCreated_keeps o.daemonFork { s.monitor.abi with supported := true }
      rcases hkeeps.kept with ⟨hhooked, hzygote, -⟩ | ⟨-, hhooked, -⟩
      · refine hzygote.trans (h.injected hzs fun z hz => ?_)
        have hmem := hall z hz
        rw [RearmOutcomes.daemon, Session.rearmOutcomes, hhooked] at hmem
        exact hmem
      · obtain ⟨z, hz⟩ := List.exists_mem_of_ne_nil _ hzs
        have hmem := hall z hz
        rw [RearmOutcomes.daemon, Session.rearmOutcomes, hhooked] at hmem
        simp at hmem
  · intro pid hpid _
    rw [habi]
    have hmem : pid ∈ (rearm (s.rearmOutcomes o) ignoreDisable s.monitor.abi).restarts := by
      simpa [Session.rearmed, AppMonitor.requestRearm_fst] using hpid
    exact rearm_restart_status ignoreDisable hmem

theorem statusTracks_step {s' : Session} {label : SessionLabel} (h : StatusTracks s)
    (hkeeps : KeepsStatus s label) (hstep : sessionStep s label = some s') : StatusTracks s' := by
  cases sessionStep_move hstep with
  | sent d => exact ⟨h.injected, h.restart⟩
  | kept label m queue hm =>
      have hq : StatusTracks { s with queue } := ⟨h.injected, h.restart⟩
      exact hq.advance hm
  | rearmed o ignoreDisable queue hqueue =>
      have hq : StatusTracks { s with queue } := ⟨h.injected, h.restart⟩
      simp only [KeepsStatus, hqueue] at hkeeps
      exact hq.rearmed o ignoreDisable hkeeps
  | confirmed o daemon pid queue hqueue =>
      simp only [KeepsStatus, hqueue] at hkeeps
      exact statusTracks_confirmed o daemon hkeeps
  | processes table =>
      refine ⟨hkeeps, ?_⟩
      intro pid hpid
      exact h.restart pid (Finset.mem_of_mem_filter pid hpid)
  | spawned pid => exact ⟨h.injected, h.restart⟩

end Status

/-- In every run that starts without confirmations and without a verdict and whose steps all keep the
status, the status follows the confirmations. -/
theorem status_tracks {s₀ s : Session} (h₀ : s₀.monitor.abi.hooked = ∅) (hj₀ : s₀.judged = ∅)
    (h : GuardedReach sessionStep KeepsStatus s₀ s) : StatusTracks s := by
  refine h.invariant ⟨?_, ?_⟩ ?_
  · intro hzs hall
    obtain ⟨z, hz⟩ := List.exists_mem_of_ne_nil _ hzs
    have hmem := hall z hz
    simp [h₀] at hmem
  · simp [hj₀]
  · intro s label s' hinv hkeeps hstep
    exact statusTracks_step hinv hkeeps hstep

/-- A zygote that was started by init, running or stopped by its injector. -/
def zygoteTable (state : Char) : ProcessTable := ⟨[zygote64 812 state []], by simp⟩

theorem status_tracks_zygote :
    ∃ s, replay sessionStep (startedSession (zygoteTable 'S')) zygoteConfirmed = some s ∧
      s.monitor.abi.zygote = .injected ∧ StatusTracks s := by
  refine ⟨_, rfl, by decide, status_tracks (startedSession_hooked (zygoteTable 'S')) rfl
    (guardedReach_of_replay zygoteConfirmed rfl ?_)⟩
  refine ⟨trivial, fun s₁ h₁ => ⟨trivial, fun s₂ h₂ => ⟨trivial, fun s₃ h₃ => ⟨?_, fun _ _ => trivial⟩⟩⟩⟩
  obtain rfl := Option.some.inj h₁
  obtain rfl := Option.some.inj h₂
  obtain rfl := Option.some.inj h₃
  intro pid hpid
  exact absurd hpid (Finset.notMem_empty pid)

def systemServer64 (pid : Pid) (zygote : Pid) : Process :=
  ⟨pid, "/system/bin/app_process64", zygote, ["system_server"], "system_server", 0, 'S', []⟩

/-- Two zygotes without the library, and the `system_server` of the first. -/
def twoZygotes : ProcessTable :=
  ⟨[zygote64 100 'S' [], zygote64 101 'S' [], systemServer64 200 100], by decide⟩

/-- The library is mapped into 101 without hooks; the other injectors work. -/
def secondUnhooked : HandleOutcomes :=
  ⟨some 700, fun pid =>
    ⟨some fun _ => .done (.exited (if pid = 101 then traceMappedOnly else traceHooked)), true⟩⟩

/-- A zygote is to be restarted, and the heartbeat of `system_server` turns the status to injected. And a
rearm that finds a confirmed zygote with its injector still on it turns the status away from injected. -/
theorem status_misled :
    (∃ s, replay sessionStep (startedSession twoZygotes)
        [.send (.rearm false), .handle secondUnhooked, .send (.zygoteInjected 1 200),
          .handle quietOutcomes] = some s ∧
      101 ∈ s.judged ∧ 101 ∉ s.monitor.abi.hooked ∧ s.monitor.abi.zygote = .injected ∧
      ¬ StatusTracks s) ∧
    ∃ s, replay sessionStep (startedSession (zygoteTable 't'))
        (zygoteConfirmed ++ [.send (.rearm false), .handle quietOutcomes]) = some s ∧
      812 ∈ s.monitor.abi.hooked ∧ s.monitor.abi.zygote = .notInjected ∧ ¬ StatusTracks s := by
  constructor
  · refine ⟨_, rfl, by decide, by decide, by decide, ?_⟩
    intro h
    exact h.restart 101 (by decide) (by decide) (by decide)
  · refine ⟨_, rfl, by decide, by decide, ?_⟩
    intro h
    have hinjected := h.injected (by decide) (by decide)
    revert hinjected
    decide

end NeoZygisk.Monitor
