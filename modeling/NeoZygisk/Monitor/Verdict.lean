import NeoZygisk.Monitor.Rearm

/-!
# What a verdict of rearm means

The verdict goes back over the control socket, and the stage restarts the framework on it. `VerdictMeans`
says what each value is for. The code counts a failed injector as a zygote that needs a restart even if the
library was never mapped, and lets one hooked zygote speak for those an injection is still running on;
`ClearVerdict` leaves these inputs out, and `verdictMeans_iff_clearVerdict` shows that nothing else goes
wrong. `rearm_again` is about two rearms in a row.
-/

set_option autoImplicit false

namespace NeoZygisk.Monitor

/-! ## What the verdicts are for -/

namespace RearmOutcomes

variable (o : RearmOutcomes) (abi : ZygoteAbi)

/-- The process has the library mapped when the call returns: it had it before, or an injector that was
run on it left it there. -/
def MappedAfter (r : Rearmed) (p : Process) : Prop :=
  p.mapped = true ∨ (∃ run ∈ r.runs, run.pid = p.pid) ∧ (o.attach p.pid).mapped = true

/-- The processes a rearm is about: the zygotes and `system_server`. -/
def targets : List Process := o.zygotes abi ++ (o.server abi).toList

end RearmOutcomes

/-- What each verdict says. -/
structure VerdictMeans (o : RearmOutcomes) (abi : ZygoteAbi) (r : Rearmed) : Prop where
  noZygote : r.result = .noZygote ↔ o.zygotes abi = []
  injected : r.result = .injected →
    (∃ z ∈ o.zygotes abi, ⟨z.pid, .standalone⟩ ∈ r.runs ∧ (o.attach z.pid).hooks = true) ∧
      ∀ z ∈ o.zygotes abi, z.pid ∉ r.restarts ∧ (injectionInFlight z = true ∨ z.pid ∈ r.abi.hooked)
  alreadyHooked : r.result = .alreadyHooked → ∀ z ∈ o.zygotes abi, z.pid ∈ r.abi.hooked
  injecting : r.result = .injecting →
    (∃ z ∈ o.zygotes abi, injectionInFlight z = true) ∧
      ∀ z ∈ o.zygotes abi, z.pid ∉ r.abi.hooked ∧ ∀ run ∈ r.runs, run.pid ≠ z.pid
  needsRestart : r.result = .needsRestart →
    ∃ p ∈ o.targets abi, o.MappedAfter r p ∧ p.pid ∉ r.abi.hooked

/-! ## The inputs on which they hold -/

/-- A confirmation that counts: the daemon that gave it is still the recorded one. -/
def ZygoteAbi.vouches (abi : ZygoteAbi) (p : Process) : Bool :=
  abi.daemonPid.isSome && decide (p.pid ∈ abi.hooked)

/-- A zygote nobody works on and that does not carry the library: an injector is run on it. -/
def Process.bare (z : Process) : Bool := !injectionInFlight z && !z.mapped

namespace RearmOutcomes

variable (o : RearmOutcomes) (abi : ZygoteAbi)

/-- The injector of some bare zygote hooks it. -/
def SomeInjectorHooks : Prop := ∃ z ∈ o.zygotes abi, z.bare = true ∧ (o.attach z.pid).hooks = true

/-- An injector fails: one for a bare zygote, or the one for `system_server`. -/
def SomeInjectorFails : Prop :=
  (∃ z ∈ o.zygotes abi, z.bare = true ∧ (o.attach z.pid).hooks = false) ∨
    o.SomeInjectorHooks abi ∧ ∃ p, o.server abi = some p ∧ (o.attach p.pid).hooks = false

/-- A zygote that carries the library without a confirmation, from before or from a failed injector. -/
def UnvouchedZygote : Prop :=
  ∃ z ∈ o.zygotes abi, abi.vouches z = false ∧
    (z.mapped = true ∨
      z.bare = true ∧ (o.attach z.pid).hooks = false ∧ (o.attach z.pid).mapped = true)

/-- The same for `system_server`, which is attached to only after a zygote was hooked. -/
def UnvouchedServer : Prop :=
  ∃ p, o.server abi = some p ∧ abi.vouches p = false ∧
    ((o.SomeInjectorHooks abi ∧ (o.attach p.pid).hooks = false ∧ (o.attach p.pid).mapped = true) ∨
      p.mapped = true ∧ ¬ (o.SomeInjectorHooks abi ∧ (o.attach p.pid).hooks = true))

/-- The inputs whose verdict is clear. -/
structure ClearVerdict : Prop where
  /-- Where a hooked zygote settles the verdict, those with an injection in flight are hooked too. -/
  hooked : (∀ z ∈ o.zygotes abi, injectionInFlight z = true ∨ z.mapped = true ∧ abi.vouches z = true) →
    (∃ z ∈ o.zygotes abi, injectionInFlight z = false) → ∀ z ∈ o.zygotes abi, abi.vouches z = true
  /-- Where all are in flight, none is hooked already. -/
  injecting : (∀ z ∈ o.zygotes abi, injectionInFlight z = true) →
    ∀ z ∈ o.zygotes abi, abi.vouches z = false
  /-- Where an injector fails, a process carries the library without a confirmation. -/
  failed : o.SomeInjectorFails abi → o.UnvouchedZygote abi ∨ o.UnvouchedServer abi

end RearmOutcomes

/-! ## The loop's findings, read off the inputs -/

section Findings

variable {o : RearmOutcomes} {abi : ZygoteAbi}

theorem found_eq_inFlight_iff {z : Process} :
    o.found abi z = .inFlight ↔ injectionInFlight z = true := by
  simp only [RearmOutcomes.found, finding]
  split_ifs <;> simp [*]

theorem found_eq_armed_iff {z : Process} :
    o.found abi z = .armed ↔ z.bare = true ∧ (o.attach z.pid).hooks = true := by
  simp only [RearmOutcomes.found, finding, Process.bare]
  split_ifs <;> simp_all

theorem found_ran_iff {z : Process} : (o.found abi z).ran = true ↔ z.bare = true := by
  simp only [RearmOutcomes.found, finding, Process.bare]
  split_ifs <;> simp_all [Finding.ran]

theorem found_eq_hooked_iff {z : Process} :
    o.found abi z = .hooked ↔
      injectionInFlight z = false ∧ z.mapped = true ∧ z.pid ∈ o.confirmed abi := by
  simp only [RearmOutcomes.found, finding]
  split_ifs <;> simp_all

theorem found_restarts_iff {z : Process} :
    (o.found abi z).restarts = true ↔
      z.bare = true ∧ (o.attach z.pid).hooks = false ∨
        injectionInFlight z = false ∧ z.mapped = true ∧ z.pid ∉ o.confirmed abi := by
  simp only [RearmOutcomes.found, finding, Process.bare]
  split_ifs <;> simp_all [Finding.restarts]

theorem mem_targets {p : Process} :
    p ∈ o.targets abi ↔ p ∈ o.zygotes abi ∨ o.server abi = some p := by
  simp [RearmOutcomes.targets]

/-- A confirmation of a process that was found survives if its daemon did. -/
theorem mem_confirmed_iff {p : Process} (hp : p ∈ o.targets abi) :
    p.pid ∈ o.confirmed abi ↔ abi.vouches p = true := by
  have hkept : ((o.server abi).any (·.pid == p.pid) || (o.zygotes abi).any (·.pid == p.pid)) = true := by
    rcases mem_targets.mp hp with hz | hserver
    · rw [Bool.or_eq_true, List.any_eq_true]
      exact .inr ⟨p, hz, by simp⟩
    · simp [hserver]
  simp only [RearmOutcomes.confirmed, pruneHooked, Finset.mem_filter, hkept, and_true,
    RearmOutcomes.daemon, ensureDaemonCreated, ZygoteAbi.vouches]
  cases abi.daemonPid with
  | some pid => simp
  | none =>
      -- a daemon that has to be started clears the confirmations, whether the fork works or not
      cases o.daemonFork with
      | none => simp
      | some pid => simp

theorem arms_iff : o.arms abi = true ↔ o.SomeInjectorHooks abi := by
  simp only [RearmOutcomes.arms, List.any_eq_true, decide_eq_true_iff, found_eq_armed_iff,
    RearmOutcomes.SomeInjectorHooks]

theorem serverFails_iff :
    o.serverFails abi = true ↔
      o.SomeInjectorHooks abi ∧ ∃ p, o.server abi = some p ∧ (o.attach p.pid).hooks = false := by
  simp only [RearmOutcomes.serverFails, Bool.and_eq_true, arms_iff, Option.any_eq_true,
    Bool.not_eq_true']

theorem restarts_iff :
    o.restarts abi = true ↔
      (∃ z ∈ o.zygotes abi, z.bare = true ∧ (o.attach z.pid).hooks = false) ∨
        ∃ z ∈ o.zygotes abi, injectionInFlight z = false ∧ z.mapped = true ∧
          abi.vouches z = false := by
  simp only [RearmOutcomes.restarts, List.any_eq_true, found_restarts_iff]
  constructor
  · rintro ⟨z, hz, h | ⟨hflight, hmapped, hnot⟩⟩
    · exact .inl ⟨z, hz, h⟩
    · rw [mem_confirmed_iff (mem_targets.mpr (.inl hz)), Bool.not_eq_true] at hnot
      exact .inr ⟨z, hz, hflight, hmapped, hnot⟩
  · rintro (⟨z, hz, h⟩ | ⟨z, hz, hflight, hmapped, hnot⟩)
    · exact ⟨z, hz, .inl h⟩
    · refine ⟨z, hz, .inr ⟨hflight, hmapped, ?_⟩⟩
      rw [mem_confirmed_iff (mem_targets.mpr (.inl hz)), hnot]
      exact Bool.false_ne_true

/-- No zygote has to be restarted if each has an injection in flight, is armed or is hooked. -/
theorem restarts_eq_false_iff :
    o.restarts abi = false ↔
      ∀ z ∈ o.zygotes abi, injectionInFlight z = true ∨ o.found abi z = .armed ∨
        z.mapped = true ∧ abi.vouches z = true := by
  rw [← Bool.not_eq_true, restarts_iff]
  constructor
  · intro h z hz
    by_contra hnot
    simp only [not_or, not_and, Bool.not_eq_true, found_eq_armed_iff] at hnot
    obtain ⟨hflight, harmed, hvouched⟩ := hnot
    by_cases hmapped : z.mapped = true
    · exact h (.inr ⟨z, hz, hflight, hmapped, hvouched hmapped⟩)
    · have hbare : z.bare = true := by simp [Process.bare, hflight, hmapped]
      exact h (.inl ⟨z, hz, hbare, harmed hbare⟩)
  · intro h
    rintro (⟨z, hz, hbare, hfails⟩ | ⟨z, hz, hflight, hmapped, hnot⟩)
    · rcases h z hz with hflight | harmed | ⟨hmapped, -⟩
      · simp [Process.bare, hflight] at hbare
      · rw [found_eq_armed_iff, hfails] at harmed
        exact Bool.false_ne_true harmed.2
      · simp [Process.bare, hmapped] at hbare
    · rcases h z hz with hflight' | harmed | ⟨-, hvouched⟩
      · simp [hflight'] at hflight
      · simp [found_eq_armed_iff, Process.bare, hmapped] at harmed
      · simp [hvouched] at hnot

end Findings

/-! ## Each verdict, read off the inputs -/

section Verdicts

variable {o : RearmOutcomes} {abi : ZygoteAbi} (ignoreDisable : Bool)

/-- `system_server` is confirmed after the call if it was before or its injector hooked it. -/
theorem server_mem_rearm_hooked (hzs : o.zygotes abi ≠ []) (hdaemon : (o.daemon abi).1 = true)
    {p : Process} (hp : o.server abi = some p) :
    p.pid ∈ (rearm o ignoreDisable abi).abi.hooked ↔
      p.pid ∈ o.confirmed abi ∨ o.arms abi = true ∧ (o.attach p.pid).hooks = true := by
  rw [mem_rearm_hooked ignoreDisable hzs hdaemon]
  constructor
  · rintro (h | ⟨z, hz, -, heq⟩ | ⟨harms, p', hp', hhooks, heq⟩)
    · exact .inl h
    · exact absurd heq (zygote_pid_ne_server hz hp)
    · rw [heq] at hhooks
      exact .inr ⟨harms, hhooks⟩
  · rintro (h | ⟨harms, hhooks⟩)
    · exact .inl h
    · exact .inr (.inr ⟨harms, p, hp, hhooks, rfl⟩)

/-- An injector was run for `system_server` if one hooked a zygote. -/
theorem server_mem_rearm_runs (hzs : o.zygotes abi ≠ []) (hdaemon : (o.daemon abi).1 = true)
    {p : Process} (hp : o.server abi = some p) :
    (∃ run ∈ (rearm o ignoreDisable abi).runs, run.pid = p.pid) ↔ o.arms abi = true := by
  constructor
  · rintro ⟨run, hrun, hpid⟩
    rcases (mem_rearm_runs ignoreDisable hzs hdaemon).mp hrun with ⟨z, hz, -, rfl⟩ | ⟨harms, -⟩
    · exact absurd hpid (zygote_pid_ne_server hz hp)
    · exact harms
  · intro harms
    exact ⟨_, (mem_rearm_runs ignoreDisable hzs hdaemon).mpr (.inr ⟨harms, p, hp, rfl⟩), rfl⟩

variable (hzs : o.zygotes abi ≠ []) (hdaemon : (o.daemon abi).1 = true)

include hzs hdaemon

theorem rearm_result_ne_noZygote : (rearm o ignoreDisable abi).result ≠ .noZygote := by
  rw [rearm_result ignoreDisable hzs hdaemon]
  split_ifs <;> simp

theorem rearm_needsRestart_iff :
    (rearm o ignoreDisable abi).result = .needsRestart ↔
      o.restarts abi = true ∨ o.serverFails abi = true := by
  rw [rearm_result ignoreDisable hzs hdaemon, ← Bool.or_eq_true]
  split_ifs <;> simp_all

theorem rearm_injected_iff :
    (rearm o ignoreDisable abi).result = .injected ↔
      o.restarts abi = false ∧ o.serverFails abi = false ∧ o.arms abi = true := by
  rw [rearm_result ignoreDisable hzs hdaemon, ← and_assoc, ← Bool.or_eq_false_iff]
  cases o.restarts abi || o.serverFails abi with
  | true => simp
  | false => split_ifs <;> simp_all

omit hzs hdaemon in
theorem arms_eq_false_iff :
    o.arms abi = false ↔ ∀ z ∈ o.zygotes abi, o.found abi z ≠ .armed := by
  simp [RearmOutcomes.arms]

omit hzs hdaemon in
theorem serverFails_eq_false (harms : o.arms abi = false) : o.serverFails abi = false := by
  simp [RearmOutcomes.serverFails, harms]

omit hzs hdaemon in
/-- Nothing is run and nothing has to be restarted if every zygote is in flight or hooked. -/
theorem idle_iff :
    o.restarts abi = false ∧ o.arms abi = false ↔
      ∀ z ∈ o.zygotes abi, injectionInFlight z = true ∨ z.mapped = true ∧ abi.vouches z = true := by
  rw [restarts_eq_false_iff, arms_eq_false_iff]
  constructor
  · rintro ⟨h, hnot⟩ z hz
    rcases h z hz with hflight | harmed | hhooked
    · exact .inl hflight
    · exact absurd harmed (hnot z hz)
    · exact .inr hhooked
  · intro h
    refine ⟨?_, ?_⟩
    · intro z hz
      rcases h z hz with hflight | hhooked
      · exact .inl hflight
      · exact .inr (.inr hhooked)
    · intro z hz harmed
      rw [found_eq_armed_iff] at harmed
      rcases h z hz with hflight | ⟨hmapped, -⟩
      · simp [Process.bare, hflight] at harmed
      · simp [Process.bare, hmapped] at harmed

/-- The verdict of a rearm that had nothing to do. -/
theorem rearm_result_of_idle (hidle : o.restarts abi = false ∧ o.arms abi = false) :
    (rearm o ignoreDisable abi).result =
      if ∀ z ∈ o.zygotes abi, injectionInFlight z = true then .injecting else .alreadyHooked := by
  have hall := idle_iff.mp hidle
  rw [rearm_result ignoreDisable hzs hdaemon, hidle.1, hidle.2, serverFails_eq_false hidle.2]
  by_cases hflight : ∀ z ∈ o.zygotes abi, injectionInFlight z = true
  · obtain ⟨z, hz⟩ := List.exists_mem_of_ne_nil _ hzs
    have hinFlight : (o.zygotes abi).any (o.found abi · = .inFlight) = true :=
      List.any_eq_true.mpr ⟨z, hz, by simpa using found_eq_inFlight_iff.mpr (hflight z hz)⟩
    have hhooked : (o.zygotes abi).any (o.found abi · = .hooked) = false := by
      rw [List.any_eq_false]
      intro z' hz'
      simp [found_eq_inFlight_iff.mpr (hflight z' hz')]
    simp [hinFlight, hhooked, if_pos hflight]
  · -- a zygote that is not in flight is hooked
    obtain ⟨z, hz, hnot⟩ : ∃ z ∈ o.zygotes abi, injectionInFlight z = false := by
      simpa using hflight
    have hz' := (hall z hz).resolve_left (by simp [hnot])
    have hfound : o.found abi z = .hooked :=
      found_eq_hooked_iff.mpr
        ⟨hnot, hz'.1, (mem_confirmed_iff (mem_targets.mpr (.inl hz))).mpr hz'.2⟩
    have hhooked : (o.zygotes abi).any (o.found abi · = .hooked) = true :=
      List.any_eq_true.mpr ⟨z, hz, by simpa using hfound⟩
    simp [hhooked, if_neg hflight]

/-- The two verdicts without an injector and without a restart. -/
theorem idle_of_result (h : (rearm o ignoreDisable abi).result = .alreadyHooked ∨
    (rearm o ignoreDisable abi).result = .injecting) :
    o.restarts abi = false ∧ o.arms abi = false := by
  rw [rearm_result ignoreDisable hzs hdaemon] at h
  split_ifs at h <;> simp_all

theorem rearm_alreadyHooked_iff :
    (rearm o ignoreDisable abi).result = .alreadyHooked ↔
      (∀ z ∈ o.zygotes abi, injectionInFlight z = true ∨ z.mapped = true ∧ abi.vouches z = true) ∧
        ∃ z ∈ o.zygotes abi, injectionInFlight z = false := by
  constructor
  · intro h
    have hidle := idle_of_result ignoreDisable hzs hdaemon (.inl h)
    refine ⟨idle_iff.mp hidle, ?_⟩
    rw [rearm_result_of_idle ignoreDisable hzs hdaemon hidle] at h
    split_ifs at h with hflight
    simpa using hflight
  · rintro ⟨hall, z, hz, hnot⟩
    rw [rearm_result_of_idle ignoreDisable hzs hdaemon (idle_iff.mpr hall), if_neg]
    intro hflight
    simp [hflight z hz] at hnot

theorem rearm_injecting_iff :
    (rearm o ignoreDisable abi).result = .injecting ↔
      ∀ z ∈ o.zygotes abi, injectionInFlight z = true := by
  constructor
  · intro h
    have hidle := idle_of_result ignoreDisable hzs hdaemon (.inr h)
    rw [rearm_result_of_idle ignoreDisable hzs hdaemon hidle] at h
    split_ifs at h with hflight
    exact hflight
  · intro hflight
    have hidle := idle_iff.mpr fun z hz => .inl (hflight z hz)
    rw [rearm_result_of_idle ignoreDisable hzs hdaemon hidle, if_pos hflight]

end Verdicts

/-! ## The verdicts mean what they say -/

section Meaning

variable {o : RearmOutcomes} {abi : ZygoteAbi} (ignoreDisable : Bool)

theorem zygote_hooked_iff (hdaemon : (o.daemon abi).1 = true) {z : Process} (hz : z ∈ o.zygotes abi) :
    z.pid ∈ (rearm o ignoreDisable abi).abi.hooked ↔
      abi.vouches z = true ∨ z.bare = true ∧ (o.attach z.pid).hooks = true := by
  rw [zygote_mem_rearm_hooked ignoreDisable hdaemon hz,
    mem_confirmed_iff (mem_targets.mpr (.inl hz)), found_eq_armed_iff]

theorem zygote_mappedAfter_iff (hdaemon : (o.daemon abi).1 = true) {z : Process}
    (hz : z ∈ o.zygotes abi) :
    o.MappedAfter (rearm o ignoreDisable abi) z ↔
      z.mapped = true ∨ z.bare = true ∧ (o.attach z.pid).mapped = true := by
  rw [RearmOutcomes.MappedAfter, zygote_mem_rearm_runs ignoreDisable hdaemon hz, found_ran_iff]

variable (hzs : o.zygotes abi ≠ []) (hdaemon : (o.daemon abi).1 = true)

include hzs hdaemon

theorem server_hooked_iff {p : Process} (hp : o.server abi = some p) :
    p.pid ∈ (rearm o ignoreDisable abi).abi.hooked ↔
      abi.vouches p = true ∨ o.SomeInjectorHooks abi ∧ (o.attach p.pid).hooks = true := by
  rw [server_mem_rearm_hooked ignoreDisable hzs hdaemon hp,
    mem_confirmed_iff (mem_targets.mpr (.inr hp)), arms_iff]

theorem server_mappedAfter_iff {p : Process} (hp : o.server abi = some p) :
    o.MappedAfter (rearm o ignoreDisable abi) p ↔
      p.mapped = true ∨ o.SomeInjectorHooks abi ∧ (o.attach p.pid).mapped = true := by
  rw [RearmOutcomes.MappedAfter, server_mem_rearm_runs ignoreDisable hzs hdaemon hp, arms_iff]

/-- The processes that carry the library without a confirmation when the call returns. -/
theorem exists_unconfirmed_iff :
    (∃ p ∈ o.targets abi, o.MappedAfter (rearm o ignoreDisable abi) p ∧
        p.pid ∉ (rearm o ignoreDisable abi).abi.hooked) ↔
      o.UnvouchedZygote abi ∨ o.UnvouchedServer abi := by
  constructor
  · rintro ⟨p, hp, hmapped, hnot⟩
    rcases mem_targets.mp hp with hz | hserver
    · left
      rw [zygote_mappedAfter_iff ignoreDisable hdaemon hz] at hmapped
      rw [zygote_hooked_iff ignoreDisable hdaemon hz, not_or, not_and, Bool.not_eq_true,
        Bool.not_eq_true] at hnot
      refine ⟨p, hz, hnot.1, ?_⟩
      rcases hmapped with hbefore | ⟨hbare, hleft⟩
      · exact .inl hbefore
      · exact .inr ⟨hbare, hnot.2 hbare, hleft⟩
    · right
      rw [server_mappedAfter_iff ignoreDisable hzs hdaemon hserver] at hmapped
      rw [server_hooked_iff ignoreDisable hzs hdaemon hserver, not_or, Bool.not_eq_true] at hnot
      refine ⟨p, hserver, hnot.1, ?_⟩
      rcases hmapped with hbefore | ⟨hruns, hleft⟩
      · exact .inr ⟨hbefore, hnot.2⟩
      · have hfails : (o.attach p.pid).hooks = false := by
          by_contra hhooks
          exact hnot.2 ⟨hruns, by simpa using hhooks⟩
        exact .inl ⟨hruns, hfails, hleft⟩
  · rintro (⟨z, hz, hnot, hcarries⟩ | ⟨p, hp, hnot, hcarries⟩)
    · refine ⟨z, mem_targets.mpr (.inl hz), ?_, ?_⟩
      · rw [zygote_mappedAfter_iff ignoreDisable hdaemon hz]
        exact hcarries.imp id fun h => ⟨h.1, h.2.2⟩
      · rw [zygote_hooked_iff ignoreDisable hdaemon hz, hnot]
        rcases hcarries with hmapped | ⟨-, hfails, -⟩
        · simp [Process.bare, hmapped]
        · simp [hfails]
    · refine ⟨p, mem_targets.mpr (.inr hp), ?_, ?_⟩
      · rw [server_mappedAfter_iff ignoreDisable hzs hdaemon hp]
        rcases hcarries with ⟨hruns, -, hleft⟩ | ⟨hmapped, -⟩
        · exact .inr ⟨hruns, hleft⟩
        · exact .inl hmapped
      · rw [server_hooked_iff ignoreDisable hzs hdaemon hp, hnot]
        rcases hcarries with ⟨-, hfails, -⟩ | ⟨-, hnone⟩
        · simp [hfails]
        · simpa using hnone

/-- A restart is asked for where an injector fails or a zygote nobody works on carries the library
without a confirmation. -/
theorem rearm_needsRestart_iff_inputs :
    (rearm o ignoreDisable abi).result = .needsRestart ↔
      o.SomeInjectorFails abi ∨
        ∃ z ∈ o.zygotes abi, injectionInFlight z = false ∧ z.mapped = true ∧
          abi.vouches z = false := by
  rw [rearm_needsRestart_iff ignoreDisable hzs hdaemon, restarts_iff, serverFails_iff,
    RearmOutcomes.SomeInjectorFails, or_right_comm]

theorem injected_means (h : (rearm o ignoreDisable abi).result = .injected) :
    (∃ z ∈ o.zygotes abi, ⟨z.pid, .standalone⟩ ∈ (rearm o ignoreDisable abi).runs ∧
        (o.attach z.pid).hooks = true) ∧
      ∀ z ∈ o.zygotes abi, z.pid ∉ (rearm o ignoreDisable abi).restarts ∧
        (injectionInFlight z = true ∨ z.pid ∈ (rearm o ignoreDisable abi).abi.hooked) := by
  obtain ⟨hrestarts, -, harms⟩ := (rearm_injected_iff ignoreDisable hzs hdaemon).mp h
  constructor
  · obtain ⟨z, hz, hbare, hhooks⟩ := arms_iff.mp harms
    refine ⟨z, hz, ?_, hhooks⟩
    exact (mem_rearm_runs ignoreDisable hzs hdaemon).mpr (.inl ⟨z, hz, found_ran_iff.mpr hbare, rfl⟩)
  · intro z hz
    constructor
    · intro hmem
      obtain ⟨z', hz', hneeds, -⟩ := (mem_rearm_restarts ignoreDisable hzs hdaemon).mp hmem
      rw [RearmOutcomes.restarts, List.any_eq_false] at hrestarts
      exact hrestarts z' hz' hneeds
    · rw [zygote_hooked_iff ignoreDisable hdaemon hz]
      rcases restarts_eq_false_iff.mp hrestarts z hz with hflight | harmed | ⟨-, hvouched⟩
      · exact .inl hflight
      · exact .inr (.inr (found_eq_armed_iff.mp harmed))
      · exact .inr (.inl hvouched)

omit hzs in
/-- Where nothing is run, the confirmations are those from before. -/
theorem hooked_iff_vouches_of_idle {z : Process} (hz : z ∈ o.zygotes abi)
    (hidle : injectionInFlight z = true ∨ z.mapped = true ∧ abi.vouches z = true) :
    z.pid ∈ (rearm o ignoreDisable abi).abi.hooked ↔ abi.vouches z = true := by
  have hbare : z.bare = false := by
    rcases hidle with hflight | ⟨hmapped, -⟩
    · simp [Process.bare, hflight]
    · simp [Process.bare, hmapped]
  rw [zygote_hooked_iff ignoreDisable hdaemon hz, hbare]
  simp

theorem alreadyHooked_means_iff :
    ((rearm o ignoreDisable abi).result = .alreadyHooked →
        ∀ z ∈ o.zygotes abi, z.pid ∈ (rearm o ignoreDisable abi).abi.hooked) ↔
      ((∀ z ∈ o.zygotes abi, injectionInFlight z = true ∨ z.mapped = true ∧ abi.vouches z = true) →
        (∃ z ∈ o.zygotes abi, injectionInFlight z = false) →
          ∀ z ∈ o.zygotes abi, abi.vouches z = true) := by
  rw [rearm_alreadyHooked_iff ignoreDisable hzs hdaemon, and_imp]
  refine forall_congr' fun hidle => imp_congr_right fun _ => ?_
  refine forall_congr' fun z => forall_congr' fun hz => ?_
  exact hooked_iff_vouches_of_idle ignoreDisable hdaemon hz (hidle z hz)

theorem injecting_means_iff :
    ((rearm o ignoreDisable abi).result = .injecting →
        (∃ z ∈ o.zygotes abi, injectionInFlight z = true) ∧
          ∀ z ∈ o.zygotes abi, z.pid ∉ (rearm o ignoreDisable abi).abi.hooked ∧
            ∀ run ∈ (rearm o ignoreDisable abi).runs, run.pid ≠ z.pid) ↔
      ((∀ z ∈ o.zygotes abi, injectionInFlight z = true) →
        ∀ z ∈ o.zygotes abi, abi.vouches z = false) := by
  rw [rearm_injecting_iff ignoreDisable hzs hdaemon]
  refine forall_congr' fun hflight => ?_
  have hhooked : ∀ z ∈ o.zygotes abi,
      (z.pid ∉ (rearm o ignoreDisable abi).abi.hooked ↔ abi.vouches z = false) := by
    intro z hz
    rw [hooked_iff_vouches_of_idle ignoreDisable hdaemon hz (.inl (hflight z hz)), Bool.not_eq_true]
  constructor
  · rintro ⟨-, h⟩ z hz
    exact (hhooked z hz).mp (h z hz).1
  · intro h
    obtain ⟨z₀, hz₀⟩ := List.exists_mem_of_ne_nil _ hzs
    refine ⟨⟨z₀, hz₀, hflight z₀ hz₀⟩, ?_⟩
    intro z hz
    refine ⟨(hhooked z hz).mpr (h z hz), ?_⟩
    -- no injector is run on a zygote in flight
    intro run hrun hpid
    have hran := (zygote_mem_rearm_runs ignoreDisable hdaemon hz).mp ⟨run, hrun, hpid⟩
    rw [found_ran_iff, Process.bare, hflight z hz] at hran
    simp at hran

theorem needsRestart_means_iff :
    ((rearm o ignoreDisable abi).result = .needsRestart →
        ∃ p ∈ o.targets abi, o.MappedAfter (rearm o ignoreDisable abi) p ∧
          p.pid ∉ (rearm o ignoreDisable abi).abi.hooked) ↔
      (o.SomeInjectorFails abi → o.UnvouchedZygote abi ∨ o.UnvouchedServer abi) := by
  rw [rearm_needsRestart_iff_inputs ignoreDisable hzs hdaemon,
    exists_unconfirmed_iff ignoreDisable hzs hdaemon, or_imp]
  refine and_iff_left ?_
  -- a zygote that was found with the library is the one the verdict speaks of
  rintro ⟨z, hz, -, hmapped, hnot⟩
  exact .inl ⟨z, hz, hnot, .inl hmapped⟩

theorem verdictMeans_iff :
    VerdictMeans o abi (rearm o ignoreDisable abi) ↔ o.ClearVerdict abi := by
  constructor
  · intro h
    exact ⟨(alreadyHooked_means_iff ignoreDisable hzs hdaemon).mp h.alreadyHooked,
      (injecting_means_iff ignoreDisable hzs hdaemon).mp h.injecting,
      (needsRestart_means_iff ignoreDisable hzs hdaemon).mp h.needsRestart⟩
  · intro h
    refine ⟨?_, injected_means ignoreDisable hzs hdaemon,
      (alreadyHooked_means_iff ignoreDisable hzs hdaemon).mpr h.hooked,
      (injecting_means_iff ignoreDisable hzs hdaemon).mpr h.injecting,
      (needsRestart_means_iff ignoreDisable hzs hdaemon).mpr h.failed⟩
    simp [rearm_result_ne_noZygote ignoreDisable hzs hdaemon, hzs]

end Meaning

/-- The verdict of a rearm means what it says exactly if there is no zygote, or no daemon, or the verdict
is clear. -/
theorem verdictMeans_iff_clearVerdict (o : RearmOutcomes) (ignoreDisable : Bool) (abi : ZygoteAbi) :
    VerdictMeans o abi (rearm o ignoreDisable abi) ↔
      (o.zygotes abi ≠ [] → (o.daemon abi).1 = true → o.ClearVerdict abi) := by
  obtain ⟨hzs, hrearm⟩ | ⟨hzs, hdaemon, hrearm⟩ | ⟨hzs, hdaemon⟩ := rearm_cases ignoreDisable o abi
  · rw [hrearm]
    simp only [hzs, ne_eq, not_true_eq_false, false_imp_iff, iff_true]
    exact ⟨by simp [hzs], by simp, by simp, by simp, by simp⟩
  · rw [hrearm]
    simp only [hdaemon, Bool.false_eq_true, false_imp_iff, imp_true_iff, iff_true]
    exact ⟨by simp [hzs], by simp, by simp, by simp, by simp⟩
  · simp only [ne_eq, hzs, not_false_eq_true, hdaemon, true_imp_iff]
    exact verdictMeans_iff ignoreDisable hzs hdaemon

/-- A zygote as a 64-bit system runs it. -/
def zygote64 (pid : Pid) (state : Char) (maps : List String) : Process :=
  ⟨pid, "/system/bin/app_process64", 1, ["zygote64"], "main", 0, state, maps⟩

/-- A manager whose daemon runs and confirmed the given processes. -/
def managerOf (hooked : Finset Pid) : ZygoteAbi :=
  { zygoteAbi "/data/adb/modules/zygisksu" true with
    supported := true, daemonRunning := true, daemonPid := some 700, hooked }

def libraryPath : String := "/data/adb/modules/zygisksu/lib64/libzygisk.so"

/-- One zygote, and one beside a zygote that is parked for its injector. -/
def loneZygote : ProcessTable := ⟨[zygote64 100 'S' []], by decide⟩
def parkedSibling : ProcessTable := ⟨[zygote64 100 'S' [libraryPath], zygote64 101 'T' []], by decide⟩

/-- No injector can be forked. -/
def noForks (table : ProcessTable) : RearmOutcomes := ⟨table, none, fun _ => ⟨none, false⟩⟩

/-- The framework is to be restarted for a zygote that does not carry the library: the injector could not
be forked. And a hooked zygote speaks for another one that is still parked for its injector. -/
theorem verdict_misleads :
    ¬ VerdictMeans (noForks loneZygote) (managerOf ∅)
      (rearm (noForks loneZygote) false (managerOf ∅)) ∧
    ¬ VerdictMeans (noForks parkedSibling) (managerOf {100})
      (rearm (noForks parkedSibling) false (managerOf {100})) := by
  constructor
  · intro h
    obtain ⟨p, hp, hmapped, -⟩ := h.needsRestart (by decide)
    revert hmapped
    revert p
    simp only [RearmOutcomes.MappedAfter]
    decide
  · intro h
    have hhooked := h.alreadyHooked (by decide) (zygote64 101 'T' []) (by decide)
    revert hhooked
    decide

/-! ## Two rearms in a row -/

/-- The process with other mappings. -/
def Process.withMaps (maps : Pid → List String) (p : Process) : Process := { p with maps := maps p.pid }

/-- The same processes with other mappings. -/
def ProcessTable.withMaps (maps : Pid → List String) (t : ProcessTable) : ProcessTable where
  procs := t.procs.map (Process.withMaps maps)
  nodup := by
    rw [List.map_map]
    exact t.nodup

/-- The mappings after a rearm: those of a process no injector hooked are the old ones, and a zygote an
injector hooked has the library mapped. -/
structure OnlyInjectedMaps (o : RearmOutcomes) (r : Rearmed) (maps : Pid → List String) : Prop where
  others : ∀ p ∈ o.table.procs,
    (∀ run ∈ r.runs, run.pid = p.pid → (o.attach p.pid).hooks = false) → maps p.pid = p.maps
  injected : ∀ p ∈ o.table.procs, ⟨p.pid, .standalone⟩ ∈ r.runs → (o.attach p.pid).hooks = true →
    (p.withMaps maps).mapped = true

section Again

variable {o o' : RearmOutcomes} {abi : ZygoteAbi} {maps : Pid → List String} (ignoreDisable : Bool)

theorem ProcessTable.zygotes_withMaps (t : ProcessTable) (programPath : String) :
    (t.withMaps maps).zygotes programPath = (t.zygotes programPath).map (Process.withMaps maps) := by
  simp only [zygotes, findProcessesByExe, withMaps, List.filter_map]
  rfl

theorem ProcessTable.systemServer_withMaps (t : ProcessTable) (programPath : String) :
    (t.withMaps maps).systemServer programPath =
      (t.systemServer programPath).map (Process.withMaps maps) := by
  simp only [systemServer, findProcessesByExe, withMaps, List.filter_map, List.getLast?_map]
  rfl

/-- A working rearm keeps the program it looks for and has a daemon. -/
theorem rearm_daemon (hzs : o.zygotes abi ≠ []) (hdaemon : (o.daemon abi).1 = true) :
    (rearm o ignoreDisable abi).abi.programPath = abi.programPath ∧
      (rearm o ignoreDisable abi).abi.daemonPid.isSome = true ∧
      (rearm o ignoreDisable abi).abi.daemonRunning = true := by
  obtain ⟨-, -, -, -, hooked, habi⟩ := attachServer_sameFlags o.attach (o.server abi) (o.swept abi)
  have hfields : (o.daemon abi).2.programPath = abi.programPath ∧
      (o.daemon abi).2.daemonPid.isSome = true ∧ (o.daemon abi).2.daemonRunning = true := by
    simp only [RearmOutcomes.daemon, ensureDaemonCreated] at hdaemon ⊢
    split at hdaemon
    · rename_i pid hpid
      exact ⟨rfl, by rw [hpid]; rfl, hdaemon⟩
    · split at hdaemon
      · cases hdaemon
      · exact ⟨rfl, rfl, rfl⟩
  rw [rearm_of_daemon ignoreDisable hzs hdaemon]
  simp only [habi]
  exact hfields

/-- Confirmations are left for zygotes and `system_server` only. -/
theorem exists_target_of_mem_hooked (hzs : o.zygotes abi ≠ []) (hdaemon : (o.daemon abi).1 = true)
    {pid : Pid} (h : pid ∈ (rearm o ignoreDisable abi).abi.hooked) :
    ∃ p ∈ o.targets abi, p.pid = pid := by
  rcases (mem_rearm_hooked ignoreDisable hzs hdaemon).mp h with hold | ⟨z, hz, -, heq⟩ | ⟨-, p, hp, -, heq⟩
  · simp only [RearmOutcomes.confirmed, pruneHooked, Finset.mem_filter, Bool.or_eq_true,
      List.any_eq_true, Option.any_eq_true, beq_iff_eq] at hold
    rcases hold.2 with ⟨p, hp, heq⟩ | ⟨z, hz, heq⟩
    · exact ⟨p, mem_targets.mpr (.inr hp), heq⟩
    · exact ⟨z, mem_targets.mpr (.inl hz), heq⟩
  · exact ⟨z, mem_targets.mpr (.inl hz), heq⟩
  · exact ⟨p, mem_targets.mpr (.inr hp), heq⟩

theorem mem_hooked_of_mem_confirmed {pid : Pid} (h : pid ∈ o.confirmed abi) : pid ∈ abi.hooked := by
  simp only [RearmOutcomes.confirmed, pruneHooked, Finset.mem_filter, RearmOutcomes.daemon,
    ensureDaemonCreated] at h
  obtain ⟨hold, -⟩ := h
  split at hold
  · exact hold
  · split at hold <;> simp at hold

/-- A rearm that finds every zygote in flight or hooked runs nothing and confirms nothing. -/
theorem rearm_of_idle (hzs : o.zygotes abi ≠ []) (hdaemon : (o.daemon abi).1 = true)
    (hidle : ∀ z ∈ o.zygotes abi, injectionInFlight z = true ∨ z.mapped = true ∧ abi.vouches z = true) :
    (rearm o ignoreDisable abi).runs = [] ∧
      (rearm o ignoreDisable abi).abi.hooked = o.confirmed abi := by
  have harms : o.arms abi = false := (idle_iff.mpr hidle).2
  constructor
  · refine List.eq_nil_iff_forall_not_mem.mpr ?_
    intro run hrun
    rcases (mem_rearm_runs ignoreDisable hzs hdaemon).mp hrun with ⟨z, hz, hran, -⟩ | ⟨hserver, -⟩
    · rw [found_ran_iff] at hran
      rcases hidle z hz with hflight | ⟨hmapped, -⟩
      · simp [Process.bare, hflight] at hran
      · simp [Process.bare, hmapped] at hran
    · simp [harms] at hserver
  · ext pid
    rw [mem_rearm_hooked ignoreDisable hzs hdaemon, harms]
    constructor
    · rintro (h | ⟨z, hz, harmed, -⟩ | ⟨hserver, -⟩)
      · exact h
      · exact absurd harmed (arms_eq_false_iff.mp harms z hz)
      · cases hserver
    · exact .inl

/-- The two verdicts after which nothing is left to do come from a daemon that runs and need no
restart. -/
theorem settled_of_result (h : (rearm o ignoreDisable abi).result = .injected ∨
    (rearm o ignoreDisable abi).result = .alreadyHooked) :
    o.zygotes abi ≠ [] ∧ (o.daemon abi).1 = true ∧ o.restarts abi = false ∧
      ∃ z ∈ o.zygotes abi, injectionInFlight z = false := by
  obtain ⟨-, hrearm⟩ | ⟨-, -, hrearm⟩ | ⟨hzs, hdaemon⟩ := rearm_cases ignoreDisable o abi
  · simp [hrearm] at h
  · simp [hrearm] at h
  refine ⟨hzs, hdaemon, ?_⟩
  rcases h with h | h
  · obtain ⟨hrestarts, -, harms⟩ := (rearm_injected_iff ignoreDisable hzs hdaemon).mp h
    obtain ⟨z, hz, hbare, -⟩ := arms_iff.mp harms
    simp only [Process.bare, Bool.and_eq_true, Bool.not_eq_true'] at hbare
    exact ⟨hrestarts, z, hz, hbare.1⟩
  · exact ⟨(idle_of_result ignoreDisable hzs hdaemon (.inl h)).1,
      ((rearm_alreadyHooked_iff ignoreDisable hzs hdaemon).mp h).2⟩

/-- A zygote the first rearm left in flight or hooked is found so again. -/
theorem idle_withMaps (hdaemon : (o.daemon abi).1 = true)
    (hrestarts : o.restarts abi = false)
    (hmaps : OnlyInjectedMaps o (rearm o ignoreDisable abi) maps) {z : Process}
    (hz : z ∈ o.zygotes abi) :
    injectionInFlight z = true ∨
      (z.withMaps maps).mapped = true ∧ z.pid ∈ (rearm o ignoreDisable abi).abi.hooked := by
  have hzs := List.ne_nil_of_mem hz
  have hmem : z ∈ o.table.procs := (ProcessTable.mem_zygotes.mp hz).1
  rw [zygote_hooked_iff ignoreDisable hdaemon hz]
  rcases restarts_eq_false_iff.mp hrestarts z hz with hflight | harmed | ⟨hmapped, hvouched⟩
  · exact .inl hflight
  · obtain ⟨hbare, hhooks⟩ := found_eq_armed_iff.mp harmed
    have hrun : (⟨z.pid, .standalone⟩ : InjectorRun) ∈ (rearm o ignoreDisable abi).runs :=
      (mem_rearm_runs ignoreDisable hzs hdaemon).mpr (.inl ⟨z, hz, found_ran_iff.mpr hbare, rfl⟩)
    exact .inr ⟨hmaps.injected z hmem hrun hhooks, .inr ⟨hbare, hhooks⟩⟩
  · -- no injector was run on it, so its mappings are the old ones
    have hsame : maps z.pid = z.maps := by
      refine hmaps.others z hmem ?_
      intro run hrun hpid
      have hran := (zygote_mem_rearm_runs ignoreDisable hdaemon hz).mp ⟨run, hrun, hpid⟩
      simp [found_ran_iff, Process.bare, hmapped] at hran
    refine .inr ⟨?_, .inl hvouched⟩
    simpa [Process.withMaps, hsame] using hmapped

/-- No injector is run on a zygote that carries the library, is traced or is stopped. -/
theorem not_run_of_busy {z : Process} (hz : z ∈ o.zygotes abi)
    (hbusy : z.mapped = true ∨ 0 < z.tracerPid ∨ z.state = 'T' ∨ z.state = 't') {run : InjectorRun}
    (hrun : run ∈ (rearm o ignoreDisable abi).runs) : run.pid ≠ z.pid := by
  intro hpid
  obtain ⟨-, hrearm⟩ | ⟨-, -, hrearm⟩ | ⟨-, hdaemon⟩ := rearm_cases ignoreDisable o abi
  · simp [hrearm] at hrun
  · simp [hrearm] at hrun
  have hbare := found_ran_iff.mp
    ((zygote_mem_rearm_runs ignoreDisable hdaemon hz).mp ⟨run, hrun, hpid⟩)
  simp only [Process.bare, injectionInFlight, Bool.and_eq_true, Bool.not_eq_true'] at hbare
  rcases hbusy with h | h | h | h <;> simp [h] at hbare

/-! What the second rearm finds, if only mappings changed. -/

section Second

variable {o' : RearmOutcomes} (hzs : o.zygotes abi ≠ []) (hdaemon : (o.daemon abi).1 = true)

include hzs hdaemon

theorem zygotes_again (htable : o'.table = o.table.withMaps maps) :
    o'.zygotes (rearm o ignoreDisable abi).abi = (o.zygotes abi).map (Process.withMaps maps) := by
  rw [RearmOutcomes.zygotes, htable, (rearm_daemon ignoreDisable hzs hdaemon).1,
    ProcessTable.zygotes_withMaps]
  rfl

theorem server_again (htable : o'.table = o.table.withMaps maps) :
    o'.server (rearm o ignoreDisable abi).abi = (o.server abi).map (Process.withMaps maps) := by
  rw [RearmOutcomes.server, htable, (rearm_daemon ignoreDisable hzs hdaemon).1,
    ProcessTable.systemServer_withMaps]
  rfl

theorem daemon_again : (o'.daemon (rearm o ignoreDisable abi).abi).1 = true := by
  obtain ⟨-, hpid, hrunning⟩ := rearm_daemon ignoreDisable hzs hdaemon
  obtain ⟨pid, hsome⟩ := Option.isSome_iff_exists.mp hpid
  simp [RearmOutcomes.daemon, ensureDaemonCreated, hsome, hrunning]

theorem vouches_withMaps_iff (p : Process) :
    (rearm o ignoreDisable abi).abi.vouches (p.withMaps maps) = true ↔
      p.pid ∈ (rearm o ignoreDisable abi).abi.hooked := by
  rw [ZygoteAbi.vouches, (rearm_daemon ignoreDisable hzs hdaemon).2.1, Bool.true_and]
  exact decide_eq_true_iff

/-- What the first rearm left confirmed, the second does not prune. -/
theorem confirmed_again (htable : o'.table = o.table.withMaps maps) :
    o'.confirmed (rearm o ignoreDisable abi).abi = (rearm o ignoreDisable abi).abi.hooked := by
  ext pid
  constructor
  · exact mem_hooked_of_mem_confirmed
  · intro hmem
    obtain ⟨p, hp, rfl⟩ := exists_target_of_mem_hooked ignoreDisable hzs hdaemon hmem
    have hp' : p.withMaps maps ∈ o'.targets (rearm o ignoreDisable abi).abi := by
      rw [mem_targets, zygotes_again ignoreDisable hzs hdaemon htable,
        server_again ignoreDisable hzs hdaemon htable]
      rcases mem_targets.mp hp with hz | hsome
      · exact .inl (List.mem_map_of_mem hz)
      · exact .inr (by rw [hsome]; rfl)
    exact (mem_confirmed_iff hp').mpr
      ((vouches_withMaps_iff ignoreDisable hzs hdaemon p).mpr hmem)

end Second

end Again

/-- After a rearm that says injected or already hooked, and if only the mappings of its own injectors were
added, another rearm runs no injector, keeps the confirmations and says already hooked. No rearm runs an
injector on a zygote that carries the library, is traced or is stopped. -/
theorem rearm_again (o : RearmOutcomes) (ignoreDisable : Bool) (abi : ZygoteAbi) :
    (∀ (o' : RearmOutcomes) (ignoreDisable' : Bool) (maps : Pid → List String),
      (rearm o ignoreDisable abi).result = .injected ∨
          (rearm o ignoreDisable abi).result = .alreadyHooked →
        OnlyInjectedMaps o (rearm o ignoreDisable abi) maps → o'.table = o.table.withMaps maps →
          let again := rearm o' ignoreDisable' (rearm o ignoreDisable abi).abi
          again.runs = [] ∧ again.abi.hooked = (rearm o ignoreDisable abi).abi.hooked ∧
            again.result = .alreadyHooked) ∧
      ∀ z ∈ o.zygotes abi, z.mapped = true ∨ 0 < z.tracerPid ∨ z.state = 'T' ∨ z.state = 't' →
        ∀ run ∈ (rearm o ignoreDisable abi).runs, run.pid ≠ z.pid := by
  constructor
  · intro o' ignoreDisable' maps hresult hmaps htable
    obtain ⟨hzs, hdaemon, hrestarts, z₀, hz₀, hnot₀⟩ := settled_of_result ignoreDisable hresult
    -- the second rearm finds the same processes, and the daemon of the first
    have hzygotes := zygotes_again ignoreDisable hzs hdaemon htable
    have hdaemon' : (o'.daemon (rearm o ignoreDisable abi).abi).1 = true :=
      daemon_again ignoreDisable hzs hdaemon
    have hzs' : o'.zygotes (rearm o ignoreDisable abi).abi ≠ [] := by
      simpa [hzygotes] using hzs
    have hidle : ∀ z ∈ o'.zygotes (rearm o ignoreDisable abi).abi, injectionInFlight z = true ∨
        z.mapped = true ∧ (rearm o ignoreDisable abi).abi.vouches z = true := by
      rw [hzygotes, List.forall_mem_map]
      intro z hz
      rw [vouches_withMaps_iff ignoreDisable hzs hdaemon]
      have hleft := idle_withMaps ignoreDisable hdaemon hrestarts hmaps hz
      exact hleft
    obtain ⟨hruns, hhooked⟩ := rearm_of_idle ignoreDisable' hzs' hdaemon' hidle
    refine ⟨hruns, ?_, ?_⟩
    · rw [hhooked]
      exact confirmed_again ignoreDisable hzs hdaemon htable
    · rw [rearm_alreadyHooked_iff ignoreDisable' hzs' hdaemon']
      refine ⟨hidle, z₀.withMaps maps, ?_, hnot₀⟩
      rw [hzygotes]
      exact List.mem_map_of_mem hz₀
  · intro z hz hbusy run hrun
    exact not_run_of_busy ignoreDisable hz hbusy hrun

/-- Every injector hooks its target. -/
def smoothInjectors (table : ProcessTable) : RearmOutcomes :=
  ⟨table, none, fun _ => ⟨some fun _ => .done (.exited traceHooked), true⟩⟩

/-- A hooked zygote, one that lacks the library and one that is parked for its injector. -/
def mixedSiblings : ProcessTable :=
  ⟨[zygote64 100 'S' [libraryPath], zygote64 101 'S' [], zygote64 102 'T' []], by decide⟩

/-- What is mapped once the second of them has been injected. -/
def siblingMaps (pid : Pid) : List String := if pid = 102 then [] else [libraryPath]

/-- The first rearm injects the zygote that lacks the library, the second finds nothing to do. -/
theorem rearm_again_siblings :
    (rearm (smoothInjectors mixedSiblings) false (managerOf {100})).result = .injected ∧
      (rearm (smoothInjectors (mixedSiblings.withMaps siblingMaps)) false
        (rearm (smoothInjectors mixedSiblings) false (managerOf {100})).abi).result = .alreadyHooked := by
  have hfirst : (rearm (smoothInjectors mixedSiblings) false (managerOf {100})).result = .injected := by
    decide
  refine ⟨hfirst, ?_⟩
  refine ((rearm_again (smoothInjectors mixedSiblings) false (managerOf {100})).1
    (smoothInjectors (mixedSiblings.withMaps siblingMaps)) false siblingMaps
    (.inl hfirst) ⟨?_, ?_⟩ rfl).2.2
  · decide
  · decide

end NeoZygisk.Monitor
