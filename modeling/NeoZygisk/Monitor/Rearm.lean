import NeoZygisk.Monitor.Handler
import Mathlib.Data.Finset.Lattice.Lemmas
import Mathlib.Data.Finset.Insert
import Mathlib.Data.Finset.Filter

/-!
# Rearming a running system

`rearm` looks for running zygotes of its ABI and attaches to those that do not carry the library yet.
Each attach runs an injector and waits for it, for twenty seconds at most; the exit status says whether
the target came out hooked. Four flags are collected over the zygotes and folded into one verdict.

`Finding` says what the loop makes of one zygote, as a function of the confirmations it starts from.
Pids are distinct, so the confirmations added on the way never change what a later zygote is taken for,
and `sweep_eq` gives the loop in closed form; `rearm_result`, `rearm_zygote` and `mem_rearm_hooked` give
the rest.
-/

set_option autoImplicit false

namespace NeoZygisk.Monitor

/-! ## The process table -/

/-- A process as `/proc` shows it. Where a file cannot be read the fields have the values the readers
return then: `-1` for a pid, no arguments, an empty name, no mappings. -/
structure Process where
  pid : Pid
  exe : String
  ppid : Int
  cmdline : List String
  comm : String
  tracerPid : Int
  state : Char
  maps : List String
  deriving DecidableEq, Repr

/-- The processes in the order of `readdir`. No two have the same pid. -/
structure ProcessTable where
  procs : List Process
  nodup : (procs.map Process.pid).Nodup

/-- `find_processes_by_exe`. -/
def ProcessTable.findProcessesByExe (exe : String) (t : ProcessTable) : List Process :=
  t.procs.filter fun p => p.exe == exe

/-- The last component of a path. -/
def lastComponent (path : String) : List Char :=
  (path.toList.reverse.takeWhile fun c => c != '/').reverse

/-- `has_zygote_cmdline`. -/
def hasZygoteCmdline (p : Process) : Bool :=
  match p.cmdline with
  | [] => false
  | name :: _ =>
      "zygote".toList.isPrefixOf (lastComponent name) || p.cmdline.contains "--zygote"

/-- `has_library_mapped`. -/
def hasLibraryMapped (suffix : String) (p : Process) : Bool :=
  p.maps.any fun path => decide (suffix.toList <:+: path.toList)

/-- The library is mapped into the process. -/
def Process.mapped (p : Process) : Bool := hasLibraryMapped "libzygisk.so" p

/-- `injection_in_flight`. -/
def injectionInFlight (p : Process) : Bool :=
  if 0 < p.tracerPid then true else p.state == 'T' || p.state == 't'

/-- A process of the given program that init started and that its arguments call a zygote. -/
def Process.isZygote (programPath : String) (p : Process) : Bool :=
  p.exe == programPath && (p.ppid == 1 && hasZygoteCmdline p)

/-- The zygotes `rearm` finds. -/
def ProcessTable.zygotes (programPath : String) (t : ProcessTable) : List Process :=
  (t.findProcessesByExe programPath).filter fun p => p.ppid == 1 && hasZygoteCmdline p

/-- The `system_server` it finds: the last one, if there are several. -/
def ProcessTable.systemServer (programPath : String) (t : ProcessTable) : Option Process :=
  ((t.findProcessesByExe programPath).filter
    fun p => p.ppid != 1 && p.comm == "system_server").getLast?

theorem ProcessTable.mem_zygotes {t : ProcessTable} {programPath : String} {p : Process} :
    p ∈ t.zygotes programPath ↔ p ∈ t.procs ∧ p.isZygote programPath = true := by
  simp only [zygotes, findProcessesByExe, List.mem_filter, Process.isZygote, Bool.and_eq_true]
  exact and_assoc

theorem ProcessTable.nodup_zygotes (t : ProcessTable) (programPath : String) :
    ((t.zygotes programPath).map Process.pid).Nodup :=
  t.nodup.sublist ((List.filter_sublist.trans List.filter_sublist).map Process.pid)

/-! ## One attach -/

/-- The exit status of `tracer trace`. -/
def traceHooked : Nat := 0
def traceMappedOnly : Nat := 2

/-- One `waitpid` of `wait_bounded`. -/
inductive Poll where
  | running
  | done (status : WaitStatus)
  | failed
  deriving DecidableEq, Repr

def kStepMs : Nat := 50

def kAttachTimeoutMs : Nat := 20 * 1000

/-- The polls of `wait_bounded`, from number `i` on. -/
def pollFrom (poll : Nat → Poll) : Nat → Nat → Option WaitStatus
  | _, 0 => none
  | i, n + 1 =>
      match poll i with
      | .done status => some status
      | .failed => none
      | .running => pollFrom poll (i + 1) n

/-- `wait_bounded`; its `-1` is `none`. -/
def waitBounded (poll : Nat → Poll) (timeoutMs : Nat) : Option WaitStatus :=
  pollFrom poll 0 ((timeoutMs + (kStepMs - 1)) / kStepMs)

/-- What one call of `attach_running` meets: the injector that was forked, if any, and whether the
target has the library mapped when the call returns. -/
structure Attach where
  child : Option (Nat → Poll)
  mapped : Bool

/-- The mode flag an injector is started with. -/
inductive ModeFlag where
  | standalone
  | systemServer
  deriving DecidableEq, Repr

/-- A call of `attach_running`. -/
structure InjectorRun where
  pid : Pid
  flag : ModeFlag
  deriving DecidableEq, Repr

/-- `attach_running`. -/
def attachRunning (a : Attach) (pid : Pid) (abi : ZygoteAbi) : Bool × ZygoteAbi :=
  match a.child with
  | none => (false, abi)
  | some poll =>
      match waitBounded poll kAttachTimeoutMs with
      | none => (false, abi)
      | some (.exited code) =>
          if code = traceHooked then (true, { abi with hooked := insert pid abi.hooked })
          else (false, abi)
      | some _ => (false, abi)

/-- The injector exits with `TRACE_HOOKED` in time. -/
def Attach.hooks (a : Attach) : Bool :=
  a.child.any fun poll => waitBounded poll kAttachTimeoutMs == some (.exited traceHooked)

theorem Attach.hooks_iff {a : Attach} :
    a.hooks = true ↔
      ∃ poll, a.child = some poll ∧ waitBounded poll kAttachTimeoutMs = some (.exited traceHooked) := by
  simp only [hooks, Option.any_eq_true, beq_iff_eq]

theorem attachRunning_eq (a : Attach) (pid : Pid) (abi : ZygoteAbi) :
    attachRunning a pid abi =
      if a.hooks then (true, { abi with hooked := insert pid abi.hooked }) else (false, abi) := by
  by_cases h : a.hooks = true
  · obtain ⟨poll, hpoll, hwait⟩ := Attach.hooks_iff.mp h
    simp [attachRunning, h, hpoll, hwait]
  · rw [if_neg h]
    simp only [attachRunning]
    split
    · rfl
    · rename_i poll hpoll
      split
      · rfl
      · rename_i code hwait
        split
        · rename_i hcode
          subst hcode
          exact absurd (Attach.hooks_iff.mpr ⟨poll, hpoll, hwait⟩) h
        · rfl
      · rfl

/-! ## The sweep over the zygotes -/

/-- The state of the loop: the manager, the four flags, the injectors it ran. `restarts` are the zygotes
for which it set `zygote_needs_restart`. -/
structure Sweep where
  abi : ZygoteAbi
  armedAny : Bool
  hookedAny : Bool
  injectingAny : Bool
  zygoteNeedsRestart : Bool
  runs : List InjectorRun
  restarts : List Pid

def Sweep.start (abi : ZygoteAbi) : Sweep := ⟨abi, false, false, false, false, [], []⟩

def Sweep.restart (pid : Pid) (s : Sweep) : Sweep :=
  { s with zygoteNeedsRestart := true, restarts := s.restarts ++ [pid] }

def Sweep.ran (pid : Pid) (abi : ZygoteAbi) (s : Sweep) : Sweep :=
  { s with abi := abi, runs := s.runs ++ [⟨pid, .standalone⟩] }

/-- One round of the loop. -/
def sweepZygote (attach : Pid → Attach) (s : Sweep) (z : Process) : Sweep :=
  if injectionInFlight z then { s with injectingAny := true }
  else if !z.mapped then
    let r := attachRunning (attach z.pid) z.pid s.abi
    let s := s.ran z.pid r.2
    if r.1 then { s with armedAny := true } else s.restart z.pid
  else if z.pid ∈ s.abi.hooked then { s with hookedAny := true }
  else s.restart z.pid

/-- What the loop makes of a zygote. -/
inductive Finding where
  | inFlight
  | armed
  | failed
  | hooked
  | unhooked
  deriving DecidableEq, Repr

/-- A zygote whose injector was run. -/
def Finding.ran : Finding → Bool
  | .armed => true
  | .failed => true
  | _ => false

/-- A zygote that has to be restarted. -/
def Finding.restarts : Finding → Bool
  | .failed => true
  | .unhooked => true
  | _ => false

def finding (attach : Pid → Attach) (hooked : Finset Pid) (z : Process) : Finding :=
  if injectionInFlight z then .inFlight
  else if !z.mapped then if (attach z.pid).hooks then .armed else .failed
  else if z.pid ∈ hooked then .hooked
  else .unhooked

/-- The loop's state after zygotes of which it made the given findings. -/
def Sweep.after (found : List (Pid × Finding)) (s : Sweep) : Sweep where
  abi := { s.abi with
    hooked := s.abi.hooked ∪ ((found.filter (·.2 = .armed)).map Prod.fst).toFinset }
  armedAny := s.armedAny || found.any (·.2 = .armed)
  hookedAny := s.hookedAny || found.any (·.2 = .hooked)
  injectingAny := s.injectingAny || found.any (·.2 = .inFlight)
  zygoteNeedsRestart := s.zygoteNeedsRestart || found.any (·.2.restarts)
  runs := s.runs ++ (found.filter (·.2.ran)).map fun f => ⟨f.1, .standalone⟩
  restarts := s.restarts ++ (found.filter (·.2.restarts)).map Prod.fst

theorem Sweep.after_nil (s : Sweep) : s.after [] = s := by
  simp [after]

theorem Sweep.after_cons (f : Pid × Finding) (found : List (Pid × Finding)) (s : Sweep) :
    s.after (f :: found) = (s.after [f]).after found := by
  obtain ⟨pid, f⟩ := f
  cases f <;> simp [after, Finding.ran, Finding.restarts]

theorem sweepZygote_eq (attach : Pid → Attach) (s : Sweep) (z : Process) :
    sweepZygote attach s z = s.after [(z.pid, finding attach s.abi.hooked z)] := by
  simp only [sweepZygote, finding, attachRunning_eq]
  by_cases hflight : injectionInFlight z = true
  · simp [hflight, Sweep.after, Finding.ran, Finding.restarts]
  · by_cases hmapped : z.mapped = true
    · by_cases hhooked : z.pid ∈ s.abi.hooked
      · simp [hflight, hmapped, hhooked, Sweep.after, Finding.ran, Finding.restarts]
      · simp [hflight, hmapped, hhooked, Sweep.after, Finding.ran, Finding.restarts, Sweep.restart]
    · by_cases hooks : (attach z.pid).hooks = true
      · simp [hflight, hmapped, hooks, Sweep.after, Finding.ran, Finding.restarts, Sweep.ran]
      · simp [hflight, hmapped, hooks, Sweep.after, Finding.ran, Finding.restarts, Sweep.ran,
          Sweep.restart]

/-- A confirmation of another process does not change what a zygote is taken for. -/
theorem finding_after (attach : Pid → Attach) (s : Sweep) (z : Process) (f : Finding)
    {z' : Process} (h : z'.pid ≠ z.pid) :
    finding attach (s.after [(z.pid, f)]).abi.hooked z' = finding attach s.abi.hooked z' := by
  have hmem : z'.pid ∈ (s.after [(z.pid, f)]).abi.hooked ↔ z'.pid ∈ s.abi.hooked := by
    cases f <;> simp [Sweep.after, h]
  simp only [finding, hmem]

/-- The loop in closed form. Every zygote is taken for what the confirmations at the start say. -/
theorem sweep_eq (attach : Pid → Attach) (zs : List Process) (hnodup : (zs.map Process.pid).Nodup)
    (s : Sweep) :
    zs.foldl (sweepZygote attach) s =
      s.after (zs.map fun z => (z.pid, finding attach s.abi.hooked z)) := by
  induction zs generalizing s with
  | nil => exact s.after_nil.symm
  | cons z zs ih =>
      rw [List.map_cons, List.nodup_cons] at hnodup
      have hfound : zs.map (fun z' => (z'.pid, finding attach (sweepZygote attach s z).abi.hooked z')) =
          zs.map fun z' => (z'.pid, finding attach s.abi.hooked z') := by
        refine List.map_congr_left ?_
        intro z' hz'
        -- the later zygote has another pid
        have hne : z'.pid ≠ z.pid := by
          intro heq
          exact hnodup.1 (heq ▸ List.mem_map_of_mem hz')
        rw [sweepZygote_eq, finding_after attach s z _ hne]
      rw [List.foldl_cons, ih hnodup.2, hfound, sweepZygote_eq, List.map_cons, ← Sweep.after_cons]

/-! ## The verdict -/

/-- `RearmResult`. -/
inductive RearmResult where
  | failed
  | noZygote
  | injected
  | alreadyHooked
  | injecting
  | needsRestart
  deriving DecidableEq, Repr

/-- What one rearm meets: the processes, the fork of a daemon if one is needed, and what becomes of an
injector for each pid. -/
structure RearmOutcomes where
  table : ProcessTable
  daemonFork : Option Pid
  attach : Pid → Attach

/-- What one rearm leaves: the verdict, the manager, the calls of `attach_running` in order, the zygotes
judged to need a restart, and the flag of the module refresh if one was asked for. -/
structure Rearmed where
  result : RearmResult
  abi : ZygoteAbi
  runs : List InjectorRun
  restarts : List Pid
  refresh : Option Bool

/-- Confirmations are kept for the processes that were found. -/
def pruneHooked (server : Option Process) (zygotes : List Process) (abi : ZygoteAbi) : ZygoteAbi :=
  { abi with
    hooked := abi.hooked.filter fun pid =>
      server.any (·.pid == pid) || zygotes.any (·.pid == pid) }

/-- What the flags say about the zygote. -/
def Sweep.zygoteState (s : Sweep) : ZygoteState :=
  if s.zygoteNeedsRestart then .needsRestart
  else if s.armedAny || s.hookedAny then .injected
  else .notInjected

/-- The attach to `system_server`, only after a zygote was armed. Its failure asks for a restart. -/
def attachServer (attach : Pid → Attach) (server : Option Process) (s : Sweep) : Bool × Sweep :=
  match server with
  | none => (s.zygoteNeedsRestart, s)
  | some p =>
      if !s.armedAny then (s.zygoteNeedsRestart, s)
      else
        let r := attachRunning (attach p.pid) p.pid s.abi
        let s := { s with abi := r.2, runs := s.runs ++ [⟨p.pid, .systemServer⟩] }
        (s.zygoteNeedsRestart || !r.1, s)

def Sweep.verdict (needsRestart : Bool) (s : Sweep) : RearmResult :=
  if needsRestart then .needsRestart
  else if s.armedAny then .injected
  else if s.hookedAny || !s.injectingAny then .alreadyHooked
  else .injecting

/-- `rearm`. -/
def rearm (o : RearmOutcomes) (ignoreDisable : Bool) (abi : ZygoteAbi) : Rearmed :=
  let zygotes := o.table.zygotes abi.programPath
  let server := o.table.systemServer abi.programPath
  if zygotes.isEmpty then ⟨.noZygote, abi, [], [], none⟩
  else
    let daemon := ensureDaemonCreated o.daemonFork { abi with supported := true }
    if !daemon.1 then ⟨.failed, daemon.2, [], [], none⟩
    else
      -- a daemon that was just forked has scanned the modules already
      let daemonStarted := abi.daemonPid.isNone
      let refresh := if !daemonStarted || ignoreDisable then some ignoreDisable else none
      let s := zygotes.foldl (sweepZygote o.attach) (.start (pruneHooked server zygotes daemon.2))
      let s := { s with abi := { s.abi with zygote := s.zygoteState } }
      let r := attachServer o.attach server s
      ⟨r.2.verdict r.1, r.2.abi, r.2.runs, r.2.restarts, refresh⟩

/-! ## Rearm in closed form -/

namespace RearmOutcomes

variable (o : RearmOutcomes) (abi : ZygoteAbi)

def zygotes : List Process := o.table.zygotes abi.programPath

def server : Option Process := o.table.systemServer abi.programPath

/-- The daemon that is there when the loop starts, if there is one. -/
def daemon : Bool × ZygoteAbi := ensureDaemonCreated o.daemonFork { abi with supported := true }

/-- The confirmations the loop starts from: none if a daemon had to be started, else those of the
processes that were found. -/
def confirmed : Finset Pid := (pruneHooked (o.server abi) (o.zygotes abi) (o.daemon abi).2).hooked

/-- What the loop makes of a zygote. -/
def found (z : Process) : Finding := finding o.attach (o.confirmed abi) z

/-- Some zygote is injected by this rearm. -/
def arms : Bool := (o.zygotes abi).any (o.found abi · = .armed)

/-- Some zygote has to be restarted. -/
def restarts : Bool := (o.zygotes abi).any fun z => (o.found abi z).restarts

/-- The loop's state, with the zygote's status written. -/
def swept : Sweep :=
  let s := (Sweep.start (pruneHooked (o.server abi) (o.zygotes abi) (o.daemon abi).2)).after
    ((o.zygotes abi).map fun z => (z.pid, o.found abi z))
  { s with abi := { s.abi with zygote := s.zygoteState } }

end RearmOutcomes

section Closed

variable {o : RearmOutcomes} {abi : ZygoteAbi} (ignoreDisable : Bool)

theorem rearm_of_no_zygotes (h : o.zygotes abi = []) :
    rearm o ignoreDisable abi = ⟨.noZygote, abi, [], [], none⟩ := by
  simp only [RearmOutcomes.zygotes] at h
  simp [rearm, h]

theorem rearm_of_no_daemon (h : o.zygotes abi ≠ []) (hdaemon : (o.daemon abi).1 = false) :
    rearm o ignoreDisable abi = ⟨.failed, (o.daemon abi).2, [], [], none⟩ := by
  simp only [RearmOutcomes.zygotes] at h
  simp only [RearmOutcomes.daemon] at hdaemon ⊢
  simp [rearm, h, hdaemon]

/-- A rearm ends early without a zygote or without a daemon. -/
theorem rearm_cases (o : RearmOutcomes) (abi : ZygoteAbi) :
    (o.zygotes abi = [] ∧ rearm o ignoreDisable abi = ⟨.noZygote, abi, [], [], none⟩) ∨
      (o.zygotes abi ≠ [] ∧ (o.daemon abi).1 = false ∧
        rearm o ignoreDisable abi = ⟨.failed, (o.daemon abi).2, [], [], none⟩) ∨
      (o.zygotes abi ≠ [] ∧ (o.daemon abi).1 = true) := by
  by_cases hzs : o.zygotes abi = []
  · exact .inl ⟨hzs, rearm_of_no_zygotes ignoreDisable hzs⟩
  · cases hdaemon : (o.daemon abi).1 with
    | false => exact .inr (.inl ⟨hzs, rfl, rearm_of_no_daemon ignoreDisable hzs hdaemon⟩)
    | true => exact .inr (.inr ⟨hzs, rfl⟩)

theorem rearm_of_daemon (h : o.zygotes abi ≠ []) (hdaemon : (o.daemon abi).1 = true) :
    rearm o ignoreDisable abi =
      { result := (attachServer o.attach (o.server abi) (o.swept abi)).2.verdict
          (attachServer o.attach (o.server abi) (o.swept abi)).1
        abi := (attachServer o.attach (o.server abi) (o.swept abi)).2.abi
        runs := (attachServer o.attach (o.server abi) (o.swept abi)).2.runs
        restarts := (attachServer o.attach (o.server abi) (o.swept abi)).2.restarts
        refresh := if !abi.daemonPid.isNone || ignoreDisable then some ignoreDisable else none } := by
  have hzs : (o.table.zygotes abi.programPath).isEmpty = false := by
    simpa [RearmOutcomes.zygotes] using h
  simp only [RearmOutcomes.daemon] at hdaemon
  simp only [rearm, hzs, hdaemon, Bool.false_eq_true, if_false, Bool.not_true]
  rw [sweep_eq o.attach _ (o.table.nodup_zygotes abi.programPath)]
  rfl

end Closed

section Server

variable (attach : Pid → Attach) (server : Option Process) (s : Sweep)

/-- What the attach to `system_server` leaves alone. -/
structure Sweep.SameFlags (s s' : Sweep) : Prop where
  armedAny : s'.armedAny = s.armedAny
  hookedAny : s'.hookedAny = s.hookedAny
  injectingAny : s'.injectingAny = s.injectingAny
  restarts : s'.restarts = s.restarts
  abi : ∃ hooked, s'.abi = { s.abi with hooked := hooked }

theorem attachServer_sameFlags : s.SameFlags (attachServer attach server s).2 := by
  cases server with
  | none => exact ⟨rfl, rfl, rfl, rfl, _, rfl⟩
  | some p =>
      simp only [attachServer, attachRunning_eq]
      split
      · exact ⟨rfl, rfl, rfl, rfl, _, rfl⟩
      · split
        · exact ⟨rfl, rfl, rfl, rfl, _, rfl⟩
        · exact ⟨rfl, rfl, rfl, rfl, _, rfl⟩

theorem attachServer_needsRestart :
    (attachServer attach server s).1 =
      (s.zygoteNeedsRestart || (s.armedAny && server.any fun p => !(attach p.pid).hooks)) := by
  cases server with
  | none => simp [attachServer]
  | some p =>
      simp only [attachServer, attachRunning_eq]
      cases s.armedAny with
      | false => simp
      | true => cases hooks : (attach p.pid).hooks <;> simp [hooks]

theorem mem_hooked_attachServer {pid : Pid} :
    pid ∈ (attachServer attach server s).2.abi.hooked ↔
      pid ∈ s.abi.hooked ∨
        s.armedAny = true ∧ ∃ p, server = some p ∧ (attach p.pid).hooks = true ∧ p.pid = pid := by
  cases server with
  | none => simp [attachServer]
  | some p =>
      simp only [attachServer, attachRunning_eq]
      cases harmed : s.armedAny with
      | false => simp
      | true =>
          cases hooks : (attach p.pid).hooks with
          | true => simp [hooks, or_comm, eq_comm (a := pid)]
          | false => simp [hooks]

theorem mem_runs_attachServer {run : InjectorRun} :
    run ∈ (attachServer attach server s).2.runs ↔
      run ∈ s.runs ∨ s.armedAny = true ∧ ∃ p, server = some p ∧ run = ⟨p.pid, .systemServer⟩ := by
  cases server with
  | none => simp [attachServer]
  | some p =>
      simp only [attachServer]
      cases harmed : s.armedAny with
      | false => simp
      | true => simp

end Server

/-! ## What a rearm with a daemon leaves -/

section Working

variable {o : RearmOutcomes} {abi : ZygoteAbi} (ignoreDisable : Bool) (hzs : o.zygotes abi ≠ [])
  (hdaemon : (o.daemon abi).1 = true)

/-- The attach to `system_server` fails. -/
def RearmOutcomes.serverFails (o : RearmOutcomes) (abi : ZygoteAbi) : Bool :=
  o.arms abi && (o.server abi).any fun p => !(o.attach p.pid).hooks

theorem swept_armedAny : (o.swept abi).armedAny = o.arms abi := by
  simp [RearmOutcomes.swept, Sweep.after, Sweep.start, RearmOutcomes.arms, List.any_map,
    Function.comp_def]

theorem swept_zygoteNeedsRestart : (o.swept abi).zygoteNeedsRestart = o.restarts abi := by
  simp [RearmOutcomes.swept, Sweep.after, Sweep.start, RearmOutcomes.restarts, List.any_map,
    Function.comp_def]

include hzs hdaemon

theorem rearm_result :
    (rearm o ignoreDisable abi).result =
      if o.restarts abi || o.serverFails abi then .needsRestart
      else if o.arms abi then .injected
      else if (o.zygotes abi).any (o.found abi · = .hooked) ||
        !(o.zygotes abi).any (o.found abi · = .inFlight) then .alreadyHooked
      else .injecting := by
  obtain ⟨harmed, hhooked, hinjecting, -, -⟩ :=
    attachServer_sameFlags o.attach (o.server abi) (o.swept abi)
  rw [rearm_of_daemon ignoreDisable hzs hdaemon]
  simp only [Sweep.verdict, attachServer_needsRestart, harmed, hhooked, hinjecting, swept_armedAny,
    swept_zygoteNeedsRestart, RearmOutcomes.serverFails]
  simp [RearmOutcomes.swept, Sweep.after, Sweep.start, List.any_map, Function.comp_def]

/-- The zygote's status is written before `system_server` is looked at. -/
theorem rearm_zygote :
    (rearm o ignoreDisable abi).abi.zygote =
      if o.restarts abi then .needsRestart
      else if o.arms abi || (o.zygotes abi).any (o.found abi · = .hooked) then .injected
      else .notInjected := by
  obtain ⟨-, -, -, -, hooked, habi⟩ := attachServer_sameFlags o.attach (o.server abi) (o.swept abi)
  rw [rearm_of_daemon ignoreDisable hzs hdaemon]
  simp only [habi]
  simp [RearmOutcomes.swept, Sweep.zygoteState, Sweep.after, Sweep.start, List.any_map,
    Function.comp_def, RearmOutcomes.restarts, RearmOutcomes.arms]

theorem mem_rearm_hooked {pid : Pid} :
    pid ∈ (rearm o ignoreDisable abi).abi.hooked ↔
      pid ∈ o.confirmed abi ∨ (∃ z ∈ o.zygotes abi, o.found abi z = .armed ∧ z.pid = pid) ∨
        o.arms abi = true ∧
          ∃ p, o.server abi = some p ∧ (o.attach p.pid).hooks = true ∧ p.pid = pid := by
  rw [rearm_of_daemon ignoreDisable hzs hdaemon, mem_hooked_attachServer, swept_armedAny, ← or_assoc]
  simp [RearmOutcomes.swept, Sweep.after, Sweep.start, RearmOutcomes.confirmed, List.mem_map,
    List.mem_filter, and_assoc]

theorem mem_rearm_runs {run : InjectorRun} :
    run ∈ (rearm o ignoreDisable abi).runs ↔
      (∃ z ∈ o.zygotes abi, (o.found abi z).ran = true ∧ run = ⟨z.pid, .standalone⟩) ∨
        o.arms abi = true ∧ ∃ p, o.server abi = some p ∧ run = ⟨p.pid, .systemServer⟩ := by
  rw [rearm_of_daemon ignoreDisable hzs hdaemon, mem_runs_attachServer, swept_armedAny]
  simp [RearmOutcomes.swept, Sweep.after, Sweep.start, List.mem_map, List.mem_filter, and_assoc,
    eq_comm (a := run)]

theorem mem_rearm_restarts {pid : Pid} :
    pid ∈ (rearm o ignoreDisable abi).restarts ↔
      ∃ z ∈ o.zygotes abi, (o.found abi z).restarts = true ∧ z.pid = pid := by
  obtain ⟨-, -, -, hrestarts, -⟩ := attachServer_sameFlags o.attach (o.server abi) (o.swept abi)
  rw [rearm_of_daemon ignoreDisable hzs hdaemon]
  simp only [hrestarts]
  simp [RearmOutcomes.swept, Sweep.after, Sweep.start, List.mem_map, List.mem_filter, and_assoc]

end Working

/-! ## Zygotes are told apart by their pids -/

section Pids

variable {o : RearmOutcomes} {abi : ZygoteAbi}

theorem ProcessTable.eq_of_pid {t : ProcessTable} {p p' : Process} (hp : p ∈ t.procs)
    (hp' : p' ∈ t.procs) (h : p.pid = p'.pid) : p = p' :=
  List.inj_on_of_nodup_map t.nodup hp hp' h

theorem ProcessTable.mem_systemServer {t : ProcessTable} {programPath : String} {p : Process}
    (h : t.systemServer programPath = some p) : p ∈ t.procs ∧ p.isZygote programPath = false := by
  obtain ⟨hfound, hserver⟩ := List.mem_filter.mp (List.mem_of_getLast? h)
  refine ⟨List.mem_of_mem_filter hfound, ?_⟩
  -- a zygote is a child of init, a `system_server` is not
  have hppid : (p.ppid == 1) = false := by
    simp only [Bool.and_eq_true, bne_iff_ne] at hserver
    simpa using hserver.1
  simp [Process.isZygote, hppid]

theorem zygote_pid_ne_server {z p : Process} (hz : z ∈ o.zygotes abi) (hp : o.server abi = some p) :
    z.pid ≠ p.pid := by
  obtain ⟨hmem, hzygote⟩ := ProcessTable.mem_zygotes.mp hz
  obtain ⟨hmem', hnot⟩ := ProcessTable.mem_systemServer hp
  intro heq
  rw [ProcessTable.eq_of_pid hmem hmem' heq, hnot] at hzygote
  cases hzygote

theorem zygote_eq_of_pid {z z' : Process} (hz : z ∈ o.zygotes abi) (hz' : z' ∈ o.zygotes abi)
    (h : z.pid = z'.pid) : z = z' :=
  ProcessTable.eq_of_pid (ProcessTable.mem_zygotes.mp hz).1 (ProcessTable.mem_zygotes.mp hz').1 h

/-- A zygote is confirmed after the call if it was before or was armed by it. -/
theorem zygote_mem_rearm_hooked (ignoreDisable : Bool) (hdaemon : (o.daemon abi).1 = true)
    {z : Process} (hz : z ∈ o.zygotes abi) :
    z.pid ∈ (rearm o ignoreDisable abi).abi.hooked ↔
      z.pid ∈ o.confirmed abi ∨ o.found abi z = .armed := by
  rw [mem_rearm_hooked ignoreDisable (List.ne_nil_of_mem hz) hdaemon]
  constructor
  · rintro (h | ⟨z', hz', harmed, heq⟩ | ⟨-, p, hp, -, heq⟩)
    · exact .inl h
    · right
      rw [← zygote_eq_of_pid hz' hz heq]
      exact harmed
    · exact absurd heq.symm (zygote_pid_ne_server hz hp)
  · rintro (h | h)
    · exact .inl h
    · exact .inr (.inl ⟨z, hz, h, rfl⟩)

/-- An injector was run for a zygote if it was found bare. -/
theorem zygote_mem_rearm_runs (ignoreDisable : Bool) (hdaemon : (o.daemon abi).1 = true)
    {z : Process} (hz : z ∈ o.zygotes abi) :
    (∃ run ∈ (rearm o ignoreDisable abi).runs, run.pid = z.pid) ↔ (o.found abi z).ran = true := by
  constructor
  · rintro ⟨run, hrun, hpid⟩
    rcases (mem_rearm_runs ignoreDisable (List.ne_nil_of_mem hz) hdaemon).mp hrun with
      ⟨z', hz', hran, rfl⟩ | ⟨-, p, hp, rfl⟩
    · rw [← zygote_eq_of_pid hz' hz hpid]
      exact hran
    · exact absurd hpid.symm (zygote_pid_ne_server hz hp)
  · intro hran
    exact ⟨_, (mem_rearm_runs ignoreDisable (List.ne_nil_of_mem hz) hdaemon).mpr
      (.inl ⟨z, hz, hran, rfl⟩), rfl⟩

end Pids

end NeoZygisk.Monitor
