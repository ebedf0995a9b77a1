import NeoZygisk.Injector.ModuleCode

/-!
# Injection modes

`entry` runs in a spawned zygote, in a zygote that was already running, or in a running
`system_server`. The first two install a `HookContext`; the last one drives the module lifecycle
directly and leaves `g_hook` null. Three functions of the module API go through `g_hook` without a
look at it.

With `g_hook` set no specialization of any kind runs into a null `g_hook` or `g_ctx`, whatever the
modules do (`HookSafe` and its lemmas). Without it, `apiSafe_iff` gives the exact condition: of the
calls that the loaded modules make in the late `system_server`, in their order, none reads a member.
-/

set_option autoImplicit false

namespace NeoZygisk.Injector

open NeoZygisk.Common
open NeoZygisk.Lib.Mask

/-! ## Modes and the specializations they drive -/

/-- `TraceMode`. -/
inductive TraceMode where
  | UNKNOWN
  | SPAWN
  | STANDALONE
  | SYSTEM_SERVER
  deriving DecidableEq, Repr

/-- The specializations in which module code runs. -/
inductive Specialization where
  | forked (method : ForkMethod)
  | specializeAppProcess (a : AppSpecializeArgs)
  | lateSystemServer
  deriving DecidableEq, Repr

/-- The hooked `nativeSpecializeAppProcess`. -/
def hookedSpecialize (env : Env) (a : AppSpecializeArgs) (p : Proc) : Proc :=
  ((nativeSpecializeAppProcessPre env a (p.setCtx (newContext env (.app a)))).next
    (nativeSpecializeAppProcessPost env)).next destroyContext

/-- The context `run_system_server_hooks` builds on its stack. -/
def lateContext (env : Env) : ZygiskContext :=
  { newContext env .server with flags := 0#32 ||| SERVER_FORK_AND_SPECIALIZE }

/-- The module lifecycle of `run_system_server_hooks`, from pre to post. -/
def lateLifecycle (env : Env) (p : Proc) : Proc :=
  ((serverSpecializePre env p).next (·.emit .cacheMountNamespace)).next (serverSpecializePost env)

/-- `run_system_server_hooks`, once it has a `JNIEnv`. -/
def runSystemServerHooks (env : Env) (p : Proc) : Proc :=
  (lateLifecycle env (p.setCtx (lateContext env))).next destroyContext

def Specialization.run (env : Env) : Specialization → Proc → Proc
  | .forked method => hookedFork env method
  | .specializeAppProcess a => hookedSpecialize env a
  | .lateSystemServer => runSystemServerHooks env

/-- `entry` up to the specializations: without an answer from the daemon nothing is installed, and
`SYSTEM_SERVER` installs no hooks. -/
def entry (mode : TraceMode) (pingHeartbeat : Bool) (maps : List MapInfo) (p : Proc) : Proc :=
  if pingHeartbeat then
    match mode with
    | .SYSTEM_SERVER => p
    | _ => p.setHook ⟨maps, false, false, false, []⟩
  else p

/-- The specializations that happen in a process injected in a mode. -/
def TraceMode.drives : TraceMode → Specialization → Bool
  | .SYSTEM_SERVER, .lateSystemServer => true
  | .SYSTEM_SERVER, _ => false
  | _, .lateSystemServer => false
  | _, _ => true

/-- A process injected in a mode, before a specialization. -/
structure InMode (mode : TraceMode) (p : Proc) : Prop where
  hook : p.gHook.isSome = decide (mode ≠ .SYSTEM_SERVER)
  fault : p.fault = none

/-- This is how `entry` leaves a process that had no hooks. -/
theorem entry_inMode (mode : TraceMode) (maps : List MapInfo) {p : Proc} (hhook : p.gHook = none)
    (hfault : p.fault = none) : InMode mode (entry mode true maps p) := by
  cases mode with
  | SYSTEM_SERVER => exact ⟨by simp [entry, hhook], hfault⟩
  | UNKNOWN => exact ⟨rfl, hfault⟩
  | SPAWN => exact ⟨rfl, hfault⟩
  | STANDALONE => exact ⟨rfl, hfault⟩

/-! ## With `g_hook` set -/

/-- No null `g_hook` or `g_ctx` was dereferenced. -/
structure NoNull (p : Proc) : Prop where
  hook : p.fault ≠ some .nullHook
  ctx : p.fault ≠ some .nullCtx

/-- The invariant of every process with hooks. -/
structure HookSafe (p : Proc) : Prop where
  hook : p.gHook.isSome = true
  noNull : NoNull p

theorem NoNull.of_fault_none {p : Proc} (h : p.fault = none) : NoNull p :=
  ⟨by simp [h], by simp [h]⟩

/-- The invariant only reads the hooks and the fault. -/
theorem HookSafe.congr {p p' : Proc} (hp : HookSafe p)
    (hhook : p'.gHook.isSome = p.gHook.isSome) (hfault : p'.fault = p.fault) : HookSafe p' :=
  ⟨hhook.trans hp.hook, hfault ▸ hp.noNull.hook, hfault ▸ hp.noNull.ctx⟩

theorem HookSafe.frame {p p' : Proc} (hp : HookSafe p) (h : Frame p p') : HookSafe p' := by
  rcases h.fault with hf | ⟨hn, -⟩
  · exact hp.congr (congrArg Option.isSome h.hook) hf
  · -- module code only faults on a null `g_hook`
    exact absurd hp.hook (by simp [hn])

theorem HookSafe.setCtx {p : Proc} (hp : HookSafe p) (c : ZygiskContext) : HookSafe (p.setCtx c) :=
  hp.congr rfl rfl

theorem HookSafe.emit {p : Proc} (hp : HookSafe p) (e : Event) : HookSafe (p.emit e) :=
  hp.congr rfl rfl

theorem HookSafe.next {p : Proc} {f : Proc → Proc} (hp : HookSafe p)
    (hf : HookSafe p → HookSafe (f p)) : HookSafe (p.next f) := by
  simp only [Proc.next]
  split
  · exact hp
  · exact hf hp

theorem HookSafe.withCtx {p : Proc} {f : ZygiskContext → Proc} (hp : HookSafe p)
    (hf : ∀ c, HookSafe (f c)) : HookSafe (withCtx p f) := by
  simp only [Injector.withCtx]
  split
  · exact hp
  · exact hf _

/-- A module registered wrongly ends the process, but not through `g_hook` or `g_ctx`. -/
theorem HookSafe.round (env : Env) (ph : Phase) (m : ZygiskModule) {p : Proc} (hp : HookSafe p) :
    HookSafe (ph.round env m p).2 := by
  have hinvoke : ∀ callback code, HookSafe (invoke env callback code m p).2 := by
    intro callback code
    cases code with
    | none => exact ⟨hp.hook, by simp [invoke, Proc.crash], by simp [invoke, Proc.crash]⟩
    | some as => exact (hp.emit _).frame (runActions_frame env as m _)
  have hcrash : HookSafe (p.crash .nullMod) := ⟨hp.hook, by simp [Proc.crash], by simp [Proc.crash]⟩
  simp only [Phase.round, dispatch, callApp, callServer]
  split
  · split
    · exact hcrash
    · split
      · exact hinvoke _ _
      · exact hp
  · split
    · split
      · exact hcrash
      · exact hinvoke _ _
    · exact hp

theorem HookSafe.eachModule {body : ZygiskModule → Proc → ZygiskModule × Proc}
    (hbody : ∀ m q, HookSafe q → HookSafe (body m q).2) (ms : List ZygiskModule) {p : Proc}
    (hp : HookSafe p) : HookSafe (eachModule body ms p).2 := by
  induction ms generalizing p with
  | nil => exact hp
  | cons m ms ih =>
      simp only [Injector.eachModule]
      split
      · exact hp
      · exact ih (hbody m p hp)

theorem HookSafe.runModulesPre (env : Env) {p : Proc} (hp : HookSafe p) :
    HookSafe (runModulesPre env p) := by
  have hloads : HookSafe { p with log := p.log ++ loadEvents (readModules env) } :=
    hp.congr rfl rfl
  have hpre : ∀ m q, HookSafe q → HookSafe (preModule env m q).2 := by
    intro m q hq
    have hentry := hq.frame (onLoad_frame env m.entry m q)
    simp only [preModule]
    split
    · exact hentry
    · exact hentry.round env .pre _
  have hloop : HookSafe (preLoop env p).2 := hloads.eachModule hpre _
  exact hloop.congr rfl rfl

theorem HookSafe.runModulesPost (env : Env) {p : Proc} (hp : HookSafe p) :
    HookSafe (runModulesPost env p) := by
  have hmark : HookSafe (markPost p) := hp.congr rfl rfl
  have hloop : HookSafe (postLoop env (markPost p)).2 :=
    hmark.eachModule (fun m q hq => hq.round env .post m) _
  have hset : HookSafe (setModules (postLoop env (markPost p)).1 (postLoop env (markPost p)).2) :=
    hloop.congr rfl rfl
  apply hset.next
  intro hset
  refine hset.congr ?_ (unloadModules_fault _ _)
  -- unloading rewrites a flag of `g_hook`, it never clears the pointer
  simp only [unloadModules]
  split
  · rename_i h hh
    split
    · rw [hh]
      rfl
    · rfl
  · rfl

theorem HookSafe.sanitizeFds (env : Env) {p : Proc} (hp : HookSafe p) :
    HookSafe (sanitizeFds env p) := by
  rw [Injector.sanitizeFds]
  apply hp.withCtx
  intro c
  split
  · dsimp only
    split
    · exact (hp.setCtx _).frame (closeAll_frame _ _)
    · exact hp.setCtx _
  · exact hp

theorem HookSafe.forkThen (env : Env) {specialize : Proc → Proc}
    (hspec : ∀ q, HookSafe q → HookSafe (specialize q)) {p : Proc} (hp : HookSafe p) :
    HookSafe (forkThen env specialize p) := by
  have hrecord : ∀ q, HookSafe q → HookSafe (recordFds q) := by
    intro q hq
    simp only [recordFds]
    apply hq.withCtx
    intro c
    exact (hq.setCtx _).frame (closeAll_frame _ _)
  have hfork : HookSafe (forkPre env p) := by
    rw [forkPre]
    apply hp.withCtx
    intro c
    dsimp only
    split
    · exact hrecord _ ((hp.emit _).setCtx _)
    · exact (hp.emit _).setCtx _
  refine HookSafe.next ?_ fun h => h.sanitizeFds env
  apply hfork.withCtx
  intro c
  split
  · exact hspec _ hfork
  · exact hfork

theorem HookSafe.appSpecializePre (env : Env) (a : AppSpecializeArgs) {p : Proc}
    (hp : HookSafe p) : HookSafe (appSpecializePre env a p) := by
  rw [Injector.appSpecializePre]
  apply hp.withCtx
  intro c
  dsimp only
  split
  · exact hp.setCtx _
  · exact (hp.setCtx _).runModulesPre env

theorem HookSafe.serverSpecializePre (env : Env) {p : Proc} (hp : HookSafe p) :
    HookSafe (serverSpecializePre env p) :=
  (hp.runModulesPre env).next fun h => h.emit _

theorem HookSafe.derefHook {p : Proc} {f : HookContext → Proc} (hp : HookSafe p)
    (hf : ∀ h, HookSafe (f h)) : HookSafe (p.derefHook f) := by
  obtain ⟨h, hh⟩ := Option.isSome_iff_exists.mp hp.hook
  rw [derefHook_some hh]
  exact hf h

theorem HookSafe.pre (env : Env) (method : ForkMethod) {p : Proc} (hp : HookSafe p) :
    HookSafe (method.pre env p) := by
  cases method with
  | forkAndSpecialize a =>
      have hstart : HookSafe (forkAndSpecializeStart env a p) := by
        simp only [forkAndSpecializeStart]
        apply hp.withCtx
        intro c
        apply (hp.setCtx _).derefHook
        intro h
        exact ⟨rfl, hp.noNull.hook, hp.noNull.ctx⟩
      exact hstart.next fun h => h.forkThen env fun q hq => hq.appSpecializePre env a
  | forkSystemServer =>
      simp only [ForkMethod.pre, nativeForkSystemServerPre]
      apply hp.withCtx
      intro c
      apply (hp.setCtx _).derefHook
      intro h
      refine (hp.setCtx _).forkThen env fun q hq => ?_
      exact (hq.serverSpecializePre env).next fun h => h.emit _

theorem HookSafe.post (env : Env) (method : ForkMethod) {p : Proc} (hp : HookSafe p) :
    HookSafe (method.post env p) := by
  have hpost : HookSafe (forkPost (Injector.runModulesPost env) p) := by
    simp only [forkPost]
    apply hp.withCtx
    intro c
    split
    · exact hp.runModulesPost env
    · exact hp
  cases method with
  | forkAndSpecialize a => exact hpost
  | forkSystemServer => exact hpost

theorem HookSafe.destroyContext {p : Proc} (hp : HookSafe p) : HookSafe (destroyContext p) := by
  simp only [Injector.destroyContext]
  split
  · exact hp
  · split
    · split
      · exact hp.congr rfl rfl
      · exact ⟨rfl, hp.noNull.hook, hp.noNull.ctx⟩
    · exact hp.congr rfl rfl

/-- A zygote keeps its hooks and never runs into a null global, whatever the modules do. -/
theorem HookSafe.hookedFork (env : Env) (method : ForkMethod) {p : Proc} (hp : HookSafe p) :
    HookSafe (hookedFork env method p) := by
  have hpre := (hp.setCtx (newContext env method.args)).pre env method
  have hnew : ∀ q, HookSafe q → HookSafe (newFork env q).2 := by
    intro q hq
    simp only [newFork]
    split
    · split
      · exact hq
      · exact hq.emit _
    · exact hq.emit _
  exact ((hpre.next fun h => hnew _ h).next fun h => h.post env method).next
    fun h => h.destroyContext

theorem HookSafe.hookedSpecialize (env : Env) (a : AppSpecializeArgs) {p : Proc}
    (hp : HookSafe p) : HookSafe (hookedSpecialize env a p) := by
  have hctx := hp.setCtx (newContext env (.app a))
  have hpre : HookSafe (nativeSpecializeAppProcessPre env a (p.setCtx (newContext env (.app a)))) := by
    simp only [nativeSpecializeAppProcessPre]
    apply hctx.withCtx
    intro c
    exact (hctx.setCtx _).appSpecializePre env a
  exact (hpre.next fun h => h.runModulesPost env).next fun h => h.destroyContext

/-! ## Without it -/

theorem destroyContext_fault (p : Proc) : (destroyContext p).fault = p.fault := by
  simp only [destroyContext]
  split
  · rfl
  · split
    · split <;> rfl
    · rfl

@[simp] theorem pending_setModules (ms : List ZygiskModule) (p : Proc) :
    pending (setModules ms p) = pending p := by
  cases hc : p.gCtx <;> simp [pending, setModules, hc]

@[simp] theorem pending_markPost (p : Proc) : pending (markPost p) = pending p := by
  cases hc : p.gCtx <;> simp [pending, markPost, hc]

@[simp] theorem pending_unloadModules (ms : List ZygiskModule) (p : Proc) :
    pending (unloadModules ms p) = pending p := by
  simp only [unloadModules]
  split
  · split <;> rfl
  · rfl

theorem pending_runModulesPost (env : Env) (p : Proc) :
    pending (runModulesPost env p) = pending (postLoop env (markPost p)).2 := by
  simp only [runModulesPost, Proc.next]
  split
  · exact pending_setModules _ _
  · rw [pending_unloadModules, pending_setModules]

/-- The late lifecycle between its two loops. -/
theorem lateLifecycle_of_pre (env : Env) {flags : Flags} {p : Proc}
    (hpre : Running none flags (preLoop env p).2) :
    ∃ q, lateLifecycle env p = runModulesPost env q ∧ Running none flags q ∧
      ((markPost q).gCtx.map (·.modules)).getD [] = (preLoop env p).1 ∧
      pending q = pending (preLoop env p).2 := by
  have hset : Running none flags (runModulesPre env p) := setModules_running hpre _
  refine ⟨((runModulesPre env p).emit .systemServerStarted).emit .cacheMountNamespace, ?_, ?_, ?_,
    pending_setModules _ _⟩
  · rw [lateLifecycle, serverSpecializePre, next_of_fault_none hset.fault,
      next_of_fault_none (show ((runModulesPre env p).emit _).fault = none from hset.fault),
      next_of_fault_none
        (show (((runModulesPre env p).emit _).emit _).fault = none from hset.fault)]
    rfl
  · exact ⟨hset.fault, hset.hook, hset.ctx, hset.app, hset.server⟩
  · exact modules_markPost_setModules hpre.ctx _

/-- The late lifecycle executes the calls of the loaded modules. -/
theorem lateLifecycle_executes (env : Env) {flags : Flags} {p : Proc} (hp : Running none flags p)
    (hvalid : ∀ m ∈ loadedModules (readModules env), valid (afterEntry m) = true) :
    Executes env (moduleCode env flags) p (lateLifecycle env p) := by
  obtain ⟨hexec, hR⟩ := preLoop_executes env hp hvalid
  refine hexec.trans (fun h => ?_) fun h => ?_
  · -- nothing runs after a crash in the first loop
    have hpre : (runModulesPre env p).fault = some .nullHook := h
    have hsome : (runModulesPre env p).fault.isSome = true := by simp [hpre]
    simp only [lateLifecycle, serverSpecializePre, Proc.next, hsome, if_true]
    exact hpre
  · have hpre := (loadEvents_running hp (readModules env)).frame (preLoop_loopFrame env p) h
    obtain ⟨q, hq, hrun, hms, hpending⟩ := lateLifecycle_of_pre env hpre
    have hpost := postLoop_executes env (markPost_running hrun) hms (hR h) hvalid
    rw [hq]
    exact hpost.congr ((hpending.symm).trans (pending_markPost q).symm) (pending_runModulesPost env q)
      (runModulesPost_fault env q)

/-- In every mode and for every specialization it drives, modules with valid tables run into no null
`g_hook` or `g_ctx`, unless the mode is `SYSTEM_SERVER` and some call of theirs reads `g_hook`: a
`hookJniNativeMethods` that finds a method to replace, a `pltHookCommit` with a pattern registered, or
one on which lsplt reads the maps. -/
theorem apiSafe_iff (env : Env) (mode : TraceMode) (s : Specialization) (p : Proc)
    (hmode : mode.drives s = true) (hp : InMode mode p)
    (hvalid : ∀ m ∈ loadedModules (readModules env), valid (afterEntry m) = true) :
    NoNull (s.run env p) ↔
      (mode = .SYSTEM_SERVER →
        codeReads env (moduleCode env SERVER_FORK_AND_SPECIALIZE) ⟨false, p.pltHooks⟩ = false) := by
  by_cases hm : mode = .SYSTEM_SERVER
  · -- the one mode without hooks drives the late `system_server` only
    subst hm
    have hs : s = .lateSystemServer := by
      cases s with
      | lateSystemServer => rfl
      | forked method => cases hmode
      | specializeAppProcess a => cases hmode
    subst hs
    have hnone : p.gHook = none := by simpa using hp.hook
    have hrun : Running none SERVER_FORK_AND_SPECIALIZE (p.setCtx (lateContext env)) :=
      ⟨hp.fault, hnone, rfl, rfl, rfl⟩
    have hfault : (runSystemServerHooks env p).fault =
        (lateLifecycle env (p.setCtx (lateContext env))).fault := by
      simp only [runSystemServerHooks, Proc.next]
      split
      · rfl
      · exact destroyContext_fault _
    -- the context is new, so no pattern is registered when the first call is made
    have hexec := lateLifecycle_executes env hrun hvalid
    have hpending : pending (p.setCtx (lateContext env)) = ⟨false, p.pltHooks⟩ := rfl
    constructor
    · intro hsafe _
      cases hreads : codeReads env (moduleCode env SERVER_FORK_AND_SPECIALIZE) ⟨false, p.pltHooks⟩ with
      | false => rfl
      | true => exact absurd (hfault.trans (hexec.dies (hpending ▸ hreads))) hsafe.hook
    · intro hreads
      exact .of_fault_none (hfault.trans (hexec.returns (hpending ▸ hreads rfl)).1)
  · -- in every other mode the hooks are there and stay
    have hsafe : HookSafe p :=
      ⟨by simpa [hm] using hp.hook, .of_fault_none hp.fault⟩
    refine ⟨fun _ h => absurd h hm, fun _ => ?_⟩
    cases s with
    | forked method => exact (hsafe.hookedFork env method).noNull
    | specializeAppProcess a => exact (hsafe.hookedSpecialize env a).noNull
    | lateSystemServer =>
        cases mode with
        | SYSTEM_SERVER => exact absurd rfl hm
        | UNKNOWN => cases hmode
        | SPAWN => cases hmode
        | STANDALONE => cases hmode

/-- A module of version 5 that registers a PLT hook and commits it in its server callback. -/
def committingModule : ServedModule where
  name := "zn_plt"
  library := some ⟨some [.registerModule (some { emptyAbi 5 with
    preServerSpecialize := some [
      .api .pltHookRegister { symbol := some "fork", fn := true, dev := 0xfe00, inode := 1287 },
      .api .pltHookCommit {}] })], true⟩

/-- A `system_server` the injector has just entered. -/
def lateServer : Proc := ⟨none, none, [], [], none, []⟩

/-- In a hooked zygote the module may commit. -/
theorem committing_safe_in_zygote :
    NoNull ((Specialization.forked .forkSystemServer).run (plainEnv [committingModule])
      freshZygote) :=
  (apiSafe_iff (plainEnv [committingModule]) .SPAWN (.forked .forkSystemServer) freshZygote rfl
    ⟨rfl, rfl⟩ (by decide)).mpr (by decide)

/-- In a late `system_server` it crashes the process. -/
theorem committing_crashes_late_server :
    ¬ NoNull (Specialization.lateSystemServer.run (plainEnv [committingModule])
      (entry .SYSTEM_SERVER true [] lateServer)) :=
  fun h => h.hook (by decide)

end NeoZygisk.Injector
