import NeoZygisk.Injector.Dispatch

/-!
# The hooked native methods

The pre and post hooks of the three specialization methods, from the `ZygiskContext` constructor to
its destructor. One field, `pid`, says whether the process has not forked yet, failed to fork, or is
the child; `isChild` tests `pid <= 0` and `newFork` tests `pid >= 0`.

`zygoteUntouched_iff` follows a zygote through a whole hooked call: the process stays the zygote
(no module loaded, no descriptor closed, hooks kept, no second fork) exactly when the fork of the pre
hook did not fail. `flagsInForce_history_iff` compares the flags a specialization works with under two
fork histories.
-/

set_option autoImplicit false

namespace NeoZygisk.Injector

open NeoZygisk.Common
open NeoZygisk.Unmount
open NeoZygisk.Lib.Mask

/-! ## Forking -/

/-- `is_child`. -/
def isChild (c : ZygiskContext) : Bool := decide (c.pid ≤ 0)

/-- A method of the `ZygiskContext` of the running specialization. -/
def withCtx (p : Proc) (f : ZygiskContext → Proc) : Proc :=
  match p.gCtx with
  | none => p
  | some c => f c

/-- The real `fork`; the environment answers by the number of earlier calls. -/
def oldFork (env : Env) (p : Proc) : Int × Proc :=
  (env.oldFork (p.log.count .oldFork), p.emit .oldFork)

/-- `new_fork`: the cached result of the pre hook, if there is one. -/
def newFork (env : Env) (p : Proc) : Int × Proc :=
  match p.gCtx with
  | some c => if 0 ≤ c.pid then (c.pid, p) else oldFork env p
  | none => oldFork env p

def closeAll (fds : List Nat) (p : Proc) : Proc := fds.foldl Proc.close p

/-- The second part of `fork_pre`: every open descriptor is recorded, those beyond the vector are
closed. The descriptor of the directory itself is neither. -/
def recordFds (p : Proc) : Proc :=
  withCtx p fun c =>
    closeAll ((p.fds.filter fun fd => decide (c.fdMax ≤ fd.num)).map (·.num))
      (p.setCtx { c with
        allowedFds := c.allowedFds ++
          (p.fds.filter fun fd => decide (fd.num < c.fdMax)).map (·.num) })

/-- `fork_pre`; blocking `SIGCHLD` is left out. -/
def forkPre (env : Env) (p : Proc) : Proc :=
  withCtx p fun c =>
    let r := oldFork env p
    let c := { c with pid := r.1 }
    if isChild c then recordFds (r.2.setCtx c) else r.2.setCtx c

/-! ## Descriptors -/

/-- `kAllowedFdTargets`. -/
def kAllowedFdTargets : List String :=
  ["/dev/null",
    "/sys/kernel/debug/tracing/trace_marker",
    "/sys/kernel/tracing/trace_marker",
    "/system/framework/framework-res.apk",
    "/dev/urandom",
    "/dev/ion",
    "/dev/dri/renderD129",
    "/dev/stune/foreground/tasks",
    "/dev/blkio/tasks",
    "/metadata/aconfig/maps/system.package.map",
    "/metadata/aconfig/maps/system.flag.map",
    "/metadata/aconfig/boot/system.val"]

/-- `is_allowed_fd_target`. A target longer than the buffer of `sanitize_fds` arrives truncated and
matches nothing, as it does in full: every allowed target is shorter. -/
def isAllowedFdTarget (target : String) : Bool := kAllowedFdTargets.contains target

/-- The numbers of an `int` array that have a bit in `allowed_fds`. -/
def vectorBits (c : ZygiskContext) (fds : List Int) : List Nat :=
  (fds.filter fun fd => decide (0 ≤ fd ∧ fd.toNat < c.fdMax)).map Int.toNat

/-- `update_fd_array`, with the entries `old` of the array it replaces. -/
def updateFdArray (env : Env) (a : AppSpecializeArgs) (old : List Int) (c : ZygiskContext) :
    ZygiskContext :=
  if env.newIntArray then
    { c with
      args := .app { a with fdsToIgnore := some (some (old ++ c.exemptedFds)) }
      allowedFds := c.allowedFds ++ vectorBits c c.exemptedFds }
  else c

/-- The first part of `sanitize_fds`: ignored and exempted descriptors become allowed. -/
def allowExempted (env : Env) (c : ZygiskContext) : ZygiskContext :=
  if canExemptFd c && !c.exemptedFds.isEmpty then
    match c.args with
    | .app a =>
        match a.fdsToIgnore with
        | some (some arr) =>
            updateFdArray env a arr { c with allowedFds := c.allowedFds ++ vectorBits c arr }
        | some none => updateFdArray env a [] c
        | none => c
    | .server => c
  else c

/-- A descriptor that `sanitize_fds` leaves open. -/
def keepsFd (c : ZygiskContext) (fd : Fd) : Bool :=
  decide (fd.num < c.fdMax) && c.allowedFds.contains fd.num || isAllowedFdTarget fd.target

def sanitizeFds (env : Env) (p : Proc) : Proc :=
  withCtx p fun c =>
    if isChild c then
      let c := allowExempted env c
      if env.openDir then
        closeAll ((p.fds.filter fun fd => !keepsFd c fd).map (·.num)) (p.setCtx c)
      else p.setCtx c
    else p

/-! ## Specialization -/

def AID_ISOLATED_START : Uid := 90000#32
def AID_ISOLATED_END : Uid := 99999#32

def isIsolated (uid : Uid) : Bool := decide (AID_ISOLATED_START ≤ uid ∧ uid ≤ AID_ISOLATED_END)

/-- The uid `app_specialize_pre` asks about: an isolated service is looked up under the owner of its
data directory. -/
def effectiveUid (env : Env) (a : AppSpecializeArgs) : Uid :=
  if isIsolated a.uid then (a.appDataDir.bind env.stat).getD a.uid else a.uid

/-- `zygiskd::GetProcessFlags`. -/
def getProcessFlags (env : Env) (place : DaemonCall) (uid : Uid) : Flags :=
  if env.reachable place then env.processFlags uid else 0#32

/-- The fields `app_specialize_pre` settles before it runs the modules. -/
def settleFlags (env : Env) (a : AppSpecializeArgs) (skipZygiskd : Bool) (c : ZygiskContext) :
    ZygiskContext :=
  let infoFlags :=
    if !skipZygiskd && c.infoFlags == 0#32 then
      getProcessFlags env .specializeFlags (effectiveUid env a)
    else c.infoFlags
  let denylist := if infoFlags &&& UNMOUNT_MASK == UNMOUNT_MASK then DO_REVERT_UNMOUNT else 0#32
  let webview := if c.process == some "webview_zygote" then DO_REVERT_UNMOUNT else 0#32
  { c with infoFlags := infoFlags, flags := c.flags ||| denylist ||| webview ||| APP_SPECIALIZE }

/-- `app_specialize_pre`. -/
def appSpecializePre (env : Env) (a : AppSpecializeArgs) (p : Proc) : Proc :=
  withCtx p fun c =>
    let skipZygiskd := isIsolated a.uid && !env.reachable .isolatedProbe
    let p := p.setCtx (settleFlags env a skipZygiskd c)
    if skipZygiskd then p else runModulesPre env p

/-- `app_specialize_post`; exporting `ZYGISK_ENABLED` to the manager is left out. -/
def appSpecializePost (env : Env) : Proc → Proc := runModulesPost env

/-- `server_specialize_pre`. -/
def serverSpecializePre (env : Env) (p : Proc) : Proc :=
  (runModulesPre env p).next (·.emit .systemServerStarted)

def serverSpecializePost (env : Env) : Proc → Proc := runModulesPost env

/-! ## Hooks -/

/-- The direct unmount in `nativeForkAndSpecialize_pre`: only while nothing was unmounted and no
trace is left over. The flags are fetched for the given uid. -/
def directUnmount (env : Env) (a : AppSpecializeArgs) (h : HookContext) (c : ZygiskContext) :
    HookContext × ZygiskContext :=
  if !h.zygoteUnmounted && h.zygoteTraces.isEmpty then
    let infoFlags := getProcessFlags env .forkFlags a.uid
    let traces := checkZygoteTraces infoFlags env.mountInfos
    let h :=
      if abortZygoteUnmount traces infoFlags then { h with zygoteTraces := traces }
      else
        { h with
          zygoteTraces := traces.filter fun trace => !env.umount2 trace
          zygoteUnmounted := true }
    (h, { c with infoFlags := infoFlags })
  else (h, c)

/-- The start of `nativeForkAndSpecialize_pre`, before the fork. -/
def forkAndSpecializeStart (env : Env) (a : AppSpecializeArgs) (p : Proc) : Proc :=
  withCtx p fun c =>
    let c := { c with process := some a.niceName, flags := c.flags ||| APP_FORK_AND_SPECIALIZE }
    (p.setCtx c).derefHook fun h =>
      (p.setHook (directUnmount env a h c).1).setCtx (directUnmount env a h c).2

/-- What both fork hooks do from `fork_pre` on; `specialize` runs in the child. -/
def forkThen (env : Env) (specialize : Proc → Proc) (p : Proc) : Proc :=
  let p := forkPre env p
  let p := withCtx p fun c => if isChild c then specialize p else p
  p.next (sanitizeFds env)

def nativeForkAndSpecializePre (env : Env) (a : AppSpecializeArgs) (p : Proc) : Proc :=
  (forkAndSpecializeStart env a p).next (forkThen env (appSpecializePre env a))

/-- The end of both fork hooks; unblocking `SIGCHLD` is left out. -/
def forkPost (specialize : Proc → Proc) (p : Proc) : Proc :=
  withCtx p fun c => if isChild c then specialize p else p

def nativeForkAndSpecializePost (env : Env) : Proc → Proc := forkPost (appSpecializePost env)

/-- Scrubbing the mount fossil off the stack is left out; the loop over the maps reads `g_hook`. -/
def nativeForkSystemServerPre (env : Env) (p : Proc) : Proc :=
  withCtx p fun c =>
    let p := p.setCtx { c with flags := c.flags ||| SERVER_FORK_AND_SPECIALIZE }
    p.derefHook fun _ =>
      forkThen env (fun p => (serverSpecializePre env p).next (·.emit .cacheMountNamespace)) p

def nativeForkSystemServerPost (env : Env) : Proc → Proc := forkPost (serverSpecializePost env)

def nativeSpecializeAppProcessPre (env : Env) (a : AppSpecializeArgs) (p : Proc) : Proc :=
  withCtx p fun c =>
    appSpecializePre env a
      (p.setCtx { c with process := some a.niceName, flags := c.flags ||| SKIP_CLOSE_LOG_PIPE })

def nativeSpecializeAppProcessPost (env : Env) : Proc → Proc := appSpecializePost env

/-- The `ZygiskContext` destructor. -/
def destroyContext (p : Proc) : Proc :=
  match p.gCtx with
  | none => p
  | some c =>
      let p := { p with gCtx := none }
      if isChild c then
        match p.gHook with
        | none => p
        | some h => (p.setHook { h with shouldUnmap := true }).emit .restoreZygoteHook
      else p

/-- The two methods that fork. -/
inductive ForkMethod where
  | forkAndSpecialize (a : AppSpecializeArgs)
  | forkSystemServer
  deriving DecidableEq, Repr

def ForkMethod.args : ForkMethod → SpecializeArgs
  | .forkAndSpecialize a => .app a
  | .forkSystemServer => .server

def ForkMethod.pre (env : Env) : ForkMethod → Proc → Proc
  | .forkAndSpecialize a => nativeForkAndSpecializePre env a
  | .forkSystemServer => nativeForkSystemServerPre env

def ForkMethod.post (env : Env) : ForkMethod → Proc → Proc
  | .forkAndSpecialize _ => nativeForkAndSpecializePost env
  | .forkSystemServer => nativeForkSystemServerPost env

/-- A hooked call: constructor, pre hook, original method (which calls `fork` once), post hook,
destructor. -/
def hookedFork (env : Env) (method : ForkMethod) (p : Proc) : Proc :=
  ((((method.pre env (p.setCtx (newContext env method.args))).next fun p =>
    (newFork env p).2).next (method.post env))).next destroyContext

/-! ## Logs only grow -/

theorem withCtx_some {p : Proc} {c : ZygiskContext} (h : p.gCtx = some c)
    (f : ZygiskContext → Proc) : withCtx p f = f c := by
  rw [withCtx, h]

theorem derefHook_some {p : Proc} {h : HookContext} (hp : p.gHook = some h)
    (f : HookContext → Proc) : p.derefHook f = f h := by
  rw [Proc.derefHook, hp]

theorem next_of_fault_none {p : Proc} (h : p.fault = none) (f : Proc → Proc) : p.next f = f p := by
  rw [Proc.next, if_neg (by simp [h])]

theorem next_log {p : Proc} {f : Proc → Proc} (h : p.log <+: (f p).log) :
    p.log <+: (p.next f).log := by
  simp only [Proc.next]
  split
  · exact List.prefix_refl _
  · exact h

theorem closeAll_frame (fds : List Nat) (p : Proc) : Frame p (closeAll fds p) := by
  induction fds generalizing p with
  | nil => exact .refl p
  | cons fd fds ih => exact (close_frame p fd).trans (ih _)

@[simp] theorem closeAll_gCtx (fds : List Nat) (p : Proc) : (closeAll fds p).gCtx = p.gCtx := by
  induction fds generalizing p with
  | nil => rfl
  | cons fd fds ih =>
      refine (ih _).trans ?_
      simp only [Proc.close]
      split <;> rfl

@[simp] theorem closeAll_fault (fds : List Nat) (p : Proc) : (closeAll fds p).fault = p.fault := by
  induction fds generalizing p with
  | nil => rfl
  | cons fd fds ih =>
      refine (ih _).trans ?_
      simp only [Proc.close]
      split <;> rfl

theorem runModulesPost_logGrows (env : Env) (p : Proc) : p.log <+: (runModulesPost env p).log := by
  rw [runModulesPost_log]
  exact (eachModule_loopFrame (round_loopFrame env .post) _ (markPost p)).log

theorem forkPost_logGrows (env : Env) (p : Proc) : p.log <+: (forkPost (runModulesPost env) p).log := by
  simp only [forkPost, withCtx]
  split
  · exact List.prefix_refl _
  · split
    · exact runModulesPost_logGrows env p
    · exact List.prefix_refl _

theorem post_logGrows (env : Env) (method : ForkMethod) (p : Proc) :
    p.log <+: (method.post env p).log := by
  cases method with
  | forkAndSpecialize a => exact forkPost_logGrows env p
  | forkSystemServer => exact forkPost_logGrows env p

theorem destroyContext_logGrows (p : Proc) : p.log <+: (destroyContext p).log := by
  simp only [destroyContext]
  split
  · exact List.prefix_refl _
  · split
    · split
      · exact List.prefix_refl _
      · exact ⟨_, rfl⟩
    · exact List.prefix_refl _

/-! ## A failed fork -/

/-- The state in which the hooks take the zygote for its child: `pid` is -1 although `fork` was
called, and whatever ended the process was a module that had been loaded into it. -/
structure Mistaken (p : Proc) : Prop where
  hook : p.gHook.isSome = true
  pid : p.gCtx.map (·.pid) = some (-1)
  forked : Event.oldFork ∈ p.log
  fault : p.fault = none ∨ ∃ id, Event.load id ∈ p.log

theorem Mistaken.frame {p p' : Proc} (hp : Mistaken p) (h : Frame p p') : Mistaken p' where
  hook := h.hook ▸ hp.hook
  pid := (h.loopFrame.map_ctx (·.pid) fun _ _ hc => hc.pid).trans hp.pid
  forked := h.loopFrame.log.subset hp.forked
  fault := by
    rcases hp.fault with hf | ⟨id, hid⟩
    · left
      -- module code can only kill the process through a null `g_hook`, and here it is set
      rcases h.fault with h' | ⟨hn, -⟩
      · exact h'.trans hf
      · exact absurd hp.hook (by simp [hn])
    · exact .inr ⟨id, h.loopFrame.log.subset hid⟩

/-- Every loaded module leaves a load in the log, so an empty log of loads means an empty list. -/
theorem load_mem_loadEvents {served : List ServedModule} {m : ZygiskModule}
    (hm : m ∈ loadedModules served) : ∃ id, Event.load id ∈ loadEvents served := by
  obtain ⟨⟨s, i⟩, hs, hm⟩ := List.mem_filterMap.mp hm
  refine ⟨i, List.mem_filterMap.mpr ⟨⟨s, i⟩, hs, ?_⟩⟩
  cases hl : s.library with
  | none => simp [hl] at hm
  | some lib => simp [hl]

theorem preLoop_loopFrame (env : Env) (p : Proc) :
    LoopFrame { p with log := p.log ++ loadEvents (readModules env) } (preLoop env p).2 :=
  eachModule_loopFrame (preModule_loopFrame env) _ _

theorem runModulesPre_mistaken (env : Env) {p : Proc} (hp : Mistaken p) (hfault : p.fault = none) :
    Mistaken (runModulesPre env p) := by
  have hframe := preLoop_loopFrame env p
  have hlog : p.log ++ loadEvents (readModules env) <+: (runModulesPre env p).log := hframe.log
  have hpid : (preLoop env p).2.gCtx.map (·.pid) = p.gCtx.map (·.pid) :=
    hframe.map_ctx (·.pid) fun _ _ hc => hc.pid
  refine ⟨?_, ?_, ?_, ?_⟩
  · exact hframe.hook ▸ hp.hook
  · rw [← hp.pid, ← hpid]
    rw [runModulesPre, setModules, Option.map_map]
    rfl
  · exact hlog.subset (List.mem_append_left _ hp.forked)
  · -- with nothing to run the loop cannot crash; otherwise something was loaded first
    cases hms : loadedModules (readModules env) with
    | nil =>
        left
        have : (preLoop env p).2.fault = p.fault := by
          rw [preLoop, hms]
          rfl
        exact this.trans hfault
    | cons m ms =>
        right
        obtain ⟨id, hid⟩ := load_mem_loadEvents (hms ▸ List.mem_cons_self)
        exact ⟨id, hlog.subset (List.mem_append_right _ hid)⟩

theorem serverSpecializePre_mistaken (env : Env) {p : Proc} (hp : Mistaken p)
    (hfault : p.fault = none) :
    Mistaken ((serverSpecializePre env p).next (·.emit .cacheMountNamespace)) := by
  have hemit : ∀ {q : Proc} (e : Event), Mistaken q → Mistaken (q.next (·.emit e)) := by
    intro q e hq
    simp only [Proc.next]
    split
    · exact hq
    · refine ⟨hq.hook, hq.pid, List.mem_append_left _ hq.forked, ?_⟩
      rcases hq.fault with h | ⟨id, hid⟩
      · exact .inl h
      · exact .inr ⟨id, List.mem_append_left _ hid⟩
  exact hemit _ (hemit _ (runModulesPre_mistaken env hp hfault))

theorem appSpecializePre_mistaken (env : Env) (a : AppSpecializeArgs) {p : Proc} (hp : Mistaken p)
    (hfault : p.fault = none) : Mistaken (appSpecializePre env a p) := by
  obtain ⟨c, hc, hpid⟩ := Option.map_eq_some_iff.mp hp.pid
  have hset : Mistaken (p.setCtx
      (settleFlags env a (isIsolated a.uid && !env.reachable .isolatedProbe) c)) :=
    ⟨hp.hook, congrArg some hpid, hp.forked, .inl hfault⟩
  rw [appSpecializePre, withCtx_some hc]
  dsimp only
  split
  · exact hset
  · exact runModulesPre_mistaken env hset hfault

/-- Exempting descriptors changes the arguments and the allowed descriptors only. -/
theorem allowExempted_eq (env : Env) (c : ZygiskContext) :
    ∃ args fds, allowExempted env c = { c with args := args, allowedFds := fds } := by
  have hupdate : ∀ a old l, ∃ args fds,
      updateFdArray env a old { c with allowedFds := l } =
        { c with args := args, allowedFds := fds } := by
    intro a old l
    simp only [updateFdArray]
    split
    · exact ⟨_, _, rfl⟩
    · exact ⟨_, _, rfl⟩
  simp only [allowExempted]
  split
  · split
    · split
      · exact hupdate _ _ _
      · exact hupdate _ _ c.allowedFds
      · exact ⟨_, _, rfl⟩
    · exact ⟨_, _, rfl⟩
  · exact ⟨_, _, rfl⟩

theorem sanitizeFds_mistaken (env : Env) {p : Proc} (hp : Mistaken p) :
    Mistaken (sanitizeFds env p) := by
  obtain ⟨c, hc, hpid⟩ := Option.map_eq_some_iff.mp hp.pid
  have hset : Mistaken (p.setCtx (allowExempted env c)) := by
    obtain ⟨args, fds, heq⟩ := allowExempted_eq env c
    rw [heq]
    exact ⟨hp.hook, congrArg some hpid, hp.forked, hp.fault⟩
  rw [sanitizeFds, withCtx_some hc]
  dsimp only
  split
  · split
    · exact hset.frame (closeAll_frame _ _)
    · exact hset
  · exact hp

/-- After a failed fork the pre hook goes on as in the child. -/
theorem forkThen_mistaken (env : Env) {specialize : Proc → Proc}
    (hspec : ∀ q, Mistaken q → q.fault = none → Mistaken (specialize q)) {p : Proc}
    (hhook : p.gHook.isSome = true) (hctx : p.gCtx.isSome = true) (hfault : p.fault = none)
    (hfork : env.oldFork (p.log.count .oldFork) = -1) : Mistaken (forkThen env specialize p) := by
  obtain ⟨c, hc⟩ := Option.isSome_iff_exists.mp hctx
  have hforked : Mistaken (forkPre env p) ∧ (forkPre env p).fault = none := by
    -- `pid <= 0` holds of the failed fork, so the descriptors are recorded
    have hrec : forkPre env p = recordFds ((p.emit .oldFork).setCtx { c with pid := -1 }) := by
      rw [forkPre, withCtx_some hc]
      simp [oldFork, hfork, isChild]
    have hmist : ∀ l : List Nat, Mistaken
        ((p.emit .oldFork).setCtx { c with pid := -1, allowedFds := c.allowedFds ++ l }) := fun l =>
      ⟨hhook, rfl, List.mem_append_right _ List.mem_cons_self, .inl hfault⟩
    rw [hrec, recordFds, withCtx_some rfl]
    refine ⟨(hmist _).frame (closeAll_frame _ _), ?_⟩
    rw [closeAll_fault]
    exact hfault
  -- and for the same reason the zygote specializes itself
  obtain ⟨c', hc', hpid⟩ := Option.map_eq_some_iff.mp hforked.1.pid
  have hchild : isChild c' = true := by simp [isChild, hpid]
  simp only [forkThen]
  rw [withCtx_some hc', if_pos hchild]
  have hspecialized := hspec _ hforked.1 hforked.2
  simp only [Proc.next]
  split
  · exact hspecialized
  · exact sanitizeFds_mistaken env hspecialized

/-- The context at the start of `nativeForkAndSpecialize_pre`. -/
def startContext (env : Env) (a : AppSpecializeArgs) : ZygiskContext :=
  { newContext env (.app a) with
    process := some a.niceName
    flags := 0#32 ||| APP_FORK_AND_SPECIALIZE }

/-- The process `fork_pre` starts from in `nativeForkAndSpecialize_pre`: nothing is logged yet, and
`g_hook` knows what was unmounted. -/
theorem forkAndSpecializeStart_eq (env : Env) (a : AppSpecializeArgs) {p : Proc} {h : HookContext}
    (hh : p.gHook = some h) :
    forkAndSpecializeStart env a (p.setCtx (newContext env (.app a))) =
      (p.setHook (directUnmount env a h (startContext env a)).1).setCtx
        (directUnmount env a h (startContext env a)).2 := by
  rw [forkAndSpecializeStart, withCtx_some rfl]
  dsimp only
  rw [derefHook_some (show ((p.setCtx _).setCtx _).gHook = some h from hh)]
  rfl

theorem directUnmount_shouldUnmap (env : Env) (a : AppSpecializeArgs) (h : HookContext)
    (c : ZygiskContext) : (directUnmount env a h c).1.shouldUnmap = h.shouldUnmap := by
  simp only [directUnmount]
  split
  · dsimp only
    split <;> rfl
  · rfl

theorem pre_mistaken (env : Env) (method : ForkMethod) {p : Proc} {h : HookContext}
    (hh : p.gHook = some h) (hfault : p.fault = none) (hlog : p.log = [])
    (hfork : env.oldFork 0 = -1) :
    Mistaken (method.pre env (p.setCtx (newContext env method.args))) := by
  have hcount : env.oldFork (p.log.count .oldFork) = -1 := by
    rw [hlog]
    exact hfork
  cases method with
  | forkAndSpecialize a =>
      simp only [ForkMethod.pre, nativeForkAndSpecializePre]
      dsimp only [ForkMethod.args]
      rw [forkAndSpecializeStart_eq env a hh,
        next_of_fault_none (show ((p.setHook _).setCtx _).fault = none from hfault)]
      exact forkThen_mistaken env (fun q hq hf => appSpecializePre_mistaken env a hq hf) rfl rfl
        hfault hcount
  | forkSystemServer =>
      simp only [ForkMethod.pre, nativeForkSystemServerPre]
      rw [withCtx_some rfl, derefHook_some (show ((p.setCtx _).setCtx _).gHook = some h from hh)]
      exact forkThen_mistaken env (fun q hq hf => serverSpecializePre_mistaken env hq hf)
        (Option.isSome_of_eq_some hh) rfl hfault hcount

/-! ## A fork that succeeded, seen from the zygote -/

/-- The zygote after a pre hook whose fork succeeded: it has forked once and done nothing else that
is logged. -/
structure Parent (p q : Proc) : Prop where
  fault : q.fault = none
  log : q.log = [.oldFork]
  pid : ∃ c, q.gCtx = some c ∧ 0 < c.pid
  hook : q.gHook.map (·.shouldUnmap) = p.gHook.map (·.shouldUnmap)

theorem forkThen_parent (env : Env) (specialize : Proc → Proc) {p : Proc} {c : ZygiskContext}
    (hc : p.gCtx = some c) (hfault : p.fault = none) (hlog : p.log = [])
    (hfork : 0 < env.oldFork 0) :
    forkThen env specialize p = (p.emit .oldFork).setCtx { c with pid := env.oldFork 0 } := by
  have hpid : env.oldFork (p.log.count .oldFork) = env.oldFork 0 := by
    rw [hlog]
    rfl
  have hchild : isChild { c with pid := env.oldFork 0 } = false := by
    simpa [isChild] using hfork
  have hpre : forkPre env p = (p.emit .oldFork).setCtx { c with pid := env.oldFork 0 } := by
    rw [forkPre, oldFork, withCtx_some hc]
    dsimp only
    rw [hpid, hchild]
    rfl
  -- with a positive pid the specialization and the sanitizing are both skipped
  simp only [forkThen]
  rw [hpre, withCtx_some rfl, hchild]
  simp only [Bool.false_eq_true, if_false]
  rw [next_of_fault_none (show ((p.emit _).setCtx _).fault = none from hfault)]
  rw [sanitizeFds, withCtx_some rfl]
  dsimp only
  rw [hchild]
  rfl

theorem pre_parent (env : Env) (method : ForkMethod) {p : Proc} {h : HookContext}
    (hh : p.gHook = some h) (hfault : p.fault = none) (hlog : p.log = [])
    (hfork : 0 < env.oldFork 0) :
    Parent p (method.pre env (p.setCtx (newContext env method.args))) := by
  cases method with
  | forkAndSpecialize a =>
      simp only [ForkMethod.pre, nativeForkAndSpecializePre]
      dsimp only [ForkMethod.args]
      rw [forkAndSpecializeStart_eq env a hh,
        next_of_fault_none (show ((p.setHook _).setCtx _).fault = none from hfault),
        forkThen_parent env _ rfl (show ((p.setHook _).setCtx _).fault = none from hfault) hlog hfork]
      refine ⟨hfault, congrArg (· ++ _) hlog, ⟨_, rfl, hfork⟩, ?_⟩
      rw [hh]
      exact congrArg some (directUnmount_shouldUnmap env a h _)
  | forkSystemServer =>
      simp only [ForkMethod.pre, nativeForkSystemServerPre]
      rw [withCtx_some rfl, derefHook_some (show ((p.setCtx _).setCtx _).gHook = some h from hh),
        forkThen_parent env _ rfl (show ((p.setCtx _).setCtx _).fault = none from hfault) hlog hfork]
      exact ⟨hfault, congrArg (· ++ _) hlog, ⟨_, rfl, hfork⟩, rfl⟩

/-- The rest of the call does nothing in the zygote. -/
theorem hookedFork_parent (env : Env) (method : ForkMethod) {p : Proc}
    (hpre : Parent p (method.pre env (p.setCtx (newContext env method.args)))) :
    hookedFork env method p =
      { method.pre env (p.setCtx (newContext env method.args)) with gCtx := none } := by
  obtain ⟨c, hc, hpid⟩ := hpre.pid
  have hchild : isChild c = false := by simpa [isChild] using hpid
  have hpost : ∀ q : Proc, q.gCtx = some c → method.post env q = q := by
    intro q hq
    cases method <;>
      simp [ForkMethod.post, nativeForkAndSpecializePost, nativeForkSystemServerPost, forkPost,
        withCtx_some hq, hchild]
  simp only [hookedFork]
  generalize method.pre env (p.setCtx (newContext env method.args)) = q at hpre hc ⊢
  rw [next_of_fault_none hpre.fault]
  -- the original method's fork is answered from the pid on file
  have hnew : (newFork env q).2 = q := by
    rw [newFork, hc]
    dsimp only
    rw [if_pos (Int.le_of_lt hpid)]
  rw [hnew, next_of_fault_none hpre.fault, hpost q hc, next_of_fault_none hpre.fault]
  rw [destroyContext, hc]
  dsimp only
  rw [hchild]
  rfl

/-! ## The zygote after a hooked call -/

/-- A zygote between two hooked calls, as `g_hook` has it; the log starts with the next call. -/
structure IdleZygote (p : Proc) (h : HookContext) : Prop where
  hook : p.gHook = some h
  fault : p.fault = none
  log : p.log = []

/-- The process that called the hooked method is still the zygote: it has loaded no module, closed
none of the descriptors it came with, kept its hooks and its library, and forked once. -/
structure ZygoteUntouched (p p' : Proc) : Prop where
  no_load : ∀ id, Event.load id ∉ p'.log
  no_close : ∀ fd ∈ p.fds, Event.close fd.num ∉ p'.log
  no_restore : Event.restoreZygoteHook ∉ p'.log
  no_unmap : p'.gHook.map (·.shouldUnmap) = p.gHook.map (·.shouldUnmap)
  one_fork : p'.log.count .oldFork = 1

/-- In the zygote, a hooked fork leaves it untouched exactly when the fork succeeded. -/
theorem zygoteUntouched_iff (env : Env) (method : ForkMethod) (p : Proc) (h : HookContext)
    (hp : IdleZygote p h)
    (hfork : env.oldFork 0 = -1 ∨ 0 < env.oldFork 0) :
    ZygoteUntouched p (hookedFork env method p) ↔ env.oldFork 0 ≠ -1 := by
  constructor
  · intro huntouched hfailed
    have hpre := pre_mistaken env method hp.hook hp.fault hp.log hfailed
    simp only [hookedFork] at huntouched
    generalize method.pre env (p.setCtx (newContext env method.args)) = q at hpre huntouched
    -- what the log holds after the original method stays there through the post hook
    have hgrow : ∀ r : Proc, r.log <+: ((r.next (method.post env)).next destroyContext).log :=
      fun r => (next_log (post_logGrows env method r)).trans (next_log (destroyContext_logGrows _))
    rcases hpre.fault with hf | ⟨id, hid⟩
    · -- the pid on file is -1, so the original method forks again
      obtain ⟨c, hc, hpid⟩ := Option.map_eq_some_iff.mp hpre.pid
      have hnew : (newFork env q).2 = q.emit .oldFork := by
        simp [newFork, hc, hpid, oldFork]
      have hcount : 2 ≤ (q.emit .oldFork).log.count .oldFork := by
        have hone := List.count_pos_iff.mpr hpre.forked
        simp only [Proc.emit, List.count_append, List.count_singleton_self]
        omega
      have hle := (hgrow (q.emit .oldFork)).sublist.count_le .oldFork
      rw [next_of_fault_none hf, hnew] at huntouched
      have hone := huntouched.one_fork
      omega
    · -- the process died in a module, so a load is in the log
      refine huntouched.no_load id ((hgrow _).subset ?_)
      refine (next_log ?_).subset hid
      simp only [newFork]
      split
      · split
        · exact List.prefix_refl _
        · exact ⟨_, rfl⟩
      · exact ⟨_, rfl⟩
  · intro hne
    have hpos : 0 < env.oldFork 0 := hfork.resolve_left hne
    have hpre := pre_parent env method hp.hook hp.fault hp.log hpos
    rw [hookedFork_parent env method hpre]
    refine ⟨?_, ?_, ?_, hpre.hook, ?_⟩
    · intro id
      simp [hpre.log]
    · intro fd _
      simp [hpre.log]
    · simp [hpre.log]
    · simp [hpre.log]

/-- A zygote that has not unmounted anything yet, with two descriptors open. -/
def freshHook : HookContext := ⟨[], false, false, false, []⟩

def freshZygote : Proc where
  gHook := some freshHook
  gCtx := none
  fds := [⟨0, "/dev/null"⟩, ⟨7, "socket:[41]"⟩]
  pltHooks := []
  fault := none
  log := []

def plainArgs : AppSpecializeArgs := ⟨10123#32, "org.example.app", none, some none⟩

/-- An environment in which every fork returns `pid`. -/
def forkEnv (pid : Int) : Env :=
  { plainEnv [servedModule "zn_v5" 5] with oldFork := fun _ => pid }

/-- The zygote is untouched when the child gets pid 4321. -/
theorem zygoteUntouched_parent :
    ZygoteUntouched freshZygote
      (hookedFork (forkEnv 4321) (.forkAndSpecialize plainArgs) freshZygote) :=
  (zygoteUntouched_iff (forkEnv 4321) (.forkAndSpecialize plainArgs) freshZygote freshHook
    ⟨rfl, rfl, rfl⟩ (.inr (by decide))).mpr (by decide)

/-- A failed fork makes the zygote load the module, fork again, and restore its own JNI hooks. -/
theorem failedFork_not_untouched :
    ¬ ZygoteUntouched freshZygote
      (hookedFork (forkEnv (-1)) (.forkAndSpecialize plainArgs) freshZygote) :=
  fun h => h.no_restore (by decide)

/-! ## The flags in force -/

/-- The two ways an app is specialized. -/
inductive AppMethod where
  | forkAndSpecialize
  | specializeAppProcess
  deriving DecidableEq, Repr

def AppMethod.pre (env : Env) (a : AppSpecializeArgs) : AppMethod → Proc → Proc
  | .forkAndSpecialize => nativeForkAndSpecializePre env a
  | .specializeAppProcess => nativeSpecializeAppProcessPre env a

/-- `info_flags` at the end of the pre hook. -/
def flagsInForce (env : Env) (method : AppMethod) (a : AppSpecializeArgs) (p : Proc) :
    Option Flags :=
  (method.pre env a (p.setCtx (newContext env (.app a)))).gCtx.map (·.infoFlags)

/-- What `app_specialize_pre` makes of the flags it finds. -/
def settledFlags (env : Env) (a : AppSpecializeArgs) (found : Flags) : Flags :=
  if found = 0#32 then env.processFlags (effectiveUid env a) else found

theorem sanitizeFds_infoFlags (env : Env) (p : Proc) :
    (sanitizeFds env p).gCtx.map (·.infoFlags) = p.gCtx.map (·.infoFlags) := by
  have hallow : ∀ c, (allowExempted env c).infoFlags = c.infoFlags := by
    intro c
    obtain ⟨args, fds, heq⟩ := allowExempted_eq env c
    rw [heq]
  simp only [sanitizeFds, withCtx]
  split
  · rfl
  · rename_i c hc
    split
    · split <;> simp [Proc.setCtx, hc, hallow]
    · rfl

theorem runModulesPre_infoFlags (env : Env) (p : Proc) :
    (runModulesPre env p).gCtx.map (·.infoFlags) = p.gCtx.map (·.infoFlags) := by
  have hloop : (preLoop env p).2.gCtx.map (·.infoFlags) = p.gCtx.map (·.infoFlags) :=
    (preLoop_loopFrame env p).map_ctx (·.infoFlags) fun _ _ hc => hc.infoFlags
  rw [← hloop, runModulesPre, setModules, Option.map_map]
  rfl

theorem appSpecializePre_infoFlags (env : Env) (a : AppSpecializeArgs) {p : Proc}
    {c : ZygiskContext} (hc : p.gCtx = some c) (hreach : ∀ place, env.reachable place = true) :
    (appSpecializePre env a p).gCtx.map (·.infoFlags) = some (settledFlags env a c.infoFlags) := by
  rw [appSpecializePre, withCtx_some hc]
  simp only [hreach, Bool.not_true, Bool.and_false, Bool.false_eq_true, if_false]
  rw [runModulesPre_infoFlags]
  simp [Proc.setCtx, settleFlags, settledFlags, getProcessFlags, hreach]

/-- The flags an app forked from the zygote finds: those of the given uid if this fork is the one
that looks for traces, none otherwise. -/
def foundFlags (env : Env) (a : AppSpecializeArgs) (h : HookContext) : Flags :=
  if !h.zygoteUnmounted && h.zygoteTraces.isEmpty then env.processFlags a.uid else 0#32

theorem directUnmount_infoFlags (env : Env) (a : AppSpecializeArgs) (h : HookContext)
    (hreach : ∀ place, env.reachable place = true) :
    (directUnmount env a h (startContext env a)).2.infoFlags = foundFlags env a h := by
  simp only [directUnmount, foundFlags]
  split
  · simp [getProcessFlags, hreach]
  · rfl

theorem flagsInForce_forkAndSpecialize (env : Env) (a : AppSpecializeArgs) {p : Proc}
    {h : HookContext} (hp : IdleZygote p h) (hreach : ∀ place, env.reachable place = true)
    (hchild : env.oldFork 0 = 0) :
    flagsInForce env .forkAndSpecialize a p = some (settledFlags env a (foundFlags env a h)) := by
  have hinfo := directUnmount_infoFlags env a h hreach
  simp only [flagsInForce, AppMethod.pre, nativeForkAndSpecializePre]
  rw [forkAndSpecializeStart_eq env a hp.hook,
    next_of_fault_none (show ((p.setHook _).setCtx _).fault = none from hp.fault)]
  generalize (directUnmount env a h (startContext env a)).1 = h'
  generalize (directUnmount env a h (startContext env a)).2 = c at hinfo ⊢
  -- the child goes on with the context it was forked with, its descriptors recorded
  obtain ⟨fds, hfork⟩ : ∃ fds, (forkPre env ((p.setHook h').setCtx c)).gCtx =
      some { c with pid := 0, allowedFds := fds } := by
    rw [forkPre, oldFork, withCtx_some rfl]
    have hzero : env.oldFork (((p.setHook h').setCtx c).log.count .oldFork) = 0 := by
      rw [show ((p.setHook h').setCtx c).log = [] from hp.log]
      exact hchild
    simp only [hzero, isChild, Int.le_refl, decide_true, if_true]
    rw [recordFds, withCtx_some rfl, closeAll_gCtx]
    exact ⟨_, rfl⟩
  simp only [forkThen]
  rw [withCtx_some hfork, if_pos (by simp [isChild])]
  have hspec := appSpecializePre_infoFlags env a hfork hreach
  rw [hinfo] at hspec
  simp only [Proc.next]
  split
  · exact hspec
  · rw [sanitizeFds_infoFlags]
    exact hspec

theorem flagsInForce_specializeAppProcess (env : Env) (a : AppSpecializeArgs) (p : Proc)
    (hreach : ∀ place, env.reachable place = true) :
    flagsInForce env .specializeAppProcess a p = some (env.processFlags (effectiveUid env a)) := by
  simp only [flagsInForce, AppMethod.pre, nativeSpecializeAppProcessPre]
  rw [withCtx_some rfl, appSpecializePre_infoFlags env a rfl hreach]
  rfl

/-- The flags are not spoiled by the first fetch: it does not happen, or answers nothing, or answers
what the second one would. -/
def FetchHarmless (env : Env) (method : AppMethod) (a : AppSpecializeArgs) (h : HookContext) : Prop :=
  method = .specializeAppProcess ∨ h.zygoteUnmounted = true ∨ h.zygoteTraces ≠ [] ∨
    env.processFlags a.uid = 0#32 ∨ env.processFlags a.uid = env.processFlags (effectiveUid env a)

theorem flagsInForce_eq_iff (env : Env) (method : AppMethod) (a : AppSpecializeArgs) {p : Proc}
    {h : HookContext} (hp : IdleZygote p h) (hreach : ∀ place, env.reachable place = true)
    (hchild : env.oldFork 0 = 0) :
    flagsInForce env method a p = some (env.processFlags (effectiveUid env a)) ↔
      FetchHarmless env method a h := by
  simp only [FetchHarmless]
  cases method with
  | specializeAppProcess => simp [flagsInForce_specializeAppProcess env a p hreach]
  | forkAndSpecialize =>
      rw [flagsInForce_forkAndSpecialize env a hp hreach hchild]
      simp only [settledFlags, foundFlags]
      -- the first fetch happens only with nothing unmounted and no trace left over
      by_cases hu : h.zygoteUnmounted = true
      · simp [hu]
      · by_cases ht : h.zygoteTraces = []
        · by_cases hz : env.processFlags a.uid = 0#32
          · simp [hu, ht, hz]
          · simp [hu, ht, hz]
        · simp [hu, ht]

/-- Two specializations that differ only in what the zygote did before get the flags of the effective
uid, and so the same ones, exactly when in neither history the first fetch spoils them. -/
theorem flagsInForce_history_iff (env : Env) (method : AppMethod) (a : AppSpecializeArgs)
    (p₁ p₂ : Proc) (h₁ h₂ : HookContext) (hp₁ : IdleZygote p₁ h₁) (hp₂ : IdleZygote p₂ h₂)
    (hreach : ∀ place, env.reachable place = true) (hchild : env.oldFork 0 = 0) :
    (flagsInForce env method a p₁ = some (env.processFlags (effectiveUid env a)) ∧
        flagsInForce env method a p₂ = some (env.processFlags (effectiveUid env a)) ∧
        flagsInForce env method a p₁ = flagsInForce env method a p₂) ↔
      FetchHarmless env method a h₁ ∧ FetchHarmless env method a h₂ := by
  rw [← flagsInForce_eq_iff env method a hp₁ hreach hchild,
    ← flagsInForce_eq_iff env method a hp₂ hreach hchild]
  constructor
  · rintro ⟨h1, h2, -⟩
    exact ⟨h1, h2⟩
  · rintro ⟨h1, h2⟩
    exact ⟨h1, h2, h1.trans h2.symm⟩

/-- An isolated service of a denylisted app. -/
def isolatedArgs : AppSpecializeArgs :=
  ⟨90001#32, "org.example.app:svc", some "/data/user/0/org.example.app", none⟩

/-- Under Magisk, with the owner of the data directory on the denylist. -/
def isolatedEnv : Env :=
  { plainEnv [] with
    processFlags := handleGetProcessFlags .magisk ⟨fun _ => false, fun _ => false, (· == 10123)⟩
    stat := fun dir => if dir == "/data/user/0/org.example.app" then some 10123#32 else none }

/-- A zygote that has already unmounted its traces. -/
def unmountedHook : HookContext := { freshHook with zygoteUnmounted := true }

def unmountedZygote : Proc := { freshZygote with gHook := some unmountedHook }

/-- With both zygotes past their unmount, the isolated service is on the denylist. -/
theorem isolated_flags_after_unmount :
    flagsInForce isolatedEnv .forkAndSpecialize isolatedArgs unmountedZygote =
        some (isolatedEnv.processFlags (effectiveUid isolatedEnv isolatedArgs)) :=
  ((flagsInForce_history_iff isolatedEnv .forkAndSpecialize isolatedArgs unmountedZygote
    unmountedZygote unmountedHook unmountedHook ⟨rfl, rfl, rfl⟩ ⟨rfl, rfl, rfl⟩ (fun _ => rfl)
    rfl).mpr ⟨.inr (.inl rfl), .inr (.inl rfl)⟩).1

/-- In a fresh zygote it is not: the flags of uid 90001 are there first and stay. -/
theorem isolated_flags_depend_on_history :
    ¬ (flagsInForce isolatedEnv .forkAndSpecialize isolatedArgs freshZygote =
          some (isolatedEnv.processFlags (effectiveUid isolatedEnv isolatedArgs)) ∧
        flagsInForce isolatedEnv .forkAndSpecialize isolatedArgs unmountedZygote =
          some (isolatedEnv.processFlags (effectiveUid isolatedEnv isolatedArgs)) ∧
        flagsInForce isolatedEnv .forkAndSpecialize isolatedArgs freshZygote =
          flagsInForce isolatedEnv .forkAndSpecialize isolatedArgs unmountedZygote) := by
  decide

end NeoZygisk.Injector
