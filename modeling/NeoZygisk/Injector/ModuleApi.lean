import NeoZygisk.Injector.Process

/-!
# The module API

Registration and the functions a module reaches through its table. `registerModuleImpl` refuses a
null table and every version above `ZYGISK_API_VERSION`; it does not refuse versions below 1, which
get an empty table. Each accepted version sees its own layout of the union.

What module code can do to the process around it is stated once, as `Frame`: `g_hook` and the
presence of `g_ctx` stay, the specialization keeps its arguments and its flags apart from
`DO_REVERT_UNMOUNT`, only closed descriptors are logged, and the only fault is a null `g_hook`
(`runActions_frame`, `onLoad_frame`). Three functions go through `g_hook`, and read a member of it or
not according to their arguments and to what was registered before (`ApiFn.reads`); without a `g_hook`
it is the call that reads which ends the process (`callApi_fault`).
-/

set_option autoImplicit false

namespace NeoZygisk.Injector

open NeoZygisk.Common
open NeoZygisk.Lib.Mask

/-! ## Methods of `ZygiskContext` behind the table -/

/-- `plt_hook_register`. -/
def pltHookRegister (env : Env) (arg : ApiArg) (p : Proc) : Proc :=
  p.derefCtx fun c =>
    match arg.regex, arg.symbol, arg.fn with
    | some regex, some symbol, true =>
        if env.regcomp regex then
          p.setCtx { c with registerInfo := c.registerInfo ++ [⟨regex, symbol⟩] }
        else p
    | _, _, _ => p

/-- `plt_hook_exclude`. -/
def pltHookExclude (env : Env) (arg : ApiArg) (p : Proc) : Proc :=
  p.derefCtx fun c =>
    match arg.regex with
    | some regex =>
        if env.regcomp regex then
          p.setCtx { c with ignoreInfo := c.ignoreInfo ++ [⟨regex, arg.symbol.getD ""⟩] }
        else p
    | none => p

/-- The hooks that the registered patterns select in one mapping. -/
def hooksIn (env : Env) (c : ZygiskContext) (map : MapInfo) : List PltHook :=
  if map.offset != 0 || !map.isPrivate || !map.perms.read then []
  else
    (c.registerInfo.filter fun reg =>
      env.regexec reg.regex map.path &&
        !c.ignoreInfo.any fun ign =>
          env.regexec ign.regex map.path && (ign.symbol == "" || ign.symbol == reg.symbol)).map
      fun reg => ⟨map.dev, map.inode, reg.symbol⟩

/-- `plt_hook_process_regex`: nothing registered, nothing read. -/
def pltHookProcessRegex (env : Env) (c : ZygiskContext) (p : Proc) : Proc :=
  if c.registerInfo.isEmpty then p
  else
    p.derefHook fun h =>
      { p with pltHooks := p.pltHooks ++ h.cachedMapInfos.flatMap (hooksIn env c) }

/-- `lsplt::CommitHook(g_hook->cached_map_infos)`, which is given a reference. -/
def commitHook (env : Env) (p : Proc) : Proc :=
  if env.commitReads p.pltHooks then p.derefHook fun _ => p else p

/-- `plt_hook_commit`. -/
def pltHookCommit (env : Env) (p : Proc) : Proc :=
  p.derefCtx fun c =>
    (pltHookProcessRegex env c p).next fun p =>
      commitHook env (p.setCtx { c with registerInfo := [], ignoreInfo := [] })

/-- An entry of the array names a method of the class, and has a function to replace it. -/
def hookableMethod (env : Env) (arg : ApiArg) : Bool :=
  (env.findClass arg.className).any fun hasMethod =>
    arg.methods.any fun e => e.fn && hasMethod e.name e.signature

/-- `hookJniNativeMethods`: `hook_jni_methods` reads `member_getModifiers` for a method it finds. What
it does to the methods is not part of the process here. -/
def hookJniNativeMethods (env : Env) (arg : ApiArg) (p : Proc) : Proc :=
  if hookableMethod env arg then p.derefHook fun _ => p else p

/-- `can_exempt_fd`: the variant of the hooked method has the array. -/
def canExemptFd (c : ZygiskContext) : Bool :=
  has c.flags APP_FORK_AND_SPECIALIZE &&
    match c.args with
    | .app a => a.fdsToIgnore.isSome
    | .server => false

/-- `exempt_fd`. -/
def exemptFd (fd : Int) (p : Proc) : Proc :=
  p.derefCtx fun c =>
    if has c.flags POST_SPECIALIZE || has c.flags SKIP_CLOSE_LOG_PIPE then p
    else if !canExemptFd c then p
    else p.setCtx { c with exemptedFds := c.exemptedFds ++ [fd] }

/-! ## The table -/

/-- The highest API version this build supports. -/
def ZYGISK_API_VERSION : Int := 5

/-- The slots each version fills; version 4 reuses three slots of version 1. -/
def fillTable (apiVersion : Int) (api : ApiTable) : ApiTable := fun slot =>
  match slot with
  | .hookJniNativeMethods => if 1 ≤ apiVersion then some .hookJniNativeMethods else api slot
  | .pltHookRegister =>
      if 4 ≤ apiVersion then some .pltHookRegisterV4
      else if 1 ≤ apiVersion then some .pltHookRegisterV1 else api slot
  | .pltHookExcludeOrExemptFd =>
      if 4 ≤ apiVersion then some .exemptFd
      else if 1 ≤ apiVersion then some .pltHookExclude else api slot
  | .pltHookCommit =>
      if 4 ≤ apiVersion then some .pltHookCommitV4
      else if 1 ≤ apiVersion then some .pltHookCommitV1 else api slot
  | .connectCompanion => if 1 ≤ apiVersion then some .connectCompanion else api slot
  | .setOption => if 1 ≤ apiVersion then some .setOption else api slot
  | .getModuleDir => if 2 ≤ apiVersion then some .getModuleDir else api slot
  | .getFlags => if 2 ≤ apiVersion then some .getFlags else api slot

/-- `RegisterModuleImpl` on a module's own table. -/
def registerModuleImpl (m : ZygiskModule) (module : Option ModuleAbi) : ZygiskModule :=
  match module with
  | none => m
  | some abi =>
      if ZYGISK_API_VERSION < abi.apiVersion then m
      else { m with mod := some abi, api := fillTable abi.apiVersion m.api }

/-- `ZygiskModule::valid`. -/
def valid (m : ZygiskModule) : Bool :=
  match m.mod with
  | none => false
  | some abi =>
      if 1 ≤ abi.apiVersion ∧ abi.apiVersion ≤ 5 then
        abi.impl && abi.preAppSpecialize.isSome && abi.postAppSpecialize.isSome &&
          abi.preServerSpecialize.isSome && abi.postServerSpecialize.isSome
      else false

/-- `getFlags`: what a module learns about its process. -/
def getFlags (p : Proc) : Flags :=
  match p.gCtx with
  | none => 0#32
  | some c => c.infoFlags &&& ~~~PRIVATE_MASK

/-- No module learns which root solution is installed, or that its process is the manager. -/
theorem getFlags_and_private (p : Proc) : getFlags p &&& PRIVATE_MASK = 0#32 := by
  simp only [getFlags]
  split
  · exact BitVec.zero_and
  · rw [BitVec.and_assoc, BitVec.not_and_self]
    exact BitVec.and_zero

/-- A call of a table function by module `m`. Companion and directory requests go to the daemon and
return a descriptor; reading the flags (`getFlags`) changes nothing. -/
def callApi (env : Env) (fn : ApiFn) (arg : ApiArg) (m : ZygiskModule) (p : Proc) :
    ZygiskModule × Proc :=
  match fn with
  | .hookJniNativeMethods => (m, hookJniNativeMethods env arg p)
  | .pltHookRegisterV1 => (m, if p.gCtx.isSome then pltHookRegister env arg p else p)
  | .pltHookExclude => (m, if p.gCtx.isSome then pltHookExclude env arg p else p)
  | .pltHookCommitV1 => (m, if p.gCtx.isSome then pltHookCommit env p else p)
  | .connectCompanion => (m, p)
  | .setOption =>
      match p.gCtx, arg.option with
      | none, _ => (m, p)
      | some c, .FORCE_DENYLIST_UNMOUNT =>
          (m, p.setCtx { c with flags := c.flags ||| DO_REVERT_UNMOUNT })
      | some _, .DLCLOSE_MODULE_LIBRARY => ({ m with unload := true }, p)
  | .getModuleDir => (m, p)
  | .getFlags => (m, p)
  | .pltHookRegisterV4 =>
      match arg.symbol with
      | some symbol =>
          if arg.dev = 0 ∨ arg.inode = 0 ∨ arg.fn = false then (m, p)
          else (m, { p with pltHooks := p.pltHooks ++ [⟨arg.dev, arg.inode, symbol⟩] })
      | none => (m, p)
  | .exemptFd => (m, if p.gCtx.isSome then exemptFd arg.fd p else p)
  | .pltHookCommitV4 => (m, commitHook env p)

/-- One action of module code; a call through an empty slot is skipped by the API wrapper. -/
def runAction (env : Env) (m : ZygiskModule) (p : Proc) : Action → ZygiskModule × Proc
  | .api slot arg =>
      match m.api slot with
      | none => (m, p)
      | some fn => callApi env fn arg m p
  | .openFd fd target =>
      if p.fds.any (·.num == fd) then (m, p) else (m, { p with fds := p.fds ++ [⟨fd, target⟩] })
  | .closeFd fd => (m, p.close fd)

/-- A stretch of module code; it stops where the process crashes. -/
def runActions (env : Env) : List Action → ZygiskModule → Proc → ZygiskModule × Proc
  | [], m, p => (m, p)
  | a :: as, m, p =>
      if p.fault.isSome then (m, p)
      else runActions env as (runAction env m p a).1 (runAction env m p a).2

/-- `onLoad`: the module's entry, on the table of a fresh `ZygiskModule`. -/
def onLoad (env : Env) : List EntryAction → ZygiskModule → Proc → ZygiskModule × Proc
  | [], m, p => (m, p)
  | .registerModule module :: as, m, p => onLoad env as (registerModuleImpl m module) p
  | .act a :: as, m, p =>
      if p.fault.isSome then (m, p)
      else onLoad env as (runAction env m p a).1 (runAction env m p a).2

/-! ## What module code leaves in place -/

/-- A specialization after module code: only the hook requests, the exempted descriptors and
`DO_REVERT_UNMOUNT` may have changed. -/
structure CtxFrame (c c' : ZygiskContext) : Prop where
  args : c'.args = c.args
  process : c'.process = c.process
  modules : c'.modules = c.modules
  pid : c'.pid = c.pid
  infoFlags : c'.infoFlags = c.infoFlags
  fdMax : c'.fdMax = c.fdMax
  allowedFds : c'.allowedFds = c.allowedFds
  flags : ∀ mask, has DO_REVERT_UNMOUNT mask = false → has c'.flags mask = has c.flags mask

theorem CtxFrame.refl (c : ZygiskContext) : CtxFrame c c :=
  ⟨rfl, rfl, rfl, rfl, rfl, rfl, rfl, fun _ _ => rfl⟩

theorem CtxFrame.trans {c c' c'' : ZygiskContext} (h : CtxFrame c c') (h' : CtxFrame c' c'') :
    CtxFrame c c'' where
  args := h'.args.trans h.args
  process := h'.process.trans h.process
  modules := h'.modules.trans h.modules
  pid := h'.pid.trans h.pid
  infoFlags := h'.infoFlags.trans h.infoFlags
  fdMax := h'.fdMax.trans h.fdMax
  allowedFds := h'.allowedFds.trans h.allowedFds
  flags := fun mask hm => (h'.flags mask hm).trans (h.flags mask hm)

/-- A process after module code. -/
structure Frame (p p' : Proc) : Prop where
  hook : p'.gHook = p.gHook
  ctx : Option.Rel CtxFrame p.gCtx p'.gCtx
  log : ∃ fds : List Nat, p'.log = p.log ++ fds.map .close
  fault : p'.fault = p.fault ∨ p.gHook = none ∧ p'.fault = some .nullHook

theorem Frame.of_eq {p p' : Proc} (hhook : p'.gHook = p.gHook) (hctx : p'.gCtx = p.gCtx)
    (hlog : p'.log = p.log) (hfault : p'.fault = p.fault) : Frame p p' where
  hook := hhook
  ctx := by
    rw [hctx]
    cases p.gCtx with
    | none => exact .none
    | some c => exact .some (.refl c)
  log := ⟨[], by simp [hlog]⟩
  fault := .inl hfault

theorem Frame.refl (p : Proc) : Frame p p := .of_eq rfl rfl rfl rfl

theorem ctxRel_trans {x y z : Option ZygiskContext} (h : Option.Rel CtxFrame x y)
    (h' : Option.Rel CtxFrame y z) : Option.Rel CtxFrame x z := by
  cases h with
  | none => exact h'
  | some h =>
      cases h' with
      | some h' => exact .some (h.trans h')

theorem Frame.trans {p p' p'' : Proc} (h : Frame p p') (h' : Frame p' p'') : Frame p p'' where
  hook := h'.hook.trans h.hook
  ctx := ctxRel_trans h.ctx h'.ctx
  log := by
    obtain ⟨fds, hfds⟩ := h.log
    obtain ⟨fds', hfds'⟩ := h'.log
    exact ⟨fds ++ fds', by rw [hfds', hfds, List.map_append, List.append_assoc]⟩
  fault := by
    -- the first fault stays: a later one needs the same null `g_hook`
    rcases h'.fault with h2 | ⟨hn, h2⟩
    · rcases h.fault with h1 | ⟨hn, h1⟩
      · exact .inl (h2.trans h1)
      · exact .inr ⟨hn, h2.trans h1⟩
    · exact .inr ⟨h.hook ▸ hn, h2⟩

theorem Frame.ctx_isSome {p p' : Proc} (h : Frame p p') : p'.gCtx.isSome = p.gCtx.isSome := by
  have hrel := h.ctx
  cases h1 : p.gCtx with
  | none =>
      cases h2 : p'.gCtx with
      | none => rfl
      | some c' => rw [h1, h2] at hrel; cases hrel
  | some c =>
      cases h2 : p'.gCtx with
      | none => rw [h1, h2] at hrel; cases hrel
      | some c' => rfl

theorem Frame.setCtx {p : Proc} {c c' : ZygiskContext} (hp : p.gCtx = some c)
    (hc : CtxFrame c c') : Frame p (p.setCtx c') where
  hook := rfl
  ctx := by
    rw [hp]
    exact .some hc
  log := ⟨[], by simp [Proc.setCtx]⟩
  fault := .inl rfl

/-- Dereferencing `g_hook` either stays in the frame of its continuation or crashes. -/
theorem Frame.derefHook {p q : Proc} {f : HookContext → Proc} (hq : Frame p q)
    (hf : ∀ h, q.gHook = some h → Frame p (f h)) : Frame p (q.derefHook f) := by
  simp only [Proc.derefHook]
  cases hh : q.gHook with
  | some h => exact hf h hh
  | none =>
      exact ⟨hq.hook, hq.ctx, hq.log, .inr ⟨hq.hook ▸ hh, rfl⟩⟩

theorem commitHook_frame (env : Env) (p : Proc) : Frame p (commitHook env p) := by
  rw [commitHook]
  split
  · exact .derefHook (.refl p) fun _ _ => .refl p
  · exact .refl p

theorem hookJniNativeMethods_frame (env : Env) (arg : ApiArg) (p : Proc) :
    Frame p (hookJniNativeMethods env arg p) := by
  rw [hookJniNativeMethods]
  split
  · exact .derefHook (.refl p) fun _ _ => .refl p
  · exact .refl p

theorem pltHookCommit_frame (env : Env) {p : Proc} {c : ZygiskContext} (hp : p.gCtx = some c) :
    Frame p (pltHookCommit env p) := by
  have hclear : CtxFrame c { c with registerInfo := [], ignoreInfo := [] } :=
    ⟨rfl, rfl, rfl, rfl, rfl, rfl, rfl, fun _ _ => rfl⟩
  have hregex : Frame p (pltHookProcessRegex env c p) := by
    simp only [pltHookProcessRegex]
    split
    · exact .refl p
    · exact .derefHook (.refl p) fun h _ => .of_eq rfl rfl rfl rfl
  -- matching the patterns adds hooks but leaves the specialization alone
  have hctx : (pltHookProcessRegex env c p).gCtx = some c := by
    simp only [pltHookProcessRegex, Proc.derefHook]
    split
    · exact hp
    · split <;> exact hp
  simp only [pltHookCommit, Proc.derefCtx, Proc.next]
  rw [hp]
  dsimp only
  split
  · exact hregex
  · exact (hregex.trans (.setCtx hctx hclear)).trans (commitHook_frame env _)

theorem callApi_frame (env : Env) (fn : ApiFn) (arg : ApiArg) (m : ZygiskModule) (p : Proc) :
    Frame p (callApi env fn arg m p).2 := by
  cases hp : p.gCtx with
  | none =>
      -- without a specialization only the two functions that go to `g_hook` directly do anything
      cases fn <;> simp only [callApi, hp, Option.isSome_none, Bool.false_eq_true, if_false]
      case hookJniNativeMethods => exact hookJniNativeMethods_frame env arg p
      case pltHookCommitV4 => exact commitHook_frame env p
      case pltHookRegisterV4 =>
          split
          · split
            · exact .refl p
            · exact .of_eq rfl hp.symm rfl rfl
          · exact .refl p
      all_goals exact .refl p
  | some c =>
      -- the methods of the specialization change fields outside the frame
      have hsame : ∀ c', c'.args = c.args → c'.process = c.process → c'.modules = c.modules →
          c'.pid = c.pid → c'.infoFlags = c.infoFlags → c'.fdMax = c.fdMax →
          c'.allowedFds = c.allowedFds → c'.flags = c.flags → Frame p (p.setCtx c') :=
        fun c' h1 h2 h3 h4 h5 h6 h7 h8 =>
          .setCtx hp ⟨h1, h2, h3, h4, h5, h6, h7, fun mask _ => by rw [h8]⟩
      cases fn <;> simp only [callApi, hp, Option.isSome_some, if_true]
      case hookJniNativeMethods => exact hookJniNativeMethods_frame env arg p
      case pltHookRegisterV1 =>
          rw [pltHookRegister, Proc.derefCtx, hp]
          dsimp only
          split
          · split
            · exact hsame _ rfl rfl rfl rfl rfl rfl rfl rfl
            · exact .refl p
          · exact .refl p
      case pltHookExclude =>
          rw [Injector.pltHookExclude, Proc.derefCtx, hp]
          dsimp only
          split
          · split
            · exact hsame _ rfl rfl rfl rfl rfl rfl rfl rfl
            · exact .refl p
          · exact .refl p
      case pltHookCommitV1 => exact pltHookCommit_frame env hp
      case setOption =>
          cases arg.option with
          | FORCE_DENYLIST_UNMOUNT =>
              -- the one flag module code can set
              refine .setCtx hp ⟨rfl, rfl, rfl, rfl, rfl, rfl, rfl, ?_⟩
              intro mask hm
              simp [hm]
          | DLCLOSE_MODULE_LIBRARY => exact .refl p
      case pltHookRegisterV4 =>
          split
          · split
            · exact .refl p
            · exact .of_eq rfl hp.symm rfl rfl
          · exact .refl p
      case exemptFd =>
          rw [Injector.exemptFd, Proc.derefCtx, hp]
          dsimp only
          split
          · exact .refl p
          · split
            · exact .refl p
            · exact hsame _ rfl rfl rfl rfl rfl rfl rfl rfl
      case pltHookCommitV4 => exact commitHook_frame env p
      all_goals exact .refl p

theorem close_frame (p : Proc) (fd : Nat) : Frame p (p.close fd) := by
  simp only [Proc.close]
  split
  · refine ⟨rfl, (Frame.refl p).ctx, ⟨[fd], rfl⟩, .inl rfl⟩
  · exact .refl p

theorem runAction_frame (env : Env) (m : ZygiskModule) (p : Proc) (a : Action) :
    Frame p (runAction env m p a).2 := by
  cases a with
  | api slot arg =>
      simp only [runAction]
      split
      · exact .refl p
      · exact callApi_frame env _ arg m p
  | openFd fd target =>
      simp only [runAction]
      split
      · exact .refl p
      · exact .of_eq rfl rfl rfl rfl
  | closeFd fd => exact close_frame p fd

/-- Module code keeps its process in the frame. -/
theorem runActions_frame (env : Env) (as : List Action) (m : ZygiskModule) (p : Proc) :
    Frame p (runActions env as m p).2 := by
  induction as generalizing m p with
  | nil => exact .refl p
  | cons a as ih =>
      simp only [runActions]
      split
      · exact .refl p
      · exact (runAction_frame env m p a).trans (ih _ _)

/-- So does a module's entry. -/
theorem onLoad_frame (env : Env) (as : List EntryAction) (m : ZygiskModule) (p : Proc) :
    Frame p (onLoad env as m p).2 := by
  induction as generalizing m p with
  | nil => exact .refl p
  | cons a as ih =>
      cases a with
      | registerModule module =>
          -- a registration touches the module only
          exact ih _ p
      | act a =>
          simp only [onLoad]
          split
          · exact .refl p
          · exact (runAction_frame env m p a).trans (ih _ _)

/-! ## What module code does to its own module -/

/-- Running code changes nothing of the module but the request to be unloaded. -/
structure ModuleFrame (m m' : ZygiskModule) : Prop where
  id : m'.id = m.id
  api : m'.api = m.api
  mod : m'.mod = m.mod

theorem ModuleFrame.refl (m : ZygiskModule) : ModuleFrame m m := ⟨rfl, rfl, rfl⟩

theorem ModuleFrame.trans {m m' m'' : ZygiskModule} (h : ModuleFrame m m')
    (h' : ModuleFrame m' m'') : ModuleFrame m m'' :=
  ⟨h'.id.trans h.id, h'.api.trans h.api, h'.mod.trans h.mod⟩

theorem runAction_moduleFrame (env : Env) (m : ZygiskModule) (p : Proc) (a : Action) :
    ModuleFrame m (runAction env m p a).1 := by
  cases a with
  | api slot arg =>
      simp only [runAction]
      split
      · exact .refl m
      · rename_i fn _
        cases fn <;> simp only [callApi]
        case setOption => split <;> exact ⟨rfl, rfl, rfl⟩
        case pltHookRegisterV4 =>
            split
            · split <;> exact .refl m
            · exact .refl m
        all_goals exact .refl m
  | openFd fd target =>
      simp only [runAction]
      split <;> exact .refl m
  | closeFd fd => exact .refl m

theorem runActions_moduleFrame (env : Env) (as : List Action) (m : ZygiskModule) (p : Proc) :
    ModuleFrame m (runActions env as m p).1 := by
  induction as generalizing m p with
  | nil => exact .refl m
  | cons a as ih =>
      simp only [runActions]
      split
      · exact .refl m
      · exact (runAction_moduleFrame env m p a).trans (ih _ _)

/-- The table `mod` points to after an entry ran: the last registration that was accepted. -/
def acceptedAbi : List EntryAction → Option ModuleAbi → Option ModuleAbi
  | [], mod => mod
  | .registerModule (some abi) :: as, mod =>
      acceptedAbi as (if ZYGISK_API_VERSION < abi.apiVersion then mod else some abi)
  | _ :: as, mod => acceptedAbi as mod

theorem onLoad_id (env : Env) (as : List EntryAction) (m : ZygiskModule) (p : Proc) :
    (onLoad env as m p).1.id = m.id := by
  induction as generalizing m p with
  | nil => rfl
  | cons a as ih =>
      cases a with
      | registerModule module =>
          refine (ih _ p).trans ?_
          cases module with
          | none => rfl
          | some abi =>
              simp only [registerModuleImpl]
              split <;> rfl
      | act a =>
          simp only [onLoad]
          split
          · rfl
          · exact (ih _ _).trans (runAction_moduleFrame env m p a).id

/-- An entry that returns leaves the last accepted registration in `mod`. -/
theorem onLoad_mod (env : Env) (as : List EntryAction) (m : ZygiskModule) (p : Proc)
    (h : (onLoad env as m p).2.fault = none) :
    (onLoad env as m p).1.mod = acceptedAbi as m.mod := by
  induction as generalizing m p with
  | nil => rfl
  | cons a as ih =>
      cases a with
      | registerModule module =>
          cases module with
          | none => exact ih m p h
          | some abi =>
              refine (ih (registerModuleImpl m (some abi)) p h).trans ?_
              simp only [registerModuleImpl, acceptedAbi]
              split <;> rfl
      | act a =>
          simp only [onLoad] at h ⊢
          split at h
          · -- a process that had crashed before the action would not return
            rename_i hf
            rw [h] at hf
            cases hf
          · rename_i hf
            rw [if_neg hf]
            refine (ih _ _ h).trans ?_
            rw [(runAction_moduleFrame env m p a).mod]
            rfl

/-! ## Which calls read `g_hook` -/

/-- The functions that go through `g_hook` without looking at it. -/
def ApiFn.usesHook : ApiFn → Bool
  | .hookJniNativeMethods | .pltHookCommitV1 | .pltHookCommitV4 => true
  | _ => false

/-- The action is a call of such a function through the table. -/
def Action.usesHook (api : ApiTable) : Action → Bool
  | .api slot _ => (api slot).any ApiFn.usesHook
  | _ => false

/-- What was registered and not committed: whether there are patterns, and the hooks that lsplt has. -/
structure Pending where
  patterns : Bool
  hooks : List PltHook
  deriving DecidableEq, Repr

def pending (p : Proc) : Pending where
  patterns := p.gCtx.any fun c => !c.registerInfo.isEmpty
  hooks := p.pltHooks

/-- The call reads a member of `g_hook`. -/
def ApiFn.reads (env : Env) (arg : ApiArg) (s : Pending) : ApiFn → Bool
  | .hookJniNativeMethods => hookableMethod env arg
  | .pltHookCommitV1 => s.patterns || env.commitReads s.hooks
  | .pltHookCommitV4 => env.commitReads s.hooks
  | _ => false

/-- What is pending after a call that reads nothing of `g_hook`. -/
def ApiFn.after (env : Env) (arg : ApiArg) (s : Pending) : ApiFn → Pending
  | .pltHookRegisterV1 =>
      { s with patterns := s.patterns || (arg.regex.any env.regcomp && arg.symbol.isSome && arg.fn) }
  | .pltHookCommitV1 => { s with patterns := false }
  | .pltHookRegisterV4 =>
      match arg.symbol with
      | some symbol =>
          if arg.dev = 0 ∨ arg.inode = 0 ∨ arg.fn = false then s
          else { s with hooks := s.hooks ++ [⟨arg.dev, arg.inode, symbol⟩] }
      | none => s
  | _ => s

def Action.reads (env : Env) (api : ApiTable) (s : Pending) : Action → Bool
  | .api slot arg => (api slot).any fun fn => fn.reads env arg s
  | _ => false

def Action.after (env : Env) (api : ApiTable) (s : Pending) : Action → Pending
  | .api slot arg => (api slot).elim s fun fn => fn.after env arg s
  | _ => s

theorem ApiFn.reads_of_not_usesHook {fn : ApiFn} (h : fn.usesHook = false) (env : Env) (arg : ApiArg)
    (s : Pending) : fn.reads env arg s = false := by
  cases fn with
  | hookJniNativeMethods => cases h
  | pltHookCommitV1 => cases h
  | pltHookCommitV4 => cases h
  | _ => rfl

theorem Action.reads_of_not_usesHook {api : ApiTable} {a : Action} (h : a.usesHook api = false)
    {env : Env} {s : Pending} : a.reads env api s = false := by
  cases a with
  | api slot arg =>
      simp only [Action.usesHook, Action.reads] at h ⊢
      cases hs : api slot with
      | none => rfl
      | some fn =>
          rw [hs, Option.any_some] at h
          rw [Option.any_some]
          exact ApiFn.reads_of_not_usesHook h env arg s
  | openFd fd target => rfl
  | closeFd fd => rfl

/-- A call that reads a member of `g_hook` crashes exactly when it is null. -/
theorem callApi_fault (env : Env) (fn : ApiFn) (arg : ApiArg) (m : ZygiskModule) {p : Proc}
    (hctx : p.gCtx.isSome = true) (hfault : p.fault = none) :
    (callApi env fn arg m p).2.fault =
      if fn.reads env arg (pending p) && p.gHook.isNone then some .nullHook else none := by
  obtain ⟨c, hc⟩ := Option.isSome_iff_exists.mp hctx
  cases hh : p.gHook with
  | some h =>
      -- with `g_hook` set the frame leaves no fault to take
      have hframe := callApi_frame env fn arg m p
      rcases hframe.fault with h | ⟨hn, -⟩
      · simp [h, hfault]
      · rw [hh] at hn
        cases hn
  | none =>
      have hcommit : ∀ q : Proc, q.gHook = none → q.fault = none → (commitHook env q).fault =
          if env.commitReads q.pltHooks then some .nullHook else none := by
        intro q hq hqfault
        rw [commitHook]
        split
        · simp [Proc.derefHook, hq, Proc.crash]
        · exact hqfault
      cases fn <;> simp only [ApiFn.reads, Option.isNone_none, Bool.and_true, Bool.false_eq_true, if_false,
        callApi, hc, Option.isSome_some, if_true]
      case hookJniNativeMethods =>
          rw [Injector.hookJniNativeMethods]
          split
          · simp [Proc.derefHook, hh, Proc.crash]
          · exact hfault
      case pltHookCommitV4 => exact hcommit p hh hfault
      case pltHookCommitV1 =>
          simp only [Injector.pltHookCommit, Proc.derefCtx, hc, pltHookProcessRegex, pending, Option.any_some]
          cases hpatterns : c.registerInfo.isEmpty with
          | false => simp [Proc.next, Proc.derefHook, hh, Proc.crash]
          | true =>
              simp only [Proc.next, hfault, if_true, Option.isSome_none, Bool.false_eq_true, if_false, Bool.not_true,
                Bool.false_or]
              exact hcommit (p.setCtx { c with registerInfo := [], ignoreInfo := [] }) hh hfault
      case pltHookRegisterV1 =>
          simp only [pltHookRegister, Proc.derefCtx, hc]
          split
          · split <;> exact hfault
          · exact hfault
      case pltHookExclude =>
          simp only [Injector.pltHookExclude, Proc.derefCtx, hc]
          split
          · split <;> exact hfault
          · exact hfault
      case setOption => cases arg.option <;> exact hfault
      case pltHookRegisterV4 =>
          split
          · split <;> exact hfault
          · exact hfault
      case exemptFd =>
          simp only [Injector.exemptFd, Proc.derefCtx, hc]
          split
          · exact hfault
          · split <;> exact hfault
      all_goals exact hfault

/-- A call that reads nothing of `g_hook` leaves pending what it should. -/
theorem callApi_pending (env : Env) (fn : ApiFn) (arg : ApiArg) (m : ZygiskModule) {p : Proc}
    (hctx : p.gCtx.isSome = true) (hfault : p.fault = none)
    (hreads : fn.reads env arg (pending p) = false) :
    pending (callApi env fn arg m p).2 = fn.after env arg (pending p) := by
  obtain ⟨c, hc⟩ := Option.isSome_iff_exists.mp hctx
  -- updates of the context that keep the patterns keep what is pending
  have hsame : ∀ c', c'.registerInfo = c.registerInfo → pending (p.setCtx c') = pending p := by
    intro c' h
    simp [pending, Proc.setCtx, hc, h]
  cases fn <;> simp only [callApi, hc, Option.isSome_some, if_true, ApiFn.after]
  case hookJniNativeMethods =>
      rw [Injector.hookJniNativeMethods, show hookableMethod env arg = false from hreads]
      rfl
  case pltHookRegisterV1 =>
      simp only [pltHookRegister, Proc.derefCtx, hc]
      cases hregex : arg.regex <;> cases hsymbol : arg.symbol <;> cases hfn : arg.fn <;>
        simp only [Option.any_none, Option.any_some, Option.isSome_none, Option.isSome_some, Bool.and_false,
          Bool.and_true, Bool.or_false]
      case some.some.true regex symbol =>
          split
          · rename_i hcomp
            simp [pending, Proc.setCtx, hcomp]
          · rename_i hcomp
            simp [Bool.not_eq_true _ ▸ hcomp]
  case pltHookExclude =>
      simp only [Injector.pltHookExclude, Proc.derefCtx, hc]
      split
      · split
        · exact hsame _ rfl
        · rfl
      · rfl
  case pltHookCommitV1 =>
      obtain ⟨hpatterns, hcommit⟩ := Bool.or_eq_false_iff.mp hreads
      have hempty : c.registerInfo.isEmpty = true := by simpa [pending, hc] using hpatterns
      have hmaps : env.commitReads (p.setCtx { c with registerInfo := [], ignoreInfo := [] }).pltHooks = false :=
        hcommit
      simp only [Injector.pltHookCommit, Proc.derefCtx, hc, pltHookProcessRegex, hempty, if_true, Proc.next, hfault,
        Option.isSome_none, Bool.false_eq_true, if_false, commitHook, hmaps]
      rfl
  case setOption =>
      cases arg.option with
      | FORCE_DENYLIST_UNMOUNT => exact hsame _ rfl
      | DLCLOSE_MODULE_LIBRARY => rfl
  case pltHookRegisterV4 =>
      split
      · split
        · rfl
        · simp [pending, hc]
      · rfl
  case exemptFd =>
      simp only [Injector.exemptFd, Proc.derefCtx, hc]
      split
      · rfl
      · split
        · rfl
        · exact hsame _ rfl
  case pltHookCommitV4 =>
      rw [commitHook, show env.commitReads p.pltHooks = false from hreads]
      rfl

theorem runAction_fault (env : Env) (m : ZygiskModule) {p : Proc} (a : Action)
    (hctx : p.gCtx.isSome = true) (hfault : p.fault = none) :
    (runAction env m p a).2.fault =
      if a.reads env m.api (pending p) && p.gHook.isNone then some .nullHook else none := by
  cases a with
  | api slot arg =>
      simp only [runAction]
      cases hs : m.api slot with
      | none => simp [Action.reads, hs, hfault]
      | some fn => simp only [callApi_fault env fn arg m hctx hfault, Action.reads, hs, Option.any_some]
  | openFd fd target =>
      simp only [runAction]
      split <;> simp [Action.reads, hfault]
  | closeFd fd =>
      have : (p.close fd).fault = p.fault := by
        simp only [Proc.close]
        split <;> rfl
      simp [runAction, Action.reads, this, hfault]

theorem runAction_pending (env : Env) (m : ZygiskModule) {p : Proc} (a : Action)
    (hctx : p.gCtx.isSome = true) (hfault : p.fault = none)
    (hreads : a.reads env m.api (pending p) = false) :
    pending (runAction env m p a).2 = a.after env m.api (pending p) := by
  cases a with
  | api slot arg =>
      simp only [runAction]
      cases hs : m.api slot with
      | none => simp [Action.after, hs]
      | some fn =>
          rw [Action.reads, hs, Option.any_some] at hreads
          simp only [callApi_pending env fn arg m hctx hfault hreads, Action.after, hs, Option.elim_some]
  | openFd fd target =>
      simp only [runAction]
      split <;> rfl
  | closeFd fd =>
      simp only [runAction, Proc.close]
      split <;> rfl

/-- An action of which no function goes through `g_hook` returns. -/
theorem runAction_returns (env : Env) (m : ZygiskModule) {p : Proc} {a : Action}
    (hctx : p.gCtx.isSome = true) (hfault : p.fault = none)
    (hret : (a.usesHook m.api && p.gHook.isNone) = false) : (runAction env m p a).2.fault = none := by
  rw [runAction_fault env m a hctx hfault]
  rcases Bool.and_eq_false_iff.mp hret with hu | hn
  · simp [Action.reads_of_not_usesHook hu]
  · simp [hn]

/-- The table after a registration. -/
def registerTable (api : ApiTable) : Option ModuleAbi → ApiTable
  | none => api
  | some abi => if ZYGISK_API_VERSION < abi.apiVersion then api else fillTable abi.apiVersion api

/-- The entry calls such a function through the table it has at that point. -/
def entryUsesHook : ApiTable → List EntryAction → Bool
  | _, [] => false
  | api, .registerModule module :: as => entryUsesHook (registerTable api module) as
  | api, .act a :: as => a.usesHook api || entryUsesHook api as

/-- The table an entry leaves behind. -/
def finalTable : ApiTable → List EntryAction → ApiTable
  | api, [] => api
  | api, .registerModule module :: as => finalTable (registerTable api module) as
  | api, .act _ :: as => finalTable api as

theorem registerModuleImpl_api (m : ZygiskModule) (module : Option ModuleAbi) :
    (registerModuleImpl m module).api = registerTable m.api module := by
  cases module with
  | none => rfl
  | some abi =>
      simp only [registerModuleImpl, registerTable]
      split <;> rfl

/-- An entry that returns leaves the table of its accepted registrations. -/
theorem onLoad_api (env : Env) (as : List EntryAction) (m : ZygiskModule) (p : Proc)
    (h : (onLoad env as m p).2.fault = none) :
    (onLoad env as m p).1.api = finalTable m.api as := by
  induction as generalizing m p with
  | nil => rfl
  | cons a as ih =>
      cases a with
      | registerModule module =>
          have hrest := ih (registerModuleImpl m module) p h
          rw [registerModuleImpl_api] at hrest
          exact hrest
      | act a =>
          simp only [onLoad] at h ⊢
          split at h
          · rename_i hf
            rw [h] at hf
            cases hf
          · rename_i hf
            rw [if_neg hf]
            refine (ih _ _ h).trans ?_
            rw [(runAction_moduleFrame env m p a).api]
            rfl

/-- A crashed process runs no more code. -/
theorem runActions_of_fault (env : Env) (as : List Action) (m : ZygiskModule) {p : Proc}
    (h : p.fault ≠ none) : runActions env as m p = (m, p) := by
  cases as with
  | nil => rfl
  | cons a as =>
      rw [runActions, if_pos (Option.isSome_iff_ne_none.mpr h)]

/-- Module code returns when `g_hook` is set or no action goes through it. -/
theorem runActions_returns (env : Env) (as : List Action) (m : ZygiskModule) {p : Proc}
    (hctx : p.gCtx.isSome = true) (hfault : p.fault = none)
    (hret : (as.any (·.usesHook m.api) && p.gHook.isNone) = false) :
    (runActions env as m p).2.fault = none := by
  induction as generalizing m p with
  | nil => exact hfault
  | cons a as ih =>
      have hframe := runAction_frame env m p a
      rw [List.any_cons, Bool.and_or_distrib_right, Bool.or_eq_false_iff] at hret
      rw [runActions, if_neg (by simp [hfault])]
      -- the action returns, with the same table and the same `g_hook` for the rest
      refine ih _ (hframe.ctx_isSome ▸ hctx) (runAction_returns env m hctx hfault hret.1) ?_
      rw [(runAction_moduleFrame env m p a).api, hframe.hook]
      exact hret.2

/-- Nothing of an entry can be undone by a crash: once crashed, the process stays as it is. -/
theorem onLoad_of_fault (env : Env) (as : List EntryAction) (m : ZygiskModule) {p : Proc}
    (h : p.fault ≠ none) : (onLoad env as m p).2 = p := by
  induction as generalizing m with
  | nil => rfl
  | cons a as ih =>
      cases a with
      | registerModule module => exact ih _
      | act a => rw [onLoad, if_pos (Option.isSome_iff_ne_none.mpr h)]

/-- The same for an entry, with the table it has built up at each point. -/
theorem onLoad_returns (env : Env) (as : List EntryAction) (m : ZygiskModule) {p : Proc}
    (hctx : p.gCtx.isSome = true) (hfault : p.fault = none)
    (hret : (entryUsesHook m.api as && p.gHook.isNone) = false) :
    (onLoad env as m p).2.fault = none := by
  induction as generalizing m p with
  | nil => exact hfault
  | cons a as ih =>
      cases a with
      | registerModule module =>
          refine ih (registerModuleImpl m module) hctx hfault ?_
          rw [registerModuleImpl_api]
          exact hret
      | act a =>
          have hframe := runAction_frame env m p a
          rw [entryUsesHook, Bool.and_or_distrib_right, Bool.or_eq_false_iff] at hret
          rw [onLoad, if_neg (by simp [hfault])]
          refine ih _ (hframe.ctx_isSome ▸ hctx) (runAction_returns env m hctx hfault hret.1) ?_
          rw [(runAction_moduleFrame env m p a).api, hframe.hook]
          exact hret.2

end NeoZygisk.Injector
