import NeoZygisk.Injector.ModuleApi

/-!
# Dispatching the module callbacks

`run_modules_pre` loads the libraries the daemon serves, runs each module's entry and then its
pre-specialization callback; `run_modules_post` runs the post-specialization callbacks and unloads
the modules that asked for it. Neither asks `ZygiskModule::valid`. The app callbacks switch on the
registered version, so they read `mod` first and skip versions they do not know; the server callbacks
jump through `mod` directly.

`onlyValidCalled_iff` says what this costs: no unset `mod` is read, no callback of an invalid module
is called and every valid module gets its callbacks exactly when every loaded module has registered
a table that is valid (or, in an app, of a version the switch skips). The assumption that module code
itself returns (`CodeReturns`) is about the API, not about registration.
-/

set_option autoImplicit false

namespace NeoZygisk.Injector

open NeoZygisk.Common
open NeoZygisk.Lib.Mask

/-! ## Loading -/

/-- A `ZygiskModule` as it is constructed: an empty table and a null `mod`. -/
def newModule (id : Nat) (entry : List EntryAction) (dlclose : Bool) : ZygiskModule where
  id := id
  entry := entry
  dlclose := dlclose
  unload := false
  api := fun _ => none
  mod := none

/-- `zygiskd::ReadModules`. -/
def readModules (env : Env) : List ServedModule :=
  if env.reachable .readModules then env.modules else []

/-- The modules that enter the list: those whose library loads and has an entry. The id is the
position in the daemon's list. -/
def loadedModules (served : List ServedModule) : List ZygiskModule :=
  served.zipIdx.filterMap fun (m, i) =>
    m.library.bind fun lib => lib.entry.map fun entry => newModule i entry lib.dlclose

/-- Every library that `DlopenMem` maps, with or without an entry. -/
def loadEvents (served : List ServedModule) : List Event :=
  served.zipIdx.filterMap fun (m, i) => m.library.map fun _ => .load i

/-! ## Callbacks -/

/-- A call through a callback pointer of the registered table. -/
def invoke (env : Env) (callback : Callback) (code : Option (List Action)) (m : ZygiskModule)
    (p : Proc) : ZygiskModule × Proc :=
  match code with
  | none => (m, (p.emit (.call m.id callback)).crash .nullCallback)
  | some as => runActions env as m (p.emit (.call m.id callback))

/-- `call_app`: a switch on the version behind `mod`, with no default. -/
def callApp (env : Env) (callback : Callback) (method : ModuleAbi → Option (List Action))
    (m : ZygiskModule) (p : Proc) : ZygiskModule × Proc :=
  match m.mod with
  | none => (m, p.crash .nullMod)
  | some abi =>
      if 1 ≤ abi.apiVersion ∧ abi.apiVersion ≤ 5 then invoke env callback (method abi) m p
      else (m, p)

/-- The server callbacks jump through `mod` whatever the version. -/
def callServer (env : Env) (callback : Callback) (method : ModuleAbi → Option (List Action))
    (m : ZygiskModule) (p : Proc) : ZygiskModule × Proc :=
  match m.mod with
  | none => (m, p.crash .nullMod)
  | some abi => invoke env callback (method abi) m p

def preAppSpecialize (env : Env) : ZygiskModule → Proc → ZygiskModule × Proc :=
  callApp env .preAppSpecialize ModuleAbi.preAppSpecialize

def postAppSpecialize (env : Env) : ZygiskModule → Proc → ZygiskModule × Proc :=
  callApp env .postAppSpecialize ModuleAbi.postAppSpecialize

def preServerSpecialize (env : Env) : ZygiskModule → Proc → ZygiskModule × Proc :=
  callServer env .preServerSpecialize ModuleAbi.preServerSpecialize

def postServerSpecialize (env : Env) : ZygiskModule → Proc → ZygiskModule × Proc :=
  callServer env .postServerSpecialize ModuleAbi.postServerSpecialize

/-- The flags of the running specialization. -/
def ctxFlags (p : Proc) : Flags := (p.gCtx.map (·.flags)).getD 0#32

/-- The callback choice of both loops. -/
def dispatch (app server : ZygiskModule → Proc → ZygiskModule × Proc) (m : ZygiskModule)
    (p : Proc) : ZygiskModule × Proc :=
  if has (ctxFlags p) APP_SPECIALIZE then app m p
  else if has (ctxFlags p) SERVER_FORK_AND_SPECIALIZE then server m p
  else (m, p)

/-- One round of the loop in `run_modules_pre`. -/
def preModule (env : Env) (m : ZygiskModule) (p : Proc) : ZygiskModule × Proc :=
  let r := onLoad env m.entry m p
  if r.2.fault.isSome then r
  else dispatch (preAppSpecialize env) (preServerSpecialize env) r.1 r.2

/-- One round of the loop in `run_modules_post`. -/
def postModule (env : Env) (m : ZygiskModule) (p : Proc) : ZygiskModule × Proc :=
  dispatch (postAppSpecialize env) (postServerSpecialize env) m p

/-- A loop over the module list; it stops where the process crashes. -/
def eachModule (body : ZygiskModule → Proc → ZygiskModule × Proc) :
    List ZygiskModule → Proc → List ZygiskModule × Proc
  | [], p => ([], p)
  | m :: ms, p =>
      if p.fault.isSome then (m :: ms, p)
      else
        let r := body m p
        let rs := eachModule body ms r.2
        (r.1 :: rs.1, rs.2)

/-- `g_ctx->modules = ms`. -/
def setModules (ms : List ZygiskModule) (p : Proc) : Proc :=
  { p with gCtx := p.gCtx.map fun c => { c with modules := ms } }

/-- The two loops of `run_modules_pre`: all libraries are loaded before the first entry runs. -/
def preLoop (env : Env) (p : Proc) : List ZygiskModule × Proc :=
  eachModule (preModule env) (loadedModules (readModules env))
    { p with log := p.log ++ loadEvents (readModules env) }

def runModulesPre (env : Env) (p : Proc) : Proc :=
  setModules (preLoop env p).1 (preLoop env p).2

def tryUnload (m : ZygiskModule) : Bool := m.unload && m.dlclose

/-- The last part of `run_modules_post`. Scrubbing libc and the linker is left out. -/
def unloadModules (ms : List ZygiskModule) (p : Proc) : Proc :=
  let modulesUnloaded := (ms.filter tryUnload).length
  match p.gHook with
  | some h =>
      if 0 < ms.length then
        p.setHook { h with
          shouldSpoofMaps :=
            has (ctxFlags p) APP_SPECIALIZE && decide (0 < ms.length - modulesUnloaded) }
      else p
  | none => p

/-- `flags |= POST_SPECIALIZE`. -/
def markPost (p : Proc) : Proc :=
  { p with gCtx := p.gCtx.map fun c => { c with flags := c.flags ||| POST_SPECIALIZE } }

/-- The loop of `run_modules_post`, over the modules of `g_ctx`. -/
def postLoop (env : Env) (p : Proc) : List ZygiskModule × Proc :=
  eachModule (postModule env) ((p.gCtx.map (·.modules)).getD []) p

def runModulesPost (env : Env) (p : Proc) : Proc :=
  let r := postLoop env (markPost p)
  (setModules r.1 r.2).next (unloadModules r.1)

/-! ## The loops -/

/-- The calls of callbacks in a log. -/
def callsOf (log : List Event) : List (Nat × Callback) :=
  log.filterMap fun
    | .call id callback => some (id, callback)
    | _ => none

@[simp] theorem callsOf_nil : callsOf [] = [] := rfl

@[simp] theorem callsOf_append (l l' : List Event) : callsOf (l ++ l') = callsOf l ++ callsOf l' :=
  List.filterMap_append

@[simp] theorem callsOf_closes (fds : List Nat) : callsOf (fds.map .close) = [] := by
  induction fds with
  | nil => rfl
  | cons fd fds ih => exact ih

@[simp] theorem callsOf_loadEvents (served : List ServedModule) :
    callsOf (loadEvents served) = [] := by
  rw [callsOf, loadEvents, List.filterMap_filterMap]
  refine List.filterMap_eq_nil_iff.mpr ?_
  rintro ⟨m, i⟩ -
  dsimp only
  cases m.library <;> rfl

theorem Frame.callsOf_eq {p p' : Proc} (h : Frame p p') : callsOf p'.log = callsOf p.log := by
  obtain ⟨fds, hfds⟩ := h.log
  simp [hfds]

/-- What every round keeps while the process runs: `g_hook`, a `g_ctx`, and the kind of the
specialization. -/
structure Running (hook : Option HookContext) (flags : Flags) (p : Proc) : Prop where
  fault : p.fault = none
  hook : p.gHook = hook
  ctx : p.gCtx.isSome = true
  app : has (ctxFlags p) APP_SPECIALIZE = has flags APP_SPECIALIZE
  server : has (ctxFlags p) SERVER_FORK_AND_SPECIALIZE = has flags SERVER_FORK_AND_SPECIALIZE

/-- A process after any part of the loops. Unlike module code, the loops also log calls and can die
from what a module registered. -/
structure LoopFrame (p p' : Proc) : Prop where
  hook : p'.gHook = p.gHook
  ctx : Option.Rel CtxFrame p.gCtx p'.gCtx
  log : p.log <+: p'.log

theorem Frame.loopFrame {p p' : Proc} (h : Frame p p') : LoopFrame p p' where
  hook := h.hook
  ctx := h.ctx
  log := by
    obtain ⟨fds, hfds⟩ := h.log
    exact ⟨_, hfds.symm⟩

theorem LoopFrame.refl (p : Proc) : LoopFrame p p := (Frame.refl p).loopFrame

theorem LoopFrame.trans {p p' p'' : Proc} (h : LoopFrame p p') (h' : LoopFrame p' p'') :
    LoopFrame p p'' where
  hook := h'.hook.trans h.hook
  ctx := ctxRel_trans h.ctx h'.ctx
  log := h.log.trans h'.log

/-- What the frame of a context keeps can be read off `g_ctx` on both sides. -/
theorem LoopFrame.map_ctx {α : Type} {p p' : Proc} (h : LoopFrame p p') (f : ZygiskContext → α)
    (hf : ∀ c c', CtxFrame c c' → f c' = f c) : p'.gCtx.map f = p.gCtx.map f := by
  have hctx := h.ctx
  cases hp : p.gCtx with
  | none =>
      cases hp' : p'.gCtx with
      | none => rfl
      | some c' => rw [hp, hp'] at hctx; cases hctx
  | some c =>
      cases hp' : p'.gCtx with
      | none => rw [hp, hp'] at hctx; cases hctx
      | some c' =>
          rw [hp, hp'] at hctx
          cases hctx with
          | some hc => exact congrArg some (hf c c' hc)

theorem LoopFrame.ctx_isSome {p p' : Proc} (h : LoopFrame p p') : p'.gCtx.isSome = p.gCtx.isSome := by
  simpa using congrArg Option.isSome (h.map_ctx (fun _ => ()) fun _ _ _ => rfl)

theorem LoopFrame.callsOf_subset {p p' : Proc} (h : LoopFrame p p') :
    callsOf p.log ⊆ callsOf p'.log := by
  obtain ⟨l, hl⟩ := h.log
  rw [← hl, callsOf_append]
  exact List.subset_append_left _ _

theorem LoopFrame.has_ctxFlags {p p' : Proc} (h : LoopFrame p p') {mask : Flags}
    (hm : has DO_REVERT_UNMOUNT mask = false) :
    has (ctxFlags p') mask = has (ctxFlags p) mask := by
  have hmap := h.map_ctx (fun c => has c.flags mask) fun c c' hc => hc.flags mask hm
  simp only [ctxFlags]
  cases hp : p.gCtx <;> cases hp' : p'.gCtx <;> simp_all

theorem Running.frame {hook : Option HookContext} {flags : Flags} {p p' : Proc}
    (hp : Running hook flags p) (h : LoopFrame p p') (hfault : p'.fault = none) :
    Running hook flags p' where
  fault := hfault
  hook := h.hook.trans hp.hook
  ctx := h.ctx_isSome.trans hp.ctx
  app := (h.has_ctxFlags (by decide)).trans hp.app
  server := (h.has_ctxFlags (by decide)).trans hp.server

/-- A loop whose rounds keep the process running runs to its end; the calls it makes are those of its
rounds, in order, and the new list matches the old one entry by entry. -/
theorem eachModule_running {body : ZygiskModule → Proc → ZygiskModule × Proc}
    {hook : Option HookContext} {flags : Flags} (R : ZygiskModule → ZygiskModule → Prop)
    (calls : ZygiskModule → List (Nat × Callback)) {ms : List ZygiskModule} {p : Proc}
    (hbody : ∀ m ∈ ms, ∀ q, Running hook flags q → Running hook flags (body m q).2 ∧
      R m (body m q).1 ∧ callsOf (body m q).2.log = callsOf q.log ++ calls m)
    (hp : Running hook flags p) :
    Running hook flags (eachModule body ms p).2 ∧
      List.Forall₂ R ms (eachModule body ms p).1 ∧
      callsOf (eachModule body ms p).2.log = callsOf p.log ++ ms.flatMap calls := by
  induction ms generalizing p with
  | nil => exact ⟨hp, .nil, by simp [eachModule]⟩
  | cons m ms ih =>
      -- the head round keeps the process running, so the loop goes on with the tail
      obtain ⟨hrun, hR, hcalls⟩ := hbody m List.mem_cons_self p hp
      obtain ⟨hrun', hR', hcalls'⟩ :=
        ih (fun n hn => hbody n (List.mem_cons_of_mem m hn)) hrun
      rw [eachModule, if_neg (by simp [hp.fault])]
      refine ⟨hrun', .cons hR hR', ?_⟩
      rw [List.flatMap_cons, ← List.append_assoc, ← hcalls]
      exact hcalls'

/-- A loop that meets a bad module ends in a stuck state, when one bad round makes the state stuck
and later rounds keep it so. -/
theorem eachModule_stuck {body : ZygiskModule → Proc → ZygiskModule × Proc}
    {hook : Option HookContext} {flags : Flags} (Good : ZygiskModule → Prop)
    (Stuck : Proc → Prop) (hkeep : ∀ m q, q.fault = none → Stuck q → Stuck (body m q).2) :
    ∀ {ms : List ZygiskModule} {p : Proc},
      (∀ m ∈ ms, Good m → ∀ q, Running hook flags q → Running hook flags (body m q).2) →
      (∀ m ∈ ms, ¬ Good m → ∀ q, Running hook flags q → Stuck (body m q).2) →
      (∃ m ∈ ms, ¬ Good m) → Running hook flags p → Stuck (eachModule body ms p).2 := by
  -- once stuck, the rest of the loop keeps it: a crash ends the loop, a log only grows
  have hstay : ∀ (ms : List ZygiskModule) (p : Proc), Stuck p →
      Stuck (eachModule body ms p).2 := by
    intro ms
    induction ms with
    | nil => exact fun p hp => hp
    | cons m ms ih =>
        intro p hp
        simp only [eachModule]
        split
        · exact hp
        · rename_i hf
          exact ih _ (hkeep m p (by simpa using hf) hp)
  intro ms
  induction ms with
  | nil =>
      rintro p - - ⟨m, hm, -⟩ -
      cases hm
  | cons m ms ih =>
      intro p hgood hbad hex hp
      rw [eachModule, if_neg (by simp [hp.fault])]
      by_cases hm : Good m
      -- a good head leaves the process running, and the bad module is further on
      · refine ih (fun n hn => hgood n (List.mem_cons_of_mem m hn))
          (fun n hn => hbad n (List.mem_cons_of_mem m hn)) ?_
          (hgood m List.mem_cons_self hm p hp)
        obtain ⟨n, hn, hng⟩ := hex
        rcases List.mem_cons.mp hn with rfl | hn
        · exact absurd hm hng
        · exact ⟨n, hn, hng⟩
      · exact hstay ms _ (hbad m List.mem_cons_self hm p hp)

/-! ## One round -/

/-- The callbacks of one loop: what it calls in an app and in the system server. -/
structure Phase where
  appCallback : Callback
  appMethod : ModuleAbi → Option (List Action)
  serverCallback : Callback
  serverMethod : ModuleAbi → Option (List Action)

def Phase.pre : Phase where
  appCallback := .preAppSpecialize
  appMethod := ModuleAbi.preAppSpecialize
  serverCallback := .preServerSpecialize
  serverMethod := ModuleAbi.preServerSpecialize

def Phase.post : Phase where
  appCallback := .postAppSpecialize
  appMethod := ModuleAbi.postAppSpecialize
  serverCallback := .postServerSpecialize
  serverMethod := ModuleAbi.postServerSpecialize

/-- The choice both loops make, for a phase. -/
def Phase.round (env : Env) (ph : Phase) : ZygiskModule → Proc → ZygiskModule × Proc :=
  dispatch (callApp env ph.appCallback ph.appMethod) (callServer env ph.serverCallback ph.serverMethod)

def Phase.callback (ph : Phase) (flags : Flags) : Callback :=
  if has flags APP_SPECIALIZE then ph.appCallback else ph.serverCallback

def Phase.method (ph : Phase) (flags : Flags) (abi : ModuleAbi) : Option (List Action) :=
  if has flags APP_SPECIALIZE then ph.appMethod abi else ph.serverMethod abi

/-- The specialization is of one of the two kinds that have callbacks. -/
def dispatches (flags : Flags) : Bool :=
  has flags APP_SPECIALIZE || has flags SERVER_FORK_AND_SPECIALIZE

/-- The dispatch of a registered table goes through: the switch of the app callbacks knows versions
1 to 5 only. -/
def invokes (flags : Flags) (abi : ModuleAbi) : Bool :=
  if has flags APP_SPECIALIZE then decide (1 ≤ abi.apiVersion ∧ abi.apiVersion ≤ 5)
  else has flags SERVER_FORK_AND_SPECIALIZE

theorem round_of_not_dispatches (env : Env) (ph : Phase) {hook : Option HookContext} {flags : Flags}
    {p : Proc} (hp : Running hook flags p) (h : dispatches flags = false) (m : ZygiskModule) :
    ph.round env m p = (m, p) := by
  obtain ⟨happ, hserver⟩ := Bool.or_eq_false_iff.mp h
  simp [Phase.round, dispatch, hp.app, hp.server, happ, hserver]

/-- A round on a module that never registered reads through its null `mod`. -/
theorem round_of_mod_none (env : Env) (ph : Phase) {hook : Option HookContext} {flags : Flags}
    {p : Proc} (hp : Running hook flags p) (h : dispatches flags = true) {m : ZygiskModule}
    (hm : m.mod = none) : ph.round env m p = (m, p.crash .nullMod) := by
  rw [Phase.round, dispatch, callApp, callServer, hp.app, hp.server, hm]
  -- both kinds of dispatch read `mod` first
  rcases Bool.or_eq_true_iff.mp h with happ | hserver
  · simp [happ]
  · simp [hserver]

/-- A round on a registered module calls exactly when the dispatch goes through. -/
theorem round_of_mod_some (env : Env) (ph : Phase) {hook : Option HookContext} {flags : Flags}
    {p : Proc} (hp : Running hook flags p) {m : ZygiskModule} {abi : ModuleAbi}
    (hm : m.mod = some abi) :
    ph.round env m p =
      if invokes flags abi then invoke env (ph.callback flags) (ph.method flags abi) m p
      else (m, p) := by
  rw [Phase.round, dispatch, callApp, callServer, hp.app, hp.server, hm]
  cases happ : has flags APP_SPECIALIZE with
  | true => simp [invokes, Phase.callback, Phase.method, happ]
  | false =>
      cases hserver : has flags SERVER_FORK_AND_SPECIALIZE with
      | true => simp [invokes, Phase.callback, Phase.method, happ, hserver]
      | false => simp [invokes, happ, hserver]

/-- Whatever happens inside, a call is logged and nothing else is called. -/
theorem callsOf_invoke (env : Env) (callback : Callback) (code : Option (List Action))
    (m : ZygiskModule) (p : Proc) :
    callsOf (invoke env callback code m p).2.log = callsOf p.log ++ [(m.id, callback)] := by
  have hemit : callsOf (p.emit (.call m.id callback)).log = callsOf p.log ++ [(m.id, callback)] :=
    callsOf_append _ _
  cases code with
  | none => exact hemit
  | some as => exact (runActions_frame env as m _).callsOf_eq.trans hemit

theorem crash_loopFrame (p : Proc) (f : Fault) : LoopFrame p (p.crash f) :=
  ⟨rfl, (Frame.refl p).ctx, List.prefix_refl _⟩

theorem invoke_loopFrame (env : Env) (callback : Callback) (code : Option (List Action))
    (m : ZygiskModule) (p : Proc) : LoopFrame p (invoke env callback code m p).2 := by
  have hemit : LoopFrame p (p.emit (.call m.id callback)) :=
    ⟨rfl, (Frame.refl p).ctx, ⟨_, rfl⟩⟩
  cases code with
  | none => exact hemit.trans (crash_loopFrame _ _)
  | some as => exact hemit.trans (runActions_frame env as m _).loopFrame

theorem round_loopFrame (env : Env) (ph : Phase) (m : ZygiskModule) (p : Proc) :
    LoopFrame p (ph.round env m p).2 := by
  simp only [Phase.round, dispatch, callApp, callServer]
  split
  · split
    · exact crash_loopFrame _ _
    · split
      · exact invoke_loopFrame env _ _ m p
      · exact .refl p
  · split
    · split
      · exact crash_loopFrame _ _
      · exact invoke_loopFrame env _ _ m p
    · exact .refl p

/-- A callback that returns keeps the process running and the module registered as it was. -/
theorem invoke_running (env : Env) (callback : Callback) {as : List Action} {m : ZygiskModule}
    {hook : Option HookContext} {flags : Flags} {p : Proc} (hp : Running hook flags p)
    (hret : (as.any (·.usesHook m.api) && hook.isNone) = false) :
    Running hook flags (invoke env callback (some as) m p).2 ∧
      ModuleFrame m (invoke env callback (some as) m p).1 := by
  have hemit : Running hook flags (p.emit (.call m.id callback)) :=
    ⟨hp.fault, hp.hook, hp.ctx, hp.app, hp.server⟩
  rw [← hemit.hook] at hret
  have hfault := runActions_returns env as m hemit.ctx hemit.fault hret
  exact ⟨hemit.frame (runActions_frame env as m _).loopFrame hfault, runActions_moduleFrame env as m _⟩

/-! ## Registration and the rounds -/

/-- A module once its entry has returned (a request to be unloaded aside). -/
def afterEntry (m : ZygiskModule) : ZygiskModule :=
  { m with mod := acceptedAbi m.entry m.mod, api := finalTable m.api m.entry }

/-- The module has a table, and one that `valid` accepts if the dispatch of this specialization
goes through it. -/
def registered (flags : Flags) (m : ZygiskModule) : Bool :=
  !dispatches flags || m.mod.any fun abi => !invokes flags abi || valid m

/-- The code behind a callback of the phase calls a function that may dereference `g_hook`. -/
def Phase.usesHook (ph : Phase) (flags : Flags) (m : ZygiskModule) : Bool :=
  m.mod.any fun abi =>
    invokes flags abi && (ph.method flags abi).any fun as => as.any (·.usesHook m.api)

/-- The calls a phase owes a module. -/
def Phase.calls (ph : Phase) (flags : Flags) (m : ZygiskModule) : List (Nat × Callback) :=
  if dispatches flags && valid m then [(m.id, ph.callback flags)] else []

theorem Phase.mem_calls {ph : Phase} {flags : Flags} {m : ZygiskModule} {x : Nat × Callback} :
    x ∈ ph.calls flags m ↔
      (dispatches flags = true ∧ valid m = true) ∧ x = (m.id, ph.callback flags) := by
  rw [Phase.calls, ← Bool.and_eq_true]
  split
  · rename_i h
    simp [h]
  · rename_i h
    simp [h]

theorem valid_congr {m m' : ZygiskModule} (h : ModuleFrame m m') : valid m' = valid m := by
  simp only [valid, h.mod]

theorem registered_congr {m m' : ZygiskModule} (h : ModuleFrame m m') (flags : Flags) :
    registered flags m' = registered flags m := by
  simp only [registered, h.mod, valid_congr h]

theorem Phase.usesHook_congr {m m' : ZygiskModule} (h : ModuleFrame m m') (ph : Phase)
    (flags : Flags) : ph.usesHook flags m' = ph.usesHook flags m := by
  simp only [Phase.usesHook, h.mod, h.api]

theorem Phase.calls_congr {m m' : ZygiskModule} (h : ModuleFrame m m') (ph : Phase)
    (flags : Flags) : ph.calls flags m' = ph.calls flags m := by
  simp only [Phase.calls, h.id, valid_congr h]

/-- A table that `valid` accepts has its four callbacks and a known version. -/
theorem valid_spec {m : ZygiskModule} (h : valid m = true) :
    ∃ abi, m.mod = some abi ∧ (1 ≤ abi.apiVersion ∧ abi.apiVersion ≤ 5) ∧
      abi.preAppSpecialize.isSome = true ∧ abi.postAppSpecialize.isSome = true ∧
      abi.preServerSpecialize.isSome = true ∧ abi.postServerSpecialize.isSome = true := by
  simp only [valid] at h
  split at h
  · cases h
  · rename_i abi hmod
    split at h
    · rename_i hv
      simp only [Bool.and_eq_true] at h
      obtain ⟨⟨⟨⟨-, h1⟩, h2⟩, h3⟩, h4⟩ := h
      exact ⟨abi, hmod, hv, h1, h2, h3, h4⟩
    · cases h

/-- The two phases of the program. -/
def Phase.IsLoop (ph : Phase) : Prop := ph = .pre ∨ ph = .post

theorem Phase.IsLoop.method_isSome {ph : Phase} (hph : ph.IsLoop) (flags : Flags)
    {m : ZygiskModule} {abi : ModuleAbi} (hm : m.mod = some abi) (hv : valid m = true) :
    ∃ as, ph.method flags abi = some as := by
  obtain ⟨abi', hm', -, h1, h2, h3, h4⟩ := valid_spec hv
  rw [hm] at hm'
  cases hm'
  refine Option.isSome_iff_exists.mp ?_
  simp only [Phase.method]
  rcases hph with rfl | rfl <;> split
  · exact h1
  · exact h3
  · exact h2
  · exact h4

/-- A round on a properly registered module whose code returns makes the call it owes. -/
theorem round_running (env : Env) {ph : Phase} (hph : ph.IsLoop) {hook : Option HookContext}
    {flags : Flags} {p : Proc} (hp : Running hook flags p) {m : ZygiskModule}
    (hreg : registered flags m = true) (hret : (ph.usesHook flags m && hook.isNone) = false) :
    Running hook flags (ph.round env m p).2 ∧ ModuleFrame m (ph.round env m p).1 ∧
      callsOf (ph.round env m p).2.log = callsOf p.log ++ ph.calls flags m := by
  cases hd : dispatches flags with
  | false =>
      rw [round_of_not_dispatches env ph hp hd]
      exact ⟨hp, .refl m, by simp [Phase.calls, hd]⟩
  | true =>
      -- a registered module has a table, and a valid one if the dispatch goes through it
      obtain ⟨abi, hm, hok⟩ : ∃ abi, m.mod = some abi ∧ (invokes flags abi = true → valid m = true) := by
        cases hm : m.mod with
        | none => simp [registered, hd, hm] at hreg
        | some abi =>
            refine ⟨abi, rfl, fun hi => ?_⟩
            simpa [registered, hd, hm, hi] using hreg
      rw [round_of_mod_some env ph hp hm]
      cases hi : invokes flags abi with
      | true =>
          obtain ⟨as, has⟩ := hph.method_isSome flags hm (hok hi)
          have hu : (as.any (·.usesHook m.api) && hook.isNone) = false := by
            simpa [Phase.usesHook, hm, hi, has] using hret
          rw [if_pos rfl, has]
          obtain ⟨hrun, hframe⟩ := invoke_running env (ph.callback flags) hp hu
          refine ⟨hrun, hframe, ?_⟩
          rw [callsOf_invoke]
          simp [Phase.calls, hd, hok hi]
      | false =>
          -- only the app switch skips a table, and only for a version `valid` refuses too
          have hv : valid m = false := by
            cases hv : valid m with
            | false => rfl
            | true =>
                obtain ⟨abi', hm', hver, -⟩ := valid_spec hv
                rw [hm] at hm'
                cases hm'
                simp only [dispatches] at hd
                simp only [invokes] at hi
                split at hi
                · simp [hver] at hi
                · rename_i happ
                  simp [happ, hi] at hd
          simp [Phase.calls, hv, hp, ModuleFrame.refl]

/-- A round on a module that is not properly registered reads a null `mod` or calls a callback of an
invalid module. -/
theorem round_bad (env : Env) (ph : Phase) {hook : Option HookContext} {flags : Flags} {p : Proc}
    (hp : Running hook flags p) {m : ZygiskModule} (hreg : registered flags m = false) :
    (ph.round env m p).2.fault = some .nullMod ∨
      valid m = false ∧ (m.id, ph.callback flags) ∈ callsOf (ph.round env m p).2.log := by
  simp only [registered] at hreg
  rw [Bool.or_eq_false_iff, Bool.not_eq_false'] at hreg
  obtain ⟨hd, hany⟩ := hreg
  cases hm : m.mod with
  | none =>
      rw [round_of_mod_none env ph hp hd hm]
      exact .inl rfl
  | some abi =>
      rw [hm, Option.any_some, Bool.or_eq_false_iff, Bool.not_eq_false'] at hany
      rw [round_of_mod_some env ph hp hm, if_pos hany.1, callsOf_invoke]
      exact .inr ⟨hany.2, by simp⟩

theorem onLoad_moduleFrame (env : Env) (m : ZygiskModule) (p : Proc)
    (hfault : (onLoad env m.entry m p).2.fault = none) :
    ModuleFrame (afterEntry m) (onLoad env m.entry m p).1 :=
  ⟨onLoad_id env m.entry m p, onLoad_api env m.entry m p hfault, onLoad_mod env m.entry m p hfault⟩

/-- An entry that returns leaves the process running and the module as `afterEntry` says. -/
theorem entry_running (env : Env) {hook : Option HookContext} {flags : Flags} {p : Proc}
    (hp : Running hook flags p) {m : ZygiskModule}
    (hret : (entryUsesHook m.api m.entry && hook.isNone) = false) :
    Running hook flags (onLoad env m.entry m p).2 ∧
      ModuleFrame (afterEntry m) (onLoad env m.entry m p).1 := by
  rw [← hp.hook] at hret
  have hfault := onLoad_returns env m.entry m hp.ctx hp.fault hret
  exact ⟨hp.frame (onLoad_frame env m.entry m p).loopFrame hfault, onLoad_moduleFrame env m p hfault⟩

theorem preModule_eq (env : Env) {m : ZygiskModule} {p : Proc}
    (h : (onLoad env m.entry m p).2.fault = none) :
    preModule env m p =
      Phase.pre.round env (onLoad env m.entry m p).1 (onLoad env m.entry m p).2 := by
  rw [preModule, if_neg (by simp [h])]
  rfl

/-- The code that `run_modules_pre` runs in a module calls a function that may dereference
`g_hook`. -/
def preUsesHook (flags : Flags) (m : ZygiskModule) : Bool :=
  entryUsesHook m.api m.entry || Phase.pre.usesHook flags (afterEntry m)

/-- Two pieces of module code return when each of them does. -/
theorem or_and_isNone_eq_false_iff {a b : Bool} {hook : Option HookContext} :
    ((a || b) && hook.isNone) = false ↔
      (a && hook.isNone) = false ∧ (b && hook.isNone) = false := by
  rw [Bool.and_or_distrib_right, Bool.or_eq_false_iff]

theorem preModule_running (env : Env) {hook : Option HookContext} {flags : Flags} {p : Proc}
    (hp : Running hook flags p) {m : ZygiskModule}
    (hreg : registered flags (afterEntry m) = true)
    (hret : (preUsesHook flags m && hook.isNone) = false) :
    Running hook flags (preModule env m p).2 ∧ ModuleFrame (afterEntry m) (preModule env m p).1 ∧
      callsOf (preModule env m p).2.log =
        callsOf p.log ++ Phase.pre.calls flags (afterEntry m) := by
  obtain ⟨hentry, hpre⟩ := or_and_isNone_eq_false_iff.mp hret
  obtain ⟨hrun, hframe⟩ := entry_running env hp hentry
  -- state the goal for the module the entry left behind, then it is one round
  rw [preModule_eq env hrun.fault, ← Phase.calls_congr hframe,
    ← (onLoad_frame env m.entry m p).callsOf_eq]
  rw [← registered_congr hframe] at hreg
  rw [← Phase.usesHook_congr hframe] at hpre
  obtain ⟨hrun', hframe', hcalls⟩ := round_running env (.inl rfl) hrun hreg hpre
  exact ⟨hrun', hframe.trans hframe', hcalls⟩

theorem preModule_bad (env : Env) {hook : Option HookContext} {flags : Flags} {p : Proc}
    (hp : Running hook flags p) {m : ZygiskModule}
    (hreg : registered flags (afterEntry m) = false)
    (hret : (preUsesHook flags m && hook.isNone) = false) :
    (preModule env m p).2.fault = some .nullMod ∨
      valid (afterEntry m) = false ∧
        (m.id, Phase.pre.callback flags) ∈ callsOf (preModule env m p).2.log := by
  obtain ⟨hrun, hframe⟩ := entry_running env hp (or_and_isNone_eq_false_iff.mp hret).1
  have hid : (onLoad env m.entry m p).1.id = m.id := onLoad_id env m.entry m p
  rw [← registered_congr hframe] at hreg
  rw [preModule_eq env hrun.fault, ← valid_congr hframe, ← hid]
  exact round_bad env .pre hrun hreg

theorem preModule_loopFrame (env : Env) (m : ZygiskModule) (p : Proc) :
    LoopFrame p (preModule env m p).2 := by
  have hentry := (onLoad_frame env m.entry m p).loopFrame
  simp only [preModule]
  split
  · exact hentry
  · exact hentry.trans (round_loopFrame env .pre _ _)

/-! ## Both loops -/

theorem eachModule_loopFrame {body : ZygiskModule → Proc → ZygiskModule × Proc}
    (hbody : ∀ m q, LoopFrame q (body m q).2) (ms : List ZygiskModule) (p : Proc) :
    LoopFrame p (eachModule body ms p).2 := by
  induction ms generalizing p with
  | nil => exact .refl p
  | cons m ms ih =>
      simp only [eachModule]
      split
      · exact .refl p
      · exact (hbody m p).trans (ih _)

theorem setModules_running {hook : Option HookContext} {flags : Flags} {p : Proc}
    (hp : Running hook flags p) (ms : List ZygiskModule) :
    Running hook flags (setModules ms p) := by
  obtain ⟨hfault, hhook, hctx, happ, hserver⟩ := hp
  obtain ⟨c, hc⟩ := Option.isSome_iff_exists.mp hctx
  simp only [ctxFlags, hc, Option.map_some, Option.getD_some] at happ hserver
  refine ⟨hfault, hhook, ?_, ?_, ?_⟩ <;> simp [setModules, ctxFlags, hc, happ, hserver]

@[simp] theorem unloadModules_log (ms : List ZygiskModule) (p : Proc) :
    (unloadModules ms p).log = p.log := by
  simp only [unloadModules]
  split
  · split <;> rfl
  · rfl

@[simp] theorem unloadModules_fault (ms : List ZygiskModule) (p : Proc) :
    (unloadModules ms p).fault = p.fault := by
  simp only [unloadModules]
  split
  · split <;> rfl
  · rfl

theorem markPost_running {hook : Option HookContext} {flags : Flags} {p : Proc}
    (hp : Running hook flags p) : Running hook flags (markPost p) := by
  obtain ⟨hfault, hhook, hctx, happ, hserver⟩ := hp
  obtain ⟨c, hc⟩ := Option.isSome_iff_exists.mp hctx
  simp only [ctxFlags, hc, Option.map_some, Option.getD_some] at happ hserver
  have h1 : has POST_SPECIALIZE APP_SPECIALIZE = false := by decide
  have h2 : has POST_SPECIALIZE SERVER_FORK_AND_SPECIALIZE = false := by decide
  refine ⟨hfault, hhook, ?_, ?_, ?_⟩ <;> simp [markPost, ctxFlags, hc, happ, hserver, h1, h2]

theorem runModulesPost_log (env : Env) (p : Proc) :
    (runModulesPost env p).log = (postLoop env (markPost p)).2.log := by
  simp only [runModulesPost, Proc.next]
  split
  · rfl
  · rw [unloadModules_log]
    rfl

theorem runModulesPost_fault (env : Env) (p : Proc) :
    (runModulesPost env p).fault = (postLoop env (markPost p)).2.fault := by
  simp only [runModulesPost, Proc.next]
  split
  · rfl
  · rw [unloadModules_fault]
    rfl

/-- Both loops of one specialization. -/
def runModules (env : Env) (p : Proc) : Proc :=
  (runModulesPre env p).next (runModulesPost env)

/-- Some code that the two loops run in a module calls a function that may dereference `g_hook`. -/
def moduleUsesHook (flags : Flags) (m : ZygiskModule) : Bool :=
  preUsesHook flags m || Phase.post.usesHook flags (afterEntry m)

theorem loadEvents_running {hook : Option HookContext} {flags : Flags} {p : Proc}
    (hp : Running hook flags p) (served : List ServedModule) :
    Running hook flags { p with log := p.log ++ loadEvents served } :=
  ⟨hp.fault, hp.hook, hp.ctx, hp.app, hp.server⟩

theorem flatMap_calls_eq (ph : Phase) (flags : Flags) {ms ms' : List ZygiskModule}
    (h : List.Forall₂ (fun m m' => ModuleFrame (afterEntry m) m') ms ms') :
    ms'.flatMap (ph.calls flags) = ms.flatMap fun m => ph.calls flags (afterEntry m) := by
  induction h with
  | nil => rfl
  | cons hm _ ih => rw [List.flatMap_cons, List.flatMap_cons, ih, Phase.calls_congr hm]

theorem exists_of_forall₂ {R : ZygiskModule → ZygiskModule → Prop} {ms ms' : List ZygiskModule}
    (h : List.Forall₂ R ms ms') : ∀ m' ∈ ms', ∃ m ∈ ms, R m m' := by
  induction h with
  | nil =>
      intro m' hm'
      cases hm'
  | cons hm _ ih =>
      intro m' hm'
      rcases List.mem_cons.mp hm' with rfl | hm'
      · exact ⟨_, List.mem_cons_self, hm⟩
      · obtain ⟨n, hn, hR⟩ := ih m' hm'
        exact ⟨n, List.mem_cons_of_mem _ hn, hR⟩

/-- With every module properly registered and all code returning, the first loop runs to its end. -/
theorem preLoop_running (env : Env) {hook : Option HookContext} {flags : Flags} {p : Proc}
    (hp : Running hook flags p)
    (hreg : ∀ m ∈ loadedModules (readModules env), registered flags (afterEntry m) = true)
    (hret : ∀ m ∈ loadedModules (readModules env), (preUsesHook flags m && hook.isNone) = false) :
    Running hook flags (preLoop env p).2 ∧
      List.Forall₂ (fun m m' => ModuleFrame (afterEntry m) m') (loadedModules (readModules env))
        (preLoop env p).1 ∧
      callsOf (preLoop env p).2.log = callsOf p.log ++
        (loadedModules (readModules env)).flatMap fun m => Phase.pre.calls flags (afterEntry m) := by
  have h := eachModule_running (fun m m' => ModuleFrame (afterEntry m) m')
    (fun m => Phase.pre.calls flags (afterEntry m))
    (fun m hm q hq => preModule_running env hq (hreg m hm) (hret m hm))
    (loadEvents_running hp (readModules env))
  rw [callsOf_append, callsOf_loadEvents, List.append_nil] at h
  exact h

theorem postLoop_running (env : Env) {hook : Option HookContext} {flags : Flags} {p : Proc}
    (hp : Running hook flags p) {ms ms' : List ZygiskModule}
    (hms : (p.gCtx.map (·.modules)).getD [] = ms')
    (hR : List.Forall₂ (fun m m' => ModuleFrame (afterEntry m) m') ms ms')
    (hreg : ∀ m ∈ ms, registered flags (afterEntry m) = true)
    (hret : ∀ m ∈ ms, (Phase.post.usesHook flags (afterEntry m) && hook.isNone) = false) :
    Running hook flags (postLoop env p).2 ∧
      callsOf (postLoop env p).2.log = callsOf p.log ++
        ms.flatMap fun m => Phase.post.calls flags (afterEntry m) := by
  have hbody : ∀ m' ∈ ms', ∀ q, Running hook flags q →
      Running hook flags (postModule env m' q).2 ∧ ModuleFrame m' (postModule env m' q).1 ∧
        callsOf (postModule env m' q).2.log = callsOf q.log ++ Phase.post.calls flags m' := by
    intro m' hm' q hq
    -- the entry of the new list that the second loop meets comes from one the first loop made
    obtain ⟨m, hm, hframe⟩ := exists_of_forall₂ hR m' hm'
    refine round_running env (.inr rfl) hq ?_ ?_
    · rw [registered_congr hframe]
      exact hreg m hm
    · rw [Phase.usesHook_congr hframe]
      exact hret m hm
  obtain ⟨hrun, -, hcalls⟩ := eachModule_running _ _ hbody hp
  rw [postLoop, hms, ← flatMap_calls_eq .post flags hR]
  exact ⟨hrun, hcalls⟩

theorem modules_markPost_setModules {p : Proc} (hp : p.gCtx.isSome = true)
    (ms : List ZygiskModule) :
    ((markPost (setModules ms p)).gCtx.map (·.modules)).getD [] = ms := by
  obtain ⟨c, hc⟩ := Option.isSome_iff_exists.mp hp
  simp [markPost, setModules, hc]

/-- With every module properly registered and all code returning, both loops run to their end and
make exactly the calls they owe. -/
theorem runModules_running (env : Env) {hook : Option HookContext} {flags : Flags} {p : Proc}
    (hp : Running hook flags p)
    (hreg : ∀ m ∈ loadedModules (readModules env), registered flags (afterEntry m) = true)
    (hret : ∀ m ∈ loadedModules (readModules env),
      (moduleUsesHook flags m && hook.isNone) = false) :
    (runModules env p).fault = none ∧
      callsOf (runModules env p).log = callsOf p.log ++
        (loadedModules (readModules env)).flatMap (fun m => Phase.pre.calls flags (afterEntry m)) ++
        (loadedModules (readModules env)).flatMap
          (fun m => Phase.post.calls flags (afterEntry m)) := by
  have hsplit : ∀ m ∈ loadedModules (readModules env),
      (preUsesHook flags m && hook.isNone) = false ∧
        (Phase.post.usesHook flags (afterEntry m) && hook.isNone) = false :=
    fun m hm => or_and_isNone_eq_false_iff.mp (hret m hm)
  obtain ⟨hpre, hR, hcalls⟩ := preLoop_running env hp hreg fun m hm => (hsplit m hm).1
  have hset : Running hook flags (runModulesPre env p) := setModules_running hpre _
  obtain ⟨hpost, hcalls'⟩ := postLoop_running env (markPost_running hset)
    (modules_markPost_setModules hpre.ctx _) hR hreg fun m hm => (hsplit m hm).2
  have hrun : runModules env p = runModulesPost env (runModulesPre env p) := by
    rw [runModules, Proc.next, if_neg (by simp [hset.fault])]
  rw [hrun, runModulesPost_fault, runModulesPost_log, hcalls', ← hcalls]
  exact ⟨hpost.fault, rfl⟩

/-- What is registered wrongly shows in the first loop and stays in the log: a null `mod` is read, or
a callback of an invalid module is called. -/
theorem runModules_bad (env : Env) {hook : Option HookContext} {flags : Flags} {p : Proc}
    (hp : Running hook flags p)
    (hret : ∀ m ∈ loadedModules (readModules env), (preUsesHook flags m && hook.isNone) = false)
    (hbad : ∃ m ∈ loadedModules (readModules env), ¬ registered flags (afterEntry m) = true) :
    (runModules env p).fault = some .nullMod ∨
      ∃ m ∈ loadedModules (readModules env), valid (afterEntry m) = false ∧
        (m.id, Phase.pre.callback flags) ∈ callsOf (runModules env p).log := by
  have hpre : (runModulesPre env p).fault = some .nullMod ∨
      ∃ m ∈ loadedModules (readModules env), valid (afterEntry m) = false ∧
        (m.id, Phase.pre.callback flags) ∈ callsOf (runModulesPre env p).log := by
    refine eachModule_stuck (fun m => registered flags (afterEntry m) = true)
      (fun q => q.fault = some .nullMod ∨
        ∃ m ∈ loadedModules (readModules env), valid (afterEntry m) = false ∧
          (m.id, Phase.pre.callback flags) ∈ callsOf q.log)
      ?_ (fun m hm hgood q hq => (preModule_running env hq hgood (hret m hm)).1) ?_ hbad
      (loadEvents_running hp (readModules env))
    -- a later round cannot undo it: the log only grows
    · rintro m q hfault (hq | ⟨n, hn, hv, hcall⟩)
      · rw [hfault] at hq
        cases hq
      · exact .inr ⟨n, hn, hv, (preModule_loopFrame env m q).callsOf_subset hcall⟩
    · intro m hm hreg q hq
      rcases preModule_bad env hq (by simpa using hreg) (hret m hm) with h | ⟨hv, hcall⟩
      · exact .inl h
      · exact .inr ⟨m, hm, hv, hcall⟩
  -- the second loop only runs after a first loop that did not fault
  simp only [runModules, Proc.next]
  split
  · exact hpre
  · rename_i hf
    rcases hpre with hpre | ⟨m, hm, hv, hcall⟩
    · simp [hpre] at hf
    · refine .inr ⟨m, hm, hv, ?_⟩
      rw [runModulesPost_log]
      exact (eachModule_loopFrame (round_loopFrame env .post) _ _).callsOf_subset hcall

/-- Ids are positions in the daemon's list, so they tell the loaded modules apart. -/
theorem loadedModules_id_inj {served : List ServedModule} {m m' : ZygiskModule}
    (hm : m ∈ loadedModules served) (hm' : m' ∈ loadedModules served) (h : m.id = m'.id) :
    m = m' := by
  have hspec : ∀ n ∈ loadedModules served, ∃ s, served[n.id]? = some s ∧
      (s.library.bind fun lib => lib.entry.map fun e => newModule n.id e lib.dlclose) = some n := by
    intro n hn
    obtain ⟨⟨s, i⟩, hs, hn⟩ := List.mem_filterMap.mp hn
    -- the id of a loaded module is the position of the library it came from
    have hid : n.id = i := by
      cases hl : s.library with
      | none => simp [hl] at hn
      | some lib =>
          cases he : lib.entry with
          | none => simp [hl, he] at hn
          | some e =>
              simp only [hl, he, Option.bind_some, Option.map_some, Option.some.injEq] at hn
              rw [← hn]
              rfl
    subst hid
    exact ⟨s, by simpa using List.mk_mem_zipIdx_iff_getElem?.mp hs, hn⟩
  obtain ⟨s, hs, hn⟩ := hspec m hm
  obtain ⟨s', hs', hn'⟩ := hspec m' hm'
  rw [h, hs'] at hs
  cases hs
  rw [h, hn'] at hn
  exact (Option.some.inj hn).symm

/-! ## Who gets called -/

/-- What the two loops should do with the served modules: no unset `mod` is read, every callback that
is called belongs to a module that `valid` accepts, and every such module gets both its callbacks. -/
structure OnlyValidCalled (served : List ServedModule) (flags : Flags) (p : Proc) : Prop where
  mod_set : p.fault ≠ some .nullMod
  called_valid : ∀ id callback, (id, callback) ∈ callsOf p.log →
    ∃ m ∈ loadedModules served, m.id = id ∧ valid (afterEntry m) = true
  valid_called : ∀ m ∈ loadedModules served, valid (afterEntry m) = true →
    dispatches flags = true →
      (m.id, Phase.pre.callback flags) ∈ callsOf p.log ∧
        (m.id, Phase.post.callback flags) ∈ callsOf p.log

/-- The loops do what they should exactly when every loaded module has registered a table, and one
that `valid` accepts unless the switch of the app callbacks skips its version. -/
theorem onlyValidCalled_iff (env : Env) (p : Proc) (c : ZygiskContext) (hctx : p.gCtx = some c)
    (hfault : p.fault = none) (hlog : p.log = [])
    (hret : p.gHook.isSome = true ∨
      ∀ m ∈ loadedModules (readModules env), moduleUsesHook c.flags m = false) :
    OnlyValidCalled (readModules env) c.flags (runModules env p) ↔
      ∀ m ∈ loadedModules (readModules env), registered c.flags (afterEntry m) = true := by
  have hp : Running p.gHook c.flags p := by
    refine ⟨hfault, rfl, ?_, ?_, ?_⟩ <;> simp [ctxFlags, hctx]
  have hret' : ∀ m ∈ loadedModules (readModules env),
      (moduleUsesHook c.flags m && p.gHook.isNone) = false := by
    intro m hm
    rcases hret with h | h
    · obtain ⟨hk, hhk⟩ := Option.isSome_iff_exists.mp h
      simp [hhk]
    · simp [h m hm]
  constructor
  -- a module registered wrongly shows in the log, against one of the first two fields
  · intro h
    by_contra hbad
    push Not at hbad
    have hpre : ∀ m ∈ loadedModules (readModules env),
        (preUsesHook c.flags m && p.gHook.isNone) = false :=
      fun m hm => (or_and_isNone_eq_false_iff.mp (hret' m hm)).1
    rcases runModules_bad env hp hpre hbad with hnull | ⟨m, hm, hv, hcall⟩
    · exact h.mod_set hnull
    · obtain ⟨m', hm', hid, hv'⟩ := h.called_valid _ _ hcall
      rw [loadedModules_id_inj hm' hm hid, hv] at hv'
      cases hv'
  -- otherwise both loops run to their end and the log is exactly what they owe
  · intro hreg
    obtain ⟨hf, hcalls⟩ := runModules_running env hp hreg hret'
    rw [hlog, callsOf_nil, List.nil_append] at hcalls
    refine ⟨by rw [hf]; simp, ?_, ?_⟩
    · intro id callback hmem
      rw [hcalls, List.mem_append, List.mem_flatMap, List.mem_flatMap] at hmem
      rcases hmem with ⟨m, hm, hmem⟩ | ⟨m, hm, hmem⟩
      · obtain ⟨⟨-, hv⟩, heq⟩ := Phase.mem_calls.mp hmem
        exact ⟨m, hm, (congrArg Prod.fst heq).symm, hv⟩
      · obtain ⟨⟨-, hv⟩, heq⟩ := Phase.mem_calls.mp hmem
        exact ⟨m, hm, (congrArg Prod.fst heq).symm, hv⟩
    · intro m hm hv hd
      rw [hcalls]
      constructor
      · exact List.mem_append_left _
          (List.mem_flatMap.mpr ⟨m, hm, Phase.mem_calls.mpr ⟨⟨hd, hv⟩, rfl⟩⟩)
      · exact List.mem_append_right _
          (List.mem_flatMap.mpr ⟨m, hm, Phase.mem_calls.mpr ⟨⟨hd, hv⟩, rfl⟩⟩)

/-- A table with all its callbacks, of the given version. -/
def emptyAbi (apiVersion : Int) : ModuleAbi where
  apiVersion := apiVersion
  impl := true
  preAppSpecialize := some []
  postAppSpecialize := some []
  preServerSpecialize := some []
  postServerSpecialize := some []

/-- A module whose entry registers one table. -/
def servedModule (name : String) (apiVersion : Int) : ServedModule where
  name := name
  library := some ⟨some [.registerModule (some (emptyAbi apiVersion))], true⟩

/-- A device that serves the given modules and where nothing fails. -/
def plainEnv (modules : List ServedModule) : Env where
  oldFork := fun _ => 0
  fdMax := 32768
  reachable := fun _ => true
  processFlags := fun _ => 0#32
  modules := modules
  stat := fun _ => none
  mountInfos := []
  umount2 := fun _ => true
  openDir := true
  newIntArray := true
  regcomp := fun _ => true
  regexec := fun _ _ => false
  findClass := fun _ => none
  commitReads := fun hooks => !hooks.isEmpty

/-- A process of an app that is about to run its modules. -/
def appContext (env : Env) : ZygiskContext :=
  { newContext env (.app ⟨10123#32, "org.example.app", none, none⟩) with flags := APP_SPECIALIZE }

def appProc (env : Env) : Proc where
  gHook := some ⟨[], false, false, false, []⟩
  gCtx := some (appContext env)
  fds := []
  pltHooks := []
  fault := none
  log := []

/-- Two modules of supported versions get their four calls. -/
theorem onlyValidCalled_supported :
    OnlyValidCalled [servedModule "zn_v5" 5, servedModule "zn_v2" 2] APP_SPECIALIZE
      (runModules (plainEnv [servedModule "zn_v5" 5, servedModule "zn_v2" 2])
        (appProc (plainEnv [servedModule "zn_v5" 5, servedModule "zn_v2" 2]))) :=
  (onlyValidCalled_iff (plainEnv [servedModule "zn_v5" 5, servedModule "zn_v2" 2])
    (appProc (plainEnv [servedModule "zn_v5" 5, servedModule "zn_v2" 2]))
    (appContext (plainEnv [servedModule "zn_v5" 5, servedModule "zn_v2" 2]))
    rfl rfl rfl (.inl rfl)).mpr (by decide)

/-- A module built for version 6 is refused by `registerModuleImpl`, and the app callback then reads
its null `mod`; the module after it gets nothing. -/
theorem futureVersion_reads_null_mod :
    ¬ OnlyValidCalled [servedModule "zn_v6" 6, servedModule "zn_v5" 5] APP_SPECIALIZE
      (runModules (plainEnv [servedModule "zn_v6" 6, servedModule "zn_v5" 5])
        (appProc (plainEnv [servedModule "zn_v6" 6, servedModule "zn_v5" 5]))) :=
  fun h => h.mod_set (by decide)

end NeoZygisk.Injector
