import NeoZygisk.Injector.Lifecycle

/-!
# The code a late `system_server` runs

In a process without a `g_hook` the lifecycle is a run of calls that the modules make: entry and
pre callback module by module, then the post callbacks. Whether one of them reads a member of `g_hook`
depends on its arguments and on what was registered before it, so the calls are taken as one list
(`moduleCode`), in the order in which they are made and each with the table its module has at that point.

`Executes` says what a process without `g_hook` does with such a list: it dies at the first call that
reads `g_hook`, or returns with the hooks that the calls have left pending. The relation composes
(`Executes.trans`), and every layer of the lifecycle satisfies it for its own code
(`runActions_executes`, `preModule_executes`, `eachModule_executes`, `lateLifecycle_executes`).
-/

set_option autoImplicit false

namespace NeoZygisk.Injector

open NeoZygisk.Common
open NeoZygisk.Lib.Mask

/-! ## Code as a list of calls -/

/-- An action and the table of the module that performs it. -/
abbrev Code := List (ApiTable × Action)

/-- Some call of the code reads a member of `g_hook`. -/
def codeReads (env : Env) : Code → Pending → Bool
  | [], _ => false
  | (api, a) :: code, s => a.reads env api s || codeReads env code (a.after env api s)

/-- What is pending after code that reads nothing of `g_hook`. -/
def codeAfter (env : Env) (code : Code) (s : Pending) : Pending :=
  code.foldl (fun s x => x.2.after env x.1 s) s

theorem codeReads_append (env : Env) (code code' : Code) (s : Pending) :
    codeReads env (code ++ code') s = (codeReads env code s || codeReads env code' (codeAfter env code s)) := by
  induction code generalizing s with
  | nil => rfl
  | cons x code ih =>
      rw [List.cons_append, codeReads, codeReads, ih, Bool.or_assoc]
      rfl

theorem codeAfter_append (env : Env) (code code' : Code) (s : Pending) :
    codeAfter env (code ++ code') s = codeAfter env code' (codeAfter env code s) :=
  List.foldl_append

/-- The calls of an entry, each with the table the entry has built up so far. -/
def entryCode : ApiTable → List EntryAction → Code
  | _, [] => []
  | api, .registerModule module :: as => entryCode (registerTable api module) as
  | api, .act a :: as => (api, a) :: entryCode api as

/-- The calls of a callback. -/
def Phase.code (ph : Phase) (flags : Flags) (m : ZygiskModule) : Code :=
  match m.mod with
  | none => []
  | some abi => if invokes flags abi then ((ph.method flags abi).getD []).map (m.api, ·) else []

/-- The calls of one round of the first loop. -/
def preCode (flags : Flags) (m : ZygiskModule) : Code :=
  entryCode m.api m.entry ++ Phase.pre.code flags (afterEntry m)

/-- The calls of one round of the second loop. -/
def postCode (flags : Flags) (m : ZygiskModule) : Code := Phase.post.code flags (afterEntry m)

/-- The calls that the lifecycle makes in the loaded modules, in order. -/
def moduleCode (env : Env) (flags : Flags) : Code :=
  (loadedModules (readModules env)).flatMap (preCode flags) ++
    (loadedModules (readModules env)).flatMap (postCode flags)

theorem Phase.code_congr {m m' : ZygiskModule} (h : ModuleFrame m m') (ph : Phase) (flags : Flags) :
    ph.code flags m' = ph.code flags m := by
  simp only [Phase.code, h.mod, h.api]

theorem flatMap_code_eq (flags : Flags) {ms ms' : List ZygiskModule}
    (h : List.Forall₂ (fun m m' => ModuleFrame (afterEntry m) m') ms ms') :
    ms'.flatMap (Phase.post.code flags) = ms.flatMap (postCode flags) := by
  induction h with
  | nil => rfl
  | cons hm _ ih => rw [List.flatMap_cons, List.flatMap_cons, ih, Phase.code_congr hm, postCode]

/-! ## Running code without `g_hook` -/

/-- What happens to a process without `g_hook` that runs the code. -/
structure Executes (env : Env) (code : Code) (p q : Proc) : Prop where
  dies : codeReads env code (pending p) = true → q.fault = some .nullHook
  returns : codeReads env code (pending p) = false →
    q.fault = none ∧ pending q = codeAfter env code (pending p)

theorem Executes.nil {env : Env} {p : Proc} (hp : p.fault = none) : Executes env [] p p where
  dies := nofun
  returns := fun _ => ⟨hp, rfl⟩

/-- The relation reads the fault and what is pending. -/
theorem Executes.congr {env : Env} {code : Code} {p q p' q' : Proc} (h : Executes env code p q)
    (hp : pending p' = pending p) (hq : pending q' = pending q) (hfault : q'.fault = q.fault) :
    Executes env code p' q' where
  dies := by
    rw [hp, hfault]
    exact h.dies
  returns := by
    rw [hp, hq, hfault]
    exact h.returns

/-- Code and then more code: the second part runs if the first returned, and a crash stays. -/
theorem Executes.trans {env : Env} {code code' : Code} {p q r : Proc} (h : Executes env code p q)
    (hstay : q.fault = some .nullHook → r.fault = some .nullHook)
    (h' : q.fault = none → Executes env code' q r) : Executes env (code ++ code') p r := by
  cases hreads : codeReads env code (pending p) with
  | true => exact ⟨fun _ => hstay (h.dies hreads), fun hnone => by simp [codeReads_append, hreads] at hnone⟩
  | false =>
      obtain ⟨hfault, hpending⟩ := h.returns hreads
      obtain ⟨hdies, hreturns⟩ := h' hfault
      rw [hpending] at hdies hreturns
      refine ⟨fun hr => hdies ?_, fun hr => ?_⟩
      · simpa [codeReads_append, hreads] using hr
      · rw [codeAfter_append]
        exact hreturns (by simpa [codeReads_append, hreads] using hr)

theorem runAction_executes (env : Env) (m : ZygiskModule) {p : Proc} (a : Action)
    (hctx : p.gCtx.isSome = true) (hfault : p.fault = none) (hhook : p.gHook = none) :
    Executes env [(m.api, a)] p (runAction env m p a).2 := by
  have hstep := runAction_fault env m a hctx hfault
  rw [hhook, Option.isNone_none, Bool.and_true] at hstep
  refine ⟨fun hr => ?_, fun hr => ?_⟩ <;> rw [codeReads, codeReads, Bool.or_false] at hr
  · rw [hstep, hr]
    rfl
  · refine ⟨by rw [hstep, hr]; rfl, ?_⟩
    exact runAction_pending env m a hctx hfault hr

/-- Module code executes as the list of its actions. -/
theorem runActions_executes (env : Env) (as : List Action) (m : ZygiskModule) {p : Proc}
    (hctx : p.gCtx.isSome = true) (hfault : p.fault = none) (hhook : p.gHook = none) :
    Executes env (as.map (m.api, ·)) p (runActions env as m p).2 := by
  induction as generalizing m p with
  | nil => exact .nil hfault
  | cons a as ih =>
      have hframe := runAction_frame env m p a
      rw [runActions, if_neg (by simp [hfault]), List.map_cons, ← List.singleton_append]
      refine (runAction_executes env m a hctx hfault hhook).trans (fun h => ?_) fun h => ?_
      · rw [runActions_of_fault env as _ (by simp [h])]
        exact h
      · -- the table is the same for the rest of the code
        rw [← (runAction_moduleFrame env m p a).api]
        exact ih _ (hframe.ctx_isSome ▸ hctx) h (hframe.hook ▸ hhook)

/-- An entry executes with the table it has built up at each point. -/
theorem onLoad_executes (env : Env) (as : List EntryAction) (m : ZygiskModule) {p : Proc}
    (hctx : p.gCtx.isSome = true) (hfault : p.fault = none) (hhook : p.gHook = none) :
    Executes env (entryCode m.api as) p (onLoad env as m p).2 := by
  induction as generalizing m p with
  | nil => exact .nil hfault
  | cons a as ih =>
      cases a with
      | registerModule module =>
          have hrest := ih (registerModuleImpl m module) hctx hfault hhook
          rw [registerModuleImpl_api] at hrest
          exact hrest
      | act a =>
          have hframe := runAction_frame env m p a
          rw [onLoad, if_neg (by simp [hfault]), entryCode, ← List.singleton_append]
          refine (runAction_executes env m a hctx hfault hhook).trans (fun h => ?_) fun h => ?_
          · rw [onLoad_of_fault env as _ (by simp [h])]
            exact h
          · rw [← (runAction_moduleFrame env m p a).api]
            exact ih _ (hframe.ctx_isSome ▸ hctx) h (hframe.hook ▸ hhook)

/-! ## The rounds and the loops -/

theorem invoke_moduleFrame (env : Env) (callback : Callback) (code : Option (List Action))
    (m : ZygiskModule) (p : Proc) : ModuleFrame m (invoke env callback code m p).1 := by
  cases code with
  | none => exact .refl m
  | some as => exact runActions_moduleFrame env as m _

section Late

variable (env : Env) {flags : Flags} {p : Proc}

/-- A round on a valid module executes the callback. -/
theorem round_executes {ph : Phase} (hph : ph.IsLoop) (hp : Running none flags p) {m : ZygiskModule}
    (hv : valid m = true) : Executes env (ph.code flags m) p (ph.round env m p).2 ∧
      ModuleFrame m (ph.round env m p).1 := by
  obtain ⟨abi, hm, -⟩ := valid_spec hv
  obtain ⟨as, has⟩ := hph.method_isSome flags hm hv
  rw [round_of_mod_some env ph hp hm]
  simp only [Phase.code, hm]
  split
  · rw [has]
    have hcode := runActions_executes env as m (p := p.emit (.call m.id (ph.callback flags))) hp.ctx
      hp.fault hp.hook
    exact ⟨hcode.congr rfl rfl rfl, invoke_moduleFrame env _ _ m p⟩
  · exact ⟨.nil hp.fault, .refl m⟩

/-- A round of the first loop executes the entry and, if that returned, the callback. -/
theorem preModule_executes (hp : Running none flags p) {m : ZygiskModule}
    (hv : valid (afterEntry m) = true) : Executes env (preCode flags m) p (preModule env m p).2 ∧
      ((preModule env m p).2.fault = none → ModuleFrame (afterEntry m) (preModule env m p).1) := by
  have hentry := onLoad_executes env m.entry m hp.ctx hp.fault hp.hook
  -- once the entry has returned, the round runs on the module that it left behind
  have hround : (onLoad env m.entry m p).2.fault = none →
      Executes env (Phase.pre.code flags (afterEntry m)) (onLoad env m.entry m p).2
          (preModule env m p).2 ∧ ModuleFrame (afterEntry m) (preModule env m p).1 := by
    intro h
    have hframe := onLoad_moduleFrame env m p h
    have hrun := hp.frame (onLoad_frame env m.entry m p).loopFrame h
    rw [preModule_eq env h, ← Phase.code_congr hframe]
    obtain ⟨hexec, hmod⟩ := round_executes env (.inl rfl) hrun ((valid_congr hframe).trans hv)
    exact ⟨hexec, hframe.trans hmod⟩
  refine ⟨hentry.trans (fun h => ?_) fun h => (hround h).1, fun h => ?_⟩
  · rw [preModule, if_pos (by simp [h])]
    exact h
  · cases hfault : (onLoad env m.entry m p).2.fault with
    | none => exact (hround hfault).2
    | some f =>
        rw [preModule, if_pos (by simp [hfault]), hfault] at h
        cases h

/-- A loop executes the code of its rounds; if it returns, the new list matches the old one entry by
entry. -/
theorem eachModule_executes {body : ZygiskModule → Proc → ZygiskModule × Proc}
    (R : ZygiskModule → ZygiskModule → Prop) (code : ZygiskModule → Code)
    (hframe : ∀ m q, LoopFrame q (body m q).2) {ms : List ZygiskModule}
    (hbody : ∀ m ∈ ms, ∀ q, Running none flags q → Executes env (code m) q (body m q).2 ∧
      ((body m q).2.fault = none → R m (body m q).1))
    (hp : Running none flags p) :
    Executes env (ms.flatMap code) p (eachModule body ms p).2 ∧
      ((eachModule body ms p).2.fault = none → List.Forall₂ R ms (eachModule body ms p).1) := by
  induction ms generalizing p with
  | nil => exact ⟨.nil hp.fault, fun _ => .nil⟩
  | cons m ms ih =>
      obtain ⟨hexec, hR⟩ := hbody m List.mem_cons_self p hp
      have htail : (body m p).2.fault = none →
          Executes env (ms.flatMap code) (body m p).2 (eachModule body ms (body m p).2).2 ∧
            ((eachModule body ms (body m p).2).2.fault = none →
              List.Forall₂ R ms (eachModule body ms (body m p).2).1) := fun h =>
        ih (fun n hn => hbody n (List.mem_cons_of_mem m hn)) (hp.frame (hframe m p) h)
      -- a round that crashed ends the loop
      have hstop : (body m p).2.fault ≠ none →
          (eachModule body ms (body m p).2).2 = (body m p).2 := by
        intro h
        cases ms with
        | nil => rfl
        | cons n ms => rw [eachModule, if_pos (Option.isSome_iff_ne_none.mpr h)]
      rw [eachModule, if_neg (by simp [hp.fault]), List.flatMap_cons]
      refine ⟨hexec.trans (fun h => ?_) fun h => (htail h).1, fun h => ?_⟩
      · rw [hstop (by simp [h])]
        exact h
      · by_cases hfault : (body m p).2.fault = none
        · exact .cons (hR hfault) ((htail hfault).2 h)
        · rw [hstop hfault] at h
          exact absurd h hfault

theorem preLoop_executes (hp : Running none flags p)
    (hvalid : ∀ m ∈ loadedModules (readModules env), valid (afterEntry m) = true) :
    Executes env ((loadedModules (readModules env)).flatMap (preCode flags)) p (preLoop env p).2 ∧
      ((preLoop env p).2.fault = none →
        List.Forall₂ (fun m m' => ModuleFrame (afterEntry m) m') (loadedModules (readModules env))
          (preLoop env p).1) := by
  obtain ⟨hexec, hR⟩ := eachModule_executes env (fun m m' => ModuleFrame (afterEntry m) m')
    (preCode flags) (preModule_loopFrame env) (fun m hm q hq => preModule_executes env hq (hvalid m hm))
    (loadEvents_running hp (readModules env))
  exact ⟨hexec.congr rfl rfl rfl, hR⟩

theorem postLoop_executes (hp : Running none flags p) {ms ms' : List ZygiskModule}
    (hms : (p.gCtx.map (·.modules)).getD [] = ms')
    (hR : List.Forall₂ (fun m m' => ModuleFrame (afterEntry m) m') ms ms')
    (hvalid : ∀ m ∈ ms, valid (afterEntry m) = true) :
    Executes env (ms.flatMap (postCode flags)) p (postLoop env p).2 := by
  have hbody : ∀ m' ∈ ms', ∀ q, Running none flags q →
      Executes env (Phase.post.code flags m') q (postModule env m' q).2 ∧
        ((postModule env m' q).2.fault = none → ModuleFrame m' (postModule env m' q).1) := by
    intro m' hm' q hq
    -- the entry of the new list that the second loop meets comes from one the first loop made
    obtain ⟨m, hm, hframe⟩ := exists_of_forall₂ hR m' hm'
    obtain ⟨hexec, hmod⟩ := round_executes env (.inr rfl) hq ((valid_congr hframe).trans (hvalid m hm))
    exact ⟨hexec, fun _ => hmod⟩
  rw [postLoop, hms, ← flatMap_code_eq flags hR]
  exact (eachModule_executes env ModuleFrame _ (round_loopFrame env .post) hbody hp).1

end Late

end NeoZygisk.Injector
