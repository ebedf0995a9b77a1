import NeoZygisk.Injector.SanitizeFds

/-!
# The descriptors of an app

Between the fork and `sanitize_fds` module code opens, closes and exempts descriptors. A run is any sequence of
actions of module code and of steps of the injector that leave descriptors and exemptions alone (`Run`),
labelled with the `exemptFd` calls and their answers. Its invariant (`Kept`) says that the exempted descriptors
are the ones whose call returned true, in call order.

`sanitizeFdsIn_iff` is what an app is left with: the table it was forked with, what was exempted, what reads
back as an allowed target and, once something was exempted, what the framework was told to ignore.
`nativeForkAndSpecializePreIn_run` shows that the hook makes such a run.
-/

set_option autoImplicit false

namespace NeoZygisk.Injector.Exemptions

open NeoZygisk.Common
open NeoZygisk.Injector.SanitizeFds
open NeoZygisk.Lib.Mask

/-! ## Definitions -/

/-- `nativeForkAndSpecialize_pre`, with the descriptors the two directories are read through. -/
def nativeForkAndSpecializePreIn (env : Env) (a : AppSpecializeArgs) (d : Nat) (dir : Option Nat)
    (p : Proc) : Proc :=
  (forkAndSpecializeStart env a p).next fun p =>
    let p := forkPreIn env d p
    let p := withCtx p fun c => if isChild c then appSpecializePre env a p else p
    p.next (sanitizeFdsIn env dir)

/-- What `exemptFd` returns: `g_ctx && g_ctx->exempt_fd(fd)`. -/
def exemptFdReturns (p : Proc) : Bool :=
  p.gCtx.any fun c => has c.flags POST_SPECIALIZE || has c.flags SKIP_CLOSE_LOG_PIPE || canExemptFd c

/-- The `exemptFd` call that an action makes, with its answer. -/
def exemptCalls (m : ZygiskModule) (p : Proc) : Action → List (Int × Bool)
  | .api slot arg => if m.api slot = some .exemptFd then [(arg.fd, exemptFdReturns p)] else []
  | .openFd _ _ => []
  | .closeFd _ => []

/-- A specialization in which nothing changed that `sanitize_fds` or `exemptFd` read. -/
structure CtxQuiet (c c' : ZygiskContext) : Prop where
  args : c'.args = c.args
  pid : c'.pid = c.pid
  fdMax : c'.fdMax = c.fdMax
  allowedFds : c'.allowedFds = c.allowedFds
  exemptedFds : c'.exemptedFds = c.exemptedFds
  post : has c'.flags POST_SPECIALIZE = has c.flags POST_SPECIALIZE
  skip : has c'.flags SKIP_CLOSE_LOG_PIPE = has c.flags SKIP_CLOSE_LOG_PIPE
  fork : has c'.flags APP_FORK_AND_SPECIALIZE = has c.flags APP_FORK_AND_SPECIALIZE

/-- A step of the injector itself between the fork and `sanitize_fds`. -/
structure Quiet (p p' : Proc) : Prop where
  fds : p'.fds = p.fds
  ctx : Option.Rel CtxQuiet p.gCtx p'.gCtx

/-- The states reached by module code, of any modules in any order, and the `exemptFd` calls it made. -/
inductive Run (env : Env) (p : Proc) : List (Int × Bool) → Proc → Prop where
  | refl : Run env p [] p
  | act {calls : List (Int × Bool)} {q : Proc} (m : ZygiskModule) (a : Action) :
      Run env p calls q → Run env p (calls ++ exemptCalls m q a) (runAction env m q a).2
  | quiet {calls : List (Int × Bool)} {q q' : Proc} : Run env p calls q → Quiet q q' → Run env p calls q'

/-- The descriptors that calls returned true for, in call order. -/
def exempted (calls : List (Int × Bool)) : List Int := (calls.filter (·.2)).map (·.1)

/-! ## What module code does to the descriptors -/

section Code

variable (env : Env) {p : Proc} {c : ZygiskContext}

theorem CtxQuiet.refl (c : ZygiskContext) : CtxQuiet c c := ⟨rfl, rfl, rfl, rfl, rfl, rfl, rfl, rfl⟩

theorem CtxQuiet.trans {c c' c'' : ZygiskContext} (h : CtxQuiet c c') (h' : CtxQuiet c' c'') : CtxQuiet c c'' where
  args := h'.args.trans h.args
  pid := h'.pid.trans h.pid
  fdMax := h'.fdMax.trans h.fdMax
  allowedFds := h'.allowedFds.trans h.allowedFds
  exemptedFds := h'.exemptedFds.trans h.exemptedFds
  post := h'.post.trans h.post
  skip := h'.skip.trans h.skip
  fork := h'.fork.trans h.fork

theorem CtxQuiet.canExemptFd_eq {c c' : ZygiskContext} (h : CtxQuiet c c') : canExemptFd c' = canExemptFd c := by
  rw [canExemptFd, canExemptFd, h.fork, h.args]

theorem exempted_append (calls calls' : List (Int × Bool)) :
    exempted (calls ++ calls') = exempted calls ++ exempted calls' := by
  rw [exempted, List.filter_append, List.map_append]
  rfl

theorem mem_exempted_iff {calls : List (Int × Bool)} {fd : Int} : fd ∈ exempted calls ↔ (fd, true) ∈ calls := by
  simp [exempted]

/-- Neither a descriptor nor an exemption is added or taken away. -/
structure Leaves (p q : Proc) : Prop where
  fds : q.fds = p.fds
  exempted : q.gCtx.map (·.exemptedFds) = p.gCtx.map (·.exemptedFds)

theorem Leaves.refl (p : Proc) : Leaves p p := ⟨rfl, rfl⟩

theorem Leaves.trans {p q r : Proc} (h : Leaves p q) (h' : Leaves q r) : Leaves p r :=
  ⟨h'.fds.trans h.fds, h'.exempted.trans h.exempted⟩

theorem Leaves.setCtx (hc : p.gCtx = some c) {c' : ZygiskContext} (h : c'.exemptedFds = c.exemptedFds) :
    Leaves p (p.setCtx c') := by
  refine ⟨rfl, ?_⟩
  rw [hc]
  exact congrArg some h

theorem Leaves.derefHook {q : Proc} {f : HookContext → Proc} (hq : Leaves p q) (hf : ∀ h, Leaves p (f h)) :
    Leaves p (q.derefHook f) := by
  cases hh : q.gHook with
  | none =>
      rw [Proc.derefHook, hh]
      exact ⟨hq.fds, hq.exempted⟩
  | some h =>
      rw [derefHook_some hh]
      exact hf h

theorem pltHookProcessRegex_leaves (c : ZygiskContext) (p : Proc) : Leaves p (pltHookProcessRegex env c p) := by
  unfold pltHookProcessRegex
  split_ifs
  · exact Leaves.refl p
  · exact (Leaves.refl p).derefHook fun _ => ⟨rfl, rfl⟩

theorem commitHook_leaves {q : Proc} (hq : Leaves p q) : Leaves p (commitHook env q) := by
  unfold commitHook
  split_ifs
  · exact hq.derefHook fun _ => hq
  · exact hq

theorem pltHookCommit_leaves (hc : p.gCtx = some c) : Leaves p (pltHookCommit env p) := by
  have hregex := pltHookProcessRegex_leaves env c p
  have hcleared : Leaves p ((pltHookProcessRegex env c p).setCtx { c with registerInfo := [], ignoreInfo := [] }) := by
    refine ⟨hregex.fds, ?_⟩
    rw [hc]
    rfl
  simp only [pltHookCommit, Proc.derefCtx, hc, Proc.next]
  split_ifs
  · exact hregex
  · exact commitHook_leaves env hcleared

/-- Of all functions of the table only `exemptFd` does anything to descriptors. -/
theorem callApi_leaves {fn : ApiFn} (hfn : fn ≠ .exemptFd) (arg : ApiArg) (m : ZygiskModule)
    (hc : p.gCtx = some c) : Leaves p (callApi env fn arg m p).2 := by
  cases fn <;> simp only [callApi, hc, Option.isSome_some, if_true]
  case exemptFd => exact absurd rfl hfn
  case hookJniNativeMethods =>
    unfold Injector.hookJniNativeMethods
    split_ifs
    · exact (Leaves.refl p).derefHook fun _ => Leaves.refl p
    · exact Leaves.refl p
  case pltHookRegisterV1 =>
    rw [pltHookRegister, Proc.derefCtx, hc]
    dsimp only
    split
    · split_ifs
      · exact Leaves.setCtx hc rfl
      · exact Leaves.refl p
    · exact Leaves.refl p
  case pltHookExclude =>
    rw [Injector.pltHookExclude, Proc.derefCtx, hc]
    dsimp only
    split
    · split_ifs
      · exact Leaves.setCtx hc rfl
      · exact Leaves.refl p
    · exact Leaves.refl p
  case pltHookCommitV1 => exact pltHookCommit_leaves env hc
  case setOption =>
    cases arg.option with
    | FORCE_DENYLIST_UNMOUNT => exact Leaves.setCtx hc rfl
    | DLCLOSE_MODULE_LIBRARY => exact Leaves.refl p
  case pltHookRegisterV4 =>
    split
    · split_ifs
      · exact Leaves.refl p
      · exact ⟨rfl, by rw [hc]⟩
    · exact Leaves.refl p
  case pltHookCommitV4 => exact commitHook_leaves env (Leaves.refl p)
  all_goals exact Leaves.refl p

/-- The specialization is one that exempts: neither flag is set for which `exempt_fd` has nothing to do, and
the variant of the method has the array. -/
structure Exempts (c : ZygiskContext) : Prop where
  post : has c.flags POST_SPECIALIZE = false
  skip : has c.flags SKIP_CLOSE_LOG_PIPE = false
  can : canExemptFd c = true

theorem Exempts.returns (h : Exempts c) (hc : p.gCtx = some c) : exemptFdReturns p = true := by
  simp [exemptFdReturns, hc, h.can]

theorem Exempts.congr {c' : ZygiskContext} (h : Exempts c) (hq : CtxQuiet c c') : Exempts c' :=
  ⟨hq.post.trans h.post, hq.skip.trans h.skip, hq.canExemptFd_eq.trans h.can⟩

/-- An action adds what it exempts. -/
theorem runAction_exemptedFds (m : ZygiskModule) (a : Action) (hc : p.gCtx = some c) (h : Exempts c) :
    (runAction env m p a).2.gCtx.map (·.exemptedFds) = some (c.exemptedFds ++ exempted (exemptCalls m p a)) := by
  cases a with
  | openFd fd target =>
      simp only [runAction, exemptCalls]
      split_ifs <;> simp [hc, exempted]
  | closeFd fd => simp [runAction, exemptCalls, gCtx_close, hc, exempted]
  | api slot arg =>
      simp only [runAction, exemptCalls]
      cases hapi : m.api slot with
      | none => simp [hc, exempted]
      | some fn =>
          by_cases hfn : fn = .exemptFd
          · subst hfn
            have hreturns : exemptFdReturns p = true := h.returns hc
            simp [callApi, exemptFd, Proc.derefCtx, hc, h.post, h.skip, h.can, Proc.setCtx, exempted, hreturns]
          · have hleaves := (callApi_leaves env hfn arg m hc).exempted
            simp [hfn, hleaves, hc, exempted]

/-- No number is opened twice. -/
theorem runAction_nodup (m : ZygiskModule) (a : Action) (hc : p.gCtx = some c) (hnodup : (p.fds.map Fd.num).Nodup) :
    ((runAction env m p a).2.fds.map Fd.num).Nodup := by
  cases a with
  | openFd fd target =>
      simp only [runAction]
      split_ifs with hopen
      · exact hnodup
      · exact nodup_opened hnodup (by simpa [isOpen] using hopen) target
  | closeFd fd =>
      simp only [runAction, fds_close]
      exact hnodup.sublist (List.filter_sublist.map Fd.num)
  | api slot arg =>
      simp only [runAction]
      cases hapi : m.api slot with
      | none => exact hnodup
      | some fn =>
          by_cases hfn : fn = .exemptFd
          · subst hfn
            simp only [callApi, exemptFd, Proc.derefCtx, hc, Option.isSome_some, if_true]
            split_ifs <;> exact hnodup
          · dsimp only
            rw [(callApi_leaves env hfn arg m hc).fds]
            exact hnodup

end Code

/-! ## A run -/

/-- After a run from the specialization `c`: what was exempted is what `exemptFd` returned true for. -/
structure Kept (c : ZygiskContext) (calls : List (Int × Bool)) (q : Proc) : Prop where
  nodup : (q.fds.map Fd.num).Nodup
  ctx : ∃ c', q.gCtx = some c' ∧ CtxQuiet { c with exemptedFds := c.exemptedFds ++ exempted calls } c'

section Runs

variable {env : Env} {p q : Proc} {c : ZygiskContext} {calls : List (Int × Bool)}

theorem kept_act (m : ZygiskModule) (a : Action) (hexempts : Exempts c) (h : Kept c calls q) :
    Kept c (calls ++ exemptCalls m q a) (runAction env m q a).2 := by
  obtain ⟨c', hc', hquiet⟩ := h.ctx
  have hlisted : Exempts { c with exemptedFds := c.exemptedFds ++ exempted calls } :=
    ⟨hexempts.post, hexempts.skip, hexempts.can⟩
  have hexempts' : Exempts c' := hlisted.congr hquiet
  refine ⟨runAction_nodup env m a hc' h.nodup, ?_⟩
  have hframe := (runAction_frame env m q a).ctx
  have hfds := runAction_exemptedFds env m a hc' hexempts'
  rw [hc'] at hframe
  cases hctx : (runAction env m q a).2.gCtx with
  | none => rw [hctx] at hfds; cases hfds
  | some c'' =>
      rw [hctx] at hframe hfds
      cases hframe with
      | some hframe =>
          refine ⟨c'', rfl, ?_⟩
          -- the one flag an option sets is none of the three
          exact
            { args := hframe.args.trans hquiet.args
              pid := hframe.pid.trans hquiet.pid
              fdMax := hframe.fdMax.trans hquiet.fdMax
              allowedFds := hframe.allowedFds.trans hquiet.allowedFds
              exemptedFds := by
                rw [Option.map_some, Option.some.injEq, hquiet.exemptedFds] at hfds
                rw [hfds, exempted_append, List.append_assoc]
              post := (hframe.flags _ (by decide)).trans hquiet.post
              skip := (hframe.flags _ (by decide)).trans hquiet.skip
              fork := (hframe.flags _ (by decide)).trans hquiet.fork }

theorem kept_quiet {q' : Proc} (h : Kept c calls q) (hquiet : Quiet q q') : Kept c calls q' := by
  obtain ⟨c', hc', hctx⟩ := h.ctx
  refine ⟨by rw [hquiet.fds]; exact h.nodup, ?_⟩
  have hrel := hquiet.ctx
  rw [hc'] at hrel
  cases hc'' : q'.gCtx with
  | none => rw [hc''] at hrel; cases hrel
  | some c'' =>
      rw [hc''] at hrel
      cases hrel with
      | some hrel => exact ⟨c'', rfl, hctx.trans hrel⟩

theorem Run.kept (h : Run env p calls q) (hc : p.gCtx = some c) (hexempts : Exempts c)
    (hnodup : (p.fds.map Fd.num).Nodup) : Kept c calls q := by
  -- on the run: each action extends the calls at their end
  induction h with
  | refl =>
      refine ⟨hnodup, c, hc, ?_⟩
      have hnone : c.exemptedFds ++ exempted [] = c.exemptedFds := List.append_nil _
      rw [hnone]
      exact CtxQuiet.refl c
  | act m a _ ih => exact kept_act m a hexempts ih
  | quiet _ hquiet ih => exact kept_quiet ih hquiet

end Runs

/-! ## What an app is left with -/

/-- The array handed to the original method: the given one and the exempted descriptors behind it, or the
given one if nothing was exempted. -/
def handed (fdsToIgnore : Option (Option (List Int))) (fds : List Int) : Option (Option (List Int)) :=
  if fds.isEmpty then fdsToIgnore else some (some ((fdsToIgnore.join.getD []) ++ fds))

/-- A number that `sanitize_fds` does not close, of a descriptor with the given target: it was open at the
fork, or exempted, or reads back as something an app may carry, or the framework was told to ignore it and
something was exempted. -/
def Promised (p : Proc) (a : AppSpecializeArgs) (calls : List (Int × Bool)) (f : Fd) : Prop :=
  isOpen p f.num = true ∨ ((f.num : Int), true) ∈ calls ∨ f.target ∈ kAllowedFdTargets ∨
    ((∃ fd, (fd, true) ∈ calls) ∧ ∃ arr, a.fdsToIgnore = some (some arr) ∧ (f.num : Int) ∈ arr)

section Sanitized

variable {env : Env} {a : AppSpecializeArgs} {c : ZygiskContext}

theorem mem_vectorBits_iff {fds : List Int} {n : Nat} (hn : n < c.fdMax) :
    n ∈ vectorBits c fds ↔ (n : Int) ∈ fds := by
  rw [vectorBits, List.mem_map]
  constructor
  · rintro ⟨fd, hfd, rfl⟩
    obtain ⟨hmem, hbounds⟩ := List.mem_filter.mp hfd
    rw [decide_eq_true_eq] at hbounds
    rwa [Int.toNat_of_nonneg hbounds.1]
  · intro hmem
    exact ⟨n, List.mem_filter.mpr ⟨hmem, by simpa using hn⟩, Int.toNat_natCast n⟩

/-- Without exemptions nothing is changed. -/
theorem allowExempted_nil (h : c.exemptedFds = []) : allowExempted env c = c := by
  simp [allowExempted, h]

/-- With exemptions the array is replaced, and its entries and the exempted descriptors are allowed. -/
theorem allowExempted_cons (harray : env.newIntArray = true) (hcan : canExemptFd c = true)
    (hargs : c.args = .app a) (h : c.exemptedFds ≠ []) :
    (allowExempted env c).args = .app { a with fdsToIgnore := handed a.fdsToIgnore c.exemptedFds } ∧
      (allowExempted env c).fdMax = c.fdMax ∧
      ∀ n < c.fdMax, n ∈ (allowExempted env c).allowedFds ↔
        n ∈ c.allowedFds ∨ (n : Int) ∈ c.exemptedFds ∨
          ∃ arr, a.fdsToIgnore = some (some arr) ∧ (n : Int) ∈ arr := by
  have hempty : c.exemptedFds.isEmpty = false := by simpa using h
  have hsome : a.fdsToIgnore.isSome = true := by
    rw [canExemptFd, hargs, Bool.and_eq_true] at hcan
    exact hcan.2
  cases hignore : a.fdsToIgnore with
  | none => rw [hignore] at hsome; cases hsome
  | some array =>
      cases array with
      | none =>
          have heq : allowExempted env c = updateFdArray env a [] c := by
            simp only [allowExempted, hcan, hempty, hargs, hignore, Bool.not_false, Bool.and_self, if_true]
          rw [heq, updateFdArray, if_pos harray]
          refine ⟨by simp [handed, hempty], rfl, ?_⟩
          intro n hn
          simp [mem_vectorBits_iff hn]
      | some arr =>
          have heq : allowExempted env c =
              updateFdArray env a arr { c with allowedFds := c.allowedFds ++ vectorBits c arr } := by
            simp only [allowExempted, hcan, hempty, hargs, hignore, Bool.not_false, Bool.and_self, if_true]
          have hbits : ∀ n < c.fdMax,
              (n ∈ vectorBits { c with allowedFds := c.allowedFds ++ vectorBits c arr } c.exemptedFds ↔
                (n : Int) ∈ c.exemptedFds) := fun n hn => mem_vectorBits_iff hn
          rw [heq, updateFdArray, if_pos harray]
          refine ⟨by simp [handed, hempty], rfl, ?_⟩
          intro n hn
          simp [hbits n hn, mem_vectorBits_iff hn, or_comm]

/-- What `sanitize_fds` keeps of a descriptor, in terms of the calls that were made. -/
theorem keepsFd_allowExempted_iff {calls : List (Int × Bool)} {f : Fd} (harray : env.newIntArray = true)
    (hcan : canExemptFd c = true) (hargs : c.args = .app a) (hexempted : c.exemptedFds = exempted calls)
    (hn : f.num < c.fdMax) :
    keepsFd (allowExempted env c) f = true ↔
      f.num ∈ c.allowedFds ∨ ((f.num : Int), true) ∈ calls ∨ f.target ∈ kAllowedFdTargets ∨
        ((∃ fd, (fd, true) ∈ calls) ∧ ∃ arr, a.fdsToIgnore = some (some arr) ∧ (f.num : Int) ∈ arr) := by
  have hcalls : ∀ fd, fd ∈ c.exemptedFds ↔ (fd, true) ∈ calls := by
    intro fd
    rw [hexempted, mem_exempted_iff]
  rw [keepsFd, isAllowedFdTarget, Bool.or_eq_true, Bool.and_eq_true, List.contains_iff_mem,
    List.contains_iff_mem, decide_eq_true_eq]
  by_cases hnone : c.exemptedFds = []
  · have hno : ∀ fd, (fd, true) ∉ calls := by
      intro fd hfd
      rw [← hcalls fd, hnone] at hfd
      cases hfd
    rw [allowExempted_nil hnone]
    simp [hno, hn]
  · obtain ⟨-, hmax, hallowed⟩ := allowExempted_cons harray hcan hargs hnone
    have hsome : ∃ fd, (fd, true) ∈ calls := by
      obtain ⟨fd, hfd⟩ := List.exists_mem_of_ne_nil _ hnone
      exact ⟨fd, (hcalls fd).mp hfd⟩
    rw [hmax, hallowed _ hn, hcalls]
    simp only [hn, hsome, true_and]
    -- what is left only reorders the four cases
    generalize (∃ arr, a.fdsToIgnore = some (some arr) ∧ (f.num : Int) ∈ arr) = ignored
    tauto

/-- The array that the original method gets. -/
theorem args_allowExempted (harray : env.newIntArray = true) (hcan : canExemptFd c = true)
    (hargs : c.args = .app a) :
    (allowExempted env c).args = .app { a with fdsToIgnore := handed a.fdsToIgnore c.exemptedFds } := by
  by_cases hnone : c.exemptedFds = []
  · rw [allowExempted_nil hnone, hargs, hnone]
    rfl
  · exact (allowExempted_cons harray hcan hargs hnone).1

/-- The specialization in which `fork_pre` runs is the one that was constructed, with the flag of the
method. -/
theorem startContext_quiet (env : Env) (a : AppSpecializeArgs) (h : HookContext) :
    CtxQuiet (startContext env a) (directUnmount env a h (startContext env a)).2 := by
  simp only [directUnmount]
  split_ifs <;> exact ⟨rfl, rfl, rfl, rfl, rfl, rfl, rfl, rfl⟩

/-- The child after `fork_pre`. -/
theorem forkPreIn_spec {p : Proc} {d : Nat} (hc : p.gCtx = some c) (hchild : env.oldFork (p.log.count .oldFork) = 0)
    (hd : isOpen p d = false) (hfresh : c.allowedFds = []) :
    (forkPreIn env d p).fds = p.fds.filter (fun f => decide (f.num < c.fdMax)) ∧
      ∃ allowed, (forkPreIn env d p).gCtx = some { c with pid := 0, allowedFds := allowed } ∧
        ∀ n, n ∈ allowed ↔ isOpen p n = true ∧ n < c.fdMax := by
  have hbranch : forkPreIn env d p = recordFdsIn d ((p.emit .oldFork).setCtx { c with pid := 0 }) := by
    rw [forkPreIn, withCtx_some hc]
    simp only [oldFork, hchild, isChild, le_refl, decide_true, if_true]
  have hctx : ((p.emit .oldFork).setCtx { c with pid := 0 }).gCtx = some { c with pid := 0 } := rfl
  obtain ⟨hfds, allowed, hallowed, hmem⟩ := recordFdsIn_spec hctx hd
  rw [hbranch]
  refine ⟨hfds, allowed, hallowed, ?_⟩
  intro n
  rw [hmem n]
  simp only [hfresh, List.not_mem_nil, false_and, false_or]
  rfl

theorem startContext_exempts (env : Env) {a : AppSpecializeArgs} (hignore : a.fdsToIgnore.isSome = true) :
    Exempts (startContext env a) := by
  have hflags : (startContext env a).flags = 0#32 ||| APP_FORK_AND_SPECIALIZE := rfl
  constructor
  case post => rw [hflags]; decide
  case skip => rw [hflags]; decide
  case can =>
    rw [canExemptFd, hflags, Bool.and_eq_true]
    exact ⟨by decide, hignore⟩

/-- The child as module code finds it, with the specialization `c`. -/
structure Forked (env : Env) (a : AppSpecializeArgs) (p q : Proc) (c : ZygiskContext) : Prop where
  ctx : q.gCtx = some c
  args : c.args = .app a
  pid : c.pid = 0
  fdMax : c.fdMax = env.fdMax
  exemptedFds : c.exemptedFds = []
  allowedFds : ∀ n, n ∈ c.allowedFds ↔ isOpen p n = true ∧ n < env.fdMax
  exempts : Exempts c
  fds : q.fds.Sublist p.fds

theorem forked_of_start {p : Proc} {h : HookContext} (hhook : p.gHook = some h)
    (hignore : a.fdsToIgnore.isSome = true) (hchild : env.oldFork (p.log.count .oldFork) = 0) {d : Nat}
    (hd : isOpen p d = false) :
    ∃ c, Forked env a p (forkPreIn env d (forkAndSpecializeStart env a (p.setCtx (newContext env (.app a))))) c := by
  rw [forkAndSpecializeStart_eq env a hhook]
  have hstart := startContext_quiet env a h
  have hexempts := (startContext_exempts env hignore).congr hstart
  obtain ⟨hfds, allowed, hctx, hallowed⟩ := forkPreIn_spec
    (p := (p.setHook (directUnmount env a h (startContext env a)).1).setCtx
      (directUnmount env a h (startContext env a)).2) rfl hchild hd (hstart.allowedFds.trans rfl)
  refine ⟨_, hctx, hstart.args, rfl, hstart.fdMax, hstart.exemptedFds, ?_, ?_, ?_⟩
  · intro n
    rw [hallowed n, hstart.fdMax]
    rfl
  · exact ⟨hexempts.post, hexempts.skip, hexempts.can⟩
  · rw [hfds]
    exact List.filter_sublist

end Sanitized

/-- In the child of a `nativeForkAndSpecialize` that has the array, whatever modules do before: below the
limit `sanitize_fds` keeps the descriptors it promised to keep and no others, and the original method is
handed the array with the exempted descriptors behind its entries. -/
theorem sanitizeFdsIn_iff (env : Env) (a : AppSpecializeArgs) (p : Proc) (h : HookContext) (hhook : p.gHook = some h)
    (hnodup : (p.fds.map Fd.num).Nodup) (hignore : a.fdsToIgnore.isSome = true)
    (hchild : env.oldFork (p.log.count .oldFork) = 0) (harray : env.newIntArray = true)
    (d dir : Nat) (hd : isOpen p d = false) (calls : List (Int × Bool)) (before : Proc)
    (hrun : Run env (forkPreIn env d (forkAndSpecializeStart env a (p.setCtx (newContext env (.app a)))))
      calls before)
    (hdir : isOpen before dir = false) :
    (∀ n < env.fdMax, isOpen (sanitizeFdsIn env (some dir) before) n = true ↔
      ∃ f ∈ before.fds, f.num = n ∧ Promised p a calls f) ∧
    (sanitizeFdsIn env (some dir) before).gCtx.map (·.args) =
      some (.app { a with fdsToIgnore := handed a.fdsToIgnore (exempted calls) }) := by
  obtain ⟨c₀, hforked⟩ : ∃ c, Forked env a p
      (forkPreIn env d (forkAndSpecializeStart env a (p.setCtx (newContext env (.app a))))) c :=
    forked_of_start hhook hignore hchild hd
  have hkept := hrun.kept hforked.ctx hforked.exempts (hnodup.sublist (hforked.fds.map Fd.num))
  obtain ⟨c, hc, hquiet⟩ := hkept.ctx
  -- the specialization that `sanitize_fds` runs in
  have hargs : c.args = .app a := hquiet.args.trans hforked.args
  have hmax : c.fdMax = env.fdMax := hquiet.fdMax.trans hforked.fdMax
  have hpid : isChild c = true := by
    rw [isChild, hquiet.pid, hforked.pid]
    rfl
  have hcan : canExemptFd c = true := hquiet.canExemptFd_eq.trans hforked.exempts.can
  have hexempted : c.exemptedFds = exempted calls := by
    rw [hquiet.exemptedFds, hforked.exemptedFds, List.nil_append]
  have hallowed : ∀ n < env.fdMax, n ∈ c.allowedFds ↔ isOpen p n = true := by
    intro n hn
    rw [hquiet.allowedFds, hforked.allowedFds]
    exact and_iff_left hn
  obtain ⟨hfds, hctx⟩ := sanitizeFdsIn_spec env hc hpid hkept.nodup hdir
  constructor
  · intro n hn
    have hkeeps : ∀ f ∈ before.fds, f.num = n → (keepsFd (allowExempted env c) f = true ↔ Promised p a calls f) := by
      rintro f - rfl
      rw [keepsFd_allowExempted_iff harray hcan hargs hexempted (hmax ▸ hn), hallowed _ hn]
      rfl
    rw [isOpen_iff, hfds]
    constructor
    · rintro ⟨f, hf, hnum⟩
      obtain ⟨hmem, hkeep⟩ := List.mem_filter.mp hf
      exact ⟨f, hmem, hnum, (hkeeps f hmem hnum).mp hkeep⟩
    · rintro ⟨f, hmem, hnum, hpromised⟩
      exact ⟨f, List.mem_filter.mpr ⟨hmem, (hkeeps f hmem hnum).mpr hpromised⟩, hnum⟩
  · rw [hctx, Option.map_some, args_allowExempted harray hcan hargs, hexempted]

/-- A module of version 5, of which only the table matters. -/
def exempting : ZygiskModule := { newModule 0 [] true with api := fillTable 5 fun _ => none }

def ignoringArgs : AppSpecializeArgs := { plainArgs with fdsToIgnore := some (some [10]) }

/-- The child of a zygote with the descriptors 0 and 7. -/
def freshChild : Proc :=
  forkPreIn (forkEnv 0) 3
    (forkAndSpecializeStart (forkEnv 0) ignoringArgs (freshZygote.setCtx (newContext (forkEnv 0) (.app ignoringArgs))))

/-- Module code opens three descriptors and exempts one of them. -/
def exemptingCode : List Action :=
  [.openFd 9 "pipe:[51]", .openFd 10 "pipe:[52]", .openFd 11 "pipe:[53]",
    .api .pltHookExcludeOrExemptFd { fd := 9 }]

/-- The child after the first `k` actions. -/
def exemptingChild (k : Nat) : Proc :=
  (exemptingCode.take k).foldl (fun q a => (runAction (forkEnv 0) exempting q a).2) freshChild

theorem run_exemptingChild : Run (forkEnv 0) freshChild [(9, true)] (exemptingChild 4) := by
  have hrun : Run (forkEnv 0) freshChild
      ([] ++ [] ++ [] ++ [] ++ exemptCalls exempting (exemptingChild 3) (.api .pltHookExcludeOrExemptFd { fd := 9 }))
      (exemptingChild 4) :=
    (((Run.refl.act exempting (.openFd 9 "pipe:[51]")).act exempting (.openFd 10 "pipe:[52]")).act exempting
      (.openFd 11 "pipe:[53]")).act exempting (.api .pltHookExcludeOrExemptFd { fd := 9 })
  have hcalls : exemptCalls exempting (exemptingChild 3) (.api .pltHookExcludeOrExemptFd { fd := 9 }) = [(9, true)] := by
    decide
  rw [hcalls] at hrun
  exact hrun

/-- The exempted 9 and the ignored 10 stay open, 11 is closed. -/
theorem sanitizeFdsIn_exempting :
    (∀ n < (forkEnv 0).fdMax, isOpen (sanitizeFdsIn (forkEnv 0) (some 3) (exemptingChild 4)) n = true ↔
      ∃ f ∈ (exemptingChild 4).fds, f.num = n ∧ Promised freshZygote ignoringArgs [(9, true)] f) ∧
    (sanitizeFdsIn (forkEnv 0) (some 3) (exemptingChild 4)).gCtx.map (·.args) =
      some (.app { ignoringArgs with fdsToIgnore := handed ignoringArgs.fdsToIgnore (exempted [(9, true)]) }) :=
  sanitizeFdsIn_iff (forkEnv 0) ignoringArgs freshZygote freshHook rfl (by decide) rfl rfl rfl 3 3 (by decide)
    [(9, true)] (exemptingChild 4) run_exemptingChild (by decide)

/-! ## The hook makes such a run -/

section Hook

variable {env : Env} {p q r : Proc}

theorem Run.trans {calls calls' : List (Int × Bool)} (h : Run env p calls q) (h' : Run env q calls' r) :
    Run env p (calls ++ calls') r := by
  induction h' with
  | refl => rwa [List.append_nil]
  | act m a _ ih =>
      rw [← List.append_assoc]
      exact ih.act m a
  | quiet _ hquiet ih => exact ih.quiet hquiet

/-- Some run leads from `p` to `q`. -/
def Reaches (env : Env) (p q : Proc) : Prop := ∃ calls, Run env p calls q

theorem Reaches.trans (h : Reaches env p q) (h' : Reaches env q r) : Reaches env p r := by
  obtain ⟨calls, hcalls⟩ := h
  obtain ⟨calls', hcalls'⟩ := h'
  exact ⟨calls ++ calls', hcalls.trans hcalls'⟩

theorem reaches_refl (p : Proc) : Reaches env p p := ⟨[], .refl⟩

theorem reaches_of_quiet (h : Quiet p q) : Reaches env p q := ⟨[], Run.refl.quiet h⟩

theorem reaches_act (m : ZygiskModule) (a : Action) (p : Proc) : Reaches env p (runAction env m p a).2 :=
  ⟨_, Run.refl.act m a⟩

/-- A step that leaves descriptors and the specialization alone. -/
theorem quiet_of_eq (hfds : q.fds = p.fds) (hctx : q.gCtx = p.gCtx) : Quiet p q := by
  refine ⟨hfds, ?_⟩
  rw [hctx]
  cases p.gCtx with
  | none => exact .none
  | some c => exact .some (.refl c)

theorem reaches_runActions (as : List Action) (m : ZygiskModule) (p : Proc) :
    Reaches env p (runActions env as m p).2 := by
  induction as generalizing m p with
  | nil => exact reaches_refl p
  | cons a as ih =>
      simp only [runActions]
      split_ifs
      · exact reaches_refl p
      · exact (reaches_act m a p).trans (ih _ _)

theorem reaches_onLoad (as : List EntryAction) (m : ZygiskModule) (p : Proc) :
    Reaches env p (onLoad env as m p).2 := by
  induction as generalizing m p with
  | nil => exact reaches_refl p
  | cons a as ih =>
      cases a with
      | registerModule module => exact ih _ p
      | act a =>
          simp only [onLoad]
          split_ifs
          · exact reaches_refl p
          · exact (reaches_act m a p).trans (ih _ _)

theorem reaches_invoke (callback : Callback) (code : Option (List Action)) (m : ZygiskModule) (p : Proc) :
    Reaches env p (invoke env callback code m p).2 := by
  have hcall : Reaches env p (p.emit (.call m.id callback)) := reaches_of_quiet (quiet_of_eq rfl rfl)
  cases code with
  | none => exact hcall.trans (reaches_of_quiet (quiet_of_eq rfl rfl))
  | some as => exact hcall.trans (reaches_runActions as m _)

theorem reaches_preModule (m : ZygiskModule) (p : Proc) : Reaches env p (preModule env m p).2 := by
  have happ : ∀ m q, Reaches env q (preAppSpecialize env m q).2 := by
    intro m q
    rw [preAppSpecialize, callApp]
    split
    · exact reaches_of_quiet (quiet_of_eq rfl rfl)
    · split_ifs
      · exact reaches_invoke _ _ m q
      · exact reaches_refl q
  have hserver : ∀ m q, Reaches env q (preServerSpecialize env m q).2 := by
    intro m q
    rw [preServerSpecialize, callServer]
    split
    · exact reaches_of_quiet (quiet_of_eq rfl rfl)
    · exact reaches_invoke _ _ m q
  have hload : Reaches env p (onLoad env m.entry m p).2 := reaches_onLoad m.entry m p
  simp only [preModule, dispatch]
  split_ifs
  · exact hload
  · exact hload.trans (happ _ _)
  · exact hload.trans (hserver _ _)
  · exact hload

theorem reaches_eachModule {body : ZygiskModule → Proc → ZygiskModule × Proc}
    (hbody : ∀ m q, Reaches env q (body m q).2) (ms : List ZygiskModule) (p : Proc) :
    Reaches env p (eachModule body ms p).2 := by
  induction ms generalizing p with
  | nil => exact reaches_refl p
  | cons m ms ih =>
      simp only [eachModule]
      split_ifs
      · exact reaches_refl p
      · exact (hbody m p).trans (ih _)

theorem reaches_runModulesPre (p : Proc) : Reaches env p (runModulesPre env p) := by
  have hload : Reaches env p { p with log := p.log ++ loadEvents (readModules env) } :=
    reaches_of_quiet (quiet_of_eq rfl rfl)
  have hloop : Reaches env p (preLoop env p).2 := hload.trans (reaches_eachModule reaches_preModule _ _)
  refine hloop.trans (reaches_of_quiet ⟨rfl, ?_⟩)
  rw [runModulesPre, setModules]
  cases (preLoop env p).2.gCtx with
  | none => exact .none
  | some c => exact .some ⟨rfl, rfl, rfl, rfl, rfl, rfl, rfl, rfl⟩

/-- The flags that `app_specialize_pre` sets are none that `exempt_fd` asks for. -/
theorem settleFlags_quiet (a : AppSpecializeArgs) (skipZygiskd : Bool) (c : ZygiskContext) :
    CtxQuiet c (settleFlags env a skipZygiskd c) := by
  have hmask : ∀ mask : Flags, has DO_REVERT_UNMOUNT mask = false → has APP_SPECIALIZE mask = false →
      has (settleFlags env a skipZygiskd c).flags mask = has c.flags mask := by
    intro mask hrevert happ
    simp only [settleFlags, has_or, happ, Bool.or_false]
    split_ifs <;> simp [hrevert]
  exact ⟨rfl, rfl, rfl, rfl, rfl, hmask _ (by decide) (by decide), hmask _ (by decide) (by decide),
    hmask _ (by decide) (by decide)⟩

theorem reaches_appSpecializePre (a : AppSpecializeArgs) (p : Proc) :
    Reaches env p (appSpecializePre env a p) := by
  cases hc : p.gCtx with
  | none =>
      rw [appSpecializePre, withCtx, hc]
      exact reaches_refl p
  | some c =>
      have hsettle : ∀ skip, Reaches env p (p.setCtx (settleFlags env a skip c)) := by
        intro skip
        refine reaches_of_quiet ⟨rfl, ?_⟩
        rw [hc]
        exact .some (settleFlags_quiet a skip c)
      rw [appSpecializePre, withCtx_some hc]
      dsimp only
      split_ifs
      · exact hsettle _
      · exact (hsettle _).trans (reaches_runModulesPre _)

/-- In the child, unless module code ends the process, `nativeForkAndSpecialize_pre` is `sanitize_fds` after a
run of module code. -/
theorem nativeForkAndSpecializePreIn_run (a : AppSpecializeArgs) {h : HookContext} (hhook : p.gHook = some h)
    (hfault : p.fault = none) (hignore : a.fdsToIgnore.isSome = true)
    (hchild : env.oldFork (p.log.count .oldFork) = 0) {d : Nat} (hd : isOpen p d = false) (dir : Option Nat) :
    ∃ calls before,
      Run env (forkPreIn env d (forkAndSpecializeStart env a (p.setCtx (newContext env (.app a))))) calls before ∧
        nativeForkAndSpecializePreIn env a d dir (p.setCtx (newContext env (.app a))) =
          before.next (sanitizeFdsIn env dir) := by
  obtain ⟨c, hforked⟩ : ∃ c, Forked env a p
      (forkPreIn env d (forkAndSpecializeStart env a (p.setCtx (newContext env (.app a))))) c :=
    forked_of_start hhook hignore hchild hd
  have hpid : isChild c = true := by
    rw [isChild, hforked.pid]
    rfl
  obtain ⟨calls, hrun⟩ : Reaches env _ _ := reaches_appSpecializePre a
    (forkPreIn env d (forkAndSpecializeStart env a (p.setCtx (newContext env (.app a)))))
  refine ⟨calls, _, hrun, ?_⟩
  have hstart : (forkAndSpecializeStart env a (p.setCtx (newContext env (.app a)))).fault = none := by
    rw [forkAndSpecializeStart_eq env a hhook]
    exact hfault
  rw [nativeForkAndSpecializePreIn, next_of_fault_none hstart]
  dsimp only
  rw [withCtx_some hforked.ctx, if_pos hpid]

end Hook

end NeoZygisk.Injector.Exemptions
