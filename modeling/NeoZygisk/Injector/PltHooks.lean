import Mathlib.Data.List.Basic

/-!
# The hooks of the injector over its life

The injector replaces imports of `libandroid_runtime` and, later, one of `libart`. It goes away from inside a
replacement: `new_pthread_attr_setstacksize` puts the imports back and returns through `munmap`. From then on nothing
of the process may lead into the library, and nothing that still does may use the deleted `HookContext`.

The process calls its imports in any order, specializes with and without a fork, as a parent and as a child, and lsplt
may refuse a registration or fail to apply one. A commit that reports success has applied all that was registered. A
child gives the methods of `Zygote` back that `restore_zygote_hook` finds again; that it finds all of them is a premise
(`Act.PutsBack`).

`life_safe`: no call ever leads into the unmapped library. Once the first hooks have all been applied, and as long as
no restore fails, the process does not fail otherwise either.
-/

set_option autoImplicit false

namespace NeoZygisk.Injector.PltHooks

/-! ## State -/

/-- The imports that are replaced. -/
inductive Func where
  | fork
  | unshare
  | strdup
  | propertyGet
  | pthreadAttrSetstacksize
  deriving DecidableEq, Repr

/-- Where a function pointer leads. -/
inductive Target where
  | null
  | original (f : Func)
  | new (f : Func)
  deriving DecidableEq, Repr

/-- What the life of the hooks needs of `HookContext`. -/
structure HookContext where
  shouldUnmap : Bool
  skipHookingUnloader : Bool
  pltBackup : List Func

/-- `g_hook`. -/
inductive HookPtr where
  | null
  | live (h : HookContext)
  | deleted

/-- What the hooks need of a `ZygiskContext`. -/
structure ZygiskContext where
  server : Bool
  forked : Bool

structure Proc where
  slot : Func → Target
  /-- `old_fork` and its like. -/
  old : Func → Target
  gHook : HookPtr
  gCtx : Option ZygiskContext
  /-- The native methods of `Zygote` are the replacements. -/
  jni : Bool
  mapped : Bool

/-- Why a process fails. -/
inductive Fault where
  /-- A call through a null pointer. -/
  | nullCall
  /-- A replacement that calls itself. -/
  | recursion
  /-- A call into the library after it is unmapped. -/
  | unmapped
  /-- A use of `g_hook` where it is null, or after it is deleted. -/
  | nullHook
  | deletedHook
  deriving DecidableEq, Repr

/-! ## lsplt -/

/-- A call of `CommitHook`: the imports that were changed, and whether it reported success. -/
structure Commit where
  applied : Func → Bool
  result : Bool
  truthful : result = true → ∀ f, applied f = true

/-- Registrations, of which lsplt accepts some, and the commit after them. -/
structure Hooking where
  accepts : Func → Bool
  commit : Commit

/-- All went well. -/
def Hooking.succeeds (o : Hooking) : Prop := (∀ f, o.accepts f = true) ∧ o.commit.result = true

namespace Proc

variable (p : Proc)

/-- A replacement is registered with its backup, and committed. -/
def hook (c : Commit) (fs : List Func) : Proc :=
  { p with
    slot := fun f => if f ∈ fs ∧ c.applied f = true then .new f else p.slot f
    old := fun f => if f ∈ fs ∧ c.applied f = true then p.slot f else p.old f }

/-- What the backups hold is registered without another backup, and committed. -/
def unhook (c : Commit) (fs : List Func) : Proc :=
  { p with slot := fun f => if f ∈ fs ∧ c.applied f = true then p.old f else p.slot f }

/-- `old_##func(...)`. -/
def callOld (f : Func) : Except Fault Proc :=
  match p.old f with
  | .original _ => .ok p
  | .new _ => .error .recursion
  | .null => .error .nullCall

/-- A use of `g_hook`. -/
def withHook (k : HookContext → Except Fault Proc) : Except Fault Proc :=
  match p.gHook with
  | .live h => k h
  | .null => .error .nullHook
  | .deleted => .error .deletedHook

def setHook (h : HookContext) : Proc := { p with gHook := .live h }

def setCtx (c : Option ZygiskContext) : Proc := { p with gCtx := c }

def setJni (jni : Bool) : Proc := { p with jni := jni }

/-! ## `HookContext` -/

def runtimeFuncs : List Func := [.fork, .unshare, .strdup, .propertyGet]

/-- `hook_plt`. What was not hooked is not kept. -/
def hookPlt (o : Hooking) (h : HookContext) : Proc :=
  let accepted := runtimeFuncs.filter o.accepts
  let p := p.hook o.commit accepted
  p.setHook { h with pltBackup := (h.pltBackup ++ accepted).filter fun f => p.old f != .null }

/-- `hook_unloader`. -/
def hookUnloader (o : Hooking) (h : HookContext) : Proc × HookContext :=
  let accepted := [Func.pthreadAttrSetstacksize].filter o.accepts
  (p.hook o.commit accepted, { h with pltBackup := h.pltBackup ++ accepted })

/-- `restore_plt_hook`. -/
def restorePltHook (o : Hooking) (h : HookContext) : Proc × HookContext :=
  let p := p.unhook o.commit (h.pltBackup.filter o.accepts)
  (p, { h with shouldUnmap := h.shouldUnmap && h.pltBackup.all o.accepts && o.commit.result })

/-! ## Replacements -/

def newFork : Except Fault Proc :=
  match p.gCtx with
  | some c => if c.forked then .ok p else p.callOld .fork
  | none => p.callOld .fork

def newUnshare (newNs : Bool) : Except Fault Proc :=
  match p.gCtx with
  | some c => if newNs && !c.server then p.withHook fun _ => p.callOld .unshare else p.callOld .unshare
  | none => p.callOld .unshare

/-- `hook_zygote_jni` exchanges the methods with those in its table, if it gets that far. -/
def newStrdup (zygoteInit hooked : Bool) : Except Fault Proc :=
  if zygoteInit then p.withHook fun _ => (p.setJni (p.jni != hooked)).callOld .strdup
  else p.callOld .strdup

/-- The last backup that holds what `old_property_get` does is taken off the list, if the import can be restored. -/
def unhookPropertyGet (o : Hooking) (h : HookContext) : Proc × HookContext :=
  match h.pltBackup.reverse.find? fun f => p.old f == p.old .propertyGet with
  | none => (p, h)
  | some f =>
      if o.accepts f then
        (p.unhook o.commit [f],
          if o.commit.result then { h with pltBackup := (h.pltBackup.reverse.erase f).reverse } else h)
      else (p, h)

def newPropertyGet (unloader own : Hooking) : Except Fault Proc :=
  p.withHook fun h =>
    if h.skipHookingUnloader then p.callOld .propertyGet
    else
      let (p, h) := p.hookUnloader unloader h
      let (p, h) := p.unhookPropertyGet own { h with skipHookingUnloader := true }
      (p.setHook h).callOld .propertyGet

def newPthreadAttrSetstacksize (mainThread : Bool) (o : Hooking) : Except Fault Proc :=
  match p.callOld .pthreadAttrSetstacksize with
  | .error e => .error e
  | .ok p =>
      p.withHook fun h =>
        if h.shouldUnmap && mainThread then
          let (p, h) := p.restorePltHook o h
          .ok { p with gHook := .deleted, mapped := p.mapped && !h.shouldUnmap }
        else .ok p

/-- A call of an import. -/
def call (f : Func) (new : Proc → Except Fault Proc) : Except Fault Proc :=
  match p.slot f with
  | .original _ => .ok p
  | .null => .error .nullCall
  | .new _ => if p.mapped then new p else .error .unmapped

/-! ## Specialization -/

/-- `fork_pre`. -/
def forkPre : Except Fault Proc := p.callOld .fork

/-- A native method of `Zygote` is called. Those that fork read members of `g_hook` before they do. -/
def preSpecialize (server forks : Bool) : Except Fault Proc :=
  if !p.jni then .ok p
  else if !p.mapped then .error .unmapped
  else if forks then p.withHook fun _ => (p.setCtx (some ⟨server, forks⟩)).forkPre
  else .ok (p.setCtx (some ⟨server, forks⟩))

/-- It returns: `~ZygiskContext`, where a child puts the methods back that `restore_zygote_hook` finds again. -/
def postSpecialize (child restored : Bool) : Except Fault Proc :=
  match p.gCtx with
  | none => .ok p
  | some _ =>
      if child then
        match p.gHook with
        | .null => .ok (p.setCtx none)
        | .live h => .ok (((p.setCtx none).setJni (p.jni && !restored)).setHook { h with shouldUnmap := true })
        | .deleted => .error .deletedHook
      else .ok (p.setCtx none)

end Proc

/-- What the process does. -/
inductive Act where
  | fork
  | unshare (newNs : Bool)
  | strdup (zygoteInit hooked : Bool)
  | propertyGet (unloader own : Hooking)
  | pthreadAttrSetstacksize (mainThread : Bool) (o : Hooking)
  | preSpecialize (server forks : Bool)
  | postSpecialize (child restored : Bool)

def step (p : Proc) : Act → Except Fault Proc
  | .fork => p.call .fork Proc.newFork
  | .unshare newNs => p.call .unshare fun p => p.newUnshare newNs
  | .strdup zygoteInit hooked => p.call .strdup fun p => p.newStrdup zygoteInit hooked
  | .propertyGet unloader own => p.call .propertyGet fun p => p.newPropertyGet unloader own
  | .pthreadAttrSetstacksize mainThread o =>
      p.call .pthreadAttrSetstacksize fun p => p.newPthreadAttrSetstacksize mainThread o
  | .preSpecialize server forks => p.preSpecialize server forks
  | .postSpecialize child restored => p.postSpecialize child restored

def run (p : Proc) : List Act → Except Fault Proc
  | [] => .ok p
  | a :: as =>
      match step p a with
      | .ok p => run p as
      | .error e => .error e

/-- How the injector is entered; a zygote that is already up runs the first two replacements at once. -/
inductive Mode where
  | zygote
  | standalone (hooked : Bool) (unloader own : Hooking)

/-- The process when the library is loaded. -/
def loaded : Proc where
  slot := .original
  old := fun _ => .null
  gHook := .null
  gCtx := none
  jni := false
  mapped := true

/-- `hook_entry`, and `trigger_zygote_hooks` where it is called. -/
def hookEntry (o : Hooking) (mode : Mode) : Except Fault Proc :=
  let p := loaded.hookPlt o ⟨false, false, []⟩
  match mode with
  | .zygote => .ok p
  | .standalone hooked unloader own =>
      match p.newStrdup true hooked with
      | .ok p => p.newPropertyGet unloader own
      | .error e => .error e

/-- The life of the process from the injection on. -/
def life (o : Hooking) (mode : Mode) (acts : List Act) : Except Fault Proc :=
  match hookEntry o mode with
  | .ok p => run p acts
  | .error e => .error e

/-! ## Statements -/

/-- `AndroidRuntime::start` comes to `ZygoteInit`. -/
def Act.starts : Act → Bool
  | .strdup zygoteInit _ => zygoteInit
  | _ => false

def Mode.starts : Mode → Nat
  | .zygote => 0
  | .standalone _ _ _ => 1

/-- The runtime is started once. -/
def StartsOnce (mode : Mode) (acts : List Act) : Prop := mode.starts + acts.countP Act.starts ≤ 1

instance (mode : Mode) (acts : List Act) : Decidable (StartsOnce mode acts) := Nat.decLe _ _

/-- A child that puts the methods back finds all of them. -/
def Act.PutsBack : Act → Prop
  | .postSpecialize child restored => child = true → restored = true
  | _ => True

/-- The restores of the run succeed. -/
def Act.Restores : Act → Prop
  | .pthreadAttrSetstacksize _ o => o.succeeds
  | _ => True

/-! ## Invariant -/

/-- What the context knows of the imports while it lives. -/
structure Live (p : Proc) (h : HookContext) : Prop where
  backup : ∀ f, p.slot f = .new f → f ∈ h.pltBackup
  kept : ∀ f ∈ h.pltBackup, f ≠ .pthreadAttrSetstacksize → p.old f = .original f
  unloader : h.skipHookingUnloader = false → p.slot .pthreadAttrSetstacksize = .original .pthreadAttrSetstacksize
  leaving : h.shouldUnmap = true → p.jni = false ∧ p.gCtx = none

/-- Every import is the original or its replacement, and a replacement knows the original. Once the context is deleted
no method leads to it, and once the library is unmapped no import does. -/
structure Sound (p : Proc) : Prop where
  slot : ∀ f, p.slot f = .original f ∨ p.slot f = .new f
  old : ∀ f, p.old f = .null ∨ p.old f = .original f
  replaced : ∀ f, p.slot f = .new f → p.old f = .original f
  notNull : p.gHook ≠ .null
  live : ∀ h, p.gHook = .live h → Live p h
  deleted : p.gHook = .deleted → p.jni = false ∧ p.gCtx = none
  unmapped : p.mapped = false → p.gHook = .deleted ∧ ∀ f, p.slot f = .original f

namespace Sound

variable {p : Proc}

theorem mapped_of_live (hs : Sound p) {h : HookContext} (hh : p.gHook = .live h) : p.mapped = true := by
  cases hmapped : p.mapped with
  | true => rfl
  | false =>
      rw [(hs.unmapped hmapped).1] at hh
      cases hh

/-- A call of an import reaches the original, or the replacement in a library that is mapped. -/
theorem call_cases (hs : Sound p) (f : Func) (new : Proc → Except Fault Proc) :
    p.call f new = .ok p ∨ p.slot f = .new f ∧ p.old f = .original f ∧ p.call f new = new p := by
  rw [Proc.call]
  rcases hs.slot f with hslot | hslot
  · rw [hslot]
    exact .inl rfl
  · have hmapped : p.mapped = true := by
      cases hmapped : p.mapped with
      | true => rfl
      | false =>
          rw [(hs.unmapped hmapped).2 f] at hslot
          cases hslot
    rw [hslot, hmapped]
    exact .inr ⟨rfl, hs.replaced f hslot, rfl⟩

end Sound

theorem withHook_live {p : Proc} {h : HookContext} (hh : p.gHook = .live h) (k : HookContext → Except Fault Proc) :
    p.withHook k = k h := by
  rw [Proc.withHook, hh]

theorem callOld_eq {p : Proc} {f : Func} (h : p.old f = .original f) : p.callOld f = .ok p := by
  rw [Proc.callOld, h]

/-- The first hooks were all applied, and the context was deleted only to unmap the library. -/
structure Full (p : Proc) : Prop where
  old : ∀ f ∈ Proc.runtimeFuncs, p.old f = .original f
  deleted : p.gHook = .deleted → p.mapped = false

/-- The result keeps the invariant. If it is a failure, then not a call into the unmapped library, and none at all
where the hooks are full. -/
def Good (full : Prop) : Except Fault Proc → Prop
  | .ok p => Sound p ∧ (full → Full p)
  | .error e => e ≠ .unmapped ∧ ¬ full

theorem Good.imp {full full' : Prop} {r : Except Fault Proc} (h : Good full r) (hfull : full' → full) :
    Good full' r := by
  cases r with
  | ok p => exact ⟨h.1, fun h' => h.2 (hfull h')⟩
  | error e => exact ⟨h.1, fun h' => h.2 (hfull h')⟩

/-- The runtime has not been started yet. -/
structure Fresh (p : Proc) : Prop where
  jni : p.jni = false
  gCtx : p.gCtx = none
  live : ∃ h, p.gHook = .live h ∧ h.shouldUnmap = false

/-! ## One step -/

section Steps

variable {p : Proc}

theorem good_self (hs : Sound p) (R : Prop) : Good (Full p ∧ R) (.ok p) := ⟨hs, fun h => h.1⟩

/-- The hook is alive while a context is, and while methods lead to the library. -/
theorem exists_live (hs : Sound p) (h : p.jni = true ∨ p.gCtx ≠ none) : ∃ hook, p.gHook = .live hook := by
  cases hhook : p.gHook with
  | null => exact absurd hhook hs.notNull
  | live hook => exact ⟨hook, rfl⟩
  | deleted =>
      obtain ⟨hjni, hctx⟩ := hs.deleted hhook
      rcases h with h | h
      · rw [hjni] at h
        cases h
      · exact absurd hctx h

theorem good_newFork (hs : Sound p) (hold : p.old .fork = .original .fork) (R : Prop) :
    Good (Full p ∧ R) p.newFork := by
  rw [Proc.newFork]
  split
  · split_ifs
    · exact good_self hs R
    · rw [callOld_eq hold]
      exact good_self hs R
  · rw [callOld_eq hold]
    exact good_self hs R

theorem good_newUnshare (hs : Sound p) (hold : p.old .unshare = .original .unshare) (newNs : Bool) (R : Prop) :
    Good (Full p ∧ R) (p.newUnshare newNs) := by
  rw [Proc.newUnshare]
  cases hctx : p.gCtx with
  | none =>
      simp only [callOld_eq hold]
      exact good_self hs R
  | some c =>
      obtain ⟨hook, hhook⟩ := exists_live hs (.inr (by rw [hctx]; exact Option.some_ne_none c))
      simp only [Proc.withHook, hhook, callOld_eq hold, ite_self]
      exact good_self hs R

theorem good_newStrdup (hs : Sound p) (hold : p.old .strdup = .original .strdup) {zygoteInit : Bool}
    (hfresh : zygoteInit = true → Fresh p) (hooked : Bool) (R : Prop) :
    Good (Full p ∧ R) (p.newStrdup zygoteInit hooked) := by
  rw [Proc.newStrdup]
  split_ifs with hinit
  · obtain ⟨hjni, hctx, hook, hhook, hstays⟩ := hfresh hinit
    have hcall : (p.setJni (p.jni != hooked)).callOld .strdup = .ok (p.setJni (p.jni != hooked)) := callOld_eq hold
    rw [withHook_live hhook, hcall]
    refine ⟨⟨hs.slot, hs.old, hs.replaced, hs.notNull, ?_, ?_, hs.unmapped⟩, fun h => ⟨h.1.old, h.1.deleted⟩⟩
    · intro h hh
      obtain rfl := HookPtr.live.inj (hhook.symm.trans hh)
      have hlive := hs.live hook hhook
      refine ⟨hlive.backup, hlive.kept, hlive.unloader, ?_⟩
      intro hleaving
      rw [hstays] at hleaving
      cases hleaving
    · intro hdeleted
      exact absurd (hhook.symm.trans hdeleted) HookPtr.noConfusion
  · rw [callOld_eq hold]
    exact good_self hs R

/-- A replacement that is reached does not meet a deleted context where the hooks are full. -/
theorem good_deleted (hs : Sound p) {f : Func} (hslot : p.slot f = .new f) (hhook : p.gHook = .deleted) (R : Prop) :
    Good (Full p ∧ R) (.error .deletedHook) := by
  refine ⟨by decide, ?_⟩
  rintro ⟨hfull, -⟩
  rw [(hs.unmapped (hfull.deleted hhook)).2 f] at hslot
  cases hslot

theorem good_postSpecialize (hs : Sound p) {child restored : Bool} (hback : child = true → restored = true) (R : Prop) :
    Good (Full p ∧ R) (p.postSpecialize child restored) := by
  rw [Proc.postSpecialize]
  cases hctx : p.gCtx with
  | none => exact good_self hs R
  | some c =>
      obtain ⟨hook, hhook⟩ := exists_live hs (.inr (by rw [hctx]; exact Option.some_ne_none c))
      have hlive := hs.live hook hhook
      have hmapped := hs.mapped_of_live hhook
      have hnotDeleted : p.gHook ≠ .deleted := by
        rw [hhook]
        exact fun h => by cases h
      cases child with
      | false =>
          refine ⟨⟨hs.slot, hs.old, hs.replaced, hs.notNull, ?_, fun h => absurd h hnotDeleted, hs.unmapped⟩,
            fun h => ⟨h.1.old, h.1.deleted⟩⟩
          intro h hh
          obtain rfl := HookPtr.live.inj (hhook.symm.trans hh)
          exact ⟨hlive.backup, hlive.kept, hlive.unloader, fun hl => ⟨(hlive.leaving hl).1, rfl⟩⟩
      | true =>
          simp only [if_true, hhook, hback rfl, Bool.not_true, Bool.and_false]
          refine ⟨⟨hs.slot, hs.old, hs.replaced, HookPtr.noConfusion, ?_, HookPtr.noConfusion, ?_⟩,
            fun h => ⟨h.1.old, HookPtr.noConfusion⟩⟩
          · intro h hh
            obtain rfl := HookPtr.live.inj hh
            exact ⟨hlive.backup, hlive.kept, hlive.unloader, fun _ => ⟨rfl, rfl⟩⟩
          · intro hunmapped
            exact absurd (hmapped.symm.trans hunmapped) Bool.noConfusion

theorem forkPre_cases (hs : Sound p) (c : Option ZygiskContext) :
    (p.setCtx c).forkPre = .ok (p.setCtx c) ∨ (p.setCtx c).forkPre = .error .nullCall ∧ p.old .fork = .null := by
  rw [Proc.forkPre]
  rcases hs.old .fork with hold | hold
  · refine .inr ⟨?_, hold⟩
    have hctx : (p.setCtx c).old .fork = .null := hold
    rw [Proc.callOld, hctx]
  · exact .inl (callOld_eq hold)

/-- A native method reaches the library while it is mapped; a fork needs the original one. -/
theorem good_preSpecialize (hs : Sound p) (server forks : Bool) (R : Prop) :
    Good (Full p ∧ R) (p.preSpecialize server forks) := by
  rw [Proc.preSpecialize]
  cases hjni : p.jni with
  | false => exact good_self hs R
  | true =>
      obtain ⟨hook, hhook⟩ := exists_live hs (.inl hjni)
      have hlive := hs.live hook hhook
      have hmapped := hs.mapped_of_live hhook
      have hsound : Sound (p.setCtx (some ⟨server, forks⟩)) := by
        refine ⟨hs.slot, hs.old, hs.replaced, hs.notNull, ?_, ?_, hs.unmapped⟩
        · intro h hh
          obtain rfl := HookPtr.live.inj (hhook.symm.trans hh)
          refine ⟨hlive.backup, hlive.kept, hlive.unloader, ?_⟩
          intro hleaving
          rw [(hlive.leaving hleaving).1] at hjni
          cases hjni
        · intro hdeleted
          exact absurd (hhook.symm.trans hdeleted) HookPtr.noConfusion
      have hok : Good (Full p ∧ R) (.ok (p.setCtx (some ⟨server, forks⟩))) :=
        ⟨hsound, fun h => ⟨h.1.old, h.1.deleted⟩⟩
      simp only [hmapped, Bool.not_true, Bool.false_eq_true, if_false, withHook_live hhook]
      split_ifs
      · rcases forkPre_cases hs (some ⟨server, forks⟩) with hfork | ⟨hfork, hnull⟩
        · rw [hfork]
          exact hok
        · rw [hfork]
          refine ⟨by decide, ?_⟩
          rintro ⟨hfull, -⟩
          rw [hfull.old .fork (by decide)] at hnull
          cases hnull
      · exact hok

/-- What is put back is the original. -/
theorem slot_unhook {fs : List Func} (hfs : ∀ f ∈ fs, p.old f = .original f) (c : Commit) (f : Func) :
    (p.unhook c fs).slot f = .original f ∨ (p.unhook c fs).slot f = p.slot f := by
  by_cases hf : f ∈ fs ∧ c.applied f = true
  · exact .inl ((if_pos hf).trans (hfs f hf.1))
  · exact .inr (if_neg hf)

theorem new_of_putBack {q : Proc} (hslots : ∀ f, q.slot f = .original f ∨ q.slot f = p.slot f) {f : Func}
    (hnew : q.slot f = .new f) : p.slot f = .new f := by
  rcases hslots f with heq | heq
  · exact absurd (heq.symm.trans hnew) Target.noConfusion
  · exact heq.symm.trans hnew

theorem slot_of_putBack {q : Proc} (hs : Sound p) (hslots : ∀ f, q.slot f = .original f ∨ q.slot f = p.slot f)
    (f : Func) : q.slot f = .original f ∨ q.slot f = .new f := by
  rcases hslots f with heq | heq
  · exact .inl heq
  · exact (hs.slot f).imp heq.trans heq.trans

/-- The last replacement goes away with the library, if all imports are put back. -/
theorem good_newPthreadAttrSetstacksize (hs : Sound p)
    (hslot : p.slot .pthreadAttrSetstacksize = .new .pthreadAttrSetstacksize) (mainThread : Bool) (o : Hooking) :
    Good (Full p ∧ o.succeeds) (p.newPthreadAttrSetstacksize mainThread o) := by
  have hold := hs.replaced _ hslot
  rw [Proc.newPthreadAttrSetstacksize, callOld_eq hold]
  cases hhook : p.gHook with
  | null => exact absurd hhook hs.notNull
  | deleted =>
      simp only [Proc.withHook, hhook]
      exact good_deleted hs hslot hhook _
  | live h =>
      have hlive := hs.live h hhook
      have hmapped := hs.mapped_of_live hhook
      simp only [withHook_live hhook]
      split_ifs with hleaves
      · obtain ⟨hleaves, -⟩ := Bool.and_eq_true_iff.mp hleaves
        -- every backup is that of the import
        have hbackup : ∀ f ∈ h.pltBackup, p.old f = .original f := by
          intro f hf
          by_cases hlast : f = .pthreadAttrSetstacksize
          · rw [hlast]
            exact hold
          · exact hlive.kept f hf hlast
        have hslots : ∀ f, (p.restorePltHook o h).1.slot f = .original f ∨ (p.restorePltHook o h).1.slot f = p.slot f :=
          slot_unhook (fun f hf => hbackup f (List.mem_filter.mp hf).1) o.commit
        refine ⟨⟨slot_of_putBack hs hslots, hs.old, ?_, HookPtr.noConfusion, ?_, fun _ => hlive.leaving hleaves, ?_⟩,
          ?_⟩
        · intro f hnew
          exact hs.replaced f (new_of_putBack hslots hnew)
        · intro h' hh'
          cases hh'
        · intro hunmapped
          refine ⟨rfl, fun f => ?_⟩
          have hall : (h.pltBackup.all o.accepts = true) ∧ o.commit.result = true := by
            simpa [Proc.restorePltHook, Proc.unhook, hmapped, hleaves] using hunmapped
          rcases hslots f with heq | heq
          · exact heq
          · rcases hs.slot f with hf | hf
            · exact heq.trans hf
            · -- a replaced import is among the backups, which were all applied
              have hmem := hlive.backup f hf
              have haccepted : f ∈ h.pltBackup.filter o.accepts :=
                List.mem_filter.mpr ⟨hmem, List.all_eq_true.mp hall.1 f hmem⟩
              exact (if_pos ⟨haccepted, o.commit.truthful hall.2 f⟩).trans (hbackup f hmem)
        · rintro ⟨hfull, haccepts, hresult⟩
          refine ⟨hfull.old, fun _ => ?_⟩
          have hall : h.pltBackup.all o.accepts = true := List.all_eq_true.mpr fun f _ => haccepts f
          simp [Proc.restorePltHook, hleaves, hall, hresult]
      · exact good_self hs _

/-- The state after `hook_unloader`, when the context says that it was tried. -/
def withUnloader (p : Proc) (o : Hooking) (h : HookContext) : Proc :=
  (p.hookUnloader o h).1.setHook { (p.hookUnloader o h).2 with skipHookingUnloader := true }

theorem old_withUnloader (o : Hooking) (h : HookContext) {f : Func} (hf : f ≠ .pthreadAttrSetstacksize) :
    (withUnloader p o h).old f = p.old f := by
  apply if_neg
  rintro ⟨hmem, -⟩
  exact hf (List.mem_singleton.mp (List.mem_filter.mp hmem).1)

theorem sound_withUnloader (hs : Sound p) {h : HookContext} (hhook : p.gHook = .live h)
    (hskip : h.skipHookingUnloader = false) (o : Hooking) : Sound (withUnloader p o h) := by
  have hlive := hs.live h hhook
  have hmapped := hs.mapped_of_live hhook
  have hunloader := hlive.unloader hskip
  -- an import that is replaced now was the original before
  have hslot : ∀ f, (withUnloader p o h).slot f = p.slot f ∧ (withUnloader p o h).old f = p.old f ∨
      (withUnloader p o h).slot f = .new f ∧ (withUnloader p o h).old f = .original f ∧
        f = .pthreadAttrSetstacksize ∧ o.accepts f = true := by
    intro f
    by_cases hf : f ∈ [Func.pthreadAttrSetstacksize].filter o.accepts ∧ o.commit.applied f = true
    · obtain ⟨hmem, haccepts⟩ := List.mem_filter.mp hf.1
      obtain rfl := List.mem_singleton.mp hmem
      exact .inr ⟨if_pos hf, (if_pos hf).trans hunloader, rfl, haccepts⟩
    · exact .inl ⟨if_neg hf, if_neg hf⟩
  refine ⟨?_, ?_, ?_, HookPtr.noConfusion, ?_, HookPtr.noConfusion, ?_⟩
  · intro f
    rcases hslot f with ⟨heq, -⟩ | ⟨hnew, -⟩
    · exact (hs.slot f).imp heq.trans heq.trans
    · exact .inr hnew
  · intro f
    rcases hslot f with ⟨-, heq⟩ | ⟨-, hold, -⟩
    · exact (hs.old f).imp heq.trans heq.trans
    · exact .inr hold
  · intro f hnew
    rcases hslot f with ⟨heq, hold⟩ | ⟨-, hold, -⟩
    · exact hold.trans (hs.replaced f (heq.symm.trans hnew))
    · exact hold
  · intro h' hh'
    obtain rfl := HookPtr.live.inj hh'
    refine ⟨?_, ?_, fun hskip => (by cases hskip), hlive.leaving⟩
    · intro f hnew
      rcases hslot f with ⟨heq, -⟩ | ⟨-, -, rfl, haccepts⟩
      · exact List.mem_append_left _ (hlive.backup f (heq.symm.trans hnew))
      · exact List.mem_append_right _ (List.mem_filter.mpr ⟨List.mem_singleton_self _, haccepts⟩)
    · intro f hf hne
      rcases List.mem_append.mp hf with hf | hf
      · exact (old_withUnloader o h hne).trans (hlive.kept f hf hne)
      · exact absurd (List.mem_singleton.mp (List.mem_filter.mp hf).1) hne
  · intro hunmapped
    exact absurd (hmapped.symm.trans hunmapped) Bool.noConfusion

theorem old_unhookPropertyGet (o : Hooking) (h : HookContext) : (p.unhookPropertyGet o h).1.old = p.old := by
  rw [Proc.unhookPropertyGet]
  split
  · rfl
  · split_ifs <;> rfl

theorem setHook_unhookPropertyGet (a : HookContext) (o : Hooking) (h : HookContext) :
    ((p.setHook a).unhookPropertyGet o h).1.setHook ((p.setHook a).unhookPropertyGet o h).2 =
      (p.unhookPropertyGet o h).1.setHook (p.unhookPropertyGet o h).2 := by
  simp only [Proc.unhookPropertyGet, Proc.setHook, Proc.unhook]
  split
  · rfl
  · split_ifs <;> rfl

/-- No two imports have one original. -/
theorem eq_of_old_eq (hs : Sound p) {f g : Func} (hg : p.old g = .original g) (hsame : p.old f = p.old g) : f = g := by
  rw [hg] at hsame
  rcases hs.old f with hnull | horiginal
  · exact absurd (hnull.symm.trans hsame) Target.noConfusion
  · exact Target.original.inj (horiginal.symm.trans hsame)

theorem slot_unhook_propertyGet (hold : p.old .propertyGet = .original .propertyGet) (c : Commit) (f : Func) :
    (p.unhook c [.propertyGet]).slot f = .original f ∨ (p.unhook c [.propertyGet]).slot f = p.slot f := by
  have hsingle : ∀ f ∈ [Func.propertyGet], p.old f = .original f :=
    fun f hf => by rwa [List.mem_singleton.mp hf]
  exact slot_unhook hsingle c f

/-- `property_get` is put back, and the backups that are left are those of the imports that stay replaced. -/
theorem sound_putBack (hs : Sound p) (hold : p.old .propertyGet = .original .propertyGet) {h : HookContext}
    (hhook : p.gHook = .live h) (c : Commit) {backup : List Func}
    (hcovers : ∀ f, (p.unhook c [.propertyGet]).slot f = .new f → f ∈ backup) (hsub : ∀ f ∈ backup, f ∈ h.pltBackup) :
    Sound ((p.unhook c [.propertyGet]).setHook { h with pltBackup := backup }) := by
  have hlive := hs.live h hhook
  have hslots := slot_unhook_propertyGet hold c
  refine ⟨slot_of_putBack hs hslots, hs.old, ?_, HookPtr.noConfusion, ?_, HookPtr.noConfusion, ?_⟩
  · intro f hnew
    exact hs.replaced f (new_of_putBack hslots hnew)
  · intro h' hh'
    obtain rfl := HookPtr.live.inj hh'
    refine ⟨hcovers, fun f hf => hlive.kept f (hsub f hf), ?_, hlive.leaving⟩
    intro hskip
    rcases hslots .pthreadAttrSetstacksize with heq | heq
    · exact heq
    · exact heq.trans (hlive.unloader hskip)
  · intro hunmapped
    exact absurd ((hs.mapped_of_live hhook).symm.trans hunmapped) Bool.noConfusion

/-- The import that is put back is `property_get`. -/
theorem sound_unhookPropertyGet (hs : Sound p) (hold : p.old .propertyGet = .original .propertyGet) {h : HookContext}
    (hhook : p.gHook = .live h) (o : Hooking) :
    Sound ((p.unhookPropertyGet o h).1.setHook (p.unhookPropertyGet o h).2) := by
  have hlive := hs.live h hhook
  have hself : Sound (p.setHook h) := by
    have heq : p.setHook h = p := by rw [Proc.setHook, ← hhook]
    rwa [heq]
  rw [Proc.unhookPropertyGet]
  split
  · exact hself
  · rename_i f hfind
    have hsame : p.old f = p.old .propertyGet := by simpa using List.find?_some hfind
    obtain rfl := eq_of_old_eq hs hold hsame
    have hbackup : ∀ f, (p.unhook o.commit [.propertyGet]).slot f = .new f → f ∈ h.pltBackup :=
      fun f hf => hlive.backup f (new_of_putBack (slot_unhook_propertyGet hold o.commit) hf)
    by_cases haccepts : o.accepts .propertyGet = true
    · rw [if_pos haccepts]
      by_cases hresult : o.commit.result = true
      · rw [if_pos hresult]
        apply sound_putBack hs hold hhook
        · intro f hf
          have hne : f ≠ .propertyGet := by
            rintro rfl
            have heq : (p.unhook o.commit [.propertyGet]).slot .propertyGet = p.old .propertyGet :=
              if_pos ⟨List.mem_singleton_self _, o.commit.truthful hresult _⟩
            exact absurd ((heq.trans hold).symm.trans hf) Target.noConfusion
          rw [List.mem_reverse, List.mem_erase_of_ne hne, List.mem_reverse]
          exact hbackup f hf
        · intro f hf
          exact List.mem_reverse.mp (List.mem_of_mem_erase (List.mem_reverse.mp hf))
      · -- the commit failed: the backup stays, whether the import was put back or not
        rw [if_neg hresult]
        exact sound_putBack hs hold hhook o.commit hbackup fun f hf => hf
    · rw [if_neg haccepts]
      exact hself

theorem good_unhookPropertyGet (hs : Sound p) {h : HookContext} (hhook : p.gHook = .live h) (own : Hooking)
    (R : Prop) :
    Good (Full p ∧ R) (((p.unhookPropertyGet own h).1.setHook (p.unhookPropertyGet own h).2).callOld .propertyGet) := by
  have hsame : ((p.unhookPropertyGet own h).1.setHook (p.unhookPropertyGet own h).2).old = p.old :=
    old_unhookPropertyGet own h
  rcases hs.old .propertyGet with hold | hold
  · rw [Proc.callOld, hsame, hold]
    refine ⟨by decide, ?_⟩
    rintro ⟨hfull, -⟩
    rw [hfull.old .propertyGet (by decide)] at hold
    cases hold
  · rw [callOld_eq ((congrFun hsame _).trans hold)]
    refine ⟨sound_unhookPropertyGet hs hold hhook own, fun hfull => ⟨?_, HookPtr.noConfusion⟩⟩
    intro f hf
    exact (congrFun hsame f).trans (hfull.1.old f hf)

theorem good_newPropertyGet (hs : Sound p) {h : HookContext} (hhook : p.gHook = .live h) (unloader own : Hooking)
    (R : Prop) : Good (Full p ∧ R) (p.newPropertyGet unloader own) := by
  rw [Proc.newPropertyGet, withHook_live hhook]
  split_ifs with hskip
  · rcases hs.old .propertyGet with hold | hold
    · rw [Proc.callOld, hold]
      refine ⟨by decide, ?_⟩
      rintro ⟨hfull, -⟩
      rw [hfull.old .propertyGet (by decide)] at hold
      cases hold
    · rw [callOld_eq hold]
      exact good_self hs R
  · have hunloader := sound_withUnloader hs hhook (Bool.eq_false_iff.mpr hskip) unloader
    have hgood := good_unhookPropertyGet hunloader rfl own R
    rw [withUnloader, setHook_unhookPropertyGet] at hgood
    apply hgood.imp
    rintro ⟨hfull, hR⟩
    refine ⟨⟨?_, HookPtr.noConfusion⟩, hR⟩
    intro f hf
    have hne : f ≠ .pthreadAttrSetstacksize := by
      rintro rfl
      revert hf
      decide
    exact (old_withUnloader unloader h hne).trans (hfull.old f hf)

/-- A call leaves the process as it is, or runs the replacement. -/
theorem good_call (hs : Sound p) {f : Func} {new : Proc → Except Fault Proc} {R : Prop}
    (hnew : p.slot f = .new f → p.old f = .original f → Good (Full p ∧ R) (new p)) :
    Good (Full p ∧ R) (p.call f new) := by
  rcases hs.call_cases f new with hcall | ⟨hslot, hold, hcall⟩
  · rw [hcall]
    exact good_self hs R
  · rw [hcall]
    exact hnew hslot hold

theorem step_good (hs : Sound p) (a : Act) (hfresh : a.starts = true → Fresh p) (hback : a.PutsBack) :
    Good (Full p ∧ a.Restores) (step p a) := by
  cases a with
  | fork => exact good_call hs fun _ hold => good_newFork hs hold _
  | unshare newNs =>
      rw [step]
      exact good_call hs fun _ hold => good_newUnshare hs hold newNs _
  | strdup zygoteInit hooked =>
      rw [step]
      exact good_call hs fun _ hold => good_newStrdup hs hold hfresh hooked _
  | propertyGet unloader own =>
      rw [step]
      refine good_call hs fun hslot _ => ?_
      cases hhook : p.gHook with
      | null => exact absurd hhook hs.notNull
      | live h => exact good_newPropertyGet hs hhook unloader own _
      | deleted =>
          simp only [Proc.newPropertyGet, Proc.withHook, hhook]
          exact good_deleted hs hslot hhook _
  | pthreadAttrSetstacksize mainThread o =>
      rw [step]
      exact good_call hs fun hslot _ => good_newPthreadAttrSetstacksize hs hslot mainThread o
  | preSpecialize server forks => exact good_preSpecialize hs server forks _
  | postSpecialize child restored => exact good_postSpecialize hs hback _

theorem callOld_ok {f : Func} {p' : Proc} (h : p.callOld f = .ok p') : p' = p := by
  rw [Proc.callOld] at h
  split at h
  · exact (Except.ok.inj h).symm
  · cases h
  · cases h

theorem call_ok {f : Func} {new : Proc → Except Fault Proc} {p' : Proc} (h : p.call f new = .ok p') :
    p' = p ∨ new p = .ok p' := by
  rw [Proc.call] at h
  split at h
  · exact .inl (Except.ok.inj h).symm
  · cases h
  · split_ifs at h
    exact .inr h

theorem fresh_unhookPropertyGet (hjni : p.jni = false) (hctx : p.gCtx = none) (o : Hooking) {h : HookContext}
    (hstays : h.shouldUnmap = false) : Fresh ((p.unhookPropertyGet o h).1.setHook (p.unhookPropertyGet o h).2) := by
  unfold Proc.unhookPropertyGet
  split
  · exact ⟨hjni, hctx, h, rfl, hstays⟩
  · split_ifs
    · exact ⟨hjni, hctx, _, rfl, hstays⟩
    · exact ⟨hjni, hctx, h, rfl, hstays⟩
    · exact ⟨hjni, hctx, h, rfl, hstays⟩

/-- `property_get` leaves everything but the hooks as it is. -/
theorem fresh_newPropertyGet (hf : Fresh p) {unloader own : Hooking} {p' : Proc}
    (h : p.newPropertyGet unloader own = .ok p') : Fresh p' := by
  obtain ⟨hjni, hctx, hook, hhook, hstays⟩ := hf
  rw [Proc.newPropertyGet, withHook_live hhook] at h
  by_cases hskip : hook.skipHookingUnloader = true
  · rw [if_pos hskip] at h
    rw [callOld_ok h]
    exact ⟨hjni, hctx, hook, hhook, hstays⟩
  · rw [if_neg hskip] at h
    rw [callOld_ok h]
    exact fresh_unhookPropertyGet (p := (p.hookUnloader unloader hook).1) hjni hctx own hstays

/-- Until the runtime is started there is no context, and nothing is put back. -/
theorem fresh_step (hf : Fresh p) {a : Act} (ha : a.starts = false) {p' : Proc} (h : step p a = .ok p') :
    Fresh p' := by
  obtain ⟨hook, hhook, hstays⟩ := hf.live
  have hcall : ∀ {f : Func} {new : Proc → Except Fault Proc}, (new p = .ok p' → Fresh p') →
      p.call f new = .ok p' → Fresh p' := by
    intro f new hnew hcall
    rcases call_ok hcall with rfl | hcall
    · exact hf
    · exact hnew hcall
  cases a with
  | fork =>
      rw [step] at h
      refine hcall (fun hnew => ?_) h
      rw [Proc.newFork, hf.gCtx] at hnew
      rw [callOld_ok hnew]
      exact hf
  | unshare newNs =>
      rw [step] at h
      refine hcall (fun hnew => ?_) h
      rw [Proc.newUnshare, hf.gCtx] at hnew
      rw [callOld_ok hnew]
      exact hf
  | strdup zygoteInit hooked =>
      -- the name that starts the runtime is left out
      have hinit : zygoteInit = false := ha
      rw [step] at h
      refine hcall (fun hnew => ?_) h
      rw [Proc.newStrdup, hinit, if_neg Bool.false_ne_true] at hnew
      rw [callOld_ok hnew]
      exact hf
  | propertyGet unloader own =>
      rw [step] at h
      exact hcall (fun hnew => fresh_newPropertyGet hf hnew) h
  | pthreadAttrSetstacksize mainThread o =>
      rw [step] at h
      refine hcall (fun hnew => ?_) h
      rw [Proc.newPthreadAttrSetstacksize] at hnew
      split at hnew
      · cases hnew
      · rename_i q hq
        obtain rfl := callOld_ok hq
        -- the library stays, so that the call does no more than the original
        rw [withHook_live hhook, hstays, Bool.false_and, if_neg Bool.false_ne_true] at hnew
        rw [← Except.ok.inj hnew]
        exact hf
  | preSpecialize server forks =>
      rw [step, Proc.preSpecialize, hf.jni] at h
      rw [← Except.ok.inj h]
      exact hf
  | postSpecialize child restored =>
      rw [step, Proc.postSpecialize, hf.gCtx] at h
      rw [← Except.ok.inj h]
      exact hf

end Steps

/-! ## Whole lives -/

/-- The runtime is started at most once from here on, and only if it was not started before. -/
def Started (p : Proc) (acts : List Act) : Prop :=
  acts.countP Act.starts = 0 ∨ acts.countP Act.starts ≤ 1 ∧ Fresh p

theorem Started.fresh {p : Proc} {a : Act} {acts : List Act} (h : Started p (a :: acts)) (ha : a.starts = true) :
    Fresh p := by
  rw [Started, List.countP_cons_of_pos ha] at h
  rcases h with h | ⟨-, hfresh⟩
  · exact absurd h (Nat.succ_ne_zero _)
  · exact hfresh

theorem Started.step {p p' : Proc} {a : Act} {acts : List Act} (h : Started p (a :: acts)) (hstep : step p a = .ok p') :
    Started p' acts := by
  cases ha : a.starts with
  | true =>
      rw [Started, List.countP_cons_of_pos ha] at h
      exact .inl (by omega)
  | false =>
      rw [Started, List.countP_cons_of_neg (by rw [ha]; exact Bool.false_ne_true)] at h
      rcases h with h | ⟨hle, hfresh⟩
      · exact .inl h
      · exact .inr ⟨hle, fresh_step hfresh ha hstep⟩

/-- Nothing leads into a library that is gone. -/
def Detached (p : Proc) : Prop := p.mapped = false → (∀ f, p.slot f = .original f) ∧ p.jni = false

theorem Sound.detached {p : Proc} (hs : Sound p) : Detached p := by
  intro hmapped
  obtain ⟨hdeleted, hslot⟩ := hs.unmapped hmapped
  exact ⟨hslot, (hs.deleted hdeleted).1⟩

/-- The result of a life. -/
structure Safe (full : Prop) (r : Except Fault Proc) : Prop where
  mapped : r ≠ .error .unmapped
  detached : ∀ p, r = .ok p → Detached p
  ok : full → ∃ p, r = .ok p

theorem safe_run {p : Proc} {acts : List Act} (hs : Sound p) (hstart : Started p acts)
    (hback : ∀ a ∈ acts, a.PutsBack) :
    Safe (Full p ∧ ∀ a ∈ acts, a.Restores) (run p acts) := by
  induction acts generalizing p with
  | nil =>
      refine ⟨fun h => (by cases h), ?_, fun _ => ⟨p, rfl⟩⟩
      intro q hq
      obtain rfl := Except.ok.inj hq
      exact hs.detached
  | cons a acts ih =>
      have hgood := step_good hs a hstart.fresh (hback a List.mem_cons_self)
      rw [run]
      cases hstep : step p a with
      | error e =>
          rw [hstep] at hgood
          refine ⟨fun h => hgood.1 (Except.error.inj h), fun q hq => (by cases hq), ?_⟩
          rintro ⟨hfull, hrestores⟩
          exact absurd ⟨hfull, hrestores a List.mem_cons_self⟩ hgood.2
      | ok q =>
          rw [hstep] at hgood
          have hrest := ih hgood.1 (hstart.step hstep) fun b hb => hback b (List.mem_cons_of_mem a hb)
          refine ⟨hrest.mapped, hrest.detached, ?_⟩
          rintro ⟨hfull, hrestores⟩
          exact hrest.ok ⟨hgood.2 ⟨hfull, hrestores a List.mem_cons_self⟩,
            fun b hb => hrestores b (List.mem_cons_of_mem a hb)⟩

/-! ## The injection -/

/-- An import that is replaced has the original as its backup; without a backup it is the original. -/
theorem slot_hookPlt (o : Hooking) (f : Func) :
    let p := loaded.hookPlt o ⟨false, false, []⟩
    p.slot f = .original f ∧ p.old f = .null ∨ p.slot f = .new f ∧ p.old f = .original f ∧ f ∈ Proc.runtimeFuncs ∧
      o.accepts f = true := by
  by_cases hf : f ∈ Proc.runtimeFuncs.filter o.accepts ∧ o.commit.applied f = true
  · obtain ⟨hmem, haccepts⟩ := List.mem_filter.mp hf.1
    exact .inr ⟨if_pos hf, if_pos hf, hmem, haccepts⟩
  · exact .inl ⟨if_neg hf, if_neg hf⟩

theorem sound_hookPlt (o : Hooking) : Sound (loaded.hookPlt o ⟨false, false, []⟩) := by
  have hslot := slot_hookPlt o
  refine ⟨?_, ?_, ?_, HookPtr.noConfusion, ?_, HookPtr.noConfusion, fun h => (by cases h)⟩
  · intro f
    exact (hslot f).imp And.left And.left
  · intro f
    exact (hslot f).imp And.right fun h => h.2.1
  · intro f hnew
    rcases hslot f with ⟨horiginal, -⟩ | ⟨-, hold, -⟩
    · exact absurd (horiginal.symm.trans hnew) Target.noConfusion
    · exact hold
  · intro h hh
    obtain rfl := HookPtr.live.inj hh
    refine ⟨?_, ?_, ?_, fun h => (by cases h)⟩
    · intro f hnew
      rcases hslot f with ⟨horiginal, -⟩ | ⟨-, hold, hmem, haccepts⟩
      · exact absurd (horiginal.symm.trans hnew) Target.noConfusion
      · refine List.mem_filter.mpr ⟨List.mem_filter.mpr ⟨hmem, haccepts⟩, ?_⟩
        rw [bne_iff_ne]
        exact fun hnull => Target.noConfusion (hold.symm.trans hnull)
    · intro f hf _
      rcases hslot f with ⟨-, hnull⟩ | ⟨-, hold, -⟩
      · exact absurd hnull (bne_iff_ne.mp (List.mem_filter.mp hf).2)
      · exact hold
    · intro _
      rcases hslot .pthreadAttrSetstacksize with ⟨horiginal, -⟩ | ⟨-, -, hmem, -⟩
      · exact horiginal
      · exact absurd hmem (by decide)

theorem fresh_hookPlt (o : Hooking) : Fresh (loaded.hookPlt o ⟨false, false, []⟩) := ⟨rfl, rfl, _, rfl, rfl⟩

theorem full_hookPlt {o : Hooking} (ho : o.succeeds) : Full (loaded.hookPlt o ⟨false, false, []⟩) := by
  refine ⟨fun f hf => ?_, HookPtr.noConfusion⟩
  exact if_pos ⟨List.mem_filter.mpr ⟨hf, ho.1 f⟩, o.commit.truthful ho.2 f⟩

/-- The first replacements that `trigger_zygote_hooks` runs need their originals. -/
theorem good_trigger {p : Proc} (hs : Sound p) (hfresh : Fresh p) (hooked : Bool) (unloader own : Hooking) :
    Good (Full p ∧ True)
      (match p.newStrdup true hooked with
      | .ok p => p.newPropertyGet unloader own
      | .error e => .error e) := by
  obtain ⟨h, hhook, -⟩ := hfresh.live
  rcases hs.old .strdup with hnull | hold
  · have hcall : p.newStrdup true hooked = .error .nullCall := by
      have hjni : (p.setJni (p.jni != hooked)).old .strdup = .null := hnull
      rw [Proc.newStrdup, if_pos rfl, withHook_live hhook, Proc.callOld, hjni]
    rw [hcall]
    refine ⟨by decide, ?_⟩
    rintro ⟨hfull, -⟩
    rw [hfull.old .strdup (by decide)] at hnull
    cases hnull
  · have hcall : p.newStrdup true hooked = .ok (p.setJni (p.jni != hooked)) := by
      rw [Proc.newStrdup, if_pos rfl, withHook_live hhook]
      exact callOld_eq hold
    have hgood : Good (Full p ∧ True) (p.newStrdup true hooked) := good_newStrdup hs hold (fun _ => hfresh) hooked True
    rw [hcall] at hgood ⊢
    exact (good_newPropertyGet hgood.1 hhook unloader own True).imp fun hfull => ⟨hgood.2 hfull, trivial⟩

theorem good_hookEntry (o : Hooking) (mode : Mode) : Good o.succeeds (hookEntry o mode) := by
  cases mode with
  | zygote => exact ⟨sound_hookPlt o, full_hookPlt⟩
  | standalone hooked unloader own =>
      exact (good_trigger (sound_hookPlt o) (fresh_hookPlt o) hooked unloader own).imp fun ho =>
        ⟨full_hookPlt ho, trivial⟩

theorem started_hookEntry {o : Hooking} {mode : Mode} {acts : List Act} (h : StartsOnce mode acts) {p : Proc}
    (hp : hookEntry o mode = .ok p) : Started p acts := by
  cases mode with
  | zygote =>
      rw [StartsOnce, Mode.starts, Nat.zero_add] at h
      rw [← Except.ok.inj hp]
      exact .inr ⟨h, fresh_hookPlt o⟩
  | standalone hooked unloader own =>
      rw [StartsOnce, Mode.starts] at h
      exact .inl (by omega)

/-- Where children find the methods again that they put back, no call leads into the unmapped library, whatever lsplt
does; and where the first hooks are applied and the restores succeed, the process does not fail. -/
theorem life_safe (o : Hooking) (mode : Mode) (acts : List Act) (h : StartsOnce mode acts)
    (hback : ∀ a ∈ acts, a.PutsBack) :
    Safe (o.succeeds ∧ ∀ a ∈ acts, a.Restores) (life o mode acts) := by
  have hgood := good_hookEntry o mode
  rw [life]
  cases hentry : hookEntry o mode with
  | error e =>
      rw [hentry] at hgood
      exact ⟨fun h => hgood.1 (Except.error.inj h), fun q hq => (by cases hq), fun h => absurd h.1 hgood.2⟩
  | ok p =>
      rw [hentry] at hgood
      have hrun := safe_run hgood.1 (started_hookEntry h hentry) hback
      exact ⟨hrun.mapped, hrun.detached, fun h => hrun.ok ⟨hgood.2 h.1, h.2⟩⟩

/-- lsplt applies everything. -/
def applies : Hooking := ⟨fun _ => true, ⟨fun _ => true, true, fun _ _ => rfl⟩⟩

/-- An app: the runtime starts, the process is forked and specialized, and a daemon thread of the runtime is set up. -/
def appLife : List Act :=
  [.strdup true true, .propertyGet applies applies, .preSpecialize false true, .fork, .unshare true,
    .postSpecialize true true, .strdup false false, .pthreadAttrSetstacksize true applies, .fork,
    .pthreadAttrSetstacksize true applies]

example : (match life applies .zygote appLife with | .ok p => p.mapped | .error _ => true) = false := by decide

/-- Everything is put back in such a life. -/
theorem appLife_putsBack : ∀ a ∈ appLife, a.PutsBack ∧ a.Restores := by
  intro a ha
  simp only [appLife, List.mem_cons, List.not_mem_nil, or_false] at ha
  rcases ha with rfl | rfl | rfl | rfl | rfl | rfl | rfl | rfl | rfl | rfl
  case inr.inr.inr.inr.inr.inl => exact ⟨fun _ => rfl, trivial⟩
  all_goals exact ⟨trivial, by first | trivial | exact ⟨fun _ => rfl, rfl⟩⟩

theorem life_safe_app :
    Safe (applies.succeeds ∧ ∀ a ∈ appLife, a.Restores) (life applies .zygote appLife) ∧
      applies.succeeds ∧ ∀ a ∈ appLife, a.Restores := by
  refine ⟨life_safe applies .zygote appLife (by decide) fun a ha => (appLife_putsBack a ha).1, ⟨fun _ => rfl, rfl⟩, ?_⟩
  exact fun a ha => (appLife_putsBack a ha).2

end NeoZygisk.Injector.PltHooks
