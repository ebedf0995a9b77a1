import NeoZygisk.Injector.Lifecycle
import NeoZygisk.Lib.Heap
import NeoZygisk.Lib.Transition

/-!
# Zygote, apps, system_server and daemon over shared mount namespaces

Mount namespaces are shared mutable objects: a fork keeps the parent's, `unshare` copies it, `setns`
joins one, `umount2` changes it for everyone in it. The steps of the system are those of the code: the
zygote forks an app (unmounting its traces directly the first time), pre-forks a process, or forks
`system_server`, which asks the daemon to cache its namespace; the daemon answers such a request when
it gets round to it; `system_server` may unshare; an app runs the `unshare` hook, with the copy of
`g_hook` it was forked with.

The zygote's part is `Injector.directUnmount` on the mount table of its namespace. The invariant
`Wf` (names are allocated, a hooked process is in a namespace of its own, a process that still waits
for its hook is in the zygote's) holds in every run.
-/

set_option autoImplicit false

namespace NeoZygisk.Namespace

open NeoZygisk.Common
open NeoZygisk.Unmount
open NeoZygisk.Injector
open NeoZygisk.Lib
open NeoZygisk.Lib.Mask
open NeoZygisk.Lib.Transition

abbrev NsId := Nat
abbrev Pid := Nat

/-! ## The world -/

/-- What stays the same over a run: the root implementation and its answers. -/
structure Config where
  rootImpl : RootImpl
  queries : RootQueries

/-- A process forked from the zygote. `hooked` is the verdict of the `unshare` hook once it ran. -/
structure Task where
  ns : NsId
  hook : HookContext
  server : Bool
  hooked : Option Bool

structure World where
  mounts : Heap (List MountInfo)
  zygoteNs : NsId
  hook : HookContext
  tasks : Pid → Option Task
  nextPid : Pid
  /-- `CacheMountNamespace` requests on their way to the daemon. -/
  requests : List Pid
  clean : Option NsId
  root : Option NsId

/-! ## The `unshare` hook -/

/-- `should_unmount` of `new_unshare`. -/
def hookShouldUnmount (flags infoFlags : Flags) : Bool :=
  !has infoFlags (PROCESS_IS_MANAGER ||| PROCESS_GRANTED_ROOT) && has flags DO_REVERT_UNMOUNT

/-- `is_zygote_clean` of `new_unshare`. -/
def isZygoteClean (hook : HookContext) : Bool := hook.zygoteUnmounted && hook.zygoteTraces.isEmpty

/-- `update_mount_namespace`: nothing happens when the namespace is not cached or `setns` fails. -/
def updateMountNamespace (cached : Option NsId) (setns : Bool) (ns : NsId) : NsId :=
  match cached with
  | some k => if setns then k else ns
  | none => ns

/-- The namespace an app is in when `new_unshare` calls the real `unshare`. -/
def namespaceToCopy (w : World) (task : Task) (flags infoFlags : Flags) (setns : Bool) : NsId :=
  let shouldUnmount := hookShouldUnmount flags infoFlags
  let ns :=
    if !shouldUnmount && task.hook.zygoteUnmounted then updateMountNamespace w.root setns task.ns
    else task.ns
  if shouldUnmount && !isZygoteClean task.hook then updateMountNamespace w.clean setns ns else ns

/-! ## Steps -/

/-- What the zygote's `nativeForkAndSpecialize_pre` meets: the daemon's answer, the mount table of its
namespace, the outcome of each `umount2`. The rest of the environment does not matter here. -/
def zygoteEnv (cfg : Config) (mountInfos : List MountInfo) (reachable : Bool)
    (umount2 : MountInfo → Bool) : Env :=
  { plainEnv [] with
    reachable := fun _ => reachable
    processFlags := handleGetProcessFlags cfg.rootImpl cfg.queries
    mountInfos := mountInfos
    umount2 := umount2 }

/-- The mounts that the direct unmount takes out of the namespace. -/
def unmountedTraces (env : Env) (a : AppSpecializeArgs) (h : HookContext) : List MountInfo :=
  let infoFlags := getProcessFlags env .forkFlags a.uid
  let traces := checkZygoteTraces infoFlags env.mountInfos
  if !h.zygoteUnmounted && h.zygoteTraces.isEmpty && !abortZygoteUnmount traces infoFlags then
    traces.filter env.umount2
  else []

/-- The mounts that the daemon's cleaning takes out of a copy of a namespace. -/
def cleaned (cfg : Config) (umount2 : MountInfo → Bool) (mountInfos : List MountInfo) :
    List MountInfo :=
  let targets := unmountTargets cfg.rootImpl (mountInfos.map procfsView)
  mountInfos.filter fun m => !(decide (procfsView m ∈ targets) && umount2 m)

inductive Act where
  /-- The hooked `nativeForkAndSpecialize`, with the daemon reachable or not. -/
  | forkAndSpecialize (a : AppSpecializeArgs) (reachable : Bool) (umount2 : MountInfo → Bool)
  /-- A process forked now and specialized later. -/
  | preFork
  /-- The hooked `nativeForkSystemServer`; the child's request is sent, not acknowledged. -/
  | forkSystemServer
  /-- `system_server` unshares inside the original method. -/
  | serverUnshare (pid : Pid)
  /-- The daemon handles a request; setting up either namespace may fail. -/
  | handleCache (pid : Pid) (cleanOk rootOk : Bool) (umount2 : MountInfo → Bool)
  /-- `unshare(CLONE_NEWNS)` in an app. -/
  | unshareHook (pid : Pid) (flags infoFlags : Flags) (setns : Bool)

/-- A fork of the zygote: the child shares its namespace and gets a copy of `g_hook`. -/
def forkTask (w : World) (server : Bool) : World :=
  { w with
    tasks := Function.update w.tasks w.nextPid (some ⟨w.zygoteNs, w.hook, server, none⟩)
    nextPid := w.nextPid + 1 }

/-- `unshare(CLONE_NEWNS)` of a process that has joined `ns`. -/
def unshare (w : World) (pid : Pid) (task : Task) (ns : NsId) (hooked : Option Bool) : World :=
  { w with
    mounts := w.mounts.alloc (w.mounts.get ns)
    tasks := Function.update w.tasks pid (some { task with ns := w.mounts.next, hooked := hooked }) }

/-- `save_mount_namespace(pid, Clean)`: a private copy, cleaned. -/
def saveClean (cfg : Config) (umount2 : MountInfo → Bool) (w : World) (ns : NsId) : World :=
  match w.clean with
  | some _ => w
  | none =>
      { w with
        mounts := w.mounts.alloc (cleaned cfg umount2 (w.mounts.get ns))
        clean := some w.mounts.next }

/-- `save_mount_namespace(pid, Root)`: a reference to the namespace the process is in. -/
def saveRoot (w : World) (ns : NsId) : World :=
  match w.root with
  | some _ => w
  | none => { w with root := some ns }

/-- The environment of the zygote of a world. -/
def World.env (cfg : Config) (w : World) (reachable : Bool) (umount2 : MountInfo → Bool) : Env :=
  zygoteEnv cfg (w.mounts.get w.zygoteNs) reachable umount2

/-- `nativeForkAndSpecialize_pre` before its fork. -/
def afterUnmount (w : World) (env : Env) (a : AppSpecializeArgs) : World :=
  { w with
    hook := (directUnmount env a w.hook (startContext env a)).1
    mounts := w.mounts.modify w.zygoteNs
      (·.filter fun m => decide (m ∉ unmountedTraces env a w.hook)) }

def step (cfg : Config) (w : World) : Act → Option World
  | .forkAndSpecialize a reachable umount2 =>
      some (forkTask (afterUnmount w (w.env cfg reachable umount2) a) false)
  | .preFork => some (forkTask w false)
  | .forkSystemServer =>
      some { forkTask w true with requests := w.requests ++ [w.nextPid] }
  | .serverUnshare pid =>
      match w.tasks pid with
      | some task => if task.server then some (unshare w pid task task.ns task.hooked) else none
      | none => none
  | .handleCache pid cleanOk rootOk umount2 =>
      if pid ∈ w.requests then
        match w.tasks pid with
        | some task =>
            let w := { w with requests := w.requests.erase pid }
            if cleanOk || w.clean.isSome then
              let w := saveClean cfg umount2 w task.ns
              some (if rootOk then saveRoot w task.ns else w)
            else some w
        | none => none
      else none
  | .unshareHook pid flags infoFlags setns =>
      let verdict := hookShouldUnmount flags infoFlags
      match w.tasks pid with
      | some task =>
          -- The flags of one specialization do not change between two calls of the hook.
          if !task.server && (task.hooked.isNone || task.hooked == some verdict) then
            some (unshare w pid task (namespaceToCopy w task flags infoFlags setns) (some verdict))
          else none
      | none => none

/-- A zygote that has just started in a namespace with the given mounts. -/
def World.initial (mountInfos : List MountInfo) : World where
  mounts := ⟨fun _ => mountInfos, 1⟩
  zygoteNs := 0
  hook := ⟨[], false, false, false, []⟩
  tasks := fun _ => none
  nextPid := 0
  requests := []
  clean := none
  root := none

/-! ## What a step can do -/

/-- The request of `pid` has been taken off the queue. -/
def World.taken (w : World) (pid : Pid) : World := { w with requests := w.requests.erase pid }

/-- The steps, one constructor for each outcome. -/
inductive Stepped (cfg : Config) (w : World) : Act → World → Prop where
  | forkAndSpecialize (a : AppSpecializeArgs) (reachable : Bool) (umount2 : MountInfo → Bool) :
      Stepped cfg w (.forkAndSpecialize a reachable umount2)
        (forkTask (afterUnmount w (w.env cfg reachable umount2) a) false)
  | preFork : Stepped cfg w .preFork (forkTask w false)
  | forkSystemServer :
      Stepped cfg w .forkSystemServer { forkTask w true with requests := w.requests ++ [w.nextPid] }
  | serverUnshare {pid : Pid} {task : Task} (ht : w.tasks pid = some task)
      (hserver : task.server = true) :
      Stepped cfg w (.serverUnshare pid) (unshare w pid task task.ns task.hooked)
  | cacheFailed {pid : Pid} {cleanOk rootOk : Bool} {umount2 : MountInfo → Bool} :
      Stepped cfg w (.handleCache pid cleanOk rootOk umount2) (w.taken pid)
  | cacheClean {pid : Pid} {cleanOk rootOk : Bool} {umount2 : MountInfo → Bool} {task : Task}
      (ht : w.tasks pid = some task) :
      Stepped cfg w (.handleCache pid cleanOk rootOk umount2)
        (saveClean cfg umount2 (w.taken pid) task.ns)
  | cacheBoth {pid : Pid} {cleanOk rootOk : Bool} {umount2 : MountInfo → Bool} {task : Task}
      (ht : w.tasks pid = some task) :
      Stepped cfg w (.handleCache pid cleanOk rootOk umount2)
        (saveRoot (saveClean cfg umount2 (w.taken pid) task.ns) task.ns)
  | unshareHook {pid : Pid} {flags infoFlags : Flags} {setns : Bool} {task : Task}
      (ht : w.tasks pid = some task) (hserver : task.server = false)
      (hverdict : task.hooked = none ∨ task.hooked = some (hookShouldUnmount flags infoFlags)) :
      Stepped cfg w (.unshareHook pid flags infoFlags setns)
        (unshare w pid task (namespaceToCopy w task flags infoFlags setns)
          (some (hookShouldUnmount flags infoFlags)))

theorem stepped {cfg : Config} {w w' : World} {act : Act} (h : step cfg w act = some w') :
    Stepped cfg w act w' := by
  cases act with
  | forkAndSpecialize a reachable umount2 =>
      obtain rfl := Option.some.inj h
      exact .forkAndSpecialize a reachable umount2
  | preFork =>
      obtain rfl := Option.some.inj h
      exact .preFork
  | forkSystemServer =>
      obtain rfl := Option.some.inj h
      exact .forkSystemServer
  | serverUnshare pid =>
      simp only [step] at h
      split at h
      · rename_i task ht
        split at h
        · rename_i hserver
          obtain rfl := Option.some.inj h
          exact .serverUnshare ht hserver
        · cases h
      · cases h
  | handleCache pid cleanOk rootOk umount2 =>
      simp only [step] at h
      split at h
      · split at h
        · rename_i task ht
          split at h
          · obtain rfl := Option.some.inj h
            split
            · exact .cacheBoth ht
            · exact .cacheClean ht
          · obtain rfl := Option.some.inj h
            exact .cacheFailed
        · cases h
      · cases h
  | unshareHook pid flags infoFlags setns =>
      simp only [step] at h
      split at h
      · rename_i task ht
        split at h
        · rename_i hguard
          obtain rfl := Option.some.inj h
          simp only [Bool.and_eq_true, Bool.not_eq_true', Bool.or_eq_true, Option.isNone_iff_eq_none,
            beq_iff_eq] at hguard
          exact .unshareHook ht hguard.1 hguard.2
        · cases h
      · cases h

/-! ## What the direct unmount can do -/

/-- The zygote's state after `nativeForkAndSpecialize_pre`: nothing was unmounted and an unmounted
zygote is left alone, or this is the first unmount and the leftover traces are those that failed. -/
theorem directUnmount_cases (env : Env) (a : AppSpecializeArgs) (h : HookContext)
    (c : ZygiskContext) :
    (unmountedTraces env a h = [] ∧
        (directUnmount env a h c).1.zygoteUnmounted = h.zygoteUnmounted ∧
        (h.zygoteUnmounted = true → (directUnmount env a h c).1 = h)) ∨
      ∃ traces, traces = checkZygoteTraces (getProcessFlags env .forkFlags a.uid) env.mountInfos ∧
        traces ≠ [] ∧ h.zygoteUnmounted = false ∧
        (directUnmount env a h c).1.zygoteUnmounted = true ∧
        (directUnmount env a h c).1.zygoteTraces = traces.filter (fun m => !env.umount2 m) ∧
        unmountedTraces env a h = traces.filter env.umount2 := by
  simp only [directUnmount, unmountedTraces]
  cases hfirst : !h.zygoteUnmounted && h.zygoteTraces.isEmpty with
  | false =>
      left
      simp
  | true =>
      obtain ⟨hu, -⟩ := Bool.and_eq_true_iff.mp hfirst
      rw [Bool.not_eq_true'] at hu
      cases habort : abortZygoteUnmount
          (checkZygoteTraces (getProcessFlags env .forkFlags a.uid) env.mountInfos)
          (getProcessFlags env .forkFlags a.uid) with
      | true =>
          left
          simp [hu]
      | false =>
          right
          refine ⟨_, rfl, ?_, hu, ?_⟩
          · -- an empty list is always aborted
            intro hnil
            rw [hnil] at habort
            cases habort
          · simp

/-- The traces found do not depend on the uid that was asked about. -/
theorem checkZygoteTraces_uid (cfg : Config) (uid uid' : Uid) (mountInfos : List MountInfo) :
    checkZygoteTraces (handleGetProcessFlags cfg.rootImpl cfg.queries uid) mountInfos =
      checkZygoteTraces (handleGetProcessFlags cfg.rootImpl cfg.queries uid') mountInfos := by
  simp only [checkZygoteTraces, mountSourceName_handleGetProcessFlags,
    isKernelsu_handleGetProcessFlags]

/-! ## Well-formed worlds -/

structure Wf (w : World) : Prop where
  zygote_lt : w.zygoteNs < w.mounts.next
  task_lt : ∀ pid t, w.tasks pid = some t → t.ns < w.mounts.next
  clean_lt : ∀ k, w.clean = some k → k < w.mounts.next
  root_lt : ∀ k, w.root = some k → k < w.mounts.next
  waiting : ∀ pid t, w.tasks pid = some t → t.server = false → t.hooked = none →
    t.ns = w.zygoteNs
  private_ns : ∀ pid t, w.tasks pid = some t → t.hooked ≠ none → t.ns ≠ w.zygoteNs

theorem wf_initial (mountInfos : List MountInfo) : Wf (.initial mountInfos) where
  zygote_lt := Nat.one_pos
  task_lt := by
    intro pid t ht
    cases ht
  clean_lt := by
    intro k hk
    cases hk
  root_lt := by
    intro k hk
    cases hk
  waiting := by
    intro pid t ht
    cases ht
  private_ns := by
    intro pid t ht
    cases ht

/-- A task of an updated table is the new one or an old one. -/
theorem tasks_update {tasks : Pid → Option Task} {pid pid' : Pid} {t t' : Task}
    (h : Function.update tasks pid (some t) pid' = some t') :
    pid' = pid ∧ t' = t ∨ pid' ≠ pid ∧ tasks pid' = some t' := by
  by_cases hpid : pid' = pid
  · subst hpid
    rw [Function.update_self] at h
    exact .inl ⟨rfl, (Option.some.inj h).symm⟩
  · rw [Function.update_of_ne hpid] at h
    exact .inr ⟨hpid, h⟩

theorem wf_forkTask {w : World} (hw : Wf w) (server : Bool) : Wf (forkTask w server) where
  zygote_lt := hw.zygote_lt
  task_lt := by
    intro pid t ht
    rcases tasks_update ht with ⟨-, rfl⟩ | ⟨-, ht⟩
    · exact hw.zygote_lt
    · exact hw.task_lt pid t ht
  clean_lt := hw.clean_lt
  root_lt := hw.root_lt
  waiting := by
    intro pid t ht hserver hnone
    rcases tasks_update ht with ⟨-, rfl⟩ | ⟨-, ht⟩
    · rfl
    · exact hw.waiting pid t ht hserver hnone
  private_ns := by
    intro pid t ht hsome
    rcases tasks_update ht with ⟨-, rfl⟩ | ⟨-, ht⟩
    · exact absurd rfl hsome
    · exact hw.private_ns pid t ht hsome

/-- The direct unmount changes the contents of a namespace, not who is where. -/
theorem wf_afterUnmount {w : World} (hw : Wf w) (env : Env) (a : AppSpecializeArgs) :
    Wf (afterUnmount w env a) :=
  ⟨hw.zygote_lt, hw.task_lt, hw.clean_lt, hw.root_lt, hw.waiting, hw.private_ns⟩

theorem wf_unshare {w : World} (hw : Wf w) {pid : Pid} {task : Task} (ns : NsId)
    {hooked : Option Bool} (hserver : task.server = true ∨ hooked ≠ none) :
    Wf (unshare w pid task ns hooked) where
  zygote_lt := Nat.lt_succ_of_lt hw.zygote_lt
  task_lt := by
    intro pid' t ht
    rcases tasks_update ht with ⟨-, rfl⟩ | ⟨-, ht⟩
    · exact Nat.lt_succ_self _
    · exact Nat.lt_succ_of_lt (hw.task_lt pid' t ht)
  clean_lt := fun k hk => Nat.lt_succ_of_lt (hw.clean_lt k hk)
  root_lt := fun k hk => Nat.lt_succ_of_lt (hw.root_lt k hk)
  waiting := by
    intro pid' t ht hnot hnone
    rcases tasks_update ht with ⟨-, rfl⟩ | ⟨-, ht⟩
    · rcases hserver with h | h
      · exact absurd (h.symm.trans hnot) (by simp)
      · exact absurd hnone h
    · exact hw.waiting pid' t ht hnot hnone
  private_ns := by
    intro pid' t ht hsome
    rcases tasks_update ht with ⟨-, rfl⟩ | ⟨-, ht⟩
    · -- the copy is a new object, the zygote's is an old one
      exact (Nat.ne_of_lt hw.zygote_lt).symm
    · exact hw.private_ns pid' t ht hsome

theorem wf_saveClean {w : World} (hw : Wf w) (cfg : Config) (umount2 : MountInfo → Bool)
    (ns : NsId) : Wf (saveClean cfg umount2 w ns) := by
  simp only [saveClean]
  split
  · exact hw
  · refine ⟨Nat.lt_succ_of_lt hw.zygote_lt, ?_, ?_, ?_, hw.waiting, hw.private_ns⟩
    · exact fun pid t ht => Nat.lt_succ_of_lt (hw.task_lt pid t ht)
    · intro k hk
      obtain rfl := Option.some.inj hk
      exact Nat.lt_succ_self _
    · exact fun k hk => Nat.lt_succ_of_lt (hw.root_lt k hk)

theorem wf_saveRoot {w : World} (hw : Wf w) {ns : NsId} (hns : ns < w.mounts.next) :
    Wf (saveRoot w ns) := by
  simp only [saveRoot]
  split
  · exact hw
  · refine ⟨hw.zygote_lt, hw.task_lt, hw.clean_lt, ?_, hw.waiting, hw.private_ns⟩
    intro k hk
    obtain rfl := Option.some.inj hk
    exact hns

theorem wf_taken {w : World} (hw : Wf w) (pid : Pid) : Wf (w.taken pid) :=
  ⟨hw.zygote_lt, hw.task_lt, hw.clean_lt, hw.root_lt, hw.waiting, hw.private_ns⟩

theorem saveClean_next_le (cfg : Config) (umount2 : MountInfo → Bool) (w : World) (ns : NsId) :
    w.mounts.next ≤ (saveClean cfg umount2 w ns).mounts.next := by
  simp only [saveClean]
  split
  · exact Nat.le_refl _
  · exact Nat.le_succ _

/-- Every step keeps a world well formed. -/
theorem wf_step {cfg : Config} {w w' : World} {act : Act} (hw : Wf w)
    (h : step cfg w act = some w') : Wf w' := by
  cases stepped h with
  | forkAndSpecialize a reachable umount2 => exact wf_forkTask (wf_afterUnmount hw _ a) false
  | preFork => exact wf_forkTask hw false
  | forkSystemServer =>
      have hfork := wf_forkTask hw true
      exact ⟨hfork.zygote_lt, hfork.task_lt, hfork.clean_lt, hfork.root_lt, hfork.waiting,
        hfork.private_ns⟩
  | serverUnshare ht hserver => exact wf_unshare hw _ (.inl hserver)
  | cacheFailed => exact wf_taken hw _
  | cacheClean ht => exact wf_saveClean (wf_taken hw _) cfg _ _
  | cacheBoth ht =>
      refine wf_saveRoot (wf_saveClean (wf_taken hw _) cfg _ _) ?_
      exact Nat.lt_of_lt_of_le (hw.task_lt _ _ ht) (saveClean_next_le cfg _ (w.taken _) _)
  | unshareHook ht hserver hverdict => exact wf_unshare hw _ (.inr (by simp))

/-! ## The zygote's namespace -/

section Unshare

variable (w : World) (pid : Pid) (task : Task) (ns : NsId) (hooked : Option Bool)

@[simp] theorem unshare_zygoteNs : (unshare w pid task ns hooked).zygoteNs = w.zygoteNs := rfl

/-- The process gets a new object with the contents of the one it had joined. -/
theorem get_unshare_self :
    (unshare w pid task ns hooked).mounts.get w.mounts.next = w.mounts.get ns :=
  Heap.get_alloc_self _ _

theorem get_unshare_of_lt {k : NsId} (hk : k < w.mounts.next) :
    (unshare w pid task ns hooked).mounts.get k = w.mounts.get k :=
  Heap.get_alloc_of_lt _ _ hk

end Unshare

theorem get_saveClean {cfg : Config} {umount2 : MountInfo → Bool} {w : World} {ns k : NsId}
    (hk : k < w.mounts.next) : (saveClean cfg umount2 w ns).mounts.get k = w.mounts.get k := by
  simp only [saveClean]
  split
  · rfl
  · exact Heap.get_alloc_of_lt _ _ hk

@[simp] theorem saveClean_zygoteNs (cfg : Config) (umount2 : MountInfo → Bool) (w : World)
    (ns : NsId) : (saveClean cfg umount2 w ns).zygoteNs = w.zygoteNs := by
  simp only [saveClean]
  split <;> rfl

@[simp] theorem saveClean_hook (cfg : Config) (umount2 : MountInfo → Bool) (w : World)
    (ns : NsId) : (saveClean cfg umount2 w ns).hook = w.hook := by
  simp only [saveClean]
  split <;> rfl

@[simp] theorem saveClean_tasks (cfg : Config) (umount2 : MountInfo → Bool) (w : World)
    (ns : NsId) : (saveClean cfg umount2 w ns).tasks = w.tasks := by
  simp only [saveClean]
  split <;> rfl

@[simp] theorem saveClean_root (cfg : Config) (umount2 : MountInfo → Bool) (w : World)
    (ns : NsId) : (saveClean cfg umount2 w ns).root = w.root := by
  simp only [saveClean]
  split <;> rfl

@[simp] theorem saveRoot_mounts (w : World) (ns : NsId) : (saveRoot w ns).mounts = w.mounts := by
  simp only [saveRoot]
  split <;> rfl

@[simp] theorem saveRoot_zygoteNs (w : World) (ns : NsId) :
    (saveRoot w ns).zygoteNs = w.zygoteNs := by
  simp only [saveRoot]
  split <;> rfl

@[simp] theorem saveRoot_hook (w : World) (ns : NsId) : (saveRoot w ns).hook = w.hook := by
  simp only [saveRoot]
  split <;> rfl

@[simp] theorem saveRoot_tasks (w : World) (ns : NsId) : (saveRoot w ns).tasks = w.tasks := by
  simp only [saveRoot]
  split <;> rfl

/-- Until the zygote has unmounted, its namespace is as it was. -/
def Untouched (mountInfos : List MountInfo) (w : World) : Prop :=
  w.hook.zygoteUnmounted = false → w.mounts.get w.zygoteNs = mountInfos

theorem get_afterUnmount_of_nil {w : World} {env : Env} {a : AppSpecializeArgs}
    (h : unmountedTraces env a w.hook = []) (k : NsId) :
    (afterUnmount w env a).mounts.get k = w.mounts.get k := by
  simp only [afterUnmount]
  by_cases hk : k = w.zygoteNs
  · subst hk
    simp [h]
  · exact Heap.get_modify_of_ne _ _ hk

theorem get_afterUnmount_of_ne {w : World} {env : Env} {a : AppSpecializeArgs} {k : NsId}
    (hk : k ≠ w.zygoteNs) : (afterUnmount w env a).mounts.get k = w.mounts.get k :=
  Heap.get_modify_of_ne _ _ hk

theorem untouched_unshare {mountInfos : List MountInfo} {w : World} (hwf : Wf w)
    (hw : Untouched mountInfos w) (pid : Pid) (task : Task) (ns : NsId) (hooked : Option Bool) :
    Untouched mountInfos (unshare w pid task ns hooked) := by
  intro hu
  rw [unshare_zygoteNs, get_unshare_of_lt _ _ _ _ _ hwf.zygote_lt]
  exact hw hu

theorem untouched_saveClean {mountInfos : List MountInfo} {w : World} (hwf : Wf w)
    (hw : Untouched mountInfos w) (cfg : Config) (umount2 : MountInfo → Bool) (ns : NsId) :
    Untouched mountInfos (saveClean cfg umount2 w ns) := by
  intro hu
  rw [saveClean_hook] at hu
  rw [saveClean_zygoteNs, get_saveClean hwf.zygote_lt]
  exact hw hu

theorem untouched_step {cfg : Config} {w w' : World} {act : Act} {mountInfos : List MountInfo}
    (hwf : Wf w) (hw : Untouched mountInfos w) (h : step cfg w act = some w') :
    Untouched mountInfos w' := by
  cases stepped h with
  | forkAndSpecialize a reachable umount2 =>
      intro hu
      -- if the zygote still counts as not unmounted, this fork took nothing away
      rcases directUnmount_cases (w.env cfg reachable umount2) a w.hook
          (startContext (w.env cfg reachable umount2) a) with
        ⟨hnil, hkeep, -⟩ | ⟨traces, -, -, -, htrue, -⟩
      · exact (get_afterUnmount_of_nil hnil _).trans (hw (hkeep.symm.trans hu))
      · exact absurd (htrue.symm.trans hu) (by simp)
  | preFork => exact hw
  | forkSystemServer => exact hw
  | serverUnshare ht hserver => exact untouched_unshare hwf hw _ _ _ _
  | cacheFailed => exact hw
  | cacheClean ht => exact untouched_saveClean (wf_taken hwf _) hw cfg _ _
  | @cacheBoth pid _ _ umount2 task ht =>
      have hsaved : Untouched mountInfos (saveClean cfg umount2 (w.taken pid) task.ns) :=
        untouched_saveClean (wf_taken hwf pid) hw cfg umount2 task.ns
      intro hu
      rw [saveRoot_hook] at hu
      rw [saveRoot_mounts, saveRoot_zygoteNs]
      exact hsaved hu
  | unshareHook ht hserver hverdict => exact untouched_unshare hwf hw _ _ _ _

end NeoZygisk.Namespace
