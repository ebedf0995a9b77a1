import NeoZygisk.Namespace.System

/-!
# What an app sees after the `unshare` hook

Two promises of the hook, over every run of the system.

`denylisted_sees_no_trace`: an app that should not see root ends in a namespace without any of the
mounts that `check_zygote_traces` found in the zygote. A process that trusts its copy of `g_hook`
(everything unmounted, nothing left over) sits in the zygote's namespace, which has been clean since
that copy was made; every other one joins the daemon's clean namespace.

`spared_keeps_mounts`: an app that may see root keeps every mount the zygote had, as long as no
unmount hits a namespace that it still relies on (the daemon's `Root`, which is a reference and no
copy, or the zygote's, if the app was forked before the unmount and has not run its hook), and the
daemon does not take `Root` from a stripped namespace. What the unmounts cost other processes does not
matter to the app. `sharedRoot_loses_mounts` is a run in which an app does not keep them.
-/

set_option autoImplicit false

namespace NeoZygisk.Namespace

open NeoZygisk.Common
open NeoZygisk.Unmount
open NeoZygisk.Injector
open NeoZygisk.Lib
open NeoZygisk.Lib.Transition

/-! ## Denylisted apps -/

/-- The mounts that `check_zygote_traces` selects in the zygote's original table. -/
def rootMounts (cfg : Config) (mountInfos : List MountInfo) : List MountInfo :=
  checkZygoteTraces (handleGetProcessFlags cfg.rootImpl cfg.queries 0#32) mountInfos

/-- No root mount is visible in a namespace. -/
def CleanNs (cfg : Config) (mountInfos : List MountInfo) (w : World) (ns : NsId) : Prop :=
  ∀ m ∈ w.mounts.get ns, m ∉ rootMounts cfg mountInfos

structure DenyInv (cfg : Config) (mountInfos : List MountInfo) (w : World) : Prop where
  wf : Wf w
  untouched : Untouched mountInfos w
  /-- What is left of the traces in the zygote is on its list. -/
  leftover : w.hook.zygoteUnmounted = true → ∀ m ∈ w.mounts.get w.zygoteNs,
    m ∈ rootMounts cfg mountInfos → m ∈ w.hook.zygoteTraces
  /-- A process that takes the zygote for clean is in a clean namespace, unless it has asked for the
  root mounts before. -/
  trusting : ∀ pid t, w.tasks pid = some t → t.server = false → isZygoteClean t.hook = true →
    t.hooked ≠ some false → CleanNs cfg mountInfos w t.ns

theorem denyInv_initial (cfg : Config) (mountInfos : List MountInfo) :
    DenyInv cfg mountInfos (.initial mountInfos) where
  wf := wf_initial mountInfos
  untouched := fun _ => rfl
  leftover := by
    intro h
    cases h
  trusting := by
    intro pid t ht
    cases ht

/-- The list found in the zygote is that of the root mounts, unless the daemon did not answer. -/
theorem traces_eq (cfg : Config) (w : World) {mountInfos : List MountInfo} {reachable : Bool}
    {umount2 : MountInfo → Bool} {a : AppSpecializeArgs} {traces : List MountInfo}
    (hmounts : w.mounts.get w.zygoteNs = mountInfos)
    (htraces : traces = checkZygoteTraces
      (getProcessFlags (w.env cfg reachable umount2) .forkFlags a.uid)
      (w.env cfg reachable umount2).mountInfos) (hne : traces ≠ []) :
    traces = rootMounts cfg mountInfos := by
  cases reachable with
  | false =>
      -- Flags of 0 name no root solution.
      have hnone : mountSourceName 0#32 = none := by decide
      refine absurd (htraces.trans ?_) hne
      simp [World.env, zygoteEnv, getProcessFlags, checkZygoteTraces, hnone]
  | true =>
      rw [htraces]
      rw [rootMounts, checkZygoteTraces_uid cfg 0#32 a.uid, ← hmounts]
      rfl

/-- After any fork of an app, the leftover traces cover what root mounts are left. -/
theorem leftover_afterUnmount {cfg : Config} {mountInfos : List MountInfo} {w : World}
    (hw : DenyInv cfg mountInfos w) (a : AppSpecializeArgs) (reachable : Bool)
    (umount2 : MountInfo → Bool) :
    (afterUnmount w (w.env cfg reachable umount2) a).hook.zygoteUnmounted = true →
      ∀ m ∈ (afterUnmount w (w.env cfg reachable umount2) a).mounts.get w.zygoteNs,
        m ∈ rootMounts cfg mountInfos →
          m ∈ (afterUnmount w (w.env cfg reachable umount2) a).hook.zygoteTraces := by
  intro hu m hm hroot
  rcases directUnmount_cases (w.env cfg reachable umount2) a w.hook
      (startContext (w.env cfg reachable umount2) a) with
    ⟨hnil, hkeep, hsame⟩ | ⟨traces, htraces, hne, hfirst, -, hleft, hremoved⟩
  · -- an earlier fork unmounted, and this one leaves its list alone
    have hold : w.hook.zygoteUnmounted = true := hkeep.symm.trans hu
    rw [get_afterUnmount_of_nil hnil] at hm
    change m ∈ (directUnmount _ a w.hook _).1.zygoteTraces
    rw [hsame hold]
    exact hw.leftover hold m hm hroot
  · -- this fork unmounts: what it finds are exactly the root mounts
    have heq := traces_eq cfg w (hw.untouched hfirst) htraces hne
    change m ∈ (directUnmount _ a w.hook _).1.zygoteTraces
    rw [hleft, heq]
    refine List.mem_filter.mpr ⟨hroot, ?_⟩
    -- a mount that is still there was not unmounted
    have hstill : m ∉ unmountedTraces (w.env cfg reachable umount2) a w.hook := by
      have hm' : m ∈ (w.mounts.modify w.zygoteNs _).get w.zygoteNs := hm
      rw [Heap.get_modify_self] at hm'
      simpa using (List.mem_filter.mp hm').2
    rw [hremoved, heq] at hstill
    cases hok : (w.env cfg reachable umount2).umount2 m with
    | false => rfl
    | true => exact absurd (List.mem_filter.mpr ⟨hroot, hok⟩) hstill

theorem cleanNs_of_subset {cfg : Config} {mountInfos : List MountInfo} {w w' : World} {ns ns' : NsId}
    (h : CleanNs cfg mountInfos w ns) (hsub : w'.mounts.get ns' ⊆ w.mounts.get ns) :
    CleanNs cfg mountInfos w' ns' :=
  fun m hm => h m (hsub hm)

/-- The direct unmount only takes mounts away. -/
theorem get_afterUnmount_subset (w : World) (env : Env) (a : AppSpecializeArgs) (k : NsId) :
    (afterUnmount w env a).mounts.get k ⊆ w.mounts.get k := by
  simp only [afterUnmount]
  by_cases hk : k = w.zygoteNs
  · subst hk
    rw [Heap.get_modify_self]
    exact List.filter_subset_self _
  · rw [Heap.get_modify_of_ne _ _ hk]
    exact List.Subset.refl _

/-- A trusting copy of `g_hook` is made only once the zygote's namespace is clean. -/
theorem cleanNs_of_isZygoteClean {cfg : Config} {mountInfos : List MountInfo} {w : World}
    (hleft : w.hook.zygoteUnmounted = true → ∀ m ∈ w.mounts.get w.zygoteNs,
      m ∈ rootMounts cfg mountInfos → m ∈ w.hook.zygoteTraces)
    (hclean : isZygoteClean w.hook = true) : CleanNs cfg mountInfos w w.zygoteNs := by
  obtain ⟨hu, hempty⟩ := Bool.and_eq_true_iff.mp hclean
  intro m hm hroot
  have hmem := hleft hu m hm hroot
  rw [List.isEmpty_iff.mp hempty] at hmem
  cases hmem

/-- A fork keeps the invariant: the child's copy is the zygote's state. -/
theorem denyInv_forkTask {cfg : Config} {mountInfos : List MountInfo} {w : World}
    (hw : DenyInv cfg mountInfos w) (server : Bool) :
    DenyInv cfg mountInfos (forkTask w server) where
  wf := wf_forkTask hw.wf server
  untouched := hw.untouched
  leftover := hw.leftover
  trusting := by
    intro pid t ht hserver hclean hhooked
    rcases tasks_update ht with ⟨-, rfl⟩ | ⟨-, ht⟩
    · exact cleanNs_of_isZygoteClean hw.leftover hclean
    · exact hw.trusting pid t ht hserver hclean hhooked

/-- Taking a request from the queue changes no namespace. -/
theorem DenyInv.taken {cfg : Config} {mountInfos : List MountInfo} {w : World}
    (hw : DenyInv cfg mountInfos w) (pid : Pid) : DenyInv cfg mountInfos (w.taken pid) :=
  ⟨wf_taken hw.wf pid, hw.untouched, hw.leftover, hw.trusting⟩

theorem denyInv_saveClean {cfg : Config} {mountInfos : List MountInfo} {w : World}
    (hw : DenyInv cfg mountInfos w) (umount2 : MountInfo → Bool) (ns : NsId) :
    DenyInv cfg mountInfos (saveClean cfg umount2 w ns) where
  wf := wf_saveClean hw.wf cfg umount2 ns
  untouched := untouched_saveClean hw.wf hw.untouched cfg umount2 ns
  leftover := by
    rw [saveClean_hook, saveClean_zygoteNs, get_saveClean hw.wf.zygote_lt]
    exact hw.leftover
  trusting := by
    intro pid t ht hserver hclean hhooked
    rw [saveClean_tasks] at ht
    refine cleanNs_of_subset (hw.trusting pid t ht hserver hclean hhooked) ?_
    rw [get_saveClean (hw.wf.task_lt pid t ht)]
    exact List.Subset.refl _

/-- Copying a namespace keeps the invariant, if the copy is clean wherever it has to be. -/
theorem denyInv_unshare {cfg : Config} {mountInfos : List MountInfo} {w : World}
    (hw : DenyInv cfg mountInfos w) {pid : Pid} {task : Task} (ns : NsId) {hooked : Option Bool}
    (hsome : task.server = true ∨ hooked ≠ none)
    (hcopy : task.server = false → isZygoteClean task.hook = true → hooked ≠ some false →
      CleanNs cfg mountInfos w ns) :
    DenyInv cfg mountInfos (unshare w pid task ns hooked) where
  wf := wf_unshare hw.wf ns hsome
  untouched := untouched_unshare hw.wf hw.untouched pid task ns hooked
  leftover := by
    rw [unshare_zygoteNs, get_unshare_of_lt _ _ _ _ _ hw.wf.zygote_lt]
    exact hw.leftover
  trusting := by
    intro pid' t ht hserver hclean hhooked
    rcases tasks_update ht with ⟨-, rfl⟩ | ⟨-, ht⟩
    · -- the process itself now lives in the copy
      refine cleanNs_of_subset (hcopy hserver hclean hhooked) ?_
      rw [get_unshare_self]
      exact List.Subset.refl _
    · refine cleanNs_of_subset (hw.trusting pid' t ht hserver hclean hhooked) ?_
      rw [get_unshare_of_lt _ _ _ _ _ (hw.wf.task_lt pid' t ht)]
      exact List.Subset.refl _

/-- A process that may see root and was forked before the unmount stays where it is. -/
theorem namespaceToCopy_of_not_unmounted {w : World} {task : Task} {flags infoFlags : Flags}
    {setns : Bool} (hu : task.hook.zygoteUnmounted = false)
    (hverdict : hookShouldUnmount flags infoFlags = false) :
    namespaceToCopy w task flags infoFlags setns = task.ns := by
  simp [namespaceToCopy, hu, hverdict]

/-- A process that takes the zygote for clean stays where it is. -/
theorem namespaceToCopy_of_clean {w : World} {task : Task} {flags infoFlags : Flags} {setns : Bool}
    (hclean : isZygoteClean task.hook = true) (hu : hookShouldUnmount flags infoFlags = true) :
    namespaceToCopy w task flags infoFlags setns = task.ns := by
  simp [namespaceToCopy, hclean, hu]

theorem denyInv_step {cfg : Config} {mountInfos : List MountInfo} {w w' : World} {act : Act}
    (hw : DenyInv cfg mountInfos w) (h : step cfg w act = some w') :
    DenyInv cfg mountInfos w' := by
  have huntouched := untouched_step hw.wf hw.untouched h
  cases stepped h with
  | forkAndSpecialize a reachable umount2 =>
      refine denyInv_forkTask ⟨wf_afterUnmount hw.wf _ a, huntouched,
        leftover_afterUnmount hw a reachable umount2, ?_⟩ false
      intro pid t ht hserver hclean hhooked
      exact cleanNs_of_subset (hw.trusting pid t ht hserver hclean hhooked)
        (get_afterUnmount_subset w _ a t.ns)
  | preFork => exact denyInv_forkTask hw false
  | forkSystemServer =>
      have hfork := denyInv_forkTask hw true
      exact ⟨wf_step hw.wf h, hfork.untouched, hfork.leftover, hfork.trusting⟩
  | serverUnshare ht hserver =>
      refine denyInv_unshare hw _ (.inl hserver) ?_
      intro hnot
      exact absurd (hserver.symm.trans hnot) (by simp)
  | cacheFailed => exact hw.taken _
  | cacheClean ht => exact denyInv_saveClean (hw.taken _) _ _
  | @cacheBoth pid _ _ umount2 task ht =>
      have hsaved : DenyInv cfg mountInfos (saveClean cfg umount2 (w.taken pid) task.ns) :=
        denyInv_saveClean (hw.taken pid) umount2 task.ns
      refine ⟨wf_step hw.wf h, huntouched, ?_, ?_⟩
      · simpa using hsaved.leftover
      · intro pid' t ht' hserver hclean hhooked
        rw [saveRoot_tasks] at ht'
        refine cleanNs_of_subset (hsaved.trusting pid' t ht' hserver hclean hhooked) ?_
        rw [saveRoot_mounts]
        exact List.Subset.refl _
  | @unshareHook _ flags infoFlags _ _ ht hserver hverdict =>
      refine denyInv_unshare hw _ (.inr (by simp)) ?_
      intro _ hclean hne
      have hu : hookShouldUnmount flags infoFlags = true := by simpa using hne
      rw [namespaceToCopy_of_clean hclean hu]
      refine hw.trusting _ _ ht hserver hclean ?_
      rcases hverdict with hnone | hsome
      · simp [hnone]
      · simp [hsome, hu]

/-- Whatever happened before, an app that should not see root ends in a namespace without any of the
zygote's root mounts, whichever uid the daemon's flags were asked for. -/
theorem denylisted_sees_no_trace (cfg : Config) (mountInfos : List MountInfo) (w w' : World)
    (pid : Pid) (flags infoFlags : Flags) (uid : Uid) (clean : NsId) (t' : Task)
    (hrun : Reach (step cfg) (.initial mountInfos) w)
    (hflags : hookShouldUnmount flags infoFlags = true)
    (hcached : w.clean = some clean) (hclean : ∀ m ∈ w.mounts.get clean,
      m ∉ checkZygoteTraces (handleGetProcessFlags cfg.rootImpl cfg.queries uid) mountInfos)
    (hstep : step cfg w (.unshareHook pid flags infoFlags true) = some w')
    (ht' : w'.tasks pid = some t') :
    ∀ m ∈ w'.mounts.get t'.ns,
      m ∉ checkZygoteTraces (handleGetProcessFlags cfg.rootImpl cfg.queries uid) mountInfos := by
  have hw : DenyInv cfg mountInfos w :=
    hrun.invariant (denyInv_initial cfg mountInfos) fun _ _ _ hinv _ hst => denyInv_step hinv hst
  rw [checkZygoteTraces_uid cfg uid 0#32] at hclean ⊢
  cases stepped hstep with
  | @unshareHook _ _ _ _ task ht hserver hverdict =>
      rcases tasks_update ht' with ⟨-, rfl⟩ | ⟨hne, -⟩
      · dsimp only
        intro m hm
        rw [get_unshare_self] at hm
        cases htrust : isZygoteClean task.hook with
        | true =>
            -- the app stays, and the invariant vouches for where it is
            rw [namespaceToCopy_of_clean htrust hflags] at hm
            refine hw.trusting pid task ht hserver htrust ?_ m hm
            rcases hverdict with hnone | hsome
            · simp [hnone]
            · simp [hsome, hflags]
        | false =>
            -- a copy that does not vouch for the zygote sends the app to the clean namespace
            have hns : namespaceToCopy w task flags infoFlags true = clean := by
              simp [namespaceToCopy, hflags, htrust, updateMountNamespace, hcached]
            rw [hns] at hm
            exact hclean m hm
      · exact absurd rfl hne

/-- A Magisk device: one ordinary mount and one of the root solution. -/
def magiskConfig : Config := ⟨.magisk, noQueries⟩

def magiskMounts : List MountInfo :=
  [mountAt 20 "/system" "/dev/block/dm-0", mountAt 30 "/system/bin" "magisk"]

/-- `system_server` comes up and its namespace is cached; the first app is forked while the daemon
answers, but the unmount fails. -/
def failingUnmount : List Act :=
  [.forkSystemServer, .handleCache 0 true true fun _ => true,
    .forkAndSpecialize plainArgs true fun _ => false]

/-- The app, asked to revert its mounts, ends in a clean namespace all the same. -/
theorem denylisted_sees_no_trace_failingUnmount :
    ∃ w w' t', replay (step magiskConfig) (.initial magiskMounts) failingUnmount = some w ∧
      step magiskConfig w (.unshareHook 1 DO_REVERT_UNMOUNT 0#32 true) = some w' ∧
      w'.tasks 1 = some t' ∧
      ∀ m ∈ w'.mounts.get t'.ns, m ∉ checkZygoteTraces
        (handleGetProcessFlags magiskConfig.rootImpl magiskConfig.queries 0#32) magiskMounts :=
  ⟨_, _, _, rfl, rfl, rfl,
    denylisted_sees_no_trace magiskConfig magiskMounts _ _ 1 DO_REVERT_UNMOUNT 0#32 0#32 1 _
      (reach_of_replay failingUnmount rfl) (by decide) rfl (by decide) rfl rfl⟩

/-! ## Apps that may see root -/

/-- The app, if the hook's `should_unmount` is false for it, ends in a namespace with all of the given
mounts, provided `Root` is cached where the hook asks for it and `setns` succeeds. -/
def KeepsMounts (cfg : Config) (mountInfos : List MountInfo) (pid : Pid) (w : World) : Prop :=
  ∀ flags infoFlags w' t', hookShouldUnmount flags infoFlags = false → w.root.isSome = true →
    step cfg w (.unshareHook pid flags infoFlags true) = some w' → w'.tasks pid = some t' →
      mountInfos ⊆ w'.mounts.get t'.ns

/-- Steps that do not cost the app its mounts. An unmount of at least one mount needs `Root` to be
another namespace than the zygote's and the app, if it is there, to have run its hook; a request
handled while `Root` is not cached needs the namespace it names to have all mounts. -/
def Spares (cfg : Config) (mountInfos : List MountInfo) (pid : Pid) (w : World) : Act → Prop
  | .forkAndSpecialize a reachable umount2 =>
      unmountedTraces (w.env cfg reachable umount2) a w.hook = [] ∨
        w.root ≠ some w.zygoteNs ∧
          ∀ t, w.tasks pid = some t → t.server = false → t.hooked ≠ none
  | .handleCache requested _ _ _ =>
      ∀ t, w.tasks requested = some t → w.root = none → mountInfos ⊆ w.mounts.get t.ns
  | _ => True

structure SpareInv (mountInfos : List MountInfo) (pid : Pid) (w : World) : Prop where
  wf : Wf w
  untouched : Untouched mountInfos w
  root_keeps : ∀ k, w.root = some k → mountInfos ⊆ w.mounts.get k
  /-- An app that will not ask for `Root` has the mounts already. -/
  relying : ∀ t, w.tasks pid = some t → t.server = false → t.hook.zygoteUnmounted = false →
    t.hooked ≠ some true → mountInfos ⊆ w.mounts.get t.ns

theorem spareInv_initial (mountInfos : List MountInfo) (pid : Pid) :
    SpareInv mountInfos pid (.initial mountInfos) where
  wf := wf_initial mountInfos
  untouched := fun _ => rfl
  root_keeps := by
    intro k hk
    cases hk
  relying := by
    intro t ht
    cases ht

section Spared

variable {cfg : Config} {mountInfos : List MountInfo} {pid : Pid} {w : World}

theorem spareInv_forkTask (hw : SpareInv mountInfos pid w) (server : Bool) :
    SpareInv mountInfos pid (forkTask w server) where
  wf := wf_forkTask hw.wf server
  untouched := hw.untouched
  root_keeps := hw.root_keeps
  relying := by
    intro t ht hserver hu hhooked
    rcases tasks_update ht with ⟨-, rfl⟩ | ⟨-, ht⟩
    · -- the child's copy says nothing was unmounted, so the shared namespace is whole
      have hmounts : w.mounts.get w.zygoteNs = mountInfos := hw.untouched hu
      exact hmounts ▸ List.Subset.refl _
    · exact hw.relying t ht hserver hu hhooked

theorem SpareInv.taken (hw : SpareInv mountInfos pid w) (requested : Pid) :
    SpareInv mountInfos pid (w.taken requested) :=
  ⟨wf_taken hw.wf requested, hw.untouched, hw.root_keeps, hw.relying⟩

theorem spareInv_saveClean (hw : SpareInv mountInfos pid w) (cfg : Config)
    (umount2 : MountInfo → Bool) (ns : NsId) :
    SpareInv mountInfos pid (saveClean cfg umount2 w ns) where
  wf := wf_saveClean hw.wf cfg umount2 ns
  untouched := untouched_saveClean hw.wf hw.untouched cfg umount2 ns
  root_keeps := by
    intro k hk
    rw [saveClean_root] at hk
    rw [get_saveClean (hw.wf.root_lt k hk)]
    exact hw.root_keeps k hk
  relying := by
    intro t ht hserver hu hhooked
    rw [saveClean_tasks] at ht
    rw [get_saveClean (hw.wf.task_lt pid t ht)]
    exact hw.relying t ht hserver hu hhooked

theorem spareInv_unshare (hw : SpareInv mountInfos pid w) {caller : Pid} {task : Task} (ns : NsId)
    {hooked : Option Bool} (hsome : task.server = true ∨ hooked ≠ none)
    (hcopy : pid = caller → task.server = false → task.hook.zygoteUnmounted = false →
      hooked ≠ some true → mountInfos ⊆ w.mounts.get ns) :
    SpareInv mountInfos pid (unshare w caller task ns hooked) where
  wf := wf_unshare hw.wf ns hsome
  untouched := untouched_unshare hw.wf hw.untouched caller task ns hooked
  root_keeps := by
    intro k hk
    rw [get_unshare_of_lt _ _ _ _ _ (hw.wf.root_lt k hk)]
    exact hw.root_keeps k hk
  relying := by
    intro t ht hserver hu hhooked
    rcases tasks_update ht with ⟨hcaller, rfl⟩ | ⟨-, ht⟩
    · rw [get_unshare_self]
      exact hcopy hcaller hserver hu hhooked
    · rw [get_unshare_of_lt _ _ _ _ _ (hw.wf.task_lt pid t ht)]
      exact hw.relying t ht hserver hu hhooked

/-- An unmount that spares the app leaves `Root` and what the app relies on as they were. -/
theorem spareInv_afterUnmount (hw : SpareInv mountInfos pid w) (env : Env) (a : AppSpecializeArgs)
    (hspare : unmountedTraces env a w.hook = [] ∨ w.root ≠ some w.zygoteNs ∧
      ∀ t, w.tasks pid = some t → t.server = false → t.hooked ≠ none)
    (huntouched : Untouched mountInfos (afterUnmount w env a)) :
    SpareInv mountInfos pid (afterUnmount w env a) := by
  refine ⟨wf_afterUnmount hw.wf env a, huntouched, ?_, ?_⟩
  · intro k hk
    rcases hspare with hnil | ⟨hroot, -⟩
    · rw [get_afterUnmount_of_nil hnil]
      exact hw.root_keeps k hk
    · have hne : k ≠ w.zygoteNs := by
        rintro rfl
        exact hroot hk
      rw [get_afterUnmount_of_ne hne]
      exact hw.root_keeps k hk
  · intro t ht hserver hu hhooked
    rcases hspare with hnil | ⟨-, hdone⟩
    · rw [get_afterUnmount_of_nil hnil]
      exact hw.relying t ht hserver hu hhooked
    · -- an app that has run its hook is in a namespace of its own
      have hne := hw.wf.private_ns pid t ht (hdone t ht hserver)
      rw [get_afterUnmount_of_ne hne]
      exact hw.relying t ht hserver hu hhooked

theorem spareInv_step {w' : World} {act : Act} (hw : SpareInv mountInfos pid w)
    (hok : Spares cfg mountInfos pid w act) (h : step cfg w act = some w') :
    SpareInv mountInfos pid w' := by
  have huntouched := untouched_step hw.wf hw.untouched h
  cases stepped h with
  | forkAndSpecialize a reachable umount2 =>
      exact spareInv_forkTask (spareInv_afterUnmount hw _ a hok huntouched) false
  | preFork => exact spareInv_forkTask hw false
  | forkSystemServer =>
      have hfork := spareInv_forkTask hw true
      exact ⟨wf_step hw.wf h, hfork.untouched, hfork.root_keeps, hfork.relying⟩
  | serverUnshare ht hserver =>
      refine spareInv_unshare hw _ (.inl hserver) ?_
      intro _ hnot
      exact absurd (hserver.symm.trans hnot) (by simp)
  | cacheFailed => exact hw.taken _
  | cacheClean ht => exact spareInv_saveClean (hw.taken _) cfg _ _
  | @cacheBoth requested _ _ umount2 task ht =>
      have hsaved : SpareInv mountInfos pid (saveClean cfg umount2 (w.taken requested) task.ns) :=
        spareInv_saveClean (hw.taken requested) cfg umount2 task.ns
      refine ⟨wf_step hw.wf h, huntouched, ?_, ?_⟩
      · intro k hk
        rw [saveRoot_mounts]
        cases hroot : w.root with
        | some k' =>
            -- `Root` was cached before this request
            refine hsaved.root_keeps k ?_
            simpa [saveRoot, World.taken, hroot] using hk
        | none =>
            -- this request fills it, from a namespace that has all mounts
            have hk' : task.ns = k := by simpa [saveRoot, World.taken, hroot] using hk
            subst hk'
            rw [get_saveClean (w := w.taken _) (hw.wf.task_lt _ _ ht)]
            exact hok task ht hroot
      · intro t ht' hserver hu hhooked
        rw [saveRoot_tasks] at ht'
        rw [saveRoot_mounts]
        exact hsaved.relying t ht' hserver hu hhooked
  | @unshareHook caller flags infoFlags _ task ht hserver hverdict =>
      refine spareInv_unshare hw _ (.inr (by simp)) ?_
      rintro rfl _ hu hne
      have hverd : hookShouldUnmount flags infoFlags = false := by simpa using hne
      rw [namespaceToCopy_of_not_unmounted hu hverd]
      refine hw.relying task ht hserver hu ?_
      rcases hverdict with hnone | hsome
      · simp [hnone]
      · simp [hsome, hverd]

end Spared

/-- In every run whose steps spare an app, the app keeps the zygote's mounts if it may see root. -/
theorem spared_keeps_mounts (cfg : Config) (mountInfos : List MountInfo) (pid : Pid) (w : World)
    (hrun : GuardedReach (step cfg) (Spares cfg mountInfos pid) (.initial mountInfos) w) :
    KeepsMounts cfg mountInfos pid w := by
  have hw : SpareInv mountInfos pid w :=
    hrun.invariant (spareInv_initial mountInfos pid) fun _ _ _ hinv hok hst =>
      spareInv_step hinv hok hst
  intro flags infoFlags w' t' hflags hroot hstep ht'
  obtain ⟨k, hk⟩ := Option.isSome_iff_exists.mp hroot
  cases stepped hstep with
  | @unshareHook _ _ _ _ task ht hserver hverdict =>
      rcases tasks_update ht' with ⟨-, rfl⟩ | ⟨hne, -⟩
      · dsimp only
        rw [get_unshare_self]
        cases hu : task.hook.zygoteUnmounted with
        | true =>
            have hns : namespaceToCopy w task flags infoFlags true = k := by
              simp [namespaceToCopy, hflags, hu, updateMountNamespace, hk]
            rw [hns]
            exact hw.root_keeps k hk
        | false =>
            rw [namespaceToCopy_of_not_unmounted hu hflags]
            refine hw.relying task ht hserver hu ?_
            rcases hverdict with hnone | hsome
            · simp [hnone]
            · simp [hsome, hflags]
      · exact absurd rfl hne

/-- `system_server` unshares before the daemon looks at it. The zygote unmounts as it forks process 2,
while a process that was forked in advance waits for its hook. -/
def privateRoot : List Act :=
  [.forkSystemServer, .serverUnshare 0, .handleCache 0 true true fun _ => true, .preFork,
    .forkAndSpecialize plainArgs true fun _ => true]

/-- Process 2 keeps all mounts. (Process 1 loses one of them if it may see root.) -/
theorem privateRoot_keeps_mounts :
    ∃ w, replay (step magiskConfig) (.initial magiskMounts) privateRoot = some w ∧
      KeepsMounts magiskConfig magiskMounts 2 w := by
  refine ⟨_, rfl, spared_keeps_mounts magiskConfig magiskMounts 2 _
    (guardedReach_of_replay privateRoot rfl ?_)⟩
  refine .cons trivial rfl (.cons trivial rfl (.cons ?_ rfl (.cons trivial rfl (.cons ?_ rfl trivial))))
  · -- the namespace of `system_server` is a copy of the whole table
    rintro t ⟨⟩ -
    exact List.Subset.refl _
  · refine .inr ⟨by decide, ?_⟩
    -- process 2 is forked after the unmount
    intro t ht
    cases ht

/-- `system_server` stays in the zygote's namespace, so the cached `Root` is the namespace that the
zygote then unmounts from. -/
def sharedRoot : List Act :=
  [.forkSystemServer, .handleCache 0 true true fun _ => true,
    .forkAndSpecialize plainArgs true fun _ => true]

/-- The app of that fork joins `Root` and finds the root mount gone. -/
theorem sharedRoot_loses_mounts :
    ∃ w pid, Reach (step magiskConfig) (.initial magiskMounts) w ∧
      ¬ KeepsMounts magiskConfig magiskMounts pid w := by
  refine ⟨_, 1, reach_of_replay sharedRoot rfl, ?_⟩
  intro h
  have hsub := h 0#32 0#32 _ _ (by decide) rfl rfl rfl
  exact absurd (hsub (show mountAt 30 "/system/bin" "magisk" ∈ magiskMounts by decide)) (by decide)

end NeoZygisk.Namespace
