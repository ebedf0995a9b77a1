import NeoZygisk.Unmount.Strategies
import Mathlib.Logic.Relation

/-!
# The order of unmounting

Both strategies unmount by falling mount id. `MNT_DETACH` takes a mount off together with everything below it,
so a mount has to go before the mounts it is nested in: otherwise its own `umount2` comes too late. Falling ids
have this effect as long as nested mounts have the larger ids, which the kernel does not promise: it hands the
ids of removed mounts out again. `unmount_order_iff` says that the order is right exactly if the ids of the
selected mounts rise towards the nested ones.
-/

set_option autoImplicit false

namespace NeoZygisk.Unmount

open NeoZygisk.Common
open NeoZygisk.Lib.Mask
open NeoZygisk.Lib.Selection

/-! ## Mount trees -/

/-- `child` is mounted on `parent`, both in the table. The top of a tree is its own parent. -/
def MountedOn (infos : List MountInfo) (child parent : MountInfo) : Prop :=
  child ∈ infos ∧ parent ∈ infos ∧ child.parent = parent.id ∧ child.id ≠ parent.id

/-- `info` is nested in `outer`, at any depth. -/
def Below (infos : List MountInfo) : MountInfo → MountInfo → Prop :=
  Relation.TransGen (MountedOn infos)

/-- A mount table whose ids are distinct and whose parent links form a forest. -/
structure MountTable where
  infos : List MountInfo
  distinct : (infos.map (·.id)).Nodup
  forest : ∀ info, ¬ Below infos info info

theorem Below.mem {infos : List MountInfo} {info outer : MountInfo} (h : Below infos info outer) :
    info ∈ infos ∧ outer ∈ infos := by
  induction h with
  | single h => exact ⟨h.1, h.2.1⟩
  | tail _ h ih => exact ⟨ih.1, h.2.1⟩

/-- A rank that rises with every parent link rules out cycles. -/
theorem forest_of_rank {infos : List MountInfo} (rank : MountInfo → Nat)
    (h : ∀ child parent, MountedOn infos child parent → rank parent < rank child) (info : MountInfo) :
    ¬ Below infos info info := by
  have hlt : ∀ {a b}, Below infos a b → rank b < rank a := by
    intro a b hab
    induction hab with
    | single hab => exact h _ _ hab
    | tail _ hbc ih => exact Nat.lt_trans (h _ _ hbc) ih
  intro hcycle
  exact Nat.lt_irrefl _ (hlt hcycle)

namespace MountTable

variable (table : MountTable)

/-- What `umount2` with `MNT_DETACH` on a mount leaves: the mount is gone, and all that is nested in it. -/
def detach (attached : Set MountInfo) (id : Nat) : Set MountInfo :=
  {info ∈ attached | info.id ≠ id ∧ ∀ outer, outer.id = id → ¬ Below table.infos info outer}

/-- What is attached after mounts were unmounted one after the other. -/
def attachedAfter (ids : List Nat) : Set MountInfo := ids.foldl table.detach {info | info ∈ table.infos}

/-- No mount is unmounted before one that is nested in it. -/
def ChildFirst (ids : List Nat) : Prop :=
  ∀ info outer, Below table.infos info outer → ¬ ComesBefore ids outer.id info.id

/-- Every mount is still attached when its turn comes. -/
def MeetsTargets (ids : List Nat) : Prop :=
  ∀ before id after, ids = before ++ id :: after →
    ∀ info ∈ table.infos, info.id = id → info ∈ table.attachedAfter before

variable {table}

theorem mem_attachedAfter {ids : List Nat} {info : MountInfo} :
    info ∈ table.attachedAfter ids ↔
      info ∈ table.infos ∧ ∀ id ∈ ids, info.id ≠ id ∧ ∀ outer, outer.id = id →
        ¬ Below table.infos info outer := by
  have hfold : ∀ attached : Set MountInfo, info ∈ ids.foldl table.detach attached ↔
      info ∈ attached ∧ ∀ id ∈ ids, info.id ≠ id ∧ ∀ outer, outer.id = id →
        ¬ Below table.infos info outer := by
    induction ids with
    | nil => simp
    | cons id ids ih =>
        intro attached
        rw [List.foldl_cons, ih]
        simp only [detach, Set.mem_ofPred_eq, List.forall_mem_cons, and_assoc]
  exact hfold _

/-- Child first is what it takes for every mount to be there when its turn comes. -/
theorem meetsTargets_iff {ids : List Nat} (hids : ids.Nodup) :
    table.MeetsTargets ids ↔ table.ChildFirst ids := by
  constructor
  · intro h info outer hbelow hbefore
    obtain ⟨before, after, rfl, houter⟩ := hbefore.split
    have hattached := h before info.id after rfl info hbelow.mem.1 rfl
    exact ((mem_attachedAfter.mp hattached).2 outer.id houter).2 outer rfl hbelow
  · rintro h before id after rfl info hinfo rfl
    refine mem_attachedAfter.mpr ⟨hinfo, ?_⟩
    intro id hid
    constructor
    · rintro rfl
      -- no id is listed twice
      exact (List.nodup_append.mp hids).2.2 _ hid _ List.mem_cons_self rfl
    · rintro outer rfl hbelow
      exact h info outer hbelow (comesBefore_of_split hid)

/-- Of the mounts that `p` selects, nested ones have larger ids than those they are nested in. -/
def RisingIds (table : MountTable) (p : MountInfo → Bool) : Prop :=
  ∀ info outer, Below table.infos info outer → p info = true → p outer = true → outer.id < info.id

/-- The order of falling ids is child first exactly if the ids rise. -/
theorem childFirst_selectDesc_iff (p : MountInfo → Bool) :
    table.ChildFirst ((selectDesc (·.id) p table.infos).map (·.id)) ↔ table.RisingIds p := by
  have hone : ∀ info outer, Below table.infos info outer → info.id ≠ outer.id := by
    intro info outer hbelow heq
    obtain ⟨hinfo, houter⟩ := hbelow.mem
    rw [List.inj_on_of_nodup_map table.distinct hinfo houter heq] at hbelow
    exact table.forest outer hbelow
  constructor
  · intro h info outer hbelow hinfo houter
    have hne := hone info outer hbelow
    have hbefore := h info outer hbelow
    rw [comesBefore_selectDesc_iff table.distinct hbelow.mem.2 hbelow.mem.1] at hbefore
    simp only [houter, hinfo, true_and] at hbefore
    omega
  · intro h info outer hbelow hbefore
    rw [comesBefore_selectDesc_iff table.distinct hbelow.mem.2 hbelow.mem.1] at hbefore
    obtain ⟨houter, hinfo, hlt⟩ := hbefore
    have hrises := h info outer hbelow hinfo houter
    omega

theorem nodup_selectDesc (p : MountInfo → Bool) :
    ((selectDesc (·.id) p table.infos).map (·.id)).Nodup :=
  (pairwise_map_selectDesc table.distinct).imp fun h => Nat.ne_of_gt h

end MountTable

/-! ## The two orders -/

/-- `should_unmount` of `check_zygote_traces` for the flags; without a root implementation it selects
nothing. -/
def selectedByFlags (infoFlags : Flags) (mountInfos : List MountInfo) (info : MountInfo) : Bool :=
  match mountSourceName infoFlags with
  | none => false
  | some sourceName =>
      shouldUnmount sourceName (if isKernelsu infoFlags then kernelSuModuleSource mountInfos else none) info

/-- `should_unmount` of `clean_mount_namespace` on the daemon's view of a record. -/
def selectedByDaemon (root : RootImpl) (mountInfos : List MountInfo) (info : MountInfo) : Bool :=
  daemonShouldUnmount root (ksuModuleSource root (mountInfos.map procfsView)) (procfsView info)

theorem checkZygoteTraces_eq (infoFlags : Flags) (mountInfos : List MountInfo) :
    checkZygoteTraces infoFlags mountInfos =
      selectDesc (·.id) (selectedByFlags infoFlags mountInfos) mountInfos := by
  simp only [checkZygoteTraces]
  cases hname : mountSourceName infoFlags with
  | none =>
      have hnone : selectDesc (·.id) (selectedByFlags infoFlags mountInfos) mountInfos = [] := by
        apply List.eq_nil_iff_forall_not_mem.mpr
        intro info hinfo
        have hsel := (mem_selectDesc.mp hinfo).2
        simp [selectedByFlags, hname] at hsel
      exact hnone.symm
  | some sourceName =>
      apply selectDesc_congr
      intro info _
      simp only [selectedByFlags, hname]

theorem map_mntId_unmountTargets (root : RootImpl) (mountInfos : List MountInfo) :
    (unmountTargets root (mountInfos.map procfsView)).map (·.mntId) =
      (selectDesc (·.id) (selectedByDaemon root mountInfos) mountInfos).map (·.id) := by
  have hmap : (selectDesc (·.id) (selectedByDaemon root mountInfos) mountInfos).map procfsView =
      unmountTargets root (mountInfos.map procfsView) :=
    map_selectDesc procfsView mountInfos (fun _ => rfl) fun _ _ => rfl
  rw [← hmap, List.map_map]
  rfl

/-- The ids in the order of `check_zygote_traces`, in which `nativeForkAndSpecialize_pre` unmounts. -/
def zygoteOrder (infoFlags : Flags) (mountInfos : List MountInfo) : List Nat :=
  (checkZygoteTraces infoFlags mountInfos).map (·.id)

/-- The ids in the order of `clean_mount_namespace`. -/
def daemonOrder (root : RootImpl) (mountInfos : List MountInfo) : List Nat :=
  (unmountTargets root (mountInfos.map procfsView)).map (·.mntId)

/-- For both strategies: nested mounts go first and every `umount2` meets its own target, exactly if the ids of
the selected mounts rise towards the nested ones. -/
theorem unmount_order_iff (infoFlags : Flags) (root : RootImpl) (table : MountTable) :
    (table.ChildFirst (zygoteOrder infoFlags table.infos) ∧
        table.MeetsTargets (zygoteOrder infoFlags table.infos) ↔
      table.RisingIds (selectedByFlags infoFlags table.infos)) ∧
    (table.ChildFirst (daemonOrder root table.infos) ∧
        table.MeetsTargets (daemonOrder root table.infos) ↔
      table.RisingIds (selectedByDaemon root table.infos)) := by
  have horder : ∀ p : MountInfo → Bool,
      (table.ChildFirst ((selectDesc (·.id) p table.infos).map (·.id)) ∧
        table.MeetsTargets ((selectDesc (·.id) p table.infos).map (·.id))) ↔ table.RisingIds p := by
    intro p
    rw [MountTable.meetsTargets_iff (MountTable.nodup_selectDesc p), and_self]
    exact MountTable.childFirst_selectDesc_iff p
  constructor
  · rw [zygoteOrder, checkZygoteTraces_eq]
    exact horder _
  · rw [daemonOrder, map_mntId_unmountTargets]
    exact horder _

/-! ## A reused id -/

/-- The module directory was mounted as number 40; later a module file was mounted below it and got the free
number 25. -/
def reusedId : MountTable where
  infos := [mountAt 40 "/data/adb/modules" "/dev/block/loop3",
    { mountAt 25 "/data/adb/modules/hosts" "/dev/block/loop3" with parent := 40 }]
  distinct := by decide
  forest := by
    apply forest_of_rank fun info => if info.id = 40 then 0 else 1
    rintro child parent ⟨hchild, hparent, hlink, hne⟩
    simp only [List.mem_cons, List.not_mem_nil, or_false] at hchild hparent
    rcases hchild with rfl | rfl <;> rcases hparent with rfl | rfl <;> simp_all [mountAt]

/-- Both strategies unmount the directory before the file in it. -/
theorem reusedId_not_childFirst :
    ¬ (reusedId.ChildFirst (zygoteOrder PROCESS_ROOT_IS_MAGISK reusedId.infos) ∧
      reusedId.MeetsTargets (zygoteOrder PROCESS_ROOT_IS_MAGISK reusedId.infos)) ∧
    ¬ (reusedId.ChildFirst (daemonOrder .magisk reusedId.infos) ∧
      reusedId.MeetsTargets (daemonOrder .magisk reusedId.infos)) := by
  have hbelow : Below reusedId.infos
      { mountAt 25 "/data/adb/modules/hosts" "/dev/block/loop3" with parent := 40 }
      (mountAt 40 "/data/adb/modules" "/dev/block/loop3") :=
    .single ⟨by simp [reusedId], by simp [reusedId], rfl, by simp [mountAt]⟩
  have hzygote : zygoteOrder PROCESS_ROOT_IS_MAGISK reusedId.infos = [40, 25] := by decide
  have hdaemon : daemonOrder .magisk reusedId.infos = [40, 25] := by decide
  rw [hzygote, hdaemon]
  exact ⟨fun h => h.1 _ _ hbelow (List.Sublist.refl _), fun h => h.1 _ _ hbelow (List.Sublist.refl _)⟩

end NeoZygisk.Unmount
