import NeoZygisk.Common.ProcessFlags
import NeoZygisk.Lib.Selection

/-!
# The two unmount strategies

The mounts that betray a root solution are selected twice: by `check_zygote_traces` in the injector,
from the process flags, and by `clean_mount_namespace` in the daemon, from the detected root
implementation. Both take the entries whose root or mount point lies in the module directory, whose
source is the solution's name, or, under KernelSU, whose source is the loop device mounted on the
module directory; both list them by descending mount id.

The two disagree on which loop device that is. The injector takes the first mount on the module
directory that has a loop device as its source; the daemon takes the first mount on the module
directory and then asks whether its source is a loop device. `checkZygoteTraces_agrees_iff` says for
which mount tables the two selections are nevertheless equal, and `stackedMounts_disagree` is a
table on which they are not.
-/

set_option autoImplicit false

namespace NeoZygisk.Unmount

open NeoZygisk.Common
open NeoZygisk.Lib.Mask
open NeoZygisk.Lib.Selection

/-! ## Mount tables -/

/-- One record of `/proc/self/mountinfo`, as `parse_mount_info` fills it. -/
structure MountInfo where
  id : Nat
  parent : Nat
  device : Nat
  root : String
  target : String
  vfsOptions : String
  type : String
  source : String
  fsOptions : String
  rawInfo : String
  deriving DecidableEq, Repr

/-- The fields of a record that the procfs crate hands to the daemon. -/
structure ProcfsMountInfo where
  mntId : Nat
  root : String
  mountPoint : String
  mountSource : Option String
  deriving DecidableEq, Repr

/-- The daemon's view of a record: the source `none` becomes `None`. -/
def procfsView (info : MountInfo) : ProcfsMountInfo where
  mntId := info.id
  root := info.root
  mountPoint := info.target
  mountSource := if info.source = "none" then none else some info.source

/-- `str.rfind(prefix, 0) == 0` in C++, `str.starts_with(prefix)` in Rust. -/
def startsWith (str pre : String) : Bool := pre.toList.isPrefixOf str.toList

def modulesDir : String := "/data/adb/modules"
def loopDevice : String := "/dev/block/loop"

/-! ## The injector's selection -/

/-- The source name of the solution whose flag is set, in the order the flags are tested. -/
def mountSourceName (infoFlags : Flags) : Option String :=
  if has infoFlags PROCESS_ROOT_IS_APATCH then some "APatch"
  else if has infoFlags PROCESS_ROOT_IS_KSU then some "KSU"
  else if has infoFlags PROCESS_ROOT_IS_MAGISK then some "magisk"
  else none

/-- `is_kernelsu` is set by the second branch only. -/
def isKernelsu (infoFlags : Flags) : Bool :=
  !has infoFlags PROCESS_ROOT_IS_APATCH && has infoFlags PROCESS_ROOT_IS_KSU

/-- The source of the first mount on the module directory whose source is a loop device. -/
def kernelSuModuleSource (mountInfos : List MountInfo) : Option String :=
  (mountInfos.find? fun info => info.target == modulesDir && startsWith info.source loopDevice).map
    (·.source)

/-- Selected by its own root or target, whatever the root solution. -/
def inModulesDir (info : MountInfo) : Bool :=
  startsWith info.root "/adb/modules" || startsWith info.target modulesDir

/-- `should_unmount` of `check_zygote_traces`. An empty `kernel_su_module_source` is `none`. -/
def shouldUnmount (sourceName : String) (ksuSource : Option String) (info : MountInfo) : Bool :=
  inModulesDir info || info.source == sourceName || some info.source == ksuSource

/-- The traces of root in a mount table, by descending mount id. -/
def checkZygoteTraces (infoFlags : Flags) (mountInfos : List MountInfo) : List MountInfo :=
  match mountSourceName infoFlags with
  | none => []
  | some sourceName =>
      let ksuSource := if isKernelsu infoFlags then kernelSuModuleSource mountInfos else none
      selectDesc (·.id) (shouldUnmount sourceName ksuSource) mountInfos

/-- Whether `nativeForkAndSpecialize_pre` must not unmount the listed traces from the zygote: there
are none, or one of them shadows `/product` in a way the zygote needs. -/
def abortZygoteUnmount (traces : List MountInfo) (infoFlags : Flags) : Bool :=
  traces.isEmpty ||
    traces.any fun trace =>
      startsWith trace.target "/product" && !startsWith trace.target "/product/bin" &&
        (has infoFlags PROCESS_ROOT_IS_MAGISK || trace.target == "/product")

/-! ## The daemon's selection -/

def rootSource : RootImpl → Option String
  | .apatch => some "APatch"
  | .kernelSU => some "KSU"
  | .magisk => some "magisk"
  | _ => none

/-- The source of the first mount on the module directory, if that is a loop device. -/
def ksuModuleSource (root : RootImpl) (mountInfos : List ProcfsMountInfo) : Option String :=
  if root == .kernelSU then
    ((mountInfos.find? fun info => info.mountPoint == modulesDir).bind (·.mountSource)).filter
      fun source => startsWith source loopDevice
  else none

/-- `should_unmount` of `clean_mount_namespace`. -/
def daemonShouldUnmount (root : RootImpl) (ksuSource : Option String) (info : ProcfsMountInfo) :
    Bool :=
  startsWith info.root "/adb/modules" || startsWith info.mountPoint modulesDir ||
    ((rootSource root).isSome && info.mountSource == rootSource root) ||
      (ksuSource.isSome && info.mountSource == ksuSource)

/-- The mounts `clean_mount_namespace` unmounts, in the order it does. -/
def unmountTargets (root : RootImpl) (mountInfos : List ProcfsMountInfo) : List ProcfsMountInfo :=
  selectDesc (·.mntId) (daemonShouldUnmount root (ksuModuleSource root mountInfos)) mountInfos

/-! ## Agreement -/

theorem mountSourceName_handleGetProcessFlags (root : RootImpl) (q : RootQueries) (uid : Uid) :
    mountSourceName (handleGetProcessFlags root q uid) = rootSource root := by
  simp only [mountSourceName, has_apatch_handleGetProcessFlags, has_ksu_handleGetProcessFlags,
    has_magisk_handleGetProcessFlags]
  cases root <;> rfl

theorem isKernelsu_handleGetProcessFlags (root : RootImpl) (q : RootQueries) (uid : Uid) :
    isKernelsu (handleGetProcessFlags root q uid) = (root == .kernelSU) := by
  simp only [isKernelsu, has_apatch_handleGetProcessFlags, has_ksu_handleGetProcessFlags]
  cases root <;> rfl

/-- The injector's selection, for flags the daemon answered. -/
theorem checkZygoteTraces_handleGetProcessFlags {root : RootImpl} {sourceName : String}
    (hroot : rootSource root = some sourceName) (q : RootQueries) (uid : Uid)
    (mountInfos : List MountInfo) :
    checkZygoteTraces (handleGetProcessFlags root q uid) mountInfos =
      selectDesc (·.id)
        (shouldUnmount sourceName
          (if root == .kernelSU then kernelSuModuleSource mountInfos else none)) mountInfos := by
  rw [checkZygoteTraces, mountSourceName_handleGetProcessFlags, hroot, isKernelsu_handleGetProcessFlags]

/-- A loop device is not the pseudo source `none`. -/
theorem ne_none_of_loopDevice {source : String} (h : startsWith source loopDevice = true) :
    source ≠ "none" := by
  rintro rfl
  exact absurd h (by decide)

theorem kernelSuModuleSource_eq_some {mountInfos : List MountInfo} {source : String}
    (h : kernelSuModuleSource mountInfos = some source) : startsWith source loopDevice = true := by
  obtain ⟨info, hinfo, rfl⟩ := Option.map_eq_some_iff.mp h
  have hp := List.find?_some hinfo
  simp only [Bool.and_eq_true] at hp
  exact hp.2

/-- The daemon's loop device in terms of the injector's records. -/
theorem ksuModuleSource_map_procfsView (root : RootImpl) (mountInfos : List MountInfo) :
    ksuModuleSource root (mountInfos.map procfsView) =
      if root == .kernelSU then
        ((mountInfos.find? fun info => info.target == modulesDir).map (·.source)).filter
          fun source => startsWith source loopDevice
      else none := by
  simp only [ksuModuleSource]
  split
  · rw [List.find?_map]
    -- both sides look for the same first mount on the module directory
    have hcomp : ((fun info : ProcfsMountInfo => info.mountPoint == modulesDir) ∘ procfsView) =
        fun info : MountInfo => info.target == modulesDir := rfl
    rw [hcomp]
    cases mountInfos.find? fun info => info.target == modulesDir with
    | none => rfl
    | some info =>
        -- the pseudo source is dropped by the view, and is no loop device either
        by_cases hnone : info.source = "none"
        · simp only [Option.map_some, Option.bind_some, procfsView, hnone, if_true]
          decide
        · simp [procfsView, hnone]
  · rfl

/-- On the view of a record, the daemon's test is the injector's with the daemon's loop device. -/
theorem daemonShouldUnmount_procfsView {root : RootImpl} {sourceName : String}
    (hroot : rootSource root = some sourceName) {ksuSource : Option String}
    (hksu : ∀ source, ksuSource = some source → startsWith source loopDevice = true)
    (info : MountInfo) :
    daemonShouldUnmount root ksuSource (procfsView info) =
      shouldUnmount sourceName ksuSource info := by
  have hname : sourceName ≠ "none" := by
    cases root <;> simp [rootSource] at hroot <;> subst hroot <;> decide
  simp only [daemonShouldUnmount, shouldUnmount, inModulesDir, procfsView, hroot]
  -- a record without a source compares unequal to every name on both sides
  by_cases hnone : info.source = "none"
  · have hsource : ("none" == sourceName) = false := beq_eq_false_iff_ne.mpr hname.symm
    cases ksuSource with
    | none => simp [hnone, hsource]
    | some source =>
        have hloop : ("none" == source) = false :=
          beq_eq_false_iff_ne.mpr (ne_none_of_loopDevice (hksu source rfl)).symm
        simp [hnone, hsource, hloop]
  · cases ksuSource with
    | none => simp [hnone]
    | some source => simp [hnone]

/-- The daemon's selection, on the views of the injector's records. -/
theorem unmountTargets_map_procfsView {root : RootImpl} {sourceName : String}
    (hroot : rootSource root = some sourceName) (mountInfos : List MountInfo) :
    unmountTargets root (mountInfos.map procfsView) =
      (selectDesc (·.id)
        (shouldUnmount sourceName (ksuModuleSource root (mountInfos.map procfsView)))
          mountInfos).map procfsView := by
  rw [unmountTargets]
  symm
  refine map_selectDesc procfsView mountInfos (fun _ => rfl) ?_
  intro info _
  apply daemonShouldUnmount_procfsView hroot
  intro source h
  rw [ksuModuleSource_map_procfsView] at h
  split at h
  · exact (Option.filter_eq_some_iff.mp h).2
  · cases h

/-- If the first entry with `p` also has `q`, it is the first entry with both. -/
theorem find?_and_of_find? {p q : MountInfo → Bool} {l : List MountInfo} {e : MountInfo}
    (h : l.find? p = some e) (hq : q e = true) : (l.find? fun a => p a && q a) = some e := by
  induction l with
  | nil => cases h
  | cons a l ih =>
      cases hp : p a with
      | true =>
          rw [List.find?_cons_of_pos hp] at h
          obtain rfl := Option.some.inj h
          rw [List.find?_cons_of_pos (by simp [hp, hq])]
      | false =>
          rw [List.find?_cons_of_neg (by simp [hp])] at h
          rw [List.find?_cons_of_neg (by simp [hp])]
          exact ih h

/-- The loop device of the module directory is found by both sides, or the daemon's missing it costs
no selected mount. The daemon misses it when the first mount on the module directory is not a loop
mount although a later one is; what it then loses are the mounts of that device elsewhere. -/
def LoopSourceAgreed (mountInfos : List MountInfo) : Prop :=
  ∀ first, (mountInfos.find? fun info => info.target == modulesDir) = some first →
    startsWith first.source loopDevice = false →
      ∀ source, kernelSuModuleSource mountInfos = some source →
        ∀ info ∈ mountInfos, info.source = source → inModulesDir info = true

/-- Under KernelSU, the tests with the two loop devices agree on every record exactly when the loop
device is agreed on. -/
theorem shouldUnmount_ksu_agree_iff (mountInfos : List MountInfo) :
    (∀ info ∈ mountInfos,
      shouldUnmount "KSU" (kernelSuModuleSource mountInfos) info =
        shouldUnmount "KSU" (ksuModuleSource .kernelSU (mountInfos.map procfsView)) info) ↔
      LoopSourceAgreed mountInfos := by
  rw [ksuModuleSource_map_procfsView]
  simp only [beq_self_eq_true, if_true]
  simp only [LoopSourceAgreed]
  -- what the daemon finds depends on the first mount on the module directory alone
  cases hfirst : mountInfos.find? fun info => info.target == modulesDir with
  | none =>
      have hksu : kernelSuModuleSource mountInfos = none := by
        rw [kernelSuModuleSource, Option.map_eq_none_iff, List.find?_eq_none]
        intro info hinfo
        have := List.find?_eq_none.mp hfirst info hinfo
        simp_all
      simp [hksu]
  | some first =>
      cases hloop : startsWith first.source loopDevice with
      | true =>
          -- the first mount is a loop mount: both sides take its device
          have hksu : kernelSuModuleSource mountInfos = some first.source := by
            rw [kernelSuModuleSource, find?_and_of_find? hfirst hloop]
            rfl
          simp [hksu, hloop, Option.filter]
      | false =>
          -- the daemon finds nothing, so the injector's device must select nothing of its own
          simp only [Option.map_some, Option.filter, hloop, Option.some.injEq, forall_eq',
            forall_const, Bool.false_eq_true, if_false]
          cases hksu : kernelSuModuleSource mountInfos with
          | none => simp
          | some source =>
              have hname : source ≠ "KSU" := by
                rintro rfl
                exact absurd (kernelSuModuleSource_eq_some hksu) (by decide)
              simp only [Option.some.injEq, forall_eq']
              apply forall_congr'
              intro info
              apply forall_congr'
              intro _
              by_cases hs : info.source = source
              · simp [shouldUnmount, hs, hname]
              · simp [shouldUnmount, hs]

/-- On a mount table with distinct ids and under a supported root implementation, the injector and
the daemon select the same mounts in the same order exactly when the root implementation is not
KernelSU or the loop device of the module directory is agreed on. -/
theorem checkZygoteTraces_agrees_iff (root : RootImpl) (hroot : root.supported = true)
    (q : RootQueries) (uid : Uid) (mountInfos : List MountInfo)
    (hids : (mountInfos.map (·.id)).Nodup) :
    (checkZygoteTraces (handleGetProcessFlags root q uid) mountInfos).map procfsView =
        unmountTargets root (mountInfos.map procfsView) ↔
      (root = .kernelSU → LoopSourceAgreed mountInfos) := by
  obtain ⟨sourceName, hname⟩ : ∃ sourceName, rootSource root = some sourceName := by
    cases root <;> first | exact ⟨_, rfl⟩ | cases hroot
  -- both selections are over one table, so they are equal when the tests agree on every record
  rw [checkZygoteTraces_handleGetProcessFlags hname, unmountTargets_map_procfsView hname,
    map_selectDesc_eq_iff MountInfo.id ProcfsMountInfo.mntId procfsView (fun _ => rfl) hids]
  cases root with
  | kernelSU =>
      obtain rfl : "KSU" = sourceName := Option.some.inj hname
      simpa using shouldUnmount_ksu_agree_iff mountInfos
  | apatch => simp [ksuModuleSource]
  | magisk => simp [ksuModuleSource]
  | none => cases hroot
  | tooOld => cases hroot
  | multiple => cases hroot

/-- A record with the given id, target and source; the other fields do not matter here. -/
def mountAt (id : Nat) (target source : String) : MountInfo where
  id := id
  parent := 1
  device := 0
  root := "/"
  target := target
  vfsOptions := ""
  type := "ext4"
  source := source
  fsOptions := ""
  rawInfo := ""

/-- A bind mount on the module directory, the KernelSU module image stacked over it, and one module
file mounted from that image. -/
def stackedMounts : List MountInfo :=
  [mountAt 20 "/data/adb/modules" "/dev/block/dm-5",
    mountAt 21 "/data/adb/modules" "/dev/block/loop3",
    mountAt 22 "/system/etc/hosts" "/dev/block/loop3"]

/-- A root manager that answers no to everything. -/
def noQueries : RootQueries := ⟨fun _ => false, fun _ => false, fun _ => false⟩

/-- On the stacked table the injector unmounts `/system/etc/hosts` and the daemon leaves it. -/
theorem stackedMounts_disagree :
    (checkZygoteTraces (handleGetProcessFlags .kernelSU noQueries 0#32) stackedMounts).map
        procfsView ≠
      unmountTargets .kernelSU (stackedMounts.map procfsView) := by
  decide

/-- Without the bind mount below it, the image is found by both. -/
theorem checkZygoteTraces_agrees_unstacked :
    (checkZygoteTraces (handleGetProcessFlags .kernelSU noQueries 0#32) stackedMounts.tail).map
        procfsView =
      unmountTargets .kernelSU (stackedMounts.tail.map procfsView) := by
  refine (checkZygoteTraces_agrees_iff .kernelSU (by decide) noQueries 0#32 stackedMounts.tail
    (by decide)).mpr fun _ first hfirst hloop => ?_
  have hhead : first = mountAt 21 "/data/adb/modules" "/dev/block/loop3" := by
    have hfind : (stackedMounts.tail.find? fun info => info.target == modulesDir) =
        some (mountAt 21 "/data/adb/modules" "/dev/block/loop3") := by decide
    exact Option.some.inj (hfirst.symm.trans hfind)
  subst hhead
  exact absurd hloop (by decide)

end NeoZygisk.Unmount
