import NeoZygisk.Lib.Mask

/-!
# Process flags and the root implementation

The 32-bit words that the daemon and the injector exchange. `handleGetProcessFlags` is the daemon's
answer for a uid: the manager bit excludes the granted-root and denylist bits, and the detected root
implementation contributes one bit, or none when it is absent, too old or ambiguous. The root bits
of an answer name the implementation and nothing else (`has_apatch_handleGetProcessFlags` and its two
siblings), whatever the uid.
-/

set_option autoImplicit false

namespace NeoZygisk.Common

open NeoZygisk.Lib.Mask

/-- A `uint32_t` of flags. -/
abbrev Flags := BitVec 32

/-- A `uid_t`. -/
abbrev Uid := BitVec 32

/-! ## Flags of a process, as answered by the daemon -/

def PROCESS_GRANTED_ROOT : Flags := 1#32 <<< 0
def PROCESS_ON_DENYLIST : Flags := 1#32 <<< 1
def PROCESS_IS_MANAGER : Flags := 1#32 <<< 27
def PROCESS_ROOT_IS_APATCH : Flags := 1#32 <<< 28
def PROCESS_ROOT_IS_KSU : Flags := 1#32 <<< 29
def PROCESS_ROOT_IS_MAGISK : Flags := 1#32 <<< 30

/-- The bits `getFlags` hides from modules. -/
def PRIVATE_MASK : Flags :=
  PROCESS_IS_MANAGER ||| PROCESS_ROOT_IS_APATCH ||| PROCESS_ROOT_IS_KSU ||| PROCESS_ROOT_IS_MAGISK

def UNMOUNT_MASK : Flags := PROCESS_ON_DENYLIST

/-! ## Flags of a specialization, kept in a `ZygiskContext` -/

def POST_SPECIALIZE : Flags := 1#32 <<< 0
def APP_FORK_AND_SPECIALIZE : Flags := 1#32 <<< 1
def APP_SPECIALIZE : Flags := 1#32 <<< 2
def SERVER_FORK_AND_SPECIALIZE : Flags := 1#32 <<< 3
def DO_REVERT_UNMOUNT : Flags := 1#32 <<< 4
def SKIP_CLOSE_LOG_PIPE : Flags := 1#32 <<< 5

/-! ## The root implementation -/

/-- The detected root solution, cached by the daemon at startup. -/
inductive RootImpl where
  | none
  | tooOld
  | multiple
  | apatch
  | kernelSU
  | magisk
  deriving DecidableEq, Repr

/-- The three solutions the daemon works with. -/
def RootImpl.supported : RootImpl → Bool
  | .apatch | .kernelSU | .magisk => true
  | _ => false

/-- What the root manager's own database answers about a uid. -/
structure RootQueries where
  isManager : Int → Bool
  grantedRoot : Int → Bool
  shouldUmount : Int → Bool

/-- `uid_is_manager`, `uid_granted_root` and `uid_should_umount` ask the active solution, and answer
no without one. -/
def rootQuery (root : RootImpl) (query : Int → Bool) (uid : Int) : Bool :=
  match root with
  | .apatch | .kernelSU | .magisk => query uid
  | _ => false

def uidIsManager (root : RootImpl) (q : RootQueries) : Int → Bool := rootQuery root q.isManager
def uidGrantedRoot (root : RootImpl) (q : RootQueries) : Int → Bool := rootQuery root q.grantedRoot
def uidShouldUmount (root : RootImpl) (q : RootQueries) : Int → Bool :=
  rootQuery root q.shouldUmount

/-- The flag of the root implementation; no flag for `none`, `tooOld` and `multiple`. -/
def rootFlag : RootImpl → Flags
  | .apatch => PROCESS_ROOT_IS_APATCH
  | .kernelSU => PROCESS_ROOT_IS_KSU
  | .magisk => PROCESS_ROOT_IS_MAGISK
  | _ => 0#32

/-- The flags that depend on the uid: a manager is reported as nothing else. -/
def uidFlags (root : RootImpl) (q : RootQueries) (uid : Int) : Flags :=
  if uidIsManager root q uid then PROCESS_IS_MANAGER
  else
    (if uidGrantedRoot root q uid then PROCESS_GRANTED_ROOT else 0#32) |||
      (if uidShouldUmount root q uid then PROCESS_ON_DENYLIST else 0#32)

/-- The answer to `GetProcessFlags`; the uid arrives as a `u32` and is read as an `i32`. -/
def handleGetProcessFlags (root : RootImpl) (q : RootQueries) (uid : Uid) : Flags :=
  uidFlags root q uid.toInt ||| rootFlag root

/-- The uid never sets a bit of a mask that is disjoint from the three uid flags. -/
theorem has_uidFlags_eq_false {m : Flags} (hm : has PROCESS_IS_MANAGER m = false)
    (hg : has PROCESS_GRANTED_ROOT m = false) (hd : has PROCESS_ON_DENYLIST m = false)
    (root : RootImpl) (q : RootQueries) (uid : Int) : has (uidFlags root q uid) m = false := by
  simp only [uidFlags]
  split
  · exact hm
  · split <;> split <;> simp [hg, hd]

/-- On such a mask the answer is the flag of the root implementation. -/
theorem has_handleGetProcessFlags {m : Flags} (hm : has PROCESS_IS_MANAGER m = false)
    (hg : has PROCESS_GRANTED_ROOT m = false) (hd : has PROCESS_ON_DENYLIST m = false)
    (root : RootImpl) (q : RootQueries) (uid : Uid) :
    has (handleGetProcessFlags root q uid) m = has (rootFlag root) m := by
  rw [handleGetProcessFlags, has_or, has_uidFlags_eq_false hm hg hd, Bool.false_or]

@[simp] theorem has_apatch_handleGetProcessFlags (root : RootImpl) (q : RootQueries) (uid : Uid) :
    has (handleGetProcessFlags root q uid) PROCESS_ROOT_IS_APATCH = (root == .apatch) := by
  rw [has_handleGetProcessFlags (by decide) (by decide) (by decide)]
  cases root <;> decide

@[simp] theorem has_ksu_handleGetProcessFlags (root : RootImpl) (q : RootQueries) (uid : Uid) :
    has (handleGetProcessFlags root q uid) PROCESS_ROOT_IS_KSU = (root == .kernelSU) := by
  rw [has_handleGetProcessFlags (by decide) (by decide) (by decide)]
  cases root <;> decide

@[simp] theorem has_magisk_handleGetProcessFlags (root : RootImpl) (q : RootQueries) (uid : Uid) :
    has (handleGetProcessFlags root q uid) PROCESS_ROOT_IS_MAGISK = (root == .magisk) := by
  rw [has_handleGetProcessFlags (by decide) (by decide) (by decide)]
  cases root <;> decide

end NeoZygisk.Common
