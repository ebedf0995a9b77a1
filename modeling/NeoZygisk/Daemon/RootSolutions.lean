import NeoZygisk.Daemon.MagiskDenylist
import NeoZygisk.Lib.FormattedInput

/-!
# The root solutions

The daemon works with APatch, KernelSU and Magisk. At startup it finds out which of them is active; from then on it
asks that one about every uid, through a file, the kernel or a program, depending on the solution and its version.
KernelSU has two interfaces, of which the older one is tried only if the newer one is of no use.

`Device` is what a process that runs as root gets to see, and `Setup` what is found out once and then kept.
-/

set_option autoImplicit false

namespace NeoZygisk.Daemon.RootSolutions

open NeoZygisk.Common
open NeoZygisk.Daemon.MagiskDenylist
open NeoZygisk.Lib.FormattedInput (value isDigitOf)
open NeoZygisk.Lib.Text

abbrev Text := List Char

def MIN_APATCH_VERSION : Int := 10762
def MIN_KSU_VERSION : Int := 10940
def MIN_MAGISK_VERSION : Int := 26402

/-! ## Texts -/

/-- `str::parse` into an integer type with the given bounds. Unsigned types take no minus. -/
def parseInt (low high : Int) (text : Text) : Option Int :=
  let (negative, digits) :=
    match text with
    | '+' :: rest => (false, rest)
    | '-' :: rest => if low < 0 then (true, rest) else (false, text)
    | _ => (false, text)
  if digits = [] ∨ digits.all (isDigitOf 10) = false then none
  else
    let n : Int := if negative then -(value 10 digits : Int) else value 10 digits
    if low ≤ n ∧ n ≤ high then some n else none

def parseI32 : Text → Option Int := parseInt (-2 ^ 31) (2 ^ 31 - 1)

def parseU8 : Text → Option Int := parseInt 0 255

/-- `str::split_whitespace`. -/
def splitWhitespace (text : Text) : List Text := (text.splitOnP isWhitespace).filter fun w => !w.isEmpty

/-! ## KernelSU -/

/-- The commands for the driver of KernelSU. -/
inductive Request where
  | getInfo
  | uidGrantedRoot
  | uidShouldUmount
  | getManagerUid
  | setFeature

/-- The numbers of the commands: `_IOC(dir, 'K', nr, 0)`. -/
def Request.code : Request → BitVec 32
  | .getInfo => 0x80004B02#32
  | .uidGrantedRoot => 0xC0004B08#32
  | .uidShouldUmount => 0xC0004B09#32
  | .getManagerUid => 0x80004B0A#32
  | .setFeature => 0x40004B0E#32

structure KsuGetInfoCmd where
  version : BitVec 32
  flags : BitVec 32
  features : BitVec 32

structure KsuUidGrantedRootCmd where
  uid : BitVec 32
  granted : BitVec 8

structure KsuUidShouldUmountCmd where
  uid : BitVec 32
  shouldUmount : BitVec 8

structure KsuGetManagerUidCmd where
  uid : BitVec 32

structure KsuSetFeatureCmd where
  featureId : BitVec 32
  value : BitVec 64

/-- The struct that a command passes. -/
abbrev Request.Cmd : Request → Type
  | .getInfo => KsuGetInfoCmd
  | .uidGrantedRoot => KsuUidGrantedRootCmd
  | .uidShouldUmount => KsuUidShouldUmountCmd
  | .getManagerUid => KsuGetManagerUidCmd
  | .setFeature => KsuSetFeatureCmd

/-- The numbers of the queries of the old interface. -/
def CMD_UID_GRANTED_ROOT : Nat := 12
def CMD_UID_SHOULD_UMOUNT : Nat := 13

def KERNEL_SU_OPTION : BitVec 32 := 0xdeadbeef#32

def KSU_FEATURE_KERNEL_UMOUNT : BitVec 32 := 1#32

/-- What the calls of `prctl` leave in the variables they are passed, all of them zero before. -/
structure Prctl where
  getVersion : Int
  hookMode : List (BitVec 8)
  /-- The payload and the confirmation of a query about a uid. -/
  boolQuery : Nat → Int → Bool × BitVec 32
  /-- The confirmation of a query for the manager without a place for it. -/
  managerProbe : BitVec 32
  getManagerUid : BitVec 32 × BitVec 32

/-- What a process that runs as root sees: what programs print that can be run and print a text, the texts of files,
who owns a path, the links of its descriptors, what `reboot` with the two magic numbers leaves as a descriptor, and
the two interfaces of KernelSU. A command for the driver that fails is `none`. -/
structure Device where
  runCommand : String → List Text → Option Text
  readText : Text → Option Text
  owner : Text → Option Uid
  fdLinks : Option (List (Text × Option Text))
  reboot : Int
  ioctl : Int → (request : Request) → request.Cmd → Option request.Cmd
  prctl : Prctl

/-- Whether a version is supported. -/
inductive Version where
  | supported
  | tooOld
  deriving DecidableEq, Repr

namespace Kernelsu

inductive Method where
  | ioctl (fd : Int)
  | prctl
  deriving DecidableEq, Repr

structure DetectionResult where
  method : Method
  version : Version
  deriving DecidableEq, Repr

inductive KernelSUVariant where
  | official
  | next
  deriving DecidableEq, Repr

/-- What the module keeps: `KSU_RESULT`, and `LEGACY_VARIANT` and `LEGACY_SUPPORTS_MANAGER_UID`, which are set
together. -/
structure Cells where
  result : Option DetectionResult
  legacy : Option (KernelSUVariant × Bool)
  deriving DecidableEq, Repr

/-- A descriptor whose link can be read and names the driver. -/
def linksDriver (entry : Text × Option Text) : Bool :=
  match entry.2 with
  | some target => contains "[ksu_driver]".toList target
  | none => false

/-- `scan_driver_fd`. The first link to the driver decides. -/
def scanDriverFd (d : Device) : Option Int :=
  d.fdLinks.bind fun entries => (entries.find? linksDriver).bind fun entry => parseI32 entry.1

/-- `init_driver_fd`. -/
def initDriverFd (d : Device) : Option Int :=
  match scanDriverFd d with
  | some fd => some fd
  | none => if 0 ≤ d.reboot then some d.reboot else none

/-- `Path::new("/data/adb/ksud").exists()`. -/
def ksudExists (d : Device) : Bool := (d.owner "/data/adb/ksud".toList).isSome

/-- What a positive version comes to; nothing if it would be supported, but `ksud` is missing. -/
def judge (method : Method) (versionCode : Int) (d : Device) : Option DetectionResult :=
  if MIN_KSU_VERSION ≤ versionCode ∧ ksudExists d = true then some ⟨method, .supported⟩
  else if versionCode < MIN_KSU_VERSION then some ⟨method, .tooOld⟩
  else none

/-- The first stage of `detect_version`. -/
def detectIoctl (d : Device) : Option DetectionResult :=
  (initDriverFd d).bind fun fd =>
    (d.ioctl fd .getInfo ⟨0, 0, 0⟩).bind fun cmd =>
      if 0 < cmd.version.toInt then judge (.ioctl fd) cmd.version.toInt d else none

/-- `init_legacy_variant_probe`. -/
def legacyVariantProbe (d : Device) : KernelSUVariant × Bool :=
  (if d.prctl.hookMode.getD 0 0 ≠ 0 then .next else .official, decide (d.prctl.managerProbe = KERNEL_SU_OPTION))

/-- `detect_version`, with what it caches. -/
def detectVersion (d : Device) : Option Version × Cells :=
  let cells : Cells :=
    match detectIoctl d with
    | some result => ⟨some result, none⟩
    | none =>
        if 0 < d.prctl.getVersion then ⟨judge .prctl d.prctl.getVersion d, some (legacyVariantProbe d)⟩
        else ⟨none, none⟩
  (cells.result.map DetectionResult.version, cells)

/-- `uid as u32`. -/
def asU32 (uid : Int) : BitVec 32 := BitVec.ofInt 32 uid

/-- `ksu_prctl_bool_query`. -/
def ksuPrctlBoolQuery (d : Device) (command : Nat) (uid : Int) : Option Bool :=
  let answer := d.prctl.boolQuery command uid
  if answer.2 = KERNEL_SU_OPTION then some answer.1 else none

def uidGrantedRoot (c : Cells) (d : Device) (uid : Int) : Bool :=
  match c.result with
  | some ⟨.ioctl fd, _⟩ => ((d.ioctl fd .uidGrantedRoot ⟨asU32 uid, 0⟩).map fun cmd => cmd.granted != 0).getD false
  | some ⟨.prctl, _⟩ => (ksuPrctlBoolQuery d CMD_UID_GRANTED_ROOT uid).getD false
  | none => false

def uidShouldUmount (c : Cells) (d : Device) (uid : Int) : Bool :=
  match c.result with
  | some ⟨.ioctl fd, _⟩ =>
      ((d.ioctl fd .uidShouldUmount ⟨asU32 uid, 0⟩).map fun cmd => cmd.shouldUmount != 0).getD false
  | some ⟨.prctl, _⟩ => (ksuPrctlBoolQuery d CMD_UID_SHOULD_UMOUNT uid).getD false
  | none => false

/-- The data of the manager, by the variant. -/
def managerPath : KernelSUVariant → Text
  | .official => "/data/user_de/0/me.weishu.kernelsu".toList
  | .next => "/data/user_de/0/com.rifsxd.ksunext".toList

/-- `uid_is_manager_prctl`. -/
def uidIsManagerPrctl (c : Cells) (d : Device) (uid : Int) : Bool :=
  match c.legacy with
  | none => false
  | some (variant, supportsManagerUid) =>
      if supportsManagerUid = true ∧ d.prctl.getManagerUid.2 = KERNEL_SU_OPTION then
        asU32 uid == d.prctl.getManagerUid.1
      else ((d.owner (managerPath variant)).map fun owner => owner == asU32 uid).getD false

def uidIsManager (c : Cells) (d : Device) (uid : Int) : Bool :=
  match c.result with
  | some ⟨.ioctl fd, _⟩ => ((d.ioctl fd .getManagerUid ⟨0⟩).map fun cmd => asU32 uid == cmd.uid).getD false
  | some ⟨.prctl, _⟩ => uidIsManagerPrctl c d uid
  | none => false

/-- The command of `set_kernel_umount`. -/
def setKernelUmount (c : Cells) (enabled : Bool) : Option (Int × KsuSetFeatureCmd) :=
  match c.result with
  | some ⟨.ioctl fd, _⟩ => some (fd, ⟨KSU_FEATURE_KERNEL_UMOUNT, if enabled then 1 else 0⟩)
  | _ => none

end Kernelsu

/-! ## APatch -/

namespace Apatch

def CONFIG_FILE : Text := "/data/adb/ap/package_config".toList

/-- An entry of the configuration. -/
structure PackageInfo where
  uid : Int
  exclude : Bool
  allow : Bool
  deriving DecidableEq, Repr

def detectVersion (d : Device) : Option Version :=
  (d.runCommand "apd" ["-V".toList]).bind fun output =>
    (splitWhitespace output)[1]?.bind fun word =>
      (parseI32 word).map fun version => if MIN_APATCH_VERSION ≤ version then .supported else .tooOld

/-- A row of the configuration; `none` if it is left out. -/
def parseRow (line : Text) : Option PackageInfo :=
  match (trim isWhitespace line).splitOn ',' with
  | _ :: exclude :: allow :: uid :: _ :: _ :: _ =>
      (parseU8 exclude).bind fun exclude =>
        (parseU8 allow).bind fun allow =>
          (parseI32 uid).map fun uid => ⟨uid, decide (exclude = 1), decide (allow = 1)⟩
  | _ => none

/-- `parse_config_file`. The first line is a header. -/
def parseConfigFile (d : Device) : Option (List PackageInfo) :=
  (d.readText CONFIG_FILE).map fun text => ((lines '\n' text).drop 1).filterMap parseRow

def uidGrantedRoot (d : Device) (uid : Int) : Bool :=
  match parseConfigFile d with
  | some packages => packages.any fun pkg => pkg.uid == uid && pkg.allow
  | none => false

def uidShouldUmount (d : Device) (uid : Int) : Bool :=
  match parseConfigFile d with
  | some packages => packages.any fun pkg => pkg.uid == uid && pkg.exclude
  | none => false

def uidIsManager (d : Device) (uid : Int) : Bool :=
  ((d.owner "/data/user_de/0/me.bmax.apatch".toList).map fun owner => owner == BitVec.ofInt 32 uid).getD false

end Apatch

/-! ## Magisk -/

namespace Magisk

def MAGISK_OFFICIAL_PKG : Text := "com.topjohnwu.magisk".toList

def MAGISK_THIRD_PARTIES : List (Text × Text) :=
  [("alpha".toList, "io.github.vvb2060.magisk".toList), ("kitsune".toList, "io.github.huskydg.magisk".toList)]

/-- `detect_variant`. -/
def detectVariant (d : Device) : Text :=
  match d.runCommand "magisk" ["-v".toList] with
  | some version =>
      ((MAGISK_THIRD_PARTIES.find? fun party => contains party.1 version).map Prod.snd).getD MAGISK_OFFICIAL_PKG
  | none => MAGISK_OFFICIAL_PKG

/-- `detect_version`, with the variant it caches. -/
def detectVersion (d : Device) : Option Version × Option Text :=
  match (d.runCommand "magisk" ["-V".toList]).bind fun output => parseI32 (trim isWhitespace output) with
  | some version => (some (if MIN_MAGISK_VERSION ≤ version then .supported else .tooOld), some (detectVariant d))
  | none => (none, none)

def policyQuery (uid : Int) : Text :=
  "SELECT 1 FROM policies WHERE uid=".toList ++ (toString uid).toList ++ " AND policy=2 LIMIT 1".toList

def uidGrantedRoot (d : Device) (uid : Int) : Bool :=
  match d.runCommand "magisk" ["--sqlite".toList, policyQuery uid] with
  | some output => !(trim isWhitespace output).isEmpty
  | none => false

def requesterQuery : Text := "SELECT value FROM strings WHERE key=\"requester\" LIMIT 1".toList

/-- Where the data of a package is. -/
def userDe (pkg : Text) : Text := "/data/user_de/0/".toList ++ pkg

/-- The owner that the database leads to. -/
def requester (d : Device) : Option Uid :=
  (d.runCommand "magisk" ["--sqlite".toList, requesterQuery]).bind fun output =>
    (stripPrefix "value=".toList (trim isWhitespace output)).bind fun pkg => d.owner (userDe pkg)

def uidIsManager (variant : Option Text) (d : Device) (uid : Int) : Bool :=
  match requester d with
  | some owner => owner == BitVec.ofInt 32 uid
  | none =>
      ((variant.bind fun pkg => d.owner (userDe pkg)).map fun owner => owner == BitVec.ofInt 32 uid).getD false

end Magisk

/-! ## The active solution -/

/-- What is found out at startup. -/
structure Setup where
  rootImpl : RootImpl
  ksu : Kernelsu.Cells
  magiskVariantPkg : Option Text

def Version.rootImpl (active : RootImpl) : Version → RootImpl
  | .supported => active
  | .tooOld => .tooOld

/-- `detect_root`, from the versions. -/
def detectRoot (apatch ksu magisk : Option Version) : RootImpl :=
  if 1 < ([apatch.isSome, ksu.isSome, magisk.isSome].filter fun x => x).length then .multiple
  else
    match apatch, ksu, magisk with
    | some version, _, _ => version.rootImpl .apatch
    | none, some version, _ => version.rootImpl .kernelSU
    | none, none, some version => version.rootImpl .magisk
    | none, none, none => .none

/-- `setup`. Every solution is looked for. -/
def setup (d : Device) : Setup :=
  let apatchVersion := Apatch.detectVersion d
  let ksu := Kernelsu.detectVersion d
  let magisk := Magisk.detectVersion d
  ⟨detectRoot apatchVersion ksu.1 magisk.1, ksu.2, magisk.2⟩

/-- Whom `uid_is_manager`, `uid_granted_root` and `uid_should_umount` ask. -/
def queries (s : Setup) (d : Device) : RootQueries :=
  match s.rootImpl with
  | .apatch => ⟨Apatch.uidIsManager d, Apatch.uidGrantedRoot d, Apatch.uidShouldUmount d⟩
  | .kernelSU => ⟨Kernelsu.uidIsManager s.ksu d, Kernelsu.uidGrantedRoot s.ksu d, Kernelsu.uidShouldUmount s.ksu d⟩
  | .magisk =>
      ⟨Magisk.uidIsManager s.magiskVariantPkg d, Magisk.uidGrantedRoot d, MagiskDenylist.uidShouldUmount d.runCommand⟩
  | _ => ⟨fun _ => false, fun _ => false, fun _ => false⟩

/-- The command that `disable_self_umount` gives the driver. -/
def disableSelfUmount (s : Setup) : Option (Int × KsuSetFeatureCmd) :=
  if s.rootImpl = .kernelSU then Kernelsu.setKernelUmount s.ksu false else none

/-- The answer to `GetProcessFlags`. -/
def processFlags (s : Setup) (d : Device) (uid : Uid) : Flags := handleGetProcessFlags s.rootImpl (queries s d) uid

end NeoZygisk.Daemon.RootSolutions
