import NeoZygisk.Daemon.RootSolutions

/-!
# What the root solutions keep

A root solution keeps, for every uid, whether it was granted root and whether it is on the denylist, and its manager
has a uid of its own (`Database`). There are five ways in which this gets to the daemon: the configuration of APatch,
the driver of KernelSU, its older interface with and without a query for the manager, and the programs of Magisk.

`processFlags_eq` says that the daemon finds the solution that is installed and that its answers are those of the
database, whichever way they come; the denylist of Magisk is that of the first package of a uid.
-/

set_option autoImplicit false

namespace NeoZygisk.Daemon.RootSolutions

open NeoZygisk.Common
open NeoZygisk.Daemon.MagiskDenylist
open NeoZygisk.Daemon.RootSolutions.Kernelsu (linksDriver)
open NeoZygisk.Lib.FormattedInput (value isDigitOf value_toDigits isDigitOf_of_mem_toDigits)
open NeoZygisk.Lib.Text

/-! ## The database -/

structure Database where
  manager : Option Uid
  granted : Uid → Bool
  listed : Uid → Bool

/-- What a process with the uid is told. -/
def Database.flags (db : Database) (root : RootImpl) (uid : Uid) : Flags :=
  (if db.manager = some uid then PROCESS_IS_MANAGER
    else (if db.granted uid then PROCESS_GRANTED_ROOT else 0#32) |||
      (if db.listed uid then PROCESS_ON_DENYLIST else 0#32)) ||| rootFlag root

/-- A solution and the way it is asked. -/
inductive Solution where
  | apatch
  | ksuIoctl (fd : Nat)
  | ksuPrctl (variant : Kernelsu.KernelSUVariant) (supportsManagerUid : Bool)
  | magisk (variant : Text)

def Solution.rootImpl : Solution → RootImpl
  | .apatch => .apatch
  | .ksuIoctl _ => .kernelSU
  | .ksuPrctl _ _ => .kernelSU
  | .magisk _ => .magisk

/-! ## At startup -/

/-- What a program prints about its version. -/
def printed (version : Nat) : Text := Nat.toDigits 10 version ++ ['\n']

/-- The driver's descriptor is open already, or the kernel gives one out. -/
def HasDriver (d : Device) (fd : Nat) : Prop :=
  fd < 2 ^ 31 ∧ ∃ entries, d.fdLinks = some entries ∧
    ((∃ before target after, entries = before ++ (Nat.toDigits 10 fd, some target) :: after ∧
        (∀ entry ∈ before, linksDriver entry = false) ∧ contains "[ksu_driver]".toList target = true) ∨
      ((∀ entry ∈ entries, linksDriver entry = false) ∧ d.reboot = fd))

def NoDriver (d : Device) : Prop :=
  (∀ entries, d.fdLinks = some entries → ∀ entry ∈ entries, linksDriver entry = false) ∧ d.reboot < 0

def NoApatch (d : Device) : Prop := d.runCommand "apd" ["-V".toList] = none

def NoKsu (d : Device) : Prop := NoDriver d ∧ d.prctl.getVersion = 0

def NoMagisk (d : Device) : Prop := d.runCommand "magisk" ["-V".toList] = none

/-- The solution is installed in a version that is supported, and no other one is. -/
def Solution.Installed (d : Device) : Solution → Prop
  | .apatch =>
      (∃ name version, d.runCommand "apd" ["-V".toList] = some (name ++ ' ' :: printed version) ∧
          name ≠ [] ∧ (∀ c ∈ name, isWhitespace c = false) ∧ MIN_APATCH_VERSION ≤ version ∧ version < 2 ^ 31) ∧
        NoKsu d ∧ NoMagisk d
  | .ksuIoctl fd =>
      (HasDriver d fd ∧ (d.owner "/data/adb/ksud".toList).isSome = true ∧
          ∃ info, d.ioctl fd .getInfo ⟨0, 0, 0⟩ = some info ∧ MIN_KSU_VERSION ≤ info.version.toInt) ∧
        NoApatch d ∧ NoMagisk d
  | .ksuPrctl variant supportsManagerUid =>
      (NoDriver d ∧ (d.owner "/data/adb/ksud".toList).isSome = true ∧ MIN_KSU_VERSION ≤ d.prctl.getVersion ∧
          (variant = .next ↔ d.prctl.hookMode.getD 0 0 ≠ 0) ∧
          (supportsManagerUid = true ↔ d.prctl.managerProbe = KERNEL_SU_OPTION)) ∧
        NoApatch d ∧ NoMagisk d
  | .magisk variant =>
      (∃ version, d.runCommand "magisk" ["-V".toList] = some (printed version) ∧
          MIN_MAGISK_VERSION ≤ version ∧ version < 2 ^ 31 ∧ Magisk.detectVariant d = variant) ∧
        NoApatch d ∧ NoKsu d

/-! ## When a uid is asked about -/

/-- A row of the configuration of APatch. -/
structure ApatchPackage where
  name : Text
  exclude : Bool
  allow : Bool
  uid : Nat
  toUid : Nat
  context : Text
  uid_lt : uid < 2 ^ 31
  comma : ',' ∉ name
  plain : ∀ c ∈ name ++ context, isWhitespace c = false

namespace ApatchPackage

def flag (b : Bool) : Text := Nat.toDigits 10 (if b then 1 else 0)

def row (p : ApatchPackage) : Text :=
  p.name ++ ',' :: (flag p.exclude ++ ',' :: (flag p.allow ++ ',' ::
    (Nat.toDigits 10 p.uid ++ ',' :: (Nat.toDigits 10 p.toUid ++ ',' :: p.context))))

/-- What the daemon takes from the row. -/
def info (p : ApatchPackage) : Apatch.PackageInfo := ⟨p.uid, p.exclude, p.allow⟩

end ApatchPackage

/-- The configuration, with its header. -/
def apatchConfig (header : Text) (packages : List ApatchPackage) : Text :=
  header ++ '\n' :: packages.flatMap fun p => p.row ++ ['\n']

/-- Some row about the uid has the flag. -/
def listedBy (flag : ApatchPackage → Bool) (packages : List ApatchPackage) (uid : Uid) : Bool :=
  packages.any fun p => decide (p.uid = uid.toNat) && flag p

/-- The database gets to the daemon in the way of the solution. -/
def Solution.Shows (d : Device) (db : Database) : Solution → Prop
  | .apatch =>
      (∃ header packages, '\n' ∉ header ∧ d.readText Apatch.CONFIG_FILE = some (apatchConfig header packages) ∧
          db.granted = listedBy ApatchPackage.allow packages ∧ db.listed = listedBy ApatchPackage.exclude packages) ∧
        d.owner "/data/user_de/0/me.bmax.apatch".toList = db.manager
  | .ksuIoctl fd =>
      (∀ uid, ∃ granted, d.ioctl fd .uidGrantedRoot ⟨uid, 0⟩ = some ⟨uid, granted⟩ ∧ (granted != 0) = db.granted uid) ∧
        (∀ uid, ∃ listed, d.ioctl fd .uidShouldUmount ⟨uid, 0⟩ = some ⟨uid, listed⟩ ∧ (listed != 0) = db.listed uid) ∧
        d.ioctl fd .getManagerUid ⟨0⟩ = db.manager.map KsuGetManagerUidCmd.mk
  | .ksuPrctl variant supportsManagerUid =>
      (∀ uid : Uid, d.prctl.boolQuery CMD_UID_GRANTED_ROOT uid.toInt = (db.granted uid, KERNEL_SU_OPTION)) ∧
        (∀ uid : Uid, d.prctl.boolQuery CMD_UID_SHOULD_UMOUNT uid.toInt = (db.listed uid, KERNEL_SU_OPTION)) ∧
        if supportsManagerUid then ∃ uid, d.prctl.getManagerUid = (uid, KERNEL_SU_OPTION) ∧ db.manager = some uid
        else d.owner (Kernelsu.managerPath variant) = db.manager
  | .magisk variant =>
      (∀ uid : Uid, ∃ output,
          d.runCommand "magisk" ["--sqlite".toList, Magisk.policyQuery uid.toInt] = some output ∧
            ((∀ c ∈ output, isWhitespace c = true) ↔ db.granted uid = false)) ∧
        (∀ uid : Uid, ∃ packages denylist, Answers d.runCommand uid.toInt packages denylist ∧
          (db.listed uid = true ↔ ∃ package ∈ packages.head?, package.name ∈ denylist)) ∧
        ∃ output, d.runCommand "magisk" ["--sqlite".toList, Magisk.requesterQuery] = some output ∧
          ((output = [] ∧ db.manager = d.owner (Magisk.userDe variant)) ∨
            ∃ pkg, (∀ c ∈ pkg, isWhitespace c = false) ∧ output = "value=".toList ++ (pkg ++ ['\n']) ∧
              db.manager = (d.owner (Magisk.userDe pkg)).or (d.owner (Magisk.userDe variant)))

/-! ## Numbers -/

/-- A text of digits is read as their number, if that is in the bounds. -/
theorem parseInt_of_digits {low high : Int} {text : Text} (hne : text ≠ [])
    (hdigits : ∀ c ∈ text, isDigitOf 10 c = true) (hlow : low ≤ value 10 text) (hhigh : value 10 text ≤ high) :
    parseInt low high text = some (value 10 text : Int) := by
  have hall : text.all (isDigitOf 10) = true := List.all_eq_true.mpr hdigits
  have hsign : ∀ c rest, text = c :: rest → c ≠ '+' ∧ c ≠ '-' := by
    intro c rest htext
    have hc := hdigits c (htext ▸ List.mem_cons_self)
    constructor
    · rintro rfl
      exact absurd hc (by decide)
    · rintro rfl
      exact absurd hc (by decide)
  simp only [parseInt]
  split
  · exact absurd rfl (hsign '+' _ rfl).1
  · exact absurd rfl (hsign '-' _ rfl).2
  · simp only [hne, hall, hlow, hhigh, Bool.true_eq_false, Bool.false_eq_true, or_self, and_self, if_true, if_false]

theorem parseInt_toDigits {low high : Int} {n : Nat} (hlow : low ≤ n) (hhigh : n ≤ high) :
    parseInt low high (Nat.toDigits 10 n) = some (n : Int) := by
  have hvalue : value 10 (Nat.toDigits 10 n) = n := value_toDigits (by decide) (by decide) n
  have hdigits : ∀ c ∈ Nat.toDigits 10 n, isDigitOf 10 c = true := fun c hc =>
    isDigitOf_of_mem_toDigits (by decide) (by decide) hc
  have hparse : parseInt low high (Nat.toDigits 10 n) = some (value 10 (Nat.toDigits 10 n) : Int) :=
    parseInt_of_digits Nat.toDigits_ne_nil hdigits (by rwa [hvalue]) (by rwa [hvalue])
  rwa [hvalue] at hparse

theorem parseI32_toDigits {n : Nat} (h : n < 2 ^ 31) : parseI32 (Nat.toDigits 10 n) = some (n : Int) :=
  parseInt_toDigits (by omega) (by omega)

theorem trim_eq_self_of_forall {text : Text} (h : ∀ c ∈ text, isWhitespace c = false) :
    trim isWhitespace text = text :=
  trim_eq_self (fun c hc => h c (List.mem_of_mem_head? hc)) fun c hc => h c (List.mem_of_getLast? hc)

/-- A line end is trimmed. -/
theorem trim_append_newline {text : Text} (h : ∀ c ∈ text, isWhitespace c = false) :
    trim isWhitespace (text ++ ['\n']) = text := by
  have hdrop : ∀ {text : Text}, (∀ c ∈ text, isWhitespace c = false) → text.dropWhile isWhitespace = text := by
    intro text htext
    cases text with
    | nil => rfl
    | cons c text => exact List.dropWhile_cons_of_neg (by simp [htext c List.mem_cons_self])
  cases text with
  | nil => decide
  | cons c text =>
      have hfirst : isWhitespace c = false := h c List.mem_cons_self
      rw [trim, List.cons_append, List.dropWhile_cons_of_neg (by simp [hfirst]), ← List.cons_append, List.reverse_append,
        List.reverse_singleton, List.singleton_append, List.dropWhile_cons_of_pos (by decide), hdrop,
        List.reverse_reverse]
      intro a ha
      exact h a (List.mem_reverse.mp ha)

theorem trim_printed (version : Nat) : trim isWhitespace (printed version) = Nat.toDigits 10 version :=
  trim_append_newline fun _ hc => isWhitespace_of_mem_digits hc

/-- The second word of a name and a version. -/
theorem splitWhitespace_printed {name : Text} (hne : name ≠ []) (hname : ∀ c ∈ name, isWhitespace c = false)
    (version : Nat) : splitWhitespace (name ++ ' ' :: printed version) = [name, Nat.toDigits 10 version] := by
  have hdigits : ∀ c ∈ Nat.toDigits 10 version, isWhitespace c = false := fun c hc => isWhitespace_of_mem_digits hc
  have hnumber : Nat.toDigits 10 version ≠ [] := Nat.toDigits_ne_nil
  rw [splitWhitespace, List.splitOnP_append_cons_of_forall_mem hname ' ' (by decide), printed,
    List.splitOnP_append_cons_of_forall_mem hdigits '\n' (by decide)]
  simp [hne, hnumber]

/-! ## The configuration of APatch -/

theorem isWhitespace_of_mem_row {p : ApatchPackage} {c : Char} (h : c ∈ p.row) : isWhitespace c = false := by
  have hcomma : isWhitespace ',' = false := by decide
  simp only [ApatchPackage.row, ApatchPackage.flag, List.mem_append, List.mem_cons] at h
  rcases h with hname | rfl | hdigit | rfl | hdigit | rfl | hdigit | rfl | hdigit | rfl | hcontext
  · exact p.plain c (List.mem_append_left _ hname)
  · exact hcomma
  · exact isWhitespace_of_mem_digits hdigit
  · exact hcomma
  · exact isWhitespace_of_mem_digits hdigit
  · exact hcomma
  · exact isWhitespace_of_mem_digits hdigit
  · exact hcomma
  · exact isWhitespace_of_mem_digits hdigit
  · exact hcomma
  · exact p.plain c (List.mem_append_right _ hcontext)

theorem comma_notMem_toDigits (n : Nat) : ',' ∉ Nat.toDigits 10 n := by
  intro hmem
  have hdigit : isDigitOf 10 ',' = true := isDigitOf_of_mem_toDigits (by decide) (by decide) hmem
  exact absurd hdigit (by decide)

theorem parseU8_flag (b : Bool) : parseU8 (ApatchPackage.flag b) = some (if b then 1 else 0) := by
  cases b with
  | false => exact parseInt_toDigits (n := 0) (by decide) (by decide)
  | true => exact parseInt_toDigits (n := 1) (by decide) (by decide)

/-- A row is read back. -/
theorem parseRow_row (p : ApatchPackage) : Apatch.parseRow p.row = some p.info := by
  have htrim : trim isWhitespace p.row = p.row := trim_eq_self_of_forall fun c hc => isWhitespace_of_mem_row hc
  have hflag : ∀ b, ',' ∉ ApatchPackage.flag b := fun b => comma_notMem_toDigits _
  obtain ⟨rest, more, hrest⟩ := List.exists_cons_of_ne_nil (List.splitOn_ne_nil ',' p.context)
  have hsplit : p.row.splitOn ',' =
      p.name :: ApatchPackage.flag p.exclude :: ApatchPackage.flag p.allow :: Nat.toDigits 10 p.uid ::
        Nat.toDigits 10 p.toUid :: rest :: more := by
    rw [ApatchPackage.row, List.splitOn_append_cons_self_of_not_mem p.comma,
      List.splitOn_append_cons_self_of_not_mem (hflag _), List.splitOn_append_cons_self_of_not_mem (hflag _),
      List.splitOn_append_cons_self_of_not_mem (comma_notMem_toDigits _),
      List.splitOn_append_cons_self_of_not_mem (comma_notMem_toDigits _), hrest]
  rw [Apatch.parseRow, htrim, hsplit]
  simp only [parseU8_flag, parseI32_toDigits p.uid_lt, Option.bind_some, Option.map_some, ApatchPackage.info]
  cases p.exclude <;> cases p.allow <;> rfl

/-- The configuration is read back, whatever its header is. -/
theorem parseConfigFile_apatchConfig {d : Device} {header : Text} {packages : List ApatchPackage}
    (hheader : '\n' ∉ header) (h : d.readText Apatch.CONFIG_FILE = some (apatchConfig header packages)) :
    Apatch.parseConfigFile d = some (packages.map ApatchPackage.info) := by
  have hrows : lines '\n' (packages.flatMap fun p => p.row ++ ['\n']) = packages.map ApatchPackage.row := by
    have hflat : (packages.flatMap fun p => p.row ++ ['\n']) =
        (packages.map ApatchPackage.row).flatMap fun row => row ++ ['\n'] := by
      rw [List.flatMap_map]
    rw [hflat]
    apply lines_flatMap
    intro row hrow hmem
    obtain ⟨p, -, rfl⟩ := List.mem_map.mp hrow
    have hspace : isWhitespace '\n' = true := by decide
    exact Bool.noConfusion (hspace.symm.trans (isWhitespace_of_mem_row hmem))
  rw [Apatch.parseConfigFile, h, Option.map_some, apatchConfig, lines_append_cons hheader, List.drop_one,
    List.tail_cons, hrows, List.filterMap_map]
  have hread : Apatch.parseRow ∘ ApatchPackage.row = fun p => some p.info := funext parseRow_row
  rw [hread, List.filterMap_eq_map']

/-! ## Detection -/

section Detection

variable {d : Device}

theorem apatchDetectVersion_eq_none (h : NoApatch d) : Apatch.detectVersion d = none := by
  rw [Apatch.detectVersion, h, Option.bind_none]

theorem magiskDetectVersion_eq_none (h : NoMagisk d) : Magisk.detectVersion d = (none, none) := by
  rw [Magisk.detectVersion, h, Option.bind_none]

theorem initDriverFd_eq_none (h : NoDriver d) : Kernelsu.initDriverFd d = none := by
  have hscan : Kernelsu.scanDriverFd d = none := by
    rw [Kernelsu.scanDriverFd]
    cases hlinks : d.fdLinks with
    | none => rfl
    | some entries =>
        have hfind : entries.find? linksDriver = none := by
          rw [List.find?_eq_none]
          intro entry hentry
          simp [h.1 entries hlinks entry hentry]
        rw [Option.bind_some, hfind]
        rfl
  rw [Kernelsu.initDriverFd, hscan]
  exact if_neg (Int.not_le.mpr h.2)

theorem initDriverFd_eq_some {fd : Nat} (h : HasDriver d fd) : Kernelsu.initDriverFd d = some (fd : Int) := by
  obtain ⟨hfd, entries, hlinks, hopen | ⟨hnone, hreboot⟩⟩ := h
  · obtain ⟨before, target, after, rfl, hbefore, htarget⟩ := hopen
    have hfind : (before ++ (Nat.toDigits 10 fd, some target) :: after).find? linksDriver =
        some (Nat.toDigits 10 fd, some target) := by
      rw [List.find?_append, List.find?_eq_none.mpr fun entry hentry => by simp [hbefore entry hentry]]
      exact List.find?_cons_of_pos htarget
    have hscan : Kernelsu.scanDriverFd d = some (fd : Int) := by
      rw [Kernelsu.scanDriverFd, hlinks, Option.bind_some, hfind, Option.bind_some, parseI32_toDigits hfd]
    rw [Kernelsu.initDriverFd, hscan]
  · have hscan : Kernelsu.scanDriverFd d = none := by
      rw [Kernelsu.scanDriverFd, hlinks, Option.bind_some,
        List.find?_eq_none.mpr fun entry hentry => by simp [hnone entry hentry]]
      rfl
    rw [Kernelsu.initDriverFd, hscan]
    dsimp only
    rw [if_pos (by omega), hreboot]

theorem ksuDetectVersion_eq_none (h : NoKsu d) : Kernelsu.detectVersion d = (none, ⟨none, none⟩) := by
  have hioctl : Kernelsu.detectIoctl d = none := by
    rw [Kernelsu.detectIoctl, initDriverFd_eq_none h.1, Option.bind_none]
  rw [Kernelsu.detectVersion, hioctl]
  simp only [h.2, Int.lt_irrefl, if_false, Option.map_none]

/-- A supported version with `ksud`. -/
theorem judge_eq (method : Kernelsu.Method) {version : Int} (hversion : MIN_KSU_VERSION ≤ version)
    (hksud : (d.owner "/data/adb/ksud".toList).isSome = true) :
    Kernelsu.judge method version d = some ⟨method, .supported⟩ := by
  rw [Kernelsu.judge, if_pos ⟨hversion, hksud⟩]

theorem min_pos {version : Int} (h : MIN_KSU_VERSION ≤ version) : 0 < version :=
  Int.lt_of_lt_of_le (by decide) h

theorem ksuDetectVersion_ioctl {fd : Nat} (hdriver : HasDriver d fd)
    (hksud : (d.owner "/data/adb/ksud".toList).isSome = true) {info : KsuGetInfoCmd}
    (hinfo : d.ioctl fd .getInfo ⟨0, 0, 0⟩ = some info) (hversion : MIN_KSU_VERSION ≤ info.version.toInt) :
    Kernelsu.detectVersion d = (some .supported, ⟨some ⟨.ioctl fd, .supported⟩, none⟩) := by
  have hioctl : Kernelsu.detectIoctl d = some ⟨.ioctl fd, .supported⟩ := by
    rw [Kernelsu.detectIoctl, initDriverFd_eq_some hdriver, Option.bind_some, hinfo, Option.bind_some,
      if_pos (min_pos hversion), judge_eq _ hversion hksud]
  rw [Kernelsu.detectVersion, hioctl]
  rfl

theorem ksuDetectVersion_prctl (hdriver : NoDriver d) (hksud : (d.owner "/data/adb/ksud".toList).isSome = true)
    (hversion : MIN_KSU_VERSION ≤ d.prctl.getVersion) :
    Kernelsu.detectVersion d =
      (some .supported, ⟨some ⟨.prctl, .supported⟩, some (Kernelsu.legacyVariantProbe d)⟩) := by
  have hioctl : Kernelsu.detectIoctl d = none := by
    rw [Kernelsu.detectIoctl, initDriverFd_eq_none hdriver, Option.bind_none]
  rw [Kernelsu.detectVersion, hioctl]
  dsimp only
  rw [if_pos (min_pos hversion), judge_eq _ hversion hksud]
  rfl

theorem legacyVariantProbe_eq {variant : Kernelsu.KernelSUVariant} {supportsManagerUid : Bool}
    (hvariant : variant = .next ↔ d.prctl.hookMode.getD 0 0 ≠ 0)
    (hmanager : supportsManagerUid = true ↔ d.prctl.managerProbe = KERNEL_SU_OPTION) :
    Kernelsu.legacyVariantProbe d = (variant, supportsManagerUid) := by
  rw [Kernelsu.legacyVariantProbe]
  congr 1
  · cases variant with
    | official =>
        apply if_neg
        intro hmode
        cases hvariant.mpr hmode
    | next => exact if_pos (hvariant.mp rfl)
  · rw [Bool.eq_iff_iff, decide_eq_true_iff, hmanager]

/-- What is kept for a solution that is installed. -/
def Solution.setup : Solution → Setup
  | .apatch => ⟨.apatch, ⟨none, none⟩, none⟩
  | .ksuIoctl fd => ⟨.kernelSU, ⟨some ⟨.ioctl fd, .supported⟩, none⟩, none⟩
  | .ksuPrctl variant supportsManagerUid =>
      ⟨.kernelSU, ⟨some ⟨.prctl, .supported⟩, some (variant, supportsManagerUid)⟩, none⟩
  | .magisk variant => ⟨.magisk, ⟨none, none⟩, some variant⟩

/-- The solution that is installed is found, with the way to ask it. -/
theorem setup_eq {solution : Solution} (h : solution.Installed d) : setup d = solution.setup := by
  cases solution with
  | apatch =>
      obtain ⟨⟨name, version, hprints, hne, hname, hmin, hlt⟩, hksu, hmagisk⟩ := h
      have hversion : Apatch.detectVersion d = some .supported := by
        rw [Apatch.detectVersion, hprints, Option.bind_some, splitWhitespace_printed hne hname]
        simp only [List.getElem?_cons_succ, List.getElem?_cons_zero, Option.bind_some, parseI32_toDigits hlt,
          Option.map_some, if_pos hmin]
      rw [setup, hversion, ksuDetectVersion_eq_none hksu, magiskDetectVersion_eq_none hmagisk]
      rfl
  | ksuIoctl fd =>
      obtain ⟨⟨hdriver, hksud, info, hinfo, hversion⟩, hapatch, hmagisk⟩ := h
      rw [setup, apatchDetectVersion_eq_none hapatch, ksuDetectVersion_ioctl hdriver hksud hinfo hversion,
        magiskDetectVersion_eq_none hmagisk]
      rfl
  | ksuPrctl variant supportsManagerUid =>
      obtain ⟨⟨hdriver, hksud, hversion, hvariant, hmanager⟩, hapatch, hmagisk⟩ := h
      rw [setup, apatchDetectVersion_eq_none hapatch, ksuDetectVersion_prctl hdriver hksud hversion,
        magiskDetectVersion_eq_none hmagisk, legacyVariantProbe_eq hvariant hmanager]
      rfl
  | magisk variant =>
      obtain ⟨⟨version, hprints, hmin, hlt, hvariant⟩, hapatch, hksu⟩ := h
      have hversion : Magisk.detectVersion d = (some .supported, some variant) := by
        rw [Magisk.detectVersion, hprints, Option.bind_some, trim_printed, parseI32_toDigits hlt]
        dsimp only
        rw [if_pos hmin, hvariant]
      rw [setup, apatchDetectVersion_eq_none hapatch, ksuDetectVersion_eq_none hksu, hversion]
      rfl

end Detection

/-! ## Answers -/

section Answers

variable {d : Device} {db : Database}

/-- Queries that answer what the database has give its flags. -/
theorem handleGetProcessFlags_eq {root : RootImpl} (hroot : root.supported = true) {q : RootQueries} {uid : Uid}
    (hmanager : q.isManager uid.toInt = decide (db.manager = some uid))
    (hgranted : q.grantedRoot uid.toInt = db.granted uid) (hlisted : q.shouldUmount uid.toInt = db.listed uid) :
    handleGetProcessFlags root q uid = db.flags root uid := by
  have hquery : ∀ query : Int → Bool, rootQuery root query uid.toInt = query uid.toInt := by
    intro query
    cases root with
    | apatch | kernelSU | magisk => rfl
    | none | tooOld | multiple => cases hroot
  simp only [handleGetProcessFlags, uidFlags, uidIsManager, uidGrantedRoot, Common.uidShouldUmount, hquery, hmanager,
    hgranted, hlisted, Database.flags, decide_eq_true_eq]

theorem asU32_toInt (uid : Uid) : Kernelsu.asU32 uid.toInt = uid := BitVec.ofInt_toInt

/-- The owner is compared with the uid. -/
theorem isOwner_eq (owner : Option Uid) (uid : Uid) :
    (owner.map fun owner => owner == BitVec.ofInt 32 uid.toInt).getD false = decide (owner = some uid) := by
  rw [BitVec.ofInt_toInt]
  cases owner with
  | none => rfl
  | some owner =>
      rw [Option.map_some, Option.getD_some, Bool.eq_iff_iff, beq_iff_eq, decide_eq_true_iff, Option.some_inj]

/-- The rows about the uid. -/
theorem any_info (flag : ApatchPackage → Bool) (field : Apatch.PackageInfo → Bool)
    (hfield : ∀ p : ApatchPackage, field p.info = flag p) (packages : List ApatchPackage) (uid : Uid) :
    ((packages.map ApatchPackage.info).any fun pkg => pkg.uid == uid.toInt && field pkg) =
      listedBy flag packages uid := by
  rw [List.any_map, listedBy]
  congr 1
  funext p
  have huid : (p.info.uid == uid.toInt) = decide (p.uid = uid.toNat) := by
    have hlt := p.uid_lt
    have hbound := uid.isLt
    show ((p.uid : Int) == uid.toInt) = _
    rw [Bool.eq_iff_iff, beq_iff_eq, decide_eq_true_iff, BitVec.toInt_eq_toNat_cond]
    split <;> omega
  rw [Function.comp_apply, huid, hfield]

theorem apatch_flags (h : Solution.apatch.Shows d db) (uid : Uid) :
    processFlags Solution.apatch.setup d uid = db.flags .apatch uid := by
  obtain ⟨⟨header, packages, hheader, hconfig, hgranted, hlisted⟩, hmanager⟩ := h
  have hparse := parseConfigFile_apatchConfig hheader hconfig
  apply handleGetProcessFlags_eq rfl
  · rw [← hmanager]
    exact isOwner_eq _ uid
  · rw [hgranted]
    show Apatch.uidGrantedRoot d uid.toInt = _
    rw [Apatch.uidGrantedRoot, hparse]
    exact any_info _ _ (fun _ => rfl) packages uid
  · rw [hlisted]
    show Apatch.uidShouldUmount d uid.toInt = _
    rw [Apatch.uidShouldUmount, hparse]
    exact any_info _ _ (fun _ => rfl) packages uid

theorem ksuIoctl_flags {fd : Nat} (h : (Solution.ksuIoctl fd).Shows d db) (uid : Uid) :
    processFlags (Solution.ksuIoctl fd).setup d uid = db.flags .kernelSU uid := by
  obtain ⟨hgranted, hlisted, hmanager⟩ := h
  apply handleGetProcessFlags_eq rfl
  · show ((d.ioctl fd .getManagerUid ⟨0⟩).map fun cmd => Kernelsu.asU32 uid.toInt == cmd.uid).getD false = _
    rw [hmanager, Option.map_map, asU32_toInt]
    cases db.manager with
    | none => rfl
    | some manager =>
        rw [Option.map_some, Option.getD_some, Bool.eq_iff_iff, decide_eq_true_iff, Option.some_inj,
          Function.comp_apply, beq_iff_eq]
        exact eq_comm
  · obtain ⟨granted, hanswer, hbit⟩ := hgranted uid
    show ((d.ioctl fd .uidGrantedRoot ⟨Kernelsu.asU32 uid.toInt, 0⟩).map fun cmd => cmd.granted != 0).getD false = _
    rw [asU32_toInt, hanswer]
    exact hbit
  · obtain ⟨listed, hanswer, hbit⟩ := hlisted uid
    show ((d.ioctl fd .uidShouldUmount ⟨Kernelsu.asU32 uid.toInt, 0⟩).map
      fun cmd => cmd.shouldUmount != 0).getD false = _
    rw [asU32_toInt, hanswer]
    exact hbit

theorem ksuPrctlBoolQuery_eq {command : Nat} {uid : Int} {b : Bool}
    (h : d.prctl.boolQuery command uid = (b, KERNEL_SU_OPTION)) :
    Kernelsu.ksuPrctlBoolQuery d command uid = some b := by
  rw [Kernelsu.ksuPrctlBoolQuery, h]
  exact if_pos rfl

theorem ksuPrctl_flags {variant : Kernelsu.KernelSUVariant} {supportsManagerUid : Bool}
    (h : (Solution.ksuPrctl variant supportsManagerUid).Shows d db) (uid : Uid) :
    processFlags (Solution.ksuPrctl variant supportsManagerUid).setup d uid = db.flags .kernelSU uid := by
  obtain ⟨hgranted, hlisted, hmanager⟩ := h
  apply handleGetProcessFlags_eq rfl
  · show Kernelsu.uidIsManagerPrctl ⟨some ⟨.prctl, .supported⟩, some (variant, supportsManagerUid)⟩ d uid.toInt = _
    cases supportsManagerUid with
    | false =>
        rw [Kernelsu.uidIsManagerPrctl]
        dsimp only
        rw [if_neg (fun h => Bool.false_ne_true h.1)]
        rw [if_neg Bool.false_ne_true] at hmanager
        rw [hmanager]
        exact isOwner_eq _ uid
    | true =>
        rw [if_pos rfl] at hmanager
        obtain ⟨manager, hkernel, hsome⟩ := hmanager
        rw [Kernelsu.uidIsManagerPrctl]
        dsimp only
        rw [hkernel, if_pos ⟨rfl, rfl⟩, asU32_toInt, hsome, Bool.eq_iff_iff, decide_eq_true_iff, Option.some_inj,
          beq_iff_eq]
        exact eq_comm
  · show (Kernelsu.ksuPrctlBoolQuery d CMD_UID_GRANTED_ROOT uid.toInt).getD false = _
    rw [ksuPrctlBoolQuery_eq (hgranted uid)]
    rfl
  · show (Kernelsu.ksuPrctlBoolQuery d CMD_UID_SHOULD_UMOUNT uid.toInt).getD false = _
    rw [ksuPrctlBoolQuery_eq (hlisted uid)]
    rfl

theorem requester_eq {variant : Text} (h : (Solution.magisk variant).Shows d db) :
    (Magisk.requester d).or (d.owner (Magisk.userDe variant)) = db.manager := by
  obtain ⟨-, -, output, hprints, ⟨rfl, hmanager⟩ | ⟨pkg, hplain, rfl, hmanager⟩⟩ := h
  · rw [Magisk.requester, hprints, hmanager]
    rfl
  · have hlabel : ∀ c ∈ "value=".toList, isWhitespace c = false := by
      have hall : ("value=".toList.all fun c => !isWhitespace c) = true := by decide
      intro c hc
      simpa using List.all_eq_true.mp hall c hc
    have htrim : trim isWhitespace ("value=".toList ++ (pkg ++ ['\n'])) = "value=".toList ++ pkg := by
      rw [← List.append_assoc]
      apply trim_append_newline
      intro c hc
      rcases List.mem_append.mp hc with hmem | hmem
      · exact hlabel c hmem
      · exact hplain c hmem
    rw [Magisk.requester, hprints, Option.bind_some, htrim, stripPrefix_append, Option.bind_some, hmanager]

theorem magisk_flags {variant : Text} (h : (Solution.magisk variant).Shows d db) (uid : Uid) :
    processFlags (Solution.magisk variant).setup d uid = db.flags .magisk uid := by
  have hmanager := requester_eq h
  obtain ⟨hgranted, hlisted, -⟩ := h
  apply handleGetProcessFlags_eq rfl
  · show Magisk.uidIsManager (some variant) d uid.toInt = _
    rw [← hmanager, Magisk.uidIsManager]
    cases Magisk.requester d with
    | none =>
        rw [Option.none_or]
        exact isOwner_eq _ uid
    | some owner => exact isOwner_eq (some owner) uid
  · obtain ⟨output, hprints, hblank⟩ := hgranted uid
    show Magisk.uidGrantedRoot d uid.toInt = _
    rw [Magisk.uidGrantedRoot, hprints, Bool.eq_iff_iff]
    dsimp only
    rw [Bool.not_eq_true', ← Bool.not_eq_true, List.isEmpty_iff, trim_eq_nil_iff, hblank, Bool.not_eq_false]
  · obtain ⟨packages, denylist, hanswers, hdb⟩ := hlisted uid
    show MagiskDenylist.uidShouldUmount d.runCommand uid.toInt = _
    rw [Bool.eq_iff_iff, uidShouldUmount_eq_true_iff hanswers, hdb]

end Answers

/-- The daemon finds the solution that is installed at startup. From then on it tells every process what the database
of that solution has about its uid, whenever it asks and however the device has changed; and it turns the driver's own
unmounting off, if there is a driver. -/
theorem processFlags_eq {solution : Solution} {startup d : Device} {db : Database}
    (hinstalled : solution.Installed startup) (hshows : solution.Shows d db) :
    (∀ uid, processFlags (setup startup) d uid = db.flags solution.rootImpl uid) ∧
      disableSelfUmount (setup startup) =
        match solution with
        | .ksuIoctl fd => some ((fd : Int), ⟨KSU_FEATURE_KERNEL_UMOUNT, 0⟩)
        | _ => none := by
  rw [setup_eq hinstalled]
  cases solution with
  | apatch => exact ⟨apatch_flags hshows, rfl⟩
  | ksuIoctl fd => exact ⟨ksuIoctl_flags hshows, rfl⟩
  | ksuPrctl variant supportsManagerUid => exact ⟨ksuPrctl_flags hshows, rfl⟩
  | magisk variant => exact ⟨magisk_flags hshows, rfl⟩

/-! ## A device with APatch -/

def apatchHeader : Text := "pkg,exclude,allow,uid,to_uid,sctx".toList

def apatchDevice (packages : List ApatchPackage) (manager : Option Uid) : Device where
  runCommand program _ := if program = "apd" then some ("apd".toList ++ ' ' :: printed 10763) else none
  readText path := if path = Apatch.CONFIG_FILE then some (apatchConfig apatchHeader packages) else none
  owner path := if path = "/data/user_de/0/me.bmax.apatch".toList then manager else none
  fdLinks := none
  reboot := -1
  ioctl _ _ _ := none
  prctl := ⟨0, [], fun _ _ => (false, 0), 0, (0, 0)⟩

section Sample

variable (packages : List ApatchPackage) (manager : Option Uid)

theorem apd_apatchDevice (args : List Text) :
    (apatchDevice packages manager).runCommand "apd" args = some ("apd".toList ++ ' ' :: printed 10763) := by
  simp only [apatchDevice, if_true]

theorem noMagisk_apatchDevice : NoMagisk (apatchDevice packages manager) := by
  have hother : ¬ "magisk" = "apd" := by decide
  simp only [NoMagisk, apatchDevice, if_neg hother]

theorem installed_apatchDevice : Solution.apatch.Installed (apatchDevice packages manager) := by
  have hname : ("apd".toList.all fun c => !isWhitespace c) = true := by decide
  refine ⟨⟨"apd".toList, 10763, apd_apatchDevice packages manager _, by decide, ?_, by decide, by decide⟩,
    ⟨⟨nofun, Int.negSucc_lt_zero 0⟩, rfl⟩, noMagisk_apatchDevice packages manager⟩
  intro c hc
  simpa using List.all_eq_true.mp hname c hc

theorem shows_apatchDevice :
    Solution.apatch.Shows (apatchDevice packages manager)
      ⟨manager, listedBy ApatchPackage.allow packages, listedBy ApatchPackage.exclude packages⟩ := by
  have hconfig : (apatchDevice packages manager).readText Apatch.CONFIG_FILE =
      some (apatchConfig apatchHeader packages) := by simp only [apatchDevice, if_true]
  have howner : (apatchDevice packages manager).owner "/data/user_de/0/me.bmax.apatch".toList = manager := by
    simp only [apatchDevice, if_true]
  exact ⟨⟨apatchHeader, packages, by decide, hconfig, rfl, rfl⟩, howner⟩

end Sample

/-- A terminal that was granted root. -/
def terminal : ApatchPackage where
  name := "com.termux".toList
  exclude := false
  allow := true
  uid := 10123
  toUid := 0
  context := "u:r:magisk:s0".toList
  uid_lt := by decide
  comma := by decide
  plain c hc := by
    have hall : (("com.termux".toList ++ "u:r:magisk:s0".toList).all fun c => !isWhitespace c) = true := by decide
    simpa using List.all_eq_true.mp hall c hc

theorem processFlags_terminal :
    processFlags (setup (apatchDevice [terminal] (some 10077#32))) (apatchDevice [terminal] (some 10077#32)) 10123#32 =
      PROCESS_GRANTED_ROOT ||| PROCESS_ROOT_IS_APATCH := by
  have hinstalled := installed_apatchDevice [terminal] (some 10077#32)
  have hflags := (processFlags_eq hinstalled (shows_apatchDevice [terminal] (some 10077#32))).1 10123#32
  rw [hflags]
  decide

end NeoZygisk.Daemon.RootSolutions
