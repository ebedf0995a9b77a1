import NeoZygisk.Common.ProcessFlags
import NeoZygisk.Lib.Text

/-!
# The denylist of Magisk

The daemon learns from `pm` which packages have a uid, and asks Magisk's database about the first of them. A uid that
several packages share is on the denylist if any of them is; the other managers are asked about the uid itself, or go
through all of its packages.

`uidShouldUmount_iff` says for which lists of packages the answer is right.
-/

set_option autoImplicit false

namespace NeoZygisk.Daemon.MagiskDenylist

open NeoZygisk.Common
open NeoZygisk.Lib.Mask
open NeoZygisk.Lib.Text

/-- A `String`. -/
abbrev Text := List Char

/-! ## The query -/

/-- `char::is_whitespace`. -/
def isWhitespace (c : Char) : Bool :=
  decide (0x09 ≤ c.toNat ∧ c.toNat ≤ 0x0d) || c.toNat == 0x20 || c.toNat == 0x85 || c.toNat == 0xa0 ||
    c.toNat == 0x1680 || decide (0x2000 ≤ c.toNat ∧ c.toNat ≤ 0x200a) || c.toNat == 0x2028 ||
    c.toNat == 0x2029 || c.toNat == 0x202f || c.toNat == 0x205f || c.toNat == 0x3000

/-- `str::lines`: a line may also end in a carriage return and a line feed. -/
def textLines (text : Text) : List Text :=
  (lines '\n' text).map fun line => if line.getLast? = some '\r' then line.dropLast else line

/-- `str::strip_prefix`. -/
def stripPrefix (part text : Text) : Option Text := if part <+: text then some (text.drop part.length) else none

/-- `split(' ').next()`. -/
def firstPart (text : Text) : Text := text.takeWhile (· != ' ')

/-- What a line of the list of packages begins with. -/
def packageLabel : Text := "package:".toList

/-- The package that `uid_should_umount` takes from the list of packages. -/
def pkgName (packagesList : Text) : Option Text :=
  ((textLines packagesList).findSome? fun line => stripPrefix packageLabel (trim isWhitespace line)).map firstPart

/-- The query about a package. -/
def denylistQuery (pkgName : Text) : Text :=
  "SELECT 1 FROM denylist WHERE package_name=\"".toList ++ pkgName ++ "\" LIMIT 1".toList

section Query

-- `run_command`: what a program prints when it is run with arguments
variable (runCommand : String → List Text → Option Text)

/-- `uid_should_umount`. -/
def uidShouldUmount (uid : Int) : Bool :=
  match runCommand "pm" ["list".toList, "packages".toList, "--uid".toList, (toString uid).toList] with
  | none => false
  | some packagesList =>
      match pkgName packagesList with
      | none => false
      | some name =>
          -- the other packages of the uid are not asked about
          match runCommand "magisk" ["--sqlite".toList, denylistQuery name] with
          | none => false
          | some output => !(trim isWhitespace output).isEmpty

end Query

/-! ## What the commands print -/

/-- A package with its uid. Neither white space nor a quotation mark is in its name. -/
structure Package where
  name : Text
  uid : Nat
  plain : ∀ c ∈ name, isWhitespace c = false ∧ c ≠ '"'

/-- What stands before the uid in such a line. -/
def uidLabel : Text := "uid:".toList

/-- A line of `pm list packages --uid`. -/
def Package.line (package : Package) : Text :=
  packageLabel ++ (package.name ++ ' ' :: (uidLabel ++ Nat.toDigits 10 package.uid))

def pmOutput (packages : List Package) : Text := packages.flatMap fun package => package.line ++ ['\n']

/-- Both commands succeed: `pm` lists the packages, and the database prints a row for a package of the denylist and
nothing for another one. -/
structure Answers (runCommand : String → List Text → Option Text) (uid : Int) (packages : List Package)
    (denylist : List Text) : Prop where
  pm : runCommand "pm" ["list".toList, "packages".toList, "--uid".toList, (toString uid).toList] =
    some (pmOutput packages)
  magisk : ∀ package ∈ packages, ∃ output,
    runCommand "magisk" ["--sqlite".toList, denylistQuery package.name] = some output ∧
      ((∀ c ∈ output, isWhitespace c = true) ↔ package.name ∉ denylist)

/-! ## The package that is taken -/

theorem stripPrefix_append (part rest : Text) : stripPrefix part (part ++ rest) = some rest := by
  rw [stripPrefix, if_pos (List.prefix_append part rest), List.drop_left]

theorem isWhitespace_of_isDigit {c : Char} (h : c.isDigit = true) : isWhitespace c = false := by
  have hbounds : 48 ≤ c.toNat ∧ c.toNat ≤ 57 := by
    simpa [Char.isDigit, UInt32.le_iff_toNat_le] using h
  simp only [isWhitespace, Bool.or_eq_false_iff, decide_eq_false_iff_not, beq_eq_false_iff_ne]
  omega

theorem isWhitespace_of_mem_digits {n : Nat} {c : Char} (h : c ∈ Nat.toDigits 10 n) : isWhitespace c = false := by
  apply isWhitespace_of_isDigit
  exact Nat.isDigit_of_mem_toDigits (by omega) (by omega) h

/-- A line has spaces, but no other white space. -/
theorem eq_space_or_of_mem_line {package : Package} {c : Char} (h : c ∈ package.line) :
    c = ' ' ∨ isWhitespace c = false := by
  rw [Package.line, List.mem_append, List.mem_append, List.mem_cons, List.mem_append] at h
  rcases h with hlabel | hname | hspace | huid | hdigit
  · have hplain : (packageLabel.all fun c => !isWhitespace c) = true := by decide
    exact .inr (by simpa using List.all_eq_true.mp hplain c hlabel)
  · exact .inr (package.plain c hname).1
  · exact .inl hspace
  · have hplain : (uidLabel.all fun c => !isWhitespace c) = true := by decide
    exact .inr (by simpa using List.all_eq_true.mp hplain c huid)
  · exact .inr (isWhitespace_of_mem_digits hdigit)

theorem not_mem_line (package : Package) {c : Char} (hspace : c ≠ ' ') (h : isWhitespace c = true) :
    c ∉ package.line := by
  intro hc
  rcases eq_space_or_of_mem_line hc with heq | hfalse
  · exact hspace heq
  · rw [h] at hfalse
    cases hfalse

/-- A line ends with a digit. -/
theorem isWhitespace_getLast_line {package : Package} {c : Char} (h : c ∈ package.line.getLast?) :
    isWhitespace c = false := by
  have hsplit : package.line =
      (packageLabel ++ (package.name ++ ' ' :: uidLabel)) ++ Nat.toDigits 10 package.uid := by
    rw [Package.line, List.append_assoc, List.append_assoc, List.cons_append]
  rw [hsplit, List.getLast?_append, Option.or_of_isSome] at h
  · exact isWhitespace_of_mem_digits (List.mem_of_getLast? h)
  · rw [List.getLast?_isSome]
    exact Nat.toDigits_ne_nil

theorem trim_line (package : Package) : trim isWhitespace package.line = package.line := by
  apply trim_eq_self
  · rintro c ⟨⟩
    decide
  · intro c hc
    exact isWhitespace_getLast_line hc

theorem textLines_pmOutput (packages : List Package) :
    textLines (pmOutput packages) = packages.map Package.line := by
  have hlines : lines '\n' (pmOutput packages) = packages.map Package.line := by
    have hflat : pmOutput packages = (packages.map Package.line).flatMap fun line => line ++ ['\n'] := by
      rw [pmOutput, List.flatMap_map]
    rw [hflat]
    apply lines_flatMap
    intro line hline
    obtain ⟨package, -, rfl⟩ := List.mem_map.mp hline
    exact not_mem_line package (by decide) (by decide)
  rw [textLines, hlines, List.map_map]
  apply List.map_congr_left
  intro package _
  rw [Function.comp_apply, if_neg]
  intro hlast
  have hdigit := isWhitespace_getLast_line (Option.mem_def.mpr hlast)
  cases hdigit

/-- The first package is taken. -/
theorem pkgName_pmOutput (packages : List Package) :
    pkgName (pmOutput packages) = packages.head?.map Package.name := by
  rw [pkgName, textLines_pmOutput]
  cases packages with
  | nil => rfl
  | cons package packages =>
      have hname : firstPart (package.name ++ ' ' :: (uidLabel ++ Nat.toDigits 10 package.uid)) =
          package.name := by
        apply takeWhile_append_stop
        · intro c hc
          apply bne_iff_ne.mpr
          rintro rfl
          cases (package.plain ' ' hc).1
        · rintro c ⟨⟩
          rfl
      rw [List.map_cons, List.findSome?_cons, trim_line, Package.line, stripPrefix_append]
      exact congrArg some hname

/-! ## When the answer is right -/

variable {runCommand : String → List Text → Option Text} {uid : Int} {packages : List Package}
  {denylist : List Text}

/-- The answer goes by the first package. -/
theorem uidShouldUmount_eq_true_iff (h : Answers runCommand uid packages denylist) :
    uidShouldUmount runCommand uid = true ↔ ∃ package ∈ packages.head?, package.name ∈ denylist := by
  simp only [uidShouldUmount, h.pm, pkgName_pmOutput]
  cases packages with
  | nil =>
      constructor
      · intro hfalse
        cases hfalse
      · rintro ⟨package, ⟨⟩, -⟩
  | cons package packages =>
      obtain ⟨output, hquery, houtput⟩ := h.magisk package List.mem_cons_self
      have hanswer : (!(trim isWhitespace output).isEmpty) = true ↔ package.name ∈ denylist := by
        rw [Bool.not_eq_true', ← Bool.not_eq_true, List.isEmpty_iff, trim_eq_nil_iff, houtput, not_not]
      simp only [List.head?_cons, Option.map_some, hquery]
      rw [hanswer]
      constructor
      · intro hmem
        exact ⟨package, rfl, hmem⟩
      · rintro ⟨_, ⟨⟩, hmem⟩
        exact hmem

/-- The answer for a uid is right exactly if the first of its packages is on the denylist, or none is. -/
theorem uidShouldUmount_iff (h : Answers runCommand uid packages denylist) :
    (uidShouldUmount runCommand uid = true ↔ ∃ package ∈ packages, package.name ∈ denylist) ↔
      (∃ package ∈ packages.head?, package.name ∈ denylist) ∨
        ∀ package ∈ packages, package.name ∉ denylist := by
  rw [uidShouldUmount_eq_true_iff h]
  constructor
  · intro hright
    by_cases hlisted : ∃ package ∈ packages, package.name ∈ denylist
    · exact .inl (hright.mpr hlisted)
    · right
      intro package hpackage hmem
      exact hlisted ⟨package, hpackage, hmem⟩
  · rintro (⟨package, hfirst, hmem⟩ | hnone)
    · exact iff_of_true ⟨package, hfirst, hmem⟩ ⟨package, List.mem_of_mem_head? hfirst, hmem⟩
    · apply iff_of_false
      · rintro ⟨package, hfirst, hmem⟩
        exact hnone package (List.mem_of_mem_head? hfirst) hmem
      · rintro ⟨package, hpackage, hmem⟩
        exact hnone package hpackage hmem

/-- The answer is the denylist bit of a uid that is not the manager's. -/
theorem has_denylist_handleGetProcessFlags (isManager grantedRoot : Int → Bool) (uid : Uid) :
    has (handleGetProcessFlags .magisk ⟨isManager, grantedRoot, uidShouldUmount runCommand⟩ uid)
        PROCESS_ON_DENYLIST = (!isManager uid.toInt && uidShouldUmount runCommand uid.toInt) := by
  have hroot : has PROCESS_ROOT_IS_MAGISK PROCESS_ON_DENYLIST = false := by decide
  have hmanager : has PROCESS_IS_MANAGER PROCESS_ON_DENYLIST = false := by decide
  have hgranted : has PROCESS_GRANTED_ROOT PROCESS_ON_DENYLIST = false := by decide
  have hlisted : has PROCESS_ON_DENYLIST PROCESS_ON_DENYLIST = true := by decide
  have hflags : uidFlags .magisk ⟨isManager, grantedRoot, uidShouldUmount runCommand⟩ uid.toInt =
      if isManager uid.toInt then PROCESS_IS_MANAGER
      else
        (if grantedRoot uid.toInt then PROCESS_GRANTED_ROOT else 0#32) |||
          (if uidShouldUmount runCommand uid.toInt then PROCESS_ON_DENYLIST else 0#32) := rfl
  rw [handleGetProcessFlags, has_or, rootFlag, hroot, Bool.or_false, hflags]
  by_cases hmanages : isManager uid.toInt = true
  · rw [if_pos hmanages, hmanager, hmanages]
    rfl
  · have hother : isManager uid.toInt = false := by simpa using hmanages
    have hroot : has (if grantedRoot uid.toInt = true then PROCESS_GRANTED_ROOT else 0#32) PROCESS_ON_DENYLIST =
        false := by
      split
      · exact hgranted
      · exact has_zero _
    rw [if_neg hmanages, has_or, hroot, hother]
    by_cases hunmount : uidShouldUmount runCommand uid.toInt = true
    · rw [if_pos hunmount, hlisted, hunmount]
      rfl
    · have hkeep : uidShouldUmount runCommand uid.toInt = false := by simpa using hunmount
      rw [if_neg hunmount, has_zero, hkeep]
      rfl

/-! ## A shared uid -/

theorem denylistQuery_inj {name name' : Text} (h : denylistQuery name = denylistQuery name') : name = name' :=
  List.append_cancel_left (List.append_cancel_right h)

/-- A device with the packages of one uid and a denylist. -/
def device (packages : List Package) (denylist : List Text) (program : String) (args : List Text) : Option Text :=
  if program = "pm" then some (pmOutput packages)
  else if denylist.any fun name => args == ["--sqlite".toList, denylistQuery name] then some ['1', '=', '1', '\n']
  else some []

theorem answers_device (uid : Int) (packages : List Package) (denylist : List Text) :
    Answers (device packages denylist) uid packages denylist := by
  constructor
  · rw [device, if_pos rfl]
  · intro package _
    have hquery : (denylist.any fun name =>
        ["--sqlite".toList, denylistQuery package.name] == ["--sqlite".toList, denylistQuery name]) = true ↔
          package.name ∈ denylist := by
      rw [List.any_eq_true]
      constructor
      · rintro ⟨name, hname, heq⟩
        have hsame := (List.cons.inj (List.cons.inj (eq_of_beq heq)).2).1
        rwa [denylistQuery_inj hsame]
      · intro hmem
        exact ⟨package.name, hmem, beq_self_eq_true _⟩
    rw [device, if_neg (by decide)]
    by_cases hmem : package.name ∈ denylist
    · refine ⟨['1', '=', '1', '\n'], if_pos (hquery.mpr hmem), ?_⟩
      apply iff_of_false
      · intro hblank
        have hdigit : isWhitespace '1' = false := by decide
        exact Bool.noConfusion (hdigit.symm.trans (hblank '1' List.mem_cons_self))
      · exact not_not_intro hmem
    · refine ⟨[], if_neg fun h => hmem (hquery.mp h), ?_⟩
      exact iff_of_true (List.forall_mem_nil _) hmem

theorem plain_of_all {name : Text} (h : (name.all fun c => !isWhitespace c && c != '"') = true) :
    ∀ c ∈ name, isWhitespace c = false ∧ c ≠ '"' := by
  intro c hc
  simpa using List.all_eq_true.mp h c hc

/-- Two packages that share a uid. -/
def contacts : Package := ⟨"com.example.contacts".toList, 10086, plain_of_all (by decide)⟩

def dialer : Package := ⟨"com.example.dialer".toList, 10086, plain_of_all (by decide)⟩

/-- Only the dialer is on the denylist. In one order the answer is no, in the other it is yes. -/
theorem uidShouldUmount_sharedUid :
    ¬ (uidShouldUmount (device [contacts, dialer] [dialer.name]) 10086 = true ↔
        ∃ package ∈ [contacts, dialer], package.name ∈ [dialer.name]) ∧
      uidShouldUmount (device [dialer, contacts] [dialer.name]) 10086 = true := by
  have hfirst := uidShouldUmount_eq_true_iff (answers_device 10086 [contacts, dialer] [dialer.name])
  have hother := uidShouldUmount_eq_true_iff (answers_device 10086 [dialer, contacts] [dialer.name])
  refine ⟨?_, hother.mpr ⟨dialer, rfl, List.mem_singleton_self _⟩⟩
  intro hright
  have hyes := hright.mpr ⟨dialer, List.mem_cons_of_mem _ List.mem_cons_self, List.mem_singleton_self _⟩
  obtain ⟨package, ⟨⟩, hmem⟩ := hfirst.mp hyes
  have hother : contacts.name ≠ dialer.name := by decide
  exact hother (List.mem_singleton.mp hmem)

/-- With both on the denylist the answer is right. -/
theorem uidShouldUmount_both :
    uidShouldUmount (device [contacts, dialer] [dialer.name, contacts.name]) 10086 = true := by
  have hlisted : contacts.name ∈ [dialer.name, contacts.name] := List.mem_cons_of_mem _ List.mem_cons_self
  have hright := (uidShouldUmount_iff (answers_device 10086 [contacts, dialer] [dialer.name, contacts.name])).mpr
    (.inl ⟨contacts, rfl, hlisted⟩)
  exact hright.mpr ⟨contacts, List.mem_cons_self, hlisted⟩

end NeoZygisk.Daemon.MagiskDenylist
