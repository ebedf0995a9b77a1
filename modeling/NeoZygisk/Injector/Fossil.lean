import NeoZygisk.Lib.Bytes
import NeoZygisk.Lib.FormattedInput

/-!
# The fossil on the zygote's stack

What `init` left on its stack of the arguments of a mount is found again on the stack of the zygote, and replaced
by those of a mount that looks clean. `MountArgv.find` parses the stack at every byte and checks what it reads
against the end of the stack; the replacement comes from a line of the mount table, and is written where the
fossil starts. Nothing compares its length with the room that the fossil leaves.

`staysInside_iff` says for which stacks and mount tables the fossil's room is kept to.
-/

set_option autoImplicit false

namespace NeoZygisk.Injector.Fossil

open NeoZygisk.Lib.Bytes
open NeoZygisk.Lib.Text

/-! ## Memory -/

/-- The memory around the stack, by address. -/
abbrev Memory := Nat → BitVec 8

/-- The bytes from `start` up to `limit`. -/
def bytesBetween (mem : Memory) (start limit : Nat) : List (BitVec 8) :=
  (List.range (limit - start)).map fun i => mem (start + i)

/-- `memcpy` and `memset` to `start`. -/
def writeAt (mem : Memory) (start : Nat) (bytes : List (BitVec 8)) : Memory :=
  fun a => if a < start then mem a else bytes[a - start]?.getD (mem a)

/-! ## Fossils -/

/-- A `std::string`. -/
abbrev Text := List (BitVec 8)

/-- A valid `MountArgv`. -/
structure MountArgv where
  startAddress : Nat
  source : Text
  target : Text
  filesystemType : Text
  mountOptions : Text
  baseFlags : Nat
  fossilSize : Nat
  remnantSize : Nat
  deriving DecidableEq, Repr

/-- `MountInfoEntry`. -/
structure MountInfoEntry where
  source : Text
  target : Text
  filesystemType : Text
  mountOptions : Text
  isSuspicious : Bool
  deriving DecidableEq, Repr

/-- `parse_and_copy_string_field` on the bytes up to the limit: the field, and the bytes behind its end. -/
def parseAndCopyStringField (bytes : List (BitVec 8)) : Option (Text × List (BitVec 8)) :=
  let field := bytes.takeWhile (· != 0)
  if field.length = bytes.length then none else some (field, bytes.drop (field.length + 1))

/-- `find_double_null`: how far away two null bytes stand. -/
def findDoubleNull (bytes : List (BitVec 8)) : Option Nat := indexOf [0, 0] bytes

/-- `parseFromMemory`, on the bytes from the start up to the limit. -/
def parseFromMemory (start : Nat) (bytes : List (BitVec 8)) : Option MountArgv := do
  guard (start ≠ 0)
  let (source, rest) ← parseAndCopyStringField bytes
  let (target, rest) ← parseAndCopyStringField rest
  let (filesystemType, rest) ← parseAndCopyStringField rest
  let (mountOptions, rest) ← parseAndCopyStringField rest
  if rest.length < 4 then none
  else
    let remnants := rest.drop 4
    return {
      startAddress := start
      source := source
      target := target
      filesystemType := filesystemType
      mountOptions := mountOptions
      baseFlags := ofBytes (rest.take 4)
      fossilSize := bytes.length - remnants.length
      remnantSize := (findDoubleNull remnants).getD 0 }

namespace MountArgv

/-- `passesHeuristics`. -/
def passesHeuristics (fossil : MountArgv) : Bool :=
  if fossil.target = [] ∨ fossil.source = [] ∨ fossil.filesystemType = [] then false
  else if fossil.target.head? ≠ some 0x2f then false
  else if 10 < fossil.filesystemType.length ∨ fossil.filesystemType.length < 2 then false
  else contains (ascii "seclabel") fossil.mountOptions

/-- `find`: the first address with a fossil. -/
def find (mem : Memory) (searchFrom searchTo : Nat) : Option MountArgv :=
  (List.range (searchTo - searchFrom)).findSome? fun i =>
    (parseFromMemory (searchFrom + i) (bytesBetween mem (searchFrom + i) searchTo)).filter passesHeuristics

/-- The constructor from a clean entry. -/
def ofEntry (cleanEntry : MountInfoEntry) (targetAddress baseFlags : Nat) : MountArgv where
  startAddress := targetAddress
  source := cleanEntry.source
  target := cleanEntry.target
  filesystemType := cleanEntry.filesystemType
  mountOptions := cleanEntry.mountOptions
  baseFlags := baseFlags
  fossilSize := (cleanEntry.source.length + 1) + (cleanEntry.target.length + 1) +
    (cleanEntry.filesystemType.length + 1) + (cleanEntry.mountOptions.length + 1) + 4
  remnantSize := 0

/-- What `writeToMemory` copies: each text with its terminator, and the flags. -/
def image (fossil : MountArgv) : List (BitVec 8) :=
  (fossil.source ++ [0]) ++ (fossil.target ++ [0]) ++ (fossil.filesystemType ++ [0]) ++
    (fossil.mountOptions ++ [0]) ++ toBytes 4 fossil.baseFlags

def writeToMemory (fossil : MountArgv) (mem : Memory) : Memory := writeAt mem fossil.startAddress fossil.image

def cleanMemory (fossil : MountArgv) (mem : Memory) : Memory :=
  writeAt mem fossil.startAddress (List.replicate (fossil.fossilSize + fossil.remnantSize) 0)

end MountArgv

/-! ## The mount table -/

/-- `isspace`, on a byte. -/
def isSpace (c : BitVec 8) : Bool := Lib.FormattedInput.isSpace (.ofNat c.toNat)

/-- `parseMountInfoLine`, with the mark that `parseMountInfo` gives the entry. -/
def parseMountInfoLine (line : Text) (isSuspicious : Bool) : MountInfoEntry :=
  match indexOf (ascii " - ") line with
  | none => ⟨[], [], [], [], isSuspicious⟩
  | some separatorPos =>
      -- the first four fields are skipped
      let (_, ssBefore) := word isSpace (line.take separatorPos)
      let (_, ssBefore) := word isSpace ssBefore
      let (_, ssBefore) := word isSpace ssBefore
      let (_, ssBefore) := word isSpace ssBefore
      let (target, _) := word isSpace ssBefore
      let (filesystemType, ssAfter) := word isSpace (line.drop (separatorPos + 3))
      let (source, ssAfter) := word isSpace ssAfter
      ⟨source, target, filesystemType, ssAfter.dropWhile isSpace, isSuspicious⟩

/-- The keywords of `parseMountInfo`. -/
def keywords : List Text :=
  [ascii "KSU", ascii "/debug_ramdisk", ascii "APATCH", ascii "/data/adb", ascii "/adb/modules",
    ascii "/dev/block/loop"]

/-- `parseMountInfo` on the text of the mount table; there is none if it cannot be opened. -/
def parseMountInfo (mountinfo : Option Text) : List MountInfoEntry :=
  match mountinfo with
  | none => []
  | some text => (lines 0x0a text).map fun line =>
      parseMountInfoLine line (keywords.any fun keyword => contains keyword line)

/-- `clean_template_opt`: the entry of the anchor, if a suspicious one follows it. -/
def cleanTemplate (anchor : Text) : List MountInfoEntry → Option MountInfoEntry
  | previous :: entry :: entries =>
      if contains anchor previous.target && entry.isSuspicious then some previous
      else cleanTemplate anchor (entry :: entries)
  | _ => none

/-! ## The replacement -/

/-- The memory afterwards, and the fossil that was written. -/
structure Spoofed where
  mem : Memory
  written : Option MountArgv

/-- `spoof_zygote_fossil`. -/
def spoofZygoteFossil (mem : Memory) (searchFrom searchTo : Nat) (anchor : Text) (mountinfo : Option Text) :
    Spoofed :=
  match MountArgv.find mem searchFrom searchTo with
  | none => ⟨mem, none⟩
  | some suspiciousFossil =>
      if contains anchor suspiciousFossil.target then ⟨mem, none⟩
      else
        match cleanTemplate anchor (parseMountInfo mountinfo) with
        | none => ⟨mem, none⟩
        | some cleanEntry =>
            let cleanFossil :=
              MountArgv.ofEntry cleanEntry suspiciousFossil.startAddress suspiciousFossil.baseFlags
            ⟨cleanFossil.writeToMemory (suspiciousFossil.cleanMemory mem), some cleanFossil⟩

/-! ## The room of a fossil -/

/-- The address lies in the fossil or its remnants. -/
def MountArgv.Covers (fossil : MountArgv) (a : Nat) : Prop :=
  fossil.startAddress ≤ a ∧ a < fossil.startAddress + fossil.fossilSize + fossil.remnantSize

section Room

variable (mem : Memory) (searchFrom searchTo : Nat) (anchor : Text) (mountinfo : Option Text)

/-- Only bytes of the fossil that was found change, which all lie in the searched range, and what is written
fits there. -/
structure StaysInside : Prop where
  covered : ∀ a, (spoofZygoteFossil mem searchFrom searchTo anchor mountinfo).mem a ≠ mem a →
    ∃ fossil, MountArgv.find mem searchFrom searchTo = some fossil ∧ fossil.Covers a
  searched : ∀ a, (spoofZygoteFossil mem searchFrom searchTo anchor mountinfo).mem a ≠ mem a →
    searchFrom ≤ a ∧ a < searchTo
  fits : ∀ written, (spoofZygoteFossil mem searchFrom searchTo anchor mountinfo).written = some written →
    ∃ fossil, MountArgv.find mem searchFrom searchTo = some fossil ∧
      written.fossilSize ≤ fossil.fossilSize + fossil.remnantSize

/-- If there is a fossil, not of the anchor itself, and a clean entry, the entry is no longer than the fossil
with its remnants. -/
def TemplateFits : Prop :=
  ∀ fossil entry, MountArgv.find mem searchFrom searchTo = some fossil → contains anchor fossil.target = false →
    cleanTemplate anchor (parseMountInfo mountinfo) = some entry →
    entry.source.length + entry.target.length + entry.filesystemType.length + entry.mountOptions.length + 8 ≤
      fossil.fossilSize + fossil.remnantSize

end Room

/-! ## What is read and written -/

theorem writeAt_of_not_mem {mem : Memory} {start a : Nat} {bytes : List (BitVec 8)}
    (h : ¬ (start ≤ a ∧ a < start + bytes.length)) : writeAt mem start bytes a = mem a := by
  rw [writeAt]
  split
  · rfl
  · rw [List.getElem?_eq_none (by omega), Option.getD_none]

theorem length_bytesBetween (mem : Memory) (start limit : Nat) :
    (bytesBetween mem start limit).length = limit - start := by
  rw [bytesBetween, List.length_map, List.length_range]

/-- A field ends before the limit. -/
theorem length_of_parseAndCopyStringField {bytes rest : List (BitVec 8)} {field : Text}
    (h : parseAndCopyStringField bytes = some (field, rest)) : rest.length ≤ bytes.length := by
  rw [parseAndCopyStringField] at h
  split at h
  · cases h
  · cases h
    rw [List.length_drop]
    omega

/-- A fossil lies between its start and the limit. -/
theorem parseFromMemory_spec {start : Nat} {bytes : List (BitVec 8)} {fossil : MountArgv}
    (h : parseFromMemory start bytes = some fossil) :
    fossil.startAddress = start ∧ fossil.fossilSize + fossil.remnantSize ≤ bytes.length := by
  simp only [parseFromMemory, Option.bind_eq_bind, Option.bind_eq_some_iff, Prod.exists] at h
  obtain ⟨-, -, source, rest, hsource, target, rest', htarget, filesystemType, rest'', htype, mountOptions, remaining,
    hoptions, h⟩ := h
  split_ifs at h
  obtain rfl := Option.some.inj h
  have h1 := length_of_parseAndCopyStringField hsource
  have h2 := length_of_parseAndCopyStringField htarget
  have h3 := length_of_parseAndCopyStringField htype
  have h4 := length_of_parseAndCopyStringField hoptions
  -- the remnants lie behind the flags
  have hremnants : (findDoubleNull (remaining.drop 4)).getD 0 ≤ (remaining.drop 4).length := by
    cases hnull : findDoubleNull (remaining.drop 4) with
    | none => exact Nat.zero_le _
    | some i =>
        have := indexOf_add_length_le hnull
        rw [Option.getD_some]
        omega
  have hdrop : (remaining.drop 4).length ≤ remaining.length := by
    rw [List.length_drop]
    omega
  refine ⟨rfl, ?_⟩
  dsimp only
  omega

/-- A fossil that is found lies in the searched range. -/
theorem find_spec {mem : Memory} {searchFrom searchTo : Nat} {fossil : MountArgv}
    (h : MountArgv.find mem searchFrom searchTo = some fossil) :
    searchFrom ≤ fossil.startAddress ∧
      fossil.startAddress + fossil.fossilSize + fossil.remnantSize ≤ searchTo := by
  obtain ⟨i, hi, hparse⟩ := List.exists_of_findSome?_eq_some h
  have hlt := List.mem_range.mp hi
  obtain ⟨hstart, hsize⟩ := parseFromMemory_spec (Option.filter_eq_some_iff.mp hparse).1
  rw [length_bytesBetween] at hsize
  omega

theorem length_image (fossil : MountArgv) :
    fossil.image.length = fossil.source.length + fossil.target.length + fossil.filesystemType.length +
      fossil.mountOptions.length + 8 := by
  simp only [MountArgv.image, List.length_append, List.length_singleton, length_toBytes]
  omega

/-! ## When the replacement stays inside -/

variable {mem : Memory} {searchFrom searchTo : Nat} {anchor : Text} {mountinfo : Option Text}

/-- The memory is left alone, or a clean entry is written over the fossil. -/
theorem spoofZygoteFossil_cases (mem : Memory) (searchFrom searchTo : Nat) (anchor : Text)
    (mountinfo : Option Text) :
    spoofZygoteFossil mem searchFrom searchTo anchor mountinfo = ⟨mem, none⟩ ∨
      ∃ fossil entry, MountArgv.find mem searchFrom searchTo = some fossil ∧
        contains anchor fossil.target = false ∧
        cleanTemplate anchor (parseMountInfo mountinfo) = some entry ∧
        spoofZygoteFossil mem searchFrom searchTo anchor mountinfo =
          ⟨(MountArgv.ofEntry entry fossil.startAddress fossil.baseFlags).writeToMemory (fossil.cleanMemory mem),
            some (MountArgv.ofEntry entry fossil.startAddress fossil.baseFlags)⟩ := by
  rw [spoofZygoteFossil]
  cases hfind : MountArgv.find mem searchFrom searchTo with
  | none => exact .inl rfl
  | some fossil =>
      cases hanchor : contains anchor fossil.target with
      | true => exact .inl (by simp only [hanchor, ↓reduceIte])
      | false =>
          cases htemplate : cleanTemplate anchor (parseMountInfo mountinfo) with
          | none => exact .inl (by simp only [hanchor, Bool.false_eq_true, ↓reduceIte])
          | some entry =>
              exact .inr ⟨fossil, entry, rfl, hanchor, rfl,
                by simp only [hanchor, Bool.false_eq_true, ↓reduceIte]⟩

/-- The replacement of a fossil with enough room changes only bytes of the fossil. -/
theorem covers_of_ne {fossil : MountArgv} {entry : MountInfoEntry}
    (hfits : entry.source.length + entry.target.length + entry.filesystemType.length +
      entry.mountOptions.length + 8 ≤ fossil.fossilSize + fossil.remnantSize) {a : Nat}
    (hne : (MountArgv.ofEntry entry fossil.startAddress fossil.baseFlags).writeToMemory
      (fossil.cleanMemory mem) a ≠ mem a) : fossil.Covers a := by
  by_contra hout
  apply hne
  rw [MountArgv.Covers] at hout
  rw [MountArgv.writeToMemory, writeAt_of_not_mem, MountArgv.cleanMemory, writeAt_of_not_mem]
  · rw [List.length_replicate]
    omega
  · rw [length_image]
    simp only [MountArgv.ofEntry]
    omega

/-- `spoof_zygote_fossil` stays inside the fossil exactly if the clean entry fits there. -/
theorem staysInside_iff (mem : Memory) (searchFrom searchTo : Nat) (anchor : Text) (mountinfo : Option Text) :
    StaysInside mem searchFrom searchTo anchor mountinfo ↔
      TemplateFits mem searchFrom searchTo anchor mountinfo := by
  constructor
  · intro h fossil entry hfind hanchor htemplate
    rcases spoofZygoteFossil_cases mem searchFrom searchTo anchor mountinfo with
      hsame | ⟨fossil', entry', hfind', -, htemplate', hspoof⟩
    · -- with a fossil and an entry something is written
      rw [spoofZygoteFossil, hfind] at hsame
      simp only [hanchor, htemplate, Bool.false_eq_true, ↓reduceIte] at hsame
      cases (Spoofed.mk.inj hsame).2
    · obtain rfl := Option.some.inj (hfind.symm.trans hfind')
      obtain rfl := Option.some.inj (htemplate.symm.trans htemplate')
      obtain ⟨fossil'', hfind'', hle⟩ := h.fits _ (by rw [hspoof])
      obtain rfl := Option.some.inj (hfind.symm.trans hfind'')
      simp only [MountArgv.ofEntry] at hle
      omega
  · intro h
    rcases spoofZygoteFossil_cases mem searchFrom searchTo anchor mountinfo with
      hsame | ⟨fossil, entry, hfind, hanchor, htemplate, hspoof⟩
    · constructor
      · intro a hne
        rw [hsame] at hne
        exact absurd rfl hne
      · intro a hne
        rw [hsame] at hne
        exact absurd rfl hne
      · intro written hwritten
        rw [hsame] at hwritten
        cases hwritten
    · have hfits := h fossil entry hfind hanchor htemplate
      constructor
      · intro a hne
        rw [hspoof] at hne
        exact ⟨fossil, hfind, covers_of_ne hfits hne⟩
      · intro a hne
        rw [hspoof] at hne
        obtain ⟨hle, hlt⟩ := covers_of_ne hfits hne
        obtain ⟨hfrom, hto⟩ := find_spec hfind
        exact ⟨by omega, by omega⟩
      · intro written hwritten
        rw [hspoof] at hwritten
        obtain rfl := Option.some.inj hwritten
        refine ⟨fossil, hfind, ?_⟩
        simp only [MountArgv.ofEntry]
        omega

/-! ## A long line -/

/-- A stack with the arguments of a mount and a frame above them. -/
def smallStack : Memory := fun a =>
  (ascii "none\x00/apex\x00tmpfs\x00seclabel\x00" ++ [1, 0, 0, 0] ++ List.replicate 60 0xff)[a - 0x1000]?.getD 0

/-- The anchor is mounted from a device with a long name, and a module's mount follows. -/
def longLine : Text :=
  ascii "30 20 8:1 / /data/ref_profiles rw - ext4 /dev/block/by-name/userdata rw,seclabel\n" ++
    ascii "31 20 7:0 / /system/bin rw - tmpfs KSU rw\n"

/-- The fossil has 30 bytes, and 68 are written over it. -/
theorem longLine_overruns : ¬ StaysInside smallStack 0x1000 0x105a (ascii "ref_profiles") (some longLine) := by
  intro h
  have hfind : (MountArgv.find smallStack 0x1000 0x105a).map (fun fossil =>
      (fossil.startAddress, fossil.fossilSize, fossil.remnantSize)) = some (0x1000, 30, 0) := by
    decide +kernel
  -- the byte 40 bytes on was part of the frame above
  have hchanged : (spoofZygoteFossil smallStack 0x1000 0x105a (ascii "ref_profiles") (some longLine)).mem 0x1028 ≠
      smallStack 0x1028 := by
    decide +kernel
  obtain ⟨fossil, hfossil, hcovers⟩ := h.covered 0x1028 hchanged
  rw [hfossil, Option.map_some, Option.some.injEq, Prod.mk.injEq, Prod.mk.injEq] at hfind
  obtain ⟨hstart, hsize, hremnant⟩ := hfind
  rw [MountArgv.Covers, hstart, hsize, hremnant] at hcovers
  omega

end NeoZygisk.Injector.Fossil
