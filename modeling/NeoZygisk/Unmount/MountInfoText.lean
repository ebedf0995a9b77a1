import NeoZygisk.Lib.FormattedInput
import NeoZygisk.Unmount.Strategies
import Mathlib.Algebra.Group.Nat.Defs

/-!
# Reading the mount table

The kernel prints a mount as a line of words: ids, device, root, mount point, options, any number of optional
fields, and behind a dash the type, the source and the options of the file system. White space and backslashes
in a word are printed as octal escapes.

`parse_mount_info` cuts a line at the first dash between spaces and reads the words in front of it and behind it
from streams that skip white space. It leaves escapes as they are. `inverts_iff` says which mount tables are
read back.
-/

set_option autoImplicit false

namespace NeoZygisk.Unmount.MountInfoText

open NeoZygisk.Lib.Text NeoZygisk.Lib.FormattedInput NeoZygisk.Lib.Selection

/-! ## Parsing -/

/-- `stream >> string`: the next word. -/
def extractWord (stream : Text) : Option (Text × Text) :=
  let (w, rest) := word isSpace stream
  if w = [] then none else some (w, rest)

/-- `stream >> unsigned`: a number that does not fit is a failure, a negative one wraps around. -/
def extractUnsigned (stream : Text) : Option (Nat × Text) := do
  let (negative, n, rest) ← readNumber 10 stream
  if 2 ^ 32 ≤ n then none
  else return (if negative then (2 ^ 32 - n) % 2 ^ 32 else n, rest)

/-- `%u` of `sscanf`. -/
def scanUnsigned (text : Text) : Option (Nat × Text) :=
  (readNumber 10 text).map fun (negative, n, rest) => (storeUnsigned 32 negative n, rest)

/-- `sscanf(device_str, "%u:%u", &maj, &min)`. -/
def scanDevice (deviceStr : Text) : Option (Nat × Nat) := do
  let (maj, rest) ← scanUnsigned deviceStr
  match rest with
  | ':' :: rest =>
      let (min, _) ← scanUnsigned rest
      return (maj, min)
  | _ => none

/-- `makedev`. -/
def makedev (maj min : Nat) : Nat :=
  ((maj &&& 0xfffff000) <<< 32) ||| ((maj &&& 0xfff) <<< 8) ||| ((min &&& 0xffffff00) <<< 12) ||| (min &&& 0xff)

/-- What remains of a stream, without a space in front. -/
def remaining : Text → Text
  | ' ' :: rest => rest
  | _ => []

/-- The fields of the parts before and behind the separator; `none` if the line is malformed. -/
def parseParts (line part1 part2 : Text) : Option MountInfo := do
  let (id, p1) ← extractUnsigned part1
  let (parent, p1) ← extractUnsigned p1
  let (deviceStr, p1) ← extractWord p1
  let (root, p1) ← extractWord p1
  let (target, p1) ← extractWord p1
  let (maj, min) ← scanDevice deviceStr
  let (type, p2) ← extractWord part2
  let (source, p2) ← extractWord p2
  return {
    id := id
    parent := parent
    device := makedev maj min
    root := .ofList root
    target := .ofList target
    vfsOptions := .ofList (remaining p1)
    type := .ofList type
    source := .ofList source
    fsOptions := .ofList (remaining p2)
    rawInfo := .ofList line }

/-- One line of `parse_mount_info`. -/
def parseMountInfoLine (line : Text) : Option MountInfo := do
  let separatorPos ← indexOf [' ', '-', ' '] line
  parseParts line (line.take separatorPos) (line.drop (separatorPos + 3))

/-- `parse_mount_info`, on the text of the file; there is none if it cannot be opened. -/
def parseMountInfo (file : Option Text) : List MountInfo :=
  match file with
  | none => []
  | some text => (lines '\n' text).filterMap parseMountInfoLine

/-! ## The kernel's format -/

/-- White space that the kernel escapes, and the backslash. -/
def escapeChar (c : Char) : Text :=
  if c = ' ' then ['\\', '0', '4', '0']
  else if c = '\t' then ['\\', '0', '1', '1']
  else if c = '\n' then ['\\', '0', '1', '2']
  else if c = '\\' then ['\\', '1', '3', '4']
  else [c]

def escape (s : Text) : Text := s.flatMap escapeChar

/-- The options of a mount or of its file system, which begin with `ro` or `rw`. -/
structure MountOptions where
  readOnly : Bool
  others : List Text

def MountOptions.print (options : MountOptions) : Text :=
  (if options.readOnly then ['r', 'o'] else ['r', 'w']) ++ options.others.flatMap fun other => ',' :: escape other

/-- A field between the options and the dash. -/
inductive OptionalField where
  | shared (group : Nat)
  | master (group : Nat)
  | propagateFrom (group : Nat)
  | unbindable

def deviceStr (maj min : BitVec 32) : Text := decimalText maj.toNat ++ ':' :: decimalText min.toNat

def OptionalField.print : OptionalField → Text
  | .shared group => "shared:".toList ++ decimalText group
  | .master group => "master:".toList ++ decimalText group
  | .propagateFrom group => "propagate_from:".toList ++ decimalText group
  | .unbindable => "unbindable".toList

/-- A mount as the kernel has it. -/
structure MountRecord where
  id : BitVec 32
  parent : BitVec 32
  major : BitVec 32
  minor : BitVec 32
  root : Text
  target : Text
  options : MountOptions
  optional : List OptionalField
  type : Text
  source : Text
  superOptions : MountOptions

namespace MountRecord

variable (r : MountRecord)

/-- The words before the dash, from the parent's id on. -/
def front : List Text :=
  decimalText r.parent.toNat :: deviceStr r.major r.minor :: escape r.root :: escape r.target :: r.options.print ::
    r.optional.map OptionalField.print

/-- The words behind the dash, from the source on. -/
def back : List Text := [escape r.source, r.superOptions.print]

/-- The line of a mount. -/
def line : Text :=
  decimalText r.id.toNat ++ spaced ' ' r.front ++ ' ' :: '-' :: ' ' :: (escape r.type ++ spaced ' ' r.back)

/-- The entry has the numbers and names of the mount. -/
structure SameMount (info : MountInfo) : Prop where
  id : info.id = r.id.toNat
  parent : info.parent = r.parent.toNat
  device : info.device = makedev r.major.toNat r.minor.toNat
  root : info.root = .ofList r.root
  target : info.target = .ofList r.target
  type : info.type = .ofList r.type
  source : info.source = .ofList r.source

end MountRecord

/-- The file of a mount table. -/
def mountinfo (records : List MountRecord) : Text := records.flatMap fun r => r.line ++ ['\n']

/-- `parse_mount_info` gives an entry for each mount, in order. -/
def Inverts (records : List MountRecord) : Prop :=
  List.Forall₂ MountRecord.SameMount records (parseMountInfo (some (mountinfo records)))

/-- What is read as one word. -/
structure IsWord (w : Text) : Prop where
  nonempty : w ≠ []
  noSpace : ∀ c ∈ w, isSpace c = false

/-- A name that is printed as it is and read as one word. -/
structure PlainName (s : Text) : Prop extends IsWord s where
  noBackslash : '\\' ∉ s

/-- All names are plain, and neither the root nor the mount point is a dash. -/
structure MountRecord.Plain (r : MountRecord) : Prop where
  root : PlainName r.root
  target : PlainName r.target
  type : PlainName r.type
  source : PlainName r.source
  rootNotDash : r.root ≠ ['-']
  targetNotDash : r.target ≠ ['-']

/-! ## What the kernel prints -/

/-- The word has neither a space nor a line break. -/
def Unbroken (w : Text) : Prop := ∀ c ∈ w, c ≠ ' ' ∧ c ≠ '\n'

instance (w : Text) : Decidable (Unbroken w) := List.decidableBAll (fun c => c ≠ ' ' ∧ c ≠ '\n') w

theorem unbroken_append {v w : Text} (hv : Unbroken v) (hw : Unbroken w) : Unbroken (v ++ w) := by
  intro c hc
  rcases List.mem_append.mp hc with hc | hc
  · exact hv c hc
  · exact hw c hc

theorem unbroken_decimal (n : Nat) : Unbroken (decimalText n) := by
  intro c hc
  have hdigit := Nat.isDigit_of_mem_toDigits (by omega) (by omega) hc
  constructor
  · rintro rfl
    cases hdigit
  · rintro rfl
    cases hdigit

theorem unbroken_escapeChar (c : Char) : Unbroken (escapeChar c) := by
  rw [escapeChar]
  split_ifs with hspace htab hnewline hbackslash
  · decide
  · decide
  · decide
  · decide
  · intro d hd
    rw [List.mem_singleton.mp hd]
    exact ⟨hspace, hnewline⟩

theorem unbroken_escape (s : Text) : Unbroken (escape s) := by
  intro c hc
  obtain ⟨d, -, hd⟩ := List.mem_flatMap.mp hc
  exact unbroken_escapeChar d c hd

theorem unbroken_mountOptions (options : MountOptions) : Unbroken options.print := by
  apply unbroken_append
  · cases options.readOnly <;> decide
  · intro c hc
    obtain ⟨other, -, hother⟩ := List.mem_flatMap.mp hc
    rcases List.mem_cons.mp hother with rfl | hother
    · decide
    · exact unbroken_escape other c hother

theorem unbroken_optionalField (field : OptionalField) : Unbroken field.print := by
  cases field with
  | shared group => exact unbroken_append (by decide) (unbroken_decimal group)
  | master group => exact unbroken_append (by decide) (unbroken_decimal group)
  | propagateFrom group => exact unbroken_append (by decide) (unbroken_decimal group)
  | unbindable => decide

/-- What is not white space is escaped if it is a backslash. -/
theorem escapeChar_of_not_isSpace {c : Char} (h : isSpace c = false) :
    escapeChar c = if c = '\\' then ['\\', '1', '3', '4'] else [c] := by
  have hspace : c ≠ ' ' := by
    rintro rfl
    cases h
  have htab : c ≠ '\t' := by
    rintro rfl
    cases h
  have hnewline : c ≠ '\n' := by
    rintro rfl
    cases h
  rw [escapeChar, if_neg hspace, if_neg htab, if_neg hnewline]

theorem length_escapeChar_pos (c : Char) : 0 < (escapeChar c).length := by
  rw [escapeChar]
  split_ifs <;> exact Nat.zero_lt_succ _

/-- Escapes do not shorten a name. -/
theorem length_le_escape (s : Text) : s.length ≤ (escape s).length := by
  induction s with
  | nil => exact Nat.le_refl 0
  | cons c s ih =>
      have hc := length_escapeChar_pos c
      rw [escape] at ih ⊢
      rw [List.flatMap_cons, List.length_append, List.length_cons]
      omega

/-- A name without white space is printed as it is exactly if it has no backslash. -/
theorem escape_eq_self_iff {s : Text} (h : ∀ c ∈ s, isSpace c = false) : escape s = s ↔ '\\' ∉ s := by
  induction s with
  | nil => exact ⟨fun _ => List.not_mem_nil, fun _ => rfl⟩
  | cons c s ih =>
      have ih := ih fun d hd => h d (List.mem_cons_of_mem c hd)
      have hcons : escape (c :: s) = escapeChar c ++ escape s := rfl
      rw [hcons, escapeChar_of_not_isSpace (h c List.mem_cons_self), List.mem_cons, not_or]
      split_ifs with hbackslash
      · -- the escape makes the name longer
        constructor
        · intro heq
          have hlength := congrArg List.length heq
          have hle := length_le_escape s
          simp only [List.length_append, List.length_cons, List.length_nil] at hlength
          omega
        · rintro ⟨hc, -⟩
          exact absurd hbackslash.symm hc
      · rw [List.singleton_append, List.cons_inj_right, ih]
        exact ⟨fun hs => ⟨fun hc => hbackslash hc.symm, hs⟩, fun hs => hs.2⟩

/-- A word stays one when it is escaped. -/
theorem isWord_escape {s : Text} (h : IsWord s) : IsWord (escape s) := by
  constructor
  · have hlength := length_le_escape s
    have hpos := List.length_pos_iff.mpr h.nonempty
    exact List.length_pos_iff.mp (by omega)
  · intro d hd
    obtain ⟨c, hc, hcd⟩ := List.mem_flatMap.mp hd
    rw [escapeChar_of_not_isSpace (h.noSpace c hc)] at hcd
    split_ifs at hcd with hbackslash
    · have hescape : (['\\', '1', '3', '4'].all fun d => !isSpace d) = true := by decide
      simpa using List.all_eq_true.mp hescape d hcd
    · rw [List.mem_singleton.mp hcd]
      exact h.noSpace c hc

/-- Only a dash is printed as a dash. -/
theorem eq_dash_of_escape {s : Text} (h : escape s = ['-']) : s = ['-'] := by
  have hle := length_le_escape s
  rw [h] at hle
  match s, hle with
  | [], _ => cases h
  | [c], _ =>
      have hc : escapeChar c = ['-'] := by
        rw [← h, escape, List.flatMap_singleton]
      rw [escapeChar] at hc
      split_ifs at hc with hspace htab hnewline hbackslash
      · cases hc
      · cases hc
      · cases hc
      · cases hc
      · exact hc

/-! ## What is read -/

/-- A word after white space. -/
theorem extractWord_eq {skipped w rest : Text} (hskipped : ∀ c ∈ skipped, isSpace c = true) (hw : IsWord w)
    (hrest : ∀ c ∈ rest.head?, isSpace c = true) : extractWord (skipped ++ (w ++ rest)) = some (w, rest) := by
  rw [extractWord, word_eq hskipped hw.noSpace hw.nonempty hrest]
  exact if_neg hw.nonempty

theorem isWord_of_extractWord {stream w rest : Text} (h : extractWord stream = some (w, rest)) : IsWord w := by
  simp only [extractWord] at h
  split_ifs at h with hempty
  obtain ⟨rfl, -⟩ := Prod.mk.inj (Option.some.inj h)
  exact ⟨hempty, fun c hc => space_of_mem_word hc⟩

theorem decimal_cons (n : Nat) : ∃ d ds, decimalText n = d :: ds ∧ d.isDigit = true := by
  obtain ⟨d, ds, hn⟩ := List.exists_cons_of_ne_nil (Nat.toDigits_ne_nil : decimalText n ≠ [])
  have hmem : d ∈ Nat.toDigits 10 n := hn ▸ List.mem_cons_self
  exact ⟨d, ds, hn, Nat.isDigit_of_mem_toDigits (by omega) (by omega) hmem⟩

theorem isSpace_of_mem_decimal {n : Nat} {c : Char} (h : c ∈ decimalText n) : isSpace c = false :=
  isSpace_of_isDigitOf (by omega) (isDigitOf_of_mem_toDigits (by omega) (by omega) h)

/-- A decimal number is read back. -/
theorem readNumber_decimal {skipped rest : Text} (hskipped : ∀ c ∈ skipped, isSpace c = true) (n : Nat)
    (hrest : Stops rest) : readNumber 10 (skipped ++ (decimalText n ++ rest)) = some (false, n, rest) := by
  rw [readNumber_skip 10 hskipped, ← padded_zero]
  exact readNumber_padded (by omega) (by omega) 0 n hrest

theorem extractUnsigned_decimal {skipped rest : Text} (hskipped : ∀ c ∈ skipped, isSpace c = true) (n : BitVec 32)
    (hrest : Stops rest) :
    extractUnsigned (skipped ++ (decimalText n.toNat ++ rest)) = some (n.toNat, rest) := by
  have hfits : ¬ 2 ^ 32 ≤ n.toNat := Nat.not_le.mpr n.isLt
  rw [extractUnsigned, readNumber_decimal hskipped n.toNat hrest]
  simp only [Option.bind_eq_bind, Option.bind_some]
  rw [if_neg hfits]
  rfl

theorem scanUnsigned_decimal (n : BitVec 32) {rest : Text} (hrest : Stops rest) :
    scanUnsigned (decimalText n.toNat ++ rest) = some (n.toNat, rest) := by
  have hread := readNumber_decimal (List.forall_mem_nil fun c => isSpace c = true) n.toNat hrest
  have hn := n.isLt
  rw [List.nil_append] at hread
  rw [scanUnsigned, hread, Option.map_some]
  simp only [storeUnsigned_of_lt (show n.toNat < 2 ^ 64 by omega), Nat.mod_eq_of_lt hn]

theorem scanDevice_deviceStr (maj min : BitVec 32) :
    scanDevice (deviceStr maj min) = some (maj.toNat, min.toNat) := by
  have hcolon : Stops (':' :: decimalText min.toNat) := stops_cons (by decide) _
  have hmin : scanUnsigned (decimalText min.toNat) = some (min.toNat, []) := by
    rw [← List.append_nil (decimalText min.toNat)]
    exact scanUnsigned_decimal min fun c hc => by cases hc
  rw [scanDevice, deviceStr, scanUnsigned_decimal maj hcolon]
  simp only [Option.bind_eq_bind, Option.bind_some, hmin]
  rfl

theorem isWord_deviceStr (maj min : BitVec 32) : IsWord (deviceStr maj min) := by
  constructor
  · rw [deviceStr]
    exact List.append_ne_nil_of_right_ne_nil _ (List.cons_ne_nil _ _)
  · intro c hc
    rcases List.mem_append.mp hc with hc | hc
    · exact isSpace_of_mem_decimal hc
    · rcases List.mem_cons.mp hc with rfl | hc
      · rfl
      · exact isSpace_of_mem_decimal hc

/-! ## Words behind one another -/

/-- What follows a word begins with a space. -/
theorem isSpace_of_mem_head?_spaced {ws : List Text} {c : Char} (h : c ∈ (spaced ' ' ws).head?) :
    isSpace c = true := by
  cases ws with
  | nil => cases h
  | cons w ws =>
      cases h
      rfl

theorem stops_spaced (ws : List Text) : Stops (spaced ' ' ws) := fun _ hc =>
  digitValue_of_isSpace (isSpace_of_mem_head?_spaced hc)

theorem isSpace_of_mem_space {c : Char} (h : c ∈ [' ']) : isSpace c = true := by
  rw [List.mem_singleton.mp h]
  rfl

theorem extractWord_spaced {w : Text} (hw : IsWord w) (ws : List Text) :
    extractWord (spaced ' ' (w :: ws)) = some (w, spaced ' ' ws) :=
  extractWord_eq (fun _ => isSpace_of_mem_space) hw fun _ => isSpace_of_mem_head?_spaced

theorem extractWord_first {w : Text} (hw : IsWord w) (ws : List Text) :
    extractWord (w ++ spaced ' ' ws) = some (w, spaced ' ' ws) :=
  extractWord_eq (fun _ hc => absurd hc List.not_mem_nil) hw fun _ => isSpace_of_mem_head?_spaced

theorem extractUnsigned_spaced (n : BitVec 32) (ws : List Text) :
    extractUnsigned (spaced ' ' (decimalText n.toNat :: ws)) = some (n.toNat, spaced ' ' ws) :=
  extractUnsigned_decimal (fun _ => isSpace_of_mem_space) n (stops_spaced ws)

theorem extractUnsigned_first (n : BitVec 32) (ws : List Text) :
    extractUnsigned (decimalText n.toNat ++ spaced ' ' ws) = some (n.toNat, spaced ' ' ws) :=
  extractUnsigned_decimal (fun _ hc => absurd hc List.not_mem_nil) n (stops_spaced ws)

/-! ## A line -/

section Line

variable (id parent major minor : BitVec 32) {root target type source : Text}

/-- The fields of a line are read where the root, the mount point, the type and the source are words. -/
theorem parseParts_eq (hroot : IsWord root) (htarget : IsWord target) (htype : IsWord type) (hsource : IsWord source)
    (line : Text) (options superOptions : List Text) :
    parseParts line
        (decimalText id.toNat ++
          spaced ' ' (decimalText parent.toNat :: deviceStr major minor :: root :: target :: options))
        (type ++ spaced ' ' (source :: superOptions)) =
      some {
        id := id.toNat
        parent := parent.toNat
        device := makedev major.toNat minor.toNat
        root := .ofList root
        target := .ofList target
        vfsOptions := .ofList (remaining (spaced ' ' options))
        type := .ofList type
        source := .ofList source
        fsOptions := .ofList (remaining (spaced ' ' superOptions))
        rawInfo := .ofList line } := by
  rw [parseParts, extractUnsigned_first]
  simp only [Option.bind_eq_bind, Option.bind_some, extractUnsigned_spaced,
    extractWord_spaced (isWord_deviceStr major minor), extractWord_spaced hroot, extractWord_spaced htarget,
    scanDevice_deviceStr, extractWord_first htype, extractWord_spaced hsource]
  rfl

/-- A line that is cut before the root is malformed. -/
theorem parseParts_cutAtRoot (line part2 : Text) :
    parseParts line (decimalText id.toNat ++ spaced ' ' [decimalText parent.toNat, deviceStr major minor]) part2 = none := by
  rw [parseParts, extractUnsigned_first]
  simp only [Option.bind_eq_bind, Option.bind_some, extractUnsigned_spaced,
    extractWord_spaced (isWord_deviceStr major minor)]
  rfl

/-- So is one that is cut before the mount point. -/
theorem parseParts_cutAtTarget (hroot : IsWord root) (line part2 : Text) :
    parseParts line (decimalText id.toNat ++ spaced ' ' [decimalText parent.toNat, deviceStr major minor, root]) part2 =
      none := by
  rw [parseParts, extractUnsigned_first]
  simp only [Option.bind_eq_bind, Option.bind_some, extractUnsigned_spaced,
    extractWord_spaced (isWord_deviceStr major minor), extractWord_spaced hroot]
  rfl

end Line

/-! ## The cut -/

/-- A word of the line that is not the dash. -/
def NoDash (w : Text) : Prop := ' ' ∉ w ∧ w ≠ ['-']

theorem noDash_of_head {w : Text} (h : Unbroken w) {c : Char} (hhead : w.head? = some c) (hc : c ≠ '-') :
    NoDash w := by
  constructor
  · intro hmem
    exact (h ' ' hmem).1 rfl
  · rintro rfl
    exact hc (Option.some.inj hhead).symm

/-- A line is cut at the first dash. -/
theorem parseMountInfoLine_spaced {first : Text} (hfirst : ' ' ∉ first) {ws : List Text} (h : ∀ w ∈ ws, NoDash w)
    (rest : Text) :
    parseMountInfoLine (first ++ spaced ' ' ws ++ ' ' :: '-' :: ' ' :: rest) =
      parseParts (first ++ spaced ' ' ws ++ ' ' :: '-' :: ' ' :: rest) (first ++ spaced ' ' ws) rest := by
  have hsplit : first ++ spaced ' ' ws ++ ' ' :: '-' :: ' ' :: rest =
      (first ++ spaced ' ' ws) ++ [' ', '-', ' '] ++ rest := by
    rw [List.append_assoc _ [' ', '-', ' '] rest]
    rfl
  have hmark : '-' ≠ ' ' := by decide
  have hindex := indexOf_first_spaced hmark hfirst h rest
  have htake : (first ++ spaced ' ' ws ++ ' ' :: '-' :: ' ' :: rest).take (first ++ spaced ' ' ws).length =
      first ++ spaced ' ' ws := List.take_left
  have hdrop : (first ++ spaced ' ' ws ++ ' ' :: '-' :: ' ' :: rest).drop ((first ++ spaced ' ' ws).length + 3) =
      rest := by
    rw [hsplit]
    exact List.drop_left' (by rw [List.length_append]; rfl)
  rw [parseMountInfoLine, hindex]
  simp only [Option.bind_eq_bind, Option.bind_some]
  rw [htake, hdrop]

theorem space_not_mem_decimal (n : Nat) : ' ' ∉ decimalText n := fun h => (unbroken_decimal n ' ' h).1 rfl

theorem unbroken_deviceStr (maj min : BitVec 32) : Unbroken (deviceStr maj min) := by
  apply unbroken_append (unbroken_decimal maj.toNat)
  exact unbroken_append (v := [':']) (by decide) (unbroken_decimal min.toNat)

/-- A word that begins with a number is no dash. -/
theorem noDash_decimal_append (n : Nat) {rest : Text} (h : Unbroken (decimalText n ++ rest)) :
    NoDash (decimalText n ++ rest) := by
  obtain ⟨d, ds, hn, hd⟩ := decimal_cons n
  apply noDash_of_head h (c := d)
  · rw [hn]
    rfl
  · rintro rfl
    cases hd

theorem noDash_decimal (n : Nat) : NoDash (decimalText n) := by
  rw [← List.append_nil (decimalText n)]
  apply noDash_decimal_append
  rw [List.append_nil]
  exact unbroken_decimal n

theorem noDash_deviceStr (maj min : BitVec 32) : NoDash (deviceStr maj min) :=
  noDash_decimal_append maj.toNat (unbroken_deviceStr maj min)

theorem noDash_mountOptions (options : MountOptions) : NoDash options.print := by
  apply noDash_of_head (unbroken_mountOptions options) (c := 'r')
  · rw [MountOptions.print]
    cases options.readOnly <;> rfl
  · decide

theorem noDash_optionalField (field : OptionalField) : NoDash field.print := by
  cases field with
  | shared group => exact noDash_of_head (unbroken_optionalField _) (c := 's') rfl (by decide)
  | master group => exact noDash_of_head (unbroken_optionalField _) (c := 'm') rfl (by decide)
  | propagateFrom group => exact noDash_of_head (unbroken_optionalField _) (c := 'p') rfl (by decide)
  | unbindable => exact noDash_of_head (unbroken_optionalField _) (c := 'u') rfl (by decide)

theorem noDash_escape {s : Text} (h : s ≠ ['-']) : NoDash (escape s) := by
  constructor
  · intro hmem
    exact (unbroken_escape s ' ' hmem).1 rfl
  · intro heq
    exact h (eq_dash_of_escape heq)

/-! ## Which mounts are read back -/

/-- An entry that is read has words for names. -/
theorem words_of_parseParts {line part1 part2 : Text} {info : MountInfo}
    (h : parseParts line part1 part2 = some info) :
    ∃ root target type source, IsWord root ∧ IsWord target ∧ IsWord type ∧ IsWord source ∧
      info.root = .ofList root ∧ info.target = .ofList target ∧ info.type = .ofList type ∧
      info.source = .ofList source := by
  simp only [parseParts, Option.bind_eq_bind, Option.bind_eq_some_iff] at h
  obtain ⟨⟨_, _⟩, -, ⟨_, _⟩, -, ⟨_, _⟩, -, ⟨root, _⟩, hroot, ⟨target, _⟩, htarget, ⟨_, _⟩, -, ⟨type, _⟩, htype,
    ⟨source, _⟩, hsource, hinfo⟩ := h
  cases hinfo
  exact ⟨root, target, type, source, isWord_of_extractWord hroot, isWord_of_extractWord htarget,
    isWord_of_extractWord htype, isWord_of_extractWord hsource, rfl, rfl, rfl, rfl⟩

namespace MountRecord

variable {r : MountRecord}

/-- The names of the mount are words. -/
structure Words (r : MountRecord) : Prop where
  root : IsWord r.root
  target : IsWord r.target
  type : IsWord r.type
  source : IsWord r.source

/-- The mount with its names as they are printed. -/
def escaped (r : MountRecord) : MountRecord :=
  { r with root := escape r.root, target := escape r.target, type := escape r.type, source := escape r.source }

/-- What holds of each field in front of the dash holds of its words. -/
theorem forall_mem_front {P : Text → Prop} (hparent : P (decimalText r.parent.toNat))
    (hdevice : P (deviceStr r.major r.minor)) (hroot : P (escape r.root)) (htarget : P (escape r.target))
    (hoptions : P r.options.print) (hoptional : ∀ field : OptionalField, P field.print) : ∀ w ∈ r.front, P w := by
  intro w hw
  simp only [front, List.mem_cons, List.mem_map] at hw
  rcases hw with rfl | rfl | rfl | rfl | rfl | ⟨field, -, rfl⟩
  · exact hparent
  · exact hdevice
  · exact hroot
  · exact htarget
  · exact hoptions
  · exact hoptional field

/-- A mount whose names are words is read with the names that are printed. -/
theorem parseMountInfoLine_line (h : r.Words) (hroot : r.root ≠ ['-']) (htarget : r.target ≠ ['-']) :
    ∃ info, parseMountInfoLine r.line = some info ∧ r.escaped.SameMount info := by
  have hfront : ∀ w ∈ r.front, NoDash w :=
    forall_mem_front (noDash_decimal r.parent.toNat) (noDash_deviceStr r.major r.minor) (noDash_escape hroot)
      (noDash_escape htarget) (noDash_mountOptions r.options) noDash_optionalField
  have hcut := parseMountInfoLine_spaced (space_not_mem_decimal r.id.toNat) hfront
    (escape r.type ++ spaced ' ' r.back)
  rw [← line] at hcut
  rw [hcut, front, back, parseParts_eq r.id r.parent r.major r.minor (isWord_escape h.root)
    (isWord_escape h.target) (isWord_escape h.type) (isWord_escape h.source)]
  exact ⟨_, rfl, rfl, rfl, rfl, rfl, rfl, rfl, rfl⟩

/-- A mount of a root that is a dash is lost. -/
theorem parseMountInfoLine_rootDash (hroot : r.root = ['-']) : parseMountInfoLine r.line = none := by
  have hfront : ∀ w ∈ [decimalText r.parent.toNat, deviceStr r.major r.minor], NoDash w := by
    intro w hw
    rcases List.mem_pair.mp hw with rfl | rfl
    · exact noDash_decimal r.parent.toNat
    · exact noDash_deviceStr r.major r.minor
  have hcut := parseMountInfoLine_spaced (space_not_mem_decimal r.id.toNat) hfront
    (escape r.target ++ spaced ' ' (r.options.print :: r.optional.map OptionalField.print) ++
      ' ' :: '-' :: ' ' :: (escape r.type ++ spaced ' ' r.back))
  have hline : r.line =
      decimalText r.id.toNat ++ spaced ' ' [decimalText r.parent.toNat, deviceStr r.major r.minor] ++ ' ' :: '-' :: ' ' ::
        (escape r.target ++ spaced ' ' (r.options.print :: r.optional.map OptionalField.print) ++
          ' ' :: '-' :: ' ' :: (escape r.type ++ spaced ' ' r.back)) := by
    rw [line, front, hroot]
    simp [spaced, escape, escapeChar]
  rw [hline, hcut]
  exact parseParts_cutAtRoot r.id r.parent r.major r.minor _ _

/-- So is one whose mount point is a dash. -/
theorem parseMountInfoLine_targetDash (hword : IsWord r.root) (hroot : r.root ≠ ['-']) (htarget : r.target = ['-']) :
    parseMountInfoLine r.line = none := by
  have hfront : ∀ w ∈ [decimalText r.parent.toNat, deviceStr r.major r.minor, escape r.root], NoDash w := by
    intro w hw
    simp only [List.mem_cons, List.not_mem_nil, or_false] at hw
    rcases hw with rfl | rfl | rfl
    · exact noDash_decimal r.parent.toNat
    · exact noDash_deviceStr r.major r.minor
    · exact noDash_escape hroot
  have hcut := parseMountInfoLine_spaced (space_not_mem_decimal r.id.toNat) hfront
    (r.options.print ++ spaced ' ' (r.optional.map OptionalField.print) ++
      ' ' :: '-' :: ' ' :: (escape r.type ++ spaced ' ' r.back))
  have hline : r.line =
      decimalText r.id.toNat ++ spaced ' ' [decimalText r.parent.toNat, deviceStr r.major r.minor, escape r.root] ++
        ' ' :: '-' :: ' ' :: (r.options.print ++ spaced ' ' (r.optional.map OptionalField.print) ++
          ' ' :: '-' :: ' ' :: (escape r.type ++ spaced ' ' r.back)) := by
    rw [line, front, htarget]
    simp [spaced, escape, escapeChar]
  rw [hline, hcut]
  exact parseParts_cutAtTarget r.id r.parent r.major r.minor (isWord_escape hword) _ _

theorem words_of_sameMount {line : Text} {info : MountInfo} (h : parseMountInfoLine line = some info)
    (hsame : r.SameMount info) : r.Words := by
  simp only [parseMountInfoLine, Option.bind_eq_bind, Option.bind_eq_some_iff] at h
  obtain ⟨_, -, hparts⟩ := h
  obtain ⟨root, target, type, source, hrootWord, htargetWord, htypeWord, hsourceWord, hroot, htarget, htype,
    hsource⟩ := words_of_parseParts hparts
  rw [hsame.root, String.ofList_inj] at hroot
  rw [hsame.target, String.ofList_inj] at htarget
  rw [hsame.type, String.ofList_inj] at htype
  rw [hsame.source, String.ofList_inj] at hsource
  exact ⟨hroot ▸ hrootWord, htarget ▸ htargetWord, htype ▸ htypeWord, hsource ▸ hsourceWord⟩

/-- The names of a plain mount are printed as they are. -/
theorem escaped_eq (h : r.Plain) : r.escaped = r := by
  rw [escaped, (escape_eq_self_iff h.root.noSpace).mpr h.root.noBackslash,
    (escape_eq_self_iff h.target.noSpace).mpr h.target.noBackslash,
    (escape_eq_self_iff h.type.noSpace).mpr h.type.noBackslash,
    (escape_eq_self_iff h.source.noSpace).mpr h.source.noBackslash]

/-- Names that are words and come back are plain. -/
theorem plainName_of_escape {s : Text} (hword : IsWord s) (h : escape s = s) : PlainName s :=
  ⟨hword, (escape_eq_self_iff hword.noSpace).mp h⟩

/-- A mount is read back exactly if it is plain. -/
theorem parsed_iff_plain (r : MountRecord) :
    (∃ info, parseMountInfoLine r.line = some info ∧ r.SameMount info) ↔ r.Plain := by
  constructor
  · rintro ⟨info, hparse, hsame⟩
    have hwords := words_of_sameMount hparse hsame
    have hroot : r.root ≠ ['-'] := by
      intro hdash
      rw [parseMountInfoLine_rootDash hdash] at hparse
      cases hparse
    have htarget : r.target ≠ ['-'] := by
      intro hdash
      rw [parseMountInfoLine_targetDash hwords.root hroot hdash] at hparse
      cases hparse
    -- the entry has the printed names and the names of the mount
    obtain ⟨info', hparse', hescaped⟩ := parseMountInfoLine_line hwords hroot htarget
    obtain rfl : info' = info := Option.some.inj (hparse'.symm.trans hparse)
    have hrootSame := String.ofList_inj.mp (hescaped.root.symm.trans hsame.root)
    have htargetSame := String.ofList_inj.mp (hescaped.target.symm.trans hsame.target)
    have htypeSame := String.ofList_inj.mp (hescaped.type.symm.trans hsame.type)
    have hsourceSame := String.ofList_inj.mp (hescaped.source.symm.trans hsame.source)
    exact {
      root := plainName_of_escape hwords.root hrootSame
      target := plainName_of_escape hwords.target htargetSame
      type := plainName_of_escape hwords.type htypeSame
      source := plainName_of_escape hwords.source hsourceSame
      rootNotDash := hroot
      targetNotDash := htarget }
  · intro hplain
    have hwords : r.Words :=
      ⟨hplain.root.toIsWord, hplain.target.toIsWord, hplain.type.toIsWord, hplain.source.toIsWord⟩
    have hparse := parseMountInfoLine_line hwords hplain.rootNotDash hplain.targetNotDash
    rwa [escaped_eq hplain] at hparse

/-- A line has no line break. -/
theorem unbroken_words {ws : List Text} (h : ∀ w ∈ ws, Unbroken w) : '\n' ∉ spaced ' ' ws := by
  intro hmem
  obtain ⟨w, hw, hmem⟩ := List.mem_flatMap.mp hmem
  rcases List.mem_cons.mp hmem with hspace | hmem
  · exact absurd hspace (by decide)
  · exact (h w hw '\n' hmem).2 rfl

theorem newline_not_mem_line (r : MountRecord) : '\n' ∉ r.line := by
  have hfront : ∀ w ∈ r.front, Unbroken w :=
    forall_mem_front (unbroken_decimal r.parent.toNat) (unbroken_deviceStr r.major r.minor)
      (unbroken_escape r.root) (unbroken_escape r.target) (unbroken_mountOptions r.options) unbroken_optionalField
  have hback : ∀ w ∈ r.back, Unbroken w := by
    intro w hw
    rcases List.mem_pair.mp hw with rfl | rfl
    · exact unbroken_escape r.source
    · exact unbroken_mountOptions r.superOptions
  have hid : '\n' ∉ decimalText r.id.toNat := fun h => (unbroken_decimal _ '\n' h).2 rfl
  have htype : '\n' ∉ escape r.type := fun h => (unbroken_escape _ '\n' h).2 rfl
  simp only [line, List.mem_append, List.mem_cons, not_or]
  exact ⟨⟨hid, unbroken_words hfront⟩, by decide, by decide, by decide, htype, unbroken_words hback⟩

end MountRecord

/-- `parse_mount_info` reads the mounts back exactly if all of them are plain. -/
theorem inverts_iff (records : List MountRecord) : Inverts records ↔ ∀ r ∈ records, r.Plain := by
  have hlines : lines '\n' (mountinfo records) = records.map MountRecord.line := by
    have hmap : mountinfo records = (records.map MountRecord.line).flatMap fun line => line ++ ['\n'] := by
      rw [mountinfo, List.flatMap_map]
    rw [hmap]
    apply lines_flatMap
    intro line hline
    obtain ⟨r, -, rfl⟩ := List.mem_map.mp hline
    exact r.newline_not_mem_line
  rw [Inverts, parseMountInfo, hlines, List.filterMap_map, forall₂_filterMap_iff]
  constructor
  · intro h r hr
    exact r.parsed_iff_plain.mp (h r hr)
  · intro h r hr
    exact r.parsed_iff_plain.mpr (h r hr)

/-- A mount in a directory with a space in its name. -/
def spacedTarget : MountRecord where
  id := 36
  parent := 35
  major := 7
  minor := 40
  root := ['/']
  target := "/data/adb/my dir".toList
  options := { readOnly := false, others := [] }
  optional := [.shared 1]
  type := "ext4".toList
  source := "/dev/block/loop40".toList
  superOptions := { readOnly := false, others := [] }

/-- Its entry has the escape in the mount point. -/
theorem spacedTarget_keepsEscape :
    (parseMountInfo (some (mountinfo [spacedTarget]))).map MountInfo.target = ["/data/adb/my\\040dir"] ∧
      ¬ Inverts [spacedTarget] := by
  have hread : (parseMountInfo (some (mountinfo [spacedTarget]))).map MountInfo.target =
      ["/data/adb/my\\040dir"] := by decide +kernel
  refine ⟨hread, ?_⟩
  intro h
  rw [Inverts] at h
  generalize parseMountInfo (some (mountinfo [spacedTarget])) = infos at hread h
  cases h with
  | cons hsame htail =>
      cases htail
      rw [List.map_singleton, hsame.target, List.singleton_inj] at hread
      revert hread
      decide

end NeoZygisk.Unmount.MountInfoText
