import Mathlib.Data.Nat.Bitwise
import NeoZygisk.Common.DataModel
import NeoZygisk.Common.MapInfo
import NeoZygisk.Lib.FormattedInput
import NeoZygisk.Unmount.MountInfoText

/-!
# Reading the memory map

The kernel prints a mapping as a line with its range, permissions, offset, device and inode, fills the line up with
spaces to a column and puts the name behind it. A line break in a name is printed as an octal escape.

`MapInfo::Scan` reads the numbers with `sscanf`, into types whose size depends on the build, and takes what follows
behind white space as the name. `scan_maps` says what it makes of the map of a process: every mapping, in order, with
the numbers as far as the build's types hold them.
-/

set_option autoImplicit false

namespace NeoZygisk.Ptracer.MapsText

open NeoZygisk.Common
open NeoZygisk.Lib.FormattedInput
open NeoZygisk.Lib.Text (takeWhile_append_stop)
open NeoZygisk.Unmount.MountInfoText (makedev)

/-! ## Scanning -/

/-- The bits of `uintptr_t` and `ino_t`. -/
def wordBits (m : DataModel) : Nat := 8 * m.wordSize

/-- The format of a line. -/
def mapsFormat (m : DataModel) : List Directive :=
  [.unsigned 16 (wordBits m), .literal '-', .unsigned 16 (wordBits m), .space, .word 4, .space,
    .unsigned 16 (wordBits m), .space, .unsigned 16 32, .literal ':', .unsigned 16 32, .space,
    .unsigned 10 (wordBits m), .space, .count]

/-- One round of `MapInfo::Scan`; `none` if the line is passed over. -/
def scanLine (m : DataModel) (line : Text) : Option MapInfo :=
  match scan 0 (mapsFormat m) line with
  | [.unsigned start, .unsigned end_, .word perm, .unsigned off, .unsigned devMajor, .unsigned devMinor,
      .unsigned inode, .count pathOff] =>
      some {
        start := start
        end_ := end_
        perms := {
          read := perm[0]? == some 'r'
          write := perm[1]? == some 'w'
          exec := perm[2]? == some 'x' }
        isPrivate := perm[3]? == some 'p'
        offset := off
        dev := makedev devMajor devMinor % 2 ^ wordBits m
        inode := inode
        path := .ofList (((line.drop pathOff).dropWhile isSpace).takeWhile fun c => c != '\n') }
  | _ => none

/-- `MapInfo::Scan`, on the text of the file; there is none if it cannot be opened. -/
def scanMaps (m : DataModel) (file : Option Text) : List MapInfo :=
  match file with
  | none => []
  | some text => (getlines text).filterMap (scanLine m)

/-! ## The kernel's format -/

/-- A name as it is printed. -/
def seqPath (name : Text) : Text := name.flatMap fun c => if c = '\n' then ['\\', '0', '1', '2'] else [c]

def permText (perms : Perms) (isPrivate : Bool) : Text :=
  [if perms.read then 'r' else '-', if perms.write then 'w' else '-', if perms.exec then 'x' else '-',
    if isPrivate then 'p' else 's']

/-- A mapping as the kernel has it. A name begins with a slash or a bracket. -/
@[ext]
structure Mapping where
  start : BitVec 64
  end_ : BitVec 64
  perms : Perms
  isPrivate : Bool
  offset : BitVec 64
  major : BitVec 32
  minor : BitVec 32
  inode : BitVec 64
  name : Text
  nameBegins : ∀ c ∈ name.head?, isSpace c = false

namespace Mapping

variable (r : Mapping)

/-- The line before the name. -/
def header : Text :=
  padded 16 8 r.start.toNat ++ (['-'] ++ (padded 16 8 r.end_.toNat ++ ([' '] ++ (permText r.perms r.isPrivate ++ ([' '] ++
    (padded 16 8 r.offset.toNat ++ ([' '] ++ (padded 16 2 r.major.toNat ++ ([':'] ++
      (padded 16 2 r.minor.toNat ++ ([' '] ++ (padded 10 0 r.inode.toNat ++ [' ']))))))))))))

/-- What fills the line up to the column of the names, and the name. -/
def trailer (column : Nat) : Text :=
  if r.name = [] then []
  else List.replicate (column - r.header.length) ' ' ++ ' ' :: seqPath r.name

def line (column : Nat) : Text := r.header ++ r.trailer column

/-- What is kept of a mapping. -/
def info (m : DataModel) : MapInfo where
  start := r.start.toNat % 2 ^ wordBits m
  end_ := r.end_.toNat % 2 ^ wordBits m
  perms := r.perms
  isPrivate := r.isPrivate
  offset := r.offset.toNat % 2 ^ wordBits m
  dev := makedev r.major.toNat r.minor.toNat % 2 ^ wordBits m
  inode := r.inode.toNat % 2 ^ wordBits m
  path := .ofList (seqPath r.name)

end Mapping

/-- The numbers fit into the types of the build, a device is within the kernel's bounds, and the name is on one line. -/
structure Mapping.Fits (m : DataModel) (r : Mapping) : Prop where
  start : r.start.toNat < 2 ^ wordBits m
  end_ : r.end_.toNat < 2 ^ wordBits m
  offset : r.offset.toNat < 2 ^ wordBits m
  inode : r.inode.toNat < 2 ^ wordBits m
  major : r.major.toNat < 2 ^ 12
  minor : r.minor.toNat < 2 ^ 20
  unbroken : '\n' ∉ r.name

/-- The file of a memory map. -/
def maps (column : Nat) (rs : List Mapping) : Text := rs.flatMap fun r => r.line column ++ ['\n']

/-! ## What is read -/

theorem isSpace_of_mem_permText {perms : Perms} {isPrivate : Bool} {c : Char} (h : c ∈ permText perms isPrivate) :
    isSpace c = false := by
  have hall : ∀ read write exec isPrivate : Bool,
      ((permText ⟨read, write, exec⟩ isPrivate).all fun c => !isSpace c) = true := by decide
  simpa using List.all_eq_true.mp (hall perms.read perms.write perms.exec isPrivate) c h

/-- A line break is printed as something else. -/
theorem newline_not_mem_seqPath (name : Text) : '\n' ∉ seqPath name := by
  intro h
  obtain ⟨c, -, hc⟩ := List.mem_flatMap.mp h
  split_ifs at hc with hnewline
  · revert hc
    decide
  · exact hnewline (List.mem_singleton.mp hc).symm

theorem head?_seqPath (r : Mapping) : ∀ c ∈ (seqPath r.name).head?, isSpace c = false := by
  intro c hc
  cases hname : r.name with
  | nil =>
      rw [hname] at hc
      cases hc
  | cons d name =>
      have hd : isSpace d = false := r.nameBegins d (by rw [hname]; rfl)
      rw [hname, seqPath, List.flatMap_cons] at hc
      split_ifs at hc with hnewline
      · rw [hnewline] at hd
        exact absurd hd (by decide)
      · rw [← Option.some.inj hc]
        exact hd

/-- What stands behind the inode: white space and the name. -/
theorem exists_trailer (r : Mapping) (column : Nat) : ∃ spaces named, r.trailer column ++ ['\n'] = spaces ++ named ∧
    (∀ c ∈ spaces, isSpace c = true) ∧ (∀ c ∈ named.head?, isSpace c = false) ∧
    named.takeWhile (fun c => c != '\n') = seqPath r.name := by
  rw [Mapping.trailer]
  split_ifs with hname
  · refine ⟨['\n'], [], rfl, ?_, ?_, ?_⟩
    · intro c hc
      rw [List.mem_singleton.mp hc]
      decide
    · intro c hc
      cases hc
    · rw [hname]
      rfl
  · refine ⟨List.replicate (column - r.header.length) ' ' ++ [' '], seqPath r.name ++ ['\n'], by simp, ?_, ?_, ?_⟩
    · intro c hc
      rcases List.mem_append.mp hc with hc | hc
      · rw [List.eq_of_mem_replicate hc]
        decide
      · rw [List.mem_singleton.mp hc]
        decide
    · have hne : seqPath r.name ≠ [] := by
        intro hnil
        cases hr : r.name with
        | nil => exact hname hr
        | cons c name =>
            rw [hr, seqPath, List.flatMap_cons, List.append_eq_nil_iff] at hnil
            have hc := hnil.1
            split_ifs at hc
      rw [List.head?_append_of_ne_nil _ hne]
      exact head?_seqPath r
    · apply takeWhile_append_stop
      · intro c hc
        rw [bne_iff_ne]
        rintro rfl
        exact newline_not_mem_seqPath r.name hc
      · intro c hc
        rw [← Option.some.inj hc]
        rfl

/-- The values of a line whose name stands behind the given white space. -/
theorem scan_line (m : DataModel) (r : Mapping) {spaces named : Text} (hspaces : ∀ c ∈ spaces, isSpace c = true)
    (hnamed : ∀ c ∈ named.head?, isSpace c = false) :
    scan 0 (mapsFormat m) (r.header ++ (spaces ++ named)) =
      [.unsigned (r.start.toNat % 2 ^ wordBits m), .unsigned (r.end_.toNat % 2 ^ wordBits m),
        .word (permText r.perms r.isPrivate), .unsigned (r.offset.toNat % 2 ^ wordBits m),
        .unsigned r.major.toNat, .unsigned r.minor.toNat,
        .unsigned (r.inode.toNat % 2 ^ wordBits m), .count (r.header ++ spaces).length] := by
  have hspace : ∀ c ∈ [' '], isSpace c = true := List.forall_mem_singleton.mpr (by decide)
  have hspaces' : ∀ c ∈ ' ' :: spaces, isSpace c = true := by
    intro c hc
    rcases List.mem_cons.mp hc with rfl | hc
    · decide
    · exact hspaces c hc
  have hword : permText r.perms r.isPrivate ≠ [] := List.cons_ne_nil _ _
  have hfour : (permText r.perms r.isPrivate).length = 4 := rfl
  have hperm : ∀ rest : Text, ∀ c ∈ (permText r.perms r.isPrivate ++ rest).head?, isSpace c = false := by
    intro rest c hc
    exact isSpace_of_mem_permText (List.mem_of_mem_head? (by rwa [List.head?_append_of_ne_nil _ hword] at hc))
  have hminus : ∀ rest, Stops (['-'] ++ rest) := stops_cons (by decide)
  have hcolon : ∀ rest, Stops ([':'] ++ rest) := stops_cons (by decide)
  have hblank : ∀ rest, Stops ([' '] ++ rest) := stops_cons (by decide)
  have hend : Stops ((' ' :: spaces) ++ named) := stops_cons (by decide) _
  have hline : r.header ++ (spaces ++ named) = padded 16 8 r.start.toNat ++ (['-'] ++ (padded 16 8 r.end_.toNat ++
      ([' '] ++ (permText r.perms r.isPrivate ++ ([' '] ++ (padded 16 8 r.offset.toNat ++ ([' '] ++
        (padded 16 2 r.major.toNat ++ ([':'] ++ (padded 16 2 r.minor.toNat ++ ([' '] ++
          (padded 10 0 r.inode.toNat ++ ((' ' :: spaces) ++ named))))))))))))) := by
    simp only [Mapping.header, List.append_assoc, List.cons_append, List.nil_append]
  have hlength : (r.header ++ spaces).length = 0 + (padded 16 8 r.start.toNat).length + 1 +
      (padded 16 8 r.end_.toNat).length + [' '].length + (permText r.perms r.isPrivate).length + [' '].length +
      (padded 16 8 r.offset.toNat).length + [' '].length + (padded 16 2 r.major.toNat).length + 1 +
      (padded 16 2 r.minor.toNat).length + [' '].length + (padded 10 0 r.inode.toNat).length +
      (' ' :: spaces).length := by
    simp only [Mapping.header, List.length_append, List.length_cons, List.length_nil]
    omega
  -- conversion by conversion: each ends at the character that the next directive takes
  rw [hline, mapsFormat, scan_unsigned (by decide) (by decide) r.start.isLt (hminus _), scan_literal,
    scan_unsigned (by decide) (by decide) r.end_.isLt (hblank _), scan_space hspace (hperm _),
    scan_word (fun c hc => isSpace_of_mem_permText hc) hword hfour,
    scan_space hspace (isSpace_of_mem_head?_padded (by decide) (by decide) _ _ _),
    scan_unsigned (by decide) (by decide) r.offset.isLt (hblank _),
    scan_space hspace (isSpace_of_mem_head?_padded (by decide) (by decide) _ _ _),
    scan_unsigned (by decide) (by decide) (r.major.isLt.trans (by decide)) (hcolon _), scan_literal,
    scan_unsigned (by decide) (by decide) (r.minor.isLt.trans (by decide)) (hblank _),
    scan_space hspace (isSpace_of_mem_head?_padded (by decide) (by decide) _ _ _),
    scan_unsigned (by decide) (by decide) r.inode.isLt hend, scan_space hspaces' hnamed,
    Nat.mod_eq_of_lt r.major.isLt, Nat.mod_eq_of_lt r.minor.isLt, hlength]
  rfl

/-- Each permission is read from its letter. -/
theorem permText_letters (perms : Perms) (isPrivate : Bool) :
    ((permText perms isPrivate)[0]? == some 'r') = perms.read ∧
      ((permText perms isPrivate)[1]? == some 'w') = perms.write ∧
      ((permText perms isPrivate)[2]? == some 'x') = perms.exec ∧
      ((permText perms isPrivate)[3]? == some 'p') = isPrivate := by
  have hall : ∀ read write exec isPrivate : Bool,
      ((permText ⟨read, write, exec⟩ isPrivate)[0]? == some 'r') = read ∧
      ((permText ⟨read, write, exec⟩ isPrivate)[1]? == some 'w') = write ∧
      ((permText ⟨read, write, exec⟩ isPrivate)[2]? == some 'x') = exec ∧
      ((permText ⟨read, write, exec⟩ isPrivate)[3]? == some 'p') = isPrivate := by decide
  exact hall perms.read perms.write perms.exec isPrivate

/-- A mapping is read from its line. -/
theorem scanLine_line (m : DataModel) (r : Mapping) (column : Nat) :
    scanLine m (r.line column ++ ['\n']) = some (r.info m) := by
  obtain ⟨spaces, named, htrailer, hspaces, hnamed, hpath⟩ := exists_trailer r column
  obtain ⟨hr, hw, hx, hp⟩ := permText_letters r.perms r.isPrivate
  have hline : r.line column ++ ['\n'] = r.header ++ (spaces ++ named) := by
    rw [Mapping.line, List.append_assoc, htrailer]
  have hdrop : (r.header ++ (spaces ++ named)).drop (r.header ++ spaces).length = named := by
    rw [← List.append_assoc, List.drop_left]
  have hskip : named.dropWhile isSpace = named := by
    cases named with
    | nil => rfl
    | cons c named => exact List.dropWhile_cons_of_neg (by simp [hnamed c rfl])
  rw [scanLine, hline, scan_line m r hspaces hnamed]
  simp only [hdrop, hskip, hpath, hr, hw, hx, hp, Mapping.info]

theorem newline_not_mem_line (r : Mapping) (column : Nat) : '\n' ∉ r.line column := by
  have hperm : '\n' ∉ permText r.perms r.isPrivate := fun h => absurd (isSpace_of_mem_permText h) (by decide)
  have hheader : '\n' ∉ r.header := by
    have hsixteen := @not_mem_padded 16 (by decide) (by decide) _ (show isSpace '\n' = true by decide)
    have hten := @not_mem_padded 10 (by decide) (by decide) _ (show isSpace '\n' = true by decide)
    simp only [Mapping.header, List.mem_append, List.mem_singleton, hsixteen, hten, hperm]
    decide
  have htrailer : '\n' ∉ r.trailer column := by
    rw [Mapping.trailer]
    split_ifs
    · exact List.not_mem_nil
    · rw [List.mem_append, List.mem_cons, not_or, not_or]
      exact ⟨fun h => absurd (List.eq_of_mem_replicate h) (by decide), by decide, newline_not_mem_seqPath r.name⟩
  rw [Mapping.line, List.mem_append, not_or]
  exact ⟨hheader, htrailer⟩

/-- `MapInfo::Scan` finds every mapping, in order. -/
theorem scanMaps_maps (m : DataModel) (column : Nat) (rs : List Mapping) :
    scanMaps m (some (maps column rs)) = rs.map fun r => r.info m := by
  have hlines : maps column rs = (rs.map fun r => r.line column).flatMap fun line => line ++ ['\n'] := by
    rw [maps, List.flatMap_map]
  have hnewline : ∀ line ∈ rs.map fun r => r.line column, '\n' ∉ line := by
    intro line hline
    obtain ⟨r, -, rfl⟩ := List.mem_map.mp hline
    exact newline_not_mem_line r column
  rw [scanMaps, hlines, getlines_flatMap hnewline, List.map_map, List.filterMap_map, ← List.filterMap_eq_map]
  congr 1
  funext r
  exact scanLine_line m r column

/-! ## What is kept -/

theorem and_highMask {x n k : Nat} (hx : x < 2 ^ (n + k)) : x &&& ((2 ^ k - 1) <<< n) = 2 ^ n * (x / 2 ^ n) := by
  apply Nat.eq_of_testBit_eq
  intro i
  rw [Nat.testBit_and, Nat.testBit_shiftLeft, Nat.testBit_two_pow_sub_one, Nat.testBit_two_pow_mul,
    Nat.testBit_div_two_pow]
  rcases Nat.lt_or_ge i n with hi | hi
  · simp [Nat.not_le.mpr hi]
  · rw [Nat.sub_add_cancel hi]
    rcases Nat.lt_or_ge i (n + k) with hk | hk
    · simp [hi, show i - n < k by omega]
    · simp [Nat.testBit_lt_two_pow (Nat.lt_of_lt_of_le hx (Nat.pow_le_pow_right (by decide) hk))]

theorem makedev_eq {maj min : Nat} (hmaj : maj < 2 ^ 32) (hmin : min < 2 ^ 32) :
    makedev maj min =
      2 ^ 44 * (maj / 2 ^ 12) + (2 ^ 20 * (min / 2 ^ 8) + (2 ^ 8 * (maj % 2 ^ 12) + min % 2 ^ 8)) := by
  have hmajHigh : maj &&& 0xfffff000 = 2 ^ 12 * (maj / 2 ^ 12) := by
    rw [show 0xfffff000 = (2 ^ 20 - 1) <<< 12 by decide]
    exact and_highMask hmaj
  have hminHigh : min &&& 0xffffff00 = 2 ^ 8 * (min / 2 ^ 8) := by
    rw [show 0xffffff00 = (2 ^ 24 - 1) <<< 8 by decide]
    exact and_highMask hmin
  have hmajLow : maj &&& 0xfff = maj % 2 ^ 12 := by
    rw [show 0xfff = 2 ^ 12 - 1 by decide, Nat.and_two_pow_sub_one_eq_mod]
  have hminLow : min &&& 0xff = min % 2 ^ 8 := by
    rw [show 0xff = 2 ^ 8 - 1 by decide, Nat.and_two_pow_sub_one_eq_mod]
  have hlow : min % 2 ^ 8 < 2 ^ 8 := Nat.mod_lt _ (by decide)
  have hmiddle : 2 ^ 8 * (maj % 2 ^ 12) + min % 2 ^ 8 < 2 ^ 20 := by omega
  have hhigh : 2 ^ 20 * (min / 2 ^ 8) + (2 ^ 8 * (maj % 2 ^ 12) + min % 2 ^ 8) < 2 ^ 44 := by omega
  rw [Nat.two_pow_add_eq_or_of_lt hhigh, Nat.two_pow_add_eq_or_of_lt hmiddle, Nat.two_pow_add_eq_or_of_lt hlow]
  have h1 : (2 ^ 12 * (maj / 2 ^ 12)) <<< 32 = 2 ^ 44 * (maj / 2 ^ 12) := by
    rw [Nat.shiftLeft_eq]
    omega
  have h2 : (2 ^ 8 * (min / 2 ^ 8)) <<< 12 = 2 ^ 20 * (min / 2 ^ 8) := by
    rw [Nat.shiftLeft_eq]
    omega
  have h3 : (maj % 2 ^ 12) <<< 8 = 2 ^ 8 * (maj % 2 ^ 12) := by
    rw [Nat.shiftLeft_eq]
    omega
  rw [makedev, hmajHigh, hminHigh, hmajLow, hminLow, h1, h2, h3]
  ac_rfl

theorem makedev_inj {maj min maj' min' : Nat} (hmaj : maj < 2 ^ 32) (hmin : min < 2 ^ 32) (hmaj' : maj' < 2 ^ 32)
    (hmin' : min' < 2 ^ 32) (h : makedev maj min = makedev maj' min') : maj = maj' ∧ min = min' := by
  rw [makedev_eq hmaj hmin, makedev_eq hmaj' hmin'] at h
  omega

theorem makedev_lt {maj min : Nat} (hmaj : maj < 2 ^ 12) (hmin : min < 2 ^ 20) : makedev maj min < 2 ^ 32 := by
  rw [makedev_eq (by omega) (by omega)]
  omega

theorem seqPath_eq_self {name : Text} (h : '\n' ∉ name) : seqPath name = name := by
  induction name with
  | nil => rfl
  | cons c name ih =>
      rw [seqPath, List.flatMap_cons, if_neg (List.ne_of_not_mem_cons h).symm, List.singleton_append]
      exact congrArg (c :: ·) (ih (List.not_mem_of_not_mem_cons h))

/-- Mappings that fit differ in what is kept of them. -/
theorem info_inj {m : DataModel} {r r' : Mapping} (hr : r.Fits m) (hr' : r'.Fits m) (h : r.info m = r'.info m) :
    r = r' := by
  have hbits : 2 ^ 32 ≤ 2 ^ wordBits m := Nat.pow_le_pow_right (by decide) (by cases m <;> decide)
  have hnumber : ∀ {w : Nat} {a b : BitVec w}, a.toNat < 2 ^ wordBits m → b.toNat < 2 ^ wordBits m →
      a.toNat % 2 ^ wordBits m = b.toNat % 2 ^ wordBits m → a = b := by
    intro w a b ha hb hab
    rw [Nat.mod_eq_of_lt ha, Nat.mod_eq_of_lt hb] at hab
    exact BitVec.eq_of_toNat_eq hab
  have hdev := congrArg MapInfo.dev h
  simp only [Mapping.info, Nat.mod_eq_of_lt (Nat.lt_of_lt_of_le (makedev_lt hr.major hr.minor) hbits),
    Nat.mod_eq_of_lt (Nat.lt_of_lt_of_le (makedev_lt hr'.major hr'.minor) hbits)] at hdev
  obtain ⟨hmajor, hminor⟩ := makedev_inj r.major.isLt r.minor.isLt r'.major.isLt r'.minor.isLt hdev
  have hname := String.ofList_inj.mp (congrArg MapInfo.path h)
  rw [seqPath_eq_self hr.unbroken, seqPath_eq_self hr'.unbroken] at hname
  apply Mapping.ext
  · exact hnumber hr.start hr'.start (congrArg MapInfo.start h)
  · exact hnumber hr.end_ hr'.end_ (congrArg MapInfo.end_ h)
  · exact congrArg MapInfo.perms h
  · exact congrArg MapInfo.isPrivate h
  · exact hnumber hr.offset hr'.offset (congrArg MapInfo.offset h)
  · exact BitVec.eq_of_toNat_eq hmajor
  · exact BitVec.eq_of_toNat_eq hminor
  · exact hnumber hr.inode hr'.inode (congrArg MapInfo.inode h)
  · exact hname

/-- Nothing of a memory map is lost: two files are scanned alike exactly if they are of the same mappings. -/
theorem scan_maps_lossless {m : DataModel} {rs rs' : List Mapping} (hrs : ∀ r ∈ rs, r.Fits m)
    (hrs' : ∀ r ∈ rs', r.Fits m) (column column' : Nat) :
    scanMaps m (some (maps column rs)) = scanMaps m (some (maps column' rs')) ↔ rs = rs' := by
  rw [scanMaps_maps, scanMaps_maps]
  constructor
  · intro h
    induction rs generalizing rs' with
    | nil => exact (List.map_eq_nil_iff.mp h.symm).symm
    | cons r rs ih =>
        cases rs' with
        | nil => cases h
        | cons r' rs' =>
            obtain ⟨hhead, htail⟩ := List.cons.inj h
            rw [info_inj (hrs r List.mem_cons_self) (hrs' r' List.mem_cons_self) hhead,
              ih (fun r hr => hrs r (List.mem_cons_of_mem _ hr)) (fun r hr => hrs' r (List.mem_cons_of_mem _ hr)) htail]
  · rintro rfl
    rfl

/-- A library and the heap. -/
def sampleMaps : List Mapping :=
  [{ start := 0x7f0000001000
     end_ := 0x7f0000002000
     perms := { read := true, write := false, exec := true }
     isPrivate := true
     offset := 0x1000
     major := 254
     minor := 3
     inode := 4711
     name := "/data/adb/modules/zygisksu/lib64/libzygisk.so".toList
     nameBegins := by simp [isSpace] },
   { start := 0x7f0000002000
     end_ := 0x7f0000003000
     perms := { read := true, write := true, exec := false }
     isPrivate := true
     offset := 0
     major := 0
     minor := 0
     inode := 0
     name := "[heap]".toList
     nameBegins := by simp [isSpace] }]

theorem scan_maps_lossless_sample :
    scanMaps .lp64 (some (maps 73 sampleMaps)) ≠ scanMaps .lp64 (some (maps 73 sampleMaps.reverse)) := by
  have hfits : ∀ r ∈ sampleMaps, r.Fits .lp64 := by
    intro r hr
    rcases List.mem_pair.mp hr with rfl | rfl
    · exact ⟨by decide, by decide, by decide, by decide, by decide, by decide, by decide⟩
    · exact ⟨by decide, by decide, by decide, by decide, by decide, by decide, by decide⟩
  have hreverse : ∀ r ∈ sampleMaps.reverse, r.Fits .lp64 := fun r hr => hfits r (List.mem_reverse.mp hr)
  rw [Ne, scan_maps_lossless hfits hreverse]
  intro h
  have hstart := congrArg (fun rs => rs.head?.map Mapping.start) h
  revert hstart
  decide

end NeoZygisk.Ptracer.MapsText
