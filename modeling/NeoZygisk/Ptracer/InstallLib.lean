import NeoZygisk.Lib.FileSystem
import Mathlib.Data.List.Basic

/-!
# Installing a library

`install_lib` copies a library next to the place it is to have, sets the copy's permissions and renames it
over the old one. Whatever fails on the way, and in whatever pieces the copy is read and written, the
published name must not lead to a partial file: running zygotes map it.

Everything before the rename is confined to the directory and to the staged name (`agrees_stage`), which
is why a failure leaves the destination alone. When `copy_file` reports success, it has read up to the end
of the source and written all it read (`copyLoop_written`). The two give `installLib_allOrNothing`, and
`stageWorkDirectory_allOrNothing` is the same for the two libraries of the work directory, each of which
is installed or left alone whatever becomes of the other.
-/

set_option autoImplicit false

namespace NeoZygisk.Ptracer.InstallLib

open NeoZygisk.Lib

abbrev Byte := BitVec 8

abbrev Path := List Char

structure Attributes where
  mode : BitVec 16
  label : String
  uid : Nat
  gid : Nat
  deriving DecidableEq

abbrev Files := FileSystem Path Byte Attributes

/-! ## The system calls -/

/-- Which of the three calls of `set_sys_perm` succeed. -/
structure PermOutcomes where
  chmod : Bool
  lsetxattr : Bool
  chown : Bool

/-- How the system answers the calls of one `install_lib`. `mkdir` is false for a failure other than
`EEXIST`. `reads` and `writes` answer one call after the other: with an error, or with up to so many
bytes. `creator` is what a new file gets. -/
structure Outcomes where
  mkdir : Bool
  directory : PermOutcomes
  openSrc : Bool
  create : Bool
  reads : Nat → Option Nat
  writes : Nat → Option Nat
  staged : PermOutcomes
  rename : Bool
  umask : BitVec 16
  creator : Attributes

def AID_SYSTEM : Nat := 1000

def kFileContext : String := "u:object_r:system_file:s0"

/-- `sizeof(buf)`. -/
def bufferSize : Nat := 65536

/-- `path.rfind(c)`. -/
def rfind (c : Char) (path : Path) : Option Nat :=
  if c ∈ path then some (path.length - 1 - path.reverse.idxOf c) else none

section Calls

variable (fs : Files)

def exists' (path : Path) : Bool := (fs.names path).isSome

def isDirectory (path : Path) : Bool := (fs.entry path).any fun e => e.2.isDirectory

def setAttributes (path : Path) (f : Attributes → Attributes) : Files :=
  fs.modify path fun inode => { inode with attributes := f inode.attributes }

/-! ## The functions -/

def setSysPerm (o : PermOutcomes) (path : Path) (mode : BitVec 16) : Files × Bool :=
  -- `chmod` also fails where nothing has the name
  if !(o.chmod && exists' fs path) then (fs, false)
  else
    let moded := setAttributes fs path fun a => { a with mode := mode }
    if !o.lsetxattr then (moded, false)
    else
      let labelled := setAttributes moded path fun a => { a with label := kFileContext }
      if !o.chown then (labelled, false)
      else (setAttributes labelled path fun a => { a with uid := AID_SYSTEM, gid := AID_SYSTEM }, true)

/-- A directory that is there already is taken as it is. -/
def makeSysDir (mkdir : Bool) (o : PermOutcomes) (umask : BitVec 16) (creator : Attributes) (path : Path) :
    Files × Bool :=
  if !mkdir then (fs, false)
  else if exists' fs path then setSysPerm fs o path 0o550
  else
    setSysPerm (fs.create path ⟨true, [], { creator with mode := 0o550 &&& ~~~umask }⟩) o path 0o550

/-- `open` with `O_CREAT` and `O_TRUNC`. -/
def openTruncated (o : Outcomes) (path : Path) : Option Files :=
  if !o.create || isDirectory fs path then none
  -- a copy that an earlier run left behind is emptied
  else if exists' fs path then some (fs.modify path fun inode => { inode with content := [] })
  else some (fs.create path ⟨false, [], { o.creator with mode := 0o600 &&& ~~~o.umask }⟩)

end Calls

/-- The inner loop of `copy_file`: whether all of the chunk was written, what of it was, and the number of
calls of `write` so far. -/
def writeLoop (writes : Nat → Option Nat) (calls : Nat) (chunk : List Byte) : Bool × List Byte × Nat :=
  if chunk = [] then (true, [], calls)
  else
    match writes calls with
    | none => (false, [], calls + 1)
    | some n =>
        let nwrite := min n chunk.length
        -- `nwrite <= 0`: a write of nothing counts as an error
        if nwrite = 0 then (false, [], calls + 1)
        else
          let rest := writeLoop writes (calls + 1) (chunk.drop nwrite)
          (rest.1, chunk.take nwrite ++ rest.2.1, rest.2.2)
termination_by chunk.length
decreasing_by
  have hpos : 0 < chunk.length := List.length_pos_iff.mpr ‹¬chunk = []›
  rw [List.length_drop]
  omega

/-- The bytes a `read` returns when it is answered with `n`: at least one unless the file is at its end. -/
def readSize (n remaining : Nat) : Nat := min (max n 1) (min bufferSize remaining)

/-- The outer loop, on what of the source is not read yet: `ok`, and what was written. -/
def copyLoop (o : Outcomes) (reads writes : Nat) (source : List Byte) : Bool × List Byte :=
  match o.reads reads with
  | none => (false, [])
  | some n =>
      let nread := readSize n source.length
      -- the end of the file
      if nread = 0 then (true, [])
      else
        let chunk := writeLoop o.writes writes (source.take nread)
        if !chunk.1 then (false, chunk.2.1)
        else
          let rest := copyLoop o (reads + 1) chunk.2.2 (source.drop nread)
          (rest.1, chunk.2.1 ++ rest.2)
termination_by source.length
decreasing_by
  rw [List.length_drop]
  have hle : nread ≤ source.length := le_trans (min_le_right _ _) (min_le_right _ _)
  have hpos : ¬nread = 0 := ‹¬nread = 0›
  omega

section Install

variable (fs : Files) (o : Outcomes)

/-- The source is read after the destination was truncated. A directory opens and cannot be read. -/
def copyFile (src dst : Path) : Files × Bool :=
  match fs.names src with
  | none => (fs, false)
  | some input =>
      if !o.openSrc then (fs, false)
      else
        match openTruncated fs o dst with
        | none => (fs, false)
        | some opened =>
            let source := opened.disk.get input
            let copied := if source.isDirectory then (false, []) else copyLoop o 0 0 source.content
            (opened.modify dst fun inode => { inode with content := copied.2 }, copied.1)

/-- The name the copy is made under. -/
def staged (dst : Path) : Path := dst ++ ".new".toList

/-- All of `install_lib` but the rename. -/
def stage (src dst : Path) (slash : Nat) : Files × Bool :=
  let made := makeSysDir fs o.mkdir o.directory o.umask o.creator (dst.take slash)
  if !made.2 then made
  else
    let copied := copyFile made.1 o src (staged dst)
    if !copied.2 then copied else setSysPerm copied.1 o.staged (staged dst) 0o644

def installLib (src dst : Path) : Files × Bool :=
  -- only one ABI's library is installed on most devices
  if !exists' fs src then (fs, true)
  else
    match rfind '/' dst with
    | none => (fs, false)
    | some slash =>
        let ready := stage fs o src dst slash
        if !ready.2 then ready
        -- a file does not replace a directory
        else if !(o.rename && !isDirectory ready.1 dst) then (ready.1, false)
        else (ready.1.rename (staged dst) dst, true)

/-- Where the libraries are under the module's directory and are to be under the work directory. -/
def lib64 : Path := "/lib64/libzygisk.so".toList

def lib : Path := "/lib/libzygisk.so".toList

/-- `o64` and `o32` are the answers to the two installations; those to `make_sys_dir` of the work directory
itself are `mkdir` and `perm`. -/
def stageWorkDirectory (mkdir : Bool) (perm : PermOutcomes) (o64 o32 : Outcomes) (work module : Path) :
    Files × Bool :=
  let made := makeSysDir fs mkdir perm o64.umask o64.creator work
  if !made.2 then made
  else
    let first := installLib made.1 o64 (module ++ lib64) (work ++ lib64)
    let second := installLib first.1 o32 (module ++ lib) (work ++ lib)
    (second.1, second.2 && first.2)

end Install

/-! ## What is to hold -/

/-- The destination holds what the source held, or there is no source, or the call failed; in the last two
cases the destination's inode is the one it was, as it was. -/
def AllOrNothing (fs : Files) (src dst : Path) (result : Files × Bool) : Prop :=
  (result.2 = true ∧
    ((fs.entry src = none ∧ result.1.entry dst = fs.entry dst) ∨
      ∃ source installed, fs.entry src = some source ∧ result.1.entry dst = some installed ∧
        installed.2.content = source.2.content)) ∨
    (result.2 = false ∧ result.1.entry dst = fs.entry dst)

/-! ## The copy loops -/

theorem writeLoop_written (writes : Nat → Option Nat) (calls : Nat) (chunk : List Byte)
    (h : (writeLoop writes calls chunk).1 = true) : (writeLoop writes calls chunk).2.1 = chunk := by
  fun_induction writeLoop writes calls chunk with
  | case1 => rfl
  | case2 => cases h
  | case3 => cases h
  | case4 calls chunk _ n _ nwrite _ rest ih =>
      rw [ih h]
      exact List.take_append_drop nwrite chunk

theorem readSize_eq_zero_iff {n remaining : Nat} : readSize n remaining = 0 ↔ remaining = 0 := by
  unfold readSize bufferSize
  omega

/-- A copy that is reported complete is complete. -/
theorem copyLoop_written (o : Outcomes) (reads writes : Nat) (source : List Byte)
    (h : (copyLoop o reads writes source).1 = true) : (copyLoop o reads writes source).2 = source := by
  fun_induction copyLoop o reads writes source with
  | case1 => cases h
  | case2 reads writes source n _ nread hend =>
      have hempty : source.length = 0 := readSize_eq_zero_iff.mp hend
      exact (List.length_eq_zero_iff.mp hempty).symm
  | case3 => cases h
  | case4 reads writes source n _ nread _ chunk hok rest ih =>
      have hchunk : chunk.2.1 = source.take nread := writeLoop_written _ _ _ (by simpa using hok)
      rw [ih h, hchunk]
      exact List.take_append_drop nread source

/-! ## What the calls before the rename change -/

section Frames

variable (fs : Files)

theorem agrees_setSysPerm (o : PermOutcomes) (path : Path) (mode : BitVec 16) :
    FileSystem.Agrees {path} fs (setSysPerm fs o path mode).1 := by
  unfold setSysPerm
  split_ifs
  · exact FileSystem.Agrees.refl _ _
  · exact FileSystem.agrees_modify _
  · exact (FileSystem.agrees_modify _).trans (FileSystem.agrees_modify _)
  · exact ((FileSystem.agrees_modify _).trans (FileSystem.agrees_modify _)).trans (FileSystem.agrees_modify _)

theorem agrees_makeSysDir (mkdir : Bool) (o : PermOutcomes) (umask : BitVec 16) (creator : Attributes)
    (path : Path) : FileSystem.Agrees {path} fs (makeSysDir fs mkdir o umask creator path).1 := by
  unfold makeSysDir
  split_ifs
  · exact FileSystem.Agrees.refl _ _
  · exact agrees_setSysPerm fs o path _
  · exact (FileSystem.agrees_create _).trans (agrees_setSysPerm _ o path _)

theorem agrees_openTruncated {o : Outcomes} {path : Path} {opened : Files}
    (h : openTruncated fs o path = some opened) : FileSystem.Agrees {path} fs opened := by
  unfold openTruncated at h
  split_ifs at h <;> obtain rfl := Option.some.inj h
  · exact FileSystem.agrees_modify _
  · exact FileSystem.agrees_create _

theorem agrees_copyFile (o : Outcomes) (src dst : Path) :
    FileSystem.Agrees {dst} fs (copyFile fs o src dst).1 := by
  unfold copyFile
  split
  · exact FileSystem.Agrees.refl _ _
  · split_ifs
    · exact FileSystem.Agrees.refl _ _
    · split
      · exact FileSystem.Agrees.refl _ _
      · rename_i hopened
        exact (agrees_openTruncated fs hopened).trans (FileSystem.agrees_modify _)

/-- The directory and the staged name are all that is touched. -/
theorem agrees_stage (o : Outcomes) (src dst : Path) (slash : Nat) :
    FileSystem.Agrees {dst.take slash, staged dst} fs (stage fs o src dst slash).1 := by
  have hmade := (agrees_makeSysDir fs o.mkdir o.directory o.umask o.creator (dst.take slash)).mono
    (Set.singleton_subset_iff.mpr (Set.mem_insert _ {staged dst}))
  have hstaged : {staged dst} ⊆ ({dst.take slash, staged dst} : Set Path) :=
    Set.singleton_subset_iff.mpr (Set.mem_insert_of_mem _ rfl)
  simp only [stage]
  split_ifs
  · exact hmade
  · exact hmade.trans ((agrees_copyFile _ o src (staged dst)).mono hstaged)
  · exact (hmade.trans ((agrees_copyFile _ o src (staged dst)).mono hstaged)).trans
      ((agrees_setSysPerm _ o.staged (staged dst) _).mono hstaged)

end Frames

/-! ## What becomes of the contents -/

/-- What is there stays there with its content. -/
def Keeps (fs fs' : Files) : Prop :=
  ∀ name i inode, fs.entry name = some (i, inode) →
    ∃ inode', fs'.entry name = some (i, inode') ∧ inode'.content = inode.content

section Contents

variable {fs fs' fs'' : Files} {o : Outcomes} {path src dst : Path}

theorem Keeps.trans (h : Keeps fs fs') (h' : Keeps fs' fs'') : Keeps fs fs'' := by
  intro name i inode hentry
  obtain ⟨mid, hmid, hcontent⟩ := h name i inode hentry
  obtain ⟨last, hlast, hcontent'⟩ := h' name i mid hmid
  exact ⟨last, hlast, hcontent'.trans hcontent⟩

theorem keeps_refl (fs : Files) : Keeps fs fs := fun _ _ inode hentry => ⟨inode, hentry, rfl⟩

theorem keeps_setAttributes (fs : Files) (path : Path) (f : Attributes → Attributes) :
    Keeps fs (setAttributes fs path f) := by
  intro name i inode hentry
  by_cases hname : name = path
  · subst hname
    exact ⟨{ inode with attributes := f inode.attributes },
      by rw [setAttributes, FileSystem.entry_modify_self, hentry]; rfl, rfl⟩
  · exact ⟨inode, by rw [setAttributes, FileSystem.entry_modify_of_ne _ hname, hentry], rfl⟩

theorem keeps_create {inode : Inode Byte Attributes} (h : exists' fs path = false) :
    Keeps fs (fs.create path inode) := by
  intro name i old hentry
  have hname : name ≠ path := by
    rintro rfl
    rw [exists', (FileSystem.entry_eq_some_iff.mp hentry).1] at h
    cases h
  exact ⟨old, by rw [FileSystem.entry_create_of_ne _ hname, hentry], rfl⟩

theorem keeps_setSysPerm (fs : Files) (o : PermOutcomes) (path : Path) (mode : BitVec 16) :
    Keeps fs (setSysPerm fs o path mode).1 := by
  simp only [setSysPerm]
  split_ifs
  · exact keeps_refl fs
  · exact keeps_setAttributes fs path _
  · exact (keeps_setAttributes fs path _).trans (keeps_setAttributes _ path _)
  · exact ((keeps_setAttributes fs path _).trans (keeps_setAttributes _ path _)).trans
      (keeps_setAttributes _ path _)

theorem keeps_makeSysDir (fs : Files) (mkdir : Bool) (o : PermOutcomes) (umask : BitVec 16)
    (creator : Attributes) (path : Path) : Keeps fs (makeSysDir fs mkdir o umask creator path).1 := by
  simp only [makeSysDir]
  split_ifs with hmkdir hexists
  · exact keeps_refl fs
  · exact keeps_setSysPerm fs o path _
  · exact (keeps_create (by simpa using hexists)).trans (keeps_setSysPerm _ o path _)

/-- What was opened is there to be written. -/
theorem entry_openTruncated {opened : Files} (h : openTruncated fs o path = some opened) :
    ∃ e, opened.entry path = some e := by
  unfold openTruncated at h
  split_ifs at h with _ hexists <;> obtain rfl := Option.some.inj h
  · obtain ⟨i, hi⟩ := Option.isSome_iff_exists.mp hexists
    exact ⟨_, by rw [FileSystem.entry_modify_self, FileSystem.entry, hi]; rfl⟩
  · exact ⟨_, FileSystem.entry_create_self _⟩

/-- A copy that succeeds has the content of the source. -/
theorem copyFile_content {i : Nat} {source : Inode Byte Attributes} (hsrc : fs.entry src = some (i, source))
    (hne : src ≠ dst) (hok : (copyFile fs o src dst).2 = true) :
    ∃ e, (copyFile fs o src dst).1.entry dst = some e ∧ e.2.content = source.content := by
  obtain ⟨hname, -⟩ := FileSystem.entry_eq_some_iff.mp hsrc
  unfold copyFile at hok ⊢
  rw [hname] at hok ⊢
  dsimp only at hok ⊢
  by_cases hopen : o.openSrc = true
  · rw [hopen] at hok ⊢
    cases hopened : openTruncated fs o dst with
    | none => simp [hopened] at hok
    | some opened =>
        have hinput : opened.disk.get i = source := by
          have hentry := (agrees_openTruncated fs hopened) src hne
          rw [hsrc] at hentry
          exact (FileSystem.entry_eq_some_iff.mp hentry).2
        obtain ⟨e, he⟩ := entry_openTruncated hopened
        -- a source that is a directory cannot be read, so what is left is the copy of a file
        rw [hopened] at hok
        simp only [Bool.not_true, Bool.false_eq_true, if_false, hinput] at hok ⊢
        refine ⟨_, by rw [FileSystem.entry_modify_self, he]; rfl, ?_⟩
        by_cases hdir : source.isDirectory = true
        · simp [hdir] at hok
        · simp only [hdir, if_false, Bool.false_eq_true] at hok ⊢
          exact copyLoop_written o 0 0 source.content hok
  · simp [hopen] at hok

end Contents

/-! ## All or nothing -/

theorem rfind_lt {c : Char} {path : Path} {slash : Nat} (h : rfind c path = some slash) :
    slash < path.length := by
  unfold rfind at h
  split_ifs at h with hmem
  have hpos : 0 < path.length := List.length_pos_of_mem hmem
  obtain rfl := Option.some.inj h
  omega

theorem staged_ne (dst : Path) : staged dst ≠ dst := by
  intro h
  have hlength := congrArg List.length h
  simp [staged] at hlength

/-- The destination is neither its directory nor the staged name. -/
theorem notMem_touched {dst : Path} {slash : Nat} (h : slash < dst.length) :
    dst ∉ ({dst.take slash, staged dst} : Set Path) := by
  rw [Set.mem_insert_iff, Set.mem_singleton_iff, not_or]
  constructor
  · intro hdst
    have hlength := congrArg List.length hdst
    rw [List.length_take] at hlength
    omega
  · exact (staged_ne dst).symm

section Install

variable (fs : Files) (o : Outcomes) {src dst : Path}

/-- The staged file is complete when everything before the rename succeeded. -/
theorem stage_content {slash i : Nat} {source : Inode Byte Attributes} (hsrc : fs.entry src = some (i, source))
    (hne : src ≠ staged dst) (hok : (stage fs o src dst slash).2 = true) :
    ∃ e, (stage fs o src dst slash).1.entry (staged dst) = some e ∧ e.2.content = source.content := by
  obtain ⟨source', hsource', hcontent⟩ :=
    keeps_makeSysDir fs o.mkdir o.directory o.umask o.creator (dst.take slash) src i source hsrc
  simp only [stage] at hok ⊢
  split_ifs at hok ⊢ with hmade hcopied
  · simp [hok] at hmade
  · simp [hok] at hcopied
  · obtain ⟨e, he, hcopy⟩ := copyFile_content hsource' hne (by simpa using hcopied)
    obtain ⟨inode', hinode', hkept⟩ := keeps_setSysPerm _ o.staged (staged dst) 0o644 (staged dst) e.1 e.2 he
    exact ⟨_, hinode', hkept.trans (hcopy.trans hcontent)⟩

/-- For every source and destination, however the system answers: the destination holds the whole source
or is what it was. The source is not the staged name, which no caller asks for. -/
theorem installLib_allOrNothing (hne : src ≠ staged dst) :
    AllOrNothing fs src dst (installLib fs o src dst) := by
  unfold installLib
  cases hexists : fs.names src with
  | none => simp [AllOrNothing, exists', hexists, FileSystem.entry]
  | some i =>
      have hsrc : fs.entry src = some (i, fs.disk.get i) := FileSystem.entry_eq_some_iff.mpr ⟨hexists, rfl⟩
      simp only [exists', hexists, Option.isSome_some, Bool.not_true, Bool.false_eq_true, if_false]
      cases hslash : rfind '/' dst with
      | none => exact Or.inr ⟨rfl, rfl⟩
      | some slash =>
          have hdst := agrees_stage fs o src dst slash dst (notMem_touched (rfind_lt hslash))
          -- up to the rename nothing that fails has touched the destination
          dsimp only
          split_ifs with hready hrename
          · exact Or.inr ⟨by simpa using hready, hdst⟩
          · exact Or.inr ⟨rfl, hdst⟩
          · obtain ⟨e, he, hcontent⟩ := stage_content fs o hsrc hne (by simpa using hready)
            refine Or.inl ⟨rfl, Or.inr ⟨_, e, hsrc, ?_, hcontent⟩⟩
            rw [FileSystem.entry_rename_new, he]

/-- Whoever has the old file mapped keeps it as it is. -/
theorem installLib_mapped {i : Nat} (hdst : fs.names dst = some i) :
    (installLib fs o src dst).1.disk.get i = fs.disk.get i := by
  have hentry : fs.entry dst = some (i, fs.disk.get i) := FileSystem.entry_eq_some_iff.mpr ⟨hdst, rfl⟩
  unfold installLib
  split_ifs
  · rfl
  · cases hslash : rfind '/' dst with
    | none => rfl
    | some slash =>
        have hstage := agrees_stage fs o src dst slash dst (notMem_touched (rfind_lt hslash))
        rw [hentry] at hstage
        have hget := (FileSystem.entry_eq_some_iff.mp hstage).2
        -- the rename changes names only
        dsimp only
        split_ifs <;> exact hget

end Install

/-- A library and an older one where it is to go. -/
def updated : Files :=
  FileSystem.create
    (FileSystem.create
      ⟨fun _ => none, ⟨fun _ => ⟨false, [], ⟨0, "", 0, 0⟩⟩, 0⟩, by simp, by simp⟩
      "/module/lib.so".toList ⟨false, [1, 2, 3], ⟨0o644, "", 0, 0⟩⟩)
    "/work/lib.so".toList ⟨false, [9, 9], ⟨0o644, "", 0, 0⟩⟩

/-- Reads of two bytes, writes of one byte, and no failure. -/
def inPieces : Outcomes where
  mkdir := true
  directory := ⟨true, true, true⟩
  openSrc := true
  create := true
  reads := fun _ => some 2
  writes := fun _ => some 1
  staged := ⟨true, true, true⟩
  rename := true
  umask := 0o077
  creator := ⟨0, "", 0, 0⟩

theorem installLib_inPieces :
    AllOrNothing updated "/module/lib.so".toList "/work/lib.so".toList
        (installLib updated inPieces "/module/lib.so".toList "/work/lib.so".toList) ∧
      (installLib updated inPieces "/module/lib.so".toList "/work/lib.so".toList).2 = true := by
  constructor
  · apply installLib_allOrNothing
    decide
  · decide +kernel

/-! ## The work directory -/

section WorkDirectory

variable (fs : Files) (o : Outcomes) {src dst work : Path}

theorem agrees_installLib {slash : Nat} (hslash : rfind '/' dst = some slash) :
    FileSystem.Agrees {dst.take slash, staged dst, dst} fs (installLib fs o src dst).1 := by
  have hstage := (agrees_stage fs o src dst slash).mono
    (show {dst.take slash, staged dst} ⊆ ({dst.take slash, staged dst, dst} : Set Path) by
      apply Set.insert_subset_insert
      exact Set.singleton_subset_iff.mpr (Set.mem_insert _ _))
  simp only [installLib, hslash]
  split_ifs
  · exact FileSystem.Agrees.refl _ _
  · exact hstage
  · exact hstage
  · exact hstage.trans ((FileSystem.agrees_rename _ _).mono (Set.subset_insert _ _))

/-- The directory of a path that ends in a name. -/
theorem rfind_append {directory name : Path} (h : '/' ∉ name) :
    rfind '/' (directory ++ '/' :: name) = some directory.length := by
  have hmem : '/' ∈ directory ++ '/' :: name := List.mem_append_right _ List.mem_cons_self
  have hidx : (directory ++ '/' :: name).reverse.idxOf '/' = name.length := by
    rw [List.reverse_append, List.reverse_cons, List.append_assoc]
    rw [List.idxOf_append_of_notMem (by simpa using h)]
    simp
  rw [rfind, if_pos hmem, hidx, List.length_append, List.length_cons]
  congr 1
  omega

/-- The installation of a library under `work` touches three names there. -/
theorem agrees_installLib_append (suffix directory : Path) {name : Path} (hsuffix : suffix = directory ++ '/' :: name)
    (h : '/' ∉ name) :
    FileSystem.Agrees {work ++ directory, work ++ staged suffix, work ++ suffix} fs
      (installLib fs o src (work ++ suffix)).1 := by
  have hsplit : work ++ suffix = (work ++ directory) ++ '/' :: name := by rw [hsuffix, List.append_assoc]
  have hslash : rfind '/' (work ++ suffix) = some (work ++ directory).length := by
    rw [hsplit]
    exact rfind_append h
  have htake : (work ++ suffix).take (work ++ directory).length = work ++ directory := by
    rw [hsplit]
    exact List.take_left
  have hagrees : FileSystem.Agrees _ fs (installLib fs o src (work ++ suffix)).1 := agrees_installLib fs o hslash
  rw [htake, staged, List.append_assoc] at hagrees
  exact hagrees

/-- What is about one file system is about another one that agrees with it on the two names. -/
theorem AllOrNothing.congr {fs fs' result : Files} {ok : Bool} {r : Files × Bool}
    (h : AllOrNothing fs' src dst r) (hsrc : fs'.entry src = fs.entry src) (hdst : fs'.entry dst = fs.entry dst)
    (hresult : result.entry dst = r.1.entry dst) (hok : ok = r.2) : AllOrNothing fs src dst (result, ok) := by
  unfold AllOrNothing at h ⊢
  rw [hsrc, hdst] at h
  rw [hok, hresult]
  exact h

/-- The two directories under the work directory. -/
def dir64 : Path := "/lib64".toList

def dir32 : Path := "/lib".toList

def libraryName : Path := "libzygisk.so".toList

theorem agrees_installLib64 :
    FileSystem.Agrees {work ++ dir64, work ++ staged lib64, work ++ lib64} fs
      (installLib fs o src (work ++ lib64)).1 := by
  have hsplit : lib64 = dir64 ++ '/' :: libraryName := by decide
  exact agrees_installLib_append fs o lib64 dir64 hsplit (by decide)

theorem agrees_installLib32 :
    FileSystem.Agrees {work ++ dir32, work ++ staged lib, work ++ lib} fs
      (installLib fs o src (work ++ lib)).1 := by
  have hsplit : lib = dir32 ++ '/' :: libraryName := by decide
  exact agrees_installLib_append fs o lib dir32 hsplit (by decide)

/-- Names under one directory differ as their rests do. -/
theorem append_notMem {a b c rest : Path} (h : rest ∉ ({a, b, c} : Set Path)) :
    work ++ rest ∉ ({work ++ a, work ++ b, work ++ c} : Set Path) := by
  simpa only [Set.mem_insert_iff, Set.mem_singleton_iff, List.append_cancel_left_eq] using h

/-- Both libraries are installed or left alone, each whatever becomes of the other one, and the stage
reports success only if both are in place or not there to be installed. -/
theorem stageWorkDirectory_allOrNothing (mkdir : Bool) (perm : PermOutcomes) (o64 o32 : Outcomes) {module : Path}
    (hapart : ∀ rest rest', module ++ rest ≠ work ++ rest') :
    ∃ ok64 ok32, (stageWorkDirectory fs mkdir perm o64 o32 work module).2 = (ok32 && ok64) ∧
      AllOrNothing fs (module ++ lib64) (work ++ lib64)
        ((stageWorkDirectory fs mkdir perm o64 o32 work module).1, ok64) ∧
      AllOrNothing fs (module ++ lib) (work ++ lib)
        ((stageWorkDirectory fs mkdir perm o64 o32 work module).1, ok32) := by
  have hmade := agrees_makeSysDir fs mkdir perm o64.umask o64.creator work
  have hwork : ∀ rest, rest ≠ [] → work ++ rest ∉ ({work} : Set Path) := by
    intro rest hrest hmem
    exact hrest (by simpa using hmem)
  have hmodule : ∀ rest, module ++ rest ∉ ({work} : Set Path) := by
    intro rest hmem
    exact hapart rest [] (by simpa using hmem)
  simp only [stageWorkDirectory]
  generalize makeSysDir fs mkdir perm o64.umask o64.creator work = made at hmade ⊢
  split_ifs with hfailed
  · have hfalse : made.2 = false := by simpa using hfailed
    refine ⟨false, false, hfalse, Or.inr ⟨rfl, ?_⟩, Or.inr ⟨rfl, ?_⟩⟩
    · exact hmade _ (hwork lib64 (by decide))
    · exact hmade _ (hwork lib (by decide))
  · refine ⟨_, _, rfl, ?_, ?_⟩
    · -- the second installation leaves the first library alone
      apply (installLib_allOrNothing made.1 o64 (fun h => hapart _ _ (h.trans (List.append_assoc _ _ _)))).congr
      · exact hmade _ (hmodule lib64)
      · exact hmade _ (hwork lib64 (by decide))
      · apply agrees_installLib32
        apply append_notMem
        decide
      · rfl
    · -- the first one has not touched what the second one copies
      have hsrc : module ++ lib ∉ ({work ++ dir64, work ++ staged lib64, work ++ lib64} : Set Path) := by
        simp [hapart]
      have hfirst : FileSystem.Agrees {work ++ dir64, work ++ staged lib64, work ++ lib64} made.1
          (installLib made.1 o64 (module ++ lib64) (work ++ lib64)).1 := agrees_installLib64 made.1 o64
      generalize (installLib made.1 o64 (module ++ lib64) (work ++ lib64)).1 = first at hfirst ⊢
      apply (installLib_allOrNothing first o32 (fun h => hapart _ _ (h.trans (List.append_assoc _ _ _)))).congr
      · exact (hfirst _ hsrc).trans (hmade _ (hmodule lib))
      · refine (hfirst _ ?_).trans (hmade _ (hwork lib (by decide)))
        apply append_notMem
        decide
      · rfl
      · rfl

end WorkDirectory

end NeoZygisk.Ptracer.InstallLib
