import NeoZygisk.Common.DataModel
import NeoZygisk.Lib.Compaction
import Mathlib.Algebra.Group.Nat.Defs

/-!
# Scrubbing the exit handlers

Unloading a module leaves null holes in libc's array of exit handlers, and a count of appends that outruns the
entries. `scrubFingerprint` finds the array and its lock in `libc.so`, takes the lock without waiting for it and
has `recompact` close the holes, in pages that are opened with one `mprotect` and closed with another.

`Compacts` is what a scrub is for: the live handlers are all there in their order, the rest is blank and no
counter tells of what was there. `scrubFingerprint_lossless` says that a scrub does this or nothing.
-/

set_option autoImplicit false

namespace NeoZygisk.Injector.Atexit

open NeoZygisk.Common
open NeoZygisk.Lib.Compaction

/-! ## The array -/

/-- The sizes of words and pages. -/
structure Platform where
  model : DataModel
  pageBits : Nat

variable {p : Platform}

/-- `page_size`, a power of two. -/
def Platform.pageSize (p : Platform) : Nat := 2 ^ p.pageBits

/-- An entry: the callback, its argument and the module. -/
structure AtexitEntry (p : Platform) where
  fn : p.model.Word
  arg : p.model.Word
  dso : p.model.Word
  deriving DecidableEq, Repr

/-- `AtexitEntry{}`. -/
def AtexitEntry.zero : AtexitEntry p := ⟨0, 0, 0⟩

/-- The entry has a callback. -/
def AtexitEntry.live (entry : AtexitEntry p) : Bool := entry.fn != 0

/-- `sizeof(AtexitEntry)`. -/
def Platform.sizeofEntry (p : Platform) : Nat := 3 * p.model.wordSize

/-- libc's array with the pages it lies in. Pages are counted from `array_` on. -/
structure AtexitArray (p : Platform) where
  /-- `array_` is not null. -/
  mapped : Bool
  entries : Nat → AtexitEntry p
  size : Nat
  extractedCount : Nat
  totalAppends : Nat
  writable : Nat → Bool

/-- `page_start`. -/
def pageStart (p : Platform) (x : Nat) : Nat := x / p.pageSize * p.pageSize

/-- `page_end`. -/
def pageEnd (p : Platform) (x : Nat) : Nat := pageStart p (x + p.pageSize - 1)

def pageStartOfIndex (p : Platform) (idx : Nat) : Nat := pageStart p (idx * p.sizeofEntry)

def pageEndOfIndex (p : Platform) (idx : Nat) : Nat := pageEnd p (idx * p.sizeofEntry)

inductive ScrubStatus where
  | kDone
  | kNothingToScrub
  | kNoArray
  | kNoLock
  | kLockBusy
  | kNotWritable
  | kLeftWritable
  deriving DecidableEq, Repr

/-! ## Compaction -/

/-- A value of `errno`. -/
abbrev Errno := Nat

def EFAULT : Errno := 14

/-- What the calls of `recompact` come to: the `errno` of each `mprotect` that fails, and whether the `madvise`
takes the pages away. -/
structure PageOutcome where
  makeWritable : Option Errno
  madvise : Bool
  restore : Option Errno

namespace AtexitArray

variable (t : AtexitArray p)

def hasFingerprint : Bool := t.extractedCount > 0 || t.totalAppends > t.size

/-- `set_writable`: the `errno` if it fails. A failing `mprotect` changes nothing. -/
def setWritable (writable : Bool) (startIdx numEntries : Nat) (mprotect : Option Errno) :
    Option Errno × AtexitArray p :=
  if t.mapped = false then (some EFAULT, t)
  else
    match mprotect with
    | some errno => (some errno, t)
    | none =>
        let startByte := pageStartOfIndex p startIdx
        let stopByte := pageEndOfIndex p (startIdx + numEntries)
        (none,
          { t with
            writable := fun page =>
              if startByte ≤ page * p.pageSize ∧ page * p.pageSize < stopByte then writable
              else t.writable page })

/-- `madvise(array_ + new_bytes, old_bytes - new_bytes, MADV_DONTNEED)`: the words in these pages read as zero
afterwards. -/
def dropPages (newBytes oldBytes : Nat) : AtexitArray p :=
  let word (idx field : Nat) (value : p.model.Word) : p.model.Word :=
    let byte := (3 * idx + field) * p.model.wordSize
    if newBytes ≤ byte ∧ byte < oldBytes then 0 else value
  { t with
    entries := fun idx =>
      let entry := t.entries idx
      ⟨word idx 0 entry.fn, word idx 1 entry.arg, word idx 2 entry.dso⟩ }

/-- The two loops of `recompact`: `dst` and the array after them. -/
def shiftEntries : Nat × AtexitArray p :=
  let src := skipLive AtexitEntry.live t.entries t.size 0
  let (dst, entries) := shift AtexitEntry.live .zero (t.size - src) src src t.entries
  (dst, { t with entries := entries })

/-- If the table uses fewer pages, those at the end are dropped. -/
def trimPages (dst : Nat) (madvise : Bool) : AtexitArray p :=
  let oldBytes := pageEndOfIndex p t.size
  let newBytes := pageEndOfIndex p dst
  if newBytes < oldBytes ∧ madvise then t.dropPages newBytes oldBytes else t

/-- What `recompact` does once the pages are writable: the `errno` if they cannot be protected again, and the
array. -/
def closeHoles (o : PageOutcome) : Option Errno × AtexitArray p :=
  let (dst, t) := t.shiftEntries
  let t := t.trimPages dst o.madvise
  let (restored, t) := t.setWritable false 0 t.size o.restore
  (restored, { t with size := dst, extractedCount := 0 })

/-- The append counter is rewound. -/
def rewind : AtexitArray p := { t with totalAppends := t.size }

/-- `recompact`: the status, `protect_errno` and the array. -/
def recompact (o : PageOutcome) : ScrubStatus × Errno × AtexitArray p :=
  if !t.hasFingerprint then (.kNothingToScrub, 0, t)
  else if t.extractedCount > 0 then
    match t.setWritable true 0 t.size o.makeWritable with
    | (some errno, t) => (.kNotWritable, errno, t)
    | (none, t) =>
        match t.closeHoles o with
        | (none, t) => (.kDone, 0, t.rewind)
        | (some errno, t) => (.kLeftWritable, errno, t.rewind)
  else (.kDone, 0, t.rewind)

end AtexitArray

/-! ## The scrub -/

/-- What `libc.so` is found to define. -/
structure Symbols where
  /-- `isValid`. -/
  valid : Bool
  /-- `findDirectSymbol` does not return null. -/
  findDirectSymbol : String → Bool
  findSymbolNameByPrefix : String → String

/-- `MAX_REASONABLE_ATEXIT_ENTRIES`. -/
def maxReasonableAtexitEntries : Nat := 4096 * 16

/-- `findArray`: the array is found and plausible. -/
def findArray (libc : Symbols) (g_array : AtexitArray p) : Bool :=
  if libc.findDirectSymbol "_ZL7g_array.0" || libc.findDirectSymbol "_ZL7g_array" then
    g_array.size < maxReasonableAtexitEntries
  else false

/-- `findLock`: the lock is found. -/
def findLock (libc : Symbols) : Bool :=
  if libc.findDirectSymbol "_ZL13g_atexit_lock" then true
  else
    let name := libc.findSymbolNameByPrefix "_ZL13g_atexit_lock"
    if name.isEmpty then false else libc.findDirectSymbol name

/-- `kLockAttempts`. -/
def kLockAttempts : Nat := 8

/-- The `n` attempts from `attempt` on: whether one of them took the lock. -/
def tryLock (trylock : Nat → Bool) : (n attempt : Nat) → Bool
  | 0, _ => false
  | n + 1, attempt => if trylock attempt then true else tryLock trylock n (attempt + 1)

/-- What a scrub meets. `trylock` says which attempts take the lock. -/
structure Outcome where
  libc : Symbols
  trylock : Nat → Bool
  pages : PageOutcome

/-- libc's array, and whether this thread holds its lock. -/
structure Libc (p : Platform) where
  g_array : AtexitArray p
  locked : Bool

/-- `scrubFingerprint`. -/
def scrubFingerprint (o : Outcome) (s : Libc p) : ScrubStatus × Libc p :=
  if !o.libc.valid then (.kNoArray, s)
  else if !findArray o.libc s.g_array then (.kNoArray, s)
  else if !findLock o.libc then (.kNoLock, s)
  else if !tryLock o.trylock kLockAttempts 0 then (.kLockBusy, s)
  else
    let s := { s with locked := true }
    let (status, _, g_array) := s.g_array.recompact o.pages
    let s := { s with g_array := g_array }
    (status, { s with locked := false })

/-! ## What a scrub is for -/

namespace AtexitArray

/-- The entries in use. -/
def used (t : AtexitArray p) : List (AtexitEntry p) := (List.range t.size).map t.entries

/-- `extracted_count_` is the number of null entries. -/
def Counted (t : AtexitArray p) : Prop := t.extractedCount = t.used.countP fun entry => !entry.live

/-- `u` is `t` without the traces of removed handlers. -/
structure Compacts (t u : AtexitArray p) : Prop where
  kept : u.used = t.used.filter AtexitEntry.live
  blank : ∀ i, u.size ≤ i → i < t.size → u.entries i = .zero
  extracted : u.extractedCount = 0
  appends : u.totalAppends = u.size

end AtexitArray

/-! ## Pages -/

theorem le_pageEnd (p : Platform) (x : Nat) : x ≤ pageEnd p x := by
  have hpos : 0 < p.pageSize := Nat.two_pow_pos p.pageBits
  have hdiv := Nat.div_add_mod (x + p.pageSize - 1) p.pageSize
  have hmod := Nat.mod_lt (x + p.pageSize - 1) hpos
  rw [pageEnd, pageStart, Nat.mul_comm]
  omega

/-- The words of an entry below `dst` lie below the end of the pages of `dst` entries. -/
theorem byte_lt_pageEndOfIndex {idx field dst : Nat} (hidx : idx < dst) (hfield : field < 3) :
    (3 * idx + field) * p.model.wordSize < pageEndOfIndex p dst := by
  have hword : 0 < p.model.wordSize := by
    cases p.model <;> decide
  have hlt : (3 * idx + field) * p.model.wordSize < 3 * dst * p.model.wordSize :=
    Nat.mul_lt_mul_of_pos_right (by omega) hword
  have hbytes : 3 * dst * p.model.wordSize = dst * p.sizeofEntry := by
    rw [Platform.sizeofEntry, Nat.mul_left_comm, Nat.mul_assoc]
  exact Nat.lt_of_lt_of_le (hbytes ▸ hlt) (le_pageEnd p _)

namespace AtexitArray

variable {t u : AtexitArray p}

/-- `mprotect` fails, or only the protection changes. -/
theorem setWritable_cases (t : AtexitArray p) (writable : Bool) (startIdx numEntries : Nat)
    (mprotect : Option Errno) :
    (∃ errno, t.setWritable writable startIdx numEntries mprotect = (some errno, t)) ∨
      ∃ pages, t.setWritable writable startIdx numEntries mprotect = (none, { t with writable := pages }) := by
  simp only [setWritable]
  split
  · exact .inl ⟨_, rfl⟩
  · cases mprotect with
    | some errno => exact .inl ⟨errno, rfl⟩
    | none => exact .inr ⟨_, rfl⟩

/-- Entries below `dst` do not lie in the pages that are dropped. -/
theorem dropPages_entries_of_lt {dst idx oldBytes : Nat} (h : idx < dst) :
    (t.dropPages (pageEndOfIndex p dst) oldBytes).entries idx = t.entries idx := by
  have hbyte : ∀ field, field < 3 →
      ¬ (pageEndOfIndex p dst ≤ (3 * idx + field) * p.model.wordSize ∧
        (3 * idx + field) * p.model.wordSize < oldBytes) := by
    intro field hfield hdropped
    have := byte_lt_pageEndOfIndex (p := p) h hfield
    omega
  simp only [dropPages]
  rw [if_neg (hbyte 0 (by omega)), if_neg (hbyte 1 (by omega)), if_neg (hbyte 2 (by omega))]

/-- A blank entry stays blank. -/
theorem dropPages_entries_of_zero {idx newBytes oldBytes : Nat} (h : t.entries idx = .zero) :
    (t.dropPages newBytes oldBytes).entries idx = .zero := by
  simp only [dropPages, h, AtexitEntry.zero, ite_self]

/-- Trimming keeps the entries below `dst` and the blank ones. -/
theorem trimPages_spec (t : AtexitArray p) (dst : Nat) (madvise : Bool) :
    (t.trimPages dst madvise).size = t.size ∧
      (∀ i, i < dst → (t.trimPages dst madvise).entries i = t.entries i) ∧
      ∀ i, t.entries i = .zero → (t.trimPages dst madvise).entries i = .zero := by
  simp only [trimPages]
  split
  · exact ⟨rfl, fun i hi => dropPages_entries_of_lt hi, fun i hi => dropPages_entries_of_zero hi⟩
  · exact ⟨rfl, fun i _ => rfl, fun i hi => hi⟩

/-! ## What `recompact` does -/

/-- The loops compact the entries in use. -/
theorem compacted_shiftEntries (t : AtexitArray p) :
    Compacted AtexitEntry.live .zero t.entries t.size t.shiftEntries.1 t.shiftEntries.2.entries :=
  compacted_shift_skipLive AtexitEntry.live .zero t.entries t.size

/-- Protecting the pages again keeps the entries. -/
theorem closeHoles_entries (t : AtexitArray p) (o : PageOutcome) :
    (t.closeHoles o).2.entries = (t.shiftEntries.2.trimPages t.shiftEntries.1 o.madvise).entries := by
  simp only [closeHoles]
  rcases setWritable_cases (t.shiftEntries.2.trimPages t.shiftEntries.1 o.madvise) false 0
    (t.shiftEntries.2.trimPages t.shiftEntries.1 o.madvise).size o.restore with ⟨errno, h⟩ | ⟨pages, h⟩
  · rw [h]
  · rw [h]

/-- Closing the holes and rewinding the counter is the whole scrub. -/
theorem compacts_closeHoles (t : AtexitArray p) (o : PageOutcome) : t.Compacts (t.closeHoles o).2.rewind := by
  have hcompacted := t.compacted_shiftEntries
  obtain ⟨-, hfront, hblank⟩ := t.shiftEntries.2.trimPages_spec t.shiftEntries.1 o.madvise
  have hentries := t.closeHoles_entries o
  have hsize : (t.closeHoles o).2.size = t.shiftEntries.1 := rfl
  refine ⟨?_, ?_, rfl, rfl⟩
  · simp only [used, rewind, hsize, hentries]
    rw [← hcompacted.front]
    apply List.map_congr_left
    intro i hi
    exact hfront i (List.mem_range.mp hi)
  · intro i hle hlt
    simp only [rewind, hentries]
    exact hblank i (hcompacted.gap i hle hlt)

/-- Without holes every entry in use is live. -/
theorem Counted.filter_live (h : t.Counted) (hzero : t.extractedCount = 0) :
    t.used.filter AtexitEntry.live = t.used := by
  rw [Counted, hzero] at h
  rw [List.filter_eq_self]
  intro entry hentry
  have hnot := List.countP_eq_zero.mp h.symm entry hentry
  simpa using hnot

/-- Rewinding the counter is the whole scrub of an array without holes. -/
theorem Counted.compacts_rewind (h : t.Counted) (hzero : t.extractedCount = 0) : t.Compacts t.rewind where
  kept := (h.filter_live hzero).symm
  blank := by
    intro i hle hlt
    exact absurd hlt (Nat.not_lt.mpr hle)
  extracted := hzero
  appends := rfl

/-- The protection of the pages is not part of what a scrub is about. -/
theorem Compacts.of_writable {pages : Nat → Bool} (h : Compacts { t with writable := pages } u) : t.Compacts u :=
  ⟨h.kept, h.blank, h.extracted, h.appends⟩

/-- `recompact` compacts the array or leaves it as it is. -/
theorem recompact_spec (o : PageOutcome) (h : t.Counted) :
    (((t.recompact o).1 = .kDone ∨ (t.recompact o).1 = .kLeftWritable) ∧ t.Compacts (t.recompact o).2.2) ∨
      (((t.recompact o).1 = .kNothingToScrub ∨ (t.recompact o).1 = .kNotWritable) ∧
        (t.recompact o).2.2 = t) := by
  rw [recompact]
  split
  · exact .inr ⟨.inl rfl, rfl⟩
  · split
    · -- the holes are closed if the pages can be opened
      rcases t.setWritable_cases true 0 t.size o.makeWritable with ⟨errno, hopen⟩ | ⟨pages, hopen⟩
      · rw [hopen]
        exact .inr ⟨.inr rfl, rfl⟩
      · rw [hopen]
        dsimp only
        have hcompacts := compacts_closeHoles { t with writable := pages } o
        generalize closeHoles { t with writable := pages } o = closed at hcompacts
        obtain ⟨restored, v⟩ := closed
        cases restored with
        | none => exact .inl ⟨.inl rfl, hcompacts.of_writable⟩
        | some errno => exact .inl ⟨.inr rfl, hcompacts.of_writable⟩
    · rename_i hcount
      exact .inl ⟨.inl rfl, h.compacts_rewind (Nat.eq_zero_of_not_pos hcount)⟩

/-- A compacted array has nothing left to scrub. -/
theorem Compacts.hasFingerprint (h : t.Compacts u) : u.hasFingerprint = false := by
  simp [AtexitArray.hasFingerprint, h.extracted, h.appends]

theorem Compacts.recompact (h : t.Compacts u) (o : PageOutcome) : (u.recompact o).1 = .kNothingToScrub := by
  rw [AtexitArray.recompact, h.hasFingerprint]
  rfl

/-- A compacted array is not longer. -/
theorem Compacts.size_le (h : t.Compacts u) : u.size ≤ t.size := by
  have hlength := congrArg List.length h.kept
  have hfilter := List.length_filter_le AtexitEntry.live t.used
  simp only [used, List.length_map, List.length_range] at hlength hfilter
  omega

end AtexitArray

/-! ## Compaction or nothing -/

/-- An attempt takes the lock. -/
theorem tryLock_iff (trylock : Nat → Bool) (n attempt : Nat) :
    tryLock trylock n attempt = true ↔ ∃ k, k < n ∧ trylock (attempt + k) = true := by
  induction n generalizing attempt with
  | zero => simp [tryLock]
  | succ n ih =>
      rw [tryLock]
      split
      · rename_i htook
        exact iff_of_true rfl ⟨0, Nat.succ_pos n, htook⟩
      · rename_i htook
        rw [ih]
        constructor
        · rintro ⟨k, hk, htrylock⟩
          exact ⟨k + 1, by omega, by rwa [Nat.add_right_comm, Nat.add_assoc] at htrylock⟩
        · rintro ⟨k, hk, htrylock⟩
          cases k with
          | zero => exact absurd htrylock htook
          | succ k => exact ⟨k, by omega, by rwa [Nat.add_right_comm, Nat.add_assoc]⟩

/-- A scrub finds the array and the lock. -/
def Finds (libc : Symbols) (t : AtexitArray p) : Prop :=
  libc.valid = true ∧ findArray libc t = true ∧ findLock libc = true

/-- A smaller array is found where the array was found. -/
theorem Finds.of_le {libc : Symbols} {t u : AtexitArray p} (h : Finds libc t) (hle : u.size ≤ t.size) :
    Finds libc u := by
  obtain ⟨hvalid, harray, hlock⟩ := h
  refine ⟨hvalid, ?_, hlock⟩
  rw [findArray] at harray ⊢
  split at harray
  · rename_i hsymbol
    rw [if_pos hsymbol]
    have hsize := of_decide_eq_true harray
    exact decide_eq_true (by omega)
  · cases harray

/-- Under the lock a scrub is `recompact`. -/
theorem scrubFingerprint_eq {o : Outcome} {s : Libc p} (hfinds : Finds o.libc s.g_array)
    (htook : tryLock o.trylock kLockAttempts 0 = true) :
    scrubFingerprint o s = ((s.g_array.recompact o.pages).1, ⟨(s.g_array.recompact o.pages).2.2, false⟩) := by
  obtain ⟨hvalid, harray, hlock⟩ := hfinds
  simp only [scrubFingerprint, hvalid, harray, hlock, htook, Bool.not_true, Bool.false_eq_true, ↓reduceIte]

/-- A scrub comes to `recompact` under the lock, or stops before with nothing changed. -/
theorem scrubFingerprint_cases (o : Outcome) (s : Libc p) :
    (Finds o.libc s.g_array ∧ tryLock o.trylock kLockAttempts 0 = true) ∨
      (((scrubFingerprint o s).1 = .kNoArray ∨ (scrubFingerprint o s).1 = .kNoLock ∨
          (scrubFingerprint o s).1 = .kLockBusy) ∧ (scrubFingerprint o s).2 = s) := by
  rw [scrubFingerprint]
  split
  · exact .inr ⟨.inl rfl, rfl⟩
  · rename_i hvalid
    split
    · exact .inr ⟨.inl rfl, rfl⟩
    · rename_i harray
      split
      · exact .inr ⟨.inr (.inl rfl), rfl⟩
      · rename_i hlock
        split
        · exact .inr ⟨.inr (.inr rfl), rfl⟩
        · rename_i htook
          simp only [Bool.not_eq_true, Bool.not_eq_false'] at hvalid harray hlock htook
          exact .inl ⟨⟨hvalid, harray, hlock⟩, htook⟩

/-- A scrub compacts the array, after which one that takes the lock finds nothing to do, or it changes nothing;
either way the lock is free afterwards. -/
theorem scrubFingerprint_lossless (o : Outcome) (s : Libc p) (hcounted : s.g_array.Counted)
    (hunlocked : s.locked = false) :
    ((scrubFingerprint o s).1 = .kDone ∨ (scrubFingerprint o s).1 = .kLeftWritable →
        s.g_array.Compacts (scrubFingerprint o s).2.g_array ∧
          ∀ o' : Outcome, o'.libc = o.libc → (∃ k, k < kLockAttempts ∧ o'.trylock k = true) →
            (scrubFingerprint o' (scrubFingerprint o s).2).1 = .kNothingToScrub) ∧
      ((scrubFingerprint o s).1 ≠ .kDone → (scrubFingerprint o s).1 ≠ .kLeftWritable →
        (scrubFingerprint o s).2.g_array = s.g_array) ∧
      (scrubFingerprint o s).2.locked = false := by
  rcases scrubFingerprint_cases o s with ⟨hfinds, htook⟩ | ⟨hstatus, hsame⟩
  · rw [scrubFingerprint_eq hfinds htook]
    rcases s.g_array.recompact_spec o.pages hcounted with ⟨hstatus, hcompacts⟩ | ⟨hstatus, hsame⟩
    · refine ⟨?_, ?_, rfl⟩
      · intro _
        refine ⟨hcompacts, ?_⟩
        rintro o' hlibc ⟨k, hk, htrylock⟩
        have hfinds' : Finds o'.libc (s.g_array.recompact o.pages).2.2 := by
          rw [hlibc]
          exact hfinds.of_le hcompacts.size_le
        have htook' : tryLock o'.trylock kLockAttempts 0 = true := by
          rw [tryLock_iff]
          exact ⟨k, hk, by rwa [Nat.zero_add]⟩
        rw [scrubFingerprint_eq hfinds' htook']
        exact hcompacts.recompact o'.pages
      · intro hdone hleft
        exact absurd hstatus (not_or.mpr ⟨hdone, hleft⟩)
    · refine ⟨?_, fun _ _ => hsame, rfl⟩
      intro hdone
      rcases hstatus with hstatus | hstatus <;> simp [hstatus] at hdone
  · refine ⟨?_, fun _ _ => by rw [hsame], by rw [hsame, hunlocked]⟩
    intro hdone
    rcases hstatus with hstatus | hstatus | hstatus <;> simp [hstatus] at hdone

/-! ## An array with a hole -/

/-- Three handlers were registered and the second was removed. -/
def oneHole : Libc ⟨.lp64, 12⟩ where
  g_array :=
    { mapped := true
      entries := fun idx =>
        if idx = 0 then ⟨0x7000, 1, 0x9000⟩ else if idx = 2 then ⟨0x7100, 2, 0x9000⟩ else .zero
      size := 3
      extractedCount := 1
      totalAppends := 3
      writable := fun _ => false }
  locked := false

/-- The lock is free at the third attempt, and the pages can be opened but not closed. -/
def leftOpen : Outcome where
  libc :=
    { valid := true
      findDirectSymbol := fun name => name = "_ZL7g_array" ∨ name = "_ZL13g_atexit_lock"
      findSymbolNameByPrefix := fun _ => "" }
  trylock := fun attempt => attempt = 2
  pages := { makeWritable := none, madvise := true, restore := some 12 }

/-- The hole is closed although the pages stay open. -/
theorem scrubFingerprint_leftOpen :
    (scrubFingerprint leftOpen oneHole).1 = .kLeftWritable ∧
      oneHole.g_array.Compacts (scrubFingerprint leftOpen oneHole).2.g_array := by
  have hstatus : (scrubFingerprint leftOpen oneHole).1 = .kLeftWritable := by decide
  have hcounted : oneHole.g_array.Counted := by
    show 1 = _
    decide
  obtain ⟨hscrubbed, -⟩ := scrubFingerprint_lossless leftOpen oneHole hcounted rfl
  exact ⟨hstatus, (hscrubbed (.inr hstatus)).1⟩

end NeoZygisk.Injector.Atexit
