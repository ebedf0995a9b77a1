import NeoZygisk.Injector.Atexit
import NeoZygisk.Lib.Mask

/-!
# The pages of the exit handlers

`recompact` computes in `size_t` which pages it opens, drops and closes. Entries do not end where pages end, so the
last entry that stays may share its page with the first that goes.

The calls and stores are a list. Done one after the other they are what `recompact` does to the entries
(`foldl_perform`). `recompactActs_paged` says when there are any and what they cover: every byte that is written is
opened before, no byte of an entry that stays is dropped, and nothing on the way overflows for any page size.
-/

set_option autoImplicit false

namespace NeoZygisk.Injector.Atexit.Words

open NeoZygisk.Common
open NeoZygisk.Lib
open NeoZygisk.Lib.Compaction

/-! ## Sizes as words -/

section Sizes

variable (p : Platform)

/-- `page_size()`. -/
def pageSize : p.model.Word := BitVec.ofNat _ (2 ^ p.pageBits)

/-- `sizeof(AtexitEntry)`. -/
def sizeofEntry : p.model.Word := BitVec.ofNat _ p.sizeofEntry

def pageStart (x : p.model.Word) : p.model.Word := x &&& ~~~(pageSize p - 1)

def pageEnd (x : p.model.Word) : p.model.Word := pageStart p (x + pageSize p - 1)

def pageStartOfIndex (idx : p.model.Word) : p.model.Word := pageStart p (idx * sizeofEntry p)

def pageEndOfIndex (idx : p.model.Word) : p.model.Word := pageEnd p (idx * sizeofEntry p)

end Sizes

/-! ## The calls -/

/-- A call of `recompact`, or a store to an entry. -/
inductive Act (p : Platform) where
  | mprotect (addr : Nat) (len : p.model.Word) (writable : Bool)
  | store (idx : Nat) (entry : AtexitEntry p)
  | madvise (addr : Nat) (len : p.model.Word)

variable {p : Platform}

/-- `set_writable`, for an array at `array`. -/
def setWritableActs (t : AtexitArray p) (array : Nat) (writable : Bool) (startIdx numEntries : p.model.Word) :
    List (Act p) :=
  if t.mapped = false then []
  else
    let startByte := pageStartOfIndex p startIdx
    let stopByte := pageEndOfIndex p (startIdx + numEntries)
    [.mprotect (array + startByte.toNat) (stopByte - startByte) writable]

/-- What the loops of `recompact` store. -/
def storeActs (t : AtexitArray p) : List (Act p) :=
  let src := skipLive AtexitEntry.live t.entries t.size 0
  (stores AtexitEntry.live .zero (t.size - src) src src t.entries).map fun store => .store store.1 store.2

/-- The pages at the end that `recompact` drops if `dst` entries stay. -/
def trimActs (t : AtexitArray p) (array dst : Nat) : List (Act p) :=
  let oldBytes := pageEndOfIndex p (BitVec.ofNat _ t.size)
  let newBytes := pageEndOfIndex p (BitVec.ofNat _ dst)
  if newBytes < oldBytes then [.madvise (array + newBytes.toNat) (oldBytes - newBytes)] else []

/-- `recompact`, for an array at `array`. -/
def recompactActs (t : AtexitArray p) (array : Nat) (o : PageOutcome) : List (Act p) :=
  if !t.hasFingerprint then []
  else if t.extractedCount > 0 then
    let opened := setWritableActs t array true 0 (BitVec.ofNat _ t.size)
    match (t.setWritable true 0 t.size o.makeWritable).1 with
    | some _ => opened
    | none =>
        opened ++ storeActs t ++ trimActs t array t.shiftEntries.1 ++
          setWritableActs t array false 0 (BitVec.ofNat _ t.size)
  else []

/-- The entries after a call or a store. `madvise` says whether dropped words read as zero afterwards. -/
def perform (array : Nat) (madvise : Bool) (entries : Nat → AtexitEntry p) : Act p → Nat → AtexitEntry p
  | .mprotect _ _ _ => entries
  | .store idx entry => Function.update entries idx entry
  | .madvise addr len =>
      let word (idx field : Nat) (value : p.model.Word) : p.model.Word :=
        let byte := array + (3 * idx + field) * p.model.wordSize
        if madvise = true ∧ addr ≤ byte ∧ byte < addr + len.toNat then 0 else value
      fun idx =>
        let entry := entries idx
        ⟨word idx 0 entry.fn, word idx 1 entry.arg, word idx 2 entry.dso⟩

/-! ## What the calls are to cover -/

/-- The byte lies in `len` bytes from `addr` on. -/
def Covers (addr : Nat) (len : p.model.Word) (b : Nat) : Prop := addr ≤ b ∧ b < addr + len.toNat

/-- The byte belongs to an entry. -/
def InEntry (p : Platform) (array idx b : Nat) : Prop :=
  array + idx * p.sizeofEntry ≤ b ∧ b < array + (idx + 1) * p.sizeofEntry

/-- What may be done in an open range when `survivors` entries stay. -/
def Allowed (array survivors addr : Nat) (len : p.model.Word) : Act p → Prop
  | .mprotect _ _ _ => False
  | .store idx _ => ∀ b, InEntry p array idx b → Covers addr len b
  | .madvise start size =>
      p.pageSize ∣ start ∧ p.pageSize ∣ size.toNat ∧ (∀ b, Covers start size b → Covers addr len b) ∧
        ∀ idx b, idx < survivors → InEntry p array idx b → ¬ Covers start size b

/-- The entry is stored to, or a byte of it is dropped. -/
def Touches (array idx : Nat) : Act p → Prop
  | .mprotect _ _ _ => False
  | .store i _ => i = idx
  | .madvise addr len => ∃ b, InEntry p array idx b ∧ Covers addr len b

/-- The number of entries that stay. -/
def survivors (t : AtexitArray p) : Nat := t.used.countP AtexitEntry.live

/-- There are holes to close in an array that is there. -/
def HasHoles (t : AtexitArray p) : Prop := t.hasFingerprint = true ∧ 0 < t.extractedCount ∧ t.mapped = true

/-- If there are holes a range is opened, and if that succeeds the same range is closed, with only what is allowed
between. -/
inductive Paged (t : AtexitArray p) (array : Nat) (o : PageOutcome) : List (Act p) → Prop where
  | nothing (holes : ¬ HasHoles t) : Paged t array o []
  | failed (holes : HasHoles t) (errno : Errno) (fails : o.makeWritable = some errno) (addr : Nat)
      (len : p.model.Word) : Paged t array o [.mprotect addr len true]
  | complete (holes : HasHoles t) (opens : o.makeWritable = none) (addr : Nat) (len : p.model.Word)
      (between : List (Act p)) (allowed : ∀ act ∈ between, Allowed array (survivors t) addr len act) :
      Paged t array o (.mprotect addr len true :: between ++ [.mprotect addr len false])

/-- Every size on the way from an index to the end of its pages is what it is without a bound on words. -/
structure NoOverflow (p : Platform) (idx : Nat) : Prop where
  index : (BitVec.ofNat _ idx : p.model.Word).toNat = idx
  bytes : (BitVec.ofNat _ idx * sizeofEntry p).toNat = idx * p.sizeofEntry
  sum : (BitVec.ofNat _ idx * sizeofEntry p + pageSize p).toNat = idx * p.sizeofEntry + p.pageSize
  last : (BitVec.ofNat _ idx * sizeofEntry p + pageSize p - 1).toNat = idx * p.sizeofEntry + p.pageSize - 1
  stop : (pageEndOfIndex p (BitVec.ofNat _ idx)).toNat = Atexit.pageEndOfIndex p idx

/-! ## Nothing overflows -/

theorem sizeofEntry_le (p : Platform) : p.sizeofEntry ≤ 24 := by
  rw [Platform.sizeofEntry]
  cases p.model with
  | lp32 => decide
  | lp64 => decide

theorem le_bits (m : DataModel) : 32 ≤ 8 * m.wordSize := by
  cases m with
  | lp32 => decide
  | lp64 => decide

/-- The bytes of the longest array and a page fit into a word. -/
theorem bytes_add_pageSize_lt {idx : Nat} (hidx : idx < 65536) (hpage : p.pageBits < 8 * p.model.wordSize) :
    idx * p.sizeofEntry + p.pageSize < 2 ^ (8 * p.model.wordSize) := by
  obtain ⟨n, hn⟩ := Nat.exists_eq_add_of_le (le_bits p.model)
  -- half of the smaller word holds the bytes, and half of any word a page
  have hbytes : idx * p.sizeofEntry < 2 ^ 31 := by
    have := Nat.mul_le_mul (Nat.le_of_lt_succ hidx) (sizeofEntry_le p)
    omega
  have hhalf : (2 : Nat) ^ 31 ≤ 2 ^ (31 + n) := Nat.pow_le_pow_right (by omega) (by omega)
  have hsize : p.pageSize ≤ 2 ^ (31 + n) := Nat.pow_le_pow_right (by omega) (by omega)
  have hword : (2 : Nat) ^ (8 * p.model.wordSize) = 2 ^ (31 + n) + 2 ^ (31 + n) := by
    rw [hn, show 32 + n = 31 + n + 1 by omega, Nat.pow_succ]
    omega
  omega

theorem toNat_pageSize (hpage : p.pageBits < 8 * p.model.wordSize) : (pageSize p).toNat = p.pageSize := by
  rw [pageSize, BitVec.toNat_ofNat]
  exact Nat.mod_eq_of_lt (Nat.pow_lt_pow_right (by omega) hpage)

/-- One less than a word that is not zero. -/
theorem toNat_sub_one {w : Nat} {x : BitVec w} (hw : 0 < w) (h : 0 < x.toNat) : (x - 1).toNat = x.toNat - 1 := by
  have hone : (1 : BitVec w).toNat = 1 := by
    show (BitVec.ofNat w 1).toNat = 1
    rw [BitVec.toNat_ofNat]
    exact Nat.mod_eq_of_lt (Nat.one_lt_two_pow (by omega))
  rw [BitVec.toNat_sub_of_le, hone]
  rw [BitVec.le_def, hone]
  exact h

/-- `page_start` rounds down. -/
theorem toNat_pageStart (hpage : p.pageBits < 8 * p.model.wordSize) (x : p.model.Word) :
    (pageStart p x).toNat = Atexit.pageStart p x.toNat := by
  have hpos : 0 < p.pageSize := Nat.two_pow_pos p.pageBits
  have hmask : pageSize p - 1 = BitVec.ofNat _ (2 ^ p.pageBits - 1) := by
    apply BitVec.eq_of_toNat_eq
    have hsize := toNat_pageSize hpage
    have hlt := (pageSize p).isLt
    rw [toNat_sub_one (by omega) (by omega), hsize, BitVec.toNat_ofNat, Nat.mod_eq_of_lt]
    · rfl
    · rw [hsize] at hlt
      exact Nat.lt_of_le_of_lt (Nat.sub_le _ _) hlt
  have hdiv := Nat.div_add_mod' x.toNat (2 ^ p.pageBits)
  rw [pageStart, hmask, Mask.toNat_alignDown x p.pageBits (Nat.le_of_lt hpage), Atexit.pageStart, Platform.pageSize]
  omega

/-- No size on the way overflows. -/
theorem noOverflow {idx : Nat} (hidx : idx < 65536) (hpage : p.pageBits < 8 * p.model.wordSize) :
    NoOverflow p idx := by
  have hpos : 0 < p.pageSize := Nat.two_pow_pos p.pageBits
  have hfit := bytes_add_pageSize_lt hidx hpage
  have hbits := le_bits p.model
  have hword : 2 ^ 16 ≤ 2 ^ (8 * p.model.wordSize) := Nat.pow_le_pow_right (by omega) (by omega)
  have hentry : (sizeofEntry p).toNat = p.sizeofEntry := by
    rw [sizeofEntry, BitVec.toNat_ofNat]
    exact Nat.mod_eq_of_lt (by have := sizeofEntry_le p; omega)
  have hindex : (BitVec.ofNat _ idx : p.model.Word).toNat = idx := by
    rw [BitVec.toNat_ofNat]
    exact Nat.mod_eq_of_lt (by omega)
  have hbytes : (BitVec.ofNat _ idx * sizeofEntry p).toNat = idx * p.sizeofEntry := by
    rw [BitVec.toNat_mul, hindex, hentry]
    exact Nat.mod_eq_of_lt (by omega)
  have hsum : (BitVec.ofNat _ idx * sizeofEntry p + pageSize p).toNat = idx * p.sizeofEntry + p.pageSize := by
    rw [BitVec.toNat_add, hbytes, toNat_pageSize hpage]
    exact Nat.mod_eq_of_lt hfit
  have hlast : (BitVec.ofNat _ idx * sizeofEntry p + pageSize p - 1).toNat =
      idx * p.sizeofEntry + p.pageSize - 1 := by
    rw [toNat_sub_one (by omega) (by omega), hsum]
  refine ⟨hindex, hbytes, hsum, hlast, ?_⟩
  rw [pageEndOfIndex, pageEnd, toNat_pageStart hpage, hlast]
  rfl

/-! ## What the calls cover -/

theorem pageSize_dvd_pageEndOfIndex (p : Platform) (idx : Nat) : p.pageSize ∣ Atexit.pageEndOfIndex p idx :=
  Nat.dvd_mul_left _ _

/-- An entry ends before the pages of the array do. -/
theorem lt_pageEndOfIndex {array idx size b : Nat} (hidx : idx < size) (hb : InEntry p array idx b) :
    b < array + Atexit.pageEndOfIndex p size := by
  have hentries : (idx + 1) * p.sizeofEntry ≤ size * p.sizeofEntry := Nat.mul_le_mul_right _ hidx
  have hend := le_pageEnd p (size * p.sizeofEntry)
  have hlt := hb.2
  rw [Atexit.pageEndOfIndex]
  omega

/-- Every store is to an entry of the array. -/
theorem lt_of_mem_storeActs {t : AtexitArray p} {act : Act p} (h : act ∈ storeActs t) :
    ∃ idx entry, act = .store idx entry ∧ idx < t.size := by
  obtain ⟨⟨idx, entry⟩, hstore, rfl⟩ := List.mem_map.mp h
  have hlt := lt_of_mem_stores (Nat.le_refl _) hstore
  have hskip := skipLive_le AtexitEntry.live t.entries t.size 0
  exact ⟨idx, entry, rfl, by omega⟩

/-- The whole array is opened and closed. -/
theorem setWritableActs_eq {t : AtexitArray p} (hmapped : t.mapped = true) (array : Nat) (writable : Bool) :
    setWritableActs t array writable 0 (BitVec.ofNat _ t.size) =
      [.mprotect array (pageEndOfIndex p (BitVec.ofNat _ t.size)) writable] := by
  have hstart : pageStartOfIndex p 0#_ = 0#_ := by
    rw [pageStartOfIndex, pageStart, BitVec.zero_mul, BitVec.zero_and]
  show setWritableActs t array writable 0#_ (BitVec.ofNat _ t.size) = _
  rw [setWritableActs, if_neg (by rw [hmapped]; exact Bool.noConfusion), hstart]
  dsimp only
  rw [BitVec.zero_add, BitVec.sub_zero, BitVec.toNat_zero, Nat.add_zero]

/-- Stores are to opened bytes. -/
theorem allowed_storeActs {t : AtexitArray p} {array dst : Nat} (hsize : NoOverflow p t.size) {act : Act p}
    (h : act ∈ storeActs t) : Allowed array dst array (pageEndOfIndex p (BitVec.ofNat _ t.size)) act := by
  obtain ⟨idx, entry, rfl, hidx⟩ := lt_of_mem_storeActs h
  intro b hb
  constructor
  · exact Nat.le_trans (Nat.le_add_right _ _) hb.1
  · rw [hsize.stop]
    exact lt_pageEndOfIndex hidx hb

/-- The pages that are dropped are whole pages behind the entries that stay. -/
theorem allowed_trimActs {t : AtexitArray p} {array dst : Nat} (hsize : NoOverflow p t.size)
    (hdst : NoOverflow p dst) (harray : p.pageSize ∣ array) {act : Act p} (h : act ∈ trimActs t array dst) :
    Allowed array dst array (pageEndOfIndex p (BitVec.ofNat _ t.size)) act := by
  rw [trimActs] at h
  split at h
  · rename_i hlt
    obtain rfl := List.mem_singleton.mp h
    have hlen := BitVec.toNat_sub_of_le (BitVec.le_of_lt hlt)
    rw [BitVec.lt_def] at hlt
    rw [hsize.stop, hdst.stop] at hlen hlt
    have hold := pageSize_dvd_pageEndOfIndex p t.size
    have hnew := pageSize_dvd_pageEndOfIndex p dst
    refine ⟨?_, ?_, ?_, ?_⟩
    · rw [hdst.stop]
      exact Nat.dvd_add harray hnew
    · rw [hlen]
      exact Nat.dvd_sub hold hnew
    · -- the dropped pages end where the pages of the array do
      rintro b ⟨hle, hb⟩
      rw [hlen, hdst.stop] at hb
      rw [hdst.stop] at hle
      constructor
      · omega
      · rw [hsize.stop]
        omega
    · -- and start where those of the entries that stay end
      rintro idx b hidx hb ⟨hle, -⟩
      have := lt_pageEndOfIndex hidx hb
      rw [hdst.stop] at hle
      omega
  · cases h

/-! ## What the calls do -/

/-- The loops keep as many entries as are live. -/
theorem shiftEntries_fst (t : AtexitArray p) : t.shiftEntries.1 = survivors t := by
  have hlength := congrArg List.length t.compacted_shiftEntries.front
  rw [List.length_map, List.length_range] at hlength
  rw [hlength, survivors, List.countP_eq_length_filter]
  rfl

theorem survivors_le (t : AtexitArray p) : survivors t ≤ t.size := by
  rw [← shiftEntries_fst]
  exact t.compacted_shiftEntries.le

/-- The stores are the loops. -/
theorem foldl_perform_storeActs (t : AtexitArray p) (array : Nat) (madvise : Bool) :
    (storeActs t).foldl (perform array madvise) t.entries = t.shiftEntries.2.entries := by
  rw [storeActs, List.foldl_map]
  exact foldl_stores AtexitEntry.live .zero _ _ _ t.entries

/-- The call that drops pages is `trimPages`. -/
theorem foldl_perform_trimActs {t : AtexitArray p} (dst : Nat) (hsize : NoOverflow p t.size)
    (hdst : NoOverflow p dst) (array : Nat) (madvise : Bool) :
    (trimActs t array dst).foldl (perform array madvise) t.entries = (t.trimPages dst madvise).entries := by
  have hlt : pageEndOfIndex p (BitVec.ofNat _ dst) < pageEndOfIndex p (BitVec.ofNat _ t.size) ↔
      Atexit.pageEndOfIndex p dst < Atexit.pageEndOfIndex p t.size := by
    rw [BitVec.lt_def, hsize.stop, hdst.stop]
  rw [trimActs, AtexitArray.trimPages]
  by_cases h : Atexit.pageEndOfIndex p dst < Atexit.pageEndOfIndex p t.size
  · have hlen := BitVec.toNat_sub_of_le (BitVec.le_of_lt (hlt.mpr h))
    rw [hsize.stop, hdst.stop] at hlen
    have hdropped : ∀ b, (madvise = true ∧ array + Atexit.pageEndOfIndex p dst ≤ array + b ∧
        array + b < array + Atexit.pageEndOfIndex p dst +
          (Atexit.pageEndOfIndex p t.size - Atexit.pageEndOfIndex p dst)) ↔
        madvise = true ∧ Atexit.pageEndOfIndex p dst ≤ b ∧ b < Atexit.pageEndOfIndex p t.size := by
      intro b
      refine and_congr_right fun _ => and_congr (Nat.add_le_add_iff_left) ?_
      rw [Nat.add_assoc, Nat.add_sub_cancel' (Nat.le_of_lt h), Nat.add_lt_add_iff_left]
    rw [if_pos (hlt.mpr h), List.foldl_cons, List.foldl_nil]
    funext idx
    simp only [perform, hdst.stop, hlen, hdropped]
    cases madvise with
    | false => simp only [Bool.false_eq_true, false_and, and_false, ↓reduceIte]
    | true =>
        simp only [h, true_and, and_self, ↓reduceIte]
        rfl
  · rw [if_neg (fun hacts => h (hlt.mp hacts)), if_neg (fun htrim => h htrim.1)]
    rfl

/-- The words of an entry are bytes of it. -/
theorem inEntry_word (array idx : Nat) {field : Nat} (hfield : field < 3) :
    InEntry p array idx (array + (3 * idx + field) * p.model.wordSize) := by
  have hword : 0 < p.model.wordSize := by
    cases p.model <;> decide
  have hstart : idx * p.sizeofEntry = 3 * idx * p.model.wordSize := by
    rw [Platform.sizeofEntry, Nat.mul_left_comm, Nat.mul_assoc]
  have hstop : (idx + 1) * p.sizeofEntry = (3 * idx + 3) * p.model.wordSize := by
    rw [Platform.sizeofEntry, Nat.mul_left_comm, ← Nat.mul_assoc, Nat.mul_add, Nat.mul_one]
  constructor
  · rw [hstart]
    exact Nat.add_le_add_left (Nat.mul_le_mul_right _ (Nat.le_add_right _ _)) _
  · rw [hstop]
    exact Nat.add_lt_add_left (Nat.mul_lt_mul_of_pos_right (Nat.add_lt_add_left hfield _) hword) _

/-- An entry that an act does not touch stays. -/
theorem perform_of_not_touches {array idx : Nat} (madvise : Bool) (entries : Nat → AtexitEntry p) {act : Act p}
    (h : ¬ Touches array idx act) : perform array madvise entries act idx = entries idx := by
  cases act with
  | mprotect addr len writable => rfl
  | store i entry => exact Function.update_of_ne (fun heq => h heq.symm) _ _
  | madvise addr len =>
      have hword : ∀ field, field < 3 →
          ¬ (madvise = true ∧ addr ≤ array + (3 * idx + field) * p.model.wordSize ∧
            array + (3 * idx + field) * p.model.wordSize < addr + len.toNat) := by
        rintro field hfield ⟨-, hcovers⟩
        exact h ⟨_, inEntry_word array idx hfield, hcovers⟩
      simp only [perform]
      rw [if_neg (hword 0 (by omega)), if_neg (hword 1 (by omega)), if_neg (hword 2 (by omega))]

/-- What the acts change is touched by one of them. -/
theorem exists_touches_of_ne {array idx : Nat} {madvise : Bool} {acts : List (Act p)} {entries : Nat → AtexitEntry p}
    (h : acts.foldl (perform array madvise) entries idx ≠ entries idx) : ∃ act ∈ acts, Touches array idx act := by
  induction acts generalizing entries with
  | nil => exact absurd rfl h
  | cons act acts ih =>
      by_cases hact : Touches array idx act
      · exact ⟨act, List.mem_cons_self, hact⟩
      · rw [List.foldl_cons, ← perform_of_not_touches madvise entries hact] at h
        obtain ⟨later, hlater, htouches⟩ := ih h
        exact ⟨later, List.mem_cons_of_mem _ hlater, htouches⟩

/-- Changes of the protection keep the entries. -/
theorem foldl_perform_setWritableActs (t : AtexitArray p) (array : Nat) (madvise writable : Bool)
    (startIdx numEntries : p.model.Word) (entries : Nat → AtexitEntry p) :
    (setWritableActs t array writable startIdx numEntries).foldl (perform array madvise) entries = entries := by
  rw [setWritableActs]
  split
  · rfl
  · rfl

/-- Done one after the other, the calls and stores are what `recompact` does to the entries. -/
theorem foldl_perform (t : AtexitArray p) (array : Nat) (o : PageOutcome) (hsize : NoOverflow p t.size)
    (hdst : NoOverflow p (survivors t)) :
    (recompactActs t array o).foldl (perform array o.madvise) t.entries = (t.recompact o).2.2.entries := by
  rw [recompactActs, AtexitArray.recompact]
  split
  · rfl
  · split
    · rcases t.setWritable_cases true 0 t.size o.makeWritable with ⟨errno, hopen⟩ | ⟨pages, hopen⟩
      · rw [hopen]
        exact foldl_perform_setWritableActs _ _ _ _ _ _ _
      · rw [hopen]
        dsimp only
        have hclosed := AtexitArray.closeHoles_entries { t with writable := pages } o
        have hsurvivors := shiftEntries_fst { t with writable := pages }
        have htrim := foldl_perform_trimActs (t := (AtexitArray.shiftEntries { t with writable := pages }).2)
          (survivors t) hsize hdst array o.madvise
        rw [hsurvivors] at hclosed
        rw [List.foldl_append, List.foldl_append, List.foldl_append, foldl_perform_setWritableActs,
          foldl_perform_setWritableActs, foldl_perform_storeActs, shiftEntries_fst]
        refine htrim.trans (hclosed.symm.trans ?_)
        cases AtexitArray.closeHoles { t with writable := pages } o with
        | mk restored v => cases restored <;> rfl
    · rfl

/-- The calls are those that the holes ask for. -/
theorem paged_recompactActs {t : AtexitArray p} (array : Nat) (o : PageOutcome) (hsize : NoOverflow p t.size)
    (hdst : NoOverflow p (survivors t)) (harray : p.pageSize ∣ array) :
    Paged t array o (recompactActs t array o) := by
  rw [recompactActs]
  split
  · rename_i hnone
    refine .nothing ?_
    rintro ⟨hfingerprint, -, -⟩
    simp only [hfingerprint, Bool.not_true, Bool.false_eq_true] at hnone
  · rename_i hfingerprint
    split
    · rename_i hcount
      cases hmapped : t.mapped with
      | false =>
          -- without an array `set_writable` fails before any call
          have hfails : (t.setWritable true 0 t.size o.makeWritable).1 = some EFAULT := by
            simp only [AtexitArray.setWritable, hmapped, ↓reduceIte]
          rw [setWritableActs, if_pos hmapped, hfails]
          refine .nothing ?_
          rintro ⟨-, -, hthere⟩
          exact Bool.noConfusion (hmapped.symm.trans hthere)
      | true =>
          have hholes : HasHoles t := by
            refine ⟨?_, hcount, hmapped⟩
            simpa only [Bool.not_eq_true, Bool.not_eq_false'] using hfingerprint
          rw [setWritableActs_eq hmapped, setWritableActs_eq hmapped]
          have hopened : (t.setWritable true 0 t.size o.makeWritable).1 = o.makeWritable := by
            simp only [AtexitArray.setWritable, hmapped, Bool.true_eq_false, ↓reduceIte]
            cases o.makeWritable <;> rfl
          rw [hopened]
          cases hopen : o.makeWritable with
          | some errno => exact .failed hholes errno hopen _ _
          | none =>
              have hbetween : ∀ act ∈ storeActs t ++ trimActs t array (survivors t),
                  Allowed array (survivors t) array (pageEndOfIndex p (BitVec.ofNat _ t.size)) act := by
                intro act hact
                rcases List.mem_append.mp hact with hstore | htrim
                · exact allowed_storeActs hsize hstore
                · exact allowed_trimActs hsize hdst harray htrim
              dsimp only
              rw [shiftEntries_fst, List.append_assoc [_] (storeActs t)]
              exact .complete hholes hopen array _ _ hbetween
    · rename_i hcount
      refine .nothing ?_
      rintro ⟨-, hpos, -⟩
      exact hcount hpos

/-- `recompact` opens all pages it writes to, closes the same pages, and drops none that an entry that stays lies
in. These calls and stores are what it does to the entries, so that what it changes is stored to or dropped. No size
on the way overflows. -/
theorem recompactActs_paged (t : AtexitArray p) (array : Nat) (o : PageOutcome) (hsize : t.size < 65536)
    (hpage : p.pageBits < 8 * p.model.wordSize) (harray : p.pageSize ∣ array) :
    Paged t array o (recompactActs t array o) ∧
      (recompactActs t array o).foldl (perform array o.madvise) t.entries = (t.recompact o).2.2.entries ∧
      (∀ idx, (t.recompact o).2.2.entries idx ≠ t.entries idx →
        ∃ act ∈ recompactActs t array o, Touches array idx act) ∧
      NoOverflow p t.size ∧ NoOverflow p (survivors t) := by
  have hold : NoOverflow p t.size := noOverflow hsize hpage
  have hnew : NoOverflow p (survivors t) := noOverflow (Nat.lt_of_le_of_lt (survivors_le t) hsize) hpage
  have hperform := foldl_perform t array o hold hnew
  refine ⟨paged_recompactActs array o hold hnew harray, hperform, ?_, hold, hnew⟩
  intro idx hchanged
  rw [← hperform] at hchanged
  exact exists_touches_of_ne hchanged

/-- Three handlers in pages of 4096 bytes, one of them removed: the hole is stored to between the calls. -/
theorem recompactActs_oneHole :
    ∃ (addr : Nat) (len : (DataModel.lp64).Word) (between : List (Act ⟨.lp64, 12⟩)),
      recompactActs oneHole.g_array 0x7f0000000000 leftOpen.pages =
          .mprotect addr len true :: between ++ [.mprotect addr len false] ∧
        (∀ act ∈ between, Allowed 0x7f0000000000 2 addr len act) ∧
        (∃ act ∈ between, Touches 0x7f0000000000 2 act) ∧ NoOverflow ⟨.lp64, 12⟩ 3 := by
  obtain ⟨hpaged, -, hchanged, hsize, -⟩ :=
    recompactActs_paged oneHole.g_array 0x7f0000000000 leftOpen.pages (by decide) (by decide) (by decide)
  have htouched := hchanged 2 (by decide)
  generalize recompactActs oneHole.g_array 0x7f0000000000 leftOpen.pages = acts at hpaged htouched
  cases hpaged with
  | nothing holes => exact absurd ⟨by decide, by decide, by decide⟩ holes
  | failed _ _ fails => cases fails
  | complete _ _ addr len between allowed =>
      have hsurvivors : survivors oneHole.g_array = 2 := by decide
      rw [hsurvivors] at allowed
      refine ⟨addr, len, between, rfl, allowed, ?_, hsize⟩
      obtain ⟨act, hact, htouches⟩ := htouched
      rcases List.mem_append.mp hact with hact | hact
      · rcases List.mem_cons.mp hact with rfl | hact
        · exact htouches.elim
        · exact ⟨act, hact, htouches⟩
      · rw [List.mem_singleton.mp hact] at htouches
        exact htouches.elim

end NeoZygisk.Injector.Atexit.Words
