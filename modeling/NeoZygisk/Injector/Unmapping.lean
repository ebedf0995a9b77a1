import NeoZygisk.Lib.Intervals
import NeoZygisk.Ptracer.Injection

/-!
# Unmapping the library

The tracer hands the library the start of its first mapping and the sum of its mappings. `hook_entry` takes the
linker's reservation instead where it begins at the same address and is larger, and the hook of
`pthread_attr_setstacksize` unmaps the range in the end.

A sum says where the library ends only if its mappings stand close together. `unmap_iff` says when nothing else
is unmapped: as long as what lies above a foreign mapping of the library's is not more than what below it is
not, or, with the reservation, as long as nothing reaches over its end.
-/

set_option autoImplicit false

namespace NeoZygisk.Injector.Unmapping

open NeoZygisk.Common
open NeoZygisk.Lib.Intervals
open NeoZygisk.Ptracer

variable {abi : Abi}

/-! ## The range -/

/-- `start_addr` and `block_size` of the `HookContext`. -/
structure HookRange (abi : Abi) where
  startAddr : Word abi
  blockSize : Word abi
  deriving DecidableEq, Repr

/-- `reserved_base` and `reserved_size`, as `clean_linker_trace` reports them. -/
structure Reservation (abi : Abi) where
  base : Word abi
  size : Word abi
  deriving DecidableEq, Repr

/-- `hook_entry` takes the reservation for the size of the library. -/
def Reservation.taken (reserved : Reservation abi) (startAddr blockSize : Word abi) : Bool :=
  reserved.base == startAddr && decide (blockSize < reserved.size)

/-- `hook_entry`. -/
def hookEntry (startAddr blockSize : Word abi) (reserved : Reservation abi) : HookRange abi :=
  if reserved.taken startAddr blockSize then ⟨startAddr, reserved.size⟩ else ⟨startAddr, blockSize⟩

/-- `new_pthread_attr_setstacksize`: the arguments of `munmap` if it is called. `restored` says whether
`restore_plt_hook` leaves `should_unmap` as it is. -/
def newPthreadAttrSetstacksize (range : HookRange abi) (shouldUnmap mainThread restored : Bool) :
    Option (Word abi × Word abi) :=
  if shouldUnmap && mainThread then
    let shouldUnmap := shouldUnmap && restored
    if shouldUnmap then some (range.startAddr, range.blockSize) else none
  else none

/-! ## What is unmapped -/

/-- What the tracer finds out, of a process whose mappings ascend and lie below the end of memory. -/
structure MappedView (abi : Abi) extends View abi where
  ascending : Ascending MapInfo.start MapInfo.end_ mapAfter
  bounded : ∀ map ∈ mapAfter, map.end_ < 2 ^ (8 * abi.wordBytes)

/-- The mapping has a byte in the range. -/
def Overlaps (start size : Word abi) (map : MapInfo) : Prop :=
  map.start < start.toNat + size.toNat ∧ start.toNat < map.end_

/-- The mapping lies in the linker's reservation. -/
def Reservation.Contains (reserved : Reservation abi) (map : MapInfo) : Prop :=
  reserved.base.toNat ≤ map.start ∧ map.end_ ≤ reserved.base.toNat + reserved.size.toNat

namespace MappedView

variable (view : MappedView abi) (reserved : Reservation abi)

/-- The mapping is neither the library's nor part of its reservation. -/
def Foreign (map : MapInfo) : Prop :=
  map ∈ view.mapAfter ∧ map ∉ view.libraryMaps ∧ ¬ reserved.Contains map

/-- Whenever the hook unmaps, no foreign mapping is touched. -/
def UnmapsOwn : Prop :=
  ∀ shouldUnmap mainThread restored start size,
    newPthreadAttrSetstacksize (hookEntry view.startAddr view.blockSize reserved) shouldUnmap mainThread restored =
        some (start, size) →
      ∀ map, view.Foreign reserved map → ¬ Overlaps start size map

/-- The bytes of the library's mappings that begin above a mapping. -/
def libraryAbove (map : MapInfo) : Nat :=
  total MapInfo.start MapInfo.end_ (view.libraryMaps.filter fun piece => decide (map.start < piece.start))

/-- The bytes between the library's start and a mapping that are not the library's. -/
def gapsBelow (map : MapInfo) : Nat :=
  map.start - view.startAddr.toNat -
    total MapInfo.start MapInfo.end_ (view.libraryMaps.filter fun piece => !decide (map.start < piece.start))

/-- With the reservation, no foreign mapping reaches over its end. Without, the library has no more bytes above a
foreign mapping than there are others below it. -/
def KeepsApart : Prop :=
  if reserved.taken view.startAddr view.blockSize then
    ∀ map, view.Foreign reserved map →
      ¬ (map.start < reserved.base.toNat + reserved.size.toNat ∧
        reserved.base.toNat + reserved.size.toNat < map.end_)
  else
    ∀ map, view.Foreign reserved map → view.startAddr.toNat < map.start →
      view.libraryAbove map ≤ view.gapsBelow map

/-! ## The library's mappings -/

theorem mem_of_mem_libraryMaps {view : View abi} {map : MapInfo} (h : map ∈ view.libraryMaps) :
    map ∈ view.mapAfter := by
  rw [View.libraryMaps] at h
  split at h
  · cases h
  · exact List.mem_of_mem_filter h

theorem ascending_libraryMaps : Ascending MapInfo.start MapInfo.end_ view.libraryMaps := by
  rw [View.libraryMaps]
  split
  · exact ⟨List.Pairwise.nil, fun _ h => absurd h List.not_mem_nil⟩
  · exact view.ascending.filter _

theorem start_lt (map : MapInfo) (h : map ∈ view.mapAfter) : map.start < 2 ^ (8 * abi.wordBytes) :=
  Nat.lt_trans (view.ascending.proper map h) (view.bounded map h)

/-- The library begins with its first mapping. -/
theorem startAddr_le {piece : MapInfo} (h : piece ∈ view.libraryMaps) : view.startAddr.toNat ≤ piece.start := by
  have hascending := view.ascending_libraryMaps
  rw [View.startAddr]
  cases hmaps : view.libraryMaps with
  | nil =>
      rw [hmaps] at h
      cases h
  | cons first rest =>
      have hfirst : first ∈ view.libraryMaps := by
        rw [hmaps]
        exact List.mem_cons_self
      have hlt := view.start_lt first (mem_of_mem_libraryMaps hfirst)
      simp only [BitVec.toNat_ofNat, Nat.mod_eq_of_lt hlt]
      rw [hmaps] at h hascending
      rcases List.mem_cons.mp h with rfl | hrest
      · exact Nat.le_refl _
      · have hhead := (List.pairwise_cons.mp hascending.apart).1 piece hrest
        have hproper := hascending.proper first List.mem_cons_self
        omega

/-- The size that the tracer measures is the sum of the mappings. -/
theorem toNat_blockSize : view.blockSize.toNat = total MapInfo.start MapInfo.end_ view.libraryMaps := by
  have hsum := view.ascending_libraryMaps.add_total_le (Nat.zero_le (2 ^ (8 * abi.wordBytes) - 1))
    (fun _ _ => Nat.zero_le _) (fun piece h => by
      have := view.bounded piece (mem_of_mem_libraryMaps h)
      omega)
  have hpos := Nat.two_pow_pos (8 * abi.wordBytes)
  rw [View.blockSize, BitVec.toNat_ofNat]
  apply Nat.mod_eq_of_lt
  rw [total] at hsum
  omega

/-- A mapping that is not the library's lies below the library or above its start, if there is a library. -/
theorem end_le_or_lt {map : MapInfo} (hmap : map ∈ view.mapAfter) (hnot : map ∉ view.libraryMaps) :
    map.end_ ≤ view.startAddr.toNat ∨ view.startAddr.toNat < map.start ∨
      (view.libraryMaps = [] ∧ view.startAddr = 0) := by
  cases hmaps : view.libraryMaps with
  | nil =>
      have hzero : view.startAddr = 0 := by
        rw [View.startAddr, hmaps]
      exact .inr (.inr ⟨rfl, hzero⟩)
  | cons first rest =>
      have hfirst : first ∈ view.libraryMaps := by
        rw [hmaps]
        exact List.mem_cons_self
      have hmem := mem_of_mem_libraryMaps hfirst
      have hstart : view.startAddr.toNat = first.start := by
        simp only [View.startAddr, hmaps, BitVec.toNat_ofNat]
        exact Nat.mod_eq_of_lt (view.start_lt first hmem)
      have hproper := view.ascending.proper first hmem
      rcases view.ascending.eq_or_apart hmap hmem with rfl | hbelow | habove
      · exact absurd hfirst hnot
      · exact .inl (hstart ▸ hbelow)
      · right
        left
        omega

/-- The library's mappings up to a foreign one lie between its start and that one. -/
theorem startAddr_add_total_le {map : MapInfo} (hmap : map ∈ view.mapAfter) (hnot : map ∉ view.libraryMaps)
    (hlt : view.startAddr.toNat < map.start) :
    view.startAddr.toNat +
        total MapInfo.start MapInfo.end_ (view.libraryMaps.filter fun piece => !decide (map.start < piece.start)) ≤
      map.start := by
  refine (view.ascending_libraryMaps.filter _).add_total_le (Nat.le_of_lt hlt) ?_ ?_
  · intro piece hpiece
    exact view.startAddr_le (List.mem_of_mem_filter hpiece)
  · intro piece hpiece
    obtain ⟨hlibrary, hnotAbove⟩ := List.mem_filter.mp hpiece
    have hmem := mem_of_mem_libraryMaps hlibrary
    have hle : ¬ map.start < piece.start := by simpa using hnotAbove
    have hproper := view.ascending.proper map hmap
    rcases view.ascending.eq_or_apart hmap hmem with rfl | hbelow | habove
    · exact absurd hlibrary hnot
    · omega
    · exact habove

/-! ## When nothing else is unmapped -/

/-- The hook unmaps the range it was given, if it unmaps. -/
theorem unmapsOwn_iff :
    view.UnmapsOwn reserved ↔ ∀ map, view.Foreign reserved map →
      ¬ Overlaps (hookEntry view.startAddr view.blockSize reserved).startAddr
        (hookEntry view.startAddr view.blockSize reserved).blockSize map := by
  constructor
  · intro h map hmap
    exact h true true true _ _ rfl map hmap
  · intro h shouldUnmap mainThread restored start size hunmap map hmap
    simp only [newPthreadAttrSetstacksize] at hunmap
    split_ifs at hunmap
    obtain ⟨rfl, rfl⟩ := Prod.mk.inj (Option.some.inj hunmap)
    exact h map hmap

/-- Of a reservation at the library's start, a foreign mapping is touched if it reaches over the end. -/
theorem overlaps_reservation_iff {map : MapInfo} (hmap : view.Foreign reserved map)
    (hbase : reserved.base = view.startAddr) :
    Overlaps view.startAddr reserved.size map ↔
      map.start < reserved.base.toNat + reserved.size.toNat ∧
        reserved.base.toNat + reserved.size.toNat < map.end_ := by
  obtain ⟨hmem, hnot, hcontains⟩ := hmap
  rw [Reservation.Contains, not_and, Nat.not_le] at hcontains
  rw [Overlaps, hbase] at *
  constructor
  · rintro ⟨hstart, hend⟩
    refine ⟨hstart, hcontains ?_⟩
    rcases view.end_le_or_lt hmem hnot with hbelow | habove | ⟨-, hzero⟩
    · omega
    · exact Nat.le_of_lt habove
    · rw [hzero]
      exact Nat.zero_le _
  · rintro ⟨hstart, hend⟩
    exact ⟨hstart, by omega⟩

/-- Of the size the tracer measures, a foreign mapping is touched if the library has more bytes above it than
there are others below. -/
theorem not_overlaps_blockSize_iff {map : MapInfo} (hmap : view.Foreign reserved map) :
    ¬ Overlaps view.startAddr view.blockSize map ↔
      (view.startAddr.toNat < map.start → view.libraryAbove map ≤ view.gapsBelow map) := by
  obtain ⟨hmem, hnot, -⟩ := hmap
  have hproper := view.ascending.proper map hmem
  rw [Overlaps, view.toNat_blockSize, libraryAbove, gapsBelow,
    total_split (fun piece : MapInfo => decide (map.start < piece.start)) view.libraryMaps]
  by_cases hlt : view.startAddr.toNat < map.start
  · have hle := view.startAddr_add_total_le hmem hnot hlt
    omega
  · -- the mapping lies below the library
    refine iff_of_true ?_ (fun h => absurd h hlt)
    rintro ⟨hstart, hend⟩
    rcases view.end_le_or_lt hmem hnot with hbelow | habove | ⟨hmaps, hzero⟩
    · omega
    · exact hlt habove
    · -- an empty range at zero
      simp only [hmaps, hzero, total, List.filter_nil, List.map_nil, List.sum_nil] at hstart
      exact absurd hstart (Nat.not_lt_zero _)

/-- No foreign mapping is unmapped, exactly if the reservation or the gaps keep the range off. -/
theorem unmap_iff : view.UnmapsOwn reserved ↔ view.KeepsApart reserved := by
  rw [unmapsOwn_iff, KeepsApart, hookEntry]
  split_ifs with htaken
  · have hbase : reserved.base = view.startAddr := by
      rw [Reservation.taken, Bool.and_eq_true, beq_iff_eq] at htaken
      exact htaken.1
    refine forall_congr' fun map => forall_congr' fun hmap => ?_
    rw [view.overlaps_reservation_iff reserved hmap hbase]
  · refine forall_congr' fun map => forall_congr' fun hmap => ?_
    exact view.not_overlaps_blockSize_iff reserved hmap

end MappedView

/-! ## A second mapping of the library -/

/-- A mapping of two pages of the library's file. -/
def libraryAt (start : Nat) : MapInfo :=
  ⟨start, start + 0x2000, ⟨true, false, true⟩, true, 0, 64769, 7, "/data/adb/neozygisk/lib64/libzygisk.so"⟩

/-- The mapping above the library. -/
def neighbour : MapInfo := ⟨0x9000, 0xa000, ⟨true, true, false⟩, true, 0, 0, 0, "[anon:libc_malloc]"⟩

/-- The library's file is mapped once by the linker and once more by someone else. -/
def mappedTwice : MappedView .aarch64 where
  localMap := []
  dlsym := fun _ => none
  map := []
  mapAfter := [libraryAt 0x7000, neighbour, libraryAt 0xb000]
  ascending := ⟨by decide, by decide⟩
  bounded := by decide

/-- The reservation has the library's two pages, but the tracer has measured four, and the hook unmaps the two
above the library too. -/
theorem mappedTwice_unmaps_neighbour : ¬ mappedTwice.UnmapsOwn ⟨0x7000, 0x2000⟩ := by
  intro h
  have hforeign : mappedTwice.Foreign ⟨0x7000, 0x2000⟩ neighbour := by
    refine ⟨List.mem_cons_of_mem _ List.mem_cons_self, by decide +kernel, ?_⟩
    rintro ⟨-, hend⟩
    exact absurd hend (by decide)
  have hrange : hookEntry mappedTwice.startAddr mappedTwice.blockSize ⟨0x7000, 0x2000⟩ = ⟨0x7000, 0x4000⟩ := by
    decide +kernel
  have hunmap := h true true true 0x7000 0x4000 (by rw [hrange]; rfl) neighbour hforeign
  apply hunmap
  exact ⟨by decide, by decide⟩

end NeoZygisk.Injector.Unmapping
