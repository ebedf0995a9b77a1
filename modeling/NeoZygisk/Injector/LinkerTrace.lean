import NeoZygisk.Injector.Dispatch
import Mathlib.Algebra.Order.BigOperators.Group.List
import Mathlib.Algebra.Order.Group.Nat
import Mathlib.Data.List.Infix
import Mathlib.Algebra.GroupWithZero.Nat

/-!
# The linker's record of the loaded modules

`run_modules_pre` opens one memfd after another, and every open leaves a record in the linker's list
and counts as a load. `run_modules_post` closes the modules that asked for it and then cleans up:
`dropSoPath` unloads what is left of the memfd's name and `resetCounters` takes the number of modules
off both counters. The three counts differ. A module is a library that has an entry, but a load is any
library that opened, and an unload is any record that the linker agreed to drop.

`noTrace_iff` says when the books balance: every library that opens has the entry, no record of the
name was there before unless there is something to clean, and the linker dropped exactly as many
records as there are modules (or none, while its counter is still too low to be reset). A library
without an entry is closed by nobody and counted by nobody: with no other module around it even stays
in the list with its size.
-/

set_option autoImplicit false

namespace NeoZygisk.Injector.LinkerTrace

/-! ## The linker -/

/-- What the linker's `soinfo` says of a library. `pinned`: the linker will not drop it on a close,
because the library is not to be deleted or somebody else holds it. -/
structure SoInfo where
  addr : Nat
  path : String
  size : Nat
  pinned : Bool
  deriving DecidableEq, Repr

namespace SoInfo

/-- `strstr(path, needle)`. -/
def contains (needle : String) (r : SoInfo) : Bool :=
  decide (needle.toList <:+: r.path.toList)

/-- The records `dropSoPath` collects. -/
def target (needle : String) (r : SoInfo) : Bool :=
  r.contains needle && decide (0 < r.size)

/-- The targets that a close really drops. -/
def loose (needle : String) (r : SoInfo) : Bool :=
  r.target needle && !r.pinned

/-- `setSize`. -/
def setSize (size : Nat) (r : SoInfo) : SoInfo := { r with size := size }

variable {r : SoInfo} {size : Nat}

@[simp] theorem addr_setSize : (r.setSize size).addr = r.addr := rfl

@[simp] theorem pinned_setSize : (r.setSize size).pinned = r.pinned := rfl

/-- A record of size zero is no target. -/
@[simp] theorem target_setSize_zero {needle : String} : (r.setSize 0).target needle = false := by
  simp [target, setSize]

end SoInfo

/-- The linker's list, in which no block appears twice, and its two counters. -/
structure Linker where
  solist : List SoInfo
  distinct : (solist.map SoInfo.addr).Nodup
  loadCounter : Nat
  unloadCounter : Nat

/-- The allocator of `soinfo` blocks: what it hands out is not in use. -/
structure Allocator where
  next : List Nat → Nat
  fresh : ∀ used, next used ∉ used

/-- The name `readlink` gives for the daemon's memfd. -/
def memfdPath : String := "/memfd:zygisk-module (deleted)"

/-- A library behind one of the daemon's memfds. `unload`: its module asked to be closed by the time the
post callbacks are through. -/
structure ModuleLibrary where
  served : ServedModule
  unload : Bool
  pinned : Bool
  size : Nat
  size_pos : 0 < size

namespace ModuleLibrary

variable (lib : ModuleLibrary)

/-- `DlopenMem` succeeds. -/
def opens : Bool := lib.served.library.isSome

/-- The library has `zygisk_module_entry`. -/
def hasEntry : Bool := (lib.served.library.bind Library.entry).isSome

/-- `dlclose` returns zero. -/
def dlclose : Bool := lib.served.library.any Library.dlclose

end ModuleLibrary

namespace Linker

variable (L : Linker)

/-- `target->setSize(size)`. -/
def setSize (a size : Nat) : Linker where
  solist := L.solist.map fun r => if r.addr = a then r.setSize size else r
  distinct := by
    have haddr : ∀ r : SoInfo, (if r.addr = a then r.setSize size else r).addr = r.addr := by
      intro r
      split_ifs <;> rfl
    simpa [List.map_map, Function.comp_def, haddr] using L.distinct
  loadCounter := L.loadCounter
  unloadCounter := L.unloadCounter

/-- The records that `gone` picks are taken off the list; `counted` of them count as unloads. -/
def remove (gone : SoInfo → Bool) (counted : Nat) : Linker where
  solist := L.solist.filter fun r => !gone r
  distinct := L.distinct.sublist (List.filter_sublist.map SoInfo.addr)
  loadCounter := L.loadCounter
  unloadCounter := L.unloadCounter + counted

/-- The record a close of `a` drops. -/
def closes (a : Nat) (r : SoInfo) : Bool := decide (r.addr = a) && !r.pinned

/-- The linker's `soinfo_unload`: the record goes, unless it is pinned, and every record that goes
counts. -/
def soinfoUnload (a : Nat) : Linker :=
  L.remove (closes a) (L.solist.countP (closes a))

/-- The linker's `soinfo_free`: the record goes and nothing is counted. -/
def soinfoFree (a : Nat) : Linker :=
  L.remove (fun r => decide (r.addr = a)) 0

/-- `DlopenMem` of a library that opens: one record, one load. -/
def dlopenMem (alloc : Allocator) (lib : ModuleLibrary) : Nat × Linker :=
  let a := alloc.next (L.solist.map SoInfo.addr)
  (a,
    { solist := L.solist ++ [⟨a, memfdPath, lib.size, lib.pinned⟩]
      distinct := by
        have hfresh := alloc.fresh (L.solist.map SoInfo.addr)
        rw [List.map_append]
        refine List.Nodup.append L.distinct (List.nodup_singleton a) ?_
        intro b hb hb'
        rw [List.mem_singleton.mp hb'] at hb
        exact hfresh hb
      loadCounter := L.loadCounter + 1
      unloadCounter := L.unloadCounter })

end Linker

/-! ## Cleaning up -/

/-- What the injector holds: the `HookContext`, the head of the linker's list and the addresses of the
counters, which `initialize` looks up only after it has the list. -/
structure Handles where
  gHook : Bool
  solinker : Bool
  counters : Bool
  solinker_of_counters : counters = true → solinker = true

/-- One round of `dropSoPath`'s second loop. -/
def dropOne (unload : Bool) (L : Linker) (a : Nat) : Linker :=
  match L.solist.find? fun r => decide (r.addr = a) with
  | none => L
  | some target =>
      if target.size = 0 then L
      else if unload then (L.setSize a 0).soinfoUnload a
      else (L.setSize a 0).soinfoFree a

/-- The blocks of the targets, highest first. -/
def targets (path : String) (L : Linker) : List Nat :=
  ((L.solist.filter (SoInfo.target path)).map SoInfo.addr).insertionSort (· ≥ ·)

def dropSoPath (h : Handles) (path : String) (unload : Bool) (L : Linker) : Linker :=
  if h.solinker then (targets path L).foldl (dropOne unload) L else L

/-- A counter is left alone when it is lower than what is to come off. -/
def resetCounter (counter n : Nat) : Nat := if n ≤ counter then counter - n else counter

def resetCounters (h : Handles) (load unload : Nat) (L : Linker) : Linker :=
  if h.solinker && h.counters then
    { L with
      loadCounter := resetCounter L.loadCounter load
      unloadCounter := resetCounter L.unloadCounter unload }
  else L

def cleanLinkerTrace (h : Handles) (path : String) (loadedModules unloadedModules : Nat)
    (unloadSoinfo : Bool) (L : Linker) : Linker :=
  let dropped := dropSoPath h path unloadSoinfo L
  if unloadSoinfo then resetCounters h loadedModules loadedModules dropped
  else resetCounters h loadedModules unloadedModules dropped

/-! ## Loading and unloading -/

/-- A `ZygiskModule`, as far as its library goes. -/
structure LoadedModule where
  handle : Nat
  unload : Bool
  dlclose : Bool

/-- The first loop of `run_modules_pre`: the modules that enter the list, and the linker. -/
def runModulesPre (alloc : Allocator) : List ModuleLibrary → Linker → List LoadedModule × Linker
  | [], L => ([], L)
  | lib :: libs, L =>
      if lib.opens then
        let opened := L.dlopenMem alloc lib
        let rest := runModulesPre alloc libs opened.2
        if lib.hasEntry then (⟨opened.1, lib.unload, lib.dlclose⟩ :: rest.1, rest.2) else rest
      else runModulesPre alloc libs L

/-- `ZygiskModule::tryUnload`. A close that fails changes nothing. -/
def tryUnload (m : LoadedModule) (L : Linker) : Bool × Linker :=
  if m.unload && m.dlclose then (true, L.soinfoUnload m.handle) else (false, L)

/-- The unloading loop: how many modules were unloaded, and the linker. -/
def unloadLoop : List LoadedModule → Linker → Nat × Linker
  | [], L => (0, L)
  | m :: ms, L =>
      let r := tryUnload m L
      let rest := unloadLoop ms r.2
      (rest.1 + (if r.1 then 1 else 0), rest.2)

/-- `run_modules_post` after the callbacks. -/
def runModulesPost (h : Handles) (modules : List LoadedModule) (L : Linker) : Linker :=
  let r := unloadLoop modules.reverse L
  if decide (0 < modules.length) && h.gHook then
    cleanLinkerTrace h "zygisk-module" modules.length r.1 true r.2
  else r.2

/-- The two halves of a specialization. -/
def loadAndUnload (alloc : Allocator) (h : Handles) (libs : List ModuleLibrary) (L : Linker) : Linker :=
  runModulesPost h (runModulesPre alloc libs L).1 (runModulesPre alloc libs L).2

/-! ## What a close does to the books -/

/-- The memfd's name, which `run_modules_post` cleans up after. -/
abbrev needle : String := "zygisk-module"

theorem contains_memfdPath (a size : Nat) (pinned : Bool) :
    SoInfo.contains needle ⟨a, memfdPath, size, pinned⟩ = true := by
  have hinfix : needle.toList <:+: memfdPath.toList := by decide +kernel
  simpa [SoInfo.contains] using hinfix

theorem target_opened (a : Nat) (lib : ModuleLibrary) :
    SoInfo.target needle ⟨a, memfdPath, lib.size, lib.pinned⟩ = true := by
  simp [SoInfo.target, contains_memfdPath, lib.size_pos]

/-- Two predicates that split a third one over the list split its count. -/
theorem countP_add_countP {α : Type} (p q s : α → Bool) (l : List α)
    (h : ∀ x ∈ l, (p x).toNat + (q x).toNat = (s x).toNat) :
    l.countP p + l.countP q = l.countP s := by
  induction l with
  | nil => rfl
  | cons x xs ih =>
      have htail := ih fun y hy => h y (List.mem_cons_of_mem x hy)
      have hhead := h x List.mem_cons_self
      rw [List.countP_cons, List.countP_cons, List.countP_cons]
      cases hp : p x <;> cases hq : q x <;> cases hs : s x <;> simp_all <;> omega

namespace Linker

/-- Unloads so far and records that a close would still drop. -/
def books (L : Linker) : Nat := L.unloadCounter + L.solist.countP (SoInfo.loose needle)

/-- Every record in the block `a` has the memfd's name. -/
def Named (L : Linker) (a : Nat) : Prop :=
  ∀ r ∈ L.solist, r.addr = a → r.contains needle = true

/-- Every record in the block `a` is one `dropSoPath` would collect. -/
def Targeted (L : Linker) (a : Nat) : Prop :=
  ∀ r ∈ L.solist, r.addr = a → r.target needle = true

variable {L : Linker} {a b : Nat}

@[simp] theorem unloadCounter_setSize {n : Nat} :
    (L.setSize a n).unloadCounter = L.unloadCounter := rfl

theorem mem_soinfoUnload {r : SoInfo} :
    r ∈ (L.soinfoUnload a).solist ↔ r ∈ L.solist ∧ closes a r = false := by
  simp [soinfoUnload, remove]

theorem mem_setSize {n : Nat} {r : SoInfo} :
    r ∈ (L.setSize a n).solist ↔
      ∃ old ∈ L.solist, (if old.addr = a then old.setSize n else old) = r := by
  simp [setSize]

/-- Blocks are distinct. -/
theorem eq_of_addr_eq {r s : SoInfo} (hr : r ∈ L.solist) (hs : s ∈ L.solist)
    (h : r.addr = s.addr) : r = s :=
  List.inj_on_of_nodup_map L.distinct hr hs h

theorem targeted_of_mem {r : SoInfo} (hr : r ∈ L.solist) (ht : r.target needle = true) :
    L.Targeted r.addr := by
  intro s hs hsr
  rw [eq_of_addr_eq hs hr hsr]
  exact ht

/-- A close of a targeted block moves its record from the list to the counter. -/
theorem books_soinfoUnload (h : L.Targeted a) : (L.soinfoUnload a).books = L.books := by
  have hsplit : L.solist.countP (closes a) +
      L.solist.countP (fun r => r.loose needle && !closes a r) = L.solist.countP (SoInfo.loose needle) := by
    apply countP_add_countP
    intro r hr
    by_cases ha : r.addr = a
    · cases hp : r.pinned <;> simp [closes, SoInfo.loose, h r hr ha, ha, hp]
    · simp [closes, ha]
  simp only [books, soinfoUnload, remove, List.countP_filter]
  omega

/-- The same with the size taken away first, as `dropSoPath` does it. -/
theorem books_setSize_soinfoUnload (h : L.Targeted a) :
    ((L.setSize a 0).soinfoUnload a).books = L.books := by
  have hcloses : (L.setSize a 0).solist.countP (closes a) = L.solist.countP (closes a) := by
    simp only [setSize, List.countP_map]
    congr 1
    funext r
    by_cases ha : r.addr = a <;> simp [closes, ha]
  have hsplit : L.solist.countP (closes a) +
      (L.setSize a 0).solist.countP (fun r => r.loose needle && !closes a r) =
        L.solist.countP (SoInfo.loose needle) := by
    simp only [setSize, List.countP_map]
    apply countP_add_countP
    intro r hr
    by_cases ha : r.addr = a
    · -- a record of size zero is no target any more, pinned or not
      cases hp : r.pinned <;> simp [closes, SoInfo.loose, h r hr ha, ha, hp]
    · simp [closes, ha]
  simp only [books, soinfoUnload, remove, List.countP_filter, unloadCounter_setSize, hcloses]
  omega

end Linker

/-! ## `dropSoPath` -/

namespace Linker

variable {L : Linker} {a b : Nat}

/-- The record that the second loop of `dropSoPath` finds at a named block. -/
theorem dropOne_cases (L : Linker) (a : Nat) (hn : L.Named a) :
    (dropOne true L a = L ∧ ∀ r ∈ L.solist, r.addr = a → r.size = 0) ∨
      (dropOne true L a = (L.setSize a 0).soinfoUnload a ∧ L.Targeted a) := by
  unfold dropOne
  cases hfind : L.solist.find? fun r => decide (r.addr = a) with
  | none =>
      refine Or.inl ⟨rfl, ?_⟩
      intro r hr ha
      have hnot := List.find?_eq_none.mp hfind r hr
      exact absurd ha (by simpa using hnot)
  | some r =>
      have hmem := List.mem_of_find?_eq_some hfind
      have ha : r.addr = a := by simpa using List.find?_some hfind
      by_cases hsize : r.size = 0
      · refine Or.inl ⟨by simp [hsize], ?_⟩
        intro s hs hsa
        rw [eq_of_addr_eq hs hmem (hsa.trans ha.symm)]
        exact hsize
      · refine Or.inr ⟨by simp [hsize], ?_⟩
        have ht : r.target needle = true := by
          simp [SoInfo.target, hn r hmem ha, Nat.pos_of_ne_zero hsize]
        rw [← ha]
        exact targeted_of_mem hmem ht

/-- A round keeps the names. -/
theorem Named.dropOne (ha : L.Named a) (hb : L.Named b) : (dropOne true L b).Named a := by
  obtain ⟨heq, -⟩ | ⟨heq, -⟩ := dropOne_cases L b hb
  · rw [heq]
    exact ha
  · rw [heq]
    intro r hr hra
    obtain ⟨old, hold, rfl⟩ := mem_setSize.mp (mem_soinfoUnload.mp hr).1
    split_ifs at hra ⊢ with hob
    · exact ha old hold hra
    · exact ha old hold hra

/-- A round keeps the books. -/
theorem books_dropOne (hn : L.Named a) : (LinkerTrace.dropOne true L a).books = L.books := by
  obtain ⟨heq, -⟩ | ⟨heq, ht⟩ := dropOne_cases L a hn
  · rw [heq]
  · rw [heq]
    exact books_setSize_soinfoUnload ht

theorem loadCounter_dropOne (hn : L.Named a) :
    (LinkerTrace.dropOne true L a).loadCounter = L.loadCounter := by
  obtain ⟨heq, -⟩ | ⟨heq, -⟩ := dropOne_cases L a hn
  · rw [heq]
  · rw [heq]
    rfl

/-- A target that a round leaves was there before, in another block. -/
theorem target_of_mem_dropOne {r : SoInfo} (hn : L.Named a)
    (hr : r ∈ (LinkerTrace.dropOne true L a).solist) (ht : r.target needle = true) :
    r ∈ L.solist ∧ r.addr ≠ a := by
  obtain ⟨heq, hzero⟩ | ⟨heq, -⟩ := dropOne_cases L a hn
  · rw [heq] at hr
    refine ⟨hr, ?_⟩
    intro ha
    have hsize : 0 < r.size := by simpa using (Bool.and_eq_true_iff.mp ht).2
    exact absurd (hzero r hr ha) hsize.ne'
  · rw [heq] at hr
    obtain ⟨old, hold, rfl⟩ := mem_setSize.mp (mem_soinfoUnload.mp hr).1
    split_ifs at ht ⊢ with hoa
    · rw [SoInfo.target_setSize_zero] at ht
      cases ht
    · exact ⟨hold, hoa⟩

/-- The whole loop over named blocks: the books and the loads stay, and the targets that are left
stand in none of the blocks. -/
theorem foldl_dropOne (as : List Nat) (L : Linker) (hn : ∀ a ∈ as, L.Named a) :
    (as.foldl (LinkerTrace.dropOne true) L).books = L.books ∧
      (as.foldl (LinkerTrace.dropOne true) L).loadCounter = L.loadCounter ∧
      ∀ r ∈ (as.foldl (LinkerTrace.dropOne true) L).solist, r.target needle = true →
        r ∈ L.solist ∧ r.addr ∉ as := by
  induction as generalizing L with
  | nil => exact ⟨rfl, rfl, fun r hr _ => ⟨hr, List.not_mem_nil⟩⟩
  | cons a as ih =>
      have ha := hn a List.mem_cons_self
      have hrest : ∀ b ∈ as, (LinkerTrace.dropOne true L a).Named b := by
        intro b hb
        exact Named.dropOne (hn b (List.mem_cons_of_mem a hb)) ha
      obtain ⟨hbooks, hload, htargets⟩ := ih (LinkerTrace.dropOne true L a) hrest
      rw [List.foldl_cons]
      refine ⟨hbooks.trans (books_dropOne ha), hload.trans (loadCounter_dropOne ha), ?_⟩
      intro r hr ht
      obtain ⟨hmem, hnot⟩ := htargets r hr ht
      obtain ⟨hmem', hne⟩ := target_of_mem_dropOne ha hmem ht
      refine ⟨hmem', ?_⟩
      intro hin
      obtain rfl | hin := List.mem_cons.mp hin
      · exact hne rfl
      · exact hnot hin

theorem mem_targets {path : String} :
    a ∈ targets path L ↔ ∃ r ∈ L.solist, r.target path = true ∧ r.addr = a := by
  simp only [targets, List.mem_insertionSort, List.mem_map, List.mem_filter, and_assoc]

end Linker

/-- What `dropSoPath` leaves: no target, and every record it could drop on the counter. -/
theorem dropSoPath_spec (h : Handles) (hs : h.solinker = true) (L : Linker) :
    (dropSoPath h needle true L).unloadCounter = L.books ∧
      (dropSoPath h needle true L).loadCounter = L.loadCounter ∧
      ∀ r ∈ (dropSoPath h needle true L).solist, r.target needle = false := by
  have hnamed : ∀ a ∈ targets needle L, L.Named a := by
    intro a ha r hr hra
    obtain ⟨s, hsm, hst, hsa⟩ := Linker.mem_targets.mp ha
    rw [Linker.eq_of_addr_eq hr hsm (hra.trans hsa.symm)]
    exact (Bool.and_eq_true_iff.mp hst).1
  obtain ⟨hbooks, hload, htargets⟩ := Linker.foldl_dropOne (targets needle L) L hnamed
  have heq : dropSoPath h needle true L = (targets needle L).foldl (dropOne true) L := by
    simp [dropSoPath, hs]
  rw [heq]
  have hnone : ∀ r ∈ ((targets needle L).foldl (dropOne true) L).solist,
      r.target needle = false := by
    intro r hr
    rw [Bool.eq_false_iff]
    intro ht
    obtain ⟨hmem, hnot⟩ := htargets r hr ht
    exact hnot (Linker.mem_targets.mpr ⟨r, hmem, ht, rfl⟩)
  refine ⟨?_, hload, hnone⟩
  -- with no target left the books are the counter alone
  have hzero : ((targets needle L).foldl (dropOne true) L).solist.countP (SoInfo.loose needle) = 0 := by
    rw [List.countP_eq_zero]
    intro r hr
    simp [SoInfo.loose, hnone r hr]
  rw [← hbooks, Linker.books, hzero, Nat.add_zero]

/-! ## The two loops -/

/-- The modules that enter the list. -/
def moduleCount (libs : List ModuleLibrary) : Nat :=
  (loadedModules (libs.map ModuleLibrary.served)).length

/-- They come from the libraries that open and have an entry. -/
theorem moduleCount_eq (libs : List ModuleLibrary) :
    moduleCount libs = libs.countP fun lib => lib.opens && lib.hasEntry := by
  unfold moduleCount loadedModules
  -- the ids count up from any start
  generalize 0 = k
  induction libs generalizing k with
  | nil => rfl
  | cons lib libs ih =>
      rw [List.map_cons, List.zipIdx_cons, List.filterMap_cons, List.countP_cons, ← ih (k + 1)]
      cases hlib : lib.served.library with
      | none => simp [ModuleLibrary.opens, hlib]
      | some library =>
          cases he : library.entry with
          | none => simp [ModuleLibrary.hasEntry, hlib, he]
          | some entry => simp [ModuleLibrary.opens, ModuleLibrary.hasEntry, hlib, he]

/-- The records of the memfd's name that the linker would drop once the libraries are open. -/
def droppable (libs : List ModuleLibrary) (L : Linker) : Nat :=
  L.solist.countP (SoInfo.loose needle) + libs.countP fun lib => lib.opens && !lib.pinned

/-- What `run_modules_pre` leaves the second half. -/
structure Opened (libs : List ModuleLibrary) (L : Linker) (modules : List LoadedModule) (L' : Linker) :
    Prop where
  modules_length : modules.length = moduleCount libs
  loadCounter : L'.loadCounter = L.loadCounter + libs.countP ModuleLibrary.opens
  unloadCounter : L'.unloadCounter = L.unloadCounter
  books : L'.books = L.unloadCounter + droppable libs L
  grown : ∀ r ∈ L'.solist, r ∈ L.solist ∨ r.target needle = true
  targeted : ∀ m ∈ modules, L'.Targeted m.handle

theorem books_dlopenMem (alloc : Allocator) (lib : ModuleLibrary) (L : Linker) :
    (L.dlopenMem alloc lib).2.books = L.books + (!lib.pinned).toNat := by
  have hloose : SoInfo.loose needle
      ⟨alloc.next (L.solist.map SoInfo.addr), memfdPath, lib.size, lib.pinned⟩ = !lib.pinned := by
    simp [SoInfo.loose, target_opened]
  simp only [Linker.books, Linker.dlopenMem, List.countP_append, List.countP_singleton, hloose]
  cases lib.pinned <;> simp [Nat.add_assoc]

/-- A record of the list after an open is the new one or was there. -/
theorem mem_dlopenMem {alloc : Allocator} {lib : ModuleLibrary} {L : Linker} {r : SoInfo}
    (hr : r ∈ (L.dlopenMem alloc lib).2.solist) :
    r ∈ L.solist ∨ r = ⟨(L.dlopenMem alloc lib).1, memfdPath, lib.size, lib.pinned⟩ := by
  simpa [Linker.dlopenMem] using hr

/-- The block of an open is the new record's alone. -/
theorem targeted_dlopenMem (alloc : Allocator) (lib : ModuleLibrary) (L : Linker) :
    (L.dlopenMem alloc lib).2.Targeted (L.dlopenMem alloc lib).1 := by
  intro r hr ha
  obtain hold | rfl := mem_dlopenMem hr
  · have hused := List.mem_map_of_mem (f := SoInfo.addr) hold
    rw [ha] at hused
    exact absurd hused (alloc.fresh _)
  · exact target_opened _ lib

section Opened

variable {alloc : Allocator} {lib : ModuleLibrary} {libs : List ModuleLibrary} {L L' : Linker}
  {modules : List LoadedModule}

/-- A library that does not open changes nothing. -/
theorem Opened.skip (h : Opened libs L modules L') (hopens : lib.opens = false) :
    Opened (lib :: libs) L modules L' where
  modules_length := by simpa [moduleCount_eq, hopens] using h.modules_length
  loadCounter := by simpa [hopens] using h.loadCounter
  unloadCounter := h.unloadCounter
  books := by simpa [droppable, hopens] using h.books
  grown := h.grown
  targeted := h.targeted

theorem Opened.loadCounter_cons (h : Opened libs (L.dlopenMem alloc lib).2 modules L')
    (hopens : lib.opens = true) :
    L'.loadCounter = L.loadCounter + (lib :: libs).countP ModuleLibrary.opens := by
  have hafter := h.loadCounter
  simp only [Linker.dlopenMem, List.countP_cons, hopens, if_true] at hafter ⊢
  omega

theorem Opened.books_cons (h : Opened libs (L.dlopenMem alloc lib).2 modules L')
    (hopens : lib.opens = true) : L'.books = L.unloadCounter + droppable (lib :: libs) L := by
  have hnew := books_dlopenMem alloc lib L
  have hafter := h.books
  simp only [droppable, Linker.books, List.countP_cons, hopens, Bool.true_and] at hnew hafter ⊢
  cases hp : lib.pinned <;> simp [hp] at hnew ⊢ <;> omega

theorem Opened.grown_cons (h : Opened libs (L.dlopenMem alloc lib).2 modules L') :
    ∀ r ∈ L'.solist, r ∈ L.solist ∨ r.target needle = true := by
  intro r hr
  obtain hold | ht := h.grown r hr
  · obtain hold | rfl := mem_dlopenMem hold
    · exact Or.inl hold
    · exact Or.inr (target_opened _ lib)
  · exact Or.inr ht

/-- A library that opens and has no entry: a load, a record and no module. -/
theorem Opened.withoutEntry (h : Opened libs (L.dlopenMem alloc lib).2 modules L')
    (hopens : lib.opens = true) (hentry : lib.hasEntry = false) :
    Opened (lib :: libs) L modules L' where
  modules_length := by simpa [moduleCount_eq, hentry] using h.modules_length
  loadCounter := h.loadCounter_cons hopens
  unloadCounter := h.unloadCounter
  books := h.books_cons hopens
  grown := h.grown_cons
  targeted := h.targeted

/-- A library that opens and has its entry is a module. -/
theorem Opened.withEntry {m : LoadedModule} (h : Opened libs (L.dlopenMem alloc lib).2 modules L')
    (hopens : lib.opens = true) (hentry : lib.hasEntry = true)
    (hm : m.handle = (L.dlopenMem alloc lib).1) : Opened (lib :: libs) L (m :: modules) L' where
  modules_length := by simpa [moduleCount_eq, hopens, hentry] using h.modules_length
  loadCounter := h.loadCounter_cons hopens
  unloadCounter := h.unloadCounter
  books := h.books_cons hopens
  grown := h.grown_cons
  targeted := by
    intro n hn
    obtain rfl | hn := List.mem_cons.mp hn
    · -- what was opened later is a target wherever it stands
      intro r hr ha
      obtain hold | ht := h.grown r hr
      · exact targeted_dlopenMem alloc lib L r hold (ha.trans hm)
      · exact ht
    · exact h.targeted n hn

end Opened

theorem opened_runModulesPre (alloc : Allocator) (libs : List ModuleLibrary) (L : Linker) :
    Opened libs L (runModulesPre alloc libs L).1 (runModulesPre alloc libs L).2 := by
  induction libs generalizing L with
  | nil =>
      exact
        { modules_length := rfl
          loadCounter := rfl
          unloadCounter := rfl
          books := rfl
          grown := fun r hr => Or.inl hr
          targeted := fun m hm => absurd hm List.not_mem_nil }
  | cons lib libs ih =>
      cases hopens : lib.opens with
      | false =>
          simp only [runModulesPre, hopens, Bool.false_eq_true, if_false]
          exact (ih L).skip hopens
      | true =>
          have hrest := ih (L.dlopenMem alloc lib).2
          cases hentry : lib.hasEntry with
          | false =>
              simp only [runModulesPre, hopens, hentry, Bool.false_eq_true, if_false, if_true]
              exact hrest.withoutEntry hopens hentry
          | true =>
              simp only [runModulesPre, hopens, hentry, if_true]
              exact hrest.withEntry hopens hentry rfl

/-- Closing modules whose blocks are targeted keeps the books and the loads. -/
theorem unloadLoop_spec (ms : List LoadedModule) (L : Linker)
    (ht : ∀ m ∈ ms, L.Targeted m.handle) :
    (unloadLoop ms L).2.books = L.books ∧ (unloadLoop ms L).2.loadCounter = L.loadCounter := by
  induction ms generalizing L with
  | nil => exact ⟨rfl, rfl⟩
  | cons m ms ih =>
      have hhead := ht m List.mem_cons_self
      have htail : ∀ n ∈ ms, (tryUnload m L).2.Targeted n.handle := by
        intro n hn r hr hra
        refine ht n (List.mem_cons_of_mem m hn) r ?_ hra
        unfold tryUnload at hr
        split_ifs at hr with hclose
        · exact (Linker.mem_soinfoUnload.mp hr).1
        · exact hr
      have hone : (tryUnload m L).2.books = L.books ∧
          (tryUnload m L).2.loadCounter = L.loadCounter := by
        unfold tryUnload
        split_ifs with hclose
        · exact ⟨Linker.books_soinfoUnload hhead, rfl⟩
        · exact ⟨rfl, rfl⟩
      obtain ⟨hbooks, hload⟩ := ih (tryUnload m L).2 htail
      exact ⟨hbooks.trans hone.1, hload.trans hone.2⟩

/-! ## No trace -/

/-- The counters are back and no record of the memfd's name has a size. -/
structure NoTrace (before after : Linker) : Prop where
  loadCounter : after.loadCounter = before.loadCounter
  unloadCounter : after.unloadCounter = before.unloadCounter
  sizes : ∀ r ∈ after.solist, r.contains needle = true → r.size = 0

/-- Every library that opens is a module; with no module there is nothing to clean; and with modules
the linker drops as many records as there are modules, or none while its counter is too low to be
reset. -/
structure Balanced (libs : List ModuleLibrary) (L : Linker) : Prop where
  entries : ∀ lib ∈ libs, lib.opens = true → lib.hasEntry = true
  clean : moduleCount libs = 0 → ∀ r ∈ L.solist, r.target needle = false
  drops : 0 < moduleCount libs →
    droppable libs L = moduleCount libs ∨
      droppable libs L = 0 ∧ L.unloadCounter < moduleCount libs

theorem entries_iff (libs : List ModuleLibrary) :
    libs.countP ModuleLibrary.opens = moduleCount libs ↔
      ∀ lib ∈ libs, lib.opens = true → lib.hasEntry = true := by
  have hfilter : moduleCount libs = (libs.filter ModuleLibrary.opens).countP ModuleLibrary.hasEntry := by
    rw [List.countP_filter, moduleCount_eq]
    congr 1
    funext lib
    exact Bool.and_comm _ _
  rw [hfilter, List.countP_eq_length_filter, eq_comm, List.countP_eq_length]
  simp

theorem sizes_iff (L : Linker) :
    (∀ r ∈ L.solist, r.contains needle = true → r.size = 0) ↔
      ∀ r ∈ L.solist, r.target needle = false := by
  refine forall₂_congr fun r _ => ?_
  cases hc : r.contains needle <;> simp [SoInfo.target, hc]

/-- Nothing opens, nothing changes. -/
theorem runModulesPre_of_none (alloc : Allocator) (libs : List ModuleLibrary) (L : Linker)
    (hnone : libs.countP ModuleLibrary.opens = 0) : runModulesPre alloc libs L = ([], L) := by
  induction libs with
  | nil => rfl
  | cons lib libs ih =>
      rw [List.countP_cons] at hnone
      have hopens : lib.opens = false := by
        cases ho : lib.opens with
        | false => rfl
        | true => simp [ho] at hnone
      have htail : libs.countP ModuleLibrary.opens = 0 := by omega
      simpa [runModulesPre, hopens] using ih htail

/-- A counter that the clean-up takes `n` off is back at `before` exactly when `n` were added, or
none were and the counter was too low. -/
theorem resetCounter_eq_iff (before added n : Nat) :
    resetCounter (before + added) n = before ↔ added = n ∨ added = 0 ∧ before < n := by
  unfold resetCounter
  split_ifs with hle <;> omega

section Main

variable (alloc : Allocator) (h : Handles) (libs : List ModuleLibrary) (L : Linker)

/-- Without a module nothing is cleaned. -/
theorem loadAndUnload_of_none (hn : moduleCount libs = 0) :
    loadAndUnload alloc h libs L = (runModulesPre alloc libs L).2 := by
  have hlength := (opened_runModulesPre alloc libs L).modules_length
  rw [hn] at hlength
  have hnil := List.length_eq_zero_iff.mp hlength
  simp [loadAndUnload, runModulesPost, hnil, unloadLoop]

/-- With a module both counters are reset and every target is gone. -/
theorem loadAndUnload_of_some (hook : h.gHook = true) (hc : h.counters = true)
    (hn : 0 < moduleCount libs) :
    (loadAndUnload alloc h libs L).loadCounter =
        resetCounter (L.loadCounter + libs.countP ModuleLibrary.opens) (moduleCount libs) ∧
      (loadAndUnload alloc h libs L).unloadCounter =
        resetCounter (L.unloadCounter + droppable libs L) (moduleCount libs) ∧
      ∀ r ∈ (loadAndUnload alloc h libs L).solist, r.target needle = false := by
  have hopened := opened_runModulesPre alloc libs L
  have hsol := h.solinker_of_counters hc
  obtain ⟨hbooks, hload⟩ := unloadLoop_spec (runModulesPre alloc libs L).1.reverse
    (runModulesPre alloc libs L).2 (fun m hm => hopened.targeted m (List.mem_reverse.mp hm))
  obtain ⟨hunload', hload', hnone⟩ := dropSoPath_spec h hsol
    (unloadLoop (runModulesPre alloc libs L).1.reverse (runModulesPre alloc libs L).2).2
  simp only [loadAndUnload, runModulesPost, cleanLinkerTrace, resetCounters, hopened.modules_length, hn,
    hook, hsol, hc, decide_true, Bool.and_self, if_true]
  rw [hload', hload, hopened.loadCounter, hunload', hbooks, hopened.books]
  exact ⟨rfl, rfl, hnone⟩

/-- Loading and unloading modules leaves no trace in the linker exactly when the books balance. -/
theorem noTrace_iff (hook : h.gHook = true) (hc : h.counters = true) :
    NoTrace L (loadAndUnload alloc h libs L) ↔ Balanced libs L := by
  have hle : moduleCount libs ≤ libs.countP ModuleLibrary.opens := by
    rw [moduleCount_eq]
    apply List.countP_mono_left
    intro lib _ hlib
    exact (Bool.and_eq_true_iff.mp hlib).1
  by_cases hn : moduleCount libs = 0
  · rw [loadAndUnload_of_none alloc h libs L hn]
    have hload := (opened_runModulesPre alloc libs L).loadCounter
    -- the loads are back only if nothing was opened, and then the list is as it was
    constructor
    · intro hnt
      have hopens : libs.countP ModuleLibrary.opens = 0 := by
        have hback := hnt.loadCounter
        omega
      refine ⟨(entries_iff libs).mp (hopens.trans hn.symm), ?_, fun hpos => absurd hn hpos.ne'⟩
      intro _
      have hsizes := hnt.sizes
      rw [runModulesPre_of_none alloc libs L hopens] at hsizes
      exact (sizes_iff L).mp hsizes
    · intro hb
      have hopens : libs.countP ModuleLibrary.opens = 0 := ((entries_iff libs).mpr hb.entries).trans hn
      rw [runModulesPre_of_none alloc libs L hopens]
      exact ⟨rfl, rfl, (sizes_iff L).mpr (hb.clean hn)⟩
  · have hpos := Nat.pos_of_ne_zero hn
    -- the clean-up runs and takes the number of modules off both counters
    obtain ⟨hload, hunload, hnone⟩ := loadAndUnload_of_some alloc h libs L hook hc hpos
    constructor
    · intro hnt
      have hloads := (resetCounter_eq_iff _ _ _).mp (hload.symm.trans hnt.loadCounter)
      have hdrops := (resetCounter_eq_iff _ _ _).mp (hunload.symm.trans hnt.unloadCounter)
      refine ⟨(entries_iff libs).mp ?_, fun h0 => absurd h0 hn, fun _ => hdrops⟩
      omega
    · intro hb
      have hopens := (entries_iff libs).mpr hb.entries
      refine ⟨?_, ?_, (sizes_iff _).mpr hnone⟩
      · rw [hload]
        exact (resetCounter_eq_iff _ _ _).mpr (Or.inl hopens)
      · rw [hunload]
        exact (resetCounter_eq_iff _ _ _).mpr (hb.drops hpos)

end Main

/-- An allocator that hands out blocks above all others. -/
def bumpAllocator : Allocator where
  next used := used.sum + 1
  fresh := by
    intro used hmem
    have hle := List.le_sum_of_mem hmem
    omega

/-- A process that has everything it needs to clean up. -/
def allResolved : Handles := ⟨true, true, true, fun _ => rfl⟩

/-- A freshly forked process: the C library is in the list, 200 loads and 3 unloads so far. -/
def forked : Linker where
  solist := [⟨4096, "/apex/com.android.runtime/lib64/bionic/libc.so", 4096, true⟩]
  distinct := List.nodup_singleton _
  loadCounter := 200
  unloadCounter := 3

/-- A module library that asks to be closed. -/
def closing : ModuleLibrary := ⟨servedModule "zn_closing" 5, true, false, 8192, by decide⟩

/-- A module library that stays. -/
def staying : ModuleLibrary := ⟨servedModule "zn_staying" 4, false, false, 16384, by decide⟩

/-- What the daemon serves here is no library. -/
def unreadable : ModuleLibrary := ⟨⟨"zn_unreadable", none⟩, false, false, 4096, by decide⟩

/-- A library that opens and is no module. -/
def withoutEntry : ModuleLibrary := ⟨⟨"zn_without_entry", some ⟨none, true⟩⟩, false, false, 8192, by decide⟩

/-- Of two modules one asks to be closed, and a third library does not open: nothing is left behind. -/
theorem noTrace_closing :
    (allResolved.gHook = true ∧ allResolved.counters = true) ∧
      NoTrace forked (loadAndUnload bumpAllocator allResolved [staying, unreadable, closing] forked) := by
  have hbalanced : Balanced [staying, unreadable, closing] forked :=
    { entries := by decide
      clean := fun hzero => absurd hzero (by decide)
      drops := fun _ => Or.inl (by decide +kernel) }
  exact ⟨⟨rfl, rfl⟩,
    (noTrace_iff bumpAllocator allResolved [staying, unreadable, closing] forked rfl rfl).mpr hbalanced⟩

/-- A library without an entry stays: one load too many, and a record with its size. -/
theorem trace_of_withoutEntry :
    ¬ NoTrace forked (loadAndUnload bumpAllocator allResolved [withoutEntry] forked) := by
  intro hnt
  have hload : 201 = 200 := hnt.loadCounter
  omega

end NeoZygisk.Injector.LinkerTrace
