import Mathlib.Data.Option.Basic
import Mathlib.Data.Set.Insert
import Mathlib.Tactic.SplitIfs
import NeoZygisk.Lib.Heap

/-!
# Names and inodes

A file system as a table of names over a heap of inodes: a name can be taken over by another inode while
the old one lives on, with whoever has it open or mapped. There are no links: an inode has one name
(`single`), so that a change made through one name is seen through no other one
(`entry_modify_of_ne`, `entry_create_of_ne`). `Agrees` is the frame relation for a set of names.
-/

set_option autoImplicit false

namespace NeoZygisk.Lib

universe u v w

/-- A directory has no content of its own here. -/
structure Inode (β : Type v) (α : Type w) where
  isDirectory : Bool
  content : List β
  attributes : α

structure FileSystem (ν : Type u) (β : Type v) (α : Type w) where
  names : ν → Option Nat
  disk : Heap (Inode β α)
  allocated : ∀ name i, names name = some i → i < disk.next
  single : ∀ name name' i, names name = some i → names name' = some i → name = name'

namespace FileSystem

variable {ν : Type u} {β : Type v} {α : Type w}

section Operations

variable (fs : FileSystem ν β α)

/-- What a name stands for: the inode's number, which is its identity, and the inode. -/
def entry (name : ν) : Option (Nat × Inode β α) := (fs.names name).map fun i => (i, fs.disk.get i)

/-- A change of the inode that a name stands for. -/
def modify (name : ν) (f : Inode β α → Inode β α) : FileSystem ν β α :=
  match fs.names name with
  | none => fs
  | some i => { fs with disk := fs.disk.modify i f }

/-- A new inode under a name. -/
def create [DecidableEq ν] (name : ν) (inode : Inode β α) : FileSystem ν β α where
  names := Function.update fs.names name (some fs.disk.next)
  disk := fs.disk.alloc inode
  allocated := by
    intro other i hi
    by_cases hother : other = name
    · rw [hother, Function.update_self] at hi
      obtain rfl := Option.some.inj hi
      exact Nat.lt_succ_self _
    · rw [Function.update_of_ne hother] at hi
      exact Nat.lt_succ_of_lt (fs.allocated other i hi)
  single := by
    have hold : ∀ other i, other ≠ name → Function.update fs.names name (some fs.disk.next) other = some i →
        i ≠ fs.disk.next ∧ fs.names other = some i := by
      intro other i hother hi
      rw [Function.update_of_ne hother] at hi
      exact ⟨Nat.ne_of_lt (fs.allocated other i hi), hi⟩
    intro a b i ha hb
    by_cases hna : a = name <;> by_cases hnb : b = name
    · exact hna.trans hnb.symm
    · rw [hna, Function.update_self] at ha
      exact absurd (Option.some.inj ha).symm (hold b i hnb hb).1
    · rw [hnb, Function.update_self] at hb
      exact absurd (Option.some.inj hb).symm (hold a i hna ha).1
    · exact fs.single a b i (hold a i hna ha).2 (hold b i hnb hb).2

/-- The names after a rename of `old` to `new`. -/
def renamed [DecidableEq ν] (old new name : ν) : Option Nat :=
  if name = new then fs.names old else if name = old then none else fs.names name

/-- `new` stands for what `old` stood for, and `old` for nothing any more. -/
def rename [DecidableEq ν] (old new : ν) : FileSystem ν β α where
  names := fs.renamed old new
  disk := fs.disk
  allocated := by
    intro name i hi
    unfold renamed at hi
    split_ifs at hi with hnew hold
    · exact fs.allocated old i hi
    · exact fs.allocated name i hi
  single := by
    intro a b i ha hb
    unfold renamed at ha hb
    split_ifs at ha hb with hna hnb hbo hao hnb' hbo'
    · exact hna.trans hnb.symm
    · exact absurd (fs.single old b i ha hb).symm hbo
    · exact absurd (fs.single a old i ha hb) hao
    · exact fs.single a b i ha hb

end Operations

variable {fs fs' fs'' : FileSystem ν β α} {name other : ν}

theorem entry_eq_some_iff {i : Nat} {inode : Inode β α} :
    fs.entry name = some (i, inode) ↔ fs.names name = some i ∧ fs.disk.get i = inode := by
  simp only [entry, Option.map_eq_some_iff, Prod.mk.injEq]
  constructor
  · rintro ⟨j, hj, rfl, hget⟩
    exact ⟨hj, hget⟩
  · rintro ⟨hi, hget⟩
    exact ⟨i, hi, rfl, hget⟩

theorem entry_modify_self (f : Inode β α → Inode β α) :
    (fs.modify name f).entry name = (fs.entry name).map fun e => (e.1, f e.2) := by
  cases hname : fs.names name with
  | none => simp [modify, entry, hname]
  | some i => simp [modify, entry, hname]

theorem entry_modify_of_ne (f : Inode β α → Inode β α) (h : other ≠ name) :
    (fs.modify name f).entry other = fs.entry other := by
  cases hname : fs.names name with
  | none => simp [modify, hname]
  | some i =>
      cases hother : fs.names other with
      | none => simp [modify, entry, hname, hother]
      | some j =>
          have hne : j ≠ i := by
            rintro rfl
            exact h (fs.single other name j hother hname)
          simp [modify, entry, hname, hother, Heap.get_modify_of_ne _ _ hne]

theorem entry_create_self [DecidableEq ν] (inode : Inode β α) :
    (fs.create name inode).entry name = some (fs.disk.next, inode) := by
  simp [create, entry]

theorem entry_create_of_ne [DecidableEq ν] (inode : Inode β α) (h : other ≠ name) :
    (fs.create name inode).entry other = fs.entry other := by
  cases hother : fs.names other with
  | none => simp [create, entry, Function.update_of_ne h, hother]
  | some j =>
      simp [create, entry, Function.update_of_ne h, hother, Heap.get_alloc_of_lt _ _ (fs.allocated other j hother)]

theorem entry_rename_new [DecidableEq ν] (old new : ν) : (fs.rename old new).entry new = fs.entry old := by
  simp [rename, renamed, entry]

theorem entry_rename_of_ne [DecidableEq ν] {old new : ν} (hold : other ≠ old) (hnew : other ≠ new) :
    (fs.rename old new).entry other = fs.entry other := by
  simp [rename, renamed, entry, hold, hnew]

/-! ## Frames -/

/-- Nothing but the names of `S` is changed. -/
def Agrees (S : Set ν) (fs fs' : FileSystem ν β α) : Prop := ∀ name ∉ S, fs'.entry name = fs.entry name

variable {S T : Set ν}

theorem Agrees.refl (S : Set ν) (fs : FileSystem ν β α) : Agrees S fs fs := fun _ _ => rfl

theorem Agrees.trans (h : Agrees S fs fs') (h' : Agrees S fs' fs'') : Agrees S fs fs'' :=
  fun name hname => (h' name hname).trans (h name hname)

theorem Agrees.mono (h : Agrees S fs fs') (hST : S ⊆ T) : Agrees T fs fs' :=
  fun name hname => h name fun hS => hname (hST hS)

theorem agrees_modify (f : Inode β α → Inode β α) : Agrees {name} fs (fs.modify name f) :=
  fun _ hother => entry_modify_of_ne f hother

theorem agrees_create [DecidableEq ν] (inode : Inode β α) : Agrees {name} fs (fs.create name inode) :=
  fun _ hother => entry_create_of_ne inode hother

theorem agrees_rename [DecidableEq ν] (old new : ν) : Agrees {old, new} fs (fs.rename old new) := by
  intro other hother
  rw [Set.mem_insert_iff, Set.mem_singleton_iff, not_or] at hother
  exact entry_rename_of_ne hother.1 hother.2

end FileSystem

end NeoZygisk.Lib
