import Mathlib.Data.Nat.Notation

/-!
# Address spaces

What a process has mapped, address by address, and the calls that change it: `mmap`, `munmap`, `mprotect`, `mremap`
to a fixed address, and a copy. Every call is about a range and leaves the rest alone; the lemmas say what an address
holds afterwards, inside and outside.
-/

set_option autoImplicit false

namespace NeoZygisk.Lib.AddressSpace

universe u

structure Prot where
  read : Bool
  write : Bool
  exec : Bool
  deriving DecidableEq, Repr

/-- A mapped address. `β` says what a mapping is of. -/
structure Cell (β : Type u) where
  byte : BitVec 8
  prot : Prot
  backing : β

abbrev Space (β : Type u) : Type u := ℕ → Option (Cell β)

def InRange (start size a : ℕ) : Prop := start ≤ a ∧ a < start + size

instance (start size a : ℕ) : Decidable (InRange start size a) := inferInstanceAs (Decidable (_ ∧ _))

section Calls

variable {β : Type u} (start size : ℕ) (mem : Space β)

/-- Nothing is mapped in the range. -/
def Free : Prop := ∀ i < size, mem (start + i) = none

/-- Every address of the range can be read. `loads` says what permissions a load needs. -/
def readable (loads : Prot → Bool) : Bool := (List.range size).all fun i => (mem (start + i)).any fun c => loads c.prot

/-- An anonymous mapping, filled with zeros. -/
def mmap (prot : Prot) (backing : β) : Space β :=
  fun a => if InRange start size a then some ⟨0, prot, backing⟩ else mem a

def munmap : Space β := fun a => if InRange start size a then none else mem a

def mprotect (prot : Prot) : Space β :=
  fun a => if InRange start size a then (mem a).map fun c => { c with prot := prot } else mem a

/-- What the mapping is of changes. -/
def rename (f : β → β) : Space β :=
  fun a => if InRange start size a then (mem a).map fun c => { c with backing := f c.backing } else mem a

/-- The bytes from `src` on, to the range. -/
def memcpy (src : ℕ) : Space β :=
  fun a =>
    if InRange start size a then (mem a).map fun c => { c with byte := (mem (src + (a - start))).elim c.byte Cell.byte }
    else mem a

/-- The mapping at `old` replaces what is in the range. -/
def mremap (old : ℕ) : Space β :=
  fun a =>
    if InRange start size a then mem (old + (a - start)) else if InRange old size a then none else mem a

/-- A call that fails changes nothing. -/
def attempt (ok : Bool) (after : Space β) : Space β := if ok then after else mem

end Calls

section Lemmas

variable {β : Type u} {start size a : ℕ} {mem : Space β} {prot : Prot} {backing : β} {src old : ℕ} {f : β → β}

theorem Free.eq_none (h : Free start size mem) (ha : InRange start size a) : mem a = none := by
  have hat := h (a - start) (by have := ha.1; have := ha.2; omega)
  rwa [Nat.add_sub_cancel' ha.1] at hat

theorem readable_of_in {loads : Prot → Bool} (h : readable start size mem loads = true) (ha : InRange start size a) :
    ∃ c, mem a = some c ∧ loads c.prot = true := by
  have hat := List.all_eq_true.mp h (a - start) (List.mem_range.mpr (by have := ha.1; have := ha.2; omega))
  rw [Nat.add_sub_cancel' ha.1] at hat
  cases hmem : mem a with
  | none =>
      rw [hmem] at hat
      cases hat
  | some c =>
      rw [hmem] at hat
      exact ⟨c, rfl, hat⟩

theorem readable_of_forall {loads : Prot → Bool}
    (h : ∀ a, InRange start size a → ∃ c, mem a = some c ∧ loads c.prot = true) :
    readable start size mem loads = true := by
  apply List.all_eq_true.mpr
  intro i hi
  obtain ⟨c, hc, hloads⟩ := h (start + i) ⟨Nat.le_add_right start i, Nat.add_lt_add_left (List.mem_range.mp hi) start⟩
  rw [hc]
  exact hloads

theorem mmap_of_in (h : InRange start size a) : mmap start size mem prot backing a = some ⟨0, prot, backing⟩ :=
  if_pos h

theorem mmap_of_out (h : ¬ InRange start size a) : mmap start size mem prot backing a = mem a := if_neg h

theorem munmap_of_in (h : InRange start size a) : munmap start size mem a = none := if_pos h

theorem munmap_of_out (h : ¬ InRange start size a) : munmap start size mem a = mem a := if_neg h

theorem mprotect_of_in (h : InRange start size a) :
    mprotect start size mem prot a = (mem a).map fun c => { c with prot := prot } := if_pos h

theorem mprotect_of_out (h : ¬ InRange start size a) : mprotect start size mem prot a = mem a := if_neg h

theorem rename_of_in (h : InRange start size a) :
    rename start size mem f a = (mem a).map fun c => { c with backing := f c.backing } := if_pos h

theorem rename_of_out (h : ¬ InRange start size a) : rename start size mem f a = mem a := if_neg h

theorem memcpy_of_in (h : InRange start size a) {c d : Cell β} (hc : mem a = some c)
    (hd : mem (src + (a - start)) = some d) : memcpy start size mem src a = some { c with byte := d.byte } := by
  rw [memcpy, if_pos h, hc, hd]
  rfl

theorem memcpy_of_out (h : ¬ InRange start size a) : memcpy start size mem src a = mem a := if_neg h

theorem mremap_of_in (h : InRange start size a) : mremap start size mem old a = mem (old + (a - start)) := if_pos h

theorem mremap_of_out (h : ¬ InRange start size a) (hold : ¬ InRange old size a) :
    mremap start size mem old a = mem a := by
  rw [mremap, if_neg h, if_neg hold]

/-- Nothing is left where the mapping was. -/
theorem mremap_of_old (h : ¬ InRange start size a) (hold : InRange old size a) :
    mremap start size mem old a = none := by
  rw [mremap, if_neg h, if_pos hold]

theorem attempt_of_eq {ok : Bool} {after : Space β} (h : after a = mem a) : attempt mem ok after a = mem a := by
  cases ok with
  | false => rfl
  | true => exact h

end Lemmas

end NeoZygisk.Lib.AddressSpace
