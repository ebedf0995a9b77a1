import Mathlib.Data.List.Infix
import NeoZygisk.Lib.AddressSpace
import NeoZygisk.Lib.Intervals

/-!
# Spoofing the memory maps

`spoof_virtual_maps` replaces every mapping whose path contains a string by an anonymous copy of itself, in a process
that goes on to use them, and takes the write permission from mappings that have all three. Each of its calls may
fail, and most failures are not looked at.

`spoofVirtualMaps_spec` says what the process has mapped afterwards, for all outcomes of the calls: no byte is
changed and no address is lost, and it gives the permissions and the name of every mapping. What failures can cost is
a permission, since the copy is made without those of the original, and a copy that is left over, if it could neither
be moved nor unmapped. The process ends if the memory of an entry cannot be read.

A call that fails changes nothing, and `mmap` places a mapping where nothing is mapped.
-/

set_option autoImplicit false

namespace NeoZygisk.Injector.VirtualMaps

open NeoZygisk.Lib.AddressSpace
open NeoZygisk.Lib.Intervals

/-- What a mapping is of: a file or another mapping that has a path, or memory with the name it was given. -/
inductive Backing where
  | file (path : String)
  | anonymous (name : String)
  deriving DecidableEq, Repr

/-- The path in the line of a mapping. -/
def Backing.shown : Backing → String
  | .file path => path
  | .anonymous name => if name = "" then "" else "[anon:" ++ name ++ "]"

abbrev Mem := Space Backing

/-- An entry of `MapInfo::Scan`. -/
structure MapEntry where
  start : Nat
  stop : Nat
  perms : Prot
  backing : Backing

namespace MapEntry

def size (m : MapEntry) : Nat := m.stop - m.start

def path (m : MapEntry) : String := m.backing.shown

/-- `strstr(map.path.c_str(), path)`. -/
def contains (needle : String) (m : MapEntry) : Bool := decide (needle.toList <:+: m.path.toList)

/-- The entry has all permissions, and a path. -/
def clears (clearWritePermission : Bool) (m : MapEntry) : Bool :=
  clearWritePermission && decide (m.path ≠ "") && (m.perms.read && m.perms.write && m.perms.exec)

end MapEntry

/-- The answers to the calls about one entry: where `mmap` puts the copy, and whether the others succeed. -/
structure Outcome where
  copy : Option Nat
  readable : Bool
  moved : Bool
  unmapped : Bool
  restored : Bool
  named : Bool
  cleared : Bool

/-- Why there is no memory afterwards. -/
inductive Fault where
  /-- `memcpy` reads what cannot be read, which ends the process. -/
  | segv
  /-- The answer of `mmap` is in use, so that it is none that a kernel gives. -/
  | inUse
  deriving DecidableEq, Repr

def withoutWrite (p : Prot) : Prot := { p with write := false }

def writeOnly : Prot := ⟨false, true, false⟩

def readOnly : Prot := ⟨true, false, false⟩

/-- `PR_SET_VMA_ANON_NAME`: the kernel names anonymous memory only. -/
def Backing.setName (name : String) : Backing → Backing
  | .file path => .file path
  | .anonymous _ => .anonymous name

/-- The copy takes the place of the original, from `memcpy` to `munmap`. -/
def exchange (copy : Nat) (o : Outcome) (m : MapEntry) (mem : Mem) : Mem :=
  let mem := memcpy copy m.size mem m.start
  let mem := attempt mem o.moved (mremap m.start m.size mem copy)
  attempt mem o.unmapped (munmap copy m.size mem)

/-- The first half of an iteration. `loads` says what permissions the processor needs to read. -/
def spoof (loads : Prot → Bool) (copy : Nat) (o : Outcome) (m : MapEntry) (mem : Mem) : Except Fault Mem :=
  if (List.range m.size).all fun i => (mem (copy + i)).isNone then
    let mem := mmap copy m.size mem writeOnly (.anonymous "")
    let mem := attempt mem (!m.perms.read && o.readable) (mprotect m.start m.size mem readOnly)
    if readable m.start m.size mem loads then
      let mem := exchange copy o m mem
      let mem := attempt mem o.restored (mprotect m.start m.size mem m.perms)
      .ok (attempt mem o.named (rename m.start m.size mem (Backing.setName "dalvik-DEX data")))
    else .error .segv
  else .error .inUse

/-- An iteration. Without a copy it goes on with the next entry. -/
def iteration (loads : Prot → Bool) (needle : String) (clearWritePermission : Bool) (o : Outcome) (m : MapEntry)
    (mem : Mem) : Except Fault Mem :=
  let clear (mem : Mem) : Mem :=
    attempt mem (m.clears clearWritePermission && o.cleared) (mprotect m.start m.size mem (withoutWrite m.perms))
  if m.contains needle then
    match o.copy with
    | none => .ok mem
    | some copy => (spoof loads copy o m mem).map clear
  else .ok (clear mem)

/-- `spoof_virtual_maps`, with the answers to its calls. -/
def spoofVirtualMaps (loads : Prot → Bool) (needle : String) (clearWritePermission : Bool) :
    List (MapEntry × Outcome) → Mem → Except Fault Mem
  | [], mem => .ok mem
  | (m, o) :: rest, mem =>
      (iteration loads needle clearWritePermission o m mem).bind
        (spoofVirtualMaps loads needle clearWritePermission rest)

/-! ## What is to hold -/

/-- The entry says what is mapped. -/
def MapEntry.Describes (m : MapEntry) (mem : Mem) : Prop :=
  ∀ a, InRange m.start m.size a → ∃ byte, mem a = some ⟨byte, m.perms, m.backing⟩

/-- The entry is copied. -/
def copies (needle : String) (o : Outcome) (m : MapEntry) : Bool := m.contains needle && o.copy.isSome

/-- The permissions with which an entry is read. -/
def permsRead (o : Outcome) (m : MapEntry) : Prot := if !m.perms.read && o.readable then readOnly else m.perms

/-- The entry is copied and cannot be read. -/
def Unreadable (loads : Prot → Bool) (needle : String) (o : Outcome) (m : MapEntry) : Prop :=
  copies needle o m = true ∧ loads (permsRead o m) = false

/-- The permissions of an entry after its iteration. -/
def permsAfter (needle : String) (clearWritePermission : Bool) (o : Outcome) (m : MapEntry) : Prot :=
  if m.clears clearWritePermission && o.cleared && (copies needle o m || !m.contains needle) then withoutWrite m.perms
  else if copies needle o m && !o.restored then
    if o.moved then writeOnly else permsRead o m
  else m.perms

/-- What it is of. -/
def backingAfter (needle : String) (o : Outcome) (m : MapEntry) : Backing :=
  if copies needle o m then
    let backing := if o.moved then .anonymous "" else m.backing
    if o.named then backing.setName "dalvik-DEX data" else backing
  else m.backing

/-- Where a copy is left that could neither be moved nor unmapped. -/
def leftOver (needle : String) (o : Outcome) (m : MapEntry) : Option Nat :=
  if m.contains needle && !o.moved && !o.unmapped then o.copy else none

/-! ## One iteration -/

section Iteration

variable {loads : Prot → Bool} {m : MapEntry} {o : Outcome} {mem mem' : Mem} {copy : Nat}

/-- The permissions right after the copy took the place of the original, or did not. -/
def permsSpoofed (o : Outcome) (m : MapEntry) : Prot :=
  if o.restored then m.perms else if o.moved then writeOnly else permsRead o m

def backingSpoofed (o : Outcome) (m : MapEntry) : Backing :=
  let backing := if o.moved then .anonymous "" else m.backing
  if o.named then backing.setName "dalvik-DEX data" else backing

theorem free_of_all (h : ((List.range m.size).all fun i => (mem (copy + i)).isNone) = true) :
    Free copy m.size mem := by
  intro i hi
  exact Option.isNone_iff_eq_none.mp (List.all_eq_true.mp h i (List.mem_range.mpr hi))

/-- The memory when the entry is copied: the copy is empty, and the entry may have been made readable. -/
def prepared (copy : Nat) (o : Outcome) (m : MapEntry) (mem : Mem) : Mem :=
  let mem := mmap copy m.size mem writeOnly (.anonymous "")
  attempt mem (!m.perms.read && o.readable) (mprotect m.start m.size mem readOnly)

/-- What is free is not mapped. -/
theorem MapEntry.Describes.apart (hm : m.Describes mem) (hfree : Free copy m.size mem) {a : Nat}
    (ha : InRange m.start m.size a) : ¬ InRange copy m.size a := by
  intro hcopy
  obtain ⟨byte, hbyte⟩ := hm a ha
  rw [hfree.eq_none hcopy] at hbyte
  cases hbyte

theorem prepared_of_out {a : Nat} (ha : ¬ InRange m.start m.size a) (hout : ¬ InRange copy m.size a) :
    prepared copy o m mem a = mem a := by
  rw [prepared, attempt_of_eq (mprotect_of_out ha), mmap_of_out hout]

theorem prepared_of_copy (hm : m.Describes mem) (hfree : Free copy m.size mem) {a : Nat} (ha : InRange copy m.size a) :
    prepared copy o m mem a = some ⟨0, writeOnly, .anonymous ""⟩ := by
  have hout : ¬ InRange m.start m.size a := fun hin => hm.apart hfree hin ha
  rw [prepared, attempt_of_eq (mprotect_of_out hout), mmap_of_in ha]

theorem prepared_of_in {byte : BitVec 8} {a : Nat} (ha : InRange m.start m.size a) (hout : ¬ InRange copy m.size a)
    (hcell : mem a = some ⟨byte, m.perms, m.backing⟩) :
    prepared copy o m mem a = some ⟨byte, permsRead o m, m.backing⟩ := by
  have hmapped : mmap copy m.size mem writeOnly (.anonymous "") a = some ⟨byte, m.perms, m.backing⟩ := by
    rw [mmap_of_out hout, hcell]
  rw [prepared, permsRead]
  cases !m.perms.read && o.readable with
  | false => exact hmapped
  | true => exact (mprotect_of_in ha).trans (by rw [hmapped]; rfl)

/-- A copy can be made, its answer was none, or the entry cannot be read. -/
theorem spoof_cases (loads : Prot → Bool) (copy : Nat) (o : Outcome) (m : MapEntry) (mem : Mem) :
    spoof loads copy o m mem = .error .inUse ∨
      Free copy m.size mem ∧ readable m.start m.size (prepared copy o m mem) loads = false ∧
        spoof loads copy o m mem = .error .segv ∨
      Free copy m.size mem ∧ readable m.start m.size (prepared copy o m mem) loads = true ∧
        spoof loads copy o m mem =
          .ok (let mem := exchange copy o m (prepared copy o m mem)
            let mem := attempt mem o.restored (mprotect m.start m.size mem m.perms)
            attempt mem o.named (rename m.start m.size mem (Backing.setName "dalvik-DEX data"))) := by
  rw [spoof]
  split_ifs with hall
  · right
    cases hreadable : readable m.start m.size (prepared copy o m mem) loads with
    | false => exact .inl ⟨free_of_all hall, rfl, if_neg (by rw [← prepared, hreadable]; exact Bool.false_ne_true)⟩
    | true => exact .inr ⟨free_of_all hall, rfl, if_pos hreadable⟩
  · exact .inl rfl

/-- The entry can be read if the processor reads what has its permissions. -/
theorem readable_prepared (hm : m.Describes mem) (hfree : Free copy m.size mem) (hsize : 0 < m.size) :
    readable m.start m.size (prepared copy o m mem) loads = loads (permsRead o m) := by
  have hin : ∀ a, InRange m.start m.size a →
      ∃ byte, prepared copy o m mem a = some ⟨byte, permsRead o m, m.backing⟩ := by
    intro a ha
    obtain ⟨byte, hbyte⟩ := hm a ha
    exact ⟨byte, prepared_of_in ha (hm.apart hfree ha) hbyte⟩
  rw [Bool.eq_iff_iff]
  constructor
  · intro hreadable
    have hstart : InRange m.start m.size m.start := ⟨Nat.le_refl _, Nat.lt_add_of_pos_right hsize⟩
    obtain ⟨byte, hbyte⟩ := hin m.start hstart
    obtain ⟨c, hc, hloads⟩ := readable_of_in hreadable hstart
    obtain rfl := Option.some.inj (hbyte.symm.trans hc)
    exact hloads
  · intro hloads
    refine readable_of_forall fun a ha => ?_
    obtain ⟨byte, hbyte⟩ := hin a ha
    exact ⟨_, hbyte, hloads⟩

/-- The bytes end up where they were. -/
theorem exchange_of_in {byte : BitVec 8} {prot : Prot} {a : Nat} (ha : InRange m.start m.size a)
    (hout : ¬ InRange copy m.size a) (hcell : mem a = some ⟨byte, prot, m.backing⟩)
    (hcopy : ∀ b, InRange copy m.size b → mem b = some ⟨0, writeOnly, .anonymous ""⟩) :
    exchange copy o m mem a =
      some (if o.moved then ⟨byte, writeOnly, .anonymous ""⟩ else ⟨byte, prot, m.backing⟩) := by
  have hlow := ha.1
  have hinside : InRange copy m.size (copy + (a - m.start)) := by
    have hhigh := ha.2
    constructor
    · omega
    · omega
  have hback : m.start + (copy + (a - m.start) - copy) = a := by omega
  rw [exchange, attempt_of_eq (munmap_of_out hout)]
  cases o.moved with
  | false => exact (memcpy_of_out hout).trans hcell
  | true =>
      refine (mremap_of_in ha).trans ?_
      rw [memcpy_of_in hinside (hcopy _ hinside) (by rw [hback]; exact hcell)]
      rfl

/-- Nothing is left of the copy, or it is there with the bytes. -/
theorem exchange_of_copy {byte : BitVec 8} {prot : Prot} {i : Nat} (hi : i < m.size)
    (hapart : ¬ InRange m.start m.size (copy + i)) (hcell : mem (m.start + i) = some ⟨byte, prot, m.backing⟩)
    (hcopy : mem (copy + i) = some ⟨0, writeOnly, .anonymous ""⟩) :
    exchange copy o m mem (copy + i) =
      if o.moved || o.unmapped then none else some ⟨byte, writeOnly, .anonymous ""⟩ := by
  have hinside : InRange copy m.size (copy + i) := ⟨Nat.le_add_right copy i, Nat.add_lt_add_left hi copy⟩
  have hcopied : memcpy copy m.size mem m.start (copy + i) = some ⟨byte, writeOnly, .anonymous ""⟩ := by
    rw [memcpy_of_in hinside hcopy (by rw [Nat.add_sub_cancel_left]; exact hcell)]
  rw [exchange]
  cases o.unmapped with
  | true =>
      rw [Bool.or_true]
      exact munmap_of_in hinside
  | false =>
      rw [Bool.or_false]
      cases o.moved with
      | true => exact mremap_of_old hapart hinside
      | false => exact hcopied

theorem exchange_of_out {a : Nat} (ha : ¬ InRange m.start m.size a) (hout : ¬ InRange copy m.size a) :
    exchange copy o m mem a = mem a := by
  rw [exchange, attempt_of_eq (munmap_of_out hout), attempt_of_eq (mremap_of_out ha hout), memcpy_of_out hout]

/-- The two calls behind the exchange. -/
theorem finish_of_in {byte : BitVec 8} {prot : Prot} {backing : Backing} {a : Nat}
    (ha : InRange m.start m.size a) (hcell : mem a = some ⟨byte, prot, backing⟩) :
    attempt (attempt mem o.restored (mprotect m.start m.size mem m.perms)) o.named
        (rename m.start m.size (attempt mem o.restored (mprotect m.start m.size mem m.perms))
          (Backing.setName "dalvik-DEX data")) a =
      some ⟨byte, if o.restored then m.perms else prot,
        if o.named then backing.setName "dalvik-DEX data" else backing⟩ := by
  have hrestored : attempt mem o.restored (mprotect m.start m.size mem m.perms) a =
      some ⟨byte, if o.restored then m.perms else prot, backing⟩ := by
    cases o.restored with
    | false => exact hcell
    | true => exact (mprotect_of_in ha).trans (by rw [hcell]; rfl)
  cases o.named with
  | false => exact hrestored
  | true => exact (rename_of_in ha).trans (by rw [hrestored]; rfl)

theorem finish_of_out {a : Nat} (ha : ¬ InRange m.start m.size a) :
    attempt (attempt mem o.restored (mprotect m.start m.size mem m.perms)) o.named
        (rename m.start m.size (attempt mem o.restored (mprotect m.start m.size mem m.perms))
          (Backing.setName "dalvik-DEX data")) a = mem a := by
  rw [attempt_of_eq (rename_of_out ha), attempt_of_eq (mprotect_of_out ha)]

/-- What a step about an entry does to memory, if the entry has the permissions and the backing afterwards, and a
copy is left at `left`. -/
structure Changes (m : MapEntry) (perms : Prot) (backing : Backing) (left : Option Nat) (mem mem' : Mem) : Prop where
  outside : ∀ a, ¬ InRange m.start m.size a → (∀ copy, left = some copy → ¬ InRange copy m.size a) → mem' a = mem a
  inside : ∀ a, InRange m.start m.size a → ∃ byte,
    mem a = some ⟨byte, m.perms, m.backing⟩ ∧ mem' a = some ⟨byte, perms, backing⟩
  left : ∀ copy, left = some copy → ∀ i, i < m.size → mem (copy + i) = none ∧ ∃ byte,
    mem (m.start + i) = some ⟨byte, m.perms, m.backing⟩ ∧ mem' (copy + i) = some ⟨byte, writeOnly, .anonymous ""⟩

/-- A copy leaves the bytes of the entry, and everything around it but the copy itself. -/
theorem spoof_changes (hm : m.Describes mem) (hfree : Free copy m.size mem) :
    Changes m (permsSpoofed o m) (backingSpoofed o m) (if !o.moved && !o.unmapped then some copy else none) mem
      (let mem := exchange copy o m (prepared copy o m mem)
        let mem := attempt mem o.restored (mprotect m.start m.size mem m.perms)
        attempt mem o.named (rename m.start m.size mem (Backing.setName "dalvik-DEX data"))) := by
  have hcopy : ∀ i, i < m.size → ¬ InRange m.start m.size (copy + i) ∧ ∃ byte,
      mem (m.start + i) = some ⟨byte, m.perms, m.backing⟩ ∧
        exchange copy o m (prepared copy o m mem) (copy + i) =
          if o.moved || o.unmapped then none else some ⟨byte, writeOnly, .anonymous ""⟩ := by
    intro i hi
    have hinside : InRange copy m.size (copy + i) := ⟨Nat.le_add_right copy i, Nat.add_lt_add_left hi copy⟩
    have hentry : InRange m.start m.size (m.start + i) :=
      ⟨Nat.le_add_right m.start i, Nat.add_lt_add_left hi m.start⟩
    have hapart : ¬ InRange m.start m.size (copy + i) := fun hin => hm.apart hfree hin hinside
    obtain ⟨byte, hbyte⟩ := hm _ hentry
    exact ⟨hapart, byte, hbyte, exchange_of_copy hi hapart (prepared_of_in hentry (hm.apart hfree hentry) hbyte)
      (prepared_of_copy hm hfree hinside)⟩
  refine ⟨?_, ?_, ?_⟩
  · intro a ha hleft
    refine (finish_of_out ha).trans ?_
    by_cases hin : InRange copy m.size a
    · -- a copy that is not left
      have hindex : copy + (a - copy) = a := Nat.add_sub_cancel' hin.1
      obtain ⟨-, byte, -, hat⟩ := hcopy (a - copy) (by have := hin.1; have := hin.2; omega)
      rw [hindex] at hat
      rw [hat, hfree.eq_none hin]
      cases hmoved : o.moved || o.unmapped with
      | true => rfl
      | false =>
          rw [Bool.or_eq_false_iff] at hmoved
          rw [hmoved.1, hmoved.2] at hleft
          exact absurd hin (hleft copy rfl)
    · rw [exchange_of_out ha hin, prepared_of_out ha hin]
  · intro a ha
    obtain ⟨byte, hbyte⟩ := hm a ha
    have hout := hm.apart hfree ha
    have hexchange := exchange_of_in (o := o) ha hout (prepared_of_in (o := o) ha hout hbyte)
      fun b hb => prepared_of_copy hm hfree hb
    refine ⟨byte, hbyte, ?_⟩
    rw [permsSpoofed, backingSpoofed]
    cases hmoved : o.moved with
    | false =>
        rw [hmoved] at hexchange
        exact finish_of_in ha hexchange
    | true =>
        rw [hmoved] at hexchange
        exact finish_of_in ha hexchange
  · intro copy' hcopy' i hi
    split_ifs at hcopy' with hleft
    obtain rfl := Option.some.inj hcopy'
    rw [Bool.and_eq_true, Bool.not_eq_true', Bool.not_eq_true'] at hleft
    obtain ⟨hapart, byte, hbyte, hat⟩ := hcopy i hi
    refine ⟨hfree i hi, byte, hbyte, (finish_of_out hapart).trans ?_⟩
    rw [hat, hleft.1, hleft.2]
    rfl

/-- The last call of an iteration touches its entry only. -/
theorem Changes.clear {perms : Prot} {backing : Backing} {left : Option Nat} (h : Changes m perms backing left mem mem')
    (hapart : ∀ copy, left = some copy → ∀ i, i < m.size → ¬ InRange m.start m.size (copy + i)) (clear : Bool) :
    Changes m (if clear then withoutWrite m.perms else perms) backing left mem
      (attempt mem' clear (mprotect m.start m.size mem' (withoutWrite m.perms))) := by
  refine ⟨?_, ?_, ?_⟩
  · intro a ha hleft
    rw [attempt_of_eq (mprotect_of_out ha), h.outside a ha hleft]
  · intro a ha
    obtain ⟨byte, hbyte, hafter⟩ := h.inside a ha
    refine ⟨byte, hbyte, ?_⟩
    cases clear with
    | false => exact hafter
    | true => exact (mprotect_of_in ha).trans (by rw [hafter]; rfl)
  · intro copy hcopy i hi
    obtain ⟨hfree, byte, hbyte, hafter⟩ := h.left copy hcopy i hi
    refine ⟨hfree, byte, hbyte, ?_⟩
    rw [attempt_of_eq (mprotect_of_out (hapart copy hcopy i hi)), hafter]

/-- An entry that is left alone. -/
theorem MapEntry.Describes.changes (hm : m.Describes mem) : Changes m m.perms m.backing none mem mem where
  outside := fun _ _ _ => rfl
  inside := by
    intro a ha
    obtain ⟨byte, hbyte⟩ := hm a ha
    exact ⟨byte, hbyte, hbyte⟩
  left := by
    intro copy hcopy
    cases hcopy

/-- An iteration, for all answers to its calls. -/
theorem iteration_spec (loads : Prot → Bool) (needle : String) (clearWritePermission : Bool) (o : Outcome)
    (hm : m.Describes mem) (hsize : 0 < m.size) :
    iteration loads needle clearWritePermission o m mem = .error .inUse ∨
      Unreadable loads needle o m ∧ iteration loads needle clearWritePermission o m mem = .error .segv ∨
      ¬ Unreadable loads needle o m ∧ ∃ mem', iteration loads needle clearWritePermission o m mem = .ok mem' ∧
        Changes m (permsAfter needle clearWritePermission o m) (backingAfter needle o m) (leftOver needle o m) mem
          mem' := by
  rw [iteration]
  dsimp only
  cases hcontains : m.contains needle with
  | false =>
      have hcopies : copies needle o m = false := by rw [copies, hcontains, Bool.false_and]
      refine .inr (.inr ⟨fun h => Bool.false_ne_true (hcopies.symm.trans h.1), _, rfl, ?_⟩)
      rw [permsAfter, backingAfter, leftOver, hcopies, hcontains]
      have hclear := hm.changes.clear (by intro copy hcopy; cases hcopy) (m.clears clearWritePermission && o.cleared)
      simpa using hclear
  | true =>
      rw [if_pos rfl]
      cases hcopy : o.copy with
      | none =>
          -- no memory for a copy: the `continue` skips the last call as well
          have hcopies : copies needle o m = false := by rw [copies, hcopy, Option.isSome_none, Bool.and_false]
          refine .inr (.inr ⟨fun h => Bool.false_ne_true (hcopies.symm.trans h.1), mem, rfl, ?_⟩)
          rw [permsAfter, backingAfter, leftOver, hcopies, hcontains, hcopy, ite_self]
          simpa using hm.changes
      | some copy =>
          have hcopies : copies needle o m = true := by rw [copies, hcontains, hcopy]; rfl
          rcases spoof_cases loads copy o m mem with hspoof | ⟨hfree, hreadable, hspoof⟩ | ⟨hfree, hreadable, hspoof⟩
          · dsimp only
            rw [hspoof]
            exact .inl rfl
          · rw [readable_prepared hm hfree hsize] at hreadable
            dsimp only
            rw [hspoof]
            exact .inr (.inl ⟨⟨hcopies, hreadable⟩, rfl⟩)
          · rw [readable_prepared hm hfree hsize] at hreadable
            refine .inr (.inr ⟨fun h => Bool.false_ne_true (h.2.symm.trans hreadable), ?_⟩)
            dsimp only
            rw [hspoof]
            refine ⟨_, rfl, ?_⟩
            have hleft : leftOver needle o m = if !o.moved && !o.unmapped then some copy else none := by
              rw [leftOver, hcontains, hcopy, Bool.true_and]
            have hapart : ∀ c, (if !o.moved && !o.unmapped then some copy else none) = some c → ∀ i, i < m.size →
                ¬ InRange m.start m.size (c + i) := by
              intro c hc i hi hin
              split_ifs at hc
              obtain rfl := Option.some.inj hc
              exact hm.apart hfree hin ⟨Nat.le_add_right copy i, Nat.add_lt_add_left hi copy⟩
            have hchanges := (spoof_changes (o := o) hm hfree).clear hapart (m.clears clearWritePermission && o.cleared)
            have hperms : permsAfter needle clearWritePermission o m =
                if m.clears clearWritePermission && o.cleared then withoutWrite m.perms else permsSpoofed o m := by
              rw [permsAfter, hcopies, Bool.true_or, Bool.and_true, Bool.true_and, permsSpoofed]
              cases o.restored <;> rfl
            rw [hleft, hperms, backingAfter, hcopies]
            exact hchanges

end Iteration

/-! ## All entries -/

/-- The entries are those of a scan: they ascend, and say what is mapped. -/
structure Scanned (entries : List (MapEntry × Outcome)) (mem : Mem) : Prop where
  ascending : Ascending (fun e : MapEntry × Outcome => e.1.start) (fun e => e.1.stop) entries
  describes : ∀ e ∈ entries, e.1.Describes mem

/-- The entries are as the answers to their calls determine, and copies are left where they say; everything else is
untouched. -/
structure Spoofed (needle : String) (clearWritePermission : Bool) (entries : List (MapEntry × Outcome))
    (mem mem' : Mem) : Prop where
  outside : ∀ a, (∀ e ∈ entries, ¬ InRange e.1.start e.1.size a ∧
    ∀ copy, leftOver needle e.2 e.1 = some copy → ¬ InRange copy e.1.size a) → mem' a = mem a
  inside : ∀ e ∈ entries, ∀ a, InRange e.1.start e.1.size a → ∃ byte,
    mem a = some ⟨byte, e.1.perms, e.1.backing⟩ ∧
      mem' a = some ⟨byte, permsAfter needle clearWritePermission e.2 e.1, backingAfter needle e.2 e.1⟩
  left : ∀ e ∈ entries, ∀ copy, leftOver needle e.2 e.1 = some copy → ∀ i, i < e.1.size →
    mem (copy + i) = none ∧ ∃ byte, mem (e.1.start + i) = some ⟨byte, e.1.perms, e.1.backing⟩ ∧
      mem' (copy + i) = some ⟨byte, writeOnly, .anonymous ""⟩

section Entries

variable {needle : String} {clearWritePermission : Bool} {e : MapEntry × Outcome} {rest : List (MapEntry × Outcome)}
  {perms : Prot} {backing : Backing} {mem mem₁ mem' : Mem}

theorem Scanned.size_pos {entries : List (MapEntry × Outcome)} (h : Scanned entries mem) (he : e ∈ entries) :
    0 < e.1.size := Nat.sub_pos_of_lt (h.ascending.proper e he)

/-- An address of an entry is none of those below. -/
theorem Scanned.apart (h : Scanned (e :: rest) mem) {e' : MapEntry × Outcome} (he' : e' ∈ rest) {a : Nat}
    (ha : InRange e'.1.start e'.1.size a) : ¬ InRange e.1.start e.1.size a := by
  intro hin
  have habove := (List.pairwise_cons.mp h.ascending.apart).1 e' he'
  have hproper := h.ascending.proper e List.mem_cons_self
  have hlow := ha.1
  have hhigh := hin.2
  rw [MapEntry.size] at hhigh
  omega

/-- What was mapped outside an entry stays. -/
theorem Changes.of_mapped {m : MapEntry} {left : Option Nat} (h : Changes m perms backing left mem mem₁) {a : Nat}
    {c : Cell Backing} (hc : mem a = some c) (ha : ¬ InRange m.start m.size a) : mem₁ a = mem a := by
  refine h.outside a ha ?_
  intro copy hcopy hin
  have hindex : copy + (a - copy) = a := Nat.add_sub_cancel' hin.1
  obtain ⟨hfree, -⟩ := h.left copy hcopy (a - copy) (by have := hin.1; have := hin.2; omega)
  rw [hindex, hc] at hfree
  cases hfree

/-- Nothing is unmapped. -/
theorem Changes.none_of_none {m : MapEntry} {left : Option Nat} (h : Changes m perms backing left mem mem₁) {a : Nat}
    (ha : mem₁ a = none) : mem a = none := by
  cases hc : mem a with
  | none => rfl
  | some c =>
      have hin : ¬ InRange m.start m.size a := by
        intro hin
        obtain ⟨byte, -, hafter⟩ := h.inside a hin
        rw [ha] at hafter
        cases hafter
      rw [← hc, ← h.of_mapped hc hin, ha]

/-- The other entries are as scanned when the first one is done. -/
theorem Scanned.tail (h : Scanned (e :: rest) mem) {left : Option Nat}
    (hchanges : Changes e.1 perms backing left mem mem₁) :
    Scanned rest mem₁ where
  ascending := ⟨(List.pairwise_cons.mp h.ascending.apart).2, fun e' he' =>
    h.ascending.proper e' (List.mem_cons_of_mem e he')⟩
  describes := by
    intro e' he' a ha
    obtain ⟨byte, hbyte⟩ := h.describes e' (List.mem_cons_of_mem e he') a ha
    exact ⟨byte, (hchanges.of_mapped hbyte (h.apart he' ha)).trans hbyte⟩

/-- What is mapped outside the entries stays. -/
theorem Spoofed.of_mapped {entries : List (MapEntry × Outcome)}
    (h : Spoofed needle clearWritePermission entries mem mem') {a : Nat} {c : Cell Backing} (hc : mem a = some c)
    (ha : ∀ e ∈ entries, ¬ InRange e.1.start e.1.size a) : mem' a = mem a := by
  refine h.outside a fun e he => ⟨ha e he, ?_⟩
  intro copy hcopy hin
  have hindex : copy + (a - copy) = a := Nat.add_sub_cancel' hin.1
  obtain ⟨hfree, -⟩ := h.left e he copy hcopy (a - copy) (by have := hin.1; have := hin.2; omega)
  rw [hindex, hc] at hfree
  cases hfree

/-- The first entry, and then the others. -/
theorem Spoofed.cons (hscan : Scanned (e :: rest) mem)
    (hfirst : Changes e.1 (permsAfter needle clearWritePermission e.2 e.1) (backingAfter needle e.2 e.1)
      (leftOver needle e.2 e.1) mem mem₁)
    (hrest : Spoofed needle clearWritePermission rest mem₁ mem') :
    Spoofed needle clearWritePermission (e :: rest) mem mem' where
  outside := by
    intro a ha
    obtain ⟨hhead, htail⟩ := List.forall_mem_cons.mp ha
    rw [hrest.outside a htail, hfirst.outside a hhead.1 hhead.2]
  inside := by
    intro e' he' a ha
    rcases List.mem_cons.mp he' with rfl | he'
    · obtain ⟨byte, hbyte, hafter⟩ := hfirst.inside a ha
      refine ⟨byte, hbyte, ?_⟩
      rw [hrest.of_mapped hafter fun e'' he'' hin => hscan.apart he'' hin ha, hafter]
    · obtain ⟨byte, hbyte, hafter⟩ := hrest.inside e' he' a ha
      obtain ⟨byte', hbyte'⟩ := hscan.describes e' (List.mem_cons_of_mem e he') a ha
      have hkept := hfirst.of_mapped hbyte' (hscan.apart he' ha)
      exact ⟨byte, hkept.symm.trans hbyte, hafter⟩
  left := by
    intro e' he' copy hcopy i hi
    rcases List.mem_cons.mp he' with rfl | he'
    · obtain ⟨hfree, byte, hbyte, hafter⟩ := hfirst.left copy hcopy i hi
      refine ⟨hfree, byte, hbyte, ?_⟩
      -- the other entries were mapped before, and the copy was not
      have hout : ∀ e'' ∈ rest, ¬ InRange e''.1.start e''.1.size (copy + i) := by
        intro e'' he'' hin
        obtain ⟨byte', hbyte'⟩ := hscan.describes e'' (List.mem_cons_of_mem e' he'') _ hin
        rw [hfree] at hbyte'
        cases hbyte'
      rw [hrest.of_mapped hafter hout, hafter]
    · obtain ⟨hfree, byte, hbyte, hafter⟩ := hrest.left e' he' copy hcopy i hi
      have hentry : InRange e'.1.start e'.1.size (e'.1.start + i) :=
        ⟨Nat.le_add_right e'.1.start i, Nat.add_lt_add_left hi e'.1.start⟩
      obtain ⟨byte', hbyte'⟩ := hscan.describes e' (List.mem_cons_of_mem e he') _ hentry
      have hkept := hfirst.of_mapped hbyte' (hscan.apart he' hentry)
      exact ⟨hfirst.none_of_none hfree, byte, hkept.symm.trans hbyte, hafter⟩

end Entries

/-- For all answers to the calls that a kernel gives: the process ends if an entry that is copied cannot be read, and
otherwise every address of an entry has its byte still, with the permissions and the backing that the answers
determine, and what is outside is untouched but for copies that could neither be moved nor unmapped. -/
theorem spoofVirtualMaps_spec {loads : Prot → Bool} {needle : String} {clearWritePermission : Bool}
    {entries : List (MapEntry × Outcome)} {mem : Mem} (hscan : Scanned entries mem)
    (hanswers : spoofVirtualMaps loads needle clearWritePermission entries mem ≠ .error .inUse) :
    (∃ e ∈ entries, Unreadable loads needle e.2 e.1) ∧
        spoofVirtualMaps loads needle clearWritePermission entries mem = .error .segv ∨
      (∀ e ∈ entries, ¬ Unreadable loads needle e.2 e.1) ∧ ∃ mem',
        spoofVirtualMaps loads needle clearWritePermission entries mem = .ok mem' ∧
          Spoofed needle clearWritePermission entries mem mem' := by
  induction entries generalizing mem with
  | nil =>
      refine .inr ⟨fun e he => absurd he List.not_mem_nil, mem, rfl, fun _ _ => rfl, ?_, ?_⟩
      · intro e he
        exact absurd he List.not_mem_nil
      · intro e he
        exact absurd he List.not_mem_nil
  | cons e rest ih =>
      have hstep : spoofVirtualMaps loads needle clearWritePermission (e :: rest) mem =
          (iteration loads needle clearWritePermission e.2 e.1 mem).bind
            (spoofVirtualMaps loads needle clearWritePermission rest) := rfl
      rw [hstep] at hanswers ⊢
      rcases iteration_spec loads needle clearWritePermission e.2 (hscan.describes e List.mem_cons_self)
        (hscan.size_pos List.mem_cons_self) with hinUse | ⟨hunreadable, hsegv⟩ | ⟨hreadable, mem₁, hok, hchanges⟩
      · rw [hinUse] at hanswers
        exact absurd rfl hanswers
      · rw [hsegv]
        exact .inl ⟨⟨e, List.mem_cons_self, hunreadable⟩, rfl⟩
      · rw [hok] at hanswers ⊢
        rcases ih (hscan.tail hchanges) hanswers with ⟨⟨e', he', hunreadable⟩, hsegv⟩ | ⟨hothers, mem', hrest, hspoofed⟩
        · exact .inl ⟨⟨e', List.mem_cons_of_mem e he', hunreadable⟩, hsegv⟩
        · exact .inr ⟨List.forall_mem_cons.mpr ⟨hreadable, hothers⟩, mem', hrest, hspoofed.cons hscan hchanges⟩

/-- A module's library, memory with all permissions behind it, and memory of the module that is not readable and whose
copy can neither be moved nor unmapped. -/
def moduleMaps : List (MapEntry × Outcome) :=
  [(⟨4096, 4098, ⟨true, false, true⟩, .file "/memfd:zygisk-module (deleted)"⟩,
      ⟨some 8192, true, true, true, true, true, true⟩),
    (⟨4098, 4099, ⟨true, true, true⟩, .anonymous "jit"⟩, ⟨none, true, true, true, true, true, true⟩),
    (⟨4099, 4100, ⟨false, true, false⟩, .anonymous "zygisk-module heap"⟩,
      ⟨some 8192, true, false, false, true, true, true⟩)]

def moduleMemory : Mem := fun a =>
  if a = 4096 then some ⟨0x7f, ⟨true, false, true⟩, .file "/memfd:zygisk-module (deleted)"⟩
  else if a = 4097 then some ⟨0x45, ⟨true, false, true⟩, .file "/memfd:zygisk-module (deleted)"⟩
  else if a = 4098 then some ⟨0xc3, ⟨true, true, true⟩, .anonymous "jit"⟩
  else if a = 4099 then some ⟨0x2a, ⟨false, true, false⟩, .anonymous "zygisk-module heap"⟩
  else none

theorem scanned_moduleMaps : Scanned moduleMaps moduleMemory where
  ascending := ⟨by decide, by decide⟩
  describes := by
    have hdescribes : ∀ e ∈ moduleMaps, ∀ i < e.1.size,
        (moduleMemory (e.1.start + i)).map (fun c => (c.prot, c.backing)) = some (e.1.perms, e.1.backing) := by decide
    intro e he a ha
    have hat := hdescribes e he (a - e.1.start) (by have := ha.1; have := ha.2; omega)
    rw [Nat.add_sub_cancel' ha.1] at hat
    obtain ⟨c, hc, hcell⟩ := Option.map_eq_some_iff.mp hat
    obtain ⟨hprot, hbacking⟩ := Prod.mk.inj hcell
    exact ⟨c.byte, by rw [hc, ← hprot, ← hbacking]⟩

/-- The library is replaced, the other memory loses a permission, and the copy that is left has the byte. -/
theorem spoofVirtualMaps_spec_module :
    ∃ mem', spoofVirtualMaps Prot.read "zygisk-module" true moduleMaps moduleMemory = .ok mem' ∧
      mem' 4097 = some ⟨0x45, ⟨true, false, true⟩, .anonymous "dalvik-DEX data"⟩ ∧
        mem' 4098 = some ⟨0xc3, ⟨true, false, true⟩, .anonymous "jit"⟩ ∧
          mem' 4099 = some ⟨0x2a, ⟨false, true, false⟩, .anonymous "dalvik-DEX data"⟩ ∧
            mem' 8192 = some ⟨0x2a, writeOnly, .anonymous ""⟩ := by
  have hok : (spoofVirtualMaps Prot.read "zygisk-module" true moduleMaps moduleMemory).toBool = true := by decide
  have hanswers : spoofVirtualMaps Prot.read "zygisk-module" true moduleMaps moduleMemory ≠ .error .inUse := by
    intro hinUse
    rw [hinUse] at hok
    cases hok
  rcases spoofVirtualMaps_spec scanned_moduleMaps hanswers with ⟨-, hsegv⟩ | ⟨-, mem', hrun, hspoofed⟩
  · rw [hsegv] at hok
    cases hok
  · -- the byte of an entry at an address, from what is mapped there before
    have hbyte : ∀ {byte byte' : BitVec 8} {prot : Prot} {backing : Backing},
        some (Cell.mk byte prot backing) = some ⟨byte', prot, backing⟩ → byte = byte' :=
      fun h => congrArg Cell.byte (Option.some.inj h)
    have hlibrary : moduleMaps[0] ∈ moduleMaps := List.getElem_mem _
    have hjit : moduleMaps[1] ∈ moduleMaps := List.getElem_mem _
    have hheap : moduleMaps[2] ∈ moduleMaps := List.getElem_mem _
    obtain ⟨b₁, hb₁, h₁⟩ := hspoofed.inside _ hlibrary 4097 (by decide)
    obtain ⟨b₂, hb₂, h₂⟩ := hspoofed.inside _ hjit 4098 (by decide)
    obtain ⟨b₃, hb₃, h₃⟩ := hspoofed.inside _ hheap 4099 (by decide)
    obtain ⟨-, b₄, hb₄, h₄⟩ := hspoofed.left _ hheap 8192 (by decide) 0 (by decide)
    obtain rfl : 0x45 = b₁ := hbyte hb₁
    obtain rfl : 0xc3 = b₂ := hbyte hb₂
    obtain rfl : 0x2a = b₃ := hbyte hb₃
    obtain rfl : 0x2a = b₄ := hbyte hb₄
    exact ⟨mem', hrun, h₁, h₂, h₃, h₄⟩

end NeoZygisk.Injector.VirtualMaps
