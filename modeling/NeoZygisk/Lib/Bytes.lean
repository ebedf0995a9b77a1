import Mathlib.Tactic.Ring
import Mathlib.Data.List.Basic

/-!
# Byte-addressed memory

Memory over `w`-bit addresses, with writes of any number of bytes and little-endian words. Addresses
wrap around. `readWord_write_toBytes` is the law the writes of whole words go by, `read_write_slice` the one
for a part of a longer write; a write changes only the bytes it covers (`write_of_le`).

A buffer is a list of bytes that can be resized, written from its start, and read by words. What is read from
it depends on the bytes up to there (`wordAt_eq_of_take`).
-/

set_option autoImplicit false

namespace NeoZygisk.Lib.Bytes

variable {w : Nat}

/-- The `n` low bytes of a number, least significant first. -/
def toBytes : Nat → Nat → List (BitVec 8)
  | 0, _ => []
  | n + 1, v => BitVec.ofNat 8 v :: toBytes n (v / 256)

/-- The number with the given bytes, least significant first. -/
def ofBytes : List (BitVec 8) → Nat
  | [] => 0
  | b :: bs => b.toNat + 256 * ofBytes bs

/-- The bytes of a literal. -/
def ascii (s : String) : List (BitVec 8) := s.toList.map fun c => BitVec.ofNat 8 c.toNat

/-- The bytes of a text of the source. -/
def utf8 (s : String) : List (BitVec 8) := s.toUTF8.data.toList.map UInt8.toBitVec

@[simp] theorem length_toBytes (n v : Nat) : (toBytes n v).length = n := by
  induction n generalizing v with
  | zero => rfl
  | succ n ih => simp only [toBytes, List.length_cons, ih]

theorem ofBytes_toBytes (n v : Nat) : ofBytes (toBytes n v) = v % 256 ^ n := by
  induction n generalizing v with
  | zero => simp only [toBytes, ofBytes, pow_zero, Nat.mod_one]
  | succ n ih =>
      rw [toBytes, ofBytes, ih, BitVec.toNat_ofNat, pow_succ' 256 n, Nat.mod_mul]

/-- The low bytes come first. -/
theorem toBytes_add (m n v : Nat) : toBytes (m + n) v = toBytes m v ++ toBytes n (v / 256 ^ m) := by
  induction m generalizing v with
  | zero => rw [Nat.zero_add, pow_zero, Nat.div_one, toBytes, List.nil_append]
  | succ m ih =>
      rw [Nat.add_right_comm, toBytes, toBytes, ih, Nat.div_div_eq_div_mul, ← pow_succ', List.cons_append]

section Records

-- elements that take up `n` bytes each
variable {α β : Type} {f : α → List β} {n : Nat}

theorem length_flatMap_of_length (hf : ∀ a, (f a).length = n) (l : List α) :
    (l.flatMap f).length = l.length * n := by
  rw [List.length_flatMap, List.map_congr_left fun a _ => hf a, List.map_const', List.sum_replicate_nat]

/-- Where an element stands among the others. -/
theorem exists_flatMap_eq (hf : ∀ a, (f a).length = n) (l : List α) {i : Nat} (hi : i < l.length) :
    ∃ before behind, l.flatMap f = before ++ (f l[i] ++ behind) ∧ before.length = i * n := by
  refine ⟨(l.take i).flatMap f, (l.drop (i + 1)).flatMap f, ?_, ?_⟩
  · rw [← List.flatMap_cons, ← List.drop_eq_getElem_cons hi, ← List.flatMap_append, List.take_append_drop]
  · rw [length_flatMap_of_length hf, List.length_take, Nat.min_eq_left (Nat.le_of_lt hi)]

end Records

/-- A memory gives every address its byte. -/
abbrev Memory (w : Nat) := BitVec w → BitVec 8

namespace Memory

/-- Writes the bytes from `addr` on. -/
def write (mem : Memory w) (addr : BitVec w) (bytes : List (BitVec 8)) : Memory w :=
  fun a => bytes[(a - addr).toNat]?.getD (mem a)

/-- The `n` bytes from `addr` on. -/
def read (mem : Memory w) (addr : BitVec w) (n : Nat) : List (BitVec 8) :=
  (List.range n).map fun i => mem (addr + BitVec.ofNat w i)

/-- The word of `n` bytes at `addr`. -/
def readWord (mem : Memory w) (addr : BitVec w) (n : Nat) : Nat := ofBytes (mem.read addr n)

theorem read_write_self (mem : Memory w) (addr : BitVec w) (bytes : List (BitVec 8))
    (h : bytes.length ≤ 2 ^ w) : (mem.write addr bytes).read addr bytes.length = bytes := by
  apply List.ext_getElem
  · simp only [read, List.length_map, List.length_range]
  · intro i hi hbytes
    have hlt : i < 2 ^ w := lt_of_lt_of_le hbytes h
    have hoffset : (addr + BitVec.ofNat w i - addr).toNat = i := by
      rw [BitVec.add_comm, BitVec.add_sub_cancel, BitVec.toNat_ofNat, Nat.mod_eq_of_lt hlt]
    simp only [read, List.getElem_map, List.getElem_range, write, hoffset,
      List.getElem?_eq_getElem hbytes, Option.getD_some]

/-- A write leaves what lies outside of it. -/
theorem write_of_le (mem : Memory w) {addr a : BitVec w} {bytes : List (BitVec 8)}
    (h : bytes.length ≤ (a - addr).toNat) : mem.write addr bytes a = mem a := by
  rw [write, List.getElem?_eq_none h, Option.getD_none]

/-- A write that ends below an address leaves it. -/
theorem write_of_above (mem : Memory w) {addr a : BitVec w} {bytes : List (BitVec 8)}
    (h : addr.toNat + bytes.length ≤ a.toNat) : mem.write addr bytes a = mem a := by
  apply write_of_le
  rw [BitVec.toNat_sub_of_le (BitVec.le_def.mpr (by omega))]
  omega

/-- Two writes next to each other are one. -/
theorem write_write_append (mem : Memory w) (addr : BitVec w) (front back : List (BitVec 8)) :
    (mem.write (addr + BitVec.ofNat w front.length) back).write addr front =
      mem.write addr (front ++ back) := by
  funext a
  by_cases h : (a - addr).toNat < front.length
  · simp only [write, List.getElem?_append_left h, List.getElem?_eq_getElem h, Option.getD_some]
  · have hle : front.length ≤ (a - addr).toNat := Nat.le_of_not_lt h
    have hlength : (BitVec.ofNat w front.length).toNat = front.length :=
      BitVec.toNat_ofNat _ _ ▸ Nat.mod_eq_of_lt (lt_of_le_of_lt hle (a - addr).isLt)
    have hoffset : (a - (addr + BitVec.ofNat w front.length)).toNat =
        (a - addr).toNat - front.length := by
      rw [← BitVec.sub_sub, BitVec.toNat_sub_of_le (BitVec.le_def.mpr (by omega)), hlength]
    rw [write_of_le _ hle]
    simp only [write, hoffset, List.getElem?_append_right hle]

/-- Part of what was written reads back. -/
theorem read_write_slice (mem : Memory w) (addr : BitVec w) (bytes : List (BitVec 8)) {i n : Nat}
    (h : i + n ≤ bytes.length) (hw : bytes.length ≤ 2 ^ w) :
    (mem.write addr bytes).read (addr + BitVec.ofNat w i) n = (bytes.drop i).take n := by
  have hlength : ((bytes.drop i).take n).length = n := by
    rw [List.length_take, List.length_drop]
    omega
  apply List.ext_getElem
  · simp only [read, List.length_map, List.length_range, hlength]
  · intro j hj hslice
    rw [hlength] at hslice
    have hoffset : (addr + BitVec.ofNat w i + BitVec.ofNat w j - addr).toNat = i + j := by
      rw [BitVec.add_assoc, ← BitVec.ofNat_add, BitVec.add_comm, BitVec.add_sub_cancel,
        BitVec.toNat_ofNat, Nat.mod_eq_of_lt (by omega)]
    have hbytes : i + j < bytes.length := by omega
    simp only [read, List.getElem_map, List.getElem_range, write, hoffset,
      List.getElem?_eq_getElem hbytes, Option.getD_some, List.getElem_take, List.getElem_drop]

theorem readWord_write_toBytes (mem : Memory w) (addr : BitVec w) (n v : Nat) (h : n ≤ 2 ^ w) :
    (mem.write addr (toBytes n v)).readWord addr n = v % 256 ^ n := by
  have hread := read_write_self mem addr (toBytes n v) (by rwa [length_toBytes])
  rw [length_toBytes] at hread
  rw [readWord, hread, ofBytes_toBytes]

end Memory

/-! ## Buffers -/

section Buffer

variable {bytes buf buf' : List (BitVec 8)} {i n : Nat}

/-- The buffer with `n` bytes: the first ones are kept, new ones are zero. -/
def resize (n : Nat) (buf : List (BitVec 8)) : List (BitVec 8) :=
  buf.take n ++ List.replicate (n - buf.length) 0

/-- Writes the bytes from the start of the buffer on. -/
def store (bytes buf : List (BitVec 8)) : List (BitVec 8) := bytes ++ buf.drop bytes.length

/-- The four bytes from `i` on as an unsigned word. -/
def wordAt (i : Nat) (buf : List (BitVec 8)) : Nat := ofBytes ((buf.drop i).take 4)

/-- The four bytes from `i` on as a signed word. -/
def intAt (i : Nat) (buf : List (BitVec 8)) : Int := (BitVec.ofNat 32 (wordAt i buf)).toInt

theorem length_resize (n : Nat) (buf : List (BitVec 8)) : (resize n buf).length = n := by
  rw [resize, List.length_append, List.length_take, List.length_replicate]
  omega

theorem store_of_length_le (h : buf.length ≤ bytes.length) : store bytes buf = bytes := by
  rw [store, List.drop_eq_nil_of_le h, List.append_nil]

theorem take_store (h : n ≤ bytes.length) : (store bytes buf).take n = bytes.take n :=
  List.take_append_of_le_length h

theorem wordAt_eq_of_take (h : buf.take (i + 4) = buf'.take (i + 4)) : wordAt i buf = wordAt i buf' := by
  have hdrop := congrArg (List.drop i) h
  rw [List.drop_take, List.drop_take, Nat.add_sub_cancel_left] at hdrop
  rw [wordAt, wordAt, hdrop]

theorem intAt_eq_of_take (h : buf.take (i + 4) = buf'.take (i + 4)) : intAt i buf = intAt i buf' := by
  rw [intAt, intAt, wordAt_eq_of_take h]

/-- A word is read back from where it was written. -/
theorem wordAt_append_toBytes (pre rest : List (BitVec 8)) (v : Nat) (h : pre.length = i) :
    wordAt i (pre ++ (toBytes 4 v ++ rest)) = v % 2 ^ 32 := by
  have htake : (toBytes 4 v ++ rest).take 4 = toBytes 4 v := by
    rw [List.take_append_of_le_length (length_toBytes 4 v).ge]
    exact List.take_of_length_le (length_toBytes 4 v).le
  rw [wordAt, ← h, List.drop_left, htake, ofBytes_toBytes]
  rfl

theorem intAt_append_toBytes (pre rest : List (BitVec 8)) (v : Nat) (h : pre.length = i) :
    intAt i (pre ++ (toBytes 4 v ++ rest)) = (BitVec.ofNat 32 v).toInt := by
  have hmod : BitVec.ofNat 32 (v % 2 ^ 32) = BitVec.ofNat 32 v := by
    apply BitVec.eq_of_toNat_eq
    rw [BitVec.toNat_ofNat, BitVec.toNat_ofNat, Nat.mod_mod]
  rw [intAt, wordAt_append_toBytes pre rest v h, hmod]

theorem neg_two_pow_le_intAt (i : Nat) (buf : List (BitVec 8)) : -2 ^ 31 ≤ intAt i buf :=
  BitVec.le_toInt _

theorem intAt_lt_two_pow (i : Nat) (buf : List (BitVec 8)) : intAt i buf < 2 ^ 31 :=
  BitVec.toInt_lt

end Buffer

end NeoZygisk.Lib.Bytes
