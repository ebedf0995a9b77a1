import Mathlib.Data.List.Basic

/-!
# Byte streams with attachments

A stream socket carries bytes, and some of the bytes have an object attached, such as a descriptor. A call of
`read` may be interrupted or return fewer bytes than were asked for (`Answer`); objects attached to bytes that
are read as plain data are lost. `take_plain_append` and `drop_plain_append` split a stream behind what was
written first.
-/

set_option autoImplicit false

namespace NeoZygisk.Lib.Stream

universe u

/-- One byte of a stream with what is attached to it. -/
structure Cell (α : Type u) where
  byte : BitVec 8
  attached : Option α

variable {α : Type u}

/-- Bytes as they are written. -/
def plain (bytes : List (BitVec 8)) : List (Cell α) := bytes.map fun b => ⟨b, none⟩

/-- Bytes sent in one message with an object, which comes with the first of them. -/
def message (bytes : List (BitVec 8)) (object : α) : List (Cell α) :=
  match bytes with
  | [] => []
  | b :: rest => ⟨b, some object⟩ :: plain rest

/-- How the system answers a `read`: not at all because of a signal, or with some bytes. -/
inductive Answer where
  | interrupted
  | upTo (n : Nat)
  deriving DecidableEq, Repr

/-- The bytes a `read` of `count` returns when it is answered with `n`: at least one if there is one. -/
def readSize (n count : Nat) (s : List (Cell α)) : Nat := min (max n 1) (min count s.length)

def bytes (s : List (Cell α)) : List (BitVec 8) := s.map Cell.byte

@[simp] theorem length_plain (bs : List (BitVec 8)) : (plain bs : List (Cell α)).length = bs.length :=
  List.length_map ..

@[simp] theorem bytes_plain (bs : List (BitVec 8)) : bytes (plain bs : List (Cell α)) = bs := by
  induction bs with
  | nil => rfl
  | cons b bs ih => exact congrArg (b :: ·) ih

theorem take_plain_append (bs : List (BitVec 8)) (rest : List (Cell α)) :
    bytes ((plain bs ++ rest).take bs.length) = bs := by
  rw [List.take_left' (length_plain bs), bytes_plain]

theorem drop_plain_append (bs : List (BitVec 8)) (rest : List (Cell α)) :
    (plain bs ++ rest).drop bs.length = rest := List.drop_left' (length_plain bs)

/-- What two reads return is what one read returns. -/
theorem bytes_take_append {k n : Nat} (h : k ≤ n) (s : List (Cell α)) :
    bytes (s.take k) ++ bytes ((s.drop k).take (n - k)) = bytes (s.take n) := by
  rw [bytes, bytes, bytes, ← List.map_append, ← List.take_add, Nat.add_sub_cancel' h]

theorem length_message (bs : List (BitVec 8)) (object : α) : (message bs object).length = bs.length := by
  cases bs with
  | nil => rfl
  | cons b bs => exact congrArg Nat.succ (length_plain bs)

end NeoZygisk.Lib.Stream
