import Mathlib.Logic.Function.Basic

/-!
# Shared mutable objects

A heap of objects of one type. Objects are named by numbers handed out in order, so that a name below
`next` keeps its object when another one is allocated (`get_alloc_of_lt`), and an update touches one
object only (`get_modify_of_ne`).
-/

set_option autoImplicit false

namespace NeoZygisk.Lib

universe u

/-- Objects by name; names from `next` on are free. -/
structure Heap (α : Type u) where
  get : Nat → α
  next : Nat

namespace Heap

variable {α : Type u}

/-- A new object; its name is `h.next`. -/
def alloc (h : Heap α) (a : α) : Heap α where
  get := Function.update h.get h.next a
  next := h.next + 1

/-- Change one object in place. -/
def modify (h : Heap α) (k : Nat) (f : α → α) : Heap α where
  get := Function.update h.get k (f (h.get k))
  next := h.next

@[simp] theorem next_alloc (h : Heap α) (a : α) : (h.alloc a).next = h.next + 1 := rfl

@[simp] theorem next_modify (h : Heap α) (k : Nat) (f : α → α) : (h.modify k f).next = h.next := rfl

@[simp] theorem get_alloc_self (h : Heap α) (a : α) : (h.alloc a).get h.next = a :=
  Function.update_self ..

theorem get_alloc_of_lt (h : Heap α) (a : α) {k : Nat} (hk : k < h.next) :
    (h.alloc a).get k = h.get k :=
  Function.update_of_ne (Nat.ne_of_lt hk) ..

@[simp] theorem get_modify_self (h : Heap α) (k : Nat) (f : α → α) :
    (h.modify k f).get k = f (h.get k) :=
  Function.update_self ..

theorem get_modify_of_ne (h : Heap α) {k j : Nat} (f : α → α) (hj : j ≠ k) :
    (h.modify k f).get j = h.get j :=
  Function.update_of_ne hj ..

end Heap

end NeoZygisk.Lib
