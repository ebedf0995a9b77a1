import Mathlib.Algebra.BigOperators.Group.List.Basic
import Mathlib.Data.List.Pairwise
import Mathlib.Algebra.GroupWithZero.Nat

/-!
# Disjoint intervals

Entries with half-open intervals `[lo a, hi a)` of numbers, none of them empty, listed from below to above.
Entries of such a list are equal or apart (`Ascending.eq_or_apart`), and those between two points do not fill
more than the distance (`Ascending.add_total_le`). A selection of them is taken apart at a point (`total_split`).
-/

set_option autoImplicit false

namespace NeoZygisk.Lib.Intervals

universe u

variable {α : Type u}

/-- The intervals ascend and are not empty. -/
structure Ascending (lo hi : α → Nat) (l : List α) : Prop where
  apart : l.Pairwise fun a b => hi a ≤ lo b
  proper : ∀ a ∈ l, lo a < hi a

/-- The sum of the lengths. -/
def total (lo hi : α → Nat) (l : List α) : Nat := (l.map fun a => hi a - lo a).sum

variable {lo hi : α → Nat} {l : List α}

theorem Ascending.filter (h : Ascending lo hi l) (p : α → Bool) : Ascending lo hi (l.filter p) where
  apart := h.apart.filter p
  proper := fun a ha => h.proper a (List.mem_of_mem_filter ha)

/-- Two entries are equal, or one lies below the other. -/
theorem Ascending.eq_or_apart (h : Ascending lo hi l) {a b : α} (ha : a ∈ l) (hb : b ∈ l) :
    a = b ∨ hi a ≤ lo b ∨ hi b ≤ lo a := by
  induction l with
  | nil => cases ha
  | cons c l ih =>
      obtain ⟨hhead, htail⟩ := List.pairwise_cons.mp h.apart
      rcases List.mem_cons.mp ha with rfl | ha'
      · rcases List.mem_cons.mp hb with rfl | hb'
        · exact .inl rfl
        · exact .inr (.inl (hhead b hb'))
      · rcases List.mem_cons.mp hb with rfl | hb'
        · exact .inr (.inr (hhead a ha'))
        · exact ih ⟨htail, fun a ha => h.proper a (List.mem_cons_of_mem c ha)⟩ ha' hb'

/-- The entries between two points do not fill more than the distance. -/
theorem Ascending.add_total_le (h : Ascending lo hi l) {x y : Nat} (hxy : x ≤ y)
    (hlo : ∀ a ∈ l, x ≤ lo a) (hhi : ∀ a ∈ l, hi a ≤ y) : x + total lo hi l ≤ y := by
  induction l generalizing x with
  | nil => exact hxy
  | cons a l ih =>
      obtain ⟨hhead, htail⟩ := List.pairwise_cons.mp h.apart
      have hxa := hlo a List.mem_cons_self
      have hay := hhi a List.mem_cons_self
      have hproper := h.proper a List.mem_cons_self
      -- the rest lies between the end of `a` and `y`
      have hrest := ih ⟨htail, fun b hb => h.proper b (List.mem_cons_of_mem a hb)⟩ hay hhead
        fun b hb => hhi b (List.mem_cons_of_mem a hb)
      rw [total, List.map_cons, List.sum_cons]
      rw [total] at hrest
      omega

/-- The entries are those that meet `p` and those that do not. -/
theorem total_split (p : α → Bool) (l : List α) :
    total lo hi l = total lo hi (l.filter p) + total lo hi (l.filter fun a => !p a) := by
  induction l with
  | nil => rfl
  | cons a l ih =>
      simp only [total] at ih
      cases hp : p a <;>
        simp only [total, List.filter_cons, hp, Bool.not_true, Bool.not_false, Bool.false_eq_true, ↓reduceIte,
          List.map_cons, List.sum_cons, ih] <;>
        omega

end NeoZygisk.Lib.Intervals
