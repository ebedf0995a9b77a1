import Mathlib.Logic.Function.Basic
import Mathlib.Tactic.SplitIfs

/-!
# Sequences of assignments

`assign f l` is the table `f` after the assignments of `l`, made in order. A key has the last of the values
that `l` assigns to it (`assign_last`; `assign_eq` where there is only one), and assigning every key of `l`
the value it had in `f` undoes the sequence, even where a key is assigned to more than once (`assign_undo`).
-/

set_option autoImplicit false

namespace NeoZygisk.Lib

universe u v

variable {κ : Type u} {α : Type v} [DecidableEq κ]

/-- The table after the assignments of the list. -/
def assign (f : κ → α) : List (κ × α) → κ → α
  | [] => f
  | (k, a) :: l => assign (Function.update f k a) l

variable {f : κ → α} {l : List (κ × α)} {k : κ} {a : α}

@[simp] theorem assign_cons (b : κ × α) : assign f (b :: l) = assign (Function.update f b.1 b.2) l := rfl

/-- A key that is not assigned to keeps its value. -/
theorem assign_of_notMem (h : k ∉ l.map Prod.fst) : assign f l k = f k := by
  induction l generalizing f with
  | nil => rfl
  | cons b l ih =>
      rw [List.map_cons, List.mem_cons, not_or] at h
      rw [assign_cons, ih h.2, Function.update_of_ne h.1]

/-- A key that has the value `a` already, and is assigned nothing else, keeps it. -/
theorem assign_eq_of_eq (hf : f k = a) (h : ∀ b ∈ l, b.1 = k → b.2 = a) : assign f l k = a := by
  induction l generalizing f with
  | nil => exact hf
  | cons b l ih =>
      apply ih
      · by_cases hk : b.1 = k
        · rw [← hk, Function.update_self]
          exact h b List.mem_cons_self hk
        · rw [Function.update_of_ne (Ne.symm hk), hf]
      · intro c hc
        exact h c (List.mem_cons_of_mem b hc)

/-- A key that is assigned `a` and nothing else. -/
theorem assign_eq (hk : k ∈ l.map Prod.fst) (h : ∀ b ∈ l, b.1 = k → b.2 = a) : assign f l k = a := by
  induction l generalizing f with
  | nil => cases hk
  | cons b l ih =>
      have hrest : ∀ c ∈ l, c.1 = k → c.2 = a := fun c hc => h c (List.mem_cons_of_mem b hc)
      by_cases hb : b.1 = k
      · apply assign_eq_of_eq _ hrest
        rw [← hb, Function.update_self]
        exact h b List.mem_cons_self hb
      · apply ih _ hrest
        rw [List.map_cons, List.mem_cons] at hk
        exact hk.resolve_left (Ne.symm hb)

theorem assign_append (l' : List (κ × α)) : assign f (l ++ l') = assign (assign f l) l' := by
  induction l generalizing f with
  | nil => rfl
  | cons b l ih => exact ih

/-- The last value that a key is assigned stays. -/
theorem assign_last {l' : List (κ × α)} (h : k ∉ l'.map Prod.fst) :
    assign f (l ++ (k, a) :: l') k = a := by
  rw [assign_append, assign_cons, assign_of_notMem h, Function.update_self]

/-- A key that is assigned to has one of its values in the end. -/
theorem assign_mem (hk : k ∈ l.map Prod.fst) : (k, assign f l k) ∈ l := by
  induction l generalizing f with
  | nil => cases hk
  | cons b l ih =>
      by_cases hl : k ∈ l.map Prod.fst
      · exact List.mem_cons_of_mem b (ih hl)
      · rw [List.map_cons, List.mem_cons] at hk
        obtain rfl := hk.resolve_right hl
        rw [assign_cons, assign_of_notMem hl, Function.update_self]
        exact List.mem_cons_self

/-- Old values assigned over whatever the keys hold by now. -/
theorem assign_map_fst (g : κ → α) :
    assign g (l.map fun b => (b.1, f b.1)) k = if k ∈ l.map Prod.fst then f k else g k := by
  have hkeys : (l.map fun b => (b.1, f b.1)).map Prod.fst = l.map Prod.fst := by
    rw [List.map_map]
    rfl
  split_ifs with hk
  · apply assign_eq
    · rwa [hkeys]
    · rintro b hb rfl
      obtain ⟨c, -, rfl⟩ := List.mem_map.mp hb
      rfl
  · exact assign_of_notMem (by rwa [hkeys])

/-- The old values put back. -/
theorem assign_undo : assign (assign f l) (l.map fun b => (b.1, f b.1)) = f := by
  funext k
  rw [assign_map_fst]
  split_ifs with hk
  · rfl
  · exact assign_of_notMem hk

end NeoZygisk.Lib
