import Mathlib.Data.List.Basic

/-!
# Compaction of an array in place

A loop over an array moves the live entries to the front: it takes the entry at `src`, blanks its place, and
writes it to `dst` if it is live. `Compacted` is what holds between two passes: the front is the live entries
of the part that was read, in their order, what lies between is blank, and the rest was not touched. It is kept
by one pass (`Compacted.shiftOne`) and so by any number of them (`Compacted.shift`). `stores` are the writes of
the passes one by one; done in order they are the passes (`foldl_stores`).
-/

set_option autoImplicit false

namespace NeoZygisk.Lib.Compaction

universe u

variable {α : Type u} {live : α → Bool} {blank : α} {orig a : Nat → α} {src dst : Nat}

/-! ## The loops -/

/-- The first place from `src` on, out of `n`, whose entry is not live. -/
def skipLive (live : α → Bool) (a : Nat → α) : (n src : Nat) → Nat
  | 0, src => src
  | n + 1, src => if live (a src) then skipLive live a n (src + 1) else src

/-- One pass: `dst` and the array after it. -/
def shiftOne (live : α → Bool) (blank : α) (src dst : Nat) (a : Nat → α) : Nat × (Nat → α) :=
  let entry := a src
  let a := Function.update a src blank
  if live entry then (dst + 1, Function.update a dst entry) else (dst, a)

/-- `n` passes from `src` on. -/
def shift (live : α → Bool) (blank : α) : (n src dst : Nat) → (Nat → α) → Nat × (Nat → α)
  | 0, _, dst, a => (dst, a)
  | n + 1, src, dst, a =>
      let (dst, a) := shiftOne live blank src dst a
      shift live blank n (src + 1) dst a

/-- What `n` passes from `src` on write, and where, in order. -/
def stores (live : α → Bool) (blank : α) : (n src dst : Nat) → (Nat → α) → List (Nat × α)
  | 0, _, _, _ => []
  | n + 1, src, dst, a =>
      let next := shiftOne live blank src dst a
      (if live (a src) then [(src, blank), (dst, a src)] else [(src, blank)]) ++
        stores live blank n (src + 1) next.1 next.2

/-! ## What they keep -/

/-- The entries of `orig` below `src` are compacted to those of `a` below `dst`. -/
structure Compacted (live : α → Bool) (blank : α) (orig : Nat → α) (src dst : Nat) (a : Nat → α) : Prop where
  le : dst ≤ src
  front : (List.range dst).map a = ((List.range src).map orig).filter live
  gap : ∀ i, dst ≤ i → i < src → a i = blank
  rest : ∀ i, src ≤ i → a i = orig i

theorem skipLive_le (live : α → Bool) (a : Nat → α) (n src : Nat) : skipLive live a n src ≤ src + n := by
  induction n generalizing src with
  | zero => exact Nat.le_refl src
  | succ n ih =>
      rw [skipLive]
      split
      · have := ih (src + 1)
        omega
      · omega

/-- What is skipped is live. -/
theorem live_of_lt_skipLive {n i : Nat} (hle : src ≤ i) (hlt : i < skipLive live a n src) :
    live (a i) = true := by
  induction n generalizing src with
  | zero =>
      rw [skipLive] at hlt
      omega
  | succ n ih =>
      rw [skipLive] at hlt
      split at hlt
      · rename_i hlive
        rcases Nat.eq_or_lt_of_le hle with rfl | hgt
        · exact hlive
        · exact ih hgt hlt
      · omega

/-- Live entries are compacted as they stand. -/
theorem Compacted.of_live (h : ∀ i, i < src → live (orig i) = true) :
    Compacted live blank orig src src orig where
  le := Nat.le_refl src
  front := by
    rw [List.filter_eq_self.mpr]
    intro entry hentry
    obtain ⟨i, hi, rfl⟩ := List.mem_map.mp hentry
    exact h i (List.mem_range.mp hi)
  gap := by
    intro i hle hlt
    omega
  rest := fun _ _ => rfl

/-- Writing past the front does not change it. -/
theorem map_range_update {n i : Nat} (hle : n ≤ i) (entry : α) :
    (List.range n).map (Function.update a i entry) = (List.range n).map a := by
  apply List.map_congr_left
  intro j hj
  have hlt := List.mem_range.mp hj
  exact Function.update_of_ne (by omega) _ _

/-- One pass keeps the invariant and advances it by one entry. -/
theorem Compacted.shiftOne (h : Compacted live blank orig src dst a) :
    Compacted live blank orig (src + 1) (shiftOne live blank src dst a).1 (shiftOne live blank src dst a).2 := by
  have hle := h.le
  have hentry : a src = orig src := h.rest src (Nat.le_refl src)
  simp only [Compaction.shiftOne, hentry]
  cases hlive : live (orig src) with
  | true =>
      simp only [↓reduceIte]
      refine ⟨?_, ?_, ?_, ?_⟩
      · exact Nat.succ_le_succ hle
      · -- the front grows by the entry, which the range below `src` grows by too
        rw [List.range_succ, List.map_append, map_range_update (Nat.le_refl dst), map_range_update hle, h.front,
          List.range_succ, List.map_append, List.filter_append]
        simp [hlive]
      · intro i hdst hsrc
        rw [Function.update_of_ne (by omega)]
        by_cases hi : i = src
        · rw [hi, Function.update_self]
        · rw [Function.update_of_ne hi]
          exact h.gap i (by omega) (by omega)
      · intro i hi
        rw [Function.update_of_ne (by omega), Function.update_of_ne (by omega)]
        exact h.rest i (by omega)
  | false =>
      simp only [Bool.false_eq_true, ↓reduceIte]
      refine ⟨?_, ?_, ?_, ?_⟩
      · exact Nat.le_succ_of_le hle
      · rw [map_range_update hle, h.front, List.range_succ, List.map_append, List.filter_append]
        simp [hlive]
      · intro i hdst hsrc
        by_cases hi : i = src
        · rw [hi, Function.update_self]
        · rw [Function.update_of_ne hi]
          exact h.gap i hdst (by omega)
      · intro i hi
        rw [Function.update_of_ne (by omega)]
        exact h.rest i (by omega)

/-- Every run of the loop keeps the invariant. -/
theorem Compacted.shift (n : Nat) (h : Compacted live blank orig src dst a) :
    Compacted live blank orig (src + n) (shift live blank n src dst a).1 (shift live blank n src dst a).2 := by
  induction n generalizing src dst a with
  | zero => exact h
  | succ n ih =>
      have hnext := ih h.shiftOne
      rwa [Nat.add_right_comm, Nat.add_assoc] at hnext

/-- The passes write to places of the array only. -/
theorem lt_of_mem_stores {n : Nat} {store : Nat × α} (hle : dst ≤ src) (h : store ∈ stores live blank n src dst a) :
    store.1 < src + n := by
  induction n generalizing src dst a with
  | zero => cases h
  | succ n ih =>
      have hnext : (shiftOne live blank src dst a).1 ≤ src + 1 := by
        rw [shiftOne]
        split
        · exact Nat.succ_le_succ hle
        · exact Nat.le_succ_of_le hle
      rcases List.mem_append.mp h with hpass | hrest
      · have hstore : store.1 = src ∨ store.1 = dst := by
          split at hpass
          · rcases List.mem_cons.mp hpass with rfl | hpass
            · exact .inl rfl
            · rw [List.mem_singleton.mp hpass]
              exact .inr rfl
          · rw [List.mem_singleton.mp hpass]
            exact .inl rfl
        omega
      · have := ih hnext hrest
        omega

/-- The writes, done in order, are the passes. -/
theorem foldl_stores (live : α → Bool) (blank : α) (n src dst : Nat) (a : Nat → α) :
    (stores live blank n src dst a).foldl (fun a store => Function.update a store.1 store.2) a =
      (shift live blank n src dst a).2 := by
  induction n generalizing src dst a with
  | zero => rfl
  | succ n ih =>
      rw [stores, List.foldl_append, shift]
      have hpass : (if live (a src) then [(src, blank), (dst, a src)] else [(src, blank)]).foldl
          (fun a store => Function.update a store.1 store.2) a = (shiftOne live blank src dst a).2 := by
        rw [shiftOne]
        cases live (a src) <;> rfl
      rw [hpass, ih]

/-- Skipping the live entries in front and shifting the rest compacts all of them. -/
theorem compacted_shift_skipLive (live : α → Bool) (blank : α) (orig : Nat → α) (n : Nat) :
    Compacted live blank orig n
      (shift live blank (n - skipLive live orig n 0) (skipLive live orig n 0) (skipLive live orig n 0) orig).1
      (shift live blank (n - skipLive live orig n 0) (skipLive live orig n 0) (skipLive live orig n 0) orig).2 := by
  have hfront : Compacted live blank orig (skipLive live orig n 0) (skipLive live orig n 0) orig :=
    .of_live fun i hi => live_of_lt_skipLive (Nat.zero_le i) hi
  have hle := skipLive_le live orig n 0
  have hrun := hfront.shift (n - skipLive live orig n 0)
  rwa [Nat.add_sub_cancel' (by omega)] at hrun

end NeoZygisk.Lib.Compaction
