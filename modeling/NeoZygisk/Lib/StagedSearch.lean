import Mathlib.Init

/-!
# Searches in stages

One pass over the indices below a bound looks for several things in turn. A stage takes the first index that passes its
test, and the next stage goes on behind it, a number of indices further if the stage says so.

`pass_firsts` and `Firsts.unique` say what a pass finds: for each stage the first index behind what the stage before
has found, up to a stage that finds none. A test may not be possible at every index; `passReady_found` says at which
indices a pass makes the tests of a stage.
-/

set_option autoImplicit false

namespace NeoZygisk.Lib.StagedSearch

/-- What to look for, where the test can be made, and how many indices to leave out behind what is found. -/
structure Stage where
  test : Nat → Bool
  ready : Nat → Bool
  skip : Nat

/-- Where the next stage goes on. -/
def Stage.behind (s : Stage) (i : Nat) : Nat := i + s.skip + 1

/-- The indices that the stages find from an index on. -/
def pass (bound : Nat) : List Stage → Nat → List Nat
  | [], _ => []
  | s :: stages, i =>
      if i < bound then
        if s.test i then i :: pass bound stages (s.behind i) else pass bound (s :: stages) (i + 1)
      else []
termination_by stages i => (stages.length, bound - i)

/-- Every test of a pass can be made. -/
def passReady (bound : Nat) : List Stage → Nat → Bool
  | [], _ => true
  | s :: stages, i =>
      if i < bound then
        s.ready i && if s.test i then passReady bound stages (s.behind i) else passReady bound (s :: stages) (i + 1)
      else true
termination_by stages i => (stages.length, bound - i)

theorem pass_nil (bound low : Nat) : pass bound [] low = [] := by rw [pass]

theorem pass_of_ge {bound low : Nat} (stages : List Stage) (h : bound ≤ low) : pass bound stages low = [] := by
  cases stages with
  | nil => exact pass_nil bound low
  | cons s stages => rw [pass, if_neg (Nat.not_lt.mpr h)]

theorem pass_of_hit {bound low : Nat} {s : Stage} {stages : List Stage} (hlt : low < bound)
    (htest : s.test low = true) : pass bound (s :: stages) low = low :: pass bound stages (s.behind low) := by
  rw [pass, if_pos hlt, if_pos htest]

theorem pass_of_miss {bound low : Nat} {s : Stage} {stages : List Stage} (hlt : low < bound)
    (htest : s.test low = false) : pass bound (s :: stages) low = pass bound (s :: stages) (low + 1) := by
  rw [pass, if_pos hlt, if_neg (Bool.eq_false_iff.mp htest)]

theorem passReady_nil (bound low : Nat) : passReady bound [] low = true := by rw [passReady]

theorem passReady_of_ge {bound low : Nat} (stages : List Stage) (h : bound ≤ low) :
    passReady bound stages low = true := by
  cases stages with
  | nil => exact passReady_nil bound low
  | cons s stages => rw [passReady, if_neg (Nat.not_lt.mpr h)]

theorem passReady_of_hit {bound low : Nat} {s : Stage} {stages : List Stage} (hlt : low < bound)
    (htest : s.test low = true) :
    passReady bound (s :: stages) low = (s.ready low && passReady bound stages (s.behind low)) := by
  rw [passReady, if_pos hlt, if_pos htest]

theorem passReady_of_miss {bound low : Nat} {s : Stage} {stages : List Stage} (hlt : low < bound)
    (htest : s.test low = false) :
    passReady bound (s :: stages) low = (s.ready low && passReady bound (s :: stages) (low + 1)) := by
  rw [passReady, if_pos hlt, if_neg (Bool.eq_false_iff.mp htest)]

/-- The first index from `low` on that passes the test. -/
structure First (test : Nat → Bool) (low bound i : Nat) : Prop where
  le : low ≤ i
  lt : i < bound
  hit : test i = true
  miss : ∀ j, low ≤ j → j < i → test j = false

/-- The first indices of the stages, one behind the other. -/
inductive Firsts (bound : Nat) : List Stage → Nat → List Nat → Prop where
  | nil (low : Nat) : Firsts bound [] low []
  | missing {s : Stage} {stages : List Stage} {low : Nat} (h : ∀ j, low ≤ j → j < bound → s.test j = false) :
      Firsts bound (s :: stages) low []
  | found {s : Stage} {stages : List Stage} {low i : Nat} {is : List Nat} (h : First s.test low bound i)
      (hrest : Firsts bound stages (s.behind i) is) : Firsts bound (s :: stages) low (i :: is)

variable {bound : Nat} {stages : List Stage} {low : Nat} {is : List Nat}

/-- An index that fails the test is passed over. -/
theorem Firsts.step {s : Stage} (hfails : s.test low = false) (h : Firsts bound (s :: stages) (low + 1) is) :
    Firsts bound (s :: stages) low is := by
  have hlow : ∀ {P : Nat → Prop}, P low → (∀ j, low + 1 ≤ j → P j) → ∀ j, low ≤ j → P j := by
    intro P hfirst hrest j hj
    rcases Nat.eq_or_lt_of_le hj with rfl | hlt
    · exact hfirst
    · exact hrest j hlt
  cases h with
  | missing hmiss =>
      apply Firsts.missing
      exact hlow (fun _ => hfails) hmiss
  | found hfirst hrest =>
      apply Firsts.found _ hrest
      refine ⟨Nat.le_of_succ_le hfirst.le, hfirst.lt, hfirst.hit, ?_⟩
      exact hlow (fun _ => hfails) hfirst.miss

theorem pass_firsts (bound : Nat) (stages : List Stage) (low : Nat) : Firsts bound stages low (pass bound stages low) := by
  fun_induction pass bound stages low with
  | case1 low => exact .nil low
  | case2 s stages low hlt htest ih =>
      apply Firsts.found _ ih
      exact ⟨Nat.le_refl low, hlt, htest, fun j hj hlow => absurd hj (Nat.not_le.mpr hlow)⟩
  | case3 s stages low hlt htest ih => exact ih.step (Bool.not_eq_true _ |>.mp htest)
  | case4 s stages low hlt => exact .missing fun j hj hbound => absurd (Nat.lt_of_le_of_lt hj hbound) hlt

/-- There is one first index at most. -/
theorem First.unique {test : Nat → Bool} {i j : Nat} (hi : First test low bound i) (hj : First test low bound j) :
    i = j := by
  rcases Nat.lt_trichotomy i j with hlt | heq | hgt
  · exact Bool.noConfusion ((hj.miss i hi.le hlt).symm.trans hi.hit)
  · exact heq
  · exact Bool.noConfusion ((hi.miss j hj.le hgt).symm.trans hj.hit)

/-- A stage tests the indices up to the one it finds. -/
theorem passReady_found {s : Stage} {i : Nat} (h : First s.test low bound i) :
    passReady bound (s :: stages) low = true ↔
      (∀ j, low ≤ j → j ≤ i → s.ready j = true) ∧ passReady bound stages (s.behind i) = true := by
  obtain ⟨n, rfl⟩ := Nat.exists_eq_add_of_le h.le
  induction n generalizing low with
  | zero =>
      rw [Nat.add_zero] at h ⊢
      rw [passReady_of_hit h.lt h.hit, Bool.and_eq_true]
      refine and_congr_left fun _ => ⟨?_, fun hall => hall low (Nat.le_refl low) (Nat.le_refl low)⟩
      intro hready j hlow hj
      rwa [Nat.le_antisymm hj hlow]
  | succ n ih =>
      have hmiss : s.test low = false := h.miss low (Nat.le_refl low) (Nat.lt_add_of_pos_right (Nat.succ_pos n))
      have hindex : low + (n + 1) = low + 1 + n := by omega
      rw [hindex] at h ⊢
      have hfirst : First s.test (low + 1) bound (low + 1 + n) :=
        ⟨Nat.le_add_right _ _, h.lt, h.hit, fun j hj => h.miss j (Nat.le_of_succ_le hj)⟩
      have hlow : low < bound := Nat.lt_of_le_of_lt h.le h.lt
      rw [passReady_of_miss hlow hmiss, Bool.and_eq_true, ih hfirst, ← and_assoc]
      refine and_congr_left fun _ => ⟨?_, ?_⟩
      · rintro ⟨hready, hall⟩ j hj hjn
        rcases Nat.eq_or_lt_of_le hj with rfl | hlt
        · exact hready
        · exact hall j hlt hjn
      · intro hall
        exact ⟨hall low (Nat.le_refl low) h.le, fun j hj => hall j (Nat.le_of_succ_le hj)⟩

theorem Firsts.unique {js : List Nat} (hi : Firsts bound stages low is) (hj : Firsts bound stages low js) : is = js := by
  induction hi generalizing js with
  | nil low =>
      cases hj with
      | nil => rfl
  | missing hmiss =>
      cases hj with
      | missing => rfl
      | found hfirst hrest => exact Bool.noConfusion ((hmiss _ hfirst.le hfirst.lt).symm.trans hfirst.hit)
  | found hfirst hrest ih =>
      cases hj with
      | missing hmiss => exact Bool.noConfusion ((hmiss _ hfirst.le hfirst.lt).symm.trans hfirst.hit)
      | found hfirst' hrest' =>
          obtain rfl := hfirst.unique hfirst'
          rw [ih hrest']

theorem pass_eq_iff : pass bound stages low = is ↔ Firsts bound stages low is := by
  constructor
  · rintro rfl
    exact pass_firsts bound stages low
  · intro h
    exact (pass_firsts bound stages low).unique h

end NeoZygisk.Lib.StagedSearch
