import NeoZygisk.Monitor.Handler
import Mathlib.Algebra.Group.Nat.Defs

/-!
# Crash loops

`is_in_crash_loop` keeps of all starts of the zygote the time of the last one and a counter of those that came
quickly. `le_count_iff` says what the counter stands for: it has reached `k` if the last `k` starts followed each
other quickly.

The counter is an `int`. `answer_iff` is about the sequences it has room for, and `answer_overflow` has one with
more quick starts than that.
-/

set_option autoImplicit false

namespace NeoZygisk.Monitor.CrashLoop

/-- `StartCounter`. The nanoseconds are not looked at. -/
structure WordCounter where
  lastStartTime : Int
  count : BitVec 32
  deriving DecidableEq, Repr

/-- `is_in_crash_loop`, when the clock shows `now`. -/
def isInCrashLoop (now : Int) (counter : WordCounter) : Bool × WordCounter :=
  let count :=
    if now - counter.lastStartTime < crashLoopWindowSeconds then counter.count + 1 else BitVec.ofNat 32 1
  ((BitVec.ofNat 32 crashLoopRetryCount).sle count, ⟨now, count⟩)

section Calls

-- the time of the first call, of the second one, and so on
variable (now : Nat → Int)

/-- The counter after `n` calls. -/
def counterAfter : Nat → WordCounter
  | 0 => ⟨0, 0⟩
  | n + 1 => (isInCrashLoop (now (n + 1)) (counterAfter n)).2

/-- What the `n`-th call returns. -/
def answer : Nat → Bool
  | 0 => false
  | n + 1 => (isInCrashLoop (now (n + 1)) (counterAfter now n)).1

/-- The call came less than 30 seconds after the one before it. -/
def Quick (i : Nat) : Prop := now i - now (i - 1) < crashLoopWindowSeconds

/-- Up to the `n`-th, `k` calls came in a row with only short gaps between them. -/
def InARow (n k : Nat) : Prop := k ≤ n ∧ ∀ i, n + 1 < i + k → i ≤ n → Quick now i

/-- The counter without a bound after `n` calls. -/
def countAfter : Nat → StartCounter
  | 0 => ⟨0, 0⟩
  | n + 1 => (countAfter n).tick (now (n + 1))

variable {now} {n k : Nat}

/-! ## What the counter counts -/

theorem lastStartTime_countAfter (n : Nat) : (countAfter now (n + 1)).lastStartTime = now (n + 1) := by
  rw [countAfter, StartCounter.tick]
  split
  · rfl
  · rfl

theorem one_le_count (n : Nat) : 1 ≤ (countAfter now (n + 1)).count := by
  rw [countAfter, StartCounter.tick]
  split
  · exact Nat.le_add_left 1 _
  · exact Nat.le_refl 1

/-- A quick call counts one more. -/
theorem count_of_quick (h : Quick now (n + 2)) :
    (countAfter now (n + 2)).count = (countAfter now (n + 1)).count + 1 := by
  have hgap : now (n + 1 + 1) - now (n + 1) < crashLoopWindowSeconds := h
  rw [countAfter, StartCounter.tick, lastStartTime_countAfter, if_pos hgap]

theorem count_of_not_quick (h : ¬ Quick now (n + 2)) : (countAfter now (n + 2)).count = 1 := by
  have hgap : ¬ now (n + 1 + 1) - now (n + 1) < crashLoopWindowSeconds := h
  rw [countAfter, StartCounter.tick, lastStartTime_countAfter, if_neg hgap]

theorem count_first : (countAfter now 1).count = 1 := by
  rw [countAfter, StartCounter.tick]
  split
  · rfl
  · rfl

/-- One call in a row more. -/
theorem inARow_succ (hk : 1 ≤ k) : InARow now (n + 1) (k + 1) ↔ InARow now n k ∧ Quick now (n + 1) := by
  constructor
  · rintro ⟨hle, hquick⟩
    refine ⟨⟨Nat.le_of_succ_le_succ hle, ?_⟩, ?_⟩
    · intro i hlt hi
      apply hquick
      · omega
      · exact Nat.le_succ_of_le hi
    · apply hquick
      · omega
      · exact Nat.le_refl _
  · rintro ⟨⟨hle, hquick⟩, hlast⟩
    refine ⟨Nat.succ_le_succ hle, ?_⟩
    intro i hlt hi
    rcases Nat.eq_or_lt_of_le hi with rfl | hbefore
    · exact hlast
    · apply hquick
      · omega
      · exact Nat.le_of_lt_succ hbefore

theorem inARow_one (hn : 1 ≤ n) : InARow now n 1 := by
  refine ⟨hn, ?_⟩
  intro i hlt hi
  omega

/-- The counter has reached `k` exactly if the last `k` calls came in a row. -/
theorem le_count_iff (hk : 1 ≤ k) : k ≤ (countAfter now (n + 1)).count ↔ InARow now (n + 1) k := by
  -- on the calls: a quick one makes the row one longer, another one starts a row of its own
  induction n generalizing k with
  | zero =>
      rw [count_first]
      constructor
      · intro hle
        obtain rfl : k = 1 := by omega
        exact inARow_one (Nat.le_refl 1)
      · intro h
        exact h.1
  | succ n ih =>
      obtain ⟨k, rfl⟩ := Nat.exists_eq_add_of_le' hk
      by_cases hone : k = 0
      · subst hone
        exact iff_of_true (one_le_count (n + 1)) (inARow_one (Nat.le_add_left 1 _))
      · rw [inARow_succ (show 1 ≤ k by omega)]
        by_cases hquick : Quick now (n + 2)
        · rw [count_of_quick hquick, Nat.add_le_add_iff_right, ih (by omega)]
          exact (and_iff_left hquick).symm
        · rw [count_of_not_quick hquick]
          constructor
          · intro hle
            omega
          · intro h
            exact absurd h.2 hquick

/-! ## The counter as an `int` -/

/-- The `int` is the counter as far as it has room. -/
theorem counterAfter_eq (now : Nat → Int) (n : Nat) :
    counterAfter now n = ⟨(countAfter now n).lastStartTime, BitVec.ofNat 32 (countAfter now n).count⟩ := by
  induction n with
  | zero => rfl
  | succ n ih =>
      rw [counterAfter, ih, isInCrashLoop, countAfter, StartCounter.tick]
      dsimp only
      split
      · rw [BitVec.ofNat_add]
        rfl
      · rfl

theorem answer_eq (now : Nat → Int) (n : Nat) :
    answer now (n + 1) =
      (BitVec.ofNat 32 crashLoopRetryCount).sle (BitVec.ofNat 32 (countAfter now (n + 1)).count) := by
  have hcount : (counterAfter now (n + 1)).count = BitVec.ofNat 32 (countAfter now (n + 1)).count :=
    congrArg WordCounter.count (counterAfter_eq now (n + 1))
  rw [← hcount]
  rfl

/-- A small number is compared as it is. -/
theorem sle_ofNat_iff {a b : Nat} (ha : a < 2 ^ 31) (hb : b < 2 ^ 31) :
    (BitVec.ofNat 32 a).sle (BitVec.ofNat 32 b) = true ↔ a ≤ b := by
  rw [BitVec.sle_iff_toInt_le, BitVec.toInt_eq_toNat_of_lt, BitVec.toInt_eq_toNat_of_lt, BitVec.toNat_ofNat,
    BitVec.toNat_ofNat]
  · omega
  · rw [BitVec.toNat_ofNat]
    omega
  · rw [BitVec.toNat_ofNat]
    omega

/-- The answer goes by the calls in a row, while these are few enough for an `int`. -/
theorem answer_eq_true_iff (hroom : ¬ InARow now (n + 1) (2 ^ 31)) :
    answer now (n + 1) = true ↔ InARow now (n + 1) crashLoopRetryCount := by
  have hlt : (countAfter now (n + 1)).count < 2 ^ 31 := by
    apply Nat.lt_of_not_le
    intro hle
    exact hroom ((le_count_iff (by omega)).mp hle)
  rw [answer_eq, sle_ofNat_iff (by decide) hlt]
  exact le_count_iff (by decide)

/-- If no `2 ^ 31` calls come in a row, the `n`-th call finds a crash loop exactly if it is the fifth or a later one,
and each of the last four gaps is short. None of the four calls from a long gap on does. -/
theorem answer_iff (hn : 1 ≤ n) (hroom : ∀ m, m ≤ n → ¬ InARow now m (2 ^ 31)) :
    (answer now n = true ↔ 5 ≤ n ∧ ∀ i, n < i + 4 → i ≤ n → now i - now (i - 1) < 30) ∧
      ∀ i, 2 ≤ i → i ≤ n → n < i + 4 → 30 ≤ now i - now (i - 1) → answer now n = false := by
  obtain ⟨n, rfl⟩ := Nat.exists_eq_add_of_le' hn
  have hanswer := answer_eq_true_iff (hroom (n + 1) (Nat.le_refl _))
  have hrow : InARow now (n + 1) crashLoopRetryCount ↔
      5 ≤ n + 1 ∧ ∀ i, n + 1 < i + 4 → i ≤ n + 1 → now i - now (i - 1) < 30 := by
    apply and_congr_right'
    apply forall_congr'
    intro i
    apply imp_congr_left
    rw [crashLoopRetryCount]
    omega
  rw [hrow] at hanswer
  refine ⟨hanswer, ?_⟩
  -- a long gap is one of the last four for four calls
  intro i _ hi hlt hgap
  rw [← Bool.not_eq_true, hanswer]
  rintro ⟨-, hquick⟩
  exact absurd (hquick i hlt hi) (Int.not_lt.mpr hgap)

end Calls

/-! ## Seven starts, and very many -/

/-- Four quick starts after the first, a pause of a minute, and a start after it. -/
def sevenStarts : Nat → Int
  | 1 => 5
  | 2 => 10
  | 3 => 15
  | 4 => 20
  | 5 => 25
  | 6 => 85
  | _ => 90

theorem answer_sevenStarts :
    answer sevenStarts 5 = true ∧ answer sevenStarts 6 = false ∧ answer sevenStarts 7 = false := by
  have hroom : ∀ n, n < 8 → ∀ m, m ≤ n → ¬ InARow sevenStarts m (2 ^ 31) := by
    rintro n hn m hm ⟨hle, -⟩
    omega
  refine ⟨?_, ?_, ?_⟩
  · apply (answer_iff (by omega) (hroom 5 (by omega))).1.mpr
    refine ⟨Nat.le_refl 5, ?_⟩
    intro i hlt hi
    obtain rfl | rfl | rfl | rfl : i = 2 ∨ i = 3 ∨ i = 4 ∨ i = 5 := by omega
    · decide
    · decide
    · decide
    · decide
  · exact (answer_iff (by omega) (hroom 6 (by omega))).2 6 (by omega) (by omega) (by omega) (by decide)
  · exact (answer_iff (by omega) (hroom 7 (by omega))).2 6 (by omega) (by omega) (by omega) (by decide)

/-- Starts that all come in one second. -/
def sameSecond : Nat → Int := fun _ => 0

theorem quick_sameSecond (i : Nat) : Quick sameSecond i := by
  show (0 : Int) - 0 < 30
  decide

theorem count_sameSecond (n : Nat) : (countAfter sameSecond (n + 1)).count = n + 1 := by
  induction n with
  | zero => exact count_first
  | succ n ih => rw [count_of_quick (quick_sameSecond (n + 2)), ih]

/-- The last of `2 ^ 31` starts in one second finds no crash loop. -/
theorem answer_overflow :
    ¬ (answer sameSecond (2 ^ 31) = true ↔
      5 ≤ 2 ^ 31 ∧ ∀ i, 2 ^ 31 < i + 4 → i ≤ 2 ^ 31 → sameSecond i - sameSecond (i - 1) < 30) := by
  have hanswer : answer sameSecond (2 ^ 31) = false := by
    obtain ⟨n, hn⟩ : ∃ n, 2 ^ 31 = n + 1 := ⟨2 ^ 31 - 1, by omega⟩
    -- the word `2 ^ 31` is the smallest `int`
    rw [hn, answer_eq, count_sameSecond, ← hn]
    decide
  rw [hanswer]
  intro h
  have htrue := h.mpr ⟨by omega, fun i _ _ => quick_sameSecond i⟩
  cases htrue

end NeoZygisk.Monitor.CrashLoop
