import Mathlib.Logic.Basic
import Mathlib.Algebra.Group.Nat.Defs

/-!
# Bit masks

`has f m` is the C test `f & m` of a word against a mask. Setting bits is `|||`; the test of a union
is the disjunction of the tests (`has_or`), so the flags a program sets one after another are read
back by `simp` from the tests of the constants. `and_not_or_and` and `and_of_merge` take a word apart at
a mask. `toNat_alignDown` is what clearing the low bits of an address does to it.
-/

set_option autoImplicit false

namespace NeoZygisk.Lib.Mask

variable {w : Nat}

/-- Some bit of the mask `m` is set in `f`. -/
def has (f m : BitVec w) : Bool := f &&& m != 0#w

@[simp] theorem has_zero (m : BitVec w) : has 0#w m = false := by
  simp [has]

/-- A union has a bit of the mask when one of its parts has. -/
@[simp] theorem has_or (f g m : BitVec w) : has (f ||| g) m = (has f m || has g m) := by
  rw [Bool.eq_iff_iff]
  simp only [has, bne_iff_ne, ne_eq, Bool.or_eq_true]
  rw [BitVec.and_or_distrib_right, BitVec.or_eq_zero_iff, not_and_or]

/-- A word is put together from its bits outside and inside a mask. -/
theorem and_not_or_and (x m : BitVec w) : (x &&& ~~~m) ||| (x &&& m) = x := by
  ext i hi
  simp only [BitVec.getElem_or, BitVec.getElem_and, BitVec.getElem_not]
  cases x[i] <;> cases m[i] <;> rfl

/-- The bits inside the mask, of a word put together from two. -/
theorem and_of_merge (k x m : BitVec w) : ((k &&& ~~~m) ||| (x &&& m)) &&& m = x &&& m := by
  ext i hi
  simp only [BitVec.getElem_or, BitVec.getElem_and, BitVec.getElem_not]
  cases k[i] <;> cases x[i] <;> cases m[i] <;> rfl

/-- Setting bits of a mask changes nothing outside. -/
theorem or_and_not (x m : BitVec w) : (x ||| m) &&& ~~~m = x &&& ~~~m := by
  ext i hi
  simp only [BitVec.getElem_or, BitVec.getElem_and, BitVec.getElem_not]
  cases x[i] <;> cases m[i] <;> rfl

/-- Clearing a mask leaves none of its bits. -/
theorem has_and_not (x m : BitVec w) : has (x &&& ~~~m) m = false := by
  have hzero : (x &&& ~~~m) &&& m = 0#w := by
    ext i hi
    simp only [BitVec.getElem_and, BitVec.getElem_not, BitVec.getElem_zero]
    cases x[i] <;> cases m[i] <;> rfl
  rw [has, hzero, bne_self_eq_false]

/-- Clearing the `k` low bits rounds down to a multiple of `2 ^ k`. -/
theorem toNat_alignDown (x : BitVec w) (k : Nat) (hk : k ≤ w) :
    (x &&& ~~~BitVec.ofNat w (2 ^ k - 1)).toNat = x.toNat - x.toNat % 2 ^ k := by
  have hlow : (x &&& BitVec.ofNat w (2 ^ k - 1)).toNat = x.toNat % 2 ^ k := by
    have hpow : 2 ^ k ≤ 2 ^ w := Nat.pow_le_pow_right (by omega) hk
    have hpos : 0 < 2 ^ k := Nat.two_pow_pos k
    rw [BitVec.toNat_and, BitVec.toNat_ofNat, Nat.mod_eq_of_lt (by omega),
      Nat.and_two_pow_sub_one_eq_mod]
  have hdisjoint : (x &&& ~~~BitVec.ofNat w (2 ^ k - 1)) &&& (x &&& BitVec.ofNat w (2 ^ k - 1)) = 0#w := by
    ext i hi
    simp only [BitVec.getElem_and, BitVec.getElem_not, BitVec.getElem_zero]
    cases x[i] <;> cases (BitVec.ofNat w (2 ^ k - 1))[i] <;> rfl
  have hsum := BitVec.toNat_add_of_and_eq_zero hdisjoint
  rw [BitVec.add_eq_or_of_and_eq_zero _ _ hdisjoint, and_not_or_and, hlow] at hsum
  omega

end NeoZygisk.Lib.Mask
