import Mathlib.Data.List.Basic

/-!
# Classic BPF

Filter programs over a block of data: loads of words into the accumulator, jumps forward and returns. A jump is
relative to the next instruction. The index register, the scratch memory and arithmetic are left out; an instruction
with any other code is not executed.

A program that the checker takes ends at a return instruction, whatever the data are (`isSome_eval`). A chain of
tests is a program that compares words of the data with constants and jumps to its last instruction at the first
that differs (`testChain`); `run_testChain` says what it returns, and `accepts_testChain` that the checker takes it.
-/

set_option autoImplicit false

namespace NeoZygisk.Lib.ClassicBpf

/-! ## Instructions -/

structure SockFilter where
  code : BitVec 16
  jt : BitVec 8
  jf : BitVec 8
  k : BitVec 32
  deriving DecidableEq, Repr

def BPF_LD : BitVec 16 := 0x00
def BPF_JMP : BitVec 16 := 0x05
def BPF_RET : BitVec 16 := 0x06

def BPF_W : BitVec 16 := 0x00
def BPF_ABS : BitVec 16 := 0x20

def BPF_JA : BitVec 16 := 0x00
def BPF_JEQ : BitVec 16 := 0x10
def BPF_JGT : BitVec 16 := 0x20
def BPF_JGE : BitVec 16 := 0x30
def BPF_JSET : BitVec 16 := 0x40

def BPF_K : BitVec 16 := 0x00
def BPF_A : BitVec 16 := 0x10

def BPF_MAXINSNS : Nat := 4096

def BPF_STMT (code : BitVec 16) (k : BitVec 32) : SockFilter := ⟨code, 0, 0, k⟩

def BPF_JUMP (code : BitVec 16) (k : BitVec 32) (jt jf : BitVec 8) : SockFilter := ⟨code, jt, jf, k⟩

/-- How a conditional jump compares the accumulator with its constant. -/
inductive Comparison where
  | jeq
  | jgt
  | jge
  | jset
  deriving DecidableEq, Repr

def Comparison.holds (a k : BitVec 32) : Comparison → Bool
  | .jeq => a == k
  | .jgt => k.ult a
  | .jge => k.ule a
  | .jset => a &&& k != 0#32

inductive Operation where
  | load
  | jump
  | branch (c : Comparison)
  | returnK
  | returnA
  deriving DecidableEq, Repr

def operation (code : BitVec 16) : Option Operation :=
  if code = BPF_LD ||| BPF_W ||| BPF_ABS then some .load
  else if code = BPF_JMP ||| BPF_JA then some .jump
  else if code = BPF_JMP ||| BPF_JEQ ||| BPF_K then some (.branch .jeq)
  else if code = BPF_JMP ||| BPF_JGT ||| BPF_K then some (.branch .jgt)
  else if code = BPF_JMP ||| BPF_JGE ||| BPF_K then some (.branch .jge)
  else if code = BPF_JMP ||| BPF_JSET ||| BPF_K then some (.branch .jset)
  else if code = BPF_RET ||| BPF_K then some .returnK
  else if code = BPF_RET ||| BPF_A then some .returnA
  else none

/-! ## Execution -/

/-- What becomes of an execution at an instruction: it goes on with the next one and a new accumulator, passes over
some, or ends. -/
inductive Effect where
  | next (a : BitVec 32)
  | skip (n : Nat)
  | ret (value : BitVec 32)

section Execution

-- the word at an offset of the data
variable (load : BitVec 32 → Option (BitVec 32))

def effect (a : BitVec 32) (insn : SockFilter) : Option Effect :=
  match operation insn.code with
  | none => none
  | some .load => (load insn.k).map .next
  | some .jump => some (.skip insn.k.toNat)
  | some (.branch c) => some (.skip (if c.holds a insn.k then insn.jt.toNat else insn.jf.toNat))
  | some .returnK => some (.ret insn.k)
  | some .returnA => some (.ret a)

/-- Execution of what is left of a program, when so many instructions are still to be passed over. A program that
comes to its end, or to an instruction that is not executed, has no value. -/
def eval : List SockFilter → Nat → BitVec 32 → Option (BitVec 32)
  | [], _, _ => none
  | _ :: rest, n + 1, a => eval rest n a
  | insn :: rest, 0, a =>
      match effect load a insn with
      | none => none
      | some (.next a') => eval rest 0 a'
      | some (.skip n) => eval rest n a
      | some (.ret value) => some value

/-- The accumulator starts at zero. -/
def run (prog : List SockFilter) : Option (BitVec 32) := eval load prog 0 0#32

end Execution

/-! ## The checker -/

section Checker

-- the offsets that may be loaded from
variable (readable : BitVec 32 → Bool)

/-- An instruction in front of so many others. -/
def legal (insn : SockFilter) (left : Nat) : Bool :=
  match operation insn.code with
  | none => false
  | some .load => readable insn.k && decide (0 < left)
  | some .jump => decide (insn.k.toNat < left)
  | some (.branch _) => decide (insn.jt.toNat < left) && decide (insn.jf.toNat < left)
  | some .returnK => true
  | some .returnA => true

def check : List SockFilter → Bool
  | [] => true
  | insn :: rest => legal readable insn rest.length && check rest

/-- A program that can be installed. -/
def accepts (prog : List SockFilter) : Bool :=
  decide (0 < prog.length) && decide (prog.length ≤ BPF_MAXINSNS) && check readable prog

end Checker

/-! ## Single instructions -/

section Instructions

variable {load : BitVec 32 → Option (BitVec 32)} {rest : List SockFilter} {a : BitVec 32}

@[simp] theorem eval_skip (insn : SockFilter) (n : Nat) :
    eval load (insn :: rest) (n + 1) a = eval load rest n a := rfl

@[simp] theorem eval_load (k : BitVec 32) :
    eval load (BPF_STMT (BPF_LD ||| BPF_W ||| BPF_ABS) k :: rest) 0 a =
      (load k).bind fun a' => eval load rest 0 a' := by
  have heffect : effect load a (BPF_STMT (BPF_LD ||| BPF_W ||| BPF_ABS) k) = (load k).map .next := rfl
  rw [eval, heffect]
  cases load k with
  | none => rfl
  | some a' => rfl

@[simp] theorem eval_jeq (k : BitVec 32) (jt jf : BitVec 8) :
    eval load (BPF_JUMP (BPF_JMP ||| BPF_JEQ ||| BPF_K) k jt jf :: rest) 0 a =
      eval load rest (if a = k then jt.toNat else jf.toNat) a := by
  have heffect : effect load a (BPF_JUMP (BPF_JMP ||| BPF_JEQ ||| BPF_K) k jt jf) =
      some (.skip (if (a == k) = true then jt.toNat else jf.toNat)) := rfl
  rw [eval, heffect]
  simp only [beq_iff_eq]

@[simp] theorem eval_ret (k : BitVec 32) :
    eval load (BPF_STMT (BPF_RET ||| BPF_K) k :: rest) 0 a = some k := rfl

/-- An instruction that the checker takes is executed, and a jump of it stays inside the program. -/
theorem exists_effect {readable : BitVec 32 → Bool} {insn : SockFilter} {left : Nat}
    (hload : ∀ k, readable k = true → (load k).isSome = true) (h : legal readable insn left = true)
    (a : BitVec 32) :
    (∃ a', effect load a insn = some (.next a') ∧ 0 < left) ∨
      (∃ n, effect load a insn = some (.skip n) ∧ n < left) ∨
        ∃ value, effect load a insn = some (.ret value) := by
  unfold legal at h
  unfold effect
  cases hop : operation insn.code with
  | none =>
      rw [hop] at h
      cases h
  | some op =>
      rw [hop] at h
      cases op with
      | load =>
          obtain ⟨hreadable, hleft⟩ := Bool.and_eq_true_iff.mp h
          obtain ⟨a', ha'⟩ := Option.isSome_iff_exists.mp (hload insn.k hreadable)
          refine Or.inl ⟨a', ?_, of_decide_eq_true hleft⟩
          dsimp only
          rw [ha']
          rfl
      | jump => exact Or.inr (Or.inl ⟨_, rfl, of_decide_eq_true h⟩)
      | branch c =>
          obtain ⟨hjt, hjf⟩ := Bool.and_eq_true_iff.mp h
          refine Or.inr (Or.inl ⟨_, rfl, ?_⟩)
          split
          · exact of_decide_eq_true hjt
          · exact of_decide_eq_true hjf
      | returnK => exact Or.inr (Or.inr ⟨_, rfl⟩)
      | returnA => exact Or.inr (Or.inr ⟨_, rfl⟩)

end Instructions

/-! ## Programs that the checker takes -/

section Checked

variable {load : BitVec 32 → Option (BitVec 32)} {readable : BitVec 32 → Bool}

/-- From every instruction of a checked program on, the execution ends at a return. -/
theorem isSome_eval (hload : ∀ k, readable k = true → (load k).isSome = true) {prog : List SockFilter}
    (h : check readable prog = true) {n : Nat} (hn : n < prog.length) (a : BitVec 32) :
    (eval load prog n a).isSome = true := by
  -- on what is left of the program: every instruction leads to a later one
  induction prog generalizing n a with
  | nil => exact absurd hn (Nat.not_lt_zero n)
  | cons insn rest ih =>
      obtain ⟨hlegal, hrest⟩ := Bool.and_eq_true_iff.mp h
      cases n with
      | succ n => exact ih hrest (Nat.lt_of_succ_lt_succ hn) a
      | zero =>
          rcases exists_effect hload hlegal a with ⟨a', heffect, hleft⟩ | ⟨n, heffect, hleft⟩ | ⟨value, heffect⟩
          · rw [eval, heffect]
            exact ih hrest hleft a'
          · rw [eval, heffect]
            exact ih hrest hleft a
          · rw [eval, heffect]
            rfl

theorem isSome_run (hload : ∀ k, readable k = true → (load k).isSome = true) {prog : List SockFilter}
    (h : accepts readable prog = true) : (run load prog).isSome = true := by
  rw [accepts, Bool.and_eq_true, Bool.and_eq_true, decide_eq_true_eq] at h
  exact isSome_eval hload h.2 h.1.1 0#32

end Checked

/-! ## Chains of tests -/

/-- Compares the words at some offsets with constants and returns one of two values. The first word that differs
leads to the last instruction. -/
def testChain (accept reject : BitVec 32) : List (BitVec 32 × BitVec 32) → List SockFilter
  | [] => [BPF_STMT (BPF_RET ||| BPF_K) accept, BPF_STMT (BPF_RET ||| BPF_K) reject]
  | (offset, value) :: tests =>
      BPF_STMT (BPF_LD ||| BPF_W ||| BPF_ABS) offset ::
        BPF_JUMP (BPF_JMP ||| BPF_JEQ ||| BPF_K) value 0 (BitVec.ofNat 8 (2 * tests.length + 1)) ::
          testChain accept reject tests

section Chains

variable {load : BitVec 32 → Option (BitVec 32)} {readable : BitVec 32 → Bool} {accept reject : BitVec 32}

@[simp] theorem length_testChain (tests : List (BitVec 32 × BitVec 32)) :
    (testChain accept reject tests).length = 2 * tests.length + 2 := by
  induction tests with
  | nil => rfl
  | cons test tests ih =>
      rw [testChain, List.length_cons, List.length_cons, List.length_cons, ih]
      omega

/-- The distance to the last instruction fits into a jump. -/
theorem toNat_distance {tests : List (BitVec 32 × BitVec 32)} (h : tests.length < 128) :
    (BitVec.ofNat 8 (2 * tests.length + 1)).toNat = 2 * tests.length + 1 := by
  rw [BitVec.toNat_ofNat]
  omega

/-- Where a failed test leads to. -/
theorem eval_testChain_last (tests : List (BitVec 32 × BitVec 32)) (a : BitVec 32) :
    eval load (testChain accept reject tests) (2 * tests.length + 1) a = some reject := by
  induction tests with
  | nil => rfl
  | cons test tests ih => exact ih

theorem eval_testChain {tests : List (BitVec 32 × BitVec 32)} (hlength : tests.length ≤ 128)
    (hload : ∀ test ∈ tests, (load test.1).isSome = true) (a : BitVec 32) :
    eval load (testChain accept reject tests) 0 a =
      some (if tests.all fun test => decide (load test.1 = some test.2) then accept else reject) := by
  induction tests generalizing a with
  | nil => rfl
  | cons test tests ih =>
      obtain ⟨offset, value⟩ := test
      obtain ⟨hhead, htail⟩ := List.forall_mem_cons.mp hload
      obtain ⟨word, hword⟩ := Option.isSome_iff_exists.mp hhead
      have hlt : tests.length < 128 := hlength
      rw [testChain, eval_load, hword, Option.bind_some, eval_jeq, toNat_distance hlt, List.all_cons]
      by_cases heq : word = value
      · -- on to the next test
        have htest : load offset = some value := hword.trans (congrArg some heq)
        rw [if_pos heq, decide_eq_true htest, Bool.true_and]
        exact ih (Nat.le_of_lt hlt) htail word
      · have htest : ¬ load offset = some value := by
          intro hvalue
          exact heq (Option.some.inj (hword.symm.trans hvalue))
        rw [if_neg heq, decide_eq_false htest, Bool.false_and]
        exact eval_testChain_last tests word

/-- A chain returns the first value exactly if every word is what it is compared with. -/
theorem run_testChain {tests : List (BitVec 32 × BitVec 32)} (hlength : tests.length ≤ 128)
    (hload : ∀ test ∈ tests, (load test.1).isSome = true) :
    run load (testChain accept reject tests) =
      some (if tests.all fun test => decide (load test.1 = some test.2) then accept else reject) :=
  eval_testChain hlength hload 0#32

theorem check_testChain {tests : List (BitVec 32 × BitVec 32)} (hlength : tests.length ≤ 128)
    (hreadable : ∀ test ∈ tests, readable test.1 = true) :
    check readable (testChain accept reject tests) = true := by
  induction tests with
  | nil => rfl
  | cons test tests ih =>
      obtain ⟨offset, value⟩ := test
      obtain ⟨hhead, htail⟩ := List.forall_mem_cons.mp hreadable
      have hlt : tests.length < 128 := hlength
      have hjump : legal readable (BPF_JUMP (BPF_JMP ||| BPF_JEQ ||| BPF_K) value 0
          (BitVec.ofNat 8 (2 * tests.length + 1))) (2 * tests.length + 2) = true := by
        show (decide (0 < 2 * tests.length + 2) &&
          decide ((BitVec.ofNat 8 (2 * tests.length + 1)).toNat < 2 * tests.length + 2)) = true
        rw [toNat_distance hlt]
        simp
      have hload : legal readable (BPF_STMT (BPF_LD ||| BPF_W ||| BPF_ABS) offset) (2 * tests.length + 3) = true := by
        show (readable offset && decide (0 < 2 * tests.length + 3)) = true
        rw [hhead]
        simp
      rw [testChain, check, check, List.length_cons, length_testChain, hjump, hload, ih (Nat.le_of_lt hlt) htail]
      rfl

theorem accepts_testChain {tests : List (BitVec 32 × BitVec 32)} (hlength : tests.length ≤ 128)
    (hreadable : ∀ test ∈ tests, readable test.1 = true) :
    accepts readable (testChain accept reject tests) = true := by
  rw [accepts, check_testChain hlength hreadable, length_testChain, BPF_MAXINSNS, Bool.and_true, Bool.and_eq_true,
    decide_eq_true_eq, decide_eq_true_eq]
  omega

end Chains

end NeoZygisk.Lib.ClassicBpf
