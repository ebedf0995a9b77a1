import NeoZygisk.Ptracer.Injection

/-!
# The startup block of a program

The kernel leaves the argument count, the arguments, the environment and the auxiliary vector on the
stack of a new process. `StartupBlock` is a well-formed one, and `locateEntry_eq` says what the injector's
scan makes of it: the entry address of the first `AT_ENTRY` and the address it is stored at.
-/

set_option autoImplicit false

namespace NeoZygisk.Ptracer

open NeoZygisk.Lib.Bytes

variable {abi : Abi}

/-! ## Words in memory -/

@[simp] theorem wordsOn_zero (addr : Word abi) : wordsOn addr 0 = addr := by
  simp [wordsOn]

@[simp] theorem wordsOn_wordsOn (addr : Word abi) (m n : Nat) :
    wordsOn (wordsOn addr m) n = wordsOn addr (m + n) := by
  simp only [wordsOn, Nat.add_mul, BitVec.ofNat_add, BitVec.add_assoc]

/-- The words from an address on. -/
def Stores (t : Tracee abi) : Word abi → List (Word abi) → Prop
  | _, [] => True
  | p, v :: vs => t.word p = v ∧ Stores t (wordsOn p 1) vs

instance Stores.decidable (t : Tracee abi) : ∀ (p : Word abi) (vs : List (Word abi)), Decidable (Stores t p vs)
  | _, [] => inferInstanceAs (Decidable True)
  | p, v :: vs =>
      have := Stores.decidable t (wordsOn p 1) vs
      inferInstanceAs (Decidable (t.word p = v ∧ Stores t (wordsOn p 1) vs))

theorem Stores.append {t : Tracee abi} {p : Word abi} {xs ys : List (Word abi)}
    (h : Stores t p (xs ++ ys)) : Stores t p xs ∧ Stores t (wordsOn p xs.length) ys := by
  induction xs generalizing p with
  | nil => exact ⟨trivial, by simpa using h⟩
  | cons x xs ih =>
      obtain ⟨hx, hrest⟩ := h
      obtain ⟨hxs, hys⟩ := ih hrest
      refine ⟨⟨hx, hxs⟩, ?_⟩
      rw [wordsOn_wordsOn, Nat.add_comm] at hys
      exact hys

/-! ## A well-formed block -/

/-- The words of auxiliary vector entries. -/
def auxWords (entries : List (Word abi × Word abi)) : List (Word abi) :=
  entries.flatMap fun entry => [entry.1, entry.2]

/-- The startup block of a program, with the auxiliary vector taken apart at its first `AT_ENTRY`. The
entry address is a real one: not null, and not the address the injector makes the process fault at. -/
structure StartupBlock (t : Tracee abi) where
  argv : List (Word abi)
  env : List (Word abi)
  before : List (Word abi × Word abi)
  entry : Word abi
  after : List (Word abi × Word abi)
  argc_eq : t.mem.readWord (t.regs abi.sp) 4 = argv.length
  argc_lt : argv.length < 2 ^ 31
  argv_ne : ∀ v ∈ argv, v ≠ 0
  env_ne : ∀ v ∈ env, v ≠ 0
  before_ne : ∀ a ∈ before, a.1 ≠ 0 ∧ a.1 ≠ BitVec.ofNat _ atEntry
  after_ne : ∀ a ∈ after, a.1 ≠ 0
  entry_ne : entry ≠ 0
  entry_ne_trap : entry ≠ trapAddr entry
  words : Stores t (wordsOn (t.regs abi.sp) 1)
    (argv ++ 0 :: (env ++ 0 :: (auxWords before ++
      BitVec.ofNat _ atEntry :: entry :: (auxWords after ++ [0]))))

namespace StartupBlock

variable {t : Tracee abi} (b : StartupBlock t)

/-- The position of the environment in the block. -/
def envp : Word abi := wordsOn (t.regs abi.sp) (1 + b.argv.length + 1)

/-- The position of the auxiliary vector. -/
def auxv : Word abi := wordsOn b.envp (b.env.length + 1)

/-- Where the entry address is stored. -/
def slot : Word abi := wordsOn b.auxv (2 * b.before.length + 1)

theorem stores_env : Stores t b.envp (b.env ++ 0 :: (auxWords b.before ++
    BitVec.ofNat _ atEntry :: b.entry :: (auxWords b.after ++ [0]))) := by
  have h := b.words.append.2.2
  rw [wordsOn_wordsOn, wordsOn_wordsOn] at h
  exact h

theorem stores_auxv : Stores t b.auxv (auxWords b.before ++
    BitVec.ofNat _ atEntry :: b.entry :: (auxWords b.after ++ [0])) := by
  have h := b.stores_env.append.2.2
  rw [wordsOn_wordsOn] at h
  exact h

end StartupBlock

/-! ## The scan -/

theorem skipEnv_eq {t : Tracee abi} {p : Word abi} {env rest : List (Word abi)} {fuel : Nat}
    (h : Stores t p (env ++ 0 :: rest)) (hne : ∀ v ∈ env, v ≠ 0) (hfuel : env.length < fuel) :
    skipEnv t fuel p = some (wordsOn p (env.length + 1)) := by
  -- over the strings of the environment; the pointer moves with them
  induction env generalizing p fuel with
  | nil =>
      obtain ⟨fuel, rfl⟩ := Nat.exists_eq_add_of_lt hfuel
      simp only [List.length_nil, Nat.zero_add, skipEnv]
      rw [if_neg (not_not.mpr h.1)]
  | cons v env ih =>
      cases fuel with
      | zero => simp at hfuel
      | succ fuel =>
          have hv : t.word p ≠ 0 := by
            rw [h.1]
            exact hne v List.mem_cons_self
          have hrest := ih h.2 (fun u hu => hne u (List.mem_cons_of_mem v hu))
            (by simpa using hfuel)
          rw [skipEnv, if_pos hv, hrest, wordsOn_wordsOn, List.length_cons]
          congr 2
          omega

theorem ofNat_atEntry_ne (abi : Abi) : (BitVec.ofNat _ atEntry : Word abi) ≠ 0 := by
  cases abi <;> decide

theorem findEntry_eq {t : Tracee abi} {v entry : Word abi} {before : List (Word abi × Word abi)}
    {rest : List (Word abi)} {fuel : Nat}
    (h : Stores t v (auxWords before ++ BitVec.ofNat _ atEntry :: entry :: rest))
    (hne : ∀ a ∈ before, a.1 ≠ 0 ∧ a.1 ≠ BitVec.ofNat _ atEntry) (hfuel : before.length < fuel) :
    findEntry t fuel v = some (entry, wordsOn v (2 * before.length + 1)) := by
  -- over the entries in front of `AT_ENTRY`, two words each
  induction before generalizing v fuel with
  | nil =>
      cases fuel with
      | zero => simp at hfuel
      | succ fuel =>
          obtain ⟨htype, hvalue, -⟩ := h
          rw [findEntry, if_neg (by rw [htype]; exact ofNat_atEntry_ne abi), if_pos htype, hvalue]
          rfl
  | cons a before ih =>
      cases fuel with
      | zero => simp at hfuel
      | succ fuel =>
          obtain ⟨htype, -, hrest⟩ := h
          obtain ⟨hnull, hother⟩ := hne a List.mem_cons_self
          rw [wordsOn_wordsOn] at hrest
          have hscan := ih hrest (fun u hu => hne u (List.mem_cons_of_mem a hu))
            (by simpa using hfuel)
          rw [findEntry, htype, if_neg hnull, if_neg hother, hscan, wordsOn_wordsOn,
            List.length_cons]
          congr 3
          omega

/-- The scan starts behind the arguments. Their count is an `int`, and not negative. -/
theorem locateEntry_of_argc {t : Tracee abi} {argc : Nat} (hargc : t.mem.readWord (t.regs abi.sp) 4 = argc)
    (hlt : argc < 2 ^ 31) (fuel : Nat) :
    locateEntry fuel t = (skipEnv t fuel (wordsOn (t.regs abi.sp) (1 + argc + 1))).bind (findEntry t fuel) := by
  have hnat : (BitVec.ofNat 32 argc).toNat = argc := by
    rw [BitVec.toNat_ofNat, Nat.mod_eq_of_lt]
    omega
  have hint : (BitVec.ofNat 32 argc).toInt = argc := by
    rw [BitVec.toInt_eq_toNat_of_lt]
    · rw [hnat]
    · rw [hnat]
      omega
  have henvp : wordsOn (t.regs abi.sp) 1 + BitVec.ofInt _ (((argc : Int) + 1) * abi.wordBytes) =
      wordsOn (t.regs abi.sp) (1 + argc + 1) := by
    have hcast : ((argc : Int) + 1) * abi.wordBytes = (((argc + 1) * abi.wordBytes : Nat) : Int) := by
      push_cast
      rfl
    rw [hcast, BitVec.ofInt_natCast]
    exact wordsOn_wordsOn _ 1 (argc + 1)
  simp only [locateEntry, hargc, hint, henvp]

/-- The scan ends, with the entry address and its slot. -/
theorem locateEntry_eq {t : Tracee abi} (b : StartupBlock t) {fuel : Nat}
    (henv : b.env.length < fuel) (hauxv : b.before.length < fuel) :
    locateEntry fuel t = some (b.entry, b.slot) := by
  have hskip := skipEnv_eq b.stores_env b.env_ne henv
  rw [StartupBlock.envp] at hskip
  rw [locateEntry_of_argc b.argc_eq b.argc_lt, hskip]
  exact findEntry_eq b.stores_auxv b.before_ne hauxv

end NeoZygisk.Ptracer
