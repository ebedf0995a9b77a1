import NeoZygisk.Ptracer.CompleteWrites

/-!
# Any argument block

`ArgumentBlock` is what the kernel may leave on the stack of a new process: any number of arguments, of strings in
the environment and of entries in the auxiliary vector. The injector stops at the first `AT_ENTRY`, whatever its
value is (`FirstEntry`). `locateEntry_block` says that the scan ends on every block: with that entry if its value
is not zero, and otherwise with a failure before anything is written.
-/

set_option autoImplicit false

namespace NeoZygisk.Ptracer

open NeoZygisk.Lib.Bytes

variable {abi : Abi}

/-! ## Blocks -/

/-- A well-formed argument block at the stack pointer. The types of the auxiliary vector's entries are not
`AT_NULL`, which ends it. -/
structure ArgumentBlock (t : Tracee abi) where
  argv : List (Word abi)
  env : List (Word abi)
  auxv : List (Word abi × Word abi)
  nullValue : Word abi
  argc_eq : t.mem.readWord (t.regs abi.sp) 4 = argv.length
  argc_lt : argv.length < 2 ^ 31
  env_ne : ∀ v ∈ env, v ≠ 0
  auxv_ne : ∀ a ∈ auxv, a.1 ≠ 0
  words : Stores t (wordsOn (t.regs abi.sp) 1)
    (argv ++ 0 :: (env ++ 0 :: (auxWords auxv ++ [0, nullValue])))

/-- The first `AT_ENTRY` of an auxiliary vector comes behind the entries `before`. -/
structure FirstEntry (auxv before : List (Word abi × Word abi)) (entry : Word abi) : Prop where
  split : ∃ after, auxv = before ++ (BitVec.ofNat _ atEntry, entry) :: after
  first : ∀ a ∈ before, a.1 ≠ BitVec.ofNat _ atEntry

theorem FirstEntry.length_lt {auxv before : List (Word abi × Word abi)} {entry : Word abi}
    (h : FirstEntry auxv before entry) : before.length < auxv.length := by
  obtain ⟨after, rfl⟩ := h.split
  rw [List.length_append, List.length_cons]
  omega

/-- A vector has no `AT_ENTRY`, or a first one. -/
theorem firstEntry_or_none (auxv : List (Word abi × Word abi)) :
    (∀ a ∈ auxv, a.1 ≠ BitVec.ofNat _ atEntry) ∨ ∃ before entry, FirstEntry auxv before entry := by
  induction auxv with
  | nil => exact .inl (List.forall_mem_nil _)
  | cons a auxv ih =>
      obtain ⟨type, value⟩ := a
      by_cases htype : type = BitVec.ofNat _ atEntry
      · subst htype
        exact .inr ⟨[], value, ⟨auxv, rfl⟩, List.forall_mem_nil _⟩
      · rcases ih with hnone | ⟨before, entry, ⟨after, rfl⟩, hfirst⟩
        · exact .inl (List.forall_mem_cons.mpr ⟨htype, hnone⟩)
        · exact .inr ⟨(type, value) :: before, entry, ⟨after, rfl⟩,
            List.forall_mem_cons.mpr ⟨htype, hfirst⟩⟩

namespace ArgumentBlock

variable {t : Tracee abi} (b : ArgumentBlock t)

/-- The position of the environment. -/
def envp : Word abi := wordsOn (t.regs abi.sp) (1 + b.argv.length + 1)

/-- The position of the auxiliary vector. -/
def auxvAddr : Word abi := wordsOn b.envp (b.env.length + 1)

/-- Where the value of the entry behind `n` entries is stored. -/
def valueAddr (n : Nat) : Word abi := wordsOn b.auxvAddr (2 * n + 1)

theorem stores_env : Stores t b.envp (b.env ++ 0 :: (auxWords b.auxv ++ [0, b.nullValue])) := by
  have h := b.words.append.2.2
  rw [wordsOn_wordsOn, wordsOn_wordsOn] at h
  exact h

theorem stores_auxv : Stores t b.auxvAddr (auxWords b.auxv ++ [0, b.nullValue]) := by
  have h := b.stores_env.append.2.2
  rw [wordsOn_wordsOn] at h
  exact h

/-- Past the environment, only the scan of the auxiliary vector is left. -/
theorem locateEntry_eq_findEntry {fuel : Nat} (henv : b.env.length < fuel) :
    locateEntry fuel t = findEntry t fuel b.auxvAddr := by
  have hskip := skipEnv_eq b.stores_env b.env_ne henv
  rw [envp] at hskip
  rw [locateEntry_of_argc b.argc_eq b.argc_lt, hskip]
  rfl

end ArgumentBlock

/-! ## The scan -/

theorem auxWords_append (xs ys : List (Word abi × Word abi)) : auxWords (xs ++ ys) = auxWords xs ++ auxWords ys :=
  List.flatMap_append

/-- Without an `AT_ENTRY` the scan goes on to `AT_NULL`. -/
theorem findEntry_none {t : Tracee abi} {v : Word abi} {auxv : List (Word abi × Word abi)}
    {rest : List (Word abi)} {fuel : Nat} (h : Stores t v (auxWords auxv ++ 0 :: rest))
    (hne : ∀ a ∈ auxv, a.1 ≠ 0) (hother : ∀ a ∈ auxv, a.1 ≠ BitVec.ofNat _ atEntry)
    (hfuel : auxv.length < fuel) :
    findEntry t fuel v = some (0, 0) := by
  -- on the entries, two words each
  induction auxv generalizing v fuel with
  | nil =>
      obtain ⟨fuel, rfl⟩ := Nat.exists_eq_add_of_lt hfuel
      rw [List.length_nil, Nat.zero_add, findEntry, if_pos h.1]
  | cons a auxv ih =>
      cases fuel with
      | zero => exact absurd hfuel (Nat.not_lt_zero _)
      | succ fuel =>
          obtain ⟨htype, -, hrest⟩ := h
          rw [wordsOn_wordsOn] at hrest
          obtain ⟨hnull, hnull'⟩ := List.forall_mem_cons.mp hne
          obtain ⟨hentry, hentry'⟩ := List.forall_mem_cons.mp hother
          rw [findEntry, htype, if_neg hnull, if_neg hentry]
          exact ih hrest hnull' hentry' (Nat.lt_of_succ_lt_succ hfuel)

variable {t : Tracee abi} (b : ArgumentBlock t)

/-- The scan stops at the first `AT_ENTRY`. -/
theorem locateEntry_of_firstEntry {before : List (Word abi × Word abi)} {entry : Word abi} {fuel : Nat}
    (henv : b.env.length < fuel) (hbefore : before.length < fuel) (h : FirstEntry b.auxv before entry) :
    locateEntry fuel t = some (entry, b.valueAddr before.length) := by
  obtain ⟨after, hsplit⟩ := h.split
  have hstores := b.stores_auxv
  have hother : ∀ a ∈ before, a.1 ≠ 0 ∧ a.1 ≠ BitVec.ofNat _ atEntry := by
    intro a ha
    refine ⟨b.auxv_ne a ?_, h.first a ha⟩
    rw [hsplit]
    exact List.mem_append_left _ ha
  -- none of the entries before it ends the scan
  rw [hsplit, auxWords_append, List.append_assoc] at hstores
  rw [b.locateEntry_eq_findEntry henv]
  exact findEntry_eq hstores hother hbefore

/-- On every block the scan ends. If the value of the first `AT_ENTRY` is not zero, it finds the value and where it is
stored; if it is zero, or there is none, the injection fails with nothing done to the process. -/
theorem locateEntry_block (libPath tmpPath : String) (mode : TraceMode) :
    ∃ bound, ∀ o : Outcomes abi, bound ≤ o.fuel →
      (∀ before entry, FirstEntry b.auxv before entry → entry ≠ 0 →
        locateEntry o.fuel t = some (entry, b.valueAddr before.length)) ∧
      ((∀ before entry, FirstEntry b.auxv before entry → entry = 0) →
        injectBeforeStartLogged o libPath tmpPath mode t = ([], .ok (.failure, t))) := by
  refine ⟨b.env.length + b.auxv.length + 1, ?_⟩
  intro o hfuel
  have henv : b.env.length < o.fuel := by omega
  have hauxv : b.auxv.length < o.fuel := by omega
  refine ⟨?_, ?_⟩
  · intro before entry h _
    exact locateEntry_of_firstEntry b henv (Nat.lt_trans h.length_lt hauxv) h
  · intro hzero
    -- `entry_addr` stays zero, or is set to zero
    have hlocate : ∃ slot, locateEntry o.fuel t = some (0, slot) := by
      rcases firstEntry_or_none b.auxv with hnone | ⟨before, entry, h⟩
      · refine ⟨0, ?_⟩
        rw [b.locateEntry_eq_findEntry henv]
        exact findEntry_none b.stores_auxv b.auxv_ne hnone hauxv
      · obtain rfl := hzero before entry h
        exact ⟨_, locateEntry_of_firstEntry b henv (Nat.lt_trans h.length_lt hauxv) h⟩
    obtain ⟨slot, hslot⟩ := hlocate
    rw [injectBeforeStartLogged, hslot]
    split
    · rfl
    · simp only [↓reduceIte]

/-- A zygote with two arguments, three strings in its environment and `AT_ENTRY` in the middle of its auxiliary
vector. -/
def startedZygote : Tracee .aarch64 where
  regs := stopRegs 0x7000000000 0
  mem := Memory.write (fun _ => 0) 0x7ffffff000
    (List.flatMap wordToBytes ([2, 0x7ffffff800, 0x7ffffff820, 0, 0x7ffffff840, 0x7ffffff860, 0x7ffffff880, 0,
      3, 0x5500000040, 6, 4096, 9, 0x5500001000, 7, 0x7000000000, 0, 0] : List (Word .aarch64)))
  stopRegs := stopRegs 0x7000000000 0

def startedZygoteBlock : ArgumentBlock startedZygote where
  argv := [0x7ffffff800, 0x7ffffff820]
  env := [0x7ffffff840, 0x7ffffff860, 0x7ffffff880]
  auxv := [(3, 0x5500000040), (6, 4096), (9, 0x5500001000), (7, 0x7000000000)]
  nullValue := 0
  argc_eq := by decide +kernel
  argc_lt := by simp
  env_ne := by
    simp only [List.forall_mem_cons]
    refine ⟨?_, ?_, ?_, List.forall_mem_nil _⟩
    all_goals decide
  auxv_ne := by
    simp only [List.forall_mem_cons]
    refine ⟨?_, ?_, ?_, ?_, List.forall_mem_nil _⟩
    all_goals decide
  words := by decide +kernel

theorem locateEntry_zygote :
    ∃ fuel, locateEntry fuel startedZygote = some (0x5500001000, startedZygoteBlock.valueAddr 2) := by
  obtain ⟨bound, hblock⟩ := locateEntry_block startedZygoteBlock "/data/adb/neozygisk/lib64/libzygisk.so"
    "/data/adb/neozygisk" .spawn
  obtain ⟨hfound, -⟩ := hblock { spawnInjection 0 with fuel := bound } (Nat.le_refl bound)
  have hfirst : FirstEntry startedZygoteBlock.auxv [(3, 0x5500000040), (6, 4096)] 0x5500001000 :=
    ⟨⟨[(7, 0x7000000000)], rfl⟩,
      List.forall_mem_cons.mpr ⟨by decide, List.forall_mem_cons.mpr ⟨by decide, List.forall_mem_nil _⟩⟩⟩
  exact ⟨bound, hfound [(3, 0x5500000040), (6, 4096)] 0x5500001000 hfirst (by decide)⟩

/-! ## Two entries -/

/-- A process whose auxiliary vector has an `AT_ENTRY` of zero before the other one. -/
def twoEntries : Tracee .aarch64 where
  regs := stopRegs 0x7000000000 0
  mem := Memory.write (fun _ => 0) 0x7ffffff000
    (List.flatMap wordToBytes ([1, 0x7ffffff800, 0, 0, 9, 0, 9, 0x5500001000, 0, 0] : List (Word .aarch64)))
  stopRegs := stopRegs 0x7000000000 0

def twoEntriesBlock : ArgumentBlock twoEntries where
  argv := [0x7ffffff800]
  env := []
  auxv := [(9, 0), (9, 0x5500001000)]
  nullValue := 0
  argc_eq := by decide
  argc_lt := zygoteBlock.argc_lt
  env_ne := zygoteBlock.env_ne
  auxv_ne := by
    intro a ha
    rcases List.mem_pair.mp ha with rfl | rfl
    · decide
    · decide
  words := by decide +kernel

/-- There is an `AT_ENTRY` that is not zero, and the scan never gets to it. -/
theorem twoEntries_not_located :
    (9, 0x5500001000) ∈ twoEntriesBlock.auxv ∧
      ∀ fuel slot, locateEntry fuel twoEntries ≠ some (0x5500001000, slot) := by
  refine ⟨by decide, ?_⟩
  intro fuel slot hlocate
  cases fuel with
  | zero => cases hlocate
  | succ fuel =>
      have hfirst : FirstEntry twoEntriesBlock.auxv [] 0 := ⟨⟨_, rfl⟩, List.forall_mem_nil _⟩
      have hzero : locateEntry (fuel + 1) twoEntries = some (0, twoEntriesBlock.valueAddr 0) := by
        apply locateEntry_of_firstEntry twoEntriesBlock (Nat.succ_pos fuel) _ hfirst
        exact Nat.succ_pos fuel
      have hvalue : (0x5500001000 : Word .aarch64) = 0 :=
        congrArg Prod.fst (Option.some.inj (hlocate.symm.trans hzero))
      exact absurd hvalue (by decide)

end NeoZygisk.Ptracer
