import NeoZygisk.Ptracer.Tracee

/-!
# One call in the traced process

`remoteCall` builds the frame of a call in the tracer's copy of the registers and in the memory of the
process, sets the registers, lets the process run and reads where it stopped. The copy is passed on from
call to call, also by a call that fails. The four ABIs differ in the registers that take arguments, in
where the return address goes and in the Thumb bit.

`remoteCall_result` gives the value as a function of the outcomes of one call. `remoteCall_regs` says
that the process is left either as it was or at a stop of its own, never with the registers the tracer
started from.
-/

set_option autoImplicit false

namespace NeoZygisk.Ptracer

open NeoZygisk.Lib.Bytes

variable {abi : Abi}

/-! ## The frame -/

/-- `align_stack`. -/
def alignStack (preserve : Word abi) (regs : Regs abi) : Regs abi :=
  regs.set abi.sp ((regs abi.sp - preserve) &&& ~~~15)

/-- A C string with its terminator. The strings of the injector are ASCII. -/
def cString (s : String) : List (BitVec 8) := s.toList.map (fun c => BitVec.ofNat 8 c.toNat) ++ [0]

/-- `push_string`. The address is zero if the write falls short. -/
def pushString (count : Option Nat) (str : String) (regs : Regs abi) (t : Tracee abi) :
    Word abi × Regs abi × Tracee abi :=
  let bytes := cString str
  let regs := alignStack 0 (regs.set abi.sp (regs abi.sp - BitVec.ofNat _ bytes.length))
  let written := writeProc count (regs abi.sp) bytes t
  (if written.1 = some bytes.length then regs abi.sp else 0, regs, written.2)

@[simp] theorem pushString_regs (count : Option Nat) (str : String) (regs : Regs abi)
    (t : Tracee abi) : (pushString count str regs t).2.2.regs = t.regs :=
  writeProc_regs _ _ _ _

/-- The first arguments go to registers. -/
def setArgRegs (args : List (Word abi)) (regs : Regs abi) : Regs abi :=
  (abi.argRegs.zip args).foldl (fun regs arg => regs.set arg.1 arg.2) regs

/-- The other arguments go to the stack, in order. -/
def pushStackArgs (count : Option Nat) (args : List (Word abi)) (regs : Regs abi) (t : Tracee abi) :
    Bool × Regs abi × Tracee abi :=
  let rest := args.drop abi.argRegs.length
  if rest = [] then (true, regs, t)
  else
    let bytes := rest.flatMap wordToBytes
    let regs := regs.set abi.sp (regs abi.sp - BitVec.ofNat _ bytes.length)
    let written := writeProc count (regs abi.sp) bytes t
    (decide (written.1 = some bytes.length), regs, written.2)

/-- The return address goes to the link register or to the stack. -/
def passReturnAddr (count : Option Nat) (returnAddr : Word abi) (regs : Regs abi) (t : Tracee abi) :
    Bool × Regs abi × Tracee abi :=
  match abi.lr with
  | some lr => (true, regs.set lr returnAddr, t)
  | none =>
      let regs := regs.set abi.sp (regs abi.sp - BitVec.ofNat _ abi.wordBytes)
      let written := writeProc count (regs abi.sp) (wordToBytes returnAddr) t
      (decide (written.1 = some abi.wordBytes), regs, written.2)

/-- `CPSR_T_MASK`. -/
def cpsrTMask : Word .arm := 1 <<< 5

/-- The position of the arm status register. -/
def cpsr : Fin (Abi.regCount .arm) := ⟨16, by decide⟩

/-- Sets the instruction pointer. On arm the lowest bit of the address selects Thumb mode and moves to
the status register. -/
def enterFunction : (abi : Abi) → Word abi → Regs abi → Regs abi
  | .x86_64, func, regs => regs.set Abi.x86_64.ip func
  | .i386, func, regs => regs.set Abi.i386.ip func
  | .aarch64, func, regs => regs.set Abi.aarch64.ip func
  | .arm, func, regs =>
      if func &&& 1 ≠ 0 then
        (regs.set Abi.arm.ip (func &&& ~~~1)).set cpsr (regs cpsr ||| cpsrTMask)
      else (regs.set Abi.arm.ip func).set cpsr (regs cpsr &&& ~~~cpsrTMask)

/-! ## The call -/

/-- The outcomes of one remote call. The result of its `PTRACE_CONT` is ignored. -/
structure CallOutcome (abi : Abi) where
  pushArgs : Option Nat
  pushReturn : Option Nat
  setRegs : Bool
  waits : List (WaitReply abi)
  getRegs : Bool

/-- `remote_call`: `none` is a failure, which the caller sees as zero. -/
def remoteCall (o : CallOutcome abi) (func returnAddr : Word abi) (args : List (Word abi))
    (regs : Regs abi) (t : Tracee abi) : Except Abort (Option (Word abi) × Regs abi × Tracee abi) :=
  let regs := setArgRegs args (alignStack 0 regs)
  let pushed := pushStackArgs o.pushArgs args regs t
  if pushed.1 = false then .ok (none, pushed.2)
  else
    let linked := passReturnAddr o.pushReturn returnAddr pushed.2.1 pushed.2.2
    if linked.1 = false then .ok (none, linked.2)
    else
      let regs := enterFunction abi func linked.2.1
      if o.setRegs = false then .ok (none, regs, linked.2.2)
      else
        match waitForTrace o.waits { linked.2.2 with regs := regs } with
        | .error e => .error e
        | .ok (_, t) =>
            if o.getRegs = false then .ok (none, regs, t)
            else .ok (if t.regs abi.ip = returnAddr then some (t.regs abi.ret) else none, t.regs, t)

/-! ## What a call comes to -/

/-- The frame of a call with `nargs` arguments reaches the process. -/
def CallOutcome.Pushes (o : CallOutcome abi) (nargs : Nat) : Prop :=
  (nargs ≤ abi.argRegs.length ∨
      Complete o.pushArgs ((nargs - abi.argRegs.length) * abi.wordBytes)) ∧
    (abi.lr.isSome ∨ Complete o.pushReturn abi.wordBytes)

instance (o : CallOutcome abi) (nargs : Nat) : Decidable (o.Pushes nargs) :=
  inferInstanceAs (Decidable (_ ∧ _))

/-- The value of a call: the return register, if the process stops at the return address. -/
def CallOutcome.result (o : CallOutcome abi) (nargs : Nat) (returnAddr : Word abi) :
    Except Abort (Option (Word abi)) :=
  if o.Pushes nargs ∧ o.setRegs then
    (awaited o.waits).map fun s =>
      if o.getRegs ∧ s.regs abi.ip = returnAddr then some (s.regs abi.ret) else none
  else .ok none

theorem length_flatMap_wordToBytes (args : List (Word abi)) :
    (args.flatMap wordToBytes).length = args.length * abi.wordBytes :=
  length_flatMap_of_length length_wordToBytes args

theorem pushStackArgs_ok (count : Option Nat) (args : List (Word abi)) (regs : Regs abi)
    (t : Tracee abi) :
    (pushStackArgs count args regs t).1 = true ↔
      args.length ≤ abi.argRegs.length ∨
        Complete count ((args.length - abi.argRegs.length) * abi.wordBytes) := by
  simp only [pushStackArgs]
  split
  · rename_i hnil
    simp only [true_iff]
    exact .inl (List.drop_eq_nil_iff.mp hnil)
  · rename_i hcons
    have hlong : ¬ args.length ≤ abi.argRegs.length := fun h => hcons (List.drop_eq_nil_iff.mpr h)
    rw [decide_eq_true_eq, writeProc_complete, length_flatMap_wordToBytes, List.length_drop]
    simp only [hlong, false_or]

theorem pushStackArgs_regs (count : Option Nat) (args : List (Word abi)) (regs : Regs abi)
    (t : Tracee abi) : (pushStackArgs count args regs t).2.2.regs = t.regs := by
  simp only [pushStackArgs]
  split
  · rfl
  · exact writeProc_regs _ _ _ _

theorem passReturnAddr_ok (count : Option Nat) (returnAddr : Word abi) (regs : Regs abi)
    (t : Tracee abi) :
    (passReturnAddr count returnAddr regs t).1 = true ↔
      abi.lr.isSome = true ∨ Complete count abi.wordBytes := by
  have hlength : (wordToBytes returnAddr).length = abi.wordBytes := by simp [wordToBytes]
  simp only [passReturnAddr]
  cases abi.lr with
  | some lr => simp
  | none =>
      have hwrite := writeProc_complete count (regs.set abi.sp
        (regs abi.sp - BitVec.ofNat _ abi.wordBytes) abi.sp) (wordToBytes returnAddr) t
      rw [hlength] at hwrite
      simpa using hwrite

theorem passReturnAddr_regs (count : Option Nat) (returnAddr : Word abi) (regs : Regs abi)
    (t : Tracee abi) : (passReturnAddr count returnAddr regs t).2.2.regs = t.regs := by
  simp only [passReturnAddr]
  cases abi.lr with
  | some lr => rfl
  | none => exact writeProc_regs _ _ _ _

/-- The value depends on the outcomes alone. -/
theorem remoteCall_result (o : CallOutcome abi) (func returnAddr : Word abi) (args : List (Word abi))
    (regs : Regs abi) (t : Tracee abi) :
    (remoteCall o func returnAddr args regs t).map (·.1) = o.result args.length returnAddr := by
  simp only [remoteCall, CallOutcome.result]
  -- along the call: the arguments, the return address, the registers, the stop
  split
  · rename_i hargs
    rw [if_neg]
    · rfl
    · rintro ⟨⟨hpushed, -⟩, -⟩
      rw [(pushStackArgs_ok _ _ _ _).mpr hpushed] at hargs
      cases hargs
  · rename_i hargs
    have hpushed := (pushStackArgs_ok _ _ _ _).mp (Bool.not_eq_false _ |>.mp hargs)
    split
    · rename_i hreturn
      rw [if_neg]
      · rfl
      · rintro ⟨⟨-, hlinked⟩, -⟩
        rw [(passReturnAddr_ok _ _ _ _).mpr hlinked] at hreturn
        cases hreturn
    · rename_i hreturn
      have hpushes : o.Pushes args.length :=
        ⟨hpushed, (passReturnAddr_ok _ _ _ _).mp (Bool.not_eq_false _ |>.mp hreturn)⟩
      cases hset : o.setRegs with
      | false => simp [Except.map]
      | true =>
          simp only [hpushes, and_self, if_true, Bool.true_eq_false, if_false]
          rw [waitForTrace_eq]
          cases awaited o.waits with
          | error e => rfl
          | ok s =>
              cases o.getRegs with
              | false => rfl
              | true => simp [Except.map, Tracee.stopAt]

/-- A call leaves the process as it was, or at the stop it waited for. -/
theorem remoteCall_regs {o : CallOutcome abi} {func returnAddr : Word abi} {args : List (Word abi)}
    {regs : Regs abi} {t : Tracee abi} {r : Option (Word abi) × Regs abi × Tracee abi}
    (h : remoteCall o func returnAddr args regs t = .ok r) :
    r.2.2.regs = t.regs ∨ ∃ s, awaited o.waits = .ok s ∧ r.2.2.regs = s.regs := by
  simp only [remoteCall] at h
  split at h
  · cases h
    exact .inl (pushStackArgs_regs _ _ _ _)
  · split at h
    · cases h
      left
      rw [passReturnAddr_regs, pushStackArgs_regs]
    · split at h
      · cases h
        left
        rw [passReturnAddr_regs, pushStackArgs_regs]
      · -- Once the registers are set, the call can only come back with a stop of the process.
        right
        rw [waitForTrace_eq] at h
        cases hs : awaited o.waits with
        | error e =>
            rw [hs] at h
            cases h
        | ok s =>
            rw [hs] at h
            refine ⟨s, rfl, ?_⟩
            simp only [Except.map] at h
            split at h
            · cases h
              rfl
            · cases h
              rfl

end NeoZygisk.Ptracer
