import NeoZygisk.Ptracer.RemoteCall
import NeoZygisk.Lib.Mask

/-!
# The frame a called function finds

`remote_call` rounds the stack pointer down to sixteen bytes before it pushes the arguments that have no
register and, on x86, the return address. What the function finds at its first instruction is read here the
way its ABI reads it: the arguments (`calleeArg`), the address it returns to (`calleeReturn`), where it is
entered (`EntersAt`) and how its stack is aligned (`Abi.EntryAligned`).

Everything but the alignment is right for any number of arguments (`calleeArg_of_continuedAt` and the lemmas
after it). The pushed words undo the alignment unless they come in units of sixteen bytes, or of eight on arm
(`accepts_iff`).
-/

set_option autoImplicit false

namespace NeoZygisk.Ptracer

open NeoZygisk.Lib.Bytes
open NeoZygisk.Lib.Mask

variable {abi : Abi}

/-! ## The process when it is continued -/

/-- The process as `remote_call` continues it, or `none` if the call fails before that. -/
def continuedAt (o : CallOutcome abi) (func returnAddr : Word abi) (args : List (Word abi))
    (regs : Regs abi) (t : Tracee abi) : Option (Tracee abi) :=
  let regs := setArgRegs args (alignStack 0 regs)
  let pushed := pushStackArgs o.pushArgs args regs t
  if pushed.1 = false then none
  else
    let linked := passReturnAddr o.pushReturn returnAddr pushed.2.1 pushed.2.2
    if linked.1 = false then none
    else if o.setRegs = false then none
    else some { linked.2.2 with regs := enterFunction abi func linked.2.1 }

/-- A call that gets so far is the wait for that process. -/
theorem remoteCall_of_continuedAt {o : CallOutcome abi} {func returnAddr : Word abi}
    {args : List (Word abi)} {regs : Regs abi} {t u : Tracee abi}
    (h : continuedAt o func returnAddr args regs t = some u) :
    remoteCall o func returnAddr args regs t =
      match waitForTrace o.waits u with
      | .error e => .error e
      | .ok (_, t) =>
          if o.getRegs = false then .ok (none, u.regs, t)
          else .ok (if t.regs abi.ip = returnAddr then some (t.regs abi.ret) else none, t.regs, t) := by
  simp only [continuedAt] at h
  split at h
  · cases h
  · rename_i hpushed
    split at h
    · cases h
    · rename_i hlinked
      split at h
      · cases h
      · rename_i hset
        cases hwait : waitForTrace o.waits u with
        | error e =>
            obtain rfl := Option.some.inj h
            simp only [remoteCall, if_neg hpushed, if_neg hlinked, if_neg hset, hwait]
        | ok stopped =>
            obtain rfl := Option.some.inj h
            simp only [remoteCall, if_neg hpushed, if_neg hlinked, if_neg hset, hwait]

/-! ## What the ABI says -/

/-- The bytes between the stack pointer and the stack arguments when a function is entered. -/
def Abi.returnSize (abi : Abi) : Nat := if abi.lr.isSome then 0 else abi.wordBytes

/-- The argument `i` as the function that was entered reads it. -/
def calleeArg (u : Tracee abi) (i : Nat) : Word abi :=
  match abi.argRegs[i]? with
  | some r => u.regs r
  | none =>
      let offset := (i - abi.argRegs.length) * abi.wordBytes + abi.returnSize
      u.word (u.regs abi.sp + BitVec.ofNat _ offset)

/-- Where the function that was entered returns to. -/
def calleeReturn (u : Tracee abi) : Word abi :=
  match abi.lr with
  | some lr => u.regs lr
  | none => u.word (u.regs abi.sp)

/-- The function is entered at its address. On arm the lowest bit of the address selects Thumb mode: it goes to
the status register, whose other bits stay. -/
def EntersAt : (abi : Abi) → Word abi → Regs abi → Regs abi → Prop
  | .x86_64, func, _, entered => entered Abi.x86_64.ip = func
  | .i386, func, _, entered => entered Abi.i386.ip = func
  | .aarch64, func, _, entered => entered Abi.aarch64.ip = func
  | .arm, func, regs, entered =>
      entered Abi.arm.ip = func &&& ~~~1 ∧ has (entered cpsr) cpsrTMask = has func 1 ∧
        entered cpsr &&& ~~~cpsrTMask = regs cpsr &&& ~~~cpsrTMask

/-- The alignment of the stack pointer at the first instruction of a function. -/
def Abi.EntryAligned : (abi : Abi) → Word abi → Prop
  | .x86_64, sp => sp.toNat % 16 = 8
  | .i386, sp => sp.toNat % 16 = 12
  | .aarch64, sp => sp.toNat % 16 = 0
  | .arm, sp => sp.toNat % 8 = 0

/-- The process `u` is one in which the ABI lets `func` run on `args`, and nothing from the old stack pointer
upwards was written. -/
structure Accepts (func returnAddr : Word abi) (args : List (Word abi)) (regs : Regs abi)
    (t u : Tracee abi) : Prop where
  args : ∀ i (h : i < args.length), calleeArg u i = args[i]
  returns : calleeReturn u = returnAddr
  enters : EntersAt abi func regs u.regs
  aligned : abi.EntryAligned (u.regs abi.sp)
  frame : ∀ a, regs abi.sp ≤ a → u.mem a = t.mem a

/-- The bytes a call with `nargs` arguments pushes. -/
def Abi.frameSize (abi : Abi) (nargs : Nat) : Nat :=
  (nargs - abi.argRegs.length) * abi.wordBytes + abi.returnSize

/-- There is room for a call below the stack pointer. -/
def Abi.HasRoom (abi : Abi) (nargs : Nat) (sp : Word abi) : Prop :=
  abi.frameSize nargs ≤ sp.toNat - sp.toNat % 16

/-- How many stack arguments fill a unit of alignment. -/
def Abi.argUnit : Abi → Nat
  | .x86_64 => 2
  | .i386 => 4
  | .aarch64 => 2
  | .arm => 2

/-! ## Registers -/

theorem Regs.set_of_ne (regs : Regs abi) {r r' : Fin abi.regCount} (v : Word abi) (h : r' ≠ r) :
    regs.set r v r' = regs r' := by
  simp only [Regs.set, Function.update_of_ne h]

/-- A register that no pair names keeps its value. -/
theorem foldl_set_of_not_mem (rs : List (Fin abi.regCount)) (args : List (Word abi)) (regs : Regs abi)
    {r : Fin abi.regCount} (h : r ∉ rs) :
    (rs.zip args).foldl (fun regs arg => regs.set arg.1 arg.2) regs r = regs r := by
  induction rs generalizing args regs with
  | nil => rfl
  | cons r' rs ih =>
      cases args with
      | nil => rfl
      | cons arg args =>
          simp only [List.mem_cons, not_or] at h
          rw [List.zip_cons_cons, List.foldl_cons, ih args _ h.2, Regs.set_of_ne _ _ h.1]

/-- Distinct registers get their values. -/
theorem foldl_set_getElem (rs : List (Fin abi.regCount)) (args : List (Word abi)) (regs : Regs abi)
    (hrs : rs.Nodup) {i : Nat} (hi : i < rs.length) (hargs : i < args.length) :
    (rs.zip args).foldl (fun regs arg => regs.set arg.1 arg.2) regs rs[i] = args[i] := by
  induction rs generalizing args regs i with
  | nil => cases hi
  | cons r rs ih =>
      cases args with
      | nil => cases hargs
      | cons arg args =>
          obtain ⟨hr, hrest⟩ := List.nodup_cons.mp hrs
          cases i with
          | zero =>
              rw [List.zip_cons_cons, List.foldl_cons, List.getElem_cons_zero,
                foldl_set_of_not_mem rs args _ hr]
              exact Regs.set_self regs r arg
          | succ i => exact ih args _ hrest (Nat.lt_of_succ_lt_succ hi) (Nat.lt_of_succ_lt_succ hargs)

theorem Abi.argRegs_nodup (abi : Abi) : abi.argRegs.Nodup := by
  cases abi <;> decide

theorem Abi.sp_not_mem_argRegs (abi : Abi) : abi.sp ∉ abi.argRegs := by
  cases abi <;> decide

theorem Abi.sp_ne_lr {abi : Abi} {lr : Fin abi.regCount} (h : abi.lr = some lr) : abi.sp ≠ lr := by
  cases abi with
  | x86_64 => cases h
  | i386 => cases h
  | aarch64 =>
      obtain rfl := Option.some.inj h
      decide
  | arm =>
      obtain rfl := Option.some.inj h
      decide

theorem Abi.lr_not_mem_argRegs {abi : Abi} {lr : Fin abi.regCount} (h : abi.lr = some lr) :
    lr ∉ abi.argRegs := by
  cases abi with
  | x86_64 => cases h
  | i386 => cases h
  | aarch64 =>
      obtain rfl := Option.some.inj h
      decide
  | arm =>
      obtain rfl := Option.some.inj h
      decide

/-- Entering the function changes the instruction pointer and the arm status register only. -/
theorem enterFunction_keeps (func : Word abi) (regs : Regs abi) {r : Fin abi.regCount}
    (h : r ∈ abi.argRegs ∨ r = abi.sp ∨ abi.lr = some r) : enterFunction abi func regs r = regs r := by
  cases abi with
  | x86_64 =>
      apply Regs.set_of_ne
      revert r
      decide
  | i386 =>
      apply Regs.set_of_ne
      revert r
      decide
  | aarch64 =>
      apply Regs.set_of_ne
      revert r
      decide
  | arm =>
      have hip : r ≠ Abi.arm.ip := by
        revert r
        decide
      have hcpsr : r ≠ cpsr := by
        revert r
        decide
      simp only [enterFunction]
      split
      · rw [Regs.set_of_ne _ _ hcpsr, Regs.set_of_ne _ _ hip]
      · rw [Regs.set_of_ne _ _ hcpsr, Regs.set_of_ne _ _ hip]

/-! ## What is pushed -/

/-- The stack arguments as they lie in memory. -/
def stackBytes (args : List (Word abi)) : List (BitVec 8) :=
  (args.drop abi.argRegs.length).flatMap wordToBytes

theorem length_stackBytes (args : List (Word abi)) :
    (stackBytes args).length = (args.length - abi.argRegs.length) * abi.wordBytes := by
  rw [stackBytes, length_flatMap_wordToBytes, List.length_drop]

theorem writeProc_of_complete {count : Option Nat} {addr : Word abi} {bytes : List (BitVec 8)}
    {t : Tracee abi} (h : (writeProc count addr bytes t).1 = some bytes.length) :
    (writeProc count addr bytes t).2 = { t with mem := t.mem.write addr bytes } := by
  obtain ⟨n, rfl, hn⟩ := (writeProc_complete count addr bytes t).mp h
  simp only [writeProc, List.take_of_length_le hn]

/-- Arguments that could be pushed lie below the old stack pointer. -/
theorem pushStackArgs_of_ok {count : Option Nat} {args : List (Word abi)} {regs : Regs abi}
    {t : Tracee abi} (h : (pushStackArgs count args regs t).1 = true) :
    (pushStackArgs count args regs t).2 =
      (regs.set abi.sp (regs abi.sp - BitVec.ofNat _ (stackBytes args).length),
        { t with
          mem := t.mem.write (regs abi.sp - BitVec.ofNat _ (stackBytes args).length)
            (stackBytes args) }) := by
  simp only [pushStackArgs] at h ⊢
  split
  · -- without stack arguments nothing moves
    rename_i hnil
    have hbytes : stackBytes args = [] := by rw [stackBytes, hnil, List.flatMap_nil]
    have hregs : regs.set abi.sp (regs abi.sp - BitVec.ofNat _ 0) = regs := by
      simp [Regs.set]
    simp only [hbytes, List.length_nil, hregs]
    rfl
  · rename_i hcons
    rw [if_neg hcons] at h
    rw [Regs.set_self] at h ⊢
    exact Prod.ext rfl (writeProc_of_complete (of_decide_eq_true h))

theorem passReturnAddr_of_ok {count : Option Nat} {returnAddr : Word abi} {regs : Regs abi}
    {t : Tracee abi} (hlr : abi.lr = none) (h : (passReturnAddr count returnAddr regs t).1 = true) :
    (passReturnAddr count returnAddr regs t).2 =
      (regs.set abi.sp (regs abi.sp - BitVec.ofNat _ abi.wordBytes),
        { t with
          mem := t.mem.write (regs abi.sp - BitVec.ofNat _ abi.wordBytes) (wordToBytes returnAddr) }) := by
  simp only [passReturnAddr, hlr, Regs.set_self] at h ⊢
  refine Prod.ext rfl (writeProc_of_complete ?_)
  rw [length_wordToBytes]
  exact of_decide_eq_true h

theorem passReturnAddr_of_lr {count : Option Nat} {returnAddr : Word abi} {regs : Regs abi}
    {t : Tracee abi} {lr : Fin abi.regCount} (hlr : abi.lr = some lr) :
    passReturnAddr count returnAddr regs t = (true, regs.set lr returnAddr, t) := by
  simp only [passReturnAddr, hlr]

/-- The return address, where it is pushed. -/
def returnBytes (returnAddr : Word abi) : List (BitVec 8) :=
  if abi.lr.isSome then [] else wordToBytes returnAddr

/-- All that a call pushes, from the lowest address on. -/
def frameBytes (returnAddr : Word abi) (args : List (Word abi)) : List (BitVec 8) :=
  returnBytes returnAddr ++ stackBytes args

theorem length_returnBytes (returnAddr : Word abi) : (returnBytes returnAddr).length = abi.returnSize := by
  simp only [returnBytes, Abi.returnSize]
  split
  · rfl
  · exact length_toBytes _ _

theorem length_frameBytes (returnAddr : Word abi) (args : List (Word abi)) :
    (frameBytes returnAddr args).length = abi.frameSize args.length := by
  rw [frameBytes, List.length_append, length_returnBytes, length_stackBytes, Abi.frameSize, Nat.add_comm]

/-- One word of several. -/
theorem word_of_flatMap (words : List (Word abi)) {j : Nat} (h : j < words.length) :
    ((words.flatMap wordToBytes).drop (j * abi.wordBytes)).take abi.wordBytes = wordToBytes words[j] := by
  obtain ⟨before, behind, heq, hlength⟩ := exists_flatMap_eq length_wordToBytes words h
  rw [heq, List.drop_left' hlength, List.take_left' (length_wordToBytes words[j])]

theorem ofBytes_wordToBytes (v : Word abi) : BitVec.ofNat _ (ofBytes (wordToBytes v)) = v := by
  rw [wordToBytes, ofBytes_toBytes, pow_wordBytes, Nat.mod_eq_of_lt v.isLt, BitVec.ofNat_toNat,
    BitVec.setWidth_eq]

section Frame

variable {o : CallOutcome abi} {func returnAddr : Word abi} {args : List (Word abi)} {regs : Regs abi}
  {t u : Tracee abi}

/-- The registers before anything is pushed. -/
abbrev aligned (args : List (Word abi)) (regs : Regs abi) : Regs abi :=
  setArgRegs args (alignStack 0 regs)

/-- A process that is continued has the whole frame below the aligned stack pointer. -/
theorem continuedAt_spec (hu : continuedAt o func returnAddr args regs t = some u) :
    u.regs abi.sp = aligned args regs abi.sp - BitVec.ofNat _ (frameBytes returnAddr args).length ∧
      u.mem = t.mem.write (u.regs abi.sp) (frameBytes returnAddr args) ∧
      ∃ linked : Regs abi, u.regs = enterFunction abi func linked ∧
        (∀ lr, abi.lr = some lr → linked lr = returnAddr) ∧
        ∀ r, r ≠ abi.sp → abi.lr ≠ some r → linked r = aligned args regs r := by
  simp only [continuedAt] at hu
  split at hu
  · cases hu
  · rename_i hpushed
    have hpush := pushStackArgs_of_ok (Bool.not_eq_false _ |>.mp hpushed)
    split at hu
    · cases hu
    · rename_i hlinked
      split at hu
      · cases hu
      · obtain rfl := Option.some.inj hu
        simp only [hpush] at hlinked ⊢
        have hkeep : ∀ linked : Regs abi, enterFunction abi func linked abi.sp = linked abi.sp :=
          fun linked => enterFunction_keeps func linked (.inr (.inl rfl))
        -- without a link register the return address lies on top of the arguments
        cases hlr : abi.lr with
        | some lr =>
            have hsp : abi.sp ≠ lr := Abi.sp_ne_lr hlr
            have hframe : frameBytes returnAddr args = stackBytes args := by
              simp [frameBytes, returnBytes, hlr]
            simp only [passReturnAddr_of_lr hlr, hframe]
            refine ⟨?_, ?_, _, rfl, ?_, ?_⟩
            · rw [hkeep, Regs.set_of_ne _ _ hsp, Regs.set_self]
            · rw [hkeep, Regs.set_of_ne _ _ hsp, Regs.set_self]
            · rintro r hr
              obtain rfl := Option.some.inj hr
              exact Regs.set_self _ _ _
            · intro r hr hne
              have hrlr : r ≠ lr := fun h => hne (congrArg some h.symm)
              rw [Regs.set_of_ne _ _ hrlr, Regs.set_of_ne _ _ hr]
        | none =>
            have hframe : frameBytes returnAddr args = wordToBytes returnAddr ++ stackBytes args := by
              simp [frameBytes, returnBytes, hlr]
            have hret := passReturnAddr_of_ok hlr (Bool.not_eq_false _ |>.mp hlinked)
            simp only [hret, Regs.set_self, hframe, List.length_append, length_wordToBytes]
            refine ⟨?_, ?_, _, rfl, ?_, ?_⟩
            · rw [hkeep, Regs.set_self, BitVec.sub_sub, ← BitVec.ofNat_add, Nat.add_comm]
            · -- the return address is written right below the arguments
              rw [hkeep, Regs.set_self, ← Memory.write_write_append, length_wordToBytes, BitVec.sub_add_cancel]
            · intro lr hr
              cases hr
            · intro r hr _
              rw [Regs.set_of_ne _ _ hr, Regs.set_of_ne _ _ hr]

/-- The stack pointer is rounded down before the pushes. -/
theorem toNat_aligned (args : List (Word abi)) (regs : Regs abi) :
    (aligned args regs abi.sp).toNat = (regs abi.sp).toNat - (regs abi.sp).toNat % 16 := by
  have hwidth : 4 ≤ 8 * abi.wordBytes := by
    cases abi <;> decide
  have hsp : aligned args regs abi.sp = regs abi.sp &&& ~~~BitVec.ofNat _ (2 ^ 4 - 1) := by
    rw [aligned, setArgRegs, foldl_set_of_not_mem _ _ _ abi.sp_not_mem_argRegs, alignStack,
      Regs.set_self]
    exact congrArg (· &&& ~~~(15 : Word abi)) (BitVec.sub_zero _)
  rw [hsp]
  exact toNat_alignDown _ 4 hwidth

/-- With room for the frame, it ends where the aligned stack pointer was. -/
theorem toNat_entry (hroom : abi.HasRoom args.length (regs abi.sp))
    (hu : continuedAt o func returnAddr args regs t = some u) :
    (u.regs abi.sp).toNat + abi.frameSize args.length =
      (regs abi.sp).toNat - (regs abi.sp).toNat % 16 := by
  have hsp := (continuedAt_spec hu).1
  have haligned := toNat_aligned args regs
  have hlt := (aligned args regs abi.sp).isLt
  rw [Abi.HasRoom] at hroom
  have hsize : (BitVec.ofNat (8 * abi.wordBytes) (abi.frameSize args.length)).toNat =
      abi.frameSize args.length := by
    rw [BitVec.toNat_ofNat]
    exact Nat.mod_eq_of_lt (by omega)
  rw [hsp, length_frameBytes, BitVec.toNat_sub_of_le (BitVec.le_def.mpr (by omega)), hsize]
  omega

/-- A word of the frame, where the function finds it. -/
theorem word_of_continuedAt (hroom : abi.HasRoom args.length (regs abi.sp))
    (hu : continuedAt o func returnAddr args regs t = some u) {offset : Nat}
    (h : offset + abi.wordBytes ≤ abi.frameSize args.length) :
    u.word (u.regs abi.sp + BitVec.ofNat _ offset) =
      BitVec.ofNat _ (ofBytes (((frameBytes returnAddr args).drop offset).take abi.wordBytes)) := by
  have hentry := toNat_entry hroom hu
  have hlt := (regs abi.sp).isLt
  rw [Tracee.word, Memory.readWord, (continuedAt_spec hu).2.1, Memory.read_write_slice]
  · rwa [length_frameBytes]
  · rw [length_frameBytes]
    omega

/-! ## The frame is right but for the alignment -/

theorem calleeArg_of_continuedAt (hroom : abi.HasRoom args.length (regs abi.sp))
    (hu : continuedAt o func returnAddr args regs t = some u) {i : Nat} (hi : i < args.length) :
    calleeArg u i = args[i] := by
  rw [calleeArg]
  cases hr : abi.argRegs[i]? with
  | some r =>
      obtain ⟨hlt, rfl⟩ := List.getElem?_eq_some_iff.mp hr
      obtain ⟨-, -, linked, hregs, -, hlinked⟩ := continuedAt_spec hu
      have hmem : abi.argRegs[i] ∈ abi.argRegs := List.getElem_mem hlt
      have hsp : abi.argRegs[i] ≠ abi.sp := fun h => abi.sp_not_mem_argRegs (h ▸ hmem)
      have hlr : abi.lr ≠ some abi.argRegs[i] := fun h => Abi.lr_not_mem_argRegs h hmem
      have halign : (alignStack 0 regs) abi.argRegs[i] = regs abi.argRegs[i] := Regs.set_of_ne _ _ hsp
      simp only [hregs]
      rw [enterFunction_keeps _ _ (.inl hmem), hlinked _ hsp hlr, aligned, setArgRegs,
        foldl_set_getElem _ _ _ abi.argRegs_nodup hlt hi]
  | none =>
      have hle : abi.argRegs.length ≤ i := List.getElem?_eq_none_iff.mp hr
      have hj : i - abi.argRegs.length < (args.drop abi.argRegs.length).length := by
        rw [List.length_drop]
        omega
      have hfits : (i - abi.argRegs.length) * abi.wordBytes + abi.returnSize + abi.wordBytes ≤
          abi.frameSize args.length := by
        have hmul := Nat.mul_le_mul_right abi.wordBytes
          (show i - abi.argRegs.length + 1 ≤ args.length - abi.argRegs.length by omega)
        rw [Nat.add_mul] at hmul
        rw [Abi.frameSize]
        omega
      simp only
      rw [word_of_continuedAt hroom hu hfits, frameBytes, Nat.add_comm, ← List.drop_drop,
        List.drop_left' (length_returnBytes returnAddr), stackBytes, word_of_flatMap _ hj,
        ofBytes_wordToBytes, List.getElem_drop]
      congr 1
      omega

theorem calleeReturn_of_continuedAt (hroom : abi.HasRoom args.length (regs abi.sp))
    (hu : continuedAt o func returnAddr args regs t = some u) : calleeReturn u = returnAddr := by
  rw [calleeReturn]
  cases hlr : abi.lr with
  | some lr =>
      obtain ⟨-, -, linked, hregs, hlinked, -⟩ := continuedAt_spec hu
      simp only [hregs]
      rw [enterFunction_keeps _ _ (.inr (.inr hlr)), hlinked lr hlr]
  | none =>
      have hsize : abi.returnSize = abi.wordBytes := by
        simp [Abi.returnSize, hlr]
      have hbytes : returnBytes returnAddr = wordToBytes returnAddr := by
        simp [returnBytes, hlr]
      have hroomWord : 0 + abi.wordBytes ≤ abi.frameSize args.length := by
        rw [Abi.frameSize]
        omega
      have hword := word_of_continuedAt hroom hu hroomWord
      rw [List.drop_zero, frameBytes, hbytes, List.take_left' (length_wordToBytes returnAddr),
        ofBytes_wordToBytes] at hword
      rw [← hword]
      exact congrArg u.word (BitVec.add_zero _).symm

theorem entersAt_of_continuedAt (hu : continuedAt o func returnAddr args regs t = some u) :
    EntersAt abi func regs u.regs := by
  obtain ⟨-, -, linked, hregs, -, hlinked⟩ := continuedAt_spec hu
  rw [hregs]
  cases abi with
  | x86_64 => exact Regs.set_self _ _ _
  | i386 => exact Regs.set_self _ _ _
  | aarch64 => exact Regs.set_self _ _ _
  | arm =>
      have hstatus : linked cpsr = regs cpsr := by
        rw [hlinked cpsr (by decide) (by decide), aligned, setArgRegs,
          foldl_set_of_not_mem _ _ _ (by decide), alignStack, Regs.set_of_ne _ _ (by decide)]
      have hip : Abi.arm.ip ≠ cpsr := by decide
      simp only [EntersAt, enterFunction]
      split
      · rename_i hthumb
        have hbit : has func 1 = true := bne_iff_ne.mpr hthumb
        rw [Regs.set_of_ne _ _ hip, Regs.set_self, Regs.set_self, hstatus, has_or, hbit, or_and_not]
        exact ⟨rfl, Bool.or_eq_true_iff.mpr (.inr rfl), rfl⟩
      · rename_i harm
        have hzero : func &&& 1 = 0 := not_not.mp harm
        have hbit : has func 1 = false := by
          rw [has, hzero]
          rfl
        have hfunc : func &&& ~~~1 = func := by
          have hsplit := and_not_or_and func 1
          rw [hzero] at hsplit
          exact BitVec.or_zero.symm.trans hsplit
        rw [Regs.set_of_ne _ _ hip, Regs.set_self, Regs.set_self, hstatus, has_and_not, hbit, hfunc,
          BitVec.and_assoc, BitVec.and_self]
        exact ⟨rfl, rfl, rfl⟩

/-- Nothing from the old stack pointer upwards is written. -/
theorem frame_of_continuedAt (hroom : abi.HasRoom args.length (regs abi.sp))
    (hu : continuedAt o func returnAddr args regs t = some u) {a : Word abi} (ha : regs abi.sp ≤ a) :
    u.mem a = t.mem a := by
  have hentry := toNat_entry hroom hu
  rw [(continuedAt_spec hu).2.1]
  apply Memory.write_of_above
  rw [length_frameBytes]
  have := BitVec.le_def.mp ha
  omega

/-! ## The alignment -/

/-- The stack is aligned exactly if the stack arguments fill units of alignment. -/
theorem entryAligned_iff (hroom : abi.HasRoom args.length (regs abi.sp))
    (hu : continuedAt o func returnAddr args regs t = some u) :
    abi.EntryAligned (u.regs abi.sp) ↔ abi.argUnit ∣ args.length - abi.argRegs.length := by
  have hentry := toNat_entry hroom hu
  rw [Abi.frameSize] at hentry
  cases abi with
  | x86_64 =>
      have hwords : _ + ((args.length - Abi.x86_64.argRegs.length) * 8 + 8) = _ := hentry
      show (u.regs Abi.x86_64.sp).toNat % 16 = 8 ↔ 2 ∣ args.length - Abi.x86_64.argRegs.length
      omega
  | i386 =>
      have hwords : _ + ((args.length - Abi.i386.argRegs.length) * 4 + 4) = _ := hentry
      show (u.regs Abi.i386.sp).toNat % 16 = 12 ↔ 4 ∣ args.length - Abi.i386.argRegs.length
      omega
  | aarch64 =>
      have hwords : _ + ((args.length - Abi.aarch64.argRegs.length) * 8 + 0) = _ := hentry
      show (u.regs Abi.aarch64.sp).toNat % 16 = 0 ↔ 2 ∣ args.length - Abi.aarch64.argRegs.length
      omega
  | arm =>
      have hwords : _ + ((args.length - Abi.arm.argRegs.length) * 4 + 0) = _ := hentry
      show (u.regs Abi.arm.sp).toNat % 8 = 0 ↔ 2 ∣ args.length - Abi.arm.argRegs.length
      omega

/-- A call whose frame reaches the process continues it. -/
theorem exists_continuedAt (func returnAddr : Word abi) (regs : Regs abi) (t : Tracee abi)
    (hpushes : o.Pushes args.length) (hset : o.setRegs = true) :
    ∃ u, continuedAt o func returnAddr args regs t = some u := by
  obtain ⟨hargs, hreturn⟩ := hpushes
  simp only [continuedAt, (pushStackArgs_ok _ _ _ _).mpr hargs, (passReturnAddr_ok _ _ _ _).mpr hreturn,
    hset]
  exact ⟨_, rfl⟩

/-- With room below the stack pointer and complete writes, the process is continued with everything the ABI
asks for exactly if the stack arguments fill units of alignment. -/
theorem accepts_iff (hroom : abi.HasRoom args.length (regs abi.sp)) (hpushes : o.Pushes args.length)
    (hset : o.setRegs = true) :
    ∃ u, continuedAt o func returnAddr args regs t = some u ∧
      (Accepts func returnAddr args regs t u ↔ abi.argUnit ∣ args.length - abi.argRegs.length) := by
  obtain ⟨u, hu⟩ := exists_continuedAt func returnAddr regs t hpushes hset
  refine ⟨u, hu, ?_⟩
  rw [← entryAligned_iff hroom hu]
  constructor
  · intro h
    exact h.aligned
  · intro h
    exact {
      args := fun i hi => calleeArg_of_continuedAt hroom hu hi
      returns := calleeReturn_of_continuedAt hroom hu
      enters := entersAt_of_continuedAt hu
      aligned := h
      frame := fun a ha => frame_of_continuedAt hroom hu ha }

end Frame

/-! ## Two calls -/

/-- A call whose writes and requests succeed. -/
def succeeding (abi : Abi) : CallOutcome abi := ⟨some 64, some 8, true, [], true⟩

/-- A process with one value in all its registers. -/
def uniform (v : Word abi) : Tracee abi := ⟨fun _ => v, fun _ => 0, fun _ => v⟩

/-- On x86-64 a function of eight arguments is called as it should be. -/
theorem accepts_eightArgs :
    ∃ u, continuedAt (succeeding .x86_64) 0x7000 0x8000 [1, 2, 3, 4, 5, 6, 7, 8]
        (uniform 0x7ffc0018 : Tracee .x86_64).regs (uniform 0x7ffc0018) = some u ∧
      Accepts 0x7000 0x8000 [1, 2, 3, 4, 5, 6, 7, 8] (uniform 0x7ffc0018 : Tracee .x86_64).regs
        (uniform 0x7ffc0018) u := by
  have hroom : Abi.x86_64.HasRoom 8 0x7ffc0018 := by
    show 24 ≤ 0x7ffc0018 - 0x7ffc0018 % 16
    omega
  have hpushes : (succeeding .x86_64).Pushes 8 := by decide
  obtain ⟨u, hu, hiff⟩ :
      ∃ u, continuedAt (succeeding .x86_64) 0x7000 0x8000 [1, 2, 3, 4, 5, 6, 7, 8]
          (uniform 0x7ffc0018 : Tracee .x86_64).regs (uniform 0x7ffc0018) = some u ∧
        (Accepts 0x7000 0x8000 [1, 2, 3, 4, 5, 6, 7, 8] (uniform 0x7ffc0018 : Tracee .x86_64).regs
          (uniform 0x7ffc0018) u ↔
            Abi.x86_64.argUnit ∣
              ([1, 2, 3, 4, 5, 6, 7, 8] : List (Word .x86_64)).length - Abi.x86_64.argRegs.length) :=
    accepts_iff hroom hpushes rfl
  exact ⟨u, hu, hiff.mpr ⟨1, rfl⟩⟩

/-- On i386 the two arguments of `dlopen` leave the stack misaligned. -/
theorem dlopen_misaligned :
    ∃ u, continuedAt (succeeding .i386) 0x7000 0x8000 [0xbfff0000, 0]
        (uniform 0xbfffa000 : Tracee .i386).regs (uniform 0xbfffa000) = some u ∧
      ¬ Accepts 0x7000 0x8000 [0xbfff0000, 0] (uniform 0xbfffa000 : Tracee .i386).regs
        (uniform 0xbfffa000) u := by
  have hroom : Abi.i386.HasRoom 2 0xbfffa000 := by
    show 12 ≤ 0xbfffa000 - 0xbfffa000 % 16
    omega
  have hpushes : (succeeding .i386).Pushes [0xbfff0000, (0 : Word .i386)].length := by decide
  obtain ⟨u, hu⟩ := exists_continuedAt 0x7000 0x8000 (uniform 0xbfffa000 : Tracee .i386).regs
    (uniform 0xbfffa000) hpushes rfl
  refine ⟨u, hu, ?_⟩
  intro h
  have hunit := (entryAligned_iff hroom hu).mp h.aligned
  revert hunit
  show ¬ 4 ∣ 2
  omega

end NeoZygisk.Ptracer
