import NeoZygisk.Ptracer.RemoteCall
import Mathlib.Data.List.Infix

/-!
# Injecting the library into a starting process

`injectBeforeStart` finds the entry address of the program in the startup block on its stack, replaces
it by an address that faults, lets the dynamic linker run into the fault, puts the entry address back and
then has the process load and call the library: `dlopen`, `dlsym` and the library's `entry`, each as a
remote call. The tracer's own view of the target (its mappings, the addresses of the functions it calls)
and the outcome of every system call are the `Outcomes` of one run.

`injectAfterStart` shares the remote calls and restores the registers whatever they came to.
-/

set_option autoImplicit false

namespace NeoZygisk.Ptracer

open NeoZygisk.Common
open NeoZygisk.Lib.Bytes

variable {abi : Abi}

/-! ## Addresses in the target -/

/-- `path.ends_with(suffix)`. -/
def endsWith (path suffix : String) : Bool := suffix.toList.isSuffixOf path.toList

/-- `find_module_return_addr`: the first mapping of the module that is not executable. -/
def findModuleReturnAddr (info : List MapInfo) (suffix : String) : Word abi :=
  match info.find? fun map => !map.perms.exec && endsWith map.path suffix with
  | some map => BitVec.ofNat _ map.start
  | none => 0

/-- `find_module_base`: the first mapping of the module at offset zero. -/
def findModuleBase (info : List MapInfo) (suffix : String) : Word abi :=
  match info.find? fun map => map.offset == 0 && endsWith map.path suffix with
  | some map => BitVec.ofNat _ map.start
  | none => 0

/-- What the tracer finds out: its own mappings and libraries, and the target's mappings before and after
the library is loaded. A library that does not open is `none`, a missing symbol is zero. -/
structure View (abi : Abi) where
  localMap : List MapInfo
  dlsym : String → Option (String → Word abi)
  map : List MapInfo
  mapAfter : List MapInfo

/-- `find_func_addr`. -/
def View.findFuncAddr (view : View abi) (module func : String) : Word abi :=
  match view.dlsym module with
  | none => 0
  | some lib =>
      let localSym := lib func
      let localBase : Word abi := findModuleBase view.localMap module
      let remoteBase : Word abi := findModuleBase view.map module
      if localSym = 0 then 0
      else if localBase = 0 then 0
      else if remoteBase = 0 then 0
      else remoteBase + (localSym - localBase)

/-- Where remote calls return to. -/
def View.returnAddr (view : View abi) : Word abi := findModuleReturnAddr view.map "libc.so"

/-- The mappings of the injected library: it is identified by name once, then collected by device and
inode. -/
def View.libraryMaps (view : View abi) : List MapInfo :=
  match view.mapAfter.find? fun map =>
      map.inode != 0 && decide ("libzygisk.so".toList <:+: map.path.toList) with
  | none => []
  | some lib => view.mapAfter.filter fun map => map.dev == lib.dev && map.inode == lib.inode

/-- `start_addr`. -/
def View.startAddr (view : View abi) : Word abi :=
  match view.libraryMaps with
  | [] => 0
  | map :: _ => BitVec.ofNat _ map.start

/-- `block_size`. -/
def View.blockSize (view : View abi) : Word abi :=
  BitVec.ofNat _ (view.libraryMaps.map fun map => map.end_ - map.start).sum

/-! ## The remote calls -/

inductive TraceMode where
  | unknown
  | spawn
  | standalone
  | systemServer
  deriving DecidableEq, Repr

def TraceMode.toNat : TraceMode → Nat
  | .unknown => 0
  | .spawn => 1
  | .standalone => 2
  | .systemServer => 3

/-- `RTLD_NOW`, which is zero in the 32-bit C library. -/
def rtldNow : (abi : Abi) → Word abi
  | .x86_64 => 2
  | .i386 => 0
  | .aarch64 => 2
  | .arm => 0

/-- The position of the aarch64 processor state. -/
def pstate : Fin (Abi.regCount .aarch64) := ⟨33, by decide⟩

/-- Clears the branch type in the tracer's copy of the registers. -/
def clearBtype : (abi : Abi) → Regs abi → Regs abi
  | .aarch64, regs => regs.set pstate (regs pstate &&& ~~~((3 : Word .aarch64) <<< 10))
  | .x86_64, regs => regs
  | .i386, regs => regs
  | .arm, regs => regs

/-- The outcomes of the injection proper. -/
structure RemoteOutcomes (abi : Abi) where
  view : View abi
  pushPath : Option Nat
  dlopen : CallOutcome abi
  dlerror : CallOutcome abi
  strlen : CallOutcome abi
  pushSymbol : Option Nat
  dlsym : CallOutcome abi
  pushTmpPath : Option Nat
  entry : CallOutcome abi

/-- What an injection returns: success, and what it stored in `*hooked`. -/
structure Injected where
  ok : Bool
  hooked : Option Bool
  deriving DecidableEq, Repr

/-- A failure that leaves `*hooked` alone. -/
def Injected.failure : Injected := ⟨false, none⟩

/-- The error path of `dlopen`: it only logs, but runs two more calls for that. -/
def reportDlerror (o : RemoteOutcomes abi) (regs : Regs abi) (t : Tracee abi) :
    Except Abort (Tracee abi) :=
  let dlerrorAddr := o.view.findFuncAddr "libdl.so" "dlerror"
  if dlerrorAddr = 0 then .ok t
  else do
    let (str, regs, t) ← remoteCall o.dlerror dlerrorAddr o.view.returnAddr [] regs t
    -- the text is only read for the log
    if str.getD 0 = 0 then return t
    else
      let strlenAddr := o.view.findFuncAddr "libc.so" "strlen"
      if strlenAddr = 0 then return t
      else
        let (_, _, t) ← remoteCall o.strlen strlenAddr o.view.returnAddr [str.getD 0] regs t
        return t

/-- The call of the library's own `entry`. -/
def callEntry (o : RemoteOutcomes abi) (tmpPath : String) (mode : TraceMode) (entryAddr : Word abi)
    (regs : Regs abi) (t : Tracee abi) : Except Abort (Injected × Tracee abi) :=
  let (path, regs, t) := pushString o.pushTmpPath tmpPath regs t
  let args := [o.view.startAddr, o.view.blockSize, path, BitVec.ofNat _ mode.toNat]
  do
    let (reported, _, t) ← remoteCall o.entry entryAddr o.view.returnAddr args regs t
    match reported with
    | none => return (.failure, t)
    | some value => return (⟨true, some (decide (value.setWidth 32 ≠ 0))⟩, t)

/-- Resolving and calling `entry` in the loaded library. -/
def startLibrary (o : RemoteOutcomes abi) (tmpPath : String) (mode : TraceMode) (handle : Word abi)
    (regs : Regs abi) (t : Tracee abi) : Except Abort (Injected × Tracee abi) :=
  let dlsymAddr := o.view.findFuncAddr "libdl.so" "dlsym"
  if dlsymAddr = 0 then .ok (.failure, t)
  else
    let (symbol, regs, t) := pushString o.pushSymbol "entry" regs t
    do
      let (entryAddr, regs, t) ← remoteCall o.dlsym dlsymAddr o.view.returnAddr [handle, symbol] regs t
      if entryAddr.getD 0 = 0 then return (.failure, t)
      else callEntry o tmpPath mode (entryAddr.getD 0) regs t

/-- `execute_remote_injection`. -/
def executeRemoteInjection (o : RemoteOutcomes abi) (libPath tmpPath : String) (mode : TraceMode)
    (regs : Regs abi) (t : Tracee abi) : Except Abort (Injected × Tracee abi) :=
  let regs := clearBtype abi regs
  let dlopenAddr := o.view.findFuncAddr "libdl.so" "dlopen"
  if dlopenAddr = 0 then .ok (.failure, t)
  else
    -- a path that could not be pushed is zero, and is passed all the same
    let (path, regs, t) := pushString o.pushPath libPath regs t
    do
      let (handle, regs, t) ←
        remoteCall o.dlopen dlopenAddr o.view.returnAddr [path, rtldNow abi] regs t
      if handle.getD 0 = 0 then do
        let t ← reportDlerror o regs t
        return (.failure, t)
      else startLibrary o tmpPath mode (handle.getD 0) regs t

/-! ## The startup block -/

/-- `AT_ENTRY`. -/
def atEntry : Nat := 9

/-- The address `n` words further on. -/
def wordsOn (addr : Word abi) (n : Nat) : Word abi := addr + BitVec.ofNat _ (n * abi.wordBytes)

/-- The loop over the environment. It ends behind the null pointer; `fuel` bounds the scan. -/
def skipEnv (t : Tracee abi) : Nat → Word abi → Option (Word abi)
  | 0, _ => none
  | fuel + 1, p => if t.word p ≠ 0 then skipEnv t fuel (wordsOn p 1) else some (wordsOn p 1)

/-- The loop over the auxiliary vector: the entry address and where it is stored, or zeros at
`AT_NULL`. -/
def findEntry (t : Tracee abi) : Nat → Word abi → Option (Word abi × Word abi)
  | 0, _ => none
  | fuel + 1, v =>
      if t.word v = 0 then some (0, 0)
      else if t.word v = BitVec.ofNat _ atEntry then some (t.word (wordsOn v 1), wordsOn v 1)
      else findEntry t fuel (wordsOn v 2)

/-- The scan of the startup block at the stack pointer. -/
def locateEntry (fuel : Nat) (t : Tracee abi) : Option (Word abi × Word abi) :=
  let sp := t.regs abi.sp
  let argc : Int := (BitVec.ofNat 32 (t.mem.readWord sp 4)).toInt
  let argv := wordsOn sp 1
  let envp := argv + BitVec.ofInt _ ((argc + 1) * abi.wordBytes)
  (skipEnv t fuel envp).bind (findEntry t fuel)

/-! ## Injection at the entry point -/

/-- `break_addr`. -/
def trapAddr (entry : Word abi) : Word abi :=
  (BitVec.ofInt _ (-0x05ec1cff) &&& ~~~1) ||| (entry &&& 1)

/-- One turn of the loop that waits for the trap. -/
structure Round (abi : Abi) where
  cont : Bool
  waits : List (WaitReply abi)

structure Outcomes (abi : Abi) where
  fuel : Nat
  getRegs : Bool
  /-- The write of the trap address. -/
  hijack : Option Nat
  rounds : List (Round abi)
  trapRegs : Bool
  /-- The write of the original entry address. -/
  writeBack : Option Nat
  remote : RemoteOutcomes abi
  setRegs : Bool
  /-- When the injection returns, the target lives and another write would reach it. -/
  restorable : Bool

/-- The loop that lets the process run until it faults. A death is never seen here: `wait_for_trace`
exits on it. -/
def runToTrap : List (Round abi) → Tracee abi → Except Abort (Bool × Tracee abi)
  | [], _ => .error .blocked
  | round :: rest, t =>
      if round.cont then
        match waitForTrace round.waits t with
        | .error e => .error e
        | .ok (s, t) =>
            if s.sig = sigSegv then .ok (true, t)
            -- a pending SIGSTOP is let go by
            else if s.sig = sigStop then runToTrap rest t
            else .ok (false, t)
      else .ok (false, t)

/-- The part after the write-back: inject, then restore the registers of the fault with the instruction
pointer at the entry address. -/
def injectAndRestore (o : Outcomes abi) (libPath tmpPath : String) (mode : TraceMode)
    (entry : Word abi) (t : Tracee abi) : Except Abort (Injected × Tracee abi) := do
  let backup := t.regs
  let (injected, t) ← executeRemoteInjection o.remote libPath tmpPath mode t.regs t
  if injected.ok = false then return (injected, t)
  else if o.setRegs then return (injected, { t with regs := backup.set abi.ip entry })
  else return (⟨false, injected.hooked⟩, t)

/-- The part after the fault: check its address and put the entry address back. A write of no bytes is
the only one that counts as failed. -/
def injectAtTrap (o : Outcomes abi) (libPath tmpPath : String) (mode : TraceMode)
    (entry slot : Word abi) (t : Tracee abi) : Except Abort (Injected × Tracee abi) :=
  if o.trapRegs = false then .ok (.failure, t)
  else if t.regs abi.ip &&& ~~~1 ≠ trapAddr entry &&& ~~~1 then .ok (.failure, t)
  else
    let restored := writeProc o.writeBack slot (wordToBytes entry) t
    if restored.1 = some 0 then .ok (.failure, restored.2)
    else injectAndRestore o libPath tmpPath mode entry restored.2

/-- `inject_before_start`. -/
def injectBeforeStart (o : Outcomes abi) (libPath tmpPath : String) (mode : TraceMode)
    (t : Tracee abi) : Except Abort (Injected × Tracee abi) :=
  if o.getRegs = false then .ok (.failure, t)
  else
    match locateEntry o.fuel t with
    | none => .error .blocked
    | some (entry, slot) =>
        if entry = 0 then .ok (.failure, t)
        else
          let hijacked := writeProc o.hijack slot (wordToBytes (trapAddr entry)) t
          if hijacked.1 = some 0 then .ok (.failure, hijacked.2)
          else do
            let (trapped, t) ← runToTrap o.rounds hijacked.2
            if trapped then injectAtTrap o libPath tmpPath mode entry slot t
            else return (.failure, t)

/-! ## Injection into a running process -/

/-- Clears the system call state of an interrupted process in the tracer's copy of the registers. -/
def clearSyscall : (abi : Abi) → Regs abi → Regs abi
  | .x86_64, regs => (regs.set Abi.x86_64.sysnr (-1)).set Abi.x86_64.ret 0
  | .i386, regs => (regs.set Abi.i386.sysnr (-1)).set Abi.i386.ret 0
  | .aarch64, regs => regs.set Abi.aarch64.ret 0
  | .arm, regs => (regs.set ⟨17, by decide⟩ (-1)).set Abi.arm.ret 0

/-- `inject_after_start`: the registers are restored whether or not the injection worked. -/
def injectAfterStart (getRegs setRegs : Bool) (o : RemoteOutcomes abi) (libPath tmpPath : String)
    (mode : TraceMode) (t : Tracee abi) : Except Abort (Injected × Tracee abi) :=
  if getRegs = false then .ok (.failure, t)
  else do
    let backup := t.regs
    let (injected, t) ←
      executeRemoteInjection o libPath tmpPath mode (clearSyscall abi t.regs) t
    -- `*hooked` keeps what `entry` said even where the registers are lost
    if setRegs then return (injected, { t with regs := backup })
    else return (⟨false, injected.hooked⟩, t)

end NeoZygisk.Ptracer
