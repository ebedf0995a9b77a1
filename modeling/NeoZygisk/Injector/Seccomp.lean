import NeoZygisk.Lib.Bytes
import NeoZygisk.Lib.ClassicBpf
import NeoZygisk.Lib.Mask
import NeoZygisk.Ptracer.Tracee

/-!
# The seccomp event

On kernels that keep a ptrace message, the injector installs a filter that traces one call of `exit_group`, with a
random signature in its arguments, and makes this call. Every app inherits the filter.

The twelve instructions of `filter` have their jumps counted by hand. `filter_eq` says that they are a chain of five
tests, and `load_nr` and `load_args` which words of `seccomp_data` the loads yield. So `returns_filter_iff` has the
filter trace the signature and nothing else. `sendSeccompEventIfNeeded_traced` is about the call that the injector
makes itself, and `runFilters_filter` about the filters that are installed later.
-/

set_option autoImplicit false

namespace NeoZygisk.Injector.Seccomp

open NeoZygisk.Lib
open NeoZygisk.Lib.Bytes
open NeoZygisk.Lib.ClassicBpf
open NeoZygisk.Ptracer (Abi)

/-! ## `seccomp_data` -/

structure SeccompData where
  nr : BitVec 32
  arch : BitVec 32
  instructionPointer : BitVec 64
  args : Fin 6 → BitVec 64

namespace SeccompData

variable (data : SeccompData)

def argBytes : List (BitVec 8) := (List.ofFn data.args).flatMap fun arg => toBytes 8 arg.toNat

/-- The structure in the memory of a little-endian machine. -/
def bytes : List (BitVec 8) :=
  toBytes 4 data.nr.toNat ++
    (toBytes 4 data.arch.toNat ++ (toBytes 8 data.instructionPointer.toNat ++ data.argBytes))

/-- `offsetof(struct seccomp_data, nr)`. -/
def offsetofNr : BitVec 32 := 0

/-- `offsetof(struct seccomp_data, args[i])`. -/
def offsetofArgs (i : Fin 6) : BitVec 32 := BitVec.ofNat 32 (16 + 8 * i)

/-- The kernel takes loads of words that are aligned and inside the structure. -/
def readable (k : BitVec 32) : Bool := decide (k.toNat < 64) && decide (k.toNat % 4 = 0)

def load (k : BitVec 32) : Option (BitVec 32) :=
  if readable k then some (BitVec.ofNat 32 (wordAt k.toNat data.bytes)) else none

end SeccompData

/-! ## `send_seccomp_event_if_needed` -/

def SECCOMP_RET_TRACE : BitVec 32 := 0x7ff00000
def SECCOMP_RET_ALLOW : BitVec 32 := 0x7fff0000
def SECCOMP_RET_ACTION_FULL : BitVec 32 := 0xffff0000
def SECCOMP_RET_DATA : BitVec 32 := 0x0000ffff

/-- `__NR_exit_group`. -/
def NR_exit_group : Abi → BitVec 32
  | .x86_64 => 231
  | .i386 => 252
  | .aarch64 => 94
  | .arm => 248

/-- The signature, made of what was read from `/dev/urandom`. -/
def signature (random : Fin 4 → BitVec 32) : Fin 4 → BitVec 32 := Function.update random 0 (random 0 ||| 0x10000)

def filter (abi : Abi) (args : Fin 4 → BitVec 32) : List SockFilter :=
  [ BPF_STMT (BPF_LD ||| BPF_W ||| BPF_ABS) SeccompData.offsetofNr,
    BPF_JUMP (BPF_JMP ||| BPF_JEQ ||| BPF_K) (NR_exit_group abi) 0 9,
    BPF_STMT (BPF_LD ||| BPF_W ||| BPF_ABS) (SeccompData.offsetofArgs 0),
    BPF_JUMP (BPF_JMP ||| BPF_JEQ ||| BPF_K) (args 0) 0 7,
    BPF_STMT (BPF_LD ||| BPF_W ||| BPF_ABS) (SeccompData.offsetofArgs 1),
    BPF_JUMP (BPF_JMP ||| BPF_JEQ ||| BPF_K) (args 1) 0 5,
    BPF_STMT (BPF_LD ||| BPF_W ||| BPF_ABS) (SeccompData.offsetofArgs 2),
    BPF_JUMP (BPF_JMP ||| BPF_JEQ ||| BPF_K) (args 2) 0 3,
    BPF_STMT (BPF_LD ||| BPF_W ||| BPF_ABS) (SeccompData.offsetofArgs 3),
    BPF_JUMP (BPF_JMP ||| BPF_JEQ ||| BPF_K) (args 3) 0 1,
    BPF_STMT (BPF_RET ||| BPF_K) SECCOMP_RET_TRACE,
    BPF_STMT (BPF_RET ||| BPF_K) SECCOMP_RET_ALLOW ]

/-- `kernel_keeps_ptrace_message`, for the two numbers that are found in the kernel's release. -/
def kernelKeepsPtraceMessage (release : Option (Int × Int)) : Bool :=
  release.any fun version => decide (version.1 < 5) || decide (version.1 = 5) && decide (version.2 < 3)

/-- How the system answers. `random` is `none` if `/dev/urandom` is not opened or not read. -/
structure Outcomes where
  release : Option (Int × Int)
  random : Option (Fin 4 → BitVec 32)
  prctl : Bool

/-- A call that the injector makes. -/
inductive Call where
  | prctl (prog : List SockFilter)
  | exitGroup (args : Fin 4 → BitVec 32)

def sendSeccompEventIfNeeded (abi : Abi) (o : Outcomes) : List Call :=
  if !kernelKeepsPtraceMessage o.release then []
  else
    match o.random with
    | none => []
    | some random =>
        let args := signature random
        -- without the filter the call would be a real exit
        .prctl (filter abi args) :: if o.prctl then [.exitGroup args] else []

/-! ## What is to hold -/

/-- The call is an `exit_group` with the given words in the low halves of its arguments. -/
structure Carries (abi : Abi) (args : Fin 4 → BitVec 32) (data : SeccompData) : Prop where
  nr : data.nr = NR_exit_group abi
  args : ∀ i : Fin 4, (data.args (i.castLE (by decide))).setWidth 32 = args i

/-- The program ends at a return, with an action and the data of it. -/
def Returns (prog : List SockFilter) (data : SeccompData) (action retData : BitVec 32) : Prop :=
  ∃ value, run data.load prog = some value ∧ value &&& SECCOMP_RET_ACTION_FULL = action ∧
    value &&& SECCOMP_RET_DATA = retData

/-! ## The words of `seccomp_data` -/

namespace SeccompData

variable (data : SeccompData)

/-- The low half of an argument comes first. -/
theorem exists_bytes_eq (i : Fin 6) :
    ∃ before behind, data.bytes = before ++ (toBytes 4 (data.args i).toNat ++ behind) ∧
      before.length = 16 + 8 * i := by
  have hi : i.val < (List.ofFn data.args).length := by
    rw [List.length_ofFn]
    exact i.isLt
  obtain ⟨before, behind, heq, hlength⟩ :=
    exists_flatMap_eq (fun arg : BitVec 64 => length_toBytes 8 arg.toNat) (List.ofFn data.args) hi
  rw [List.getElem_ofFn, toBytes_add 4 4] at heq
  refine ⟨toBytes 4 data.nr.toNat ++ (toBytes 4 data.arch.toNat ++
    (toBytes 8 data.instructionPointer.toNat ++ before)),
    toBytes 4 ((data.args i).toNat / 256 ^ 4) ++ behind, ?_, ?_⟩
  · rw [bytes, argBytes, heq]
    simp only [List.append_assoc]
  · simp only [List.length_append, length_toBytes, hlength]
    omega

theorem isSome_load {k : BitVec 32} (h : readable k = true) : (data.load k).isSome = true := by
  rw [load, if_pos h]
  rfl

theorem load_nr : data.load offsetofNr = some data.nr := by
  have hword : wordAt 0 data.bytes = data.nr.toNat % 2 ^ 32 := wordAt_append_toBytes [] _ data.nr.toNat rfl
  have hoffset : offsetofNr.toNat = 0 := rfl
  rw [load, if_pos (by decide), hoffset, hword, Nat.mod_eq_of_lt data.nr.isLt, BitVec.ofNat_toNat, BitVec.setWidth_eq]

theorem toNat_offsetofArgs (i : Fin 6) : (offsetofArgs i).toNat = 16 + 8 * i := by
  have hi := i.isLt
  rw [offsetofArgs, BitVec.toNat_ofNat]
  omega

theorem readable_offsetofArgs (i : Fin 6) : readable (offsetofArgs i) = true := by
  have hi := i.isLt
  rw [readable, toNat_offsetofArgs, Bool.and_eq_true, decide_eq_true_eq, decide_eq_true_eq]
  omega

theorem load_args (i : Fin 6) : data.load (offsetofArgs i) = some ((data.args i).setWidth 32) := by
  obtain ⟨before, behind, heq, hlength⟩ := data.exists_bytes_eq i
  have hword : wordAt (16 + 8 * i) data.bytes = (data.args i).toNat % 2 ^ 32 := by
    rw [heq]
    exact wordAt_append_toBytes before behind (data.args i).toNat hlength
  rw [load, if_pos (readable_offsetofArgs i), toNat_offsetofArgs, hword, ← BitVec.toNat_setWidth, BitVec.ofNat_toNat,
    BitVec.setWidth_eq]

end SeccompData

/-! ## The filter -/

section Filter

variable {abi : Abi} {args : Fin 4 → BitVec 32} {data : SeccompData}

/-- The words the filter looks at, and what it compares them with. -/
def tests (abi : Abi) (args : Fin 4 → BitVec 32) : List (BitVec 32 × BitVec 32) :=
  [ (SeccompData.offsetofNr, NR_exit_group abi),
    (SeccompData.offsetofArgs 0, args 0),
    (SeccompData.offsetofArgs 1, args 1),
    (SeccompData.offsetofArgs 2, args 2),
    (SeccompData.offsetofArgs 3, args 3) ]

/-- Every jump that was counted by hand leads to the last instruction. -/
theorem filter_eq (abi : Abi) (args : Fin 4 → BitVec 32) :
    filter abi args = testChain SECCOMP_RET_TRACE SECCOMP_RET_ALLOW (tests abi args) := rfl

theorem length_tests_le : (tests abi args).length ≤ 128 := by
  show 5 ≤ 128
  omega

theorem all_tests_iff :
    ((tests abi args).all fun test => decide (data.load test.1 = some test.2)) = true ↔ Carries abi args data := by
  simp only [List.all_eq_true, decide_eq_true_eq, tests, List.forall_mem_cons, SeccompData.load_nr,
    SeccompData.load_args, Option.some.injEq]
  constructor
  · rintro ⟨hnr, h0, h1, h2, h3, -⟩
    refine ⟨hnr, ?_⟩
    intro i
    match i with
    | 0 => exact h0
    | 1 => exact h1
    | 2 => exact h2
    | 3 => exact h3
  · rintro ⟨hnr, hargs⟩
    exact ⟨hnr, hargs 0, hargs 1, hargs 2, hargs 3, List.forall_mem_nil _⟩

/-- All words are there to be loaded. -/
theorem isSome_load_tests : ∀ test ∈ tests abi args, (data.load test.1).isSome = true := by
  simp [tests, SeccompData.load_nr, SeccompData.load_args]

theorem run_filter_of_carries (h : Carries abi args data) :
    run data.load (filter abi args) = some SECCOMP_RET_TRACE := by
  rw [filter_eq, run_testChain length_tests_le isSome_load_tests, if_pos (all_tests_iff.mpr h)]

theorem run_filter_of_not_carries (h : ¬ Carries abi args data) :
    run data.load (filter abi args) = some SECCOMP_RET_ALLOW := by
  rw [filter_eq, run_testChain length_tests_le isSome_load_tests, if_neg (mt all_tests_iff.mp h)]

theorem returns_trace (h : Carries abi args data) : Returns (filter abi args) data SECCOMP_RET_TRACE 0#32 :=
  ⟨_, run_filter_of_carries h, by decide, by decide⟩

theorem returns_allow (h : ¬ Carries abi args data) : Returns (filter abi args) data SECCOMP_RET_ALLOW 0#32 :=
  ⟨_, run_filter_of_not_carries h, by decide, by decide⟩

/-- A program has one result. -/
theorem Returns.action_eq {prog : List SockFilter} {action action' retData retData' : BitVec 32}
    (h : Returns prog data action retData) (h' : Returns prog data action' retData') : action = action' := by
  obtain ⟨value, hrun, haction, -⟩ := h
  obtain ⟨value', hrun', haction', -⟩ := h'
  obtain rfl := Option.some.inj (hrun.symm.trans hrun')
  exact haction.symm.trans haction'

/-- The kernel takes the filter. -/
theorem accepts_filter (abi : Abi) (args : Fin 4 → BitVec 32) :
    accepts SeccompData.readable (filter abi args) = true := by
  rw [filter_eq]
  apply accepts_testChain length_tests_le
  simp only [tests, List.forall_mem_cons, SeccompData.readable_offsetofArgs, true_and]
  exact ⟨by decide, List.forall_mem_nil _⟩

/-- The first word of a signature has a bit that no small number has. -/
theorem getLsbD_signature (random : Fin 4 → BitVec 32) : (signature random 0).getLsbD 16 = true := by
  rw [signature, Function.update_self, BitVec.getLsbD_or]
  have hbit : (0x10000 : BitVec 32).getLsbD 16 = true := by decide
  rw [hbit, Bool.or_true]

/-- An exit status below that bit is in no signature. -/
theorem not_carries_of_lt {random : Fin 4 → BitVec 32} (h : ((data.args 0).setWidth 32).toNat < 65536) :
    ¬ Carries abi (signature random) data := by
  intro hcarries
  have hword : (data.args 0).setWidth 32 = signature random 0 := hcarries.args 0
  have hbit := getLsbD_signature random
  rw [← hword, BitVec.getLsbD, Nat.testBit_lt_two_pow h] at hbit
  cases hbit

/-- For every signature and every call: the filter ends with a trace and no data exactly if the call is an
`exit_group` with the signature in its arguments, and otherwise with the call allowed. An exit status is a small
number, so that such a call is allowed. -/
theorem returns_filter_iff (abi : Abi) (random : Fin 4 → BitVec 32) (data : SeccompData) :
    (Returns (filter abi (signature random)) data SECCOMP_RET_TRACE 0#32 ↔ Carries abi (signature random) data) ∧
      (¬ Carries abi (signature random) data →
        Returns (filter abi (signature random)) data SECCOMP_RET_ALLOW 0#32) ∧
      (data.nr = NR_exit_group abi → ((data.args 0).setWidth 32).toNat < 65536 →
        Returns (filter abi (signature random)) data SECCOMP_RET_ALLOW 0#32) := by
  refine ⟨?_, returns_allow, ?_⟩
  · constructor
    · intro htrace
      by_contra hother
      have hsame := htrace.action_eq (returns_allow hother)
      exact absurd hsame (by decide)
    · exact returns_trace
  · intro _ hstatus
    exact returns_allow (not_carries_of_lt hstatus)

end Filter

/-- A zygote that exits with status 7 while the signature of its filter is `0x10000, 0, 0, 0`. -/
def exiting : SeccompData := ⟨NR_exit_group .aarch64, 0xc00000b7, 0x7000001000, fun i => if i = 0 then 7 else 0⟩

theorem returns_filter_exiting :
    Returns (filter .aarch64 (signature fun _ => 0)) exiting SECCOMP_RET_ALLOW 0#32 :=
  (returns_filter_iff .aarch64 (fun _ => 0) exiting).2.2 rfl (by decide)

/-! ## What the injector does -/

section Send

variable {abi : Abi} {o : Outcomes}

/-- Nothing, or the filter is installed, or the signature is sent through it. -/
theorem sendSeccompEventIfNeeded_cases (abi : Abi) (o : Outcomes) :
    sendSeccompEventIfNeeded abi o = [] ∨
      ∃ random, sendSeccompEventIfNeeded abi o = [.prctl (filter abi (signature random))] ∨
        sendSeccompEventIfNeeded abi o = [.prctl (filter abi (signature random)), .exitGroup (signature random)] := by
  unfold sendSeccompEventIfNeeded
  split
  · exact Or.inl rfl
  · cases o.random with
    | none => exact Or.inl rfl
    | some random =>
        cases o.prctl with
        | false => exact Or.inr ⟨random, Or.inl rfl⟩
        | true => exact Or.inr ⟨random, Or.inr rfl⟩

/-- A call of `exit_group` is made with the signature of the filter that was installed before it. -/
theorem mem_sendSeccompEventIfNeeded {call : Call} (h : call ∈ sendSeccompEventIfNeeded abi o) :
    ∃ random, call = .prctl (filter abi (signature random)) ∨
      call = .exitGroup (signature random) ∧
        sendSeccompEventIfNeeded abi o = [.prctl (filter abi (signature random)), .exitGroup (signature random)] := by
  rcases sendSeccompEventIfNeeded_cases abi o with heq | ⟨random, heq | heq⟩
  · rw [heq] at h
    cases h
  · rw [heq] at h
    exact ⟨random, Or.inl (List.mem_singleton.mp h)⟩
  · rw [heq] at h
    rcases List.mem_pair.mp h with hprctl | hexit
    · exact ⟨random, Or.inl hprctl⟩
    · exact ⟨random, Or.inr ⟨hexit, heq⟩⟩

/-- Whatever filter is installed is one that the kernel takes, and allows all calls but those with its signature. -/
theorem sendSeccompEventIfNeeded_filter {prog : List SockFilter}
    (h : Call.prctl prog ∈ sendSeccompEventIfNeeded abi o) :
    accepts SeccompData.readable prog = true ∧
      ∃ random, ∀ data, ¬ Carries abi (signature random) data → Returns prog data SECCOMP_RET_ALLOW 0#32 := by
  obtain ⟨random, hcall | ⟨hcall, -⟩⟩ := mem_sendSeccompEventIfNeeded h
  · obtain rfl := Call.prctl.inj hcall
    exact ⟨accepts_filter abi _, random, fun data => returns_allow⟩
  · cases hcall

/-- The injector calls `exit_group` only through a filter that traces the call, whatever the upper halves of the
arguments are. -/
theorem sendSeccompEventIfNeeded_traced {args : Fin 4 → BitVec 32}
    (h : Call.exitGroup args ∈ sendSeccompEventIfNeeded abi o) :
    ∃ prog, sendSeccompEventIfNeeded abi o = [.prctl prog, .exitGroup args] ∧
      ∀ data, Carries abi args data → Returns prog data SECCOMP_RET_TRACE 0#32 := by
  obtain ⟨random, hcall | ⟨hcall, heq⟩⟩ := mem_sendSeccompEventIfNeeded h
  · cases hcall
  · obtain rfl := Call.exitGroup.inj hcall
    exact ⟨_, heq, fun data => returns_trace⟩

/-- From version 5.3 on the kernel clears the message itself, and the injector leaves it alone. -/
theorem sendSeccompEventIfNeeded_of_version {version : Int × Int} (hrelease : o.release = some version)
    (hversion : 5 < version.1 ∨ version.1 = 5 ∧ 3 ≤ version.2) : sendSeccompEventIfNeeded abi o = [] := by
  have hclears : kernelKeepsPtraceMessage o.release = false := by
    rw [hrelease, kernelKeepsPtraceMessage, Option.any_some, Bool.or_eq_false_iff, Bool.and_eq_false_iff,
      decide_eq_false_iff_not, decide_eq_false_iff_not, decide_eq_false_iff_not]
    omega
  rw [sendSeccompEventIfNeeded, hclears]
  rfl

end Send

/-! ## Further filters -/

/-- Of two values the one whose action has the higher precedence: the actions are compared as signed numbers, and of
equal ones the first counts. -/
def precedent (ret value : BitVec 32) : BitVec 32 :=
  if (value &&& SECCOMP_RET_ACTION_FULL).slt (ret &&& SECCOMP_RET_ACTION_FULL) then value else ret

/-- The kernel runs all filters of a process, with `SECCOMP_RET_ALLOW` as the first `ret`. -/
def runFilters (data : SeccompData) (ret : BitVec 32) : List (List SockFilter) → Option (BitVec 32)
  | [] => some ret
  | prog :: progs =>
      match run data.load prog with
      | none => none
      | some value => runFilters data (precedent ret value) progs

/-- No action is above the permission. -/
theorem toInt_action_le (value : BitVec 32) :
    (value &&& SECCOMP_RET_ACTION_FULL).toInt ≤ SECCOMP_RET_ALLOW.toInt := by
  have hallow : SECCOMP_RET_ALLOW.toInt = 0x7fff0000 := by decide
  have haction : (value &&& SECCOMP_RET_ACTION_FULL).toNat = value.toNat - value.toNat % 2 ^ 16 :=
    Mask.toNat_alignDown value 16 (by decide)
  have hlt := value.isLt
  rw [hallow, BitVec.toInt_eq_toNat_cond, haction]
  split
  · omega
  · omega

theorem precedent_allow (ret : BitVec 32) : precedent ret SECCOMP_RET_ALLOW = ret := by
  have hallow : SECCOMP_RET_ALLOW &&& SECCOMP_RET_ACTION_FULL = SECCOMP_RET_ALLOW := by decide
  have hle := toInt_action_le ret
  rw [precedent, hallow, if_neg]
  rw [BitVec.slt_iff_toInt_lt]
  omega

/-- Filters that the kernel has taken come to a value. -/
theorem isSome_runFilters {progs : List (List SockFilter)}
    (h : ∀ prog ∈ progs, accepts SeccompData.readable prog = true) (data : SeccompData) (ret : BitVec 32) :
    (runFilters data ret progs).isSome = true := by
  induction progs generalizing ret with
  | nil => rfl
  | cons prog progs ih =>
      obtain ⟨hhead, htail⟩ := List.forall_mem_cons.mp h
      obtain ⟨value, hvalue⟩ := Option.isSome_iff_exists.mp (isSome_run (fun _ => data.isSome_load) hhead)
      rw [runFilters, hvalue]
      exact ih htail (precedent ret value)

/-- Beside other filters, before or after it, the filter changes nothing for a call without the signature. -/
theorem runFilters_filter {abi : Abi} {args : Fin 4 → BitVec 32} {data : SeccompData} (hother : ¬ Carries abi args data)
    (ret : BitVec 32) (before after : List (List SockFilter)) :
    runFilters data ret (before ++ filter abi args :: after) = runFilters data ret (before ++ after) := by
  induction before generalizing ret with
  | nil =>
      rw [List.nil_append, List.nil_append, runFilters, run_filter_of_not_carries hother]
      dsimp only
      rw [precedent_allow]
  | cons prog before ih =>
      rw [List.cons_append, List.cons_append, runFilters, runFilters]
      cases run data.load prog with
      | none => rfl
      | some value => exact ih (precedent ret value)

end NeoZygisk.Injector.Seccomp
