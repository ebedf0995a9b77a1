import NeoZygisk.Lib.Mask
import NeoZygisk.Ptracer.StartupBlock

/-!
# What a failed injection leaves behind

When `injectBeforeStart` fails, its caller detaches the target and lets it run uninjected. For that the
entry address must be back in the startup block, and the registers must be ones the program can go on
from. `leavesResumable_iff` says when this holds: exactly when the injection does not fail at all, or the
target is beyond repair. Each of the exits in `FailureExit` breaks it. Up to the write-back the program
would jump to the trap address; after it the process is left at the fault or inside a remote call, with
registers that nobody restores. `injectAfterStart_restores` is the sibling that does restore them.

`failed_injections_not_resumable` has two such runs.
-/

set_option autoImplicit false

namespace NeoZygisk.Ptracer

open NeoZygisk.Common
open NeoZygisk.Lib.Bytes
open NeoZygisk.Lib.Mask

variable {abi : Abi}

/-! ## Runs that come back -/

theorem bind_eq_ok_iff {α β : Type} {x : Except Abort α} {f : α → Except Abort β} {b : β} :
    (x >>= f) = .ok b ↔ ∃ a, x = .ok a ∧ f a = .ok b := by
  cases x with
  | error e =>
      constructor
      · intro h
        cases h
      · rintro ⟨a, ha, -⟩
        cases ha
  | ok a =>
      constructor
      · intro h
        exact ⟨a, rfl, h⟩
      · rintro ⟨a', ha, h⟩
        cases ha
        exact h

theorem map_eq_ok_iff {α β : Type} {x : Except Abort α} {f : α → β} {b : β} :
    x.map f = .ok b ↔ ∃ a, x = .ok a ∧ f a = b := by
  cases x with
  | error e => simp [Except.map]
  | ok a => simp [Except.map]

/-- A computation that goes on from a remote call and looks only at its value comes to what it makes of
the call's result. -/
theorem map_remoteCall_bind {β γ : Type} {o : CallOutcome abi} {func returnAddr : Word abi}
    {args : List (Word abi)} {regs : Regs abi} {t : Tracee abi}
    {f : Option (Word abi) × Regs abi × Tracee abi → Except Abort β} {p : β → γ}
    {g : Option (Word abi) → Except Abort γ} (hfg : ∀ r, (f r).map p = g r.1) :
    (remoteCall o func returnAddr args regs t >>= f).map p =
      (o.result args.length returnAddr >>= g) := by
  rw [← remoteCall_result o func returnAddr args regs t]
  cases remoteCall o func returnAddr args regs t with
  | error e => rfl
  | ok r => exact hfg r

/-! ## The exits of the remote calls -/

namespace RemoteOutcomes

variable (o : RemoteOutcomes abi)

/-- The error path comes back, with whatever it found out. -/
def ErrorPathReturns : Prop :=
  o.view.findFuncAddr "libdl.so" "dlerror" = 0 ∨
    ∃ str, o.dlerror.result 0 o.view.returnAddr = .ok str ∧
      (str.getD 0 = 0 ∨ o.view.findFuncAddr "libc.so" "strlen" = 0 ∨
        ∃ len, o.strlen.result 1 o.view.returnAddr = .ok len)

/-- `dlopen` is found and returns a handle. -/
def Opens : Prop :=
  o.view.findFuncAddr "libdl.so" "dlopen" ≠ 0 ∧
    ∃ handle, o.dlopen.result 2 o.view.returnAddr = .ok handle ∧ handle.getD 0 ≠ 0

/-- Then `dlsym` is found and returns the address of `entry`. -/
def Resolves : Prop :=
  o.Opens ∧ o.view.findFuncAddr "libdl.so" "dlsym" ≠ 0 ∧
    ∃ entry, o.dlsym.result 2 o.view.returnAddr = .ok entry ∧ entry.getD 0 ≠ 0

/-- The failure exits of `execute_remote_injection`. -/
inductive Fails : Prop
  | noDlopen (h : o.view.findFuncAddr "libdl.so" "dlopen" = 0)
  | dlopen (h : o.view.findFuncAddr "libdl.so" "dlopen" ≠ 0) (handle : Option (Word abi))
      (hcall : o.dlopen.result 2 o.view.returnAddr = .ok handle) (hzero : handle.getD 0 = 0)
      (herror : o.ErrorPathReturns)
  | noDlsym (hopen : o.Opens) (h : o.view.findFuncAddr "libdl.so" "dlsym" = 0)
  | dlsym (hopen : o.Opens) (h : o.view.findFuncAddr "libdl.so" "dlsym" ≠ 0) (entry : Option (Word abi))
      (hcall : o.dlsym.result 2 o.view.returnAddr = .ok entry) (hzero : entry.getD 0 = 0)
  | entry (hresolve : o.Resolves) (hcall : o.entry.result 4 o.view.returnAddr = .ok none)

/-- The library's `entry` was called and came back. -/
def Succeeds : Prop := o.Resolves ∧ ∃ v, o.entry.result 4 o.view.returnAddr = .ok (some v)

/-- The remote calls stop anywhere but at the program's entry address, which none of them executes. -/
def StopsElsewhere (entry : Word abi) : Prop :=
  ∀ call ∈ [o.dlopen, o.dlerror, o.strlen, o.dlsym, o.entry], ∀ s,
    awaited call.waits = .ok s → s.regs abi.ip ≠ entry

/-- What the error path and the whole injection come to. -/
def errorPath : Except Abort Unit :=
  if o.view.findFuncAddr "libdl.so" "dlerror" = 0 then .ok ()
  else do
    let str ← o.dlerror.result 0 o.view.returnAddr
    if str.getD 0 = 0 then return ()
    else if o.view.findFuncAddr "libc.so" "strlen" = 0 then return ()
    else do
      let _ ← o.strlen.result 1 o.view.returnAddr
      return ()

def value : Except Abort Bool :=
  if o.view.findFuncAddr "libdl.so" "dlopen" = 0 then .ok false
  else do
    let handle ← o.dlopen.result 2 o.view.returnAddr
    if handle.getD 0 = 0 then do
      let _ ← o.errorPath
      return false
    else if o.view.findFuncAddr "libdl.so" "dlsym" = 0 then return false
    else do
      let entry ← o.dlsym.result 2 o.view.returnAddr
      if entry.getD 0 = 0 then return false
      else do
        let reported ← o.entry.result 4 o.view.returnAddr
        return reported.isSome

theorem errorPath_eq_ok_iff : (∃ u, o.errorPath = .ok u) ↔ o.ErrorPathReturns := by
  simp only [errorPath, ErrorPathReturns]
  by_cases hdlerror : o.view.findFuncAddr "libdl.so" "dlerror" = 0
  · simp [hdlerror]
  · simp only [hdlerror, if_false, bind_eq_ok_iff, false_or]
    constructor
    · rintro ⟨u, str, hstr, hrest⟩
      refine ⟨str, hstr, ?_⟩
      by_cases hzero : str.getD 0 = 0
      · exact .inl hzero
      · by_cases hstrlen : o.view.findFuncAddr "libc.so" "strlen" = 0
        · exact .inr (.inl hstrlen)
        · rw [if_neg hzero, if_neg hstrlen, bind_eq_ok_iff] at hrest
          obtain ⟨len, hlen, -⟩ := hrest
          exact .inr (.inr ⟨len, hlen⟩)
    · rintro ⟨str, hstr, hrest⟩
      refine ⟨(), str, hstr, ?_⟩
      by_cases hzero : str.getD 0 = 0
      · rw [if_pos hzero]
        rfl
      · rw [if_neg hzero]
        by_cases hstrlen : o.view.findFuncAddr "libc.so" "strlen" = 0
        · rw [if_pos hstrlen]
          rfl
        · rw [if_neg hstrlen, bind_eq_ok_iff]
          rcases hrest with h | h | ⟨len, hlen⟩
          · exact absurd h hzero
          · exact absurd h hstrlen
          · exact ⟨len, hlen, rfl⟩

/-- The value after `dlopen` has returned a handle. -/
theorem value_of_opens (h : o.Opens) : o.value =
    if o.view.findFuncAddr "libdl.so" "dlsym" = 0 then .ok false
    else do
      let entry ← o.dlsym.result 2 o.view.returnAddr
      if entry.getD 0 = 0 then return false
      else do
        let reported ← o.entry.result 4 o.view.returnAddr
        return reported.isSome := by
  obtain ⟨hdlopen, handle, hcall, hhandle⟩ := h
  simp only [value, hdlopen, if_false, hcall]
  exact if_neg hhandle

/-- The value after `dlsym` has returned the address of `entry`. -/
theorem value_of_resolves (h : o.Resolves) : o.value =
    (o.entry.result 4 o.view.returnAddr).map (·.isSome) := by
  obtain ⟨hopen, hdlsym, entry, hcall, hentry⟩ := h
  rw [value_of_opens o hopen, if_neg hdlsym, hcall]
  simp only [bind, Except.bind, if_neg hentry]
  cases o.entry.result 4 o.view.returnAddr with
  | error e => rfl
  | ok reported => rfl

/-- An injection that comes back has called `entry`, or took one of the failure exits. -/
theorem exit_of_value {b : Bool} (h : o.value = .ok b) :
    (b = true ∧ o.Succeeds) ∨ (b = false ∧ o.Fails) := by
  by_cases hdlopen : o.view.findFuncAddr "libdl.so" "dlopen" = 0
  · simp only [value, hdlopen, if_true] at h
    cases h
    exact .inr ⟨rfl, .noDlopen hdlopen⟩
  · cases hcall : o.dlopen.result 2 o.view.returnAddr with
    | error e =>
        simp only [value, hdlopen, if_false, hcall] at h
        cases h
    | ok handle =>
        by_cases hzero : handle.getD 0 = 0
        · simp only [value, hdlopen, if_false, hcall] at h
          simp only [bind, Except.bind, if_pos hzero] at h
          cases hpath : o.errorPath with
          | error e =>
              rw [hpath] at h
              cases h
          | ok u =>
              rw [hpath] at h
              cases h
              exact .inr ⟨rfl, .dlopen hdlopen handle hcall hzero
                (o.errorPath_eq_ok_iff.mp ⟨u, hpath⟩)⟩
        · have hopen : o.Opens := ⟨hdlopen, handle, hcall, hzero⟩
          rw [value_of_opens o hopen] at h
          by_cases hdlsym : o.view.findFuncAddr "libdl.so" "dlsym" = 0
          · rw [if_pos hdlsym] at h
            cases h
            exact .inr ⟨rfl, .noDlsym hopen hdlsym⟩
          · rw [if_neg hdlsym, bind_eq_ok_iff] at h
            obtain ⟨entry, hsym, hrest⟩ := h
            by_cases hnull : entry.getD 0 = 0
            · rw [if_pos hnull] at hrest
              cases hrest
              exact .inr ⟨rfl, .dlsym hopen hdlsym entry hsym hnull⟩
            · have hresolve : o.Resolves := ⟨hopen, hdlsym, entry, hsym, hnull⟩
              rw [if_neg hnull, bind_eq_ok_iff] at hrest
              obtain ⟨reported, hentry, hsome⟩ := hrest
              cases reported with
              | none =>
                  cases hsome
                  exact .inr ⟨rfl, .entry hresolve hentry⟩
              | some v =>
                  cases hsome
                  exact .inl ⟨rfl, hresolve, v, hentry⟩

theorem value_of_fails (h : o.Fails) : o.value = .ok false := by
  cases h with
  | noDlopen h => simp only [value, h, if_true]
  | dlopen h handle hcall hzero herror =>
      obtain ⟨u, hpath⟩ := o.errorPath_eq_ok_iff.mpr herror
      simp only [value, h, if_false, hcall, bind, Except.bind, if_pos hzero, hpath]
      rfl
  | noDlsym hopen h => rw [value_of_opens o hopen, if_pos h]
  | dlsym hopen h entry hcall hzero =>
      rw [value_of_opens o hopen, if_neg h, hcall]
      simp only [bind, Except.bind, if_pos hzero]
      rfl
  | entry hresolve hcall =>
      rw [value_of_resolves o hresolve, hcall]
      rfl

theorem value_of_succeeds (h : o.Succeeds) : o.value = .ok true := by
  obtain ⟨hresolve, v, hcall⟩ := h
  rw [value_of_resolves o hresolve, hcall]
  rfl

end RemoteOutcomes

/-! ## The injection follows its outcomes -/

theorem reportDlerror_value (o : RemoteOutcomes abi) (regs : Regs abi) (t : Tracee abi) :
    (reportDlerror o regs t).map (fun _ => ()) = o.errorPath := by
  simp only [reportDlerror, RemoteOutcomes.errorPath]
  by_cases hdlerror : o.view.findFuncAddr "libdl.so" "dlerror" = 0
  · rw [if_pos hdlerror, if_pos hdlerror]
    rfl
  · rw [if_neg hdlerror, if_neg hdlerror]
    apply map_remoteCall_bind
    rintro ⟨str, regs, t⟩
    dsimp only
    by_cases hzero : str.getD 0 = 0
    · rw [if_pos hzero, if_pos hzero]
      rfl
    · rw [if_neg hzero, if_neg hzero]
      by_cases hstrlen : o.view.findFuncAddr "libc.so" "strlen" = 0
      · rw [if_pos hstrlen, if_pos hstrlen]
        rfl
      · rw [if_neg hstrlen, if_neg hstrlen]
        apply map_remoteCall_bind
        intro r
        rfl

theorem callEntry_value (o : RemoteOutcomes abi) (tmpPath : String) (mode : TraceMode)
    (entryAddr : Word abi) (regs : Regs abi) (t : Tracee abi) :
    (callEntry o tmpPath mode entryAddr regs t).map (·.1.ok) =
      (o.entry.result 4 o.view.returnAddr).map (·.isSome) := by
  simp only [callEntry]
  rw [map_remoteCall_bind (g := fun reported => .ok reported.isSome)]
  · cases o.entry.result 4 o.view.returnAddr <;> rfl
  · rintro ⟨reported, regs, t⟩
    cases reported with
    | none => rfl
    | some v => rfl

/-- The value of the whole injection depends on the outcomes alone. -/
theorem executeRemoteInjection_value (o : RemoteOutcomes abi) (libPath tmpPath : String)
    (mode : TraceMode) (regs : Regs abi) (t : Tracee abi) :
    (executeRemoteInjection o libPath tmpPath mode regs t).map (·.1.ok) = o.value := by
  simp only [executeRemoteInjection, RemoteOutcomes.value]
  by_cases hdlopen : o.view.findFuncAddr "libdl.so" "dlopen" = 0
  · rw [if_pos hdlopen, if_pos hdlopen]
    rfl
  · rw [if_neg hdlopen, if_neg hdlopen]
    apply map_remoteCall_bind
    rintro ⟨handle, regs, t⟩
    dsimp only
    by_cases hzero : handle.getD 0 = 0
    · rw [if_pos hzero, if_pos hzero, ← reportDlerror_value o regs t]
      cases reportDlerror o regs t <;> rfl
    · rw [if_neg hzero, if_neg hzero]
      simp only [startLibrary]
      by_cases hdlsym : o.view.findFuncAddr "libdl.so" "dlsym" = 0
      · rw [if_pos hdlsym, if_pos hdlsym]
        rfl
      · rw [if_neg hdlsym, if_neg hdlsym]
        apply map_remoteCall_bind
        rintro ⟨entryAddr, regs, t⟩
        dsimp only
        by_cases hnull : entryAddr.getD 0 = 0
        · rw [if_pos hnull, if_pos hnull]
          rfl
        · rw [if_neg hnull, if_neg hnull, callEntry_value]
          cases o.entry.result 4 o.view.returnAddr <;> rfl

/-! ## The registers it leaves -/

section Keeps

-- A property of registers that holds wherever a remote call stops.
variable {o : RemoteOutcomes abi} {P : Regs abi → Prop}
  (hstops : ∀ call ∈ [o.dlopen, o.dlerror, o.strlen, o.dlsym, o.entry], ∀ s,
    awaited call.waits = .ok s → P s.regs)

include hstops

theorem remoteCall_keeps {call : CallOutcome abi} {func returnAddr : Word abi}
    {args : List (Word abi)} {regs : Regs abi} {t : Tracee abi}
    {r : Option (Word abi) × Regs abi × Tracee abi}
    (hcall : call ∈ [o.dlopen, o.dlerror, o.strlen, o.dlsym, o.entry])
    (h : remoteCall call func returnAddr args regs t = .ok r) (ht : P t.regs) : P r.2.2.regs := by
  rcases remoteCall_regs h with hsame | ⟨s, hs, hstop⟩
  · rwa [hsame]
  · rw [hstop]
    exact hstops call hcall s hs

theorem reportDlerror_keeps {regs : Regs abi} {t t' : Tracee abi}
    (h : reportDlerror o regs t = .ok t') (ht : P t.regs) : P t'.regs := by
  simp only [reportDlerror] at h
  split at h
  · cases h
    exact ht
  · obtain ⟨r, hr, h⟩ := bind_eq_ok_iff.mp h
    have hdlerror : P r.2.2.regs := remoteCall_keeps hstops (by simp) hr ht
    split at h
    · cases h
      exact hdlerror
    · split at h
      · cases h
        exact hdlerror
      · obtain ⟨r', hr', h⟩ := bind_eq_ok_iff.mp h
        cases h
        exact remoteCall_keeps hstops (by simp) hr' hdlerror

theorem callEntry_keeps {tmpPath : String} {mode : TraceMode} {entryAddr : Word abi}
    {regs : Regs abi} {t : Tracee abi} {r : Injected × Tracee abi}
    (h : callEntry o tmpPath mode entryAddr regs t = .ok r) (ht : P t.regs) : P r.2.regs := by
  simp only [callEntry] at h
  obtain ⟨r', hr', h⟩ := bind_eq_ok_iff.mp h
  have hentry : P r'.2.2.regs := remoteCall_keeps hstops (by simp) hr' (by rwa [pushString_regs])
  split at h
  · cases h
    exact hentry
  · cases h
    exact hentry

theorem startLibrary_keeps {tmpPath : String} {mode : TraceMode} {handle : Word abi}
    {regs : Regs abi} {t : Tracee abi} {r : Injected × Tracee abi}
    (h : startLibrary o tmpPath mode handle regs t = .ok r) (ht : P t.regs) : P r.2.regs := by
  simp only [startLibrary] at h
  split at h
  · cases h
    exact ht
  · obtain ⟨r', hr', h⟩ := bind_eq_ok_iff.mp h
    have hdlsym : P r'.2.2.regs := remoteCall_keeps hstops (by simp) hr' (by rwa [pushString_regs])
    split at h
    · cases h
      exact hdlsym
    · exact callEntry_keeps hstops h hdlsym

/-- The injection leaves the process as it was, or at a stop of one of its calls. -/
theorem executeRemoteInjection_keeps {libPath tmpPath : String} {mode : TraceMode}
    {regs : Regs abi} {t : Tracee abi} {r : Injected × Tracee abi}
    (h : executeRemoteInjection o libPath tmpPath mode regs t = .ok r) (ht : P t.regs) :
    P r.2.regs := by
  simp only [executeRemoteInjection] at h
  split at h
  · cases h
    exact ht
  · obtain ⟨r', hr', h⟩ := bind_eq_ok_iff.mp h
    have hdlopen : P r'.2.2.regs := remoteCall_keeps hstops (by simp) hr' (by rwa [pushString_regs])
    split at h
    · obtain ⟨t', ht', h⟩ := bind_eq_ok_iff.mp h
      cases h
      exact reportDlerror_keeps hstops ht' hdlopen
    · exact startLibrary_keeps hstops h hdlopen

end Keeps

/-! ## The way to the trap -/

/-- The fault the loop ends at, or `none` where it gives up. -/
def trapStop : List (Round abi) → Except Abort (Option (Stop abi))
  | [] => .error .blocked
  | round :: rest =>
      if round.cont then
        match awaited round.waits with
        | .error e => .error e
        | .ok s =>
            if s.sig = sigSegv then .ok (some s)
            else if s.sig = sigStop then trapStop rest
            else .ok none
      else .ok none

/-- The loop follows the replies and writes nothing. -/
theorem runToTrap_spec (rounds : List (Round abi)) (t : Tracee abi) :
    match trapStop rounds with
    | .error e => runToTrap rounds t = .error e
    | .ok none => ∃ t', runToTrap rounds t = .ok (false, t') ∧ t'.mem = t.mem
    | .ok (some s) => runToTrap rounds t = .ok (true, t.stopAt s) := by
  induction rounds generalizing t with
  | nil => rfl
  | cons round rest ih =>
      simp only [trapStop, runToTrap]
      cases round.cont with
      | false => exact ⟨t, rfl, rfl⟩
      | true =>
          simp only [if_true, waitForTrace_eq]
          cases awaited round.waits with
          | error e => rfl
          | ok s =>
              simp only [Except.map]
              -- a fault ends the loop, its own `SIGSTOP` goes on, any other stop gives up
              by_cases hsegv : s.sig = sigSegv
              · simp only [hsegv, if_true]
              · simp only [hsegv, if_false]
                by_cases hstop : s.sig = sigStop
                · simp only [hstop, if_true]
                  exact ih (t.stopAt s)
                · simp only [hstop, if_false]
                  exact ⟨t.stopAt s, rfl, rfl⟩

/-! ## The exits of the injection -/

/-- The fault happened at the trap address, up to the Thumb bit. -/
def Stop.AtTrap (s : Stop abi) (entry : Word abi) : Prop :=
  s.regs abi.ip &&& ~~~1 = trapAddr entry &&& ~~~1

instance (s : Stop abi) (entry : Word abi) : Decidable (s.AtTrap entry) :=
  inferInstanceAs (Decidable (_ = _))

namespace Outcomes

variable (o : Outcomes abi)

/-- The registers were read and the entry slot was overwritten as a whole. -/
def Overwrites : Prop := o.getRegs = true ∧ Complete o.hijack abi.wordBytes

/-- The exits that return false once the slot is overwritten: the loop gives up (a `PTRACE_CONT` that
fails, a stop for another signal), the registers of the fault cannot be read or are not at the trap, no
byte of the entry address is written back, a remote call fails, the registers cannot be restored. -/
inductive FailureExit (entry : Word abi) : Prop
  | gaveUp (h : trapStop o.rounds = .ok none)
  | unreadable (s : Stop abi) (h : trapStop o.rounds = .ok (some s)) (hregs : o.trapRegs = false)
  | elsewhere (s : Stop abi) (h : trapStop o.rounds = .ok (some s)) (hip : ¬ s.AtTrap entry)
  | unwritten (s : Stop abi) (h : trapStop o.rounds = .ok (some s)) (hwrite : o.writeBack = some 0)
  | remote (s : Stop abi) (h : trapStop o.rounds = .ok (some s)) (hremote : o.remote.Fails)
  | unrestored (s : Stop abi) (h : trapStop o.rounds = .ok (some s)) (hremote : o.remote.Succeeds)
      (hset : o.setRegs = false)

/-- The registers saved at the trap, if the program reached it. -/
def savedAtTrap (entry : Word abi) : Option (Regs abi) :=
  match trapStop o.rounds with
  | .ok (some s) => if s.AtTrap entry then some s.regs else none
  | _ => none

end Outcomes

/-- The program can go on uninjected: its entry address is in its slot, and its registers are those of
its own last stop, or those saved at the trap with the instruction pointer at the entry address. -/
def Resumable {t₀ : Tracee abi} (o : Outcomes abi) (b : StartupBlock t₀) (t : Tracee abi) : Prop :=
  t.word b.slot = b.entry ∧
    match o.savedAtTrap b.entry with
    | none => t.regs = t.stopRegs
    | some regs => t.regs = regs.set abi.ip b.entry

/-- If the injection returns false and the target could still be repaired, it is resumable. -/
def LeavesResumable (o : Outcomes abi) (libPath tmpPath : String) (mode : TraceMode)
    {t : Tracee abi} (b : StartupBlock t) : Prop :=
  ∀ injected t', injectBeforeStart o libPath tmpPath mode t = .ok (injected, t') →
    injected.ok = false → o.restorable = true → Resumable o b t'

/-- A write of no bytes changes nothing. -/
theorem writeProc_some_zero (addr : Word abi) (bytes : List (BitVec 8)) (t : Tracee abi) :
    (writeProc (some 0) addr bytes t).2 = t := by
  have hmem : t.mem.write addr [] = t.mem := by
    funext a
    simp [Memory.write]
  simp only [writeProc, List.take_zero, hmem]

theorem writeProc_eq_some_zero_iff (count : Option Nat) (addr v : Word abi) (t : Tracee abi) :
    (writeProc count addr (wordToBytes v) t).1 = some 0 ↔ count = some 0 := by
  have hlength : (wordToBytes v).length ≠ 0 := by
    rw [length_wordToBytes]
    exact wordBytes_ne_zero abi
  cases count with
  | none => simp [writeProc]
  | some n =>
      simp only [writeProc, Option.some.injEq]
      omega

/-- At the trap the instruction pointer is not the entry address: the two would agree up to the lowest
bit, which the trap address takes from the entry address. -/
theorem ip_ne_entry {t₀ : Tracee abi} (b : StartupBlock t₀) {s : Stop abi} (h : s.AtTrap b.entry) :
    s.regs abi.ip ≠ b.entry := by
  intro heq
  apply b.entry_ne_trap
  rw [Stop.AtTrap, heq] at h
  have hlow : trapAddr b.entry &&& 1 = b.entry &&& 1 := and_of_merge _ _ _
  calc b.entry = (b.entry &&& ~~~1) ||| (b.entry &&& 1) := (and_not_or_and b.entry 1).symm
    _ = (trapAddr b.entry &&& ~~~1) ||| (trapAddr b.entry &&& 1) := by rw [h, hlow]
    _ = trapAddr b.entry := and_not_or_and (trapAddr b.entry) 1

section Injection

variable {o : Outcomes abi} {libPath tmpPath : String} {mode : TraceMode} {t : Tracee abi}

/-- After a complete overwrite the run goes on from the trap address in the slot. -/
theorem injectBeforeStart_eq (b : StartupBlock t) (henv : b.env.length < o.fuel)
    (hauxv : b.before.length < o.fuel) (hover : o.Overwrites) :
    injectBeforeStart o libPath tmpPath mode t = (do
      let (trapped, t) ← runToTrap o.rounds
        (writeProc o.hijack b.slot (wordToBytes (trapAddr b.entry)) t).2
      if trapped then injectAtTrap o libPath tmpPath mode b.entry b.slot t
      else return (.failure, t)) := by
  obtain ⟨hregs, n, hn, hcomplete⟩ := hover
  -- a complete write is not a write of no bytes, which is the only result the code refuses
  have hsome : (writeProc o.hijack b.slot (wordToBytes (trapAddr b.entry)) t).1 ≠ some 0 := by
    rw [Ne, writeProc_eq_some_zero_iff, hn]
    rintro ⟨⟩
    revert hcomplete
    cases abi <;> decide
  simp only [injectBeforeStart, hregs, locateEntry_eq b henv hauxv]
  rw [if_neg (by decide), if_neg b.entry_ne, if_neg hsome]

variable (libPath tmpPath mode) in
/-- Where the way to the trap ends decides how the injection goes on. -/
theorem injectBeforeStart_spec (b : StartupBlock t) (henv : b.env.length < o.fuel)
    (hauxv : b.before.length < o.fuel) (hover : o.Overwrites) :
    match trapStop o.rounds with
    | .error e => injectBeforeStart o libPath tmpPath mode t = .error e
    | .ok none => ∃ t', injectBeforeStart o libPath tmpPath mode t = .ok (.failure, t') ∧
        t'.mem = (writeProc o.hijack b.slot (wordToBytes (trapAddr b.entry)) t).2.mem
    | .ok (some s) => injectBeforeStart o libPath tmpPath mode t =
        injectAtTrap o libPath tmpPath mode b.entry b.slot
          ((writeProc o.hijack b.slot (wordToBytes (trapAddr b.entry)) t).2.stopAt s) := by
  rw [injectBeforeStart_eq b henv hauxv hover]
  have hspec := runToTrap_spec o.rounds
    (writeProc o.hijack b.slot (wordToBytes (trapAddr b.entry)) t).2
  cases htrap : trapStop o.rounds with
  | error e =>
      rw [htrap] at hspec
      rw [hspec]
      rfl
  | ok stop =>
      cases stop with
      | none =>
          rw [htrap] at hspec
          obtain ⟨t', hrun, hmem⟩ := hspec
          rw [hrun]
          exact ⟨t', rfl, hmem⟩
      | some s =>
          rw [htrap] at hspec
          rw [hspec]
          rfl

/-- The exits after the write-back. -/
theorem injectAndRestore_false_iff (entry : Word abi) :
    (∃ r, injectAndRestore o libPath tmpPath mode entry t = .ok r ∧ r.1.ok = false) ↔
      o.remote.Fails ∨ (o.remote.Succeeds ∧ o.setRegs = false) := by
  have hvalue := executeRemoteInjection_value o.remote libPath tmpPath mode t.regs t
  constructor
  · rintro ⟨r, hr, hok⟩
    obtain ⟨⟨injected, t'⟩, hrun, hrest⟩ := bind_eq_ok_iff.mp hr
    rw [hrun] at hvalue
    rcases o.remote.exit_of_value hvalue.symm with ⟨hinjected, hsucceeds⟩ | ⟨-, hfails⟩
    · -- a complete injection returns false only if the registers could not be set
      right
      refine ⟨hsucceeds, ?_⟩
      replace hinjected : injected.ok = true := hinjected
      by_contra hset
      simp only [hinjected, Bool.not_eq_false _ |>.mp hset, Bool.true_eq_false, if_false,
        if_true] at hrest
      cases hrest
      exact absurd (hok.symm.trans hinjected) Bool.false_ne_true
    · exact .inl hfails
  · rintro (hfails | ⟨hsucceeds, hset⟩)
    · rw [o.remote.value_of_fails hfails] at hvalue
      obtain ⟨⟨injected, t'⟩, hrun, hinjected⟩ := map_eq_ok_iff.mp hvalue
      refine ⟨(injected, t'), bind_eq_ok_iff.mpr ⟨_, hrun, ?_⟩, hinjected⟩
      exact if_pos hinjected
    · rw [o.remote.value_of_succeeds hsucceeds] at hvalue
      obtain ⟨⟨injected, t'⟩, hrun, hinjected⟩ := map_eq_ok_iff.mp hvalue
      refine ⟨(⟨false, injected.hooked⟩, t'), bind_eq_ok_iff.mpr ⟨_, hrun, ?_⟩, rfl⟩
      dsimp only at hinjected ⊢
      rw [hinjected, hset]
      rfl

/-- The exits after the fault. -/
theorem injectAtTrap_false_iff (s : Stop abi) (entry slot : Word abi) :
    (∃ r, injectAtTrap o libPath tmpPath mode entry slot (t.stopAt s) = .ok r ∧ r.1.ok = false) ↔
      o.trapRegs = false ∨ ¬ s.AtTrap entry ∨ o.writeBack = some 0 ∨ o.remote.Fails ∨
        (o.remote.Succeeds ∧ o.setRegs = false) := by
  simp only [injectAtTrap]
  split
  · rename_i hregs
    simp [hregs, Injected.failure]
  · rename_i hregs
    split
    · rename_i htrap
      have hnot : ¬ s.AtTrap entry := htrap
      simp [hnot, Injected.failure]
    · rename_i htrap
      have hat : s.AtTrap entry := not_not.mp htrap
      split
      · rename_i hwrite
        rw [writeProc_eq_some_zero_iff] at hwrite
        simp [hwrite, Injected.failure]
      · rename_i hwrite
        rw [writeProc_eq_some_zero_iff] at hwrite
        simp only [hregs, hat, hwrite, Bool.true_eq_false, not_true_eq_false, false_or]
        exact injectAndRestore_false_iff entry

/-- The injection returns false exactly at the failure exits. -/
theorem returns_false_iff (b : StartupBlock t) (henv : b.env.length < o.fuel)
    (hauxv : b.before.length < o.fuel) (hover : o.Overwrites) :
    (∃ r, injectBeforeStart o libPath tmpPath mode t = .ok r ∧ r.1.ok = false) ↔
      o.FailureExit b.entry := by
  have hspec := injectBeforeStart_spec libPath tmpPath mode b henv hauxv hover
  cases htrap : trapStop o.rounds with
  | error e =>
      rw [htrap] at hspec
      simp only [hspec]
      -- the tracer itself ends here, so there is no result at all
      constructor
      · rintro ⟨r, hr, -⟩
        cases hr
      · intro hexit
        cases hexit <;> simp_all
  | ok stop =>
      cases stop with
      | none =>
          rw [htrap] at hspec
          obtain ⟨t', hrun, -⟩ := hspec
          exact ⟨fun _ => .gaveUp htrap, fun _ => ⟨_, hrun, rfl⟩⟩
      | some s =>
          rw [htrap] at hspec
          simp only [hspec]
          refine Iff.trans (injectAtTrap_false_iff s b.entry b.slot) ?_
          constructor
          · rintro (h | h | h | h | ⟨h, hset⟩)
            · exact .unreadable s htrap h
            · exact .elsewhere s htrap h
            · exact .unwritten s htrap h
            · exact .remote s htrap h
            · exact .unrestored s htrap h hset
          · intro hexit
            cases hexit <;> simp_all

/-- With the trap address still in its slot the program cannot go on. -/
theorem not_resumable_of_trap_in_slot {t' : Tracee abi} (b : StartupBlock t) (hover : o.Overwrites)
    (hmem : t'.mem = (writeProc o.hijack b.slot (wordToBytes (trapAddr b.entry)) t).2.mem) :
    ¬ Resumable o b t' := by
  rintro ⟨hslot, -⟩
  have htrap : t'.word b.slot = trapAddr b.entry := by
    rw [← word_writeProc hover.2 b.slot (trapAddr b.entry) t]
    simp only [Tracee.word, hmem]
  exact b.entry_ne_trap (hslot.symm.trans htrap)

/-- At an exit after the write-back the instruction pointer is not at the entry address. -/
theorem injectAndRestore_ip_ne {entry : Word abi} {r : Injected × Tracee abi}
    (hstops : o.remote.StopsElsewhere entry) (hip : t.regs abi.ip ≠ entry)
    (h : injectAndRestore o libPath tmpPath mode entry t = .ok r) (hok : r.1.ok = false) :
    r.2.regs abi.ip ≠ entry := by
  obtain ⟨⟨injected, t'⟩, hrun, hrest⟩ := bind_eq_ok_iff.mp h
  have hkept : t'.regs abi.ip ≠ entry :=
    executeRemoteInjection_keeps (P := fun regs => regs abi.ip ≠ entry) hstops hrun hip
  dsimp only at hrest
  split at hrest
  · cases hrest
    exact hkept
  · rename_i hinjected
    split at hrest
    · -- the registers are restored only on the way out with success
      cases hrest
      exact absurd hok hinjected
    · cases hrest
      exact hkept

/-- No failure exit leaves the target resumable. -/
theorem not_resumable_of_returns_false (b : StartupBlock t) (henv : b.env.length < o.fuel)
    (hauxv : b.before.length < o.fuel) (hover : o.Overwrites)
    (hstops : o.remote.StopsElsewhere b.entry) {r : Injected × Tracee abi}
    (h : injectBeforeStart o libPath tmpPath mode t = .ok r) (hok : r.1.ok = false) :
    ¬ Resumable o b r.2 := by
  have hspec := injectBeforeStart_spec libPath tmpPath mode b henv hauxv hover
  cases htrap : trapStop o.rounds with
  | error e =>
      rw [htrap] at hspec
      rw [hspec] at h
      cases h
  | ok stop =>
      cases stop with
      | none =>
          -- the loop gave up before the write-back
          rw [htrap] at hspec
          obtain ⟨t', hrun, hmem⟩ := hspec
          rw [hrun] at h
          cases h
          exact not_resumable_of_trap_in_slot b hover hmem
      | some s =>
          rw [htrap] at hspec
          rw [hspec] at h
          simp only [injectAtTrap] at h
          split at h
          · -- the registers of the fault cannot be read
            cases h
            exact not_resumable_of_trap_in_slot b hover rfl
          · split at h
            · -- the fault is somewhere else
              cases h
              exact not_resumable_of_trap_in_slot b hover rfl
            · rename_i hat
              split at h
              · -- the write-back moved no byte
                rename_i hwrite
                cases h
                rw [writeProc_eq_some_zero_iff] at hwrite
                rw [hwrite, writeProc_some_zero]
                exact not_resumable_of_trap_in_slot b hover rfl
              · -- the slot may be right from here on; the registers are not
                have hattrap : s.AtTrap b.entry := not_not.mp hat
                have hip := injectAndRestore_ip_ne hstops
                  (by rw [writeProc_regs]; exact ip_ne_entry b hattrap) h hok
                have hsaved : o.savedAtTrap b.entry = some s.regs := by
                  simp only [Outcomes.savedAtTrap, htrap, if_pos hattrap]
                rintro ⟨-, hregs⟩
                rw [hsaved] at hregs
                apply hip
                rw [hregs, Regs.set_self]

theorem not_leavesResumable (b : StartupBlock t) (henv : b.env.length < o.fuel)
    (hauxv : b.before.length < o.fuel) (hover : o.Overwrites)
    (hstops : o.remote.StopsElsewhere b.entry) (hrestorable : o.restorable = true)
    (hexit : o.FailureExit b.entry) : ¬ LeavesResumable o libPath tmpPath mode b := by
  intro h
  obtain ⟨⟨injected, t'⟩, hrun, hok⟩ := (returns_false_iff b henv hauxv hover).mpr hexit
  exact not_resumable_of_returns_false b henv hauxv hover hstops hrun hok
    (h injected t' hrun hok hrestorable)

/-- A failed injection leaves the target resumable only where it does not fail: for every well-formed
startup block, overwritten as a whole, and all outcomes of the calls after that, the promise holds
exactly when the target is beyond repair or no failure exit is taken. -/
theorem leavesResumable_iff (b : StartupBlock t) (henv : b.env.length < o.fuel)
    (hauxv : b.before.length < o.fuel) (hover : o.Overwrites)
    (hstops : o.remote.StopsElsewhere b.entry) :
    LeavesResumable o libPath tmpPath mode b ↔
      o.restorable = false ∨ ¬ o.FailureExit b.entry := by
  constructor
  · intro h
    by_contra hnot
    rw [not_or, not_not, Bool.not_eq_false] at hnot
    exact not_leavesResumable b henv hauxv hover hstops hnot.1 hnot.2 h
  · rintro (hlost | hexit) injected t' hrun hok hrestorable
    · rw [hlost] at hrestorable
      cases hrestorable
    · exact absurd ((returns_false_iff b henv hauxv hover).mp ⟨_, hrun, hok⟩) hexit

end Injection

/-- The sibling for running processes restores the registers at every exit where they can be set. -/
theorem injectAfterStart_restores (o : RemoteOutcomes abi) (libPath tmpPath : String)
    (mode : TraceMode) (t : Tracee abi) {r : Injected × Tracee abi}
    (h : injectAfterStart true true o libPath tmpPath mode t = .ok r) : r.2.regs = t.regs := by
  simp only [injectAfterStart, Bool.true_eq_false, if_false] at h
  obtain ⟨⟨injected, t'⟩, -, hrest⟩ := bind_eq_ok_iff.mp h
  cases hrest
  rfl

/-! ## A zygote at its start -/

/-- The registers of a stop, by instruction pointer and return value. -/
def stopRegs (pc value : Word .aarch64) : Regs .aarch64 :=
  (Regs.set (Regs.set (fun _ => 0) Abi.aarch64.sp 0x7ffffff000) Abi.aarch64.ip pc).set
    Abi.aarch64.ret value

/-- A stopped zygote: one argument, an empty environment, and `AT_ENTRY` as the whole auxiliary vector. -/
def zygote : Tracee .aarch64 where
  regs := stopRegs 0x7000000000 0
  mem := Memory.write (fun _ => 0) 0x7ffffff000
    (List.flatMap wordToBytes ([1, 0x7ffffff800, 0, 0, 9, 0x5500001000, 0] : List (Word .aarch64)))
  stopRegs := stopRegs 0x7000000000 0

def zygoteBlock : StartupBlock zygote where
  argv := [0x7ffffff800]
  env := []
  before := []
  entry := 0x5500001000
  after := []
  argc_eq := by decide
  argc_lt := Nat.one_lt_two_pow (by decide)
  argv_ne := by
    intro v hv
    rw [List.mem_singleton] at hv
    subst hv
    decide
  env_ne := List.forall_mem_nil _
  before_ne := List.forall_mem_nil _
  after_ne := List.forall_mem_nil _
  entry_ne := by decide
  entry_ne_trap := by decide
  words := by
    refine ⟨?_, ?_, ?_, ?_, ?_, ?_, trivial⟩
    all_goals decide

def zygoteView : View .aarch64 where
  localMap := [⟨0x6000000000, 0x6000001000, ⟨true, false, false⟩, true, 0, 1, 10,
    "/apex/com.android.runtime/lib64/bionic/libdl.so"⟩]
  dlsym := fun _ => some fun func => if func = "dlopen" then 0x6000000100 else 0x6000000200
  map := [⟨0x7000000000, 0x7000001000, ⟨true, false, false⟩, true, 0, 1, 10,
      "/apex/com.android.runtime/lib64/bionic/libdl.so"⟩,
    ⟨0x7100000000, 0x7100040000, ⟨true, false, false⟩, true, 0, 1, 11,
      "/apex/com.android.runtime/lib64/bionic/libc.so"⟩]
  mapAfter := [⟨0x7200000000, 0x7200080000, ⟨true, false, true⟩, true, 0, 2, 12,
    "/data/adb/neozygisk/lib64/libzygisk.so"⟩]

/-- A call that comes back with a value. -/
def callReturning (value : Word .aarch64) : CallOutcome .aarch64 where
  pushArgs := none
  pushReturn := none
  setRegs := true
  waits := [.stopped ⟨sigSegv, 0, stopRegs 0x7100000000 value⟩ true true]
  getRegs := true

/-- The injection of a zygote in which every system call succeeds and `dlopen` returns `handle`. -/
def spawnInjection (handle : Word .aarch64) : Outcomes .aarch64 where
  fuel := 1
  getRegs := true
  hijack := some 8
  rounds := [⟨true, [.stopped ⟨sigSegv, 0, stopRegs (trapAddr 0x5500001000) 0⟩ true true]⟩]
  trapRegs := true
  writeBack := some 8
  remote :=
    { view := zygoteView
      pushPath := some 64
      dlopen := callReturning handle
      dlerror := callReturning 0
      strlen := callReturning 0
      pushSymbol := some 64
      dlsym := callReturning 0x7200001000
      pushTmpPath := some 64
      entry := callReturning 1 }
  setRegs := true
  restorable := true

theorem callReturning_result (value : Word .aarch64) (nargs : Nat) (h : nargs ≤ 8) :
    (callReturning value).result nargs zygoteView.returnAddr = .ok (some value) := by
  have hpushes : (callReturning value).Pushes nargs := ⟨.inl h, .inl rfl⟩
  rw [CallOutcome.result, if_pos ⟨hpushes, rfl⟩]
  rfl

theorem spawnInjection_stopsElsewhere (handle : Word .aarch64) :
    (spawnInjection handle).remote.StopsElsewhere zygoteBlock.entry := by
  have hreturning : ∀ value s, awaited (callReturning value).waits = .ok s →
      s.regs Abi.aarch64.ip ≠ zygoteBlock.entry := by
    intro value s h
    cases h
    show (0x7100000000 : Word .aarch64) ≠ 0x5500001000
    decide
  intro call hcall
  simp only [List.mem_cons, List.not_mem_nil, or_false] at hcall
  rcases hcall with rfl | rfl | rfl | rfl | rfl
  all_goals exact hreturning _

theorem spawnInjection_overwrites (handle : Word .aarch64) :
    (spawnInjection handle).Overwrites := ⟨rfl, 8, rfl, le_rfl⟩

/-- With a handle from `dlopen` nothing fails. -/
theorem spawnInjection_no_failureExit :
    ¬ (spawnInjection 0x7300000000).FailureExit zygoteBlock.entry := by
  have hsucceeds : (spawnInjection 0x7300000000).remote.Succeeds :=
    ⟨⟨⟨by decide, some 0x7300000000, callReturning_result _ 2 (by decide), by decide⟩,
      by decide, some 0x7200001000, callReturning_result _ 2 (by decide), by decide⟩,
      1, callReturning_result _ 4 (by decide)⟩
  intro hexit
  cases hexit with
  | gaveUp h => cases h
  | unreadable s h hregs => cases hregs
  | elsewhere s h hip =>
      cases h
      exact hip (by decide)
  | unwritten s h hwrite => cases hwrite
  | remote s h hfails =>
      have hvalue := (spawnInjection 0x7300000000).remote.value_of_fails hfails
      rw [RemoteOutcomes.value_of_succeeds _ hsucceeds] at hvalue
      cases hvalue
  | unrestored s h hremote hset => cases hset

theorem spawnInjection_leavesResumable :
    LeavesResumable (spawnInjection 0x7300000000) "/data/adb/neozygisk/lib64/libzygisk.so"
      "/data/adb/neozygisk" .spawn zygoteBlock :=
  (leavesResumable_iff zygoteBlock (by decide) (by decide) (spawnInjection_overwrites _)
    (spawnInjection_stopsElsewhere _)).mpr (.inr spawnInjection_no_failureExit)

/-- The same injection, but the zygote stops for `SIGBUS` before it reaches the trap. -/
def interruptedInjection : Outcomes .aarch64 :=
  { spawnInjection 0x7300000000 with
    rounds := [⟨true, [.stopped ⟨7, 0, stopRegs 0x7000000040 0⟩ true true]⟩] }

/-- The promise is broken when the zygote stops for another signal before the trap, and when `dlopen`
returns null. -/
theorem failed_injections_not_resumable :
    ¬ LeavesResumable interruptedInjection "/data/adb/neozygisk/lib64/libzygisk.so"
        "/data/adb/neozygisk" .spawn zygoteBlock ∧
      ¬ LeavesResumable (spawnInjection 0) "/data/adb/neozygisk/lib64/libzygisk.so"
        "/data/adb/neozygisk" .spawn zygoteBlock := by
  constructor
  · apply not_leavesResumable (o := interruptedInjection) zygoteBlock (by decide) (by decide)
      (spawnInjection_overwrites 0x7300000000) (spawnInjection_stopsElsewhere 0x7300000000) rfl
    exact .gaveUp rfl
  · apply not_leavesResumable (o := spawnInjection 0) zygoteBlock (by decide) (by decide)
      (spawnInjection_overwrites 0) (spawnInjection_stopsElsewhere 0) rfl
    -- `dlerror` returns null as well, so the error path ends there
    apply Outcomes.FailureExit.remote ⟨sigSegv, 0, stopRegs (trapAddr 0x5500001000) 0⟩ rfl
    exact .dlopen (by decide) (some 0) (callReturning_result 0 2 (by decide)) rfl
      (.inr ⟨some 0, callReturning_result 0 0 (by decide), .inl rfl⟩)

end NeoZygisk.Ptracer
