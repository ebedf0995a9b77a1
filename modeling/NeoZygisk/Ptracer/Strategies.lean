import NeoZygisk.Ptracer.Resumable

/-!
# The two ways to attach

`trace_target` seizes the target and injects the library. If that comes to nothing and `errno` is `EIO`, it
attaches in the classic way and injects once more. `errno` is meant to be that of `PTRACE_SEIZE`, but all exits
of `trace_with_seize` return the same `false`, and `errno` is then that of the last call that failed, or still
what it was before. `atMostOnce_iff` says for which outcomes of the calls the target is injected at most once.

A call that succeeds leaves `errno` alone. An injection that does not come back ends the tracer.
-/

set_option autoImplicit false

namespace NeoZygisk.Ptracer.Strategies

abbrev Errno := Nat

def EIO : Errno := 5

/-- What a system call leaves in `errno` if it fails. -/
abbrev Call := Option Errno

/-- `waitpid`, with the status it stores. -/
structure Status where
  stopped : Bool
  sig : Nat
  event : Nat
  deriving DecidableEq, Repr

abbrev Wait := Except Errno Status

/-- `PTRACE_EVENT_STOP`. -/
def eventStop : Nat := 128

def sigCont : Nat := 18

/-- The macro `STOPPED_WITH`. -/
def Status.stoppedWith (s : Status) (sig event : Nat) : Bool :=
  s.stopped && s.sig == sig && s.event == event

/-! ## Injections -/

/-- What `perform_injection` came to: its value, what it stored in `*hooked`, how far it got in the target,
and the last of its calls that failed. -/
structure Injection where
  ok : Bool
  hooked : Option Bool
  /-- `dlopen` was called in the target. -/
  called : Bool
  /-- It returned a handle. -/
  mapped : Bool
  /-- The library's `entry` was called. -/
  entered : Bool
  errno : Call
  called_of_mapped : mapped = true → called = true
  mapped_of_entered : entered = true → mapped = true
  entered_of_ok : ok = true → entered = true

/-- An injection that fails before it calls anything in the target. -/
def Injection.notCalled (errno : Call) : Injection where
  ok := false
  hooked := none
  called := false
  mapped := false
  entered := false
  errno := errno
  called_of_mapped := id
  mapped_of_entered := id
  entered_of_ok := id

open Classical in
/-- The injection that a run of the remote calls comes to, with the value its caller makes of it. -/
noncomputable def Injection.ofRemote {abi : Abi} (o : RemoteOutcomes abi) (ok : Bool) (hooked : Option Bool)
    (errno : Call) (hok : ok = true → o.Resolves) : Injection where
  ok := ok
  hooked := hooked
  called := decide (o.view.findFuncAddr "libdl.so" "dlopen" ≠ 0)
  mapped := decide o.Opens
  entered := decide o.Resolves
  errno := errno
  called_of_mapped h := decide_eq_true (of_decide_eq_true h).1
  mapped_of_entered h := decide_eq_true (of_decide_eq_true h).1
  entered_of_ok h := decide_eq_true (hok h)

section Remote

variable {abi : Abi} {libPath tmpPath : String} {mode : TraceMode} {t t' : Tracee abi} {r : Injected}

theorem resolves_of_ok {o : RemoteOutcomes abi} {regs : Regs abi}
    (h : executeRemoteInjection o libPath tmpPath mode regs t = .ok (r, t')) (hok : r.ok = true) :
    o.Resolves := by
  have hvalue := executeRemoteInjection_value o libPath tmpPath mode regs t
  rw [h] at hvalue
  rcases o.exit_of_value hvalue.symm with ⟨-, hsucceeds⟩ | ⟨hfalse, -⟩
  · exact hsucceeds.1
  · exact absurd (hok.symm.trans hfalse) (by decide)

/-- What an injection that came back is to the strategies: it ended before it called anything, or it is as
far as the remote calls came. -/
def Represents (o : RemoteOutcomes abi) (libPath tmpPath : String) (mode : TraceMode) (r : Injected)
    (errno : Call) : Prop :=
  ∃ i : Injection, i.ok = r.ok ∧ i.hooked = r.hooked ∧ i.errno = errno ∧
    ((i = .notCalled errno ∧ r = .failure) ∨
      ((∃ regs t s, executeRemoteInjection o libPath tmpPath mode regs t = .ok s) ∧
        (i.mapped = true ↔ o.Opens) ∧ (i.entered = true ↔ o.Resolves)))

theorem represents_failure (o : RemoteOutcomes abi) (errno : Call) :
    Represents o libPath tmpPath mode .failure errno :=
  ⟨.notCalled errno, rfl, rfl, rfl, .inl ⟨rfl, rfl⟩⟩

theorem represents_remote {o : RemoteOutcomes abi} {regs : Regs abi} {s : Injected × Tracee abi}
    (h : executeRemoteInjection o libPath tmpPath mode regs t = .ok s) (hok : r.ok = true → s.1.ok = true)
    (errno : Call) : Represents o libPath tmpPath mode r errno := by
  refine ⟨.ofRemote o r.ok r.hooked errno fun hr => resolves_of_ok h (hok hr), rfl, rfl, rfl, .inr ?_⟩
  refine ⟨⟨regs, t, s, h⟩, ?_, ?_⟩
  · simp only [Injection.ofRemote, decide_eq_true_eq]
  · simp only [Injection.ofRemote, decide_eq_true_eq]

/-- A late injection that comes back is an `Injection`. -/
theorem represents_injectAfterStart {getRegs setRegs : Bool} {o : RemoteOutcomes abi}
    (h : injectAfterStart getRegs setRegs o libPath tmpPath mode t = .ok (r, t')) (errno : Call) :
    Represents o libPath tmpPath mode r errno := by
  cases getRegs with
  | false =>
      cases h
      exact represents_failure o errno
  | true =>
      obtain ⟨s, hremote, hrest⟩ := bind_eq_ok_iff.mp h
      refine represents_remote hremote (fun hok => ?_) errno
      cases setRegs with
      | false =>
          cases hrest
          cases hok
      | true =>
          cases hrest
          exact hok

theorem represents_injectAndRestore {o : Outcomes abi} {entry : Word abi}
    (h : injectAndRestore o libPath tmpPath mode entry t = .ok (r, t')) (errno : Call) :
    Represents o.remote libPath tmpPath mode r errno := by
  obtain ⟨⟨injected, u⟩, hremote, hrest⟩ := bind_eq_ok_iff.mp h
  refine represents_remote hremote (fun hok => ?_) errno
  dsimp only at hrest
  split_ifs at hrest
  · cases hrest
    exact hok
  · cases hrest
    exact hok
  · cases hrest
    cases hok

/-- So is an early one. -/
theorem represents_injectBeforeStart {o : Outcomes abi}
    (h : injectBeforeStart o libPath tmpPath mode t = .ok (r, t')) (errno : Call) :
    Represents o.remote libPath tmpPath mode r errno := by
  simp only [injectBeforeStart] at h
  split_ifs at h
  · cases h
    exact represents_failure o.remote errno
  · split at h
    · cases h
    · rename_i entry slot _
      split_ifs at h
      · cases h
        exact represents_failure o.remote errno
      · cases h
        exact represents_failure o.remote errno
      · obtain ⟨⟨trapped, u⟩, -, hrest⟩ := bind_eq_ok_iff.mp h
        cases trapped with
        | false =>
            cases hrest
            exact represents_failure o.remote errno
        | true =>
            simp only [injectAtTrap, if_true] at hrest
            split_ifs at hrest
            · cases hrest
              exact represents_failure o.remote errno
            · cases hrest
              exact represents_failure o.remote errno
            · cases hrest
              exact represents_failure o.remote errno
            · exact represents_injectAndRestore hrest errno

end Remote

/-- `process_started`. -/
def processStarted (mode : TraceMode) : Bool := mode == .standalone || mode == .systemServer

/-! ## The strategies -/

/-- What a strategy returns and leaves in `errno`, and the injection if it got that far. -/
structure Traced where
  ok : Bool
  errno : Errno
  injection : Option Injection

/-- The calls of `detach_with_gki_workaround`. -/
structure GkiCalls where
  syscall : Call
  wait : Wait
  detach : Call

def detachWithGkiWorkaround (c : GkiCalls) (errno : Errno) (i : Injection) : Traced :=
  match c.syscall with
  | some e => ⟨false, c.detach.getD e, i⟩
  | none =>
      match c.wait with
      | .error e => ⟨false, c.detach.getD e, i⟩
      | .ok _ =>
          match c.detach with
          | some e => ⟨false, e, i⟩
          | none => ⟨true, errno, i⟩

/-- The calls of `trace_with_seize` in their order. `detach` is the one of the exit that is taken, and
`setOptions` is the one of `arm_seccomp_events`, which is not made on every kernel. -/
structure SeizeCalls where
  seize : Call
  interrupt : Call
  wait : Wait
  setOptions : Call
  injection : Injection
  kill : Call
  cont : Call
  waitTrap : Wait
  contAgain : Call
  waitCont : Wait
  gki : GkiCalls
  detach : Call

namespace SeizeCalls

/-- `errno` when the injection is through. -/
def errnoAfter (c : SeizeCalls) (errno : Errno) : Errno := c.injection.errno.getD (c.setOptions.getD errno)

/-- The initial stop that is expected. -/
def validStop (mode : TraceMode) (s : Status) : Bool :=
  if processStarted mode then s.stoppedWith sigTrap eventStop else s.stoppedWith sigStop eventStop

/-- `BAIL_AND_DETACH`. -/
def bail (c : SeizeCalls) (errno : Errno) (i : Option Injection) : Traced := ⟨false, c.detach.getD errno, i⟩

/-- The end of the signal sequence, with the process stopped by the second `PTRACE_CONT`. -/
def expectCont (c : SeizeCalls) (errno : Errno) : Traced :=
  match c.contAgain with
  | some e => c.bail e c.injection
  | none =>
      match c.waitCont with
      | .error e => ⟨false, e, c.injection⟩
      | .ok s =>
          if s.stoppedWith sigCont 0 then detachWithGkiWorkaround c.gki errno c.injection
          else c.bail errno c.injection

/-- The signal sequence that wakes a process that was parked in `SIGSTOP`. -/
def continueStopped (c : SeizeCalls) (errno : Errno) : Traced :=
  match c.kill with
  | some e => c.bail e c.injection
  | none =>
      match c.cont with
      | some e => c.bail e c.injection
      | none =>
          match c.waitTrap with
          | .error e => ⟨false, e, c.injection⟩
          | .ok s =>
              if s.stoppedWith sigTrap eventStop then c.expectCont errno else c.bail errno c.injection

/-- From the initial stop on. The detach from a process that was running may fail. -/
def injectStopped (c : SeizeCalls) (mode : TraceMode) (errno : Errno) : Traced :=
  if c.injection.ok then
    if processStarted mode then ⟨true, c.detach.getD errno, c.injection⟩ else c.continueStopped errno
  else c.bail errno c.injection

end SeizeCalls

/-- `trace_with_seize`. -/
def traceWithSeize (mode : TraceMode) (c : SeizeCalls) (errno : Errno) : Traced :=
  match c.seize with
  | some e => ⟨false, e, none⟩
  | none =>
      match if processStarted mode then c.interrupt else none with
      | some e => c.bail e none
      | none =>
          match c.wait with
          | .error e => ⟨false, e, none⟩
          | .ok s =>
              if SeizeCalls.validStop mode s then c.injectStopped mode (c.errnoAfter errno)
              else c.bail errno none

/-- The calls of `trace_with_attach`; `setOptions` is the last of the two that failed. -/
structure AttachCalls where
  attach : Call
  wait : Wait
  setOptions : Call
  injection : Injection
  gki : GkiCalls
  detach : Call

/-- `trace_with_attach`. -/
def traceWithAttach (c : AttachCalls) (errno : Errno) : Traced :=
  match c.attach with
  | some e => ⟨false, e, none⟩
  | none =>
      match c.wait with
      | .error e => ⟨false, c.detach.getD e, none⟩
      | .ok s =>
          if s.stopped && s.sig == sigStop then
            let errno := c.injection.errno.getD (c.setOptions.getD errno)
            if c.injection.ok then detachWithGkiWorkaround c.gki errno c.injection
            else ⟨false, c.detach.getD errno, c.injection⟩
          else ⟨false, c.detach.getD errno, none⟩

/-- What `trace_target` does: its value, `*hooked`, and the run of each strategy it tried. -/
structure Target where
  ok : Bool
  hooked : Bool
  seized : Traced
  attached : Option Traced

/-- What is in `*hooked` after a strategy. -/
def Traced.hooked (r : Traced) (before : Bool) : Bool := (r.injection.bind Injection.hooked).getD before

/-- `trace_target`. -/
def traceTarget (mode : TraceMode) (s : SeizeCalls) (a : AttachCalls) (errno : Errno) : Target :=
  let seized := traceWithSeize mode s errno
  if seized.ok then ⟨true, seized.hooked false, seized, none⟩
  else if seized.errno = EIO then
    let attached := traceWithAttach a seized.errno
    ⟨attached.ok, attached.hooked (seized.hooked false), seized, attached⟩
  else ⟨false, seized.hooked false, seized, none⟩

/-! ## Giving up with `EIO` -/

/-- The strategy failed, and the caller sees `EIO`. -/
def Traced.Eio (r : Traced) : Prop := r.ok = false ∧ r.errno = EIO

/-- The exits of `detach_with_gki_workaround` that leave `EIO`. -/
inductive GkiCalls.GivesUp (c : GkiCalls) : Prop where
  | syscall (e : Errno) (hcall : c.syscall = some e) (heio : c.detach.getD e = EIO)
  | wait (hcont : c.syscall = none) (e : Errno) (hcall : c.wait = .error e) (heio : c.detach.getD e = EIO)
  | detach (hcont : c.syscall = none) (s : Status) (hwait : c.wait = .ok s) (hcall : c.detach = some EIO)

namespace SeizeCalls

/-- The exits after the first of the two stops. Where the process is not in the state that is expected, no
call has failed, and `errno` is what it was. -/
inductive GivesUpWaking (c : SeizeCalls) (errno : Errno) : Prop where
  | contAgain (e : Errno) (hcall : c.contAgain = some e) (heio : c.detach.getD e = EIO)
  | waitCont (hcont : c.contAgain = none) (hcall : c.waitCont = .error EIO)
  | state (hcont : c.contAgain = none) (s : Status) (hwait : c.waitCont = .ok s)
      (hstate : s.stoppedWith sigCont 0 = false) (heio : c.detach.getD errno = EIO)
  | gki (hcont : c.contAgain = none) (s : Status) (hwait : c.waitCont = .ok s)
      (hstate : s.stoppedWith sigCont 0 = true) (hgki : c.gki.GivesUp)

/-- The exits after the injection into a process that was parked. -/
inductive GivesUpContinuing (c : SeizeCalls) (errno : Errno) : Prop where
  | kill (e : Errno) (hcall : c.kill = some e) (heio : c.detach.getD e = EIO)
  | cont (hkill : c.kill = none) (e : Errno) (hcall : c.cont = some e) (heio : c.detach.getD e = EIO)
  | waitTrap (hkill : c.kill = none) (hcont : c.cont = none) (hcall : c.waitTrap = .error EIO)
  | state (hkill : c.kill = none) (hcont : c.cont = none) (s : Status) (hwait : c.waitTrap = .ok s)
      (hstate : s.stoppedWith sigTrap eventStop = false) (heio : c.detach.getD errno = EIO)
  | waking (hkill : c.kill = none) (hcont : c.cont = none) (s : Status) (hwait : c.waitTrap = .ok s)
      (hstate : s.stoppedWith sigTrap eventStop = true) (hwaking : c.GivesUpWaking errno)

/-- The exits from the initial stop on. -/
inductive GivesUpInjecting (c : SeizeCalls) (mode : TraceMode) (errno : Errno) : Prop where
  | injection (hok : c.injection.ok = false) (heio : c.detach.getD errno = EIO)
  | continuing (hok : c.injection.ok = true) (hparked : processStarted mode = false)
      (hcont : c.GivesUpContinuing errno)

/-- The target was seized, and the attempt is given up at an exit that leaves `EIO`. -/
inductive GivesUp (c : SeizeCalls) (mode : TraceMode) (errno : Errno) : Prop where
  | interrupt (hseize : c.seize = none) (hstarted : processStarted mode = true) (e : Errno)
      (hcall : c.interrupt = some e) (heio : c.detach.getD e = EIO)
  | wait (hseize : c.seize = none) (hinterrupt : processStarted mode = true → c.interrupt = none)
      (hcall : c.wait = .error EIO)
  | state (hseize : c.seize = none) (hinterrupt : processStarted mode = true → c.interrupt = none)
      (s : Status) (hwait : c.wait = .ok s) (hstate : validStop mode s = false)
      (heio : c.detach.getD errno = EIO)
  | injecting (hseize : c.seize = none) (hinterrupt : processStarted mode = true → c.interrupt = none)
      (s : Status) (hwait : c.wait = .ok s) (hstate : validStop mode s = true)
      (hinjecting : c.GivesUpInjecting mode (c.errnoAfter errno))

end SeizeCalls

section GivesUp

variable {c : SeizeCalls} {mode : TraceMode} {errno : Errno}

theorem eio_detachWithGkiWorkaround {g : GkiCalls} {i : Injection} :
    (detachWithGkiWorkaround g errno i).Eio ↔ g.GivesUp := by
  constructor
  · rintro ⟨hok, heio⟩
    cases hsyscall : g.syscall with
    | some e =>
        simp only [detachWithGkiWorkaround, hsyscall] at heio
        exact .syscall e hsyscall heio
    | none =>
        cases hwait : g.wait with
        | error e =>
            simp only [detachWithGkiWorkaround, hsyscall, hwait] at heio
            exact .wait hsyscall e hwait heio
        | ok s =>
            cases hdetach : g.detach with
            | some e =>
                simp only [detachWithGkiWorkaround, hsyscall, hwait, hdetach] at heio
                exact .detach hsyscall s hwait (heio ▸ hdetach)
            | none => simp [detachWithGkiWorkaround, hsyscall, hwait, hdetach] at hok
  · intro h
    cases h with
    | syscall e hcall heio => simp [Traced.Eio, detachWithGkiWorkaround, hcall, heio]
    | wait hcont e hcall heio => simp [Traced.Eio, detachWithGkiWorkaround, hcont, hcall, heio]
    | detach hcont s hwait hcall => simp [Traced.Eio, detachWithGkiWorkaround, hcont, hwait, hcall]

theorem eio_expectCont : (c.expectCont errno).Eio ↔ c.GivesUpWaking errno := by
  constructor
  · rintro ⟨hok, heio⟩
    cases hcont : c.contAgain with
    | some e =>
        simp only [SeizeCalls.expectCont, hcont] at heio
        exact .contAgain e hcont heio
    | none =>
        cases hwait : c.waitCont with
        | error e =>
            simp only [SeizeCalls.expectCont, hcont, hwait] at heio
            exact .waitCont hcont (heio ▸ hwait)
        | ok s =>
            simp only [SeizeCalls.expectCont, hcont, hwait] at hok heio
            cases hstate : s.stoppedWith sigCont 0 with
            | true =>
                rw [if_pos hstate] at hok heio
                exact .gki hcont s hwait hstate (eio_detachWithGkiWorkaround.mp ⟨hok, heio⟩)
            | false =>
                rw [if_neg (by rw [hstate]; exact Bool.false_ne_true)] at heio
                exact .state hcont s hwait hstate heio
  · intro h
    cases h with
    | contAgain e hcall heio => simp [Traced.Eio, SeizeCalls.expectCont, SeizeCalls.bail, hcall, heio]
    | waitCont hcont hcall => simp [Traced.Eio, SeizeCalls.expectCont, hcont, hcall]
    | state hcont s hwait hstate heio =>
        simp [Traced.Eio, SeizeCalls.expectCont, SeizeCalls.bail, hcont, hwait, hstate, heio]
    | gki hcont s hwait hstate hgki =>
        simp only [SeizeCalls.expectCont, hcont, hwait, hstate, if_true]
        exact eio_detachWithGkiWorkaround.mpr hgki

theorem eio_continueStopped : (c.continueStopped errno).Eio ↔ c.GivesUpContinuing errno := by
  constructor
  · rintro ⟨hok, heio⟩
    cases hkill : c.kill with
    | some e =>
        simp only [SeizeCalls.continueStopped, hkill] at heio
        exact .kill e hkill heio
    | none =>
        cases hcont : c.cont with
        | some e =>
            simp only [SeizeCalls.continueStopped, hkill, hcont] at heio
            exact .cont hkill e hcont heio
        | none =>
            cases hwait : c.waitTrap with
            | error e =>
                simp only [SeizeCalls.continueStopped, hkill, hcont, hwait] at heio
                exact .waitTrap hkill hcont (heio ▸ hwait)
            | ok s =>
                simp only [SeizeCalls.continueStopped, hkill, hcont, hwait] at hok heio
                cases hstate : s.stoppedWith sigTrap eventStop with
                | true =>
                    rw [if_pos hstate] at hok heio
                    exact .waking hkill hcont s hwait hstate (eio_expectCont.mp ⟨hok, heio⟩)
                | false =>
                    rw [if_neg (by rw [hstate]; exact Bool.false_ne_true)] at heio
                    exact .state hkill hcont s hwait hstate heio
  · intro h
    cases h with
    | kill e hcall heio => simp [Traced.Eio, SeizeCalls.continueStopped, SeizeCalls.bail, hcall, heio]
    | cont hkill e hcall heio =>
        simp [Traced.Eio, SeizeCalls.continueStopped, SeizeCalls.bail, hkill, hcall, heio]
    | waitTrap hkill hcont hcall => simp [Traced.Eio, SeizeCalls.continueStopped, hkill, hcont, hcall]
    | state hkill hcont s hwait hstate heio =>
        simp [Traced.Eio, SeizeCalls.continueStopped, SeizeCalls.bail, hkill, hcont, hwait, hstate, heio]
    | waking hkill hcont s hwait hstate hwaking =>
        simp only [SeizeCalls.continueStopped, hkill, hcont, hwait, hstate, if_true]
        exact eio_expectCont.mpr hwaking

theorem eio_injectStopped : (c.injectStopped mode errno).Eio ↔ c.GivesUpInjecting mode errno := by
  constructor
  · rintro ⟨hok, heio⟩
    cases hinjected : c.injection.ok with
    | false =>
        simp only [SeizeCalls.injectStopped, hinjected, Bool.false_eq_true, if_false] at heio
        exact .injection hinjected heio
    | true =>
        simp only [SeizeCalls.injectStopped, hinjected, if_true] at hok heio
        cases hstarted : processStarted mode with
        | true => simp [hstarted] at hok
        | false =>
            rw [if_neg (by rw [hstarted]; exact Bool.false_ne_true)] at hok heio
            exact .continuing hinjected hstarted (eio_continueStopped.mp ⟨hok, heio⟩)
  · intro h
    cases h with
    | injection hok heio => simp [Traced.Eio, SeizeCalls.injectStopped, SeizeCalls.bail, hok, heio]
    | continuing hok hparked hcont =>
        simp only [SeizeCalls.injectStopped, hok, hparked, if_true, Bool.false_eq_true, if_false]
        exact eio_continueStopped.mpr hcont

theorem seize_of_givesUp (h : c.GivesUp mode errno) : c.seize = none := by
  cases h with
  | interrupt hseize | wait hseize | state hseize | injecting hseize => exact hseize

/-- Once the target is seized, `EIO` is seen exactly at these exits. -/
theorem eio_traceWithSeize (hseize : c.seize = none) :
    (traceWithSeize mode c errno).Eio ↔ c.GivesUp mode errno := by
  constructor
  · rintro ⟨hok, heio⟩
    simp only [traceWithSeize, hseize] at hok heio
    cases hcall : if processStarted mode then c.interrupt else none with
    | some e =>
        -- the bail-out detaches, and a detach that fails leaves its own errno
        simp only [hcall] at heio
        simp only [Option.ite_none_right_eq_some] at hcall
        exact .interrupt hseize hcall.1 e hcall.2 heio
    | none =>
        simp only [hcall] at hok heio
        have hinterrupt : processStarted mode = true → c.interrupt = none := by
          intro hstarted
          rwa [if_pos hstarted] at hcall
        cases hwait : c.wait with
        | error e =>
            simp only [hwait] at heio
            exact .wait hseize hinterrupt (heio ▸ hwait)
        | ok s =>
            simp only [hwait] at hok heio
            cases hstate : SeizeCalls.validStop mode s with
            | true =>
                rw [if_pos hstate] at hok heio
                exact .injecting hseize hinterrupt s hwait hstate (eio_injectStopped.mp ⟨hok, heio⟩)
            | false =>
                rw [if_neg (by rw [hstate]; exact Bool.false_ne_true)] at heio
                exact .state hseize hinterrupt s hwait hstate heio
  · intro h
    have hnone : (processStarted mode = true → c.interrupt = none) →
        (if processStarted mode then c.interrupt else none) = none := by
      intro hinterrupt
      split_ifs with hstarted
      · exact hinterrupt hstarted
      · rfl
    cases h with
    | interrupt _ hstarted e hcall heio =>
        simp [Traced.Eio, traceWithSeize, SeizeCalls.bail, hseize, hstarted, hcall, heio]
    | wait _ hinterrupt hcall => simp [Traced.Eio, traceWithSeize, hseize, hnone hinterrupt, hcall]
    | state _ hinterrupt s hwait hstate heio =>
        simp [Traced.Eio, traceWithSeize, SeizeCalls.bail, hseize, hnone hinterrupt, hwait, hstate, heio]
    | injecting _ hinterrupt s hwait hstate hinjecting =>
        simp only [traceWithSeize, hseize, hnone hinterrupt, hwait, hstate, if_true]
        exact eio_injectStopped.mpr hinjecting

end GivesUp

/-! ## One injection -/

section Once

variable {mode : TraceMode} {s : SeizeCalls} {a : AttachCalls} {errno : Errno}

/-- The fallback is taken exactly if the first strategy fails with `EIO`. -/
theorem attached_ne_none_iff :
    (traceTarget mode s a errno).attached ≠ none ↔ (traceWithSeize mode s errno).Eio := by
  simp only [traceTarget, Traced.Eio]
  cases hok : (traceWithSeize mode s errno).ok with
  | true => simp
  | false =>
      by_cases heio : (traceWithSeize mode s errno).errno = EIO
      · simp [heio]
      · simp [heio]

/-- The fallback is for a target that could not be seized because of `EIO`, and where the first strategy has
mapped the library, `dlopen` and `entry` are not called again. -/
structure AtMostOnce (r : Target) (s : SeizeCalls) : Prop where
  fallback : r.attached ≠ none → s.seize = some EIO
  once : ∀ i t j, r.seized.injection = some i → i.mapped = true → r.attached = some t →
    t.injection = some j → j.called = false ∧ j.entered = false

/-- For all outcomes of the calls: the target is injected at most once exactly if the attempt on a seized
target is not given up where the last call that failed, or what was there before if none did, left `EIO`. -/
theorem atMostOnce_iff (mode : TraceMode) (s : SeizeCalls) (a : AttachCalls) (errno : Errno) :
    AtMostOnce (traceTarget mode s a errno) s ↔ ¬ s.GivesUp mode errno := by
  constructor
  · intro honce hgives
    have hseize := seize_of_givesUp hgives
    have hattached : (traceTarget mode s a errno).attached ≠ none :=
      attached_ne_none_iff.mpr ((eio_traceWithSeize hseize).mpr hgives)
    rw [honce.fallback hattached] at hseize
    cases hseize
  · intro hgives
    have hfallback : (traceTarget mode s a errno).attached ≠ none → s.seize = some EIO := by
      intro hattached
      have heio := attached_ne_none_iff.mp hattached
      cases hseize : s.seize with
      | none => exact absurd ((eio_traceWithSeize hseize).mp heio) hgives
      | some e =>
          have herrno := heio.2
          simp only [traceWithSeize, hseize] at herrno
          rw [herrno]
    refine ⟨hfallback, fun i t j hinjection _ hattached _ => ?_⟩
    -- a target that could not be seized was not injected, so the second attempt is the first injection
    have hseize := hfallback (by rw [hattached]; exact Option.some_ne_none t)
    have hseized : (traceTarget mode s a errno).seized = traceWithSeize mode s errno := by
      simp only [traceTarget]
      split_ifs
      · rfl
      · rfl
      · rfl
    rw [hseized, traceWithSeize, hseize] at hinjection
    cases hinjection

end Once

/-- An injection that ran `entry`, with a value the tracer could not read, or could. -/
def enteredInjection (ok : Bool) (errno : Call) : Injection where
  ok := ok
  hooked := if ok then some true else none
  called := true
  mapped := true
  entered := true
  errno := errno
  called_of_mapped := id
  mapped_of_entered := id
  entered_of_ok := fun _ => rfl

/-- A running target is seized, interrupted and injected; the last call of the injection fails. -/
def lateSeize : SeizeCalls where
  seize := none
  interrupt := none
  wait := .ok ⟨true, sigTrap, eventStop⟩
  setOptions := none
  injection := enteredInjection false (some EIO)
  kill := none
  cont := none
  waitTrap := .ok ⟨true, sigTrap, eventStop⟩
  contAgain := none
  waitCont := .ok ⟨true, sigCont, 0⟩
  gki := ⟨none, .ok ⟨true, sigTrap, 0⟩, none⟩
  detach := none

def lateAttach : AttachCalls where
  attach := none
  wait := .ok ⟨true, sigStop, 0⟩
  setOptions := none
  injection := enteredInjection true none
  gki := ⟨none, .ok ⟨true, sigTrap, 0⟩, none⟩
  detach := none

/-- `EIO` from a call inside the injection: the target is injected twice, and `entry` runs twice. -/
theorem injected_twice :
    (traceTarget .standalone lateSeize lateAttach 0).ok = true ∧
      ((traceTarget .standalone lateSeize lateAttach 0).seized.injection.map Injection.entered) = some true ∧
      ((traceTarget .standalone lateSeize lateAttach 0).attached.bind Traced.injection).map
        Injection.entered = some true ∧
      ¬ AtMostOnce (traceTarget .standalone lateSeize lateAttach 0) lateSeize := by
  refine ⟨rfl, rfl, rfl, fun honce => ?_⟩
  exact absurd (honce.fallback (by decide)) (by decide)

end NeoZygisk.Ptracer.Strategies
