import NeoZygisk.Lib.Transition
import NeoZygisk.Ptracer.Resumable

/-!
# The writes around the trap

`inject_before_start` writes the slot of the entry address twice: the trap address before it lets the process
run, the entry address before it injects. `Stage` says what each of these writes permits: only after a complete
write of the trap address may the process run, only after a complete write of the entry address may it be
injected, and after any other outcome of a write the function has to return false on the spot.

The source tests what `write_proc` returns as a boolean, so -1 and a short count pass for success.
`completeWrites_iff` says that it keeps to the stages exactly if no write of the slot ends that way.
-/

set_option autoImplicit false

namespace NeoZygisk.Ptracer

open NeoZygisk.Lib.Bytes
open NeoZygisk.Lib.Transition

variable {abi : Abi}

/-! ## The injection with its acts -/

/-- What the tracer does to the process. A write comes with what `process_vm_writev` returned. -/
inductive Act where
  | hijack (written : Option Nat)
  | resume
  | writeBack (written : Option Nat)
  | inject
  deriving DecidableEq, Repr

/-- The acts of a run, and what it comes to. -/
abbrev Logged (α : Type) := List Act × Except Abort α

/-- `runToTrap`. Every turn begins with a `PTRACE_CONT`. -/
def runToTrapLogged : List (Round abi) → Tracee abi → Logged (Bool × Tracee abi)
  | [], _ => ([.resume], .error .blocked)
  | round :: rest, t =>
      if round.cont then
        match waitForTrace round.waits t with
        | .error e => ([.resume], .error e)
        | .ok (s, t) =>
            if s.sig = sigSegv then ([.resume], .ok (true, t))
            else if s.sig = sigStop then
              let r := runToTrapLogged rest t
              (.resume :: r.1, r.2)
            else ([.resume], .ok (false, t))
      else ([.resume], .ok (false, t))

/-- `injectAtTrap`. -/
def injectAtTrapLogged (o : Outcomes abi) (libPath tmpPath : String) (mode : TraceMode)
    (entry slot : Word abi) (t : Tracee abi) : Logged (Injected × Tracee abi) :=
  if o.trapRegs = false then ([], .ok (.failure, t))
  else if t.regs abi.ip &&& ~~~1 ≠ trapAddr entry &&& ~~~1 then ([], .ok (.failure, t))
  else
    let restored := writeProc o.writeBack slot (wordToBytes entry) t
    if restored.1 = some 0 then ([.writeBack restored.1], .ok (.failure, restored.2))
    else ([.writeBack restored.1, .inject], injectAndRestore o libPath tmpPath mode entry restored.2)

/-- The part behind the write of the trap address. -/
def runAndInjectLogged (o : Outcomes abi) (libPath tmpPath : String) (mode : TraceMode)
    (entry slot : Word abi) (t : Tracee abi) : Logged (Injected × Tracee abi) :=
  let run := runToTrapLogged o.rounds t
  match run.2 with
  | .error e => (run.1, .error e)
  | .ok (trapped, t) =>
      if trapped then
        let r := injectAtTrapLogged o libPath tmpPath mode entry slot t
        (run.1 ++ r.1, r.2)
      else (run.1, .ok (.failure, t))

/-- `inject_before_start`. -/
def injectBeforeStartLogged (o : Outcomes abi) (libPath tmpPath : String) (mode : TraceMode)
    (t : Tracee abi) : Logged (Injected × Tracee abi) :=
  if o.getRegs = false then ([], .ok (.failure, t))
  else
    match locateEntry o.fuel t with
    | none => ([], .error .blocked)
    | some (entry, slot) =>
        if entry = 0 then ([], .ok (.failure, t))
        else
          let hijacked := writeProc o.hijack slot (wordToBytes (trapAddr entry)) t
          if hijacked.1 = some 0 then ([.hijack hijacked.1], .ok (.failure, hijacked.2))
          else
            let r := runAndInjectLogged o libPath tmpPath mode entry slot hijacked.2
            (.hijack hijacked.1 :: r.1, r.2)

theorem runToTrapLogged_result (rounds : List (Round abi)) (t : Tracee abi) :
    (runToTrapLogged rounds t).2 = runToTrap rounds t := by
  induction rounds generalizing t with
  | nil => rfl
  | cons round rest ih =>
      simp only [runToTrapLogged, runToTrap]
      cases round.cont with
      | false => rfl
      | true =>
          simp only [if_true]
          cases waitForTrace round.waits t with
          | error e => rfl
          | ok r =>
              simp only
              split
              · rfl
              · split
                · exact ih r.2
                · rfl

theorem injectAtTrapLogged_result (o : Outcomes abi) (libPath tmpPath : String) (mode : TraceMode)
    (entry slot : Word abi) (t : Tracee abi) :
    (injectAtTrapLogged o libPath tmpPath mode entry slot t).2 =
      injectAtTrap o libPath tmpPath mode entry slot t := by
  simp only [injectAtTrapLogged, injectAtTrap]
  split
  · rfl
  · split
    · rfl
    · split
      · rfl
      · rfl

theorem runAndInjectLogged_result (o : Outcomes abi) (libPath tmpPath : String) (mode : TraceMode)
    (entry slot : Word abi) (t : Tracee abi) :
    (runAndInjectLogged o libPath tmpPath mode entry slot t).2 = (do
      let (trapped, t) ← runToTrap o.rounds t
      if trapped then injectAtTrap o libPath tmpPath mode entry slot t
      else return (.failure, t)) := by
  simp only [runAndInjectLogged, runToTrapLogged_result]
  cases runToTrap o.rounds t with
  | error e => rfl
  | ok r =>
      obtain ⟨trapped, t'⟩ := r
      cases trapped with
      | false => rfl
      | true => exact injectAtTrapLogged_result o libPath tmpPath mode entry slot t'

/-- The acts do not change what the injection comes to. -/
theorem injectBeforeStartLogged_result (o : Outcomes abi) (libPath tmpPath : String) (mode : TraceMode)
    (t : Tracee abi) :
    (injectBeforeStartLogged o libPath tmpPath mode t).2 = injectBeforeStart o libPath tmpPath mode t := by
  simp only [injectBeforeStartLogged, injectBeforeStart]
  split
  · rfl
  · cases locateEntry o.fuel t with
    | none => rfl
    | some found =>
        simp only
        split
        · rfl
        · split
          · rfl
          · exact runAndInjectLogged_result o libPath tmpPath mode found.1 found.2 _

/-! ## What the writes permit -/

/-- How far the slot has come: untouched; holding the whole trap address; holding the whole entry address again;
or left by a write that was not complete. -/
inductive Stage where
  | untouched
  | hijacked
  | restored
  | failed
  deriving DecidableEq, Repr

/-- The permitted acts. `size` bytes are a complete write. -/
def Stage.step (size : Nat) : Stage → Act → Option Stage
  | .untouched, .hijack written => some (if written = some size then .hijacked else .failed)
  | .hijacked, .resume => some .hijacked
  | .hijacked, .writeBack written => some (if written = some size then .restored else .failed)
  | .restored, .inject => some .restored
  | _, _ => none

/-- From the stage on only permitted acts, and after an incomplete write nothing but the return of false. -/
def Keeps (size : Nat) (stage : Stage) (run : Logged (Injected × Tracee abi)) : Prop :=
  ∃ last, replay (Stage.step size) stage run.1 = some last ∧
    (last = .failed → ∃ t, run.2 = .ok (.failure, t))

/-- The process runs and is injected over complete writes only. -/
def CompleteWrites (run : Logged (Injected × Tracee abi)) : Prop := Keeps abi.wordBytes .untouched run

/-- The write moves all of its bytes, or returns zero. -/
def Settled (size : Nat) (count : Option Nat) : Prop := count = some 0 ∨ Complete count size

/-- The injection gets to the slot of the entry address. -/
def Outcomes.FindsEntry (o : Outcomes abi) (t : Tracee abi) (entry slot : Word abi) : Prop :=
  o.getRegs = true ∧ locateEntry o.fuel t = some (entry, slot) ∧ entry ≠ 0

/-- The injection gets from there to the write-back. -/
def Outcomes.ReachesTrap (o : Outcomes abi) (entry : Word abi) : Prop :=
  o.trapRegs = true ∧ ∃ s, trapStop o.rounds = .ok (some s) ∧ s.AtTrap entry

/-! ## When the stages are kept -/

theorem writeProc_word_iff (count : Option Nat) (addr v : Word abi) (t : Tracee abi) :
    (writeProc count addr (wordToBytes v) t).1 = some abi.wordBytes ↔ Complete count abi.wordBytes := by
  have hwrite := writeProc_complete count addr (wordToBytes v) t
  rwa [length_wordToBytes] at hwrite

theorem keeps_nil {size : Nat} {stage : Stage} (hstage : stage ≠ .failed)
    (result : Except Abort (Injected × Tracee abi)) : Keeps size stage ([], result) :=
  ⟨stage, rfl, fun h => absurd h hstage⟩

/-- After a failed write every act is one too many. -/
theorem not_keeps_failed {size : Nat} (a : Act) (acts : List Act)
    (result : Except Abort (Injected × Tracee abi)) : ¬ Keeps size .failed (a :: acts, result) := by
  rintro ⟨last, hreplay, -⟩
  cases a <;> cases hreplay

/-- One permitted act leads to the next stage. -/
theorem keeps_cons {size : Nat} {stage next : Stage} {a : Act} (h : stage.step size a = some next)
    (acts : List Act) (result : Except Abort (Injected × Tracee abi)) :
    Keeps size stage (a :: acts, result) ↔ Keeps size next (acts, result) := by
  simp only [Keeps, replay, h, Option.bind_some]

/-- The loop resumes the process, once or more often, and does nothing else. -/
theorem runToTrapLogged_acts (rounds : List (Round abi)) (t : Tracee abi) :
    ∃ n, (runToTrapLogged rounds t).1 = List.replicate (n + 1) .resume := by
  induction rounds generalizing t with
  | nil => exact ⟨0, rfl⟩
  | cons round rest ih =>
      simp only [runToTrapLogged]
      cases round.cont with
      | false => exact ⟨0, rfl⟩
      | true =>
          simp only [if_true]
          cases waitForTrace round.waits t with
          | error e => exact ⟨0, rfl⟩
          | ok r =>
              simp only
              split
              · exact ⟨0, rfl⟩
              · split
                · -- a spurious SIGSTOP: one more turn
                  obtain ⟨n, hn⟩ := ih r.2
                  exact ⟨n + 1, congrArg (List.cons _) hn⟩
                · exact ⟨0, rfl⟩

/-- The process may be resumed while the trap address is in the slot. -/
theorem replay_resume (size n : Nat) :
    replay (Stage.step size) .hijacked (List.replicate n .resume) = some .hijacked := by
  induction n with
  | zero => rfl
  | succ n ih => exact ih

theorem keeps_run (size : Nat) (rounds : List (Round abi)) (t : Tracee abi) (acts : List Act)
    (result : Except Abort (Injected × Tracee abi)) :
    Keeps size .hijacked ((runToTrapLogged rounds t).1 ++ acts, result) ↔
      Keeps size .hijacked (acts, result) := by
  obtain ⟨n, hn⟩ := runToTrapLogged_acts rounds t
  simp only [Keeps, hn, replay_append, replay_resume, Option.bind_some]

/-- A write and what follows it. The source stops at a returned zero and goes on otherwise. -/
theorem keeps_write_iff {stage : Stage} (next : Stage) (act : Option Nat → Act)
    (hstep : ∀ written, stage.step abi.wordBytes (act written) =
      some (if written = some abi.wordBytes then next else .failed))
    (count : Option Nat) (addr v : Word abi) (t : Tracee abi) (run : Logged (Injected × Tracee abi))
    (hrun : ∃ a acts, run.1 = a :: acts) :
    Keeps abi.wordBytes stage
        (if (writeProc count addr (wordToBytes v) t).1 = some 0 then
          ([act (writeProc count addr (wordToBytes v) t).1],
            .ok (.failure, (writeProc count addr (wordToBytes v) t).2))
        else (act (writeProc count addr (wordToBytes v) t).1 :: run.1, run.2)) ↔
      Settled abi.wordBytes count ∧ (Complete count abi.wordBytes → Keeps abi.wordBytes next run) := by
  have hzero := writeProc_eq_some_zero_iff count addr v t
  have hword := writeProc_word_iff count addr v t
  split
  · rename_i hnone
    have hne : (writeProc count addr (wordToBytes v) t).1 ≠ some abi.wordBytes := by
      rw [hnone]
      exact fun h => wordBytes_ne_zero abi (Option.some.inj h).symm
    refine iff_of_true ⟨.failed, ?_, fun _ => ⟨_, rfl⟩⟩ ⟨.inl (hzero.mp hnone), ?_⟩
    · simp only [replay, hstep, if_neg hne, Option.bind_some]
    · intro h
      exact absurd (hword.mpr h) hne
  · rename_i hsome
    have hcount : count ≠ some 0 := fun h => hsome (hzero.mpr h)
    rw [keeps_cons (hstep _)]
    by_cases hfull : (writeProc count addr (wordToBytes v) t).1 = some abi.wordBytes
    · have hcomplete := hword.mp hfull
      rw [if_pos hfull]
      exact ⟨fun h => ⟨.inr hcomplete, fun _ => h⟩, fun h => h.2 hcomplete⟩
    · -- -1 and a short count pass the test, and something follows
      obtain ⟨a, acts, hacts⟩ := hrun
      rw [if_neg hfull, hacts]
      refine iff_of_false (not_keeps_failed a acts run.2) ?_
      rintro ⟨h | h, -⟩
      · exact hcount h
      · exact hfull (hword.mpr h)

variable (o : Outcomes abi) (libPath tmpPath : String) (mode : TraceMode)

/-- Behind the trap the stages are kept exactly if the write-back is complete or returns zero. -/
theorem keeps_injectAtTrapLogged_iff (entry slot : Word abi) (t : Tracee abi) :
    Keeps abi.wordBytes .hijacked (injectAtTrapLogged o libPath tmpPath mode entry slot t) ↔
      (o.trapRegs = true → t.regs abi.ip &&& ~~~1 = trapAddr entry &&& ~~~1 →
        Settled abi.wordBytes o.writeBack) := by
  simp only [injectAtTrapLogged]
  split
  · rename_i hregs
    refine iff_of_true (keeps_nil (by simp) _) ?_
    intro h
    exact absurd (hregs.symm.trans h) (by simp)
  · rename_i hregs
    split
    · rename_i hip
      exact iff_of_true (keeps_nil (by simp) _) fun _ h => absurd h hip
    · rename_i hip
      have hregs' : o.trapRegs = true := by simpa using hregs
      have hip' := not_not.mp hip
      simp only [hregs', hip', true_implies]
      rw [keeps_write_iff .restored .writeBack (fun _ => rfl) o.writeBack slot entry t ([.inject], _)
        ⟨_, _, rfl⟩]
      rw [and_iff_left_iff_imp]
      intro _ _
      exact (keeps_cons rfl _ _).mpr (keeps_nil (by simp) _)

/-- With the trap address in the slot, only the write-back is left to go wrong. -/
theorem keeps_runAndInjectLogged_iff (entry slot : Word abi) (t : Tracee abi) :
    Keeps abi.wordBytes .hijacked (runAndInjectLogged o libPath tmpPath mode entry slot t) ↔
      (o.ReachesTrap entry → Settled abi.wordBytes o.writeBack) := by
  have hnil : ∀ result : Except Abort (Injected × Tracee abi),
      Keeps abi.wordBytes .hijacked ((runToTrapLogged o.rounds t).1, result) := by
    intro result
    have hrun := keeps_run abi.wordBytes o.rounds t [] result
    rw [List.append_nil] at hrun
    exact hrun.mpr (keeps_nil (by simp) result)
  have hspec := runToTrap_spec o.rounds t
  simp only [runAndInjectLogged, runToTrapLogged_result]
  cases hstop : trapStop o.rounds with
  | error e =>
      simp only [hstop] at hspec
      simp only [hspec]
      refine iff_of_true (hnil _) ?_
      rintro ⟨-, s, hs, -⟩
      cases hstop.symm.trans hs
  | ok stop =>
      cases stop with
      | none =>
          simp only [hstop] at hspec
          obtain ⟨t', hrun, -⟩ := hspec
          simp only [hrun]
          refine iff_of_true (hnil _) ?_
          rintro ⟨-, s, hs, -⟩
          cases hstop.symm.trans hs
      | some s =>
          simp only [hstop] at hspec
          simp only [hspec, if_true]
          rw [keeps_run, keeps_injectAtTrapLogged_iff]
          constructor
          · rintro h ⟨hregs, s', hs', hat⟩
            cases hstop.symm.trans hs'
            exact h hregs hat
          · intro h hregs hat
            exact h ⟨hregs, s, hstop, hat⟩

theorem exists_runAndInjectLogged (entry slot : Word abi) (t : Tracee abi) :
    ∃ a acts, (runAndInjectLogged o libPath tmpPath mode entry slot t).1 = a :: acts := by
  obtain ⟨n, hn⟩ := runToTrapLogged_acts o.rounds t
  simp only [runAndInjectLogged, hn]
  split
  · exact ⟨_, _, rfl⟩
  · split
    · exact ⟨_, _, rfl⟩
    · exact ⟨_, _, rfl⟩

/-- The scan of the startup block ends in one way. -/
theorem forall_findsEntry_iff {t : Tracee abi} {entry slot : Word abi} (hregs : o.getRegs = true)
    (hfound : locateEntry o.fuel t = some (entry, slot)) (P : Word abi → Prop) :
    (∀ entry' slot', o.FindsEntry t entry' slot' → P entry') ↔ (entry ≠ 0 → P entry) := by
  constructor
  · intro h hentry
    exact h entry slot ⟨hregs, hfound, hentry⟩
  · rintro h entry' slot' ⟨-, hfound', hentry⟩
    cases hfound.symm.trans hfound'
    exact h hentry

/-- The process runs towards the trap and is injected over complete writes only, exactly if every write of the
slot that is reached is complete or returns zero. -/
theorem completeWrites_iff (t : Tracee abi) :
    CompleteWrites (injectBeforeStartLogged o libPath tmpPath mode t) ↔
      ∀ entry slot, o.FindsEntry t entry slot →
        Settled abi.wordBytes o.hijack ∧
          (Complete o.hijack abi.wordBytes → o.ReachesTrap entry → Settled abi.wordBytes o.writeBack) := by
  simp only [CompleteWrites, injectBeforeStartLogged]
  split
  · rename_i hregs
    refine iff_of_true (keeps_nil (by simp) _) ?_
    rintro entry slot ⟨h, -, -⟩
    exact absurd (hregs.symm.trans h) (by simp)
  · rename_i hregs
    have hregs' : o.getRegs = true := by simpa using hregs
    cases hfound : locateEntry o.fuel t with
    | none =>
        refine iff_of_true (keeps_nil (by simp) _) ?_
        rintro entry slot ⟨-, h, -⟩
        cases hfound.symm.trans h
    | some found =>
        obtain ⟨entry, slot⟩ := found
        rw [forall_findsEntry_iff o hregs' hfound fun entry => Settled abi.wordBytes o.hijack ∧
          (Complete o.hijack abi.wordBytes → o.ReachesTrap entry → Settled abi.wordBytes o.writeBack)]
        simp only
        split
        · rename_i hentry
          exact iff_of_true (keeps_nil (by simp) _) fun h => absurd hentry h
        · rename_i hentry
          rw [keeps_write_iff .hijacked .hijack (fun _ => rfl) o.hijack slot (trapAddr entry) t _
            (exists_runAndInjectLogged o libPath tmpPath mode entry slot _),
            keeps_runAndInjectLogged_iff]
          simp only [ne_eq, hentry, not_false_eq_true, true_implies]

/-! ## A write that fails -/

/-- The injection of a zygote whose trap address cannot be written, because `process_vm_writev` fails. The
zygote then runs its program. -/
def unhijackedInjection : Outcomes .aarch64 :=
  { spawnInjection 0x7300000000 with
    hijack := none
    rounds := [⟨true, []⟩] }

/-- The zygote is let run although the trap address was not written. -/
theorem resumed_without_trap :
    ¬ CompleteWrites (injectBeforeStartLogged unhijackedInjection
      "/data/adb/neozygisk/lib64/libzygisk.so" "/data/adb/neozygisk" .spawn zygote) := by
  rintro ⟨last, hreplay, -⟩
  have hlog : (injectBeforeStartLogged unhijackedInjection
      "/data/adb/neozygisk/lib64/libzygisk.so" "/data/adb/neozygisk" .spawn zygote).1 =
        [.hijack none, .resume] := by
    have hfound : locateEntry unhijackedInjection.fuel zygote = some (0x5500001000, zygoteBlock.slot) :=
      locateEntry_eq zygoteBlock (by decide) (by decide)
    simp only [injectBeforeStartLogged, hfound]
    rfl
  rw [hlog] at hreplay
  cases hreplay

end NeoZygisk.Ptracer
