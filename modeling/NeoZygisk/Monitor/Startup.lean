import NeoZygisk.Lib.Transition
import NeoZygisk.Monitor.Commands

/-!
# Monitors that start at the same time

Any number of monitors, each on its way through `init_monitor`: the probe of the control socket, the status
file, the seize of init, the unlink and the bind. The kernel lets one of them trace init. That, with the
probe, is to keep the others from the socket name and the status file of the one that owns them.

Both fall short. The probe is answered only once the name is bound, so a monitor that probed before that goes
on to rewrite the status file of the one that got there first; and a monitor that is told to stop gives init
up and keeps its name, so a second one that passed its probe earlier can seize init and unlink the name.
`exclusive_iff` says that there is nothing else: in every run, the monitors exclude each other in every state
exactly when no monitor binds while another one is still preparing, none seizes init while another one is
bound, and no probe that could not open a socket is taken for a negative one.
-/

set_option autoImplicit false

namespace NeoZygisk.Monitor.Startup

open NeoZygisk.Lib.Transition

/-! ## One monitor -/

/-- How far a monitor has come. A name says what the monitor does next; a closed monitor has left its event
loop and its socket, and the process is still there. -/
inductive Phase where
  | unborn
  | probing
  | truncating
  | writing
  | seizing
  | unlinking
  | binding
  | running (state : TracingState)
  | closed
  | dead
  deriving DecidableEq, Repr

namespace Phase

/-- The control socket of the monitor is bound. -/
def isBound : Phase → Bool
  | running _ => true
  | _ => false

/-- Between the probe and the end of `prepare_environment`. -/
def preparing : Phase → Bool
  | truncating | writing => true
  | _ => false

/-- Between the seize and the bind. -/
def taking : Phase → Bool
  | unlinking | binding => true
  | _ => false

/-- The monitor is about to unlink the name or to rewrite the status file, or may do so at any time. -/
def touching : Phase → Bool
  | truncating | writing | unlinking | running _ => true
  | _ => false

/-- The monitor is through with starting. -/
def settled : Phase → Bool
  | running _ | closed | dead => true
  | _ => false

/-- The process exists. -/
def isLiving : Phase → Bool
  | unborn | dead => false
  | _ => true

end Phase

/-- The commands that change the tracing state. -/
inductive Control where
  | start
  | stop
  | exit
  deriving DecidableEq, Repr

/-- The tracing state after `request_start`. -/
def started : TracingState → TracingState
  | .exiting => .exiting
  | _ => .tracing

/-- The tracing state after `request_stop`. -/
def halted : TracingState → TracingState
  | .tracing => .stopping
  | state => state

theorem requestStart_started (m : AppMonitor) :
    m.requestStart.tracingState = started m.tracingState := by
  rw [AppMonitor.requestStart_tracingState]
  cases m.tracingState <;> rfl

theorem requestStop_halted (reason : String) (m : AppMonitor) :
    (m.requestStop reason).tracingState = halted m.tracingState := by
  rw [AppMonitor.requestStop_tracingState]
  cases m.tracingState <;> rfl

/-! ## The system -/

/-- The monitors, who traces init, whose socket the name leads to, who wrote the status file last, and who has
seized init on starting. The file of the socket outlives its owner. -/
structure World where
  phase : Nat → Phase
  tracer : Option Nat
  name : Option Nat
  status : Option Nat
  seizures : List Nat

namespace World

variable (w : World)

/-- Monitor `i` goes to phase `p`. -/
def advance (i : Nat) (p : Phase) : World := { w with phase := Function.update w.phase i p }

/-- The kernel detaches what a process that ends was tracing. -/
def release (i : Nat) : World := { w with tracer := if w.tracer = some i then none else w.tracer }

/-- The name leads to the socket of the living monitor `j`. -/
def Owns (j : Nat) : Prop := w.name = some j ∧ (w.phase j).isBound = true

/-- `connect` to the name succeeds. -/
def answered : Bool :=
  match w.name with
  | some j => (w.phase j).isBound
  | none => false

/-- `monitor_is_running`. A probe without a socket says no. -/
def monitorIsRunning (socketOk : Bool) : Bool := socketOk && w.answered

/-- A command in the event loop. Only a start in the stopped state seizes init, and its outcome is not looked
at; only a stop in the tracing state does anything. -/
def handle (i : Nat) (state : TracingState) (seizeOk : Bool) : Control → Option World
  | .start =>
      if state = .stopped ∧ seizeOk = true then
        if w.tracer = none then
          some { w.advance i (.running .tracing) with tracer := some i, status := some i }
        else none
      else some { w.advance i (.running (started state)) with status := some i }
  | .stop =>
      if state = .tracing then some { w.advance i (.running (halted state)) with status := some i }
      else some w
  | .exit => some { w.advance i (.running .exiting) with status := some i }

end World

/-- The steps of a monitor. Outcomes of system calls are in the label; `update` is any other event that ends
in `update_status`, and `die` the end of the process, by itself or by a signal. -/
inductive Act where
  | spawn (i : Nat)
  | probe (i : Nat) (socketOk : Bool)
  | truncate (i : Nat)
  | write (i : Nat) (propOk : Bool)
  | seize (i : Nat) (ok : Bool)
  | unlink (i : Nat) (ok : Bool)
  | bind (i : Nat) (ok : Bool)
  | command (i : Nat) (c : Control) (seizeOk : Bool)
  | update (i : Nat)
  | detach (i : Nat) (ok : Bool)
  | close (i : Nat)
  | die (i : Nat)
  deriving DecidableEq, Repr

/-- A seize works only while nobody traces init, and a bind only while the name is free. -/
def step (w : World) : Act → Option World
  | .spawn i => if w.phase i = .unborn then some (w.advance i .probing) else none
  | .probe i socketOk =>
      if w.phase i = .probing then
        -- a redundant monitor steps aside before it rewrites anything
        some (w.advance i (if w.monitorIsRunning socketOk then .dead else .truncating))
      else none
  -- `prepare_environment` empties the file first and may then fail to read its own module's
  | .truncate i =>
      if w.phase i = .truncating then some { w.advance i .writing with status := none } else none
  | .write i propOk =>
      if w.phase i = .writing then
        if propOk then some { w.advance i .seizing with status := some i } else some (w.advance i .dead)
      else none
  | .seize i ok =>
      if w.phase i = .seizing then
        if ok then
          if w.tracer = none then
            some { w.advance i .unlinking with tracer := some i, seizures := i :: w.seizures }
          else none
        else some (w.advance i .dead)
      else none
  -- whoever holds the name loses it; a name that cannot be unlinked only makes the bind fail
  | .unlink i ok =>
      if w.phase i = .unlinking then
        some { w.advance i .binding with name := if ok then none else w.name }
      else none
  | .bind i ok =>
      if w.phase i = .binding then
        if ok then
          if w.name = none then some { w.advance i (.running .tracing) with name := some i } else none
        -- a monitor without its socket leaves, tracing init until its process is gone
        else some (w.advance i .closed)
      else none
  | .command i c seizeOk =>
      match w.phase i with
      | .running state => w.handle i state seizeOk c
      | _ => none
  | .update i => if (w.phase i).isBound then some { w with status := some i } else none
  -- init's stop is reported to its tracer; the detach may fail and is still taken for one
  | .detach i ok =>
      if w.phase i = .running .stopping ∧ w.tracer = some i then
        some { w.advance i (.running .stopped) with tracer := if ok then none else w.tracer }
      else none
  | .close i => if w.phase i = .running .exiting then some (w.advance i .closed) else none
  | .die i => if (w.phase i).isLiving then some ((w.advance i .dead).release i) else none

/-- Nobody has started and nobody traces init. A name and a status file may be left over. -/
def starting (name status : Option Nat) : World := ⟨fun _ => .unborn, none, name, status, []⟩

/-! ## Exclusion -/

/-- The monitor that unlinks the name or rewrites the status file in a step. -/
def touchedBy (w : World) : Act → Option Nat
  | .truncate i => some i
  | .write i true => some i
  | .unlink i true => some i
  | .command i .start _ => some i
  | .command i .stop _ => if w.phase i = .running .tracing then some i else none
  | .command i .exit _ => some i
  | .update i => some i
  | _ => none

/-- No step that can be taken unlinks the name or rewrites the status file while another living monitor owns
the name, and no two living monitors have their socket bound. -/
structure Exclusive (w : World) : Prop where
  untouched : ∀ a t i, step w a = some t → touchedBy w a = some i → ∀ j, w.Owns j → j = i
  single : ∀ i j, (w.phase i).isBound = true → (w.phase j).isBound = true → i = j

/-- What a step that can be taken has to meet. -/
def Fits (w : World) : Act → Prop
  | .probe _ false => ∀ j, ¬ w.Owns j
  | .seize _ true => ∀ j, (w.phase j).isBound = false
  | .bind _ true => ∀ j, (w.phase j).preparing = false
  | _ => True

def Orderly (w : World) (a : Act) : Prop := (step w a).isSome = true → Fits w a

theorem Phase.touching_of_isBound {p : Phase} (h : p.isBound = true) : p.touching = true := by
  cases p <;> first | rfl | cases h

theorem Phase.touching_of_preparing {p : Phase} (h : p.preparing = true) : p.touching = true := by
  cases p <;> first | rfl | cases h

/-- Every monitor that is about to touch something can do so in its next step. -/
theorem exists_touch {w : World} {i : Nat} (h : (w.phase i).touching = true) :
    ∃ a t, step w a = some t ∧ touchedBy w a = some i := by
  -- the phase names the step; a bound monitor may get an event at any time
  cases hp : w.phase i with
  | truncating => exact ⟨.truncate i, _, if_pos hp, rfl⟩
  | writing => exact ⟨.write i true, _, if_pos hp, rfl⟩
  | unlinking => exact ⟨.unlink i true, _, if_pos hp, rfl⟩
  | running state => exact ⟨.update i, _, if_pos (by rw [hp]; rfl), rfl⟩
  | unborn => rw [hp] at h; cases h
  | probing => rw [hp] at h; cases h
  | seizing => rw [hp] at h; cases h
  | binding => rw [hp] at h; cases h
  | closed => rw [hp] at h; cases h
  | dead => rw [hp] at h; cases h

/-- A guarded step that was taken met its guard. -/
theorem of_guard {c : Prop} [Decidable c] {s : Option World} {t : World}
    (h : (if c then s else none) = some t) : c ∧ s = some t := by
  by_cases hc : c
  · exact ⟨hc, (if_pos hc).symm.trans h⟩
  · rw [if_neg hc] at h
    cases h

/-- Only a monitor in its event loop gets a command. -/
theorem running_of_command {w t : World} {i : Nat} {c : Control} {seizeOk : Bool}
    (h : step w (.command i c seizeOk) = some t) :
    ∃ state, w.phase i = .running state ∧ w.handle i state seizeOk c = some t := by
  unfold step at h
  dsimp only at h
  split at h
  · rename_i state hp
    exact ⟨state, hp, h⟩
  · cases h

/-- Only such a monitor touches anything. -/
theorem touching_of_touch {w t : World} {a : Act} {i : Nat} (hst : step w a = some t)
    (hi : touchedBy w a = some i) : (w.phase i).touching = true := by
  cases a with
  | truncate k =>
      obtain rfl := Option.some.inj hi
      rw [(of_guard hst).1]
      rfl
  | write k propOk =>
      cases propOk with
      | false => cases hi
      | true =>
          obtain rfl := Option.some.inj hi
          rw [(of_guard hst).1]
          rfl
  | unlink k ok =>
      cases ok with
      | false => cases hi
      | true =>
          obtain rfl := Option.some.inj hi
          rw [(of_guard hst).1]
          rfl
  | command k c seizeOk =>
      have hk : k = i := by
        cases c with
        | start => exact Option.some.inj hi
        | stop =>
            by_cases hp : w.phase k = .running .tracing
            · exact Option.some.inj ((if_pos hp).symm.trans hi)
            · exact absurd ((if_neg hp).symm.trans hi) (by simp)
        | exit => exact Option.some.inj hi
      subst hk
      obtain ⟨state, hp, -⟩ := running_of_command hst
      rw [hp]
      rfl
  | update k =>
      obtain rfl := Option.some.inj hi
      exact Phase.touching_of_isBound (of_guard hst).1
  | spawn k => cases hi
  | probe k socketOk => cases hi
  | seize k ok => cases hi
  | bind k ok => cases hi
  | detach k ok => cases hi
  | close k => cases hi
  | die k => cases hi

/-- Exclusion by phases: next to an owner nobody else is about to touch anything. -/
theorem exclusive_iff_phases (w : World) :
    Exclusive w ↔
      (∀ i j, w.Owns j → (w.phase i).touching = true → j = i) ∧
        ∀ i j, (w.phase i).isBound = true → (w.phase j).isBound = true → i = j := by
  constructor
  · intro h
    refine ⟨?_, h.single⟩
    intro i j hj hi
    obtain ⟨a, t, hst, htouch⟩ := exists_touch hi
    exact h.untouched a t i hst htouch j hj
  · rintro ⟨hphases, hsingle⟩
    refine ⟨?_, hsingle⟩
    intro a t i hst htouch j hj
    exact hphases i j hj (touching_of_touch hst htouch)

/-! ## What a step can do -/

/-- `p` promises no more than `q`, and does not start over. -/
structure Phase.Below (p q : Phase) : Prop where
  settled : q.settled = true → p.settled = true
  bound : p.isBound = true → q.isBound = true
  touching : p.touching = true → q.touching = true
  taking : p.taking = true → q.taking = true
  binding : p = .binding → q = .binding

/-- The steps that give a monitor something: the probe, the seize, the unlink and the bind. All others leave
the name alone, and init to those that are taking the name. -/
inductive Move (w : World) (t : World) : Act → Prop where
  | probed (i : Nat) (socketOk : Bool) (hp : w.phase i = .probing)
      (hno : w.monitorIsRunning socketOk = false) (ht : t = w.advance i .truncating) :
      Move w t (.probe i socketOk)
  | seized (i : Nat) (hp : w.phase i = .seizing) (hfree : w.tracer = none)
      (ht : t = { w.advance i .unlinking with tracer := some i, seizures := i :: w.seizures }) :
      Move w t (.seize i true)
  | unlinked (i : Nat) (ok : Bool) (hp : w.phase i = .unlinking)
      (ht : t = { w.advance i .binding with name := if ok then none else w.name }) : Move w t (.unlink i ok)
  | bound (i : Nat) (hp : w.phase i = .binding) (hfree : w.name = none)
      (ht : t = { w.advance i (.running .tracing) with name := some i }) : Move w t (.bind i true)
  | other (a : Act) (i : Nat) (p : Phase) (hfits : Fits w a)
      (hphase : t.phase = Function.update w.phase i p) (hbelow : p.Below (w.phase i))
      (hname : t.name = w.name) (hseizures : t.seizures = w.seizures)
      (htracer : ∀ j, w.tracer = some j → (t.phase j).taking = true → t.tracer = some j) : Move w t a

/-- A phase that is neither bound, nor touching, nor taking promises nothing. -/
theorem Phase.below_of_idle {p q : Phase} (hs : q.settled = true → p.settled = true)
    (hb : p.isBound = false) (ht : p.touching = false) (hk : p.taking = false) : p.Below q where
  settled := hs
  bound h := by rw [hb] at h; cases h
  touching h := by rw [ht] at h; cases h
  taking h := by rw [hk] at h; cases h
  binding h := by rw [h] at hk; cases hk

theorem Phase.below_refl (p : Phase) : p.Below p := ⟨id, id, id, id, id⟩

theorem Phase.below_running (s s' : TracingState) : (Phase.running s).Below (.running s') :=
  { settled := fun _ => rfl, bound := fun _ => rfl, touching := fun _ => rfl, taking := nofun,
    binding := nofun }

/-- A step of `i` that leaves the name, the record of the seizures and the tracer alone. -/
theorem Move.quiet {w t : World} {a : Act} (i : Nat) (p : Phase) (hfits : Fits w a)
    (hbelow : p.Below (w.phase i)) (hphase : t.phase = Function.update w.phase i p)
    (hname : t.name = w.name) (hseizures : t.seizures = w.seizures) (htracer : t.tracer = w.tracer) :
    Move w t a :=
  .other a i p hfits hphase hbelow hname hseizures fun _ hj _ => htracer.trans hj

/-- A monitor in its event loop stays there when it gets a command. -/
theorem handle_move {w t : World} {i : Nat} {state : TracingState} {seizeOk : Bool} {c : Control}
    (hp : w.phase i = .running state) (h : w.handle i state seizeOk c = some t) :
    Move w t (.command i c seizeOk) := by
  have hbelow : ∀ s, (Phase.running s).Below (w.phase i) := by
    intro s
    rw [hp]
    exact Phase.below_running s state
  cases c with
  | start =>
      unfold World.handle at h
      by_cases hs : state = .stopped ∧ seizeOk = true
      · rw [if_pos hs] at h
        obtain ⟨hfree, h⟩ := of_guard h
        obtain rfl := Option.some.inj h
        refine .other _ i _ trivial rfl (hbelow .tracing) rfl rfl ?_
        intro j hj
        rw [hfree] at hj
        cases hj
      · rw [if_neg hs] at h
        obtain rfl := Option.some.inj h
        exact .quiet i _ trivial (hbelow _) rfl rfl rfl rfl
  | stop =>
      unfold World.handle at h
      by_cases hs : state = .tracing
      · rw [if_pos hs] at h
        obtain rfl := Option.some.inj h
        exact .quiet i _ trivial (hbelow _) rfl rfl rfl rfl
      · rw [if_neg hs] at h
        obtain rfl := Option.some.inj h
        exact .quiet i (w.phase i) trivial (Phase.below_refl _) (Function.update_eq_self i w.phase).symm rfl rfl rfl
  | exit =>
      obtain rfl := Option.some.inj h
      exact .quiet i _ trivial (hbelow .exiting) rfl rfl rfl rfl

/-- Everything a step can do. -/
theorem step_move {w t : World} {a : Act} (h : step w a = some t) : Move w t a := by
  cases a with
  | spawn i =>
      obtain ⟨hp, h⟩ := of_guard h
      obtain rfl := Option.some.inj h
      refine .quiet i .probing trivial (Phase.below_of_idle ?_ rfl rfl rfl) rfl rfl rfl rfl
      rw [hp]
      exact nofun
  | probe i socketOk =>
      obtain ⟨hp, h⟩ := of_guard h
      obtain rfl := Option.some.inj h
      cases hrun : w.monitorIsRunning socketOk with
      | false => exact .probed i socketOk hp hrun rfl
      | true =>
          cases socketOk with
          | false => cases hrun
          | true => exact .quiet i _ trivial (Phase.below_of_idle (fun _ => rfl) rfl rfl rfl) rfl rfl rfl rfl
  | truncate i =>
      obtain ⟨hp, h⟩ := of_guard h
      obtain rfl := Option.some.inj h
      refine .quiet i .writing trivial ?_ rfl rfl rfl rfl
      rw [hp]
      exact { settled := nofun, bound := nofun, touching := fun _ => rfl, taking := nofun, binding := nofun }
  | write i propOk =>
      obtain ⟨hp, h⟩ := of_guard h
      have hsettled : ∀ p : Phase, (w.phase i).settled = true → p.settled = true := by
        intro p
        rw [hp]
        exact nofun
      cases propOk <;> obtain rfl := Option.some.inj h <;>
        exact .quiet i _ trivial (Phase.below_of_idle (hsettled _) rfl rfl rfl) rfl rfl rfl rfl
  | seize i ok =>
      obtain ⟨hp, h⟩ := of_guard h
      cases ok with
      | false =>
          obtain rfl := Option.some.inj h
          exact .quiet i _ trivial (Phase.below_of_idle (fun _ => rfl) rfl rfl rfl) rfl rfl rfl rfl
      | true =>
          obtain ⟨hfree, h⟩ := of_guard h
          exact .seized i hp hfree (Option.some.inj h).symm
  | unlink i ok =>
      obtain ⟨hp, h⟩ := of_guard h
      exact .unlinked i ok hp (Option.some.inj h).symm
  | bind i ok =>
      obtain ⟨hp, h⟩ := of_guard h
      cases ok with
      | false =>
          obtain rfl := Option.some.inj h
          exact .quiet i _ trivial (Phase.below_of_idle (fun _ => rfl) rfl rfl rfl) rfl rfl rfl rfl
      | true =>
          obtain ⟨hfree, h⟩ := of_guard h
          exact .bound i hp hfree (Option.some.inj h).symm
  | command i c seizeOk =>
      obtain ⟨state, hp, hhandle⟩ := running_of_command h
      exact handle_move hp hhandle
  | update i =>
      obtain rfl := Option.some.inj (of_guard h).2
      exact .quiet i (w.phase i) trivial (Phase.below_refl _) (Function.update_eq_self i w.phase).symm rfl rfl rfl
  | detach i ok =>
      obtain ⟨⟨hp, htracer⟩, h⟩ := of_guard h
      obtain rfl := Option.some.inj h
      have hbelow : (Phase.running .stopped).Below (w.phase i) := by
        rw [hp]
        exact Phase.below_running _ _
      refine .other _ i _ trivial rfl hbelow rfl rfl ?_
      intro j hj htaking
      -- the one that is detached has its name already
      obtain rfl := Option.some.inj (htracer.symm.trans hj)
      simp [World.advance, Phase.taking] at htaking
  | close i =>
      obtain rfl := Option.some.inj (of_guard h).2
      exact .quiet i _ trivial (Phase.below_of_idle (fun _ => rfl) rfl rfl rfl) rfl rfl rfl rfl
  | die i =>
      obtain rfl := Option.some.inj (of_guard h).2
      refine .other _ i .dead trivial rfl (Phase.below_of_idle (fun _ => rfl) rfl rfl rfl) rfl rfl ?_
      intro j hj htaking
      have hne : j ≠ i := by
        rintro rfl
        simp [World.advance, World.release, Phase.taking] at htaking
      simp [World.release, World.advance, hj, hne]

/-! ## The invariant -/

/-- What orderly steps keep: a bound monitor owns the name, the one that takes the name traces init, nobody is
bound while the name is being taken, and next to an owner nobody is about to touch anything. -/
structure Inv (w : World) : Prop where
  named : ∀ j, (w.phase j).isBound = true → w.name = some j
  traces : ∀ i, (w.phase i).taking = true → w.tracer = some i
  vacant : ∀ i j, w.phase i = .binding → (w.phase j).isBound = false
  apart : ∀ i j, (w.phase j).isBound = true → (w.phase i).touching = true → j = i

theorem inv_starting (name status : Option Nat) : Inv (starting name status) where
  named := nofun
  traces := nofun
  vacant := nofun
  apart := nofun

theorem Inv.exclusive {w : World} (h : Inv w) : Exclusive w := by
  rw [exclusive_iff_phases]
  refine ⟨?_, ?_⟩
  · intro i j hj hi
    exact h.apart i j hj.2 hi
  · intro i j hi hj
    exact h.apart j i hi (Phase.touching_of_isBound hj)

/-- Nobody else is bound next to a monitor that is about to touch something. -/
theorem Inv.unbound_of_touching {w : World} (h : Inv w) {i j : Nat}
    (hi : (w.phase i).touching = true) (hne : j ≠ i) : (w.phase j).isBound = false := by
  cases hj : (w.phase j).isBound with
  | false => rfl
  | true => exact absurd (h.apart i j hj hi) hne

section Keeps

variable {w t : World} {i : Nat} {p : Phase}

/-- One monitor goes to another phase. What the new phase promises has to hold, and the others have to keep
what theirs do. -/
theorem Inv.update (h : Inv w) (hphase : t.phase = Function.update w.phase i p)
    (hnamed : p.isBound = true → t.name = some i)
    (hnamed' : ∀ j, j ≠ i → (w.phase j).isBound = true → t.name = some j)
    (htraces : p.taking = true → t.tracer = some i)
    (htraces' : ∀ j, j ≠ i → (w.phase j).taking = true → t.tracer = some j)
    (htouching : p.touching = true ∨ p = .binding → ∀ j, j ≠ i → (w.phase j).isBound = false)
    (hbound : p.isBound = true →
      ∀ j, j ≠ i → (w.phase j).touching = false ∧ w.phase j ≠ .binding) : Inv t where
  named := by
    intro j hj
    rw [hphase] at hj
    by_cases hji : j = i
    · subst hji
      rw [Function.update_self] at hj
      exact hnamed hj
    · rw [Function.update_of_ne hji] at hj
      exact hnamed' j hji hj
  traces := by
    intro j hj
    rw [hphase] at hj
    by_cases hji : j = i
    · subst hji
      rw [Function.update_self] at hj
      exact htraces hj
    · rw [Function.update_of_ne hji] at hj
      exact htraces' j hji hj
  vacant := by
    intro k j hk
    rw [hphase] at hk ⊢
    -- `i` may be the one that takes the name or the one that is bound
    by_cases hki : k = i
    · subst hki
      rw [Function.update_self] at hk
      by_cases hjk : j = k
      · subst hjk
        rw [Function.update_self, hk]
        rfl
      · rw [Function.update_of_ne hjk]
        exact htouching (Or.inr hk) j hjk
    · rw [Function.update_of_ne hki] at hk
      by_cases hji : j = i
      · subst hji
        rw [Function.update_self]
        cases hp : p.isBound with
        | false => rfl
        | true => exact absurd hk (hbound hp k hki).2
      · rw [Function.update_of_ne hji]
        exact h.vacant k j hk
  apart := by
    intro k j hj hk
    rw [hphase] at hj hk
    by_cases hki : k = i
    · subst hki
      rw [Function.update_self] at hk
      by_contra hjk
      rw [Function.update_of_ne hjk, htouching (Or.inl hk) j hjk] at hj
      cases hj
    · rw [Function.update_of_ne hki] at hk
      by_cases hji : j = i
      · subst hji
        rw [Function.update_self] at hj
        rw [(hbound hj k hki).1] at hk
        cases hk
      · rw [Function.update_of_ne hji] at hj
        exact h.apart k j hj hk

/-- A step to a phase that promises no more. -/
theorem Inv.below (h : Inv w) (hphase : t.phase = Function.update w.phase i p)
    (hbelow : p.Below (w.phase i)) (hname : t.name = w.name)
    (htracer : ∀ j, w.tracer = some j → (t.phase j).taking = true → t.tracer = some j) : Inv t := by
  have htaking : ∀ j, (t.phase j).taking = true → (w.phase j).taking = true := by
    intro j hj
    rw [hphase] at hj
    by_cases hji : j = i
    · subst hji
      rw [Function.update_self] at hj
      exact hbelow.taking hj
    · rwa [Function.update_of_ne hji] at hj
  have htraces : ∀ j, (t.phase j).taking = true → t.tracer = some j := by
    intro j hj
    exact htracer j (h.traces j (htaking j hj)) hj
  refine h.update hphase ?_ ?_ ?_ ?_ ?_ ?_
  · intro hp
    rw [hname]
    exact h.named i (hbelow.bound hp)
  · intro j _ hj
    rw [hname]
    exact h.named j hj
  · intro hp
    refine htraces i ?_
    rw [hphase, Function.update_self]
    exact hp
  · intro j hji hj
    refine htraces j ?_
    rw [hphase, Function.update_of_ne hji]
    exact hj
  · rintro (hp | hp) j hji
    · exact h.unbound_of_touching (hbelow.touching hp) hji
    · exact h.vacant i j (hbelow.binding hp)
  · intro hp j hji
    have hi := hbelow.bound hp
    refine ⟨?_, ?_⟩
    · cases hj : (w.phase j).touching with
      | false => rfl
      | true => exact absurd (h.apart j i hi hj).symm hji
    · intro hj
      rw [h.vacant j i hj] at hi
      cases hi

/-- While one monitor takes the name no other one does. -/
theorem Inv.not_taking (h : Inv w) {j : Nat} (hi : (w.phase i).taking = true) (hji : j ≠ i) :
    (w.phase j).taking = false := by
  cases hj : (w.phase j).taking with
  | false => rfl
  | true => exact absurd (Option.some.inj ((h.traces j hj).symm.trans (h.traces i hi))) hji

end Keeps

/-! ## Steps and runs -/

theorem Phase.cases_of_touching {p : Phase} (h : p.touching = true) :
    p.preparing = true ∨ p.taking = true ∨ p.isBound = true := by
  cases p with
  | truncating => exact Or.inl rfl
  | writing => exact Or.inl rfl
  | unlinking => exact Or.inr (Or.inl rfl)
  | running state => exact Or.inr (Or.inr rfl)
  | unborn => cases h
  | probing => cases h
  | seizing => cases h
  | binding => cases h
  | closed => cases h
  | dead => cases h

/-- A negative probe that got its socket found nobody bound. -/
theorem Inv.unbound_of_probe {w : World} (h : Inv w) {socketOk : Bool} {i : Nat}
    (hfits : Fits w (.probe i socketOk)) (hno : w.monitorIsRunning socketOk = false) (j : Nat) :
    (w.phase j).isBound = false := by
  cases hj : (w.phase j).isBound with
  | false => rfl
  | true =>
      have hname := h.named j hj
      cases socketOk with
      | false => exact absurd ⟨hname, hj⟩ (hfits j)
      | true =>
          simp only [World.monitorIsRunning, World.answered, hname, hj, Bool.and_self] at hno
          cases hno

section Taking

variable {w : World} {i : Nat}

/-- After its probe a monitor may touch the status file: nobody is bound. -/
theorem Inv.probed (h : Inv w) (hnone : ∀ j, (w.phase j).isBound = false) : Inv (w.advance i .truncating) := by
  refine h.update rfl nofun ?_ nofun ?_ ?_ nofun
  · intro j _ hj
    exact h.named j hj
  · intro j _ hj
    exact h.traces j hj
  · intro _ j _
    exact hnone j

/-- After its seize a monitor may unlink the name: nobody is bound, and nobody else traces init. -/
theorem Inv.seized (h : Inv w) (hfree : w.tracer = none) (hnone : ∀ j, (w.phase j).isBound = false) :
    Inv { w.advance i .unlinking with tracer := some i, seizures := i :: w.seizures } := by
  refine h.update rfl nofun ?_ ?_ ?_ ?_ nofun
  · intro j _ hj
    exact h.named j hj
  · intro _
    rfl
  · intro j _ hj
    exact absurd (hfree.symm.trans (h.traces j hj)) (by simp)
  · intro _ j _
    exact hnone j

/-- The unlink takes the name from nobody. -/
theorem Inv.unlinked (h : Inv w) (hp : w.phase i = .unlinking) (name : Option Nat) :
    Inv { w.advance i .binding with name := name } := by
  have htouching : (w.phase i).touching = true := by rw [hp]; rfl
  have htaking : (w.phase i).taking = true := by rw [hp]; rfl
  refine h.update rfl nofun ?_ ?_ ?_ ?_ nofun
  · intro j hji hj
    rw [h.unbound_of_touching htouching hji] at hj
    cases hj
  · intro _
    exact h.traces i htaking
  · intro j _ hj
    exact h.traces j hj
  · intro _ j hji
    exact h.unbound_of_touching htouching hji

/-- The bind of the only monitor that is taking the name, while nobody prepares. -/
theorem Inv.bound (h : Inv w) (hp : w.phase i = .binding) (hnone : ∀ j, (w.phase j).preparing = false) :
    Inv { w.advance i (.running .tracing) with name := some i } := by
  have htaking : (w.phase i).taking = true := by rw [hp]; rfl
  refine h.update rfl ?_ ?_ nofun ?_ ?_ ?_
  · intro _
    rfl
  · intro j _ hj
    rw [h.vacant i j hp] at hj
    cases hj
  · intro j _ hj
    exact h.traces j hj
  · intro _ j _
    exact h.vacant i j hp
  · intro _ j hji
    have hnot := h.not_taking htaking hji
    refine ⟨?_, ?_⟩
    · cases hj : (w.phase j).touching with
      | false => rfl
      | true =>
          -- a monitor that is about to touch something is preparing, taking the name or bound
          obtain hprep | htake | hbound := Phase.cases_of_touching hj
          · exact absurd (hnone j) (by simp [hprep])
          · exact absurd hnot (by simp [htake])
          · exact absurd (h.vacant i j hp) (by simp [hbound])
    · intro hj
      rw [hj] at hnot
      cases hnot

end Taking

/-- A step that fits keeps the invariant. -/
theorem Inv.step {w t : World} {a : Act} (h : Inv w) (hst : step w a = some t) (hfits : Fits w a) :
    Inv t := by
  cases step_move hst with
  | probed i socketOk _ hno ht =>
      rw [ht]
      exact h.probed (h.unbound_of_probe hfits hno)
  | seized i _ hfree ht =>
      rw [ht]
      exact h.seized hfree hfits
  | unlinked i ok hp ht =>
      rw [ht]
      exact h.unlinked hp _
  | bound i hp _ ht =>
      rw [ht]
      exact h.bound hp hfits
  | other _ i p _ hphase hbelow hname _ htracer => exact h.below hphase hbelow hname htracer

/-- Where the monitors exclude each other, one that has come to touch something finds nobody bound to the
name. -/
theorem Exclusive.unbound {w t : World} {i j : Nat} {p : Phase} (ht : Exclusive t)
    (hphase : t.phase = Function.update w.phase i p) (hp : p.touching = true)
    (hi : (w.phase i).isBound = false) (hname : t.name = some j) : (w.phase j).isBound = false := by
  cases hj : (w.phase j).isBound with
  | false => rfl
  | true =>
      have hne : j ≠ i := by
        rintro rfl
        rw [hi] at hj
        cases hj
      have howns : t.Owns j := by
        refine ⟨hname, ?_⟩
        rw [hphase, Function.update_of_ne hne]
        exact hj
      have htouching : (t.phase i).touching = true := by
        rw [hphase, Function.update_self]
        exact hp
      exact absurd (((exclusive_iff_phases t).mp ht).1 i j howns htouching) hne

/-- A step after which the monitors exclude each other fits. -/
theorem fits_of_exclusive {w t : World} {a : Act} (h : Inv w) (hst : step w a = some t)
    (ht : Exclusive t) : Fits w a := by
  cases step_move hst with
  | probed i socketOk hp _ hteq =>
      cases socketOk with
      | true => trivial
      | false =>
          subst hteq
          rintro j ⟨hname, hbound⟩
          rw [ht.unbound rfl rfl (by rw [hp]; rfl) hname] at hbound
          cases hbound
  | seized i hp _ hteq =>
      subst hteq
      intro j
      cases hj : (w.phase j).isBound with
      | false => rfl
      | true => exact hj.symm.trans (ht.unbound rfl rfl (by rw [hp]; rfl) (h.named j hj))
  | unlinked i ok _ _ => trivial
  | bound i hp _ hteq =>
      subst hteq
      intro j
      cases hj : (w.phase j).preparing with
      | false => rfl
      | true =>
          -- the one that prepares would touch the status file of the one that has bound
          have hne : j ≠ i := by
            rintro rfl
            rw [hp] at hj
            cases hj
          have howns : World.Owns { w.advance i (.running .tracing) with name := some i } i := by
            refine ⟨rfl, ?_⟩
            simp [World.advance, Phase.isBound]
          refine absurd (((exclusive_iff_phases _).mp ht).1 j i howns ?_).symm hne
          simp only [World.advance, Function.update_of_ne hne]
          exact Phase.touching_of_preparing hj
  | other _ i p hfits _ _ _ _ _ => exact hfits

/-- Over every run: the monitors exclude each other in every state exactly when every step is orderly. -/
theorem exclusive_iff (name status : Option Nat) (schedule : List Act) :
    ReplayOk step (fun w a => ∀ t, step w a = some t → Exclusive t) (starting name status) schedule ↔
      ReplayOk step Orderly (starting name status) schedule := by
  have hstart := inv_starting name status
  refine replayOk_states_iff (I := Inv) ?_ ?_ schedule hstart hstart.exclusive (replayOk_trivial schedule)
  · intro w a hw _ _
    constructor
    · intro h henabled
      obtain ⟨t, ht⟩ := Option.isSome_iff_exists.mp henabled
      exact fits_of_exclusive hw ht (h t ht)
    · intro h t ht
      have henabled : (step w a).isSome = true := by rw [ht]; rfl
      exact (hw.step ht (h henabled)).exclusive
  · intro w a t hw _ ht hst
    exact hw.step hst (fits_of_exclusive hw hst ht)

/-- Monitor 1 up to its bind, while monitor 2 has probed. -/
def lateRewrite : List Act :=
  [.spawn 1, .spawn 2, .probe 1 true, .probe 2 true, .truncate 1, .write 1 true, .seize 1 true,
    .unlink 1 true, .bind 1 true]

/-- Monitor 2 waits before its seize until monitor 1 is told to stop. -/
def stoppedOwner : List Act :=
  [.spawn 1, .spawn 2, .probe 1 true, .probe 2 true, .truncate 1, .truncate 2, .write 1 true, .write 2 true,
    .seize 1 true, .unlink 1 true, .bind 1 true, .command 1 .stop false, .detach 1 true, .seize 2 true,
    .unlink 2 true, .bind 2 true]

/-- Monitor 2 can empty the status file of monitor 1; and with a stop in between, two living monitors end up
bound. -/
theorem not_exclusive :
    (∃ w, replay step (starting none none) lateRewrite = some w ∧ ¬ Exclusive w) ∧
      ∃ w, replay step (starting none none) stoppedOwner = some w ∧ ¬ Exclusive w := by
  refine ⟨⟨_, rfl, ?_⟩, ⟨_, rfl, ?_⟩⟩
  · intro h
    have htwo : (1 : Nat) = 2 := h.untouched (.truncate 2) _ 2 rfl rfl 1 ⟨rfl, rfl⟩
    omega
  · intro h
    have htwo : (1 : Nat) = 2 := h.single 1 2 rfl rfl
    omega

end NeoZygisk.Monitor.Startup
