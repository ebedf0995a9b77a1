import NeoZygisk.Monitor.Startup

/-!
# The hot install

`hot_install` stops the monitor of the previous version, starts its own and waits until "the new monitor
answers its control socket". It learns of both only indirectly. That the old monitor is gone it takes from
init being untraced, which is also the case when that monitor was stopped earlier, and when the wait runs out
it goes on all the same. That the new one is up it takes from the name being answered, which the old monitor
does as well as the new one, which then stands down.

`replaced_iff`: in every interleaving of the stage with the monitors before it and the one it starts, a
reported success means that this one has seized init and owns the name exactly when no earlier monitor owns
the name any more at the first look `wait_for_monitor` gets at it. A monitor that has given up the name never
gets it back, so the looks after the first one need no condition.
-/

set_option autoImplicit false

namespace NeoZygisk.Monitor.HotInstall

open NeoZygisk.Lib.Transition
open NeoZygisk.Monitor.Startup

/-! ## The stage -/

/-- Where `hot_install` stands; the numbers are the attempts made so far. `looked` says that an earlier poll of
`wait_for_monitor` had its socket. The stage does not know it; it is there for the statement. -/
inductive Stage where
  | checking
  | stopping
  | sending (attempt : Nat)
  | untracing (attempt : Nat)
  | installing
  | waiting (attempt : Nat) (looked : Bool)
  | returned (success : Bool)
  deriving DecidableEq, Repr

/-- `kSendRetries`. -/
def sendRetries : Nat := 10

/-- `kAttempts`, of `stop_monitor` and of `wait_for_monitor`. -/
def attempts : Nat := 50

/-- The monitor that the stage starts. All others are earlier ones. -/
def mine : Nat := 0

/-- The monitors, the commands in flight to their sockets, the module's `disable` mark and the stage. -/
structure HotWorld where
  monitors : Startup.World
  inbox : Nat → List Control
  disabled : Bool
  stage : Stage

namespace HotWorld

variable (w : HotWorld)

/-- The stage goes on. -/
def enter (s : Stage) : HotWorld := { w with stage := s }

/-- The monitor that a datagram to the name reaches. -/
def owner : Option Nat :=
  match w.monitors.name with
  | some j => if (w.monitors.phase j).isBound then some j else none
  | none => none

/-- A command arrives at the socket of monitor `j`. -/
def push (j : Nat) (c : Control) : HotWorld :=
  { w with inbox := Function.update w.inbox j (w.inbox j ++ [c]) }

/-- `send_control_command(EXIT)` in `stop_monitor`, one attempt. Nobody at the name is worth another try; any
other error is not. -/
def sendExit (attempt : Nat) (ok : Bool) : HotWorld :=
  if ok then
    match w.owner with
    | some j => (w.push j .exit).enter (.untracing 0)
    | none => if attempt + 1 < sendRetries then w.enter (.sending (attempt + 1)) else w.enter .installing
  else w.enter .installing

/-- `get_tracer_pid(1) <= 0`, which is also what an unreadable status gives. -/
def untraced (ok : Bool) : Bool := !ok || decide (w.monitors.tracer = none)

/-- One poll of `stop_monitor`. Its result is ignored, so both ways out lead to the install. -/
def pollTracer (attempt : Nat) (ok : Bool) : HotWorld :=
  if w.untraced ok then w.enter .installing
  else if attempt + 1 < attempts then w.enter (.untracing (attempt + 1))
  else w.enter .installing

/-- `install`: the files, then the fork of the new monitor. -/
def install (ok : Bool) : Option HotWorld :=
  if ok then
    (Startup.step w.monitors (.spawn mine)).map fun m =>
      { w with monitors := m, stage := .waiting 0 false }
  else some (w.enter (.returned false))

/-- One poll of `wait_for_monitor`. -/
def pollMonitor (attempt : Nat) (looked socketOk : Bool) : HotWorld :=
  if w.monitors.monitorIsRunning socketOk then w.enter (.returned true)
  else if attempt + 1 < attempts then w.enter (.waiting (attempt + 1) (looked || socketOk))
  else w.enter (.returned false)

/-- The next step of `hot_install`, with the outcome of its system call. -/
def stageStep (ok : Bool) : Option HotWorld :=
  match w.stage with
  | .checking => some (w.enter (if w.disabled then .returned true else .stopping))
  | .stopping => some (w.enter (if w.monitors.monitorIsRunning ok then .sending 0 else .installing))
  | .sending attempt => some (w.sendExit attempt ok)
  | .untracing attempt => some (w.pollTracer attempt ok)
  | .installing => w.install ok
  | .waiting attempt looked => some (w.pollMonitor attempt looked ok)
  | .returned _ => none

/-- A monitor takes the next command from its socket. -/
def handleNext (i : Nat) (seizeOk : Bool) : Option HotWorld :=
  match w.inbox i with
  | [] => none
  | c :: rest =>
      (Startup.step w.monitors (.command i c seizeOk)).map fun m =>
        { w with monitors := m, inbox := Function.update w.inbox i rest }

end HotWorld

/-- The stage takes a step, a monitor takes one of its own, a monitor handles a command, or somebody else sends
one to the name. -/
inductive Label where
  | stage (ok : Bool)
  | monitor (a : Act)
  | handle (i : Nat) (seizeOk : Bool)
  | send (c : Control)

/-- Monitors are started by the stage only, and commands come through the socket. -/
def ownStep : Act → Bool
  | .spawn _ => false
  | .command _ _ _ => false
  | _ => true

def hotStep (w : HotWorld) : Label → Option HotWorld
  | .stage ok => w.stageStep ok
  | .monitor a =>
      if ownStep a then (Startup.step w.monitors a).map fun m => { w with monitors := m } else none
  | .handle i seizeOk => w.handleNext i seizeOk
  | .send c => w.owner.map fun j => w.push j c

/-- An earlier monitor when the stage starts: in its event loop, in any tracing state, on its way out, or
gone. -/
inductive Earlier where
  | running (state : TracingState)
  | closed
  | dead

def Earlier.phase : Earlier → Phase
  | running state => .running state
  | closed => .closed
  | dead => .dead

/-- The system before the hot install: any monitors, any tracer, any name and any commands in flight. -/
def before (earlier : Nat → Earlier) (tracer name status : Option Nat) (inbox : Nat → List Control)
    (disabled : Bool) : HotWorld where
  monitors :=
    { phase := fun i => if i = mine then .unborn else (earlier i).phase
      tracer := tracer
      name := name
      status := status
      seizures := [] }
  inbox := inbox
  disabled := disabled
  stage := .checking

/-! ## Replacement -/

/-- The monitor of this call has seized init and owns the name, and no earlier one does. -/
structure Replaced (w : HotWorld) : Prop where
  seized : mine ∈ w.monitors.seizures
  owns : w.monitors.Owns mine
  alone : ∀ j, j ≠ mine → ¬ w.monitors.Owns j

/-- A step in which `hot_install` returns `EXIT_SUCCESS` on a module that is not disabled leaves a system in
which the monitor has been replaced. -/
def SuccessIsReal (w : HotWorld) (a : Label) : Prop :=
  ∀ t, hotStep w a = some t → w.disabled = false → w.stage ≠ .returned true → t.stage = .returned true →
    Replaced t

/-- No earlier monitor owns the name. -/
def Released (w : HotWorld) : Prop := ∀ j, j ≠ mine → ¬ w.monitors.Owns j

/-- At the first look of `wait_for_monitor` no earlier monitor owns the name. -/
def ReleasedAtFirstLook (w : HotWorld) : Label → Prop
  | .stage true => ∀ attempt, w.stage = .waiting attempt false → Released w
  | _ => True

/-! ## The monitors -/

/-- The earlier monitors do not start again, and the one of this call passes its seize on the way to its
socket. -/
structure Settled (m : Startup.World) : Prop where
  settled : ∀ j, j ≠ mine → (m.phase j).settled = true
  seized : (m.phase mine).taking = true ∨ (m.phase mine).isBound = true → mine ∈ m.seizures

/-- A monitor that is starting is the one of this call. -/
theorem Settled.eq_mine {m : Startup.World} (h : Settled m) {i : Nat}
    (hi : (m.phase i).settled = false) : i = mine := by
  by_contra hne
  rw [h.settled i hne] at hi
  cases hi

/-- A step of the monitor of this call, after which no earlier monitor has a name it did not have. -/
theorem Settled.of_mine {m m' : Startup.World} {p : Phase} (h : Settled m)
    (hphase : m'.phase = Function.update m.phase mine p)
    (hseized : p.taking = true ∨ p.isBound = true → mine ∈ m'.seizures)
    (hname : ∀ j, j ≠ mine → m'.name = some j → m.name = some j) :
    Settled m' ∧ ∀ j, j ≠ mine → m'.Owns j → m.Owns j := by
  have hothers : ∀ j, j ≠ mine → m'.phase j = m.phase j := by
    intro j hj
    rw [hphase, Function.update_of_ne hj]
  refine ⟨⟨?_, ?_⟩, ?_⟩
  · intro j hj
    rw [hothers j hj]
    exact h.settled j hj
  · rw [hphase, Function.update_self]
    exact hseized
  · rintro j hj ⟨hj', hbound⟩
    rw [hothers j hj] at hbound
    exact ⟨hname j hj hj', hbound⟩

/-- What a step of a monitor keeps; and no earlier monitor gets a name it did not have. -/
theorem Settled.step {m m' : Startup.World} {a : Act} (h : Settled m) (hst : Startup.step m a = some m') :
    Settled m' ∧ ∀ j, j ≠ mine → m'.Owns j → m.Owns j := by
  -- the steps of the start are taken by the monitor of this call
  cases step_move hst with
  | probed i socketOk hp _ ht =>
      subst ht
      obtain rfl := h.eq_mine (i := i) (by rw [hp]; rfl)
      exact h.of_mine rfl (by simp [Phase.taking, Phase.isBound]) fun _ _ => id
  | seized i hp _ ht =>
      subst ht
      obtain rfl := h.eq_mine (i := i) (by rw [hp]; rfl)
      exact h.of_mine rfl (fun _ => List.mem_cons_self) fun _ _ => id
  | unlinked i ok hp ht =>
      subst ht
      obtain rfl := h.eq_mine (i := i) (by rw [hp]; rfl)
      have hmine : mine ∈ m.seizures := h.seized (Or.inl (by rw [hp]; rfl))
      refine h.of_mine rfl (fun _ => hmine) ?_
      intro j _ hj
      cases ok with
      | false => exact hj
      | true => cases hj
  | bound i hp _ ht =>
      subst ht
      obtain rfl := h.eq_mine (i := i) (by rw [hp]; rfl)
      have hmine : mine ∈ m.seizures := h.seized (Or.inl (by rw [hp]; rfl))
      refine h.of_mine rfl (fun _ => hmine) ?_
      intro j hj hj'
      exact absurd (Option.some.inj hj').symm hj
  | other _ i p _ hphase hbelow hname hseizures _ =>
      have hphases : ∀ j, m'.phase j = m.phase j ∨ j = i ∧ m'.phase j = p := by
        intro j
        rw [hphase]
        by_cases hji : j = i
        · subst hji
          exact Or.inr ⟨rfl, Function.update_self j p m.phase⟩
        · exact Or.inl (Function.update_of_ne hji p m.phase)
      refine ⟨⟨?_, ?_⟩, ?_⟩
      · intro j hj
        obtain hsame | ⟨rfl, hp⟩ := hphases j
        · rw [hsame]
          exact h.settled j hj
        · rw [hp]
          exact hbelow.settled (h.settled j hj)
      · intro hmine
        rw [hseizures]
        obtain hsame | ⟨rfl, hp⟩ := hphases mine
        · rw [hsame] at hmine
          exact h.seized hmine
        · rw [hp] at hmine
          exact h.seized (hmine.imp hbelow.taking hbelow.bound)
      · rintro j _ ⟨hj, hbound⟩
        refine ⟨hname.symm.trans hj, ?_⟩
        obtain hsame | ⟨rfl, hp⟩ := hphases j
        · rwa [hsame] at hbound
        · rw [hp] at hbound
          exact hbelow.bound hbound

/-! ## The stage's steps -/

/-- Between the check of the mark and the return. -/
def Stage.active : Stage → Bool
  | .checking => false
  | .returned _ => false
  | _ => true

/-- What orderly runs keep: the monitors are as `Settled` says, a disabled module stops the stage at once, and
once the stage has looked at the name no earlier monitor owns it. -/
structure Inv (w : HotWorld) : Prop where
  monitors : Settled w.monitors
  enabled : w.stage.active = true → w.disabled = false
  looked : ∀ attempt, w.stage = .waiting attempt true → Released w

theorem inv_before (earlier : Nat → Earlier) (tracer name status : Option Nat)
    (inbox : Nat → List Control) (disabled : Bool) :
    Inv (before earlier tracer name status inbox disabled) where
  monitors :=
    { settled := by
        intro j hj
        simp only [before, if_neg hj]
        cases earlier j <;> rfl
      seized := nofun }
  enabled := nofun
  looked := nofun

/-- A step of the stage is a poll of `wait_for_monitor`, the install, the return on a disabled module, or one
that leads on without touching the monitors. -/
inductive StageMove (w t : HotWorld) (ok : Bool) : Prop where
  | polled (attempt : Nat) (looked : Bool) (hs : w.stage = .waiting attempt looked)
      (ht : t = w.pollMonitor attempt looked ok)
  | installed (hs : w.stage = .installing) (hm : Startup.step w.monitors (.spawn mine) = some t.monitors)
      (hd : t.disabled = w.disabled) (ht : t.stage = .waiting 0 false)
  | skipped (hs : w.stage = .checking) (hd : w.disabled = true) (ht : t = w.enter (.returned true))
  | onward (hs : ∀ attempt looked, w.stage ≠ .waiting attempt looked) (hm : t.monitors = w.monitors)
      (hd : t.disabled = w.disabled) (hactive : t.stage.active = true → w.disabled = true → w.stage.active = true)
      (ht : ∀ attempt looked, t.stage ≠ .waiting attempt looked) (hr : t.stage ≠ .returned true)

section StageMove

variable {w t : HotWorld} {ok : Bool}

/-- The stage goes to a stage that is neither a wait nor a success. -/
theorem StageMove.enter {s : Stage} (hs : ∀ attempt looked, w.stage ≠ .waiting attempt looked)
    (hactive : w.disabled = true → w.stage.active = true) (ht : ∀ attempt looked, s ≠ .waiting attempt looked)
    (hr : s ≠ .returned true) : StageMove w (w.enter s) ok :=
  .onward hs rfl rfl (fun _ => hactive) ht hr

theorem stageStep_move (h : w.stageStep ok = some t) : StageMove w t ok := by
  unfold HotWorld.stageStep at h
  cases hs : w.stage with
  | checking =>
      simp only [hs] at h
      obtain rfl := Option.some.inj h
      cases hd : w.disabled with
      | true => exact .skipped hs hd rfl
      | false =>
          refine .enter (by simp [hs]) ?_ nofun nofun
          intro hdisabled
          rw [hd] at hdisabled
          cases hdisabled
  | stopping =>
      simp only [hs] at h
      obtain rfl := Option.some.inj h
      cases w.monitors.monitorIsRunning ok <;>
        exact .enter (by simp [hs]) (fun _ => by rw [hs]; rfl) nofun nofun
  | sending attempt =>
      simp only [hs, HotWorld.sendExit] at h
      obtain rfl := Option.some.inj h
      have hactive : w.stage.active = true := by rw [hs]; rfl
      have hnot : ∀ k looked, w.stage ≠ .waiting k looked := by simp [hs]
      cases ok with
      | false => exact .enter hnot (fun _ => hactive) nofun nofun
      | true =>
          cases howner : w.owner with
          | some j => exact .onward hnot rfl rfl (fun _ _ => hactive) nofun nofun
          | none =>
              simp only [if_true]
              split_ifs <;> exact .enter hnot (fun _ => hactive) nofun nofun
  | untracing attempt =>
      simp only [hs, HotWorld.pollTracer] at h
      obtain rfl := Option.some.inj h
      have hactive : w.stage.active = true := by rw [hs]; rfl
      split_ifs <;> exact .enter (by simp [hs]) (fun _ => hactive) nofun nofun
  | installing =>
      simp only [hs, HotWorld.install] at h
      have hactive : w.stage.active = true := by rw [hs]; rfl
      cases ok with
      | false =>
          obtain rfl := Option.some.inj h
          exact .enter (by simp [hs]) (fun _ => hactive) nofun nofun
      | true =>
          obtain ⟨m, hm, rfl⟩ := Option.map_eq_some_iff.mp h
          exact .installed hs hm rfl rfl
  | waiting attempt looked =>
      simp only [hs] at h
      exact .polled attempt looked hs (Option.some.inj h).symm
  | returned success =>
      simp only [hs] at h
      cases h

end StageMove

/-- The other steps leave the stage where it is, and a monitor takes at most one of its own. -/
theorem hotStep_other {w t : HotWorld} {a : Label} (ha : ∀ ok, a ≠ .stage ok) (h : hotStep w a = some t) :
    t.stage = w.stage ∧ t.disabled = w.disabled ∧
      (t.monitors = w.monitors ∨ ∃ act, Startup.step w.monitors act = some t.monitors) := by
  cases a with
  | stage ok => exact absurd rfl (ha ok)
  | monitor act =>
      simp only [hotStep] at h
      split_ifs at h with hown
      obtain ⟨m, hm, rfl⟩ := Option.map_eq_some_iff.mp h
      exact ⟨rfl, rfl, Or.inr ⟨act, hm⟩⟩
  | handle i seizeOk =>
      simp only [hotStep, HotWorld.handleNext] at h
      cases hinbox : w.inbox i with
      | nil =>
          simp only [hinbox] at h
          cases h
      | cons c rest =>
          simp only [hinbox] at h
          obtain ⟨m, hm, rfl⟩ := Option.map_eq_some_iff.mp h
          exact ⟨rfl, rfl, Or.inr ⟨_, hm⟩⟩
  | send c =>
      simp only [hotStep] at h
      obtain ⟨j, -, rfl⟩ := Option.map_eq_some_iff.mp h
      exact ⟨rfl, rfl, Or.inl rfl⟩

section Poll

variable {w : HotWorld} {attempt : Nat} {looked ok : Bool}

@[simp] theorem monitors_pollMonitor : (w.pollMonitor attempt looked ok).monitors = w.monitors := by
  unfold HotWorld.pollMonitor
  split_ifs <;> rfl

@[simp] theorem disabled_pollMonitor : (w.pollMonitor attempt looked ok).disabled = w.disabled := by
  unfold HotWorld.pollMonitor
  split_ifs <;> rfl

/-- A poll succeeds when it is answered. -/
theorem pollMonitor_returned :
    (w.pollMonitor attempt looked ok).stage = .returned true ↔ w.monitors.monitorIsRunning ok = true := by
  unfold HotWorld.pollMonitor
  split_ifs with hrun hmore
  · simp [HotWorld.enter, hrun]
  · simp [HotWorld.enter, hrun]
  · simp [HotWorld.enter, hrun]

/-- A poll that leads to another one has looked if it, or one before it, had its socket. -/
theorem pollMonitor_waiting {k : Nat}
    (h : (w.pollMonitor attempt looked ok).stage = .waiting k true) : looked = true ∨ ok = true := by
  unfold HotWorld.pollMonitor at h
  split_ifs at h with hrun hmore
  · cases h
  · have hlooked : (looked || ok) = true := (Stage.waiting.inj h).2
    exact Bool.or_eq_true_iff.mp hlooked
  · cases h

/-- The name is answered by its owner. -/
theorem answered_iff (m : Startup.World) : m.answered = true ↔ ∃ j, m.Owns j := by
  unfold World.answered World.Owns
  cases hname : m.name with
  | none => simp
  | some j => simp

end Poll

/-- Every step that meets the condition keeps the invariant. -/
theorem Inv.step {w t : HotWorld} {a : Label} (h : Inv w) (hst : hotStep w a = some t)
    (hQ : ReleasedAtFirstLook w a) : Inv t := by
  by_cases ha : ∃ ok, a = .stage ok
  · obtain ⟨ok, rfl⟩ := ha
    cases stageStep_move hst with
    | polled attempt looked hs ht =>
        subst ht
        have hmon : Released w → Released (w.pollMonitor attempt looked ok) := by
          intro hrel j hj
          rw [monitors_pollMonitor]
          exact hrel j hj
        refine ⟨?_, ?_, ?_⟩
        · rw [monitors_pollMonitor]
          exact h.monitors
        · intro _
          rw [disabled_pollMonitor]
          exact h.enabled (by rw [hs]; rfl)
        · intro k hk
          -- the name was released when the stage first looked, now or before
          cases looked with
          | true => exact hmon (h.looked attempt hs)
          | false =>
              obtain hfalse | rfl := pollMonitor_waiting hk
              · cases hfalse
              · exact hmon (hQ attempt hs)
    | installed hs hm hd ht =>
        refine ⟨(h.monitors.step hm).1, ?_, ?_⟩
        · intro _
          rw [hd]
          exact h.enabled (by rw [hs]; rfl)
        · intro k hk
          rw [ht] at hk
          cases hk
    | skipped _ _ ht =>
        subst ht
        exact ⟨h.monitors, nofun, nofun⟩
    | onward _ hm hd hactive ht _ =>
        refine ⟨?_, ?_, ?_⟩
        · rw [hm]
          exact h.monitors
        · intro hact
          rw [hd]
          cases hdis : w.disabled with
          | false => rfl
          | true => exact hdis.symm.trans (h.enabled (hactive hact hdis))
        · intro k hk
          exact absurd hk (ht k true)
  · have hother : ∀ ok, a ≠ .stage ok := fun ok hok => ha ⟨ok, hok⟩
    obtain ⟨hstage, hd, hm⟩ := hotStep_other hother hst
    have hsettled : Settled t.monitors ∧ ∀ j, j ≠ mine → t.monitors.Owns j → w.monitors.Owns j := by
      obtain hm | ⟨act, hm⟩ := hm
      · rw [hm]
        exact ⟨h.monitors, fun _ _ howns => howns⟩
      · exact h.monitors.step hm
    refine ⟨hsettled.1, ?_, ?_⟩
    · rw [hstage, hd]
      exact h.enabled
    · intro k hk j hj howns
      rw [hstage] at hk
      exact h.looked k hk j hj (hsettled.2 j hj howns)

/-- A poll that succeeds while no earlier monitor owns the name has found the new one. -/
theorem Inv.replaced {w : HotWorld} (h : Inv w) (hrel : Released w) {ok : Bool}
    (hrun : w.monitors.monitorIsRunning ok = true) {attempt : Nat} {looked : Bool} :
    Replaced (w.pollMonitor attempt looked ok) := by
  obtain ⟨j, hj⟩ := (answered_iff w.monitors).mp (Bool.and_eq_true_iff.mp hrun).2
  obtain rfl : j = mine := by
    by_contra hne
    exact hrel j hne hj
  refine ⟨?_, ?_, ?_⟩
  · rw [monitors_pollMonitor]
    exact h.monitors.seized (Or.inr hj.2)
  · rw [monitors_pollMonitor]
    exact hj
  · intro k hk
    rw [monitors_pollMonitor]
    exact hrel k hk

/-- In one step, success is real exactly under the condition. -/
theorem successIsReal_iff {w : HotWorld} (h : Inv w) (a : Label) :
    SuccessIsReal w a ↔ ReleasedAtFirstLook w a := by
  constructor
  · intro hreal
    cases a with
    | stage ok =>
        cases ok with
        | false => trivial
        | true =>
            intro attempt hs j hj howns
            -- with an earlier owner the poll is answered at once
            have hst : hotStep w (.stage true) = some (w.pollMonitor attempt false true) := by
              simp only [hotStep, HotWorld.stageStep, hs]
            have hrun : w.monitors.monitorIsRunning true = true := by
              rw [World.monitorIsRunning, Bool.true_and]
              exact (answered_iff w.monitors).mpr ⟨j, howns⟩
            have henabled := h.enabled (by rw [hs]; rfl)
            have hreplaced := hreal _ hst henabled (by simp [hs]) (pollMonitor_returned.mpr hrun)
            have halone := hreplaced.alone j hj
            rw [monitors_pollMonitor] at halone
            exact halone howns
    | monitor act => trivial
    | handle i seizeOk => trivial
    | send c => trivial
  · intro hQ t hst henabled hnot hreturned
    by_cases ha : ∃ ok, a = .stage ok
    · obtain ⟨ok, rfl⟩ := ha
      cases stageStep_move hst with
      | polled attempt looked hs ht =>
          subst ht
          have hrun := pollMonitor_returned.mp hreturned
          have hok : ok = true := (Bool.and_eq_true_iff.mp hrun).1
          subst hok
          cases looked with
          | true => exact h.replaced (h.looked attempt hs) hrun
          | false => exact h.replaced (hQ attempt hs) hrun
      | installed _ _ _ ht =>
          rw [ht] at hreturned
          cases hreturned
      | skipped _ hd _ =>
          rw [henabled] at hd
          cases hd
      | onward _ _ _ _ _ hr => exact absurd hreturned hr
    · have hother : ∀ ok, a ≠ .stage ok := fun ok hok => ha ⟨ok, hok⟩
      obtain ⟨hstage, -, -⟩ := hotStep_other hother hst
      rw [hstage] at hreturned
      exact absurd hreturned hnot

/-- Over every run: whenever `hot_install` reports success the monitor has been replaced, exactly when at the
first look no earlier monitor owns the name. -/
theorem replaced_iff (earlier : Nat → Earlier) (tracer name status : Option Nat)
    (inbox : Nat → List Control) (disabled : Bool) (schedule : List Label) :
    ReplayOk hotStep SuccessIsReal (before earlier tracer name status inbox disabled) schedule ↔
      ReplayOk hotStep ReleasedAtFirstLook (before earlier tracer name status inbox disabled) schedule := by
  refine replayOk_iff (I := Inv) ?_ ?_ schedule (inv_before earlier tracer name status inbox disabled)
    (replayOk_trivial schedule)
  · intro w a hw _
    exact successIsReal_iff hw a
  · intro w a t hw _ hreal hst
    exact hw.step hst ((successIsReal_iff hw a).mp hreal)

/-- One earlier monitor, stopped: it owns the name and traces nothing. -/
def stoppedBefore : HotWorld :=
  before (fun i => if i = 1 then .running .stopped else .dead) none (some 1) none (fun _ => []) false

/-- The stage alone: the mark, the probe, the EXIT, the tracer of init, the install and the first look. -/
def quickStage : List Label :=
  [.stage true, .stage true, .stage true, .stage true, .stage true, .stage true]

/-- The stopped monitor has not read its EXIT yet and answers for the new one, which has not even probed. -/
theorem unreplaced_success :
    ∃ t, replay hotStep stoppedBefore quickStage = some t ∧ t.disabled = false ∧
      t.stage = .returned true ∧ t.monitors.Owns 1 ∧ ¬ Replaced t := by
  refine ⟨_, rfl, rfl, rfl, ⟨rfl, rfl⟩, ?_⟩
  intro hreplaced
  exact absurd hreplaced.seized nofun

end NeoZygisk.Monitor.HotInstall
