import Mathlib.Tactic.SplitIfs
import Mathlib.Tactic.Tauto
import NeoZygisk.Lib.Transition

/-!
# The companion of a module

A companion is a process of its own. The daemon forwards the sockets of the clients over one socket, and
`run_companion` acknowledges each of them and starts a thread for it. The loop returns when that socket is
closed, when nothing can be received from it, and also when a single client cannot be served: a client that
hung up before its acknowledgement ends the process, and with it the threads of all the others. It serves as
long as every client it receives is still there (`serves_iff`).
-/

set_option autoImplicit false

namespace NeoZygisk.Daemon.Companion

open NeoZygisk.Lib.Transition

/-- The socket of a client. -/
abbrev Client := Nat

/-! ## The process -/

/-- How `run_companion` returned. -/
inductive Ending where
  /-- The module has no entry point, or the companion could not be set up. -/
  | notSetUp
  /-- `is_socket_alive` answered false. -/
  | notAlive
  | receiveFailed
  /-- `write_u8(1)` failed on the socket of a client. -/
  | ackFailed (client : Client)
  /-- `thread::spawn` panicked. -/
  | spawnFailed (client : Client)
  deriving DecidableEq, Repr

/-- Where `run_companion` is. -/
inductive Stage where
  | setup
  | polling
  | receiving
  | acknowledging (client : Client)
  | spawning (client : Client)
  | ended (e : Ending)
  deriving DecidableEq, Repr

/-- The client whose socket the loop holds. -/
def Stage.inHand : Stage → List Client
  | .acknowledging client | .spawning client => [client]
  | _ => []

/-- The companion answered 1 and has not returned. -/
def Stage.serving : Stage → Bool
  | .setup | .ended _ => false
  | _ => true

/-- A companion, its daemon and its clients. -/
structure World where
  stage : Stage
  /-- The daemon has its end of the socket. -/
  daemonOpen : Bool
  /-- The client sockets on the way from the daemon. -/
  inbox : List Client
  /-- The clients a thread runs for. -/
  handlers : List Client
  /-- The clients whose thread is through. -/
  finished : List Client
  /-- All the clients the daemon forwarded. -/
  forwarded : List Client
  /-- The clients that closed their end. -/
  gone : List Client

def start : World := ⟨.setup, true, [], [], [], [], []⟩

inductive Act where
  /-- The companion loads the module and answers the daemon; `none` if a read or the answer failed. -/
  | setUp (answer : Option Bool)
  | forward (client : Client)
  | closeDaemon
  | disconnect (client : Client)
  /-- `is_socket_alive`; `failed` if `poll` returned an error. -/
  | poll (failed : Bool)
  | receive (failed : Bool)
  | acknowledge
  | spawn (started : Bool)
  /-- The thread of a client comes to its end. -/
  | finish (client : Client)
  deriving DecidableEq, Repr

namespace World

/-- `run_companion` returns and the process exits: every thread ends, and every socket it holds is closed. -/
def exit (w : World) (e : Ending) : World := { w with stage := .ended e, inbox := [], handlers := [] }

/-- The clients that are connected to the companion. -/
def held (w : World) : List Client := w.stage.inHand ++ w.inbox ++ w.handlers

end World

/-- A socket is forwarded once, and only to a companion that answered 1. When the daemon has closed its end,
the poll sees the hangup in front of what is still to be received. -/
def step (w : World) : Act → Option World
  | .setUp answer =>
      if w.stage = .setup then
        some (if answer = some true then { w with stage := .polling } else w.exit .notSetUp)
      else none
  | .forward client =>
      if w.daemonOpen = true ∧ w.stage.serving = true ∧ client ∉ w.forwarded then
        some { w with inbox := w.inbox ++ [client], forwarded := w.forwarded ++ [client] }
      else none
  | .closeDaemon => some { w with daemonOpen := false }
  | .disconnect client => some { w with gone := client :: w.gone }
  | .poll failed =>
      if w.stage = .polling then
        some (if failed = true ∨ w.daemonOpen = false then w.exit .notAlive
          else { w with stage := .receiving })
      else none
  | .receive failed =>
      if w.stage = .receiving then
        if failed then some (w.exit .receiveFailed)
        else
          match w.inbox with
          | client :: rest => some { w with stage := .acknowledging client, inbox := rest }
          | [] => if w.daemonOpen then none else some (w.exit .receiveFailed)
      else none
  | .acknowledge =>
      match w.stage with
      | .acknowledging client =>
          some (if client ∈ w.gone then w.exit (.ackFailed client)
            else { w with stage := .spawning client })
      | _ => none
  | .spawn started =>
      match w.stage with
      | .spawning client =>
          some (if started then { w with stage := .polling, handlers := client :: w.handlers }
            else w.exit (.spawnFailed client))
      | _ => none
  | .finish client =>
      if client ∈ w.handlers then
        some { w with handlers := w.handlers.erase client, finished := client :: w.finished }
      else none

/-! ## Serving -/

/-- The endings a companion is meant to have. -/
def World.permits (w : World) : Ending → Prop
  | .notSetUp | .receiveFailed => True
  | .notAlive => w.daemonOpen = false
  | .ackFailed _ | .spawnFailed _ => False

/-- The companion stops only because of the daemon's socket, and until then a client that was forwarded is
connected to it, or its own thread has finished with it. -/
structure Serves (w : World) : Prop where
  stops : ∀ e, w.stage = .ended e → w.permits e
  connected : ∀ client ∈ w.forwarded,
    client ∈ w.held ∨ client ∈ w.finished ∨ ∃ e, w.stage = .ended e

/-- A step that leaves the companion to serve the others: the poll does not fail on an open socket, the client
is there for its acknowledgement, and a thread can be had for it. -/
def Untroubled (w : World) : Act → Prop
  | .poll failed => w.stage = .polling → failed = true → w.daemonOpen = false
  | .acknowledge => ∀ client, w.stage = .acknowledging client → client ∉ w.gone
  | .spawn started => ∀ client, w.stage = .spawning client → started = true
  | _ => True

section Step

variable {w t : World} {a : Act} {e : Ending} {client : Client}

theorem serves_start : Serves start := by
  constructor
  · intro e he
    cases he
  · intro client hclient
    cases hclient

/-- After its exit a companion serves exactly if it was meant to end so. -/
theorem serves_exit_iff : Serves (w.exit e) ↔ w.permits e := by
  have hpermits : (w.exit e).permits e ↔ w.permits e := by
    cases e with
    | notSetUp | notAlive | receiveFailed | ackFailed client | spawnFailed client => exact Iff.rfl
  constructor
  · intro hserves
    exact hpermits.mp (hserves.stops e rfl)
  · intro hallowed
    refine ⟨fun e' he => ?_, fun client _ => .inr (.inr ⟨e, rfl⟩)⟩
    cases he
    exact hpermits.mpr hallowed

/-- A step that neither ends the companion nor takes a client away from it. -/
theorem Serves.mono (h : Serves w) (hstage : ∀ e, t.stage = .ended e ↔ w.stage = .ended e)
    (hopen : w.daemonOpen = false → t.daemonOpen = false)
    (hforwarded : ∀ client ∈ t.forwarded, client ∈ w.forwarded ∨ client ∈ t.held)
    (hheld : ∀ client ∈ w.held, client ∈ t.held ∨ client ∈ t.finished)
    (hfinished : ∀ client ∈ w.finished, client ∈ t.finished) : Serves t := by
  constructor
  · intro e he
    have hallowed := h.stops e ((hstage e).mp he)
    cases e with
    | notAlive => exact hopen hallowed
    | notSetUp | receiveFailed | ackFailed client | spawnFailed client => exact hallowed
  · intro client hclient
    rcases hforwarded client hclient with hold | hnew
    · rcases h.connected client hold with hc | hc | ⟨e, he⟩
      · exact (hheld client hc).imp_right .inl
      · exact .inr (.inl (hfinished client hc))
      · exact .inr (.inr ⟨e, (hstage e).mpr he⟩)
    · exact .inl hnew

/-- The steps of the clients and of the daemon, and of the threads. -/
theorem serves_outside (h : Serves w)
    (hact : a = .closeDaemon ∨ (∃ client, a = .disconnect client ∨ a = .forward client ∨ a = .finish client))
    (hstep : step w a = some t) : Serves t := by
  rcases hact with rfl | ⟨client, rfl | rfl | rfl⟩
  · cases hstep
    exact h.mono (fun _ => Iff.rfl) (fun _ => rfl) (fun _ hc => .inl hc) (fun _ hc => .inl hc) fun _ hc => hc
  · cases hstep
    exact h.mono (fun _ => Iff.rfl) id (fun _ hc => .inl hc) (fun _ hc => .inl hc) fun _ hc => hc
  · simp only [step, Option.ite_none_right_eq_some, Option.some.injEq] at hstep
    obtain ⟨-, rfl⟩ := hstep
    refine h.mono (fun _ => Iff.rfl) id (fun c hc => ?_) (fun c hc => .inl ?_) fun _ hc => hc
    · simp only [World.held, List.mem_append] at hc ⊢
      tauto
    · simp only [World.held, List.mem_append] at hc ⊢
      tauto
  · simp only [step, Option.ite_none_right_eq_some, Option.some.injEq] at hstep
    obtain ⟨-, rfl⟩ := hstep
    refine h.mono (fun _ => Iff.rfl) id (fun _ hc => .inl hc) (fun c hc => ?_)
      fun _ hc => List.mem_cons_of_mem client hc
    -- the client of the thread is through, every other one is still held
    by_cases hself : c = client
    · exact .inr (hself ▸ List.mem_cons_self)
    · simp only [World.held, List.mem_append, List.mem_erase_of_ne hself] at hc ⊢
      exact .inl hc

/-- Where the loop goes on, the stage changes and the clients are handed through. -/
theorem serves_advance {stage : Stage} (h : Serves w) (hlive : ∀ e, w.stage ≠ .ended e)
    (hlive' : ∀ e, stage ≠ .ended e) {inbox handlers : List Client}
    (hheld : ∀ c ∈ w.held, c ∈ stage.inHand ++ inbox ++ handlers) :
    Serves { w with stage, inbox, handlers } :=
  h.mono (fun e => iff_of_false (hlive' e) (hlive e)) id (fun _ hc => .inl hc) (fun c hc => .inl (hheld c hc))
    fun _ hc => hc

/-- One step of the system: the companion goes on serving exactly if nothing troubled it. -/
theorem serves_step_iff (h : Serves w) : (∀ t, step w a = some t → Serves t) ↔ Untroubled w a := by
  cases a with
  | setUp answer =>
      refine iff_of_true (fun t hstep => ?_) trivial
      simp only [step, Option.ite_none_right_eq_some, Option.some.injEq] at hstep
      obtain ⟨hstage, rfl⟩ := hstep
      split_ifs
      · refine serves_advance h (by simp [hstage]) (by simp) fun c hc => ?_
        simpa [World.held, hstage, Stage.inHand] using hc
      · exact serves_exit_iff.mpr trivial
  | forward client => exact iff_of_true (fun t => serves_outside h (.inr ⟨client, .inr (.inl rfl)⟩)) trivial
  | closeDaemon => exact iff_of_true (fun t => serves_outside h (.inl rfl)) trivial
  | disconnect client => exact iff_of_true (fun t => serves_outside h (.inr ⟨client, .inl rfl⟩)) trivial
  | poll failed =>
      by_cases hstage : w.stage = .polling
      · simp only [step, Untroubled, hstage, if_true, Option.some.injEq, forall_eq', forall_const]
        split_ifs with hdead
        · rw [serves_exit_iff]
          simp only [World.permits]
          tauto
        · refine iff_of_true ?_ (fun hfailed => absurd (.inl hfailed) hdead)
          refine serves_advance h (by simp [hstage]) (by simp) fun c hc => ?_
          simpa [World.held, hstage, Stage.inHand] using hc
      · simp [step, Untroubled, hstage]
  | receive failed =>
      refine iff_of_true (fun t hstep => ?_) trivial
      simp only [step, Option.ite_none_right_eq_some] at hstep
      obtain ⟨hstage, hstep⟩ := hstep
      cases failed with
      | true =>
          cases hstep
          exact serves_exit_iff.mpr trivial
      | false =>
          cases hinbox : w.inbox with
          | cons client rest =>
              simp only [hinbox, Bool.false_eq_true, if_false, Option.some.injEq] at hstep
              subst hstep
              refine serves_advance h (by simp [hstage]) (by simp) fun c hc => ?_
              simpa [World.held, hstage, hinbox, Stage.inHand] using hc
          | nil =>
              simp only [hinbox, Bool.false_eq_true, if_false, Option.ite_none_left_eq_some,
                Option.some.injEq] at hstep
              obtain ⟨-, rfl⟩ := hstep
              exact serves_exit_iff.mpr trivial
  | acknowledge =>
      simp only [step, Untroubled]
      split
      · rename_i client hstage
        simp only [Option.some.injEq, forall_eq', hstage, Stage.acknowledging.injEq]
        split_ifs with hgone
        -- the write to a client that is gone ends the process, which no daemon asked for
        · rw [serves_exit_iff]
          exact iff_of_false id (not_not_intro hgone)
        · refine iff_of_true ?_ hgone
          refine serves_advance h (by simp [hstage]) (by simp) fun c hc => ?_
          simpa [World.held, hstage, Stage.inHand] using hc
      · rename_i hother
        exact iff_of_true nofun fun client hstage => absurd hstage (hother client)
  | spawn started =>
      simp only [step, Untroubled]
      split
      · rename_i client hstage
        simp only [Option.some.injEq, forall_eq', hstage, Stage.spawning.injEq]
        split_ifs with hstarted
        · refine iff_of_true ?_ hstarted
          refine serves_advance h (by simp [hstage]) (by simp) fun c hc => ?_
          simp only [World.held, hstage, Stage.inHand, List.mem_append, List.mem_cons] at hc ⊢
          tauto
        · rw [serves_exit_iff]
          exact iff_of_false id hstarted
      · rename_i hother
        exact iff_of_true nofun fun client hstage => absurd hstage (hother client)
  | finish client => exact iff_of_true (fun t => serves_outside h (.inr ⟨client, .inr (.inr rfl)⟩)) trivial

end Step

/-! ## Runs -/

/-- In every order of the steps, the companion serves in all the states it comes to exactly if none of the
steps troubled it. -/
theorem serves_iff (schedule : List Act) :
    ReplayOk step (fun w a => ∀ t, step w a = some t → Serves t) start schedule ↔
      ReplayOk step Untroubled start schedule := by
  refine replayOk_iff ?_ ?_ schedule serves_start (replayOk_trivial schedule)
  · intro w a hw _
    exact serves_step_iff hw
  · intro w a t _ _ hserves hstep
    exact hserves t hstep

/-- One client is being served when the next one, forwarded behind it, hangs up. -/
def secondHangsUp : List Act :=
  [.setUp (some true), .forward 1, .poll false, .receive false, .acknowledge, .spawn true,
    .forward 2, .disconnect 2, .poll false, .receive false, .acknowledge]

/-- The acknowledgement of a client that is gone ends the companion, and with it the connection of a client
that is there, while the daemon's socket is open. -/
theorem ended_of_secondHangsUp :
    ∃ w, replay step start secondHangsUp = some w ∧ w.daemonOpen = true ∧ w.stage = .ended (.ackFailed 2) ∧
      1 ∈ w.forwarded ∧ 1 ∉ w.gone ∧ 1 ∉ w.held ∧ 1 ∉ w.finished ∧ ¬ Serves w := by
  refine ⟨_, rfl, rfl, rfl, by decide, by decide, by decide, by decide, fun hserves => ?_⟩
  exact hserves.stops (.ackFailed 2) rfl

end NeoZygisk.Daemon.Companion
