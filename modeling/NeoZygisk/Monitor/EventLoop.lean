import NeoZygisk.Lib.EdgeTriggered
import NeoZygisk.Monitor.ControlSocket

/-!
# The event loop of the monitor

`EventLoop::Loop` waits for two descriptors, a `signalfd` for `SIGCHLD` and the control socket, both edge-triggered. A
signal stands for any number of children, so each one that is read is followed by calls of `waitpid` until nothing is
left. Children, callers and daemons go on while the handlers run, and the handlers wait for processes of their own.

`loop_handles_all` says that no child and no command is left behind: the loop sleeps only when none waits, in every
order of the events.
-/

set_option autoImplicit false

namespace NeoZygisk.Monitor.EventLoop

open NeoZygisk.Lib.Bytes
open NeoZygisk.Lib.EdgeTriggered
open NeoZygisk.Lib.Transition

/-- `MAX_EVENTS`. -/
def maxEvents : Nat := 2

/-- The handlers that are registered, `ptrace_handler_` before `socket_handler_`. -/
inductive Handler where
  | ptrace
  | socket
  deriving DecidableEq, Repr

instance : Fintype Handler where
  elems := {.ptrace, .socket}
  complete h := by
    cases h with
    | ptrace => exact Finset.mem_insert_self _ _
    | socket => exact Finset.mem_insert_of_mem (Finset.mem_singleton_self _)

def registered : List Handler := [.ptrace, .socket]

/-! ## Children -/

/-- What `waitpid` returns. -/
abbrev ChildEvent := Pid × WaitStatus

/-- `SigChldHandler::HandleEvent` reads a signal, and then reaps children. -/
inductive Reaping where
  | reading
  | reaping
  deriving DecidableEq, Repr

/-- The children of the monitor and its `signalfd`. `raised`, `handled` and `elsewhere` are a record that no code
reads. -/
structure Children where
  phase : Reaping
  sigchld : Bool
  waiting : Multiset ChildEvent
  raised : Multiset ChildEvent
  handled : List ChildEvent
  elsewhere : Multiset ChildEvent

/-- A child changes, a signal comes without a child, or an event is gone: the handlers wait for the injectors they
start, and a process that is killed is no longer stopped. -/
inductive ChildrenEvent where
  | status (e : ChildEvent)
  | signal
  | gone (e : ChildEvent)

inductive ReapStep where
  /-- `read` returns a signal. -/
  | read
  /-- `waitpid` returns a child, which is handled. -/
  | reap (e : ChildEvent)
  /-- `waitpid` returns nothing. -/
  | nothing

namespace Children

def outside (c : Children) : ChildrenEvent → Option Children
  | .status e => some { c with sigchld := true, waiting := e ::ₘ c.waiting, raised := e ::ₘ c.raised }
  | .signal => some { c with sigchld := true }
  | .gone e =>
      if e ∈ c.waiting then some { c with waiting := c.waiting.erase e, elsewhere := e ::ₘ c.elsewhere } else none

/-- `SigChldHandler::HandleEvent`. -/
def serve (c : Children) : ReapStep → Option Children
  | .read => if c.phase = .reading ∧ c.sigchld = true then some { c with phase := .reaping, sigchld := false } else none
  | .reap e =>
      if c.phase = .reaping ∧ e ∈ c.waiting then
        some { c with waiting := c.waiting.erase e, handled := c.handled ++ [e] }
      else none
  | .nothing => if c.phase = .reaping ∧ c.waiting = 0 then some { c with phase := .reading } else none

def weight (c : Children) : Nat :=
  c.waiting.card + (if c.sigchld then 2 else 0) + (if c.phase = .reaping then 1 else 0)

end Children

/-! ## The control socket -/

/-- The control socket and its handler; the other fields are a record that no code reads. -/
structure Inbox where
  handler : SocketHandler
  sent : List Arrival
  handled : List Arrival
  rounds : List Round

/-- A datagram arrives, or the other handler changes the monitor. -/
inductive InboxEvent where
  | send (a : Arrival)
  | monitor (m : AppMonitor)

namespace Inbox

def outside (b : Inbox) : InboxEvent → Option Inbox
  | .send a => some { b with handler := { b.handler with queue := b.handler.queue ++ [a] }, sent := b.sent ++ [a] }
  | .monitor m =>
      some { b with handler := { b.handler with state := { b.handler.state with monitor := m } } }

/-- An iteration of `SocketHandler::HandleEvent`, with whether it stops the loop. One that ends the monitor takes the
socket with it. -/
def serve (abi : PointerWidth) (b : Inbox) : Option (Inbox × Bool) :=
  match b.handler.queue with
  | [] => none
  | a :: rest =>
      let next := b.handler.iteration abi a rest
      some
        (⟨if next.1 = .aborted then { next.2 with queue := [] } else next.2, b.sent, b.handled ++ [a],
            b.rounds ++ [next.1]⟩,
          decide (next.1 = .dispatched .exit) || decide (next.1 = .aborted))

end Inbox

/-! ## The loop -/

/-- What a handler works on. -/
def Backlog : Handler → Type
  | .ptrace => Children
  | .socket => Inbox

/-- What happens to it by itself. -/
def Outside : Handler → Type
  | .ptrace => ChildrenEvent
  | .socket => InboxEvent

def ServeStep : Handler → Type
  | .ptrace => ReapStep
  | .socket => Unit

theorem Children.weight_serve {c c' : Children} {a : ReapStep} (h : c.serve a = some c') : c'.weight < c.weight := by
  cases a with
  | read =>
      obtain ⟨⟨hphase, hsignal⟩, hc⟩ := Option.ite_none_right_eq_some.mp h
      obtain rfl := Option.some.inj hc
      simp [weight, hphase, hsignal]
  | reap e =>
      obtain ⟨⟨-, hmem⟩, hc⟩ := Option.ite_none_right_eq_some.mp h
      obtain rfl := Option.some.inj hc
      have hcard := Multiset.card_erase_lt_of_mem hmem
      simp only [weight]
      omega
  | nothing =>
      obtain ⟨⟨hphase, -⟩, hc⟩ := Option.ite_none_right_eq_some.mp h
      obtain rfl := Option.some.inj hc
      simp [weight, hphase]

/-- A handler that does not see an empty descriptor has a step left. -/
theorem Children.exists_serve {c : Children} (h : (decide (c.phase = .reading) && !c.sigchld) = false) :
    ∃ a, (c.serve a).isSome = true := by
  cases hphase : c.phase with
  | reading =>
      refine ⟨.read, ?_⟩
      have hsignal : c.sigchld = true := by simpa [hphase] using h
      rw [serve, if_pos ⟨hphase, hsignal⟩]
      rfl
  | reaping =>
      by_cases hempty : c.waiting = 0
      · refine ⟨.nothing, ?_⟩
        rw [serve, if_pos ⟨hphase, hempty⟩]
        rfl
      · obtain ⟨e, he⟩ := Multiset.exists_mem_of_ne_zero hempty
        refine ⟨.reap e, ?_⟩
        rw [serve, if_pos ⟨hphase, he⟩]
        rfl

theorem Inbox.queue_serve {abi : PointerWidth} {b b' : Inbox} {stop : Bool} (h : b.serve abi = some (b', stop)) :
    b'.handler.queue.length < b.handler.queue.length := by
  simp only [serve] at h
  split at h
  · cases h
  · rename_i a rest hqueue
    cases h
    rw [hqueue, List.length_cons]
    dsimp only
    split
    · exact Nat.succ_pos _
    · rename_i hgoes
      rw [SocketHandler.iteration_queue hgoes]
      exact Nat.lt_succ_self _

theorem Inbox.isSome_serve {abi : PointerWidth} {b : Inbox} (h : (!!b.handler.queue.isEmpty) = false) :
    (b.serve abi).isSome = true := by
  rw [serve]
  split
  · rename_i hqueue
    rw [hqueue] at h
    cases h
  · rfl

/-- Both descriptors, with `SIGCHLD` blocked and the socket bound. -/
def sources (abi : PointerWidth) : Sources Handler Backlog Outside ServeStep where
  readable
    | .ptrace, c => Children.sigchld c
    | .socket, b => !(Inbox.handler b).queue.isEmpty
  atRest
    | .ptrace, c => decide (Children.phase c = .reading)
    | .socket, _ => true
  outside
    | .ptrace, c, e => Children.outside c e
    | .socket, b, e => Inbox.outside b e
  wakes
    | .ptrace, .status _ => true
    | .ptrace, .signal => true
    | .ptrace, .gone _ => false
    | .socket, .send _ => true
    | .socket, .monitor _ => false
  serve
    | .ptrace, c, a => (Children.serve c a).map fun c => (c, false)
    | .socket, b, _ => Inbox.serve abi b
  weight
    | .ptrace, c => Children.weight c
    | .socket, b => (Inbox.handler b).queue.length
  atRest_outside := by
    intro i b e b' h
    cases i with
    | ptrace =>
        cases e with
        | status e | signal =>
            obtain rfl := Option.some.inj h
            rfl
        | gone e =>
            obtain ⟨-, hb⟩ := Option.ite_none_right_eq_some.mp h
            obtain rfl := Option.some.inj hb
            rfl
    | socket => rfl
  readable_outside := by
    intro i b e b' h hread
    cases i with
    | ptrace =>
        cases e with
        | status e | signal => exact .inr rfl
        | gone e =>
            obtain ⟨-, hb⟩ := Option.ite_none_right_eq_some.mp h
            obtain rfl := Option.some.inj hb
            exact .inl hread
    | socket =>
        cases e with
        | send a => exact .inr rfl
        | monitor m =>
            obtain rfl := Option.some.inj h
            exact .inl hread
  exists_serve := by
    intro i b h
    cases i with
    | ptrace =>
        obtain ⟨a, ha⟩ := Children.exists_serve h
        exact ⟨a, Option.isSome_map.trans ha⟩
    | socket => exact ⟨(), Inbox.isSome_serve h⟩
  weight_serve := by
    intro i b a b' stop h
    cases i with
    | ptrace =>
        obtain ⟨c, hc, heq⟩ := Option.map_eq_some_iff.mp h
        cases heq
        exact Children.weight_serve hc
    | socket => exact Inbox.queue_serve h

/-! ## What holds of the two by themselves -/

/-- A child that waits has its signal, unless the handler is about to look for children. -/
structure Children.Good (c : Children) : Prop where
  signalled : c.waiting ≠ 0 → c.sigchld = true ∨ c.phase = .reaping
  counted : c.raised = c.handled + c.elsewhere + c.waiting

theorem Children.good_outside {c c' : Children} {e : ChildrenEvent} (h : c.outside e = some c') (hc : c.Good) :
    c'.Good := by
  cases e with
  | status e =>
      obtain rfl := Option.some.inj h
      refine ⟨fun _ => .inl rfl, ?_⟩
      dsimp only
      rw [hc.counted, Multiset.add_cons]
  | signal =>
      obtain rfl := Option.some.inj h
      exact ⟨fun _ => .inl rfl, hc.counted⟩
  | gone e =>
      obtain ⟨hmem, hb⟩ := Option.ite_none_right_eq_some.mp h
      obtain rfl := Option.some.inj hb
      refine ⟨?_, ?_⟩
      · intro hne
        apply hc.signalled
        intro hzero
        rw [hzero] at hmem
        exact Multiset.notMem_zero e hmem
      · dsimp only
        rw [hc.counted, Multiset.add_cons, Multiset.cons_add, ← Multiset.add_cons, Multiset.cons_erase hmem]

theorem Children.good_serve {c c' : Children} {a : ReapStep} (h : c.serve a = some c') (hc : c.Good) : c'.Good := by
  cases a with
  | read =>
      obtain ⟨-, hb⟩ := Option.ite_none_right_eq_some.mp h
      obtain rfl := Option.some.inj hb
      exact ⟨fun _ => .inr rfl, hc.counted⟩
  | reap e =>
      obtain ⟨⟨hphase, hmem⟩, hb⟩ := Option.ite_none_right_eq_some.mp h
      obtain rfl := Option.some.inj hb
      refine ⟨fun _ => .inr hphase, ?_⟩
      dsimp only
      have hhandled : ((c.handled ++ [e] : List ChildEvent) : Multiset ChildEvent) = e ::ₘ (c.handled : Multiset ChildEvent) := by
        rw [← Multiset.coe_add, Multiset.coe_singleton, Multiset.add_comm, Multiset.singleton_add]
      rw [hc.counted, hhandled, Multiset.cons_add, Multiset.cons_add, ← Multiset.add_cons, Multiset.cons_erase hmem]
  | nothing =>
      obtain ⟨⟨-, hempty⟩, hb⟩ := Option.ite_none_right_eq_some.mp h
      obtain rfl := Option.some.inj hb
      exact ⟨fun hne => absurd hempty hne, hc.counted⟩

/-- Every datagram that was sent has the right size. -/
def Inbox.Sized (abi : PointerWidth) (b : Inbox) : Prop := ∀ a ∈ b.sent, a.WellSized abi

/-- The datagrams are handled in the order in which they were sent, each as the format has it. -/
structure Inbox.Good (b : Inbox) : Prop where
  sent : b.sent = b.handled ++ b.handler.queue
  rounds : b.rounds = b.handled.map fun a => formatRound a.datagram

theorem Inbox.good_outside {abi : PointerWidth} {b b' : Inbox} {e : InboxEvent} (h : b.outside e = some b')
    (hb : b.Sized abi → b.Good) (hsized : b'.Sized abi) : b'.Good := by
  cases e with
  | send a =>
      obtain rfl := Option.some.inj h
      have hgood := hb fun c hc => hsized c (List.mem_append_left _ hc)
      refine ⟨?_, hgood.rounds⟩
      dsimp only
      rw [hgood.sent, List.append_assoc]
  | monitor m =>
      obtain rfl := Option.some.inj h
      have hgood := hb hsized
      exact ⟨hgood.sent, hgood.rounds⟩

/-- The step of the handler on the oldest datagram, if they have the right size. -/
theorem Inbox.serve_eq {abi : PointerWidth} {b b' : Inbox} {stop : Bool} (h : b.serve abi = some (b', stop))
    (hsized : b.Sized abi) (hb : b.Good) :
    ∃ a rest, b.handler.queue = a :: rest ∧ b'.handler.queue = rest ∧ b'.sent = b.sent ∧
      b'.handled = b.handled ++ [a] ∧ b'.rounds = b.rounds ++ [formatRound a.datagram] ∧
      stop = decide (formatRound a.datagram = .dispatched .exit) := by
  simp only [serve] at h
  split at h
  · cases h
  · rename_i a rest hqueue
    cases h
    have hfollows : b.handler.Follows abi a rest := by
      apply SocketHandler.follows_of_wellSized
      apply hsized
      rw [hb.sent, hqueue]
      exact List.mem_append_right _ List.mem_cons_self
    have hround := hfollows.1
    have hgoes : (b.handler.iteration abi a rest).1 ≠ .aborted := by
      rw [hround]
      exact SocketHandler.formatRound_ne_aborted a.datagram
    refine ⟨a, rest, hqueue, ?_, rfl, rfl, ?_, ?_⟩
    · dsimp only
      rw [if_neg hgoes, SocketHandler.iteration_queue hgoes]
    · rw [hround]
    · rw [hround, decide_eq_false (SocketHandler.formatRound_ne_aborted a.datagram), Bool.or_false]

theorem Inbox.sent_serve {abi : PointerWidth} {b b' : Inbox} {stop : Bool} (h : b.serve abi = some (b', stop)) :
    b'.sent = b.sent := by
  simp only [serve] at h
  split at h
  · cases h
  · cases h
    rfl

theorem Inbox.good_serve {abi : PointerWidth} {b b' : Inbox} {stop : Bool} (h : b.serve abi = some (b', stop))
    (hb : b.Sized abi → b.Good) (hsized : b'.Sized abi) : b'.Good := by
  rw [Sized, sent_serve h] at hsized
  have hgood := hb hsized
  obtain ⟨a, rest, hqueue, hqueue', hsent, hhandled, hrounds, -⟩ := serve_eq h hsized hgood
  constructor
  · rw [hsent, hgood.sent, hqueue, hqueue', hhandled, List.append_assoc]
    rfl
  · rw [hrounds, hgood.rounds, hhandled, List.map_append]
    rfl

/-! ## Runs of the loop -/

/-- What the parts of the program keep, whatever the other does. -/
def Kept (abi : PointerWidth) : ∀ i, Backlog i → Prop
  | .ptrace, c => Children.Good c
  | .socket, b => Inbox.Sized abi b → Inbox.Good b

/-- The monitor was asked to end, or had to. -/
def Asked : ∀ i, Backlog i → Prop
  | .ptrace, _ => False
  | .socket, b => .dispatched .exit ∈ Inbox.rounds b ∨ .aborted ∈ Inbox.rounds b

theorem Inbox.rounds_serve {abi : PointerWidth} {b b' : Inbox} {stop : Bool} (h : b.serve abi = some (b', stop)) :
    ∃ round, b'.rounds = b.rounds ++ [round] ∧
      (stop = true → round = .dispatched .exit ∨ round = .aborted) := by
  simp only [serve] at h
  split at h
  · cases h
  · cases h
    refine ⟨_, rfl, ?_⟩
    intro hstop
    simpa using hstop

abbrev State := Loop Handler Backlog

def children (s : State) : Children := s.source .ptrace

def inbox (s : State) : Inbox := s.source .socket

/-- The monitor at the start of `run`: `SIGCHLD` is blocked before there are children. -/
def launched (state : ControlState) : State :=
  starting registered fun
    | .ptrace => ⟨.reading, false, 0, 0, [], 0⟩
    | .socket => ⟨⟨[], [], state⟩, [], [], []⟩

/-- Runs in which both descriptors are registered. -/
abbrev Runs (abi : PointerWidth) (state : ControlState) : State → Prop :=
  GuardedReach (step (sources abi) maxEvents) (fun _ a => Registers a) (launched state)

section Run

variable {abi : PointerWidth} {state : ControlState} {s : State}

theorem Runs.inv (h : Runs abi state s) : Inv (sources abi) s := by
  apply GuardedReach.invariant h
  · apply inv_starting
    · intro i
      cases i with
      | ptrace => exact List.mem_cons_self
      | socket => exact List.mem_cons_of_mem _ List.mem_cons_self
    · intro i
      cases i with
      | ptrace => rfl
      | socket => rfl
  · intro t a t' hinv hok hstep
    exact inv_step hstep hok hinv

theorem Runs.kept (h : Runs abi state s) : ∀ i, Kept abi i (s.source i) := by
  apply GuardedReach.invariant (I := fun s : State => ∀ i, Kept abi i (s.source i)) h
  · intro i
    cases i with
    | ptrace => exact ⟨fun hne => absurd rfl hne, rfl⟩
    | socket => exact fun _ => ⟨rfl, rfl⟩
  · intro t a t' hkept _ hstep
    refine source_step ?_ ?_ hstep hkept
    · intro i b e b' houtside hb
      cases i with
      | ptrace => exact Children.good_outside houtside hb
      | socket => exact Inbox.good_outside houtside hb
    · intro i b a b' stop hserve hb
      cases i with
      | ptrace =>
          obtain ⟨c, hc, heq⟩ := Option.map_eq_some_iff.mp hserve
          cases heq
          exact Children.good_serve hc hb
      | socket => exact Inbox.good_serve hserve hb

theorem Runs.stops (h : Runs abi state s) : Stops Asked s := by
  apply GuardedReach.invariant h
  · exact ⟨fun _ => .inl ⟨registered, rfl⟩, nofun, nofun⟩
  · intro t a t' hstops hok hstep
    refine stops_step ?_ ?_ hstep hok hstops
    · intro i b e b' houtside hb
      cases i with
      | ptrace => exact hb
      | socket =>
          cases e with
          | send a | monitor m =>
              obtain rfl := Option.some.inj houtside
              exact hb
    · intro i b a b' stop hserve hb
      cases i with
      | ptrace =>
          obtain ⟨c, hc, heq⟩ := Option.map_eq_some_iff.mp hserve
          cases heq
          exact hb.resolve_right Bool.false_ne_true
      | socket =>
          obtain ⟨round, hrounds, hstop⟩ := Inbox.rounds_serve hserve
          simp only [Asked, hrounds, List.mem_append, List.mem_singleton]
          rcases hb with hb | hasked
          · exact hb.imp .inl .inl
          · exact (hstop hasked).imp (fun h => .inr h.symm) (fun h => .inr h.symm)

/-- The loop has ended only because it was asked to. -/
theorem Runs.exit_of_ended (h : Runs abi state s) (hgood : (inbox s).Good) (hended : s.position = .ended) :
    ∃ a ∈ (inbox s).handled, formatRound a.datagram = .dispatched .exit := by
  rcases h.stops.reason (h.stops.ended hended) with ⟨todo, htodo⟩ | ⟨i, hi⟩
  · rw [hended] at htodo
    cases htodo
  · cases i with
    | ptrace => exact hi.elim
    | socket =>
        have hrounds : ∀ round, round ∈ (inbox s).rounds → ∃ a ∈ (inbox s).handled, formatRound a.datagram = round := by
          intro round hmem
          rw [hgood.rounds] at hmem
          exact List.mem_map.mp hmem
        rcases hi with hexit | habort
        · exact hrounds _ hexit
        · obtain ⟨a, -, ha⟩ := hrounds _ habort
          exact absurd ha (SocketHandler.formatRound_ne_aborted a.datagram)

/-- While the loop sleeps, no child and no command waits. -/
theorem Runs.idle (h : Runs abi state s) (hasleep : Asleep (sources abi) maxEvents s) :
    (inbox s).handler.queue = [] ∧ (children s).waiting = 0 := by
  constructor
  · have hread : (!(inbox s).handler.queue.isEmpty) = false :=
      (asleep_unreadable (by decide) h.inv hasleep .socket).1
    rwa [Bool.not_eq_false', List.isEmpty_iff] at hread
  · obtain ⟨hread, hrest⟩ := asleep_unreadable (by decide) h.inv hasleep .ptrace
    have hsignal : (children s).sigchld = false := hread
    have hphase : (children s).phase = .reading := of_decide_eq_true hrest
    by_contra hne
    rcases (h.kept .ptrace).signalled hne with hset | hreaping
    · exact Bool.noConfusion (hsignal.symm.trans hset)
    · exact Reaping.noConfusion (hphase.symm.trans hreaping)

end Run

/-- Whatever comes when: datagrams of the right size are handled in the order in which they were sent, each as the
format has it, and every event of a child is handled once or waited for elsewhere; the loop sleeps only when no child
and no command waits, ends only when it was asked to, and comes to one of the two after a bounded number of steps. -/
theorem loop_handles_all {abi : PointerWidth} {state : ControlState} {s : State} (h : Runs abi state s)
    (hsized : (inbox s).Sized abi) :
    (inbox s).sent = (inbox s).handled ++ (inbox s).handler.queue ∧
      (inbox s).rounds = (inbox s).handled.map (fun a => formatRound a.datagram) ∧
      (children s).raised = (children s).handled + (children s).elsewhere + (children s).waiting ∧
      (Asleep (sources abi) maxEvents s → (inbox s).handler.queue = [] ∧ (children s).waiting = 0) ∧
      (s.position = .ended → ∃ a ∈ (inbox s).handled, formatRound a.datagram = .dispatched .exit) ∧
      (∃ n, ∀ as t, (∀ a ∈ as, Label.own a = true) → replay (step (sources abi) maxEvents) s as = some t →
        as.length ≤ n) ∧
      ∃ as t, (∀ a ∈ as, Label.own a = true) ∧ replay (step (sources abi) maxEvents) s as = some t ∧
        (Asleep (sources abi) maxEvents t ∨ t.position = .ended) := by
  have hgood : (inbox s).Good := h.kept .socket hsized
  refine ⟨hgood.sent, hgood.rounds, (h.kept .ptrace).counted, h.idle, h.exit_of_ended hgood, ?_, settles s⟩
  refine ⟨Lib.EdgeTriggered.measure (sources abi) s, ?_⟩
  intro as t hown hreplay
  exact (Nat.le_add_right _ _).trans (length_add_measure_le hown hreplay)

/-- A child of init stops and a caller sends EXIT before the loop waits for the first time. -/
def exitRun : List (Label Handler Outside ServeStep) :=
  [.register .watched, .outside .ptrace (.status (812, .stopped sigStop eventStop)), .register .watched,
    .outside .socket (.send ⟨toBytes 4 3, fun _ => true, ⟨⟨[], List.nodup_nil⟩, none, fun _ => ⟨none, false⟩⟩⟩), .next,
    .wait, .next, .serve .ptrace .read, .serve .ptrace (.reap (812, .stopped sigStop eventStop)),
    .serve .ptrace .nothing, .leave, .next, .serve .socket (), .leave]

def launchedBoot : State := launched ⟨bootMonitor, [], []⟩

def afterExit : State := (replay (step (sources .bits64) maxEvents) launchedBoot exitRun).getD launchedBoot

theorem replay_exitRun : replay (step (sources .bits64) maxEvents) launchedBoot exitRun = some afterExit := by
  rfl

/-- The stop is handled, and the loop ends. -/
theorem loop_handles_all_exit :
    (children afterExit).handled = [(812, .stopped sigStop eventStop)] ∧ afterExit.position = .ended ∧
      ∃ a ∈ (inbox afterExit).handled, formatRound a.datagram = .dispatched .exit := by
  have hruns : Runs .bits64 ⟨bootMonitor, [], []⟩ afterExit := by
    apply guardedReach_of_replay exitRun replay_exitRun
    apply replayOk_of_forall
    intro a ha r hr
    subst hr
    simpa [exitRun] using ha
  have hsized : (inbox afterExit).Sized .bits64 := by
    intro a ha
    obtain rfl := List.mem_singleton.mp ha
    intro hcarries
    cases hcarries
  have hended : afterExit.position = .ended := rfl
  exact ⟨rfl, hended, (loop_handles_all hruns hsized).2.2.2.2.1 hended⟩

end NeoZygisk.Monitor.EventLoop
