import Mathlib.Data.List.Nodup
import Mathlib.Data.List.Perm.Basic
import Mathlib.Logic.Function.Basic
import NeoZygisk.Lib.Transition
import NeoZygisk.Monitor.Messages

/-!
# The answer to a rearm

`send_rearm_command` sends one datagram and waits for one byte. It is told nothing about the monitor, and the byte
does not say what it answers: all that leads it back is the name of the socket, which the kernel makes up when the
socket is bound and may give away again once it is closed. A caller that gives up after thirty seconds leaves its
message with the monitor, and the monitor answers it all the same.

`returned_own_verdict` is about any number of callers and monitors, in every order of their steps: as long as no
socket gets a name that a message or an answer on its way still carries, a verdict that is returned is the one the
monitor came to for this caller's message and with its flag, and no message is acted on twice.
-/

set_option autoImplicit false

namespace NeoZygisk.Monitor

open NeoZygisk.Lib.Transition

/-! ## The callers -/

/-- The byte of a verdict. -/
def RearmResult.code : RearmResult → Byte
  | .failed => 0
  | .noZygote => 1
  | .injected => 2
  | .alreadyHooked => 3
  | .injecting => 4
  | .needsRestart => 5

/-- `static_cast<RearmResult>`, of a byte that is at most `NeedsRestart`. -/
def RearmResult.ofCode : Byte → Option RearmResult
  | 0 => some .failed
  | 1 => some .noZygote
  | 2 => some .injected
  | 3 => some .alreadyHooked
  | 4 => some .injecting
  | 5 => some .needsRestart
  | _ => none

theorem RearmResult.ofCode_code (r : RearmResult) : ofCode r.code = some r := by
  cases r <;> rfl

abbrev SocketName := Nat
abbrev CallId := Nat
abbrev MonitorId := Nat

def kSendRetries : Nat := 10

/-- Where a call of `send_rearm_command` stands, with the name its socket was given. -/
inductive CallPhase where
  | preparing
  | sending (name : SocketName) (attempt : Nat)
  | receiving (name : SocketName)
  | returned (result : RearmResult)
  deriving DecidableEq, Repr

def CallPhase.name : CallPhase → Option SocketName
  | .preparing => none
  | .sending name _ => some name
  | .receiving name => some name
  | .returned _ => none

/-- Nothing was sent yet. -/
def CallPhase.unsent : CallPhase → Bool
  | .preparing => true
  | .sending _ _ => true
  | .receiving _ => false
  | .returned _ => false

/-- A call, and the datagrams that wait on its socket. -/
structure Call where
  ignoreDisable : Bool
  phase : CallPhase
  inbox : List (List Byte)

/-- What the call makes of a `recv` for one byte. A longer datagram is cut off. -/
def readAnswer : List Byte → RearmResult
  | [] => .failed
  | answer :: _ => (RearmResult.ofCode answer).getD .failed

/-! ## The exchange -/

/-- A datagram on the control socket of a monitor, with the address it came from. The kernel does not tell the
monitor which call sent it. -/
structure Letter where
  monitor : MonitorId
  peer : Option SocketName
  sender : Option CallId
  arrival : Arrival

/-- A byte that a monitor is about to send, to the address of the message it has handled. -/
structure Answer where
  monitor : MonitorId
  peer : SocketName
  caller : Option CallId
  verdict : RearmResult

/-- A rearm that a monitor ran. -/
structure Verdict where
  caller : Option CallId
  ignoreDisable : Bool
  result : RearmResult
  deriving DecidableEq, Repr

/-- A monitor that reads its socket. -/
structure Listener where
  buf : List Byte
  state : ControlState

/-- The sockets on both sides. `owner` is the monitor that the path leads to; `verdicts` is a record that no code
reads. -/
structure Exchange where
  calls : CallId → Call
  bound : SocketName → Option CallId
  monitors : MonitorId → Option Listener
  owner : Option MonitorId
  queue : List Letter
  answers : List Answer
  verdicts : List Verdict

namespace Exchange

def setCall (call : CallId) (c : Call) (w : Exchange) : Exchange :=
  { w with calls := Function.update w.calls call c }

/-- The call closes its socket and returns. -/
def finish (call : CallId) (name : SocketName) (result : RearmResult) (w : Exchange) : Exchange :=
  { w.setCall call { w.calls call with phase := .returned result, inbox := [] } with
    bound := Function.update w.bound name none }

/-- The monitor that a datagram to the path gets to. -/
def reachable (w : Exchange) : Option MonitorId := w.owner.filter fun i => (w.monitors i).isSome

/-- `socket`, `bind` and `setsockopt`; the name is `none` if one of them fails. -/
def prepare (call : CallId) (name : Option SocketName) (w : Exchange) : Option Exchange :=
  match (w.calls call).phase with
  | .preparing =>
      match name with
      | none => some (w.setCall call { w.calls call with phase := .returned .failed })
      | some name =>
          if (w.bound name).isNone then
            some
              { w.setCall call { w.calls call with phase := .sending name 0 } with
                bound := Function.update w.bound name (some call) }
          else none
  | _ => none

/-- One `sendto` of `send_to_monitor`. Without a monitor it is tried again; other errors end it. -/
def send (call : CallId) (fails : Bool) (grows : Nat → Bool) (outcomes : RearmOutcomes) (w : Exchange) :
    Option Exchange :=
  match (w.calls call).phase with
  | .sending name attempt =>
      if fails then some (w.finish call name .failed)
      else
        match w.reachable with
        | some i =>
            let datagram := (Message.rearm (w.calls call).ignoreDisable).datagram
            some
              { w.setCall call { w.calls call with phase := .receiving name } with
                queue := w.queue ++ [⟨i, some name, some call, ⟨datagram, grows, outcomes⟩⟩] }
        | none =>
            if attempt + 1 < kSendRetries then
              some (w.setCall call { w.calls call with phase := .sending name (attempt + 1) })
            else some (w.finish call name .failed)
  | _ => none

/-- The `recv`, which takes the oldest datagram, or fails: the time is up, or a signal arrived. -/
def receive (call : CallId) (fails : Bool) (w : Exchange) : Option Exchange :=
  match (w.calls call).phase with
  | .receiving name =>
      if fails then some (w.finish call name .failed)
      else
        match (w.calls call).inbox with
        | [] => none
        | bytes :: _ => some (w.finish call name (readAnswer bytes))
  | _ => none

/-- The daemon and the other commands send from sockets without a name. -/
def post (arrival : Arrival) (w : Exchange) : Option Exchange :=
  w.reachable.map fun i => { w with queue := w.queue ++ [⟨i, none, none, arrival⟩] }

/-- A monitor takes the path over. -/
def listen (i : MonitorId) (listener : Listener) (w : Exchange) : Option Exchange :=
  if (w.monitors i).isNone then
    some { w with monitors := Function.update w.monitors i (some listener), owner := some i }
  else none

/-- A monitor ends, and what waits on its socket is lost. -/
def close (i : MonitorId) (w : Exchange) : Exchange :=
  { w with
    monitors := Function.update w.monitors i none
    queue := w.queue.filter fun l => l.monitor != i
    answers := w.answers.filter fun a => a.monitor != i }

/-- The branch of the switch for `REARM`, up to the answer. `answer` needs an address. -/
def dispatch (request : Request) (monitor : AppMonitor) (l : Letter) (w : Exchange) : Exchange :=
  match request with
  | .rearm ignoreDisable =>
      let result := (monitor.requestRearm l.arrival.outcomes ignoreDisable).1.result
      { w with
        verdicts := w.verdicts ++ [⟨l.sender, ignoreDisable, result⟩]
        answers := w.answers ++ (l.peer.map fun peer => ⟨l.monitor, peer, l.sender, result⟩).toList }
  | _ => w

/-- One iteration of `HandleEvent`, up to the answer. -/
def take (abi : PointerWidth) (i : MonitorId) (w : Exchange) : Option Exchange :=
  if w.answers.any (·.monitor == i) then none
  else
    match w.monitors i, w.queue.find? (·.monitor == i) with
    | some listener, some l =>
        let rest := w.queue.eraseP (·.monitor == i)
        let waiting := (rest.filter (·.monitor == i)).map Letter.arrival
        let handler : SocketHandler := ⟨l.arrival :: waiting, listener.buf, listener.state⟩
        let (round, served) := handler.iteration abi l.arrival waiting
        let w' : Exchange :=
          { w with queue := rest, monitors := Function.update w.monitors i (some ⟨served.buf, served.state⟩) }
        match round with
        | .dispatched request => some (w'.dispatch request listener.state.monitor l)
        | .discarded => some w'
        | .aborted => some (w.close i)
    | _, _ => none

/-- The `sendto` of `answer`. It is lost if nobody has the name, or if there is no room. -/
def reply (i : MonitorId) (room : Bool) (w : Exchange) : Option Exchange :=
  (w.answers.find? (·.monitor == i)).map fun a =>
    let w' := { w with answers := w.answers.eraseP (·.monitor == i) }
    match w.bound a.peer with
    | none => w'
    | some call =>
        if room then w'.setCall call { w.calls call with inbox := (w.calls call).inbox ++ [[a.verdict.code]] }
        else w'

end Exchange

inductive ExchangeLabel where
  | prepare (call : CallId) (name : Option SocketName)
  | send (call : CallId) (fails : Bool) (grows : Nat → Bool) (outcomes : RearmOutcomes)
  | receive (call : CallId) (fails : Bool)
  | post (arrival : Arrival)
  | listen (i : MonitorId) (listener : Listener)
  | close (i : MonitorId)
  | take (i : MonitorId)
  | reply (i : MonitorId) (room : Bool)

def exchangeStep (abi : PointerWidth) (w : Exchange) : ExchangeLabel → Option Exchange
  | .prepare call name => w.prepare call name
  | .send call fails grows outcomes => w.send call fails grows outcomes
  | .receive call fails => w.receive call fails
  | .post arrival => w.post arrival
  | .listen i listener => w.listen i listener
  | .close i => some (w.close i)
  | .take i => w.take abi i
  | .reply i room => w.reply i room

/-- The calls have not begun. There may be monitors. -/
structure Exchange.Start (w : Exchange) : Prop where
  calls : ∀ c, (w.calls c).phase = .preparing ∧ (w.calls c).inbox = []
  bound : ∀ name, w.bound name = none
  queue : w.queue = []
  answers : w.answers = []
  verdicts : w.verdicts = []

/-- No socket gets a name that a message or an answer still carries. -/
def Fresh (w : Exchange) : ExchangeLabel → Prop
  | .prepare _ (some name) => (∀ l ∈ w.queue, l.peer ≠ some name) ∧ ∀ a ∈ w.answers, a.peer ≠ name
  | _ => True

/-! ## What the record keeps -/

/-- The calls whose message still waits. -/
def Exchange.senders (w : Exchange) : List CallId := w.queue.filterMap Letter.sender

/-- The calls whose message was acted on. -/
def Exchange.callers (w : Exchange) : List CallId := w.verdicts.filterMap Verdict.caller

/-- A monitor came to this verdict for the message of the call. -/
def Exchange.Came (w : Exchange) (c : CallId) (r : RearmResult) : Prop :=
  ∃ v ∈ w.verdicts, v.caller = some c ∧ v.result = r

/-- What holds of the messages, the answers and the calls. `asks` is the flag each call was made with. -/
structure Consistent (asks : CallId → Bool) (w : Exchange) : Prop where
  flags : ∀ c, (w.calls c).ignoreDisable = asks c
  once : (w.senders ++ w.callers).Nodup
  unsent : ∀ c, (w.calls c).phase.unsent = true → c ∉ w.senders ++ w.callers
  letters : ∀ l ∈ w.queue, ∀ c, l.sender = some c → l.arrival.datagram = (Message.rearm (asks c)).datagram
  verdicts : ∀ v ∈ w.verdicts, ∀ c, v.caller = some c → v.ignoreDisable = asks c
  answers : ∀ a ∈ w.answers, ∀ c, a.caller = some c → w.Came c a.verdict
  inboxes : ∀ c, ∀ bytes ∈ (w.calls c).inbox, ∃ r, bytes = [r.code] ∧ w.Came c r
  returned : ∀ c r, (w.calls c).phase = .returned r → r ≠ .failed → w.Came c r
  bound : ∀ c name, (w.calls c).phase.name = some name → w.bound name = some c
  letterPeers : ∀ l ∈ w.queue, ∀ name c, l.peer = some name → w.bound name = some c → l.sender = some c
  answerPeers : ∀ a ∈ w.answers, ∀ c, w.bound a.peer = some c → a.caller = some c

theorem Exchange.Start.consistent {w : Exchange} (h : w.Start) :
    Consistent (fun c => (w.calls c).ignoreDisable) w where
  flags _ := rfl
  once := by
    rw [Exchange.senders, Exchange.callers, h.queue, h.verdicts]
    exact List.nodup_nil
  unsent c _ := by
    rw [Exchange.senders, Exchange.callers, h.queue, h.verdicts]
    exact List.not_mem_nil
  letters l hl := by
    rw [h.queue] at hl
    exact absurd hl List.not_mem_nil
  verdicts v hv := by
    rw [h.verdicts] at hv
    exact absurd hv List.not_mem_nil
  answers a ha := by
    rw [h.answers] at ha
    exact absurd ha List.not_mem_nil
  inboxes c bytes hbytes := by
    rw [(h.calls c).2] at hbytes
    exact absurd hbytes List.not_mem_nil
  returned c r hr := by
    rw [(h.calls c).1] at hr
    cases hr
  bound c name hname := by
    rw [(h.calls c).1] at hname
    cases hname
  letterPeers l hl := by
    rw [h.queue] at hl
    exact absurd hl List.not_mem_nil
  answerPeers a ha := by
    rw [h.answers] at ha
    exact absurd ha List.not_mem_nil

/-! ## One step -/

section Step

variable {asks : CallId → Bool} {w w' : Exchange}

/-- Messages and answers may get lost, whatever becomes of the monitors. -/
theorem Consistent.lose (h : Consistent asks w) (hcalls : w'.calls = w.calls) (hbound : w'.bound = w.bound)
    (hverdicts : w'.verdicts = w.verdicts) (hqueue : w'.queue.Sublist w.queue) (hanswers : w'.answers.Sublist w.answers) :
    Consistent asks w' := by
  have hcallers : w'.callers = w.callers := by rw [Exchange.callers, hverdicts, Exchange.callers]
  have hsenders : (w'.senders ++ w'.callers).Sublist (w.senders ++ w.callers) := by
    rw [hcallers]
    exact (hqueue.filterMap _).append (List.Sublist.refl _)
  have hcame : ∀ c r, w'.Came c r ↔ w.Came c r := by
    intro c r
    rw [Exchange.Came, hverdicts, Exchange.Came]
  constructor
  · rw [hcalls]
    exact h.flags
  · exact h.once.sublist hsenders
  · rw [hcalls]
    intro c hc hmem
    exact h.unsent c hc (hsenders.subset hmem)
  · exact fun l hl => h.letters l (hqueue.subset hl)
  · rw [hverdicts]
    exact h.verdicts
  · exact fun a ha c hc => (hcame c _).mpr (h.answers a (hanswers.subset ha) c hc)
  · rw [hcalls]
    intro c bytes hbytes
    obtain ⟨r, hr, hwas⟩ := h.inboxes c bytes hbytes
    exact ⟨r, hr, (hcame c r).mpr hwas⟩
  · rw [hcalls]
    exact fun c r hr hne => (hcame c r).mpr (h.returned c r hr hne)
  · rw [hcalls, hbound]
    exact h.bound
  · rw [hbound]
    exact fun l hl => h.letterPeers l (hqueue.subset hl)
  · rw [hbound]
    exact fun a ha => h.answerPeers a (hanswers.subset ha)

theorem setCall_self (call : CallId) (c : Call) (w : Exchange) : (w.setCall call c).calls call = c :=
  Function.update_self ..

/-- What holds of the call that changes, and of the others as they were, holds of all calls. -/
theorem forall_setCall {P : CallId → Call → Prop} {call : CallId} {c : Call} (hself : P call c)
    (hothers : ∀ d ≠ call, P d (w.calls d)) (d : CallId) : P d ((w.setCall call c).calls d) :=
  (Function.forall_update_iff w.calls P).mpr ⟨hself, hothers⟩ d

/-- A call changes by itself. It may close its socket. -/
theorem Consistent.update (h : Consistent asks w) (call : CallId) (c : Call) (bound : SocketName → Option CallId)
    (hflag : c.ignoreDisable = (w.calls call).ignoreDisable)
    (hunsent : c.phase.unsent = true → (w.calls call).phase.unsent = true)
    (hinbox : ∀ bytes ∈ c.inbox, ∃ r, bytes = [r.code] ∧ w.Came call r)
    (hreturned : ∀ r, c.phase = .returned r → r ≠ .failed → w.Came call r)
    (hname : ∀ name, c.phase.name = some name → bound name = some call)
    (hothers : ∀ d ≠ call, ∀ name, w.bound name = some d → bound name = some d)
    (hletters : ∀ l ∈ w.queue, ∀ name d, l.peer = some name → bound name = some d → l.sender = some d)
    (hanswers : ∀ a ∈ w.answers, ∀ d, bound a.peer = some d → a.caller = some d) :
    Consistent asks { w.setCall call c with bound := bound } := by
  constructor
  · apply forall_setCall (P := fun d c => c.ignoreDisable = asks d)
    · exact hflag.trans (h.flags call)
    · exact fun d _ => h.flags d
  · exact h.once
  · apply forall_setCall (P := fun d c => c.phase.unsent = true → d ∉ w.senders ++ w.callers)
    · exact fun hphase => h.unsent call (hunsent hphase)
    · exact fun d _ => h.unsent d
  · exact h.letters
  · exact h.verdicts
  · exact h.answers
  · apply forall_setCall (P := fun d c => ∀ bytes ∈ c.inbox, ∃ r, bytes = [r.code] ∧ w.Came d r)
    · exact hinbox
    · exact fun d _ => h.inboxes d
  · apply forall_setCall (P := fun d c => ∀ r, c.phase = .returned r → r ≠ .failed → w.Came d r)
    · exact hreturned
    · exact fun d _ => h.returned d
  · apply forall_setCall (P := fun d c => ∀ name, c.phase.name = some name → bound name = some d)
    · exact hname
    · exact fun d hd name hphase => hothers d hd name (h.bound d name hphase)
  · exact hletters
  · exact hanswers

/-- A call returns with nothing, or with a verdict for its message. -/
theorem Consistent.finish (h : Consistent asks w) {call : CallId} {name : SocketName} {result : RearmResult}
    (hphase : (w.calls call).phase.name = some name) (hresult : result ≠ .failed → w.Came call result) :
    Consistent asks (w.finish call name result) := by
  have hbound : ∀ name' d, Function.update w.bound name none name' = some d → w.bound name' = some d := by
    intro name' d hd
    rw [Function.update_apply] at hd
    split_ifs at hd
    exact hd
  refine h.update call _ _ rfl (fun hc => absurd hc Bool.false_ne_true) ?_ ?_ ?_ ?_ ?_ ?_
  · exact fun bytes hbytes => absurd hbytes List.not_mem_nil
  · rintro r hr hne
    cases hr
    exact hresult hne
  · exact fun name' hname' => absurd hname' (Option.some_ne_none name').symm
  · intro d hd name' hname'
    rw [Function.update_of_ne, hname']
    -- the names of two calls differ
    rintro rfl
    rw [h.bound call _ hphase] at hname'
    exact hd (Option.some.inj hname').symm
  · exact fun l hl name' d hpeer hd => h.letterPeers l hl name' d hpeer (hbound name' d hd)
  · exact fun a ha d hd => h.answerPeers a ha d (hbound a.peer d hd)

theorem Consistent.prepare (h : Consistent asks w) {call : CallId} {name : Option SocketName}
    (hfresh : Fresh w (.prepare call name)) (hstep : w.prepare call name = some w') : Consistent asks w' := by
  simp only [Exchange.prepare] at hstep
  split at hstep
  · rename_i hphase
    cases name with
    | none =>
        obtain rfl := Option.some.inj hstep
        refine h.update call _ w.bound rfl (fun hc => absurd hc Bool.false_ne_true) (h.inboxes call) ?_ ?_
          (fun d _ name hname => hname) h.letterPeers h.answerPeers
        · rintro r hr hne
          cases hr
          exact absurd rfl hne
        · exact fun name hname => absurd hname (Option.some_ne_none name).symm
    | some name =>
        obtain ⟨hletters, hanswers⟩ := hfresh
        dsimp only at hstep
        split_ifs at hstep with hfree
        obtain rfl := Option.some.inj hstep
        rw [Option.isNone_iff_eq_none] at hfree
        refine h.update call _ _ rfl (fun _ => by rw [hphase]; rfl) (h.inboxes call) ?_ ?_ ?_ ?_ ?_
        · rintro r hr
          cases hr
        · intro name' hname'
          obtain rfl := Option.some.inj hname'
          exact Function.update_self ..
        · intro d hd name' hname'
          rw [Function.update_of_ne, hname']
          rintro rfl
          rw [hfree] at hname'
          cases hname'
        · intro l hl name' d hpeer hd
          rw [Function.update_of_ne] at hd
          · exact h.letterPeers l hl name' d hpeer hd
          · rintro rfl
            exact hletters l hl hpeer
        · intro a ha d hd
          rw [Function.update_of_ne (hanswers a ha)] at hd
          exact h.answerPeers a ha d hd
  · cases hstep

/-- Before anything is sent no letter is the call's. -/
theorem Consistent.sent (h : Consistent asks w) {call : CallId} {name : SocketName} {attempt : Nat} {i : MonitorId}
    {arrival : Arrival} (hphase : (w.calls call).phase = .sending name attempt)
    (hdatagram : arrival.datagram = (Message.rearm (asks call)).datagram) :
    Consistent asks
      { w.setCall call { w.calls call with phase := .receiving name } with
        queue := w.queue ++ [⟨i, some name, some call, arrival⟩] } := by
  have hname : w.bound name = some call := h.bound call name (by rw [hphase]; rfl)
  have hnew : call ∉ w.senders ++ w.callers := h.unsent call (by rw [hphase]; rfl)
  have hupdate : Consistent asks { w.setCall call { w.calls call with phase := .receiving name } with
      bound := w.bound } := by
    refine h.update call _ w.bound rfl (fun hc => absurd hc Bool.false_ne_true) (h.inboxes call) ?_ ?_
      (fun d _ name hname => hname) h.letterPeers h.answerPeers
    · rintro r hr
      cases hr
    · intro name' hname'
      obtain rfl := Option.some.inj hname'
      exact hname
  have hsenders : (w.queue ++ [(⟨i, some name, some call, arrival⟩ : Letter)]).filterMap Letter.sender =
      w.senders ++ [call] := List.filterMap_append
  constructor
  · exact hupdate.flags
  · rw [Exchange.senders, hsenders, List.append_assoc]
    exact (List.nodup_middle.mpr (List.nodup_cons.mpr ⟨hnew, h.once⟩))
  · intro d hd
    have hne : d ≠ call := by
      rintro rfl
      rw [setCall_self] at hd
      cases hd
    have hold := hupdate.unsent d hd
    rw [Exchange.senders, hsenders, List.append_assoc, List.mem_append, List.singleton_append, List.mem_cons]
    rw [List.mem_append] at hold
    tauto
  · intro l hl d hd
    rcases List.mem_append.mp hl with hl | hl
    · exact h.letters l hl d hd
    · obtain rfl := List.mem_singleton.mp hl
      obtain rfl := Option.some.inj hd
      exact hdatagram
  · exact h.verdicts
  · exact h.answers
  · exact hupdate.inboxes
  · exact hupdate.returned
  · exact hupdate.bound
  · intro l hl name' d hpeer hd
    rcases List.mem_append.mp hl with hl | hl
    · exact h.letterPeers l hl name' d hpeer hd
    · obtain rfl := List.mem_singleton.mp hl
      obtain rfl := Option.some.inj hpeer
      exact hname.symm.trans hd
  · exact h.answerPeers

theorem Consistent.send (h : Consistent asks w) {call : CallId} {fails : Bool} {grows : Nat → Bool}
    {outcomes : RearmOutcomes} (hstep : w.send call fails grows outcomes = some w') : Consistent asks w' := by
  rw [Exchange.send] at hstep
  split at hstep
  · rename_i name attempt hphase
    have hname : (w.calls call).phase.name = some name := by rw [hphase]; rfl
    cases fails with
    | true =>
        obtain rfl := Option.some.inj hstep
        exact h.finish hname fun hne => absurd rfl hne
    | false =>
        rw [if_neg Bool.false_ne_true] at hstep
        split at hstep
        · obtain rfl := Option.some.inj hstep
          apply h.sent hphase
          rw [h.flags]
        · split_ifs at hstep
          · obtain rfl := Option.some.inj hstep
            refine h.update call _ w.bound rfl (fun _ => by rw [hphase]; rfl) (h.inboxes call) ?_ ?_
              (fun d _ name hname => hname) h.letterPeers h.answerPeers
            · rintro r hr
              cases hr
            · intro name' hname'
              obtain rfl := Option.some.inj hname'
              exact h.bound call _ hname
          · obtain rfl := Option.some.inj hstep
            exact h.finish hname fun hne => absurd rfl hne
  · cases hstep

theorem Consistent.receive (h : Consistent asks w) {call : CallId} {fails : Bool}
    (hstep : w.receive call fails = some w') : Consistent asks w' := by
  rw [Exchange.receive] at hstep
  split at hstep
  · rename_i name hphase
    have hname : (w.calls call).phase.name = some name := by rw [hphase]; rfl
    split_ifs at hstep
    · obtain rfl := Option.some.inj hstep
      exact h.finish hname fun hne => absurd rfl hne
    · split at hstep
      · cases hstep
      · rename_i bytes rest hinbox
        obtain rfl := Option.some.inj hstep
        obtain ⟨r, rfl, hcame⟩ := h.inboxes call bytes (by rw [hinbox]; exact List.mem_cons_self)
        rw [readAnswer, RearmResult.ofCode_code, Option.getD_some]
        exact h.finish hname fun _ => hcame
  · cases hstep

theorem Consistent.post (h : Consistent asks w) {arrival : Arrival} (hstep : w.post arrival = some w') :
    Consistent asks w' := by
  obtain ⟨i, -, rfl⟩ := Option.map_eq_some_iff.mp hstep
  have hsenders : (w.queue ++ [(⟨i, none, none, arrival⟩ : Letter)]).filterMap Letter.sender = w.senders := by
    rw [List.filterMap_append]
    exact List.append_nil _
  constructor
  · exact h.flags
  · rw [Exchange.senders, hsenders]
    exact h.once
  · rw [Exchange.senders, hsenders]
    exact h.unsent
  · intro l hl d hd
    rcases List.mem_append.mp hl with hl | hl
    · exact h.letters l hl d hd
    · obtain rfl := List.mem_singleton.mp hl
      cases hd
  · exact h.verdicts
  · exact h.answers
  · exact h.inboxes
  · exact h.returned
  · exact h.bound
  · intro l hl name d hpeer
    rcases List.mem_append.mp hl with hl | hl
    · exact h.letterPeers l hl name d hpeer
    · obtain rfl := List.mem_singleton.mp hl
      cases hpeer
  · exact h.answerPeers

/-- A monitor reads the message of a call as the rearm it is, or cannot get memory for it. -/
theorem iteration_rearm (abi : PointerWidth) {ignoreDisable : Bool} {a : Arrival} {rest : List Arrival}
    {handler : SocketHandler} (hdatagram : a.datagram = (Message.rearm ignoreDisable).datagram) :
    (handler.iteration abi a rest).1 = .aborted ∨
      (handler.iteration abi a rest).1 = .dispatched (.rearm ignoreDisable) := by
  have hheader : headerSize ≤ a.datagram.length := by
    rw [hdatagram]
    cases ignoreDisable <;> decide
  have hcarries : (ctlCmd a.datagram).carriesPayload = true := by
    rw [hdatagram]
    cases ignoreDisable <;> rfl
  have hlength : ctlLength a.datagram = 1 := by
    rw [hdatagram]
    cases ignoreDisable <;> decide
  have hsize : a.datagram.length = 9 := by
    rw [hdatagram]
    cases ignoreDisable <;> rfl
  cases hfits : a.fits abi (headerSize + ctlLength a.datagram).toNat with
  | false =>
      left
      rw [SocketHandler.iteration_of_header hheader, if_pos hcarries, SocketHandler.readMessage_of_not_fits]
      rwa [toNat_realSize (by omega) (by omega)]
  | true =>
      right
      have hsized : a.WellSized abi := by
        intro _ _
        refine ⟨by omega, ?_, hfits⟩
        rw [hlength, hsize]
        decide
      rw [(SocketHandler.follows_of_wellSized hsized).1, formatRound, hdatagram]
      cases ignoreDisable <;> rfl

/-- An element that is found stands before the others. -/
theorem perm_of_find? {α : Type} {p : α → Bool} {l : List α} {a : α} (h : l.find? p = some a) :
    l.Perm (a :: l.eraseP p) := by
  induction l with
  | nil => cases h
  | cons b l ih =>
      cases hb : p b with
      | true =>
          rw [List.find?_cons_of_pos hb] at h
          rw [List.eraseP_cons_of_pos hb, Option.some.inj h]
      | false =>
          have hneg : ¬ p b = true := by rw [hb]; exact Bool.false_ne_true
          rw [List.find?_cons_of_neg hneg] at h
          rw [List.eraseP_cons_of_neg hneg]
          exact ((ih h).cons b).trans (List.Perm.swap a b _)

/-- A rearm is taken from the queue, run, and its answer is ready to be sent. -/
theorem Consistent.ran (h : Consistent asks w) {l : Letter} {rest : List Letter} {ignoreDisable : Bool}
    {result : RearmResult} {monitors : MonitorId → Option Listener} (hperm : w.queue.Perm (l :: rest))
    (hflag : ∀ c, l.sender = some c → ignoreDisable = asks c) :
    Consistent asks
      { w with
        queue := rest
        monitors := monitors
        verdicts := w.verdicts ++ [⟨l.sender, ignoreDisable, result⟩]
        answers := w.answers ++ (l.peer.map fun peer => ⟨l.monitor, peer, l.sender, result⟩).toList } := by
  have hmem : l ∈ w.queue := hperm.mem_iff.mpr List.mem_cons_self
  have hrest : ∀ l' ∈ rest, l' ∈ w.queue := fun l' hl' => hperm.mem_iff.mpr (List.mem_cons_of_mem l hl')
  -- the sender of the letter goes from one list to the other
  have hmoved : (rest.filterMap Letter.sender ++
      (w.verdicts ++ [(⟨l.sender, ignoreDisable, result⟩ : Verdict)]).filterMap Verdict.caller).Perm
      (w.senders ++ w.callers) := by
    have hqueue := hperm.filterMap Letter.sender
    rw [List.filterMap_append, ← List.append_assoc]
    cases hsender : l.sender with
    | none =>
        rw [List.filterMap_cons_none hsender] at hqueue
        have hnew : [(⟨none, ignoreDisable, result⟩ : Verdict)].filterMap Verdict.caller = [] := rfl
        rw [hnew, List.append_nil]
        exact hqueue.symm.append_right _
    | some c =>
        rw [List.filterMap_cons_some hsender] at hqueue
        have hnew : [(⟨some c, ignoreDisable, result⟩ : Verdict)].filterMap Verdict.caller = [c] := rfl
        rw [hnew]
        exact (List.perm_append_singleton c _).trans (hqueue.symm.append_right w.callers)
  have hcame : ∀ c r, w.Came c r → ∃ v ∈ w.verdicts ++ [(⟨l.sender, ignoreDisable, result⟩ : Verdict)],
      v.caller = some c ∧ v.result = r := by
    rintro c r ⟨v, hv, hwas⟩
    exact ⟨v, List.mem_append_left _ hv, hwas⟩
  constructor
  · exact h.flags
  · exact hmoved.nodup_iff.mpr h.once
  · intro c hc hin
    exact h.unsent c hc (hmoved.mem_iff.mp hin)
  · exact fun l' hl' => h.letters l' (hrest l' hl')
  · intro v hv c hc
    rcases List.mem_append.mp hv with hv | hv
    · exact h.verdicts v hv c hc
    · obtain rfl := List.mem_singleton.mp hv
      exact hflag c hc
  · intro a ha c hc
    rcases List.mem_append.mp ha with ha | ha
    · exact hcame c _ (h.answers a ha c hc)
    · obtain ⟨peer, -, rfl⟩ := Option.map_eq_some_iff.mp (Option.mem_toList.mp ha)
      exact ⟨_, List.mem_append_right _ (List.mem_singleton_self _), hc, rfl⟩
  · intro c bytes hbytes
    obtain ⟨r, hr, hwas⟩ := h.inboxes c bytes hbytes
    exact ⟨r, hr, hcame c r hwas⟩
  · exact fun c r hr hne => hcame c r (h.returned c r hr hne)
  · exact h.bound
  · exact fun l' hl' => h.letterPeers l' (hrest l' hl')
  · intro a ha c hc
    rcases List.mem_append.mp ha with ha | ha
    · exact h.answerPeers a ha c hc
    · obtain ⟨peer, hpeer, rfl⟩ := Option.map_eq_some_iff.mp (Option.mem_toList.mp ha)
      exact h.letterPeers l hmem peer c hpeer hc

theorem Consistent.take (h : Consistent asks w) {abi : PointerWidth} {i : MonitorId}
    (hstep : w.take abi i = some w') : Consistent asks w' := by
  rw [Exchange.take] at hstep
  split at hstep
  · cases hstep
  · split at hstep
    · rename_i listener l hlistener hfind
      have hperm := perm_of_find? hfind
      have hclose : Consistent asks (w.close i) :=
        h.lose rfl rfl rfl List.filter_sublist List.filter_sublist
      dsimp only at hstep
      split at hstep
      · rename_i request hround
        obtain rfl := Option.some.inj hstep
        have hlost : ∀ monitors, Consistent asks
            { w with queue := w.queue.eraseP (·.monitor == i), monitors := monitors } :=
          fun monitors => h.lose rfl rfl rfl List.eraseP_sublist (List.Sublist.refl _)
        cases request with
        | rearm ignoreDisable =>
            apply h.ran hperm
            intro c hc
            have hdatagram := h.letters l (List.mem_of_find?_eq_some hfind) c hc
            rcases iteration_rearm abi hdatagram with haborted | hrearm
            · rw [haborted] at hround
              cases hround
            · rw [hrearm] at hround
              cases hround
              rfl
        | start | stop | exit | zygoteInjected | daemonSetInfo | daemonSetErrorInfo | systemServerStarted | unknown =>
            exact hlost _
      · obtain rfl := Option.some.inj hstep
        exact h.lose rfl rfl rfl List.eraseP_sublist (List.Sublist.refl _)
      · obtain rfl := Option.some.inj hstep
        exact hclose
    · cases hstep

theorem Consistent.reply (h : Consistent asks w) {i : MonitorId} {room : Bool}
    (hstep : w.reply i room = some w') : Consistent asks w' := by
  obtain ⟨a, hfind, hw'⟩ := Option.map_eq_some_iff.mp hstep
  have hlost : Consistent asks { w with answers := w.answers.eraseP (·.monitor == i) } :=
    h.lose rfl rfl rfl (List.Sublist.refl _) List.eraseP_sublist
  dsimp only at hw'
  split at hw'
  · exact hw' ▸ hlost
  · rename_i call hbound
    split_ifs at hw'
    · subst hw'
      have hcaller : a.caller = some call := h.answerPeers a (List.mem_of_find?_eq_some hfind) call hbound
      have hcame : w.Came call a.verdict := h.answers a (List.mem_of_find?_eq_some hfind) call hcaller
      refine hlost.update call _ w.bound rfl id ?_ (h.returned call) (h.bound call)
        (fun d _ name hname => hname) hlost.letterPeers hlost.answerPeers
      intro bytes hbytes
      rcases List.mem_append.mp hbytes with hbytes | hbytes
      · exact h.inboxes call bytes hbytes
      · exact ⟨a.verdict, List.mem_singleton.mp hbytes, hcame⟩
    · exact hw' ▸ hlost

theorem Consistent.step (h : Consistent asks w) {abi : PointerWidth} {label : ExchangeLabel} (hfresh : Fresh w label)
    (hstep : exchangeStep abi w label = some w') : Consistent asks w' := by
  cases label with
  | prepare call name => exact h.prepare hfresh hstep
  | send call fails grows outcomes => exact h.send hstep
  | receive call fails => exact h.receive hstep
  | post arrival => exact h.post hstep
  | listen i listener =>
      rw [exchangeStep, Exchange.listen] at hstep
      split_ifs at hstep
      obtain rfl := Option.some.inj hstep
      exact h.lose rfl rfl rfl (List.Sublist.refl _) (List.Sublist.refl _)
  | close i =>
      obtain rfl := Option.some.inj hstep
      exact h.lose rfl rfl rfl List.filter_sublist List.filter_sublist
  | take i => exact h.take hstep
  | reply i room => exact h.reply hstep

end Step

/-! ## Whole runs -/

section Runs

variable {asks : CallId → Bool} {w : Exchange}

/-- At most one verdict is about a call. -/
theorem Consistent.length_le_one (h : Consistent asks w) (c : CallId) :
    (w.verdicts.filter fun v => v.caller == some c).length ≤ 1 := by
  have hnodup : w.callers.Nodup := (List.nodup_append.mp h.once).2.1
  have hcount := List.nodup_iff_count_le_one.mp hnodup c
  rwa [Exchange.callers, List.count_filterMap, List.countP_eq_length_filter] at hcount

/-- For any number of callers and monitors, in every order of their steps: the message of a call is acted on at most
once, and if the call returns a verdict other than a failure, it was, with the flag of the call, and the verdict is
what the monitor came to. -/
theorem returned_own_verdict (abi : PointerWidth) {w₀ w : Exchange} (h₀ : w₀.Start)
    (h : GuardedReach (exchangeStep abi) Fresh w₀ w) (c : CallId) :
    (w.verdicts.filter fun v => v.caller == some c).length ≤ 1 ∧
      ∀ r, (w.calls c).phase = .returned r → r ≠ .failed →
        w.verdicts.filter (fun v => v.caller == some c) = [⟨some c, (w₀.calls c).ignoreDisable, r⟩] := by
  have hw := h.invariant h₀.consistent fun _ _ _ hI hfresh hstep => hI.step hfresh hstep
  refine ⟨hw.length_le_one c, fun r hphase hr => ?_⟩
  obtain ⟨v, hv, hcaller, hresult⟩ := hw.returned c r hphase hr
  have hmem : v ∈ w.verdicts.filter fun v => v.caller == some c :=
    List.mem_filter.mpr ⟨hv, beq_iff_eq.mpr hcaller⟩
  have hflag := hw.verdicts v hv c hcaller
  have hv' : v = ⟨some c, (w₀.calls c).ignoreDisable, r⟩ := by
    rw [← hcaller, ← hresult, ← hflag]
  rw [← hv']
  obtain ⟨a, ha⟩ : ∃ a, (w.verdicts.filter fun v => v.caller == some c) = [a] := by
    apply List.length_eq_one_iff.mp
    exact Nat.le_antisymm (hw.length_le_one c) (List.length_pos_of_mem hmem)
  rw [ha] at hmem ⊢
  rw [List.mem_singleton.mp hmem]

end Runs

/-- A monitor that has init, before anybody sent a rearm. -/
def idleExchange : Exchange where
  calls c := ⟨c == 1, .preparing, []⟩
  bound _ := none
  monitors i := if i = 0 then some ⟨[], ⟨bootMonitor, [], []⟩⟩ else none
  owner := some 0
  queue := []
  answers := []
  verdicts := []

theorem start_idleExchange : idleExchange.Start := ⟨fun _ => ⟨rfl, rfl⟩, fun _ => rfl, rfl, rfl, rfl⟩

/-- Two calls, of which the first one gives up before it is answered. -/
def twoCalls : List ExchangeLabel :=
  [.prepare 0 (some 11), .prepare 1 (some 12), .send 0 false (fun _ => true) noProcesses,
    .send 1 false (fun _ => true) noProcesses, .take 0, .receive 0 true, .reply 0 true, .take 0, .reply 0 true,
    .receive 1 false]

theorem returned_own_verdict_twoCalls :
    ∃ w, replay (exchangeStep .bits64) idleExchange twoCalls = some w ∧
      (w.calls 1).phase = .returned .noZygote ∧
      w.verdicts.filter (fun v => v.caller == some 1) = [⟨some 1, true, .noZygote⟩] := by
  refine ⟨_, rfl, rfl, (returned_own_verdict .bits64 start_idleExchange
    (guardedReach_of_replay twoCalls rfl ?_) 1).2 .noZygote rfl RearmResult.noConfusion⟩
  -- when the sockets are bound nothing is on its way yet
  refine ⟨⟨List.forall_mem_nil _, List.forall_mem_nil _⟩, fun s₁ h₁ => ⟨?_, fun _ _ => ⟨trivial, fun _ _ => ⟨trivial,
    fun _ _ => ⟨trivial, fun _ _ => ⟨trivial, fun _ _ => ⟨trivial, fun _ _ => ⟨trivial, fun _ _ => ⟨trivial,
    fun _ _ => ⟨trivial, fun _ _ => trivial⟩⟩⟩⟩⟩⟩⟩⟩⟩⟩
  obtain rfl := Option.some.inj h₁
  exact ⟨List.forall_mem_nil _, List.forall_mem_nil _⟩

end NeoZygisk.Monitor
