import Mathlib.Data.List.DropRight
import NeoZygisk.Lib.Bytes
import NeoZygisk.Monitor.Session

/-!
# The control socket

`HandleEvent` takes the datagrams that wait on the control socket one by one: it peeks at a header, computes
the size of the message from it, reads that many bytes and switches on the command. `accepts` is the format
these messages have. The handler keeps to it as long as no message that carries a payload has a negative
length, bytes behind its payload, or a length the buffer cannot be grown to: `keepsFormat_iff`.

A datagram that waits can be read, so the calls of `recv` only fail with `EAGAIN`. The loader is built
without exceptions: a buffer that cannot be resized ends the monitor, and so does a text that no string has
room for.
-/

set_option autoImplicit false

namespace NeoZygisk.Monitor

open NeoZygisk.Lib.Bytes

abbrev Byte := BitVec 8

/-! ## Messages -/

/-- `Command`. Values off the socket may be none of them. -/
inductive Command where
  | start
  | stop
  | exit
  | zygoteInjected
  | daemonSetInfo
  | daemonSetErrorInfo
  | systemServerStarted
  | rearm
  | unknown (value : Nat)
  deriving DecidableEq, Repr

def Command.ofValue : Nat → Command
  | 1 => .start
  | 2 => .stop
  | 3 => .exit
  | 4 => .zygoteInjected
  | 5 => .daemonSetInfo
  | 6 => .daemonSetErrorInfo
  | 7 => .systemServerStarted
  | 8 => .rearm
  | value => .unknown value

/-- Only these carry a payload; every other command is the bare enum value. -/
def Command.carriesPayload : Command → Bool
  | .rearm | .zygoteInjected | .daemonSetInfo | .daemonSetErrorInfo => true
  | _ => false

/-- `sizeof(Command)`. -/
def commandSize : Nat := 4

/-- `sizeof(CtlMessage)`. -/
def headerSize : Nat := 8

/-- The field `cmd` of a `CtlMessage`. -/
def ctlCmd (msg : List Byte) : Command := .ofValue (wordAt 0 msg)

/-- The field `length` of a `CtlMessage`, an `int`. -/
def ctlLength (msg : List Byte) : Int := intAt 4 msg

/-- What a message asks for, as the switch of `HandleEvent` reads it. -/
inductive Request where
  | start
  | stop
  | exit
  | rearm (ignoreDisable : Bool)
  | zygoteInjected (pid : Int)
  | daemonSetInfo (info : List Byte)
  | daemonSetErrorInfo (error : List Byte)
  | systemServerStarted
  | unknown (value : Nat)
  deriving DecidableEq, Repr

/-- The view `{full_msg.data, (size_t) full_msg.length}` of the bytes behind the header; `none` if it does not lie
inside the buffer. It does where the message has been read with its length. A negative length makes a view of
almost the whole address space. -/
def payloadView (data : List Byte) (length : Int) : Option (List Byte) :=
  if 0 ≤ length ∧ length ≤ data.length then some (data.take length.toNat) else none

/-- The switch of `HandleEvent` on the message at the start of the buffer. It is `none` for a text outside of the
buffer: `without_trailing_nuls` leaves all but a few bytes of the view, and no string takes the rest. -/
def readRequest (fullMsg : List Byte) : Option Request :=
  let length := ctlLength fullMsg
  let data := fullMsg.drop headerSize
  match ctlCmd fullMsg with
  | .start => some .start
  | .stop => some .stop
  | .exit => some .exit
  | .rearm => some (.rearm (decide (length = 1) && data.getD 0 0 != 0))
  -- a confirmation without a whole pid is passed on with none
  | .zygoteInjected => some (.zygoteInjected (if length = 4 then intAt 0 data else -1))
  | .daemonSetInfo => (payloadView data length).map .daemonSetInfo
  | .daemonSetErrorInfo => (payloadView data length).map .daemonSetErrorInfo
  | .systemServerStarted => some .systemServerStarted
  | .unknown value => some (.unknown value)

/-! ## What a request does -/

/-- The monitor, and the texts of the daemon that its status shows. -/
structure ControlState where
  monitor : AppMonitor
  daemonInfo : List Byte
  daemonErrorInfo : List Byte

/-- `without_trailing_nuls`. -/
def withoutTrailingNuls (text : List Byte) : List Byte := text.rdropWhile (· = 0)

/-- The calls the switch makes. -/
def Request.handle (o : RearmOutcomes) (c : ControlState) : Request → ControlState
  | .start => { c with monitor := c.monitor.requestStart }
  | .stop => { c with monitor := c.monitor.requestStop "user requested" }
  | .exit => { c with monitor := c.monitor.requestExit }
  | .rearm ignoreDisable => { c with monitor := (c.monitor.requestRearm o ignoreDisable).2 }
  | .zygoteInjected pid =>
      { c with monitor := { c.monitor with abi := c.monitor.abi.notifyInjected pid } }
  | .daemonSetInfo info => { c with daemonInfo := withoutTrailingNuls info }
  | .daemonSetErrorInfo error =>
      { c with
        monitor := { c.monitor with abi := c.monitor.abi.setDaemonCrashed }
        daemonErrorInfo := withoutTrailingNuls error }
  | .systemServerStarted => c
  | .unknown _ => c

/-! ## The handler -/

/-- A rearm that finds nothing running. -/
def noProcesses : RearmOutcomes := ⟨⟨[], List.nodup_nil⟩, none, fun _ => ⟨none, false⟩⟩

/-- The monitor is built for both widths of `size_t`. -/
inductive PointerWidth where
  | bits32
  | bits64
  deriving DecidableEq, Repr

def PointerWidth.bits : PointerWidth → Nat
  | .bits32 => 32
  | .bits64 => 64

/-- The largest size of a `std::vector<uint8_t>`. -/
def PointerWidth.maxSize (abi : PointerWidth) : Nat := 2 ^ (abi.bits - 1) - 1

/-- A datagram that waits on the socket, and what its iteration meets: the sizes of a buffer that memory can
be had for, and the outcomes of a rearm. -/
structure Arrival where
  datagram : List Byte
  grows : Nat → Bool
  outcomes : RearmOutcomes

/-- Whether `buf_.resize(n)` returns. Room for a header was made before. -/
def Arrival.fits (abi : PointerWidth) (n : Nat) (a : Arrival) : Bool :=
  decide (n ≤ headerSize) || decide (n ≤ abi.maxSize) && a.grows n

/-- `SocketHandler`: the datagrams on `sock_fd_`, `buf_`, and what the handlers of the commands change. -/
structure SocketHandler where
  queue : List Arrival
  buf : List Byte
  state : ControlState

/-- What an iteration came to. -/
inductive Round where
  | dispatched (request : Request)
  | discarded
  /-- The monitor ended. -/
  | aborted
  deriving DecidableEq, Repr

/-- `sizeof(CtlMessage) + msg_header.length`: the `int` is converted to `size_t`, and the sum to `ssize_t`. -/
def realSize (abi : PointerWidth) (length : Int) : BitVec abi.bits :=
  BitVec.ofNat abi.bits headerSize + BitVec.ofInt abi.bits length

namespace SocketHandler

/-- The second half of an iteration, from `buf_.resize(real_size)` on. This `recvfrom` has no `MSG_TRUNC`, so
it returns the number of bytes it stored. Shrinking the vector leaves the bytes of the header in place, and
`full_msg` reads them there. A monitor that has ended keeps its state as a record. -/
def readMessage (abi : PointerWidth) (size : BitVec abi.bits) (a : Arrival) (rest : List Arrival)
    (h : SocketHandler) : Round × SocketHandler :=
  if a.fits abi size.toNat then
    let received := a.datagram.take size.toNat
    let buf := store received (resize size.toNat h.buf)
    if (received.length : Int) ≠ size.toInt then (.discarded, { h with queue := rest, buf })
    else
      -- behind the message the header's bytes are still those of the buffer before
      match readRequest (store buf h.buf) with
      | some request => (.dispatched request, { queue := rest, buf, state := request.handle a.outcomes h.state })
      | none => (.aborted, { h with queue := rest, buf })
  else (.aborted, h)

/-- The `recv` that takes a datagram from the queue after its header turned out wrong. -/
def discard (a : Arrival) (rest : List Arrival) (h : SocketHandler) : Round × SocketHandler :=
  (.discarded, { h with queue := rest, buf := store (a.datagram.take h.buf.length) h.buf })

/-- One iteration on the oldest datagram. With `MSG_TRUNC` the peek returns the size of the datagram. -/
def iteration (abi : PointerWidth) (a : Arrival) (rest : List Arrival) (h : SocketHandler) :
    Round × SocketHandler :=
  let buf := store (a.datagram.take headerSize) (resize headerSize h.buf)
  let h := { h with buf }
  let nread := a.datagram.length
  if (ctlCmd buf).carriesPayload then
    if nread < headerSize then h.discard a rest
    else h.readMessage abi (realSize abi (ctlLength buf)) a rest
  else
    if nread ≠ commandSize then h.discard a rest
    else h.readMessage abi (BitVec.ofNat abi.bits commandSize) a rest

theorem readMessage_queue {abi : PointerWidth} {size : BitVec abi.bits} {a : Arrival}
    {rest : List Arrival} {h : SocketHandler} (hround : (h.readMessage abi size a rest).1 ≠ .aborted) :
    (h.readMessage abi size a rest).2.queue = rest := by
  simp only [readMessage] at hround ⊢
  split_ifs at hround ⊢
  · rfl
  · split
    · rfl
    · rfl
  · exact absurd rfl hround

/-- An iteration takes one datagram from the queue, unless it ends the monitor. -/
theorem iteration_queue {abi : PointerWidth} {a : Arrival} {rest : List Arrival} {h : SocketHandler}
    (hround : (h.iteration abi a rest).1 ≠ .aborted) : (h.iteration abi a rest).2.queue = rest := by
  simp only [iteration] at hround ⊢
  split_ifs at hround ⊢
  · rfl
  · exact readMessage_queue hround
  · rfl
  · exact readMessage_queue hround

/-- `HandleEvent`: what each iteration came to, and the handler after them. The loop ends when the queue is
empty. -/
def handleEvent (abi : PointerWidth) (h : SocketHandler) : List Round × SocketHandler :=
  match hqueue : h.queue with
  | [] => ([], h)
  | a :: rest =>
      let next := h.iteration abi a rest
      if hround : next.1 = .aborted then ([.aborted], next.2)
      else
        have hshorter : next.2.queue.length < h.queue.length := by
          rw [iteration_queue hround, hqueue]
          exact Nat.lt_succ_self rest.length
        let served := next.2.handleEvent abi
        (next.1 :: served.1, served.2)
termination_by h.queue.length

theorem handleEvent_nil {abi : PointerWidth} {h : SocketHandler} (hqueue : h.queue = []) :
    h.handleEvent abi = ([], h) := by
  rw [handleEvent]
  split
  · rfl
  · rename_i a rest hcons
    rw [hqueue] at hcons
    cases hcons

theorem handleEvent_cons {abi : PointerWidth} {h : SocketHandler} {a : Arrival} {rest : List Arrival}
    (hqueue : h.queue = a :: rest) :
    h.handleEvent abi =
      if (h.iteration abi a rest).1 = .aborted then ([.aborted], (h.iteration abi a rest).2)
      else
        ((h.iteration abi a rest).1 :: ((h.iteration abi a rest).2.handleEvent abi).1,
          ((h.iteration abi a rest).2.handleEvent abi).2) := by
  rw [handleEvent]
  split
  · rename_i hnil
    rw [hqueue] at hnil
    cases hnil
  · rename_i b rest' hcons
    rw [hqueue] at hcons
    cases hcons
    simp only [dite_eq_ite]

end SocketHandler

/-! ## The format -/

/-- The request of a command with its payload. -/
def Request.ofMessage : Command → List Byte → Request
  | .start, _ => .start
  | .stop, _ => .stop
  | .exit, _ => .exit
  | .rearm, payload => .rearm (decide (payload.length = 1) && payload.getD 0 0 != 0)
  | .zygoteInjected, payload => .zygoteInjected (if payload.length = 4 then intAt 0 payload else -1)
  | .daemonSetInfo, payload => .daemonSetInfo payload
  | .daemonSetErrorInfo, payload => .daemonSetErrorInfo payload
  | .systemServerStarted, _ => .systemServerStarted
  | .unknown value, _ => .unknown value

/-- The format of the messages: a command that carries a payload is followed by its length and exactly that
many bytes, and every other command stands alone. -/
def accepts (datagram : List Byte) : Option Request :=
  if (ctlCmd datagram).carriesPayload then
    if headerSize ≤ datagram.length ∧ 0 ≤ ctlLength datagram ∧
        (datagram.length : Int) = headerSize + ctlLength datagram then
      some (.ofMessage (ctlCmd datagram) (datagram.drop headerSize))
    else none
  else if datagram.length = commandSize then some (.ofMessage (ctlCmd datagram) [])
  else none

/-- What the format makes of a datagram. -/
def formatRound (datagram : List Byte) : Round :=
  match accepts datagram with
  | some request => .dispatched request
  | none => .discarded

/-- What the format makes of the state: only a message changes it. -/
def formatState (c : ControlState) (a : Arrival) : ControlState :=
  match accepts a.datagram with
  | some request => request.handle a.outcomes c
  | none => c

/-- The handler takes every datagram, one in each iteration, and makes of it what the format does. -/
structure SocketHandler.KeepsFormat (abi : PointerWidth) (h : SocketHandler) : Prop where
  rounds : (h.handleEvent abi).1 = h.queue.map fun a => formatRound a.datagram
  queue : (h.handleEvent abi).2.queue = []
  state : (h.handleEvent abi).2.state = h.queue.foldl formatState h.state

/-- The length of a message that carries a payload is not negative, covers the rest of the datagram, and the
buffer can be grown to it. -/
def Arrival.WellSized (abi : PointerWidth) (a : Arrival) : Prop :=
  (ctlCmd a.datagram).carriesPayload = true → headerSize ≤ a.datagram.length →
    0 ≤ ctlLength a.datagram ∧ (a.datagram.length : Int) ≤ headerSize + ctlLength a.datagram ∧
      a.fits abi (headerSize + ctlLength a.datagram).toNat = true

/-! ## The size of a message -/

section Size

variable {abi : PointerWidth} {length : Int} {a : Arrival}

theorem toNat_realSize (hlow : -8 ≤ length) (hhigh : length < 2 ^ 31) :
    (realSize abi length).toNat = (headerSize + length).toNat := by
  rw [realSize, BitVec.toNat_add, BitVec.toNat_ofNat, BitVec.toNat_ofInt]
  -- modulo the width, which `omega` needs as a numeral
  cases abi with
  | bits32 =>
      simp only [PointerWidth.bits, headerSize]
      omega
  | bits64 =>
      simp only [PointerWidth.bits, headerSize]
      omega

/-- A length below the negated size of the header wraps around to a size that no vector has. -/
theorem not_fits_realSize (hlow : -2 ^ 31 ≤ length) (hhigh : length < -8) :
    a.fits abi (realSize abi length).toNat = false := by
  have hsize : abi.maxSize < (realSize abi length).toNat ∧ headerSize < (realSize abi length).toNat := by
    rw [realSize, BitVec.toNat_add, BitVec.toNat_ofNat, BitVec.toNat_ofInt]
    cases abi with
    | bits32 =>
        simp only [PointerWidth.maxSize, PointerWidth.bits, headerSize]
        omega
    | bits64 =>
        simp only [PointerWidth.maxSize, PointerWidth.bits, headerSize]
        omega
  simp [Arrival.fits, hsize.1.not_ge, hsize.2.not_ge]

/-- The size of a buffer is not negative as an `ssize_t`. -/
theorem toInt_of_fits {size : BitVec abi.bits} (h : a.fits abi size.toNat = true) :
    size.toInt = size.toNat := by
  have hsize : size.toNat ≤ headerSize ∨ size.toNat ≤ abi.maxSize := by
    simp only [Arrival.fits, Bool.or_eq_true, Bool.and_eq_true, decide_eq_true_iff] at h
    exact h.imp_right And.left
  apply BitVec.toInt_eq_toNat_of_lt
  cases abi with
  | bits32 =>
      simp only [PointerWidth.maxSize, PointerWidth.bits, headerSize] at hsize ⊢
      omega
  | bits64 =>
      simp only [PointerWidth.maxSize, PointerWidth.bits, headerSize] at hsize ⊢
      omega

end Size

/-! ## Reading a message -/

section Reading

variable {abi : PointerWidth} {a : Arrival} {rest : List Arrival} {h : SocketHandler}

theorem ctlCmd_eq_of_take {msg msg' : List Byte} (h : msg.take 4 = msg'.take 4) :
    ctlCmd msg = ctlCmd msg' := congrArg Command.ofValue (wordAt_eq_of_take h)

theorem ctlLength_eq_of_take {msg msg' : List Byte} (h : msg.take 8 = msg'.take 8) :
    ctlLength msg = ctlLength msg' := intAt_eq_of_take h

/-- A command that stands alone is read without looking behind it. -/
theorem readRequest_of_bare {msg : List Byte} (h : (ctlCmd msg).carriesPayload = false) :
    readRequest msg = some (.ofMessage (ctlCmd msg) []) := by
  cases hcmd : ctlCmd msg with
  | start | stop | exit | systemServerStarted | unknown => simp only [readRequest, hcmd, Request.ofMessage]
  | rearm | zygoteInjected | daemonSetInfo | daemonSetErrorInfo => simp [hcmd, Command.carriesPayload] at h

/-- A message of exactly the size its length gives is read with its payload. -/
theorem readRequest_of_payload {msg : List Byte} (hheader : headerSize ≤ msg.length)
    (hsize : (msg.length : Int) = headerSize + ctlLength msg) :
    readRequest msg = some (.ofMessage (ctlCmd msg) (msg.drop headerSize)) := by
  have hlength : ctlLength msg = (msg.drop headerSize).length := by
    rw [List.length_drop]
    omega
  cases hcmd : ctlCmd msg with
  | start | stop | exit | systemServerStarted | unknown => simp only [readRequest, hcmd, Request.ofMessage]
  | rearm => simp [readRequest, hcmd, Request.ofMessage, hlength]
  | zygoteInjected =>
      simp only [readRequest, hcmd, Request.ofMessage, hlength]
      exact congrArg (fun pid => some (Request.zygoteInjected pid)) (if_congr (by omega) rfl rfl)
  | daemonSetInfo => simp [readRequest, hcmd, Request.ofMessage, hlength, payloadView]
  | daemonSetErrorInfo => simp [readRequest, hcmd, Request.ofMessage, hlength, payloadView]

namespace SocketHandler

/-- The iteration on a datagram makes of it what the format does. -/
def Follows (abi : PointerWidth) (a : Arrival) (rest : List Arrival) (h : SocketHandler) : Prop :=
  (h.iteration abi a rest).1 = formatRound a.datagram ∧
    (h.iteration abi a rest).2.state = formatState h.state a

theorem readMessage_of_not_fits {size : BitVec abi.bits} (hfits : a.fits abi size.toNat = false) :
    h.readMessage abi size a rest = (.aborted, h) := by
  rw [readMessage, hfits]
  rfl

theorem readMessage_of_short {size : BitVec abi.bits} (hfits : a.fits abi size.toNat = true)
    (hshort : a.datagram.length < size.toNat) :
    h.readMessage abi size a rest =
      (.discarded, { h with queue := rest, buf := store a.datagram (resize size.toNat h.buf) }) := by
  have hsize : ((a.datagram.take size.toNat).length : Int) ≠ size.toInt := by
    rw [toInt_of_fits hfits, List.length_take]
    omega
  rw [readMessage, if_pos hfits, if_pos hsize, List.take_of_length_le hshort.le]

/-- As many bytes as were expected: what was read is the start of the datagram, over the header. -/
theorem readMessage_of_long {size : BitVec abi.bits} (hfits : a.fits abi size.toNat = true)
    (hlong : size.toNat ≤ a.datagram.length) :
    h.readMessage abi size a rest =
      match readRequest (store (a.datagram.take size.toNat) h.buf) with
      | some request =>
          (.dispatched request, ⟨rest, a.datagram.take size.toNat, request.handle a.outcomes h.state⟩)
      | none => (.aborted, ⟨rest, a.datagram.take size.toNat, h.state⟩) := by
  have hlength : (a.datagram.take size.toNat).length = size.toNat := List.length_take_of_le hlong
  have hsize : ¬ ((a.datagram.take size.toNat).length : Int) ≠ size.toInt := by
    rw [toInt_of_fits hfits, hlength]
    exact not_not_intro rfl
  have hbuf : store (a.datagram.take size.toNat) (resize size.toNat h.buf) = a.datagram.take size.toNat :=
    store_of_length_le (by rw [length_resize, hlength])
  simp only [readMessage, hfits, if_true, if_neg hsize, hbuf]

/-- A whole header leaves nothing of what the buffer held before. -/
theorem iteration_of_header (hheader : headerSize ≤ a.datagram.length) :
    h.iteration abi a rest =
      if (ctlCmd a.datagram).carriesPayload then
        { h with buf := a.datagram.take headerSize }.readMessage abi
          (realSize abi (ctlLength a.datagram)) a rest
      else { h with buf := a.datagram.take headerSize }.discard a rest := by
  have hbuf : store (a.datagram.take headerSize) (resize headerSize h.buf) = a.datagram.take headerSize :=
    store_of_length_le (by rw [length_resize, List.length_take_of_le hheader])
  have hcmd : ctlCmd (a.datagram.take headerSize) = ctlCmd a.datagram :=
    ctlCmd_eq_of_take (by rw [List.take_take]; rfl)
  have hlength : ctlLength (a.datagram.take headerSize) = ctlLength a.datagram :=
    ctlLength_eq_of_take (by rw [List.take_take]; rfl)
  have hnread : a.datagram.length ≠ commandSize := by
    simp only [headerSize, commandSize] at hheader ⊢
    omega
  simp only [iteration, hbuf, hcmd, hlength, if_neg hheader.not_gt, if_pos hnread]

/-- The four bytes of a bare command are the command, and the others of the header are not looked at. -/
theorem iteration_of_bare (hlength : a.datagram.length = commandSize)
    (hcarries : (ctlCmd a.datagram).carriesPayload = false) :
    h.iteration abi a rest =
      (.dispatched (.ofMessage (ctlCmd a.datagram) []),
        ⟨rest, a.datagram, (Request.ofMessage (ctlCmd a.datagram) []).handle a.outcomes h.state⟩) := by
  have htake : a.datagram.take headerSize = a.datagram := List.take_of_length_le (by rw [hlength]; decide)
  have hcmd : ∀ buf : List Byte, ctlCmd (store a.datagram buf) = ctlCmd a.datagram :=
    fun buf => ctlCmd_eq_of_take (take_store hlength.ge)
  have hsize : (BitVec.ofNat abi.bits commandSize).toNat = commandSize := by
    cases abi with
    | bits32 => rfl
    | bits64 => rfl
  have hfits : a.fits abi (BitVec.ofNat abi.bits commandSize).toNat = true := by
    rw [hsize]
    rfl
  have hlong : (BitVec.ofNat abi.bits commandSize).toNat ≤ a.datagram.length := by rw [hsize, hlength]
  have hread : a.datagram.take (BitVec.ofNat abi.bits commandSize).toNat = a.datagram :=
    List.take_of_length_le (by rw [hsize, hlength])
  have hrequest : ∀ buf : List Byte,
      readRequest (store a.datagram buf) = some (.ofMessage (ctlCmd a.datagram) []) := by
    intro buf
    rw [readRequest_of_bare (by rw [hcmd, hcarries]), hcmd]
  simp only [iteration, htake, hcmd, hcarries, hlength, readMessage_of_long hfits hlong, hread, hrequest,
    Bool.false_eq_true, if_false, ne_eq, not_true_eq_false]

/-- A datagram shorter than a header is a message only if it is a bare command, whatever command the buffer
makes of it. -/
theorem follows_of_short (hshort : a.datagram.length < headerSize) : h.Follows abi a rest := by
  have hheader : ¬ headerSize ≤ a.datagram.length := hshort.not_ge
  by_cases hfour : a.datagram.length = commandSize
  · cases hcarries : (ctlCmd a.datagram).carriesPayload with
    | true =>
        have hbuf : ctlCmd (store (a.datagram.take headerSize) (resize headerSize h.buf)) =
            ctlCmd a.datagram := by
          rw [List.take_of_length_le hshort.le]
          exact ctlCmd_eq_of_take (take_store hfour.ge)
        simp [Follows, iteration, discard, formatRound, formatState, accepts, hbuf, hcarries, hshort, hheader]
    | false =>
        simp [Follows, iteration_of_bare hfour hcarries, formatRound, formatState, accepts, hcarries, hfour]
  · have hnone : accepts a.datagram = none := by
      simp [accepts, hheader, hfour]
    simp only [Follows, iteration, formatRound, formatState, hnone, if_pos hshort, if_pos hfour, ite_self,
      discard, and_self]

/-- A whole header without a payload command is no message. -/
theorem follows_of_header_bare (hheader : headerSize ≤ a.datagram.length)
    (hcarries : (ctlCmd a.datagram).carriesPayload = false) : h.Follows abi a rest := by
  have hlength : a.datagram.length ≠ commandSize := by
    simp only [headerSize, commandSize] at hheader ⊢
    omega
  simp [Follows, iteration_of_header hheader, discard, formatRound, formatState, accepts, hcarries, hlength]

/-- A payload that ends with the datagram is read as the message, and a longer one is not there to read. -/
theorem follows_of_wellSized_payload (hheader : headerSize ≤ a.datagram.length)
    (hcarries : (ctlCmd a.datagram).carriesPayload = true) (hsized : a.WellSized abi) :
    h.Follows abi a rest := by
  obtain ⟨hpos, hcovers, hfits⟩ := hsized hcarries hheader
  have hsize : (realSize abi (ctlLength a.datagram)).toNat = (headerSize + ctlLength a.datagram).toNat :=
    toNat_realSize (by omega) (intAt_lt_two_pow 4 a.datagram)
  rw [← hsize] at hfits
  rw [Follows, iteration_of_header hheader, if_pos hcarries]
  by_cases hexact : (a.datagram.length : Int) = headerSize + ctlLength a.datagram
  -- the message fills the datagram, so the second read overwrites all that the peek left
  · have hread : a.datagram.take (realSize abi (ctlLength a.datagram)).toNat = a.datagram :=
      List.take_of_length_le (by omega)
    have hover : store a.datagram (a.datagram.take headerSize) = a.datagram :=
      store_of_length_le (List.length_take_le' headerSize a.datagram)
    have haccepts : accepts a.datagram =
        some (.ofMessage (ctlCmd a.datagram) (a.datagram.drop headerSize)) := by
      rw [accepts, if_pos hcarries, if_pos ⟨hheader, hpos, hexact⟩]
    rw [readMessage_of_long hfits (by omega)]
    simp only [hread, hover, readRequest_of_payload hheader hexact, formatRound, formatState, haccepts,
      and_self]
  · have hnone : accepts a.datagram = none := by
      rw [accepts, if_pos hcarries, if_neg (fun hmessage => hexact hmessage.2.2)]
    rw [readMessage_of_short hfits (by omega)]
    simp only [formatRound, formatState, hnone, and_self]

/-- An iteration on a datagram of the right size does what the format says. -/
theorem follows_of_wellSized (hsized : a.WellSized abi) : h.Follows abi a rest := by
  by_cases hheader : headerSize ≤ a.datagram.length
  · cases hcarries : (ctlCmd a.datagram).carriesPayload with
    | true => exact follows_of_wellSized_payload hheader hcarries hsized
    | false => exact follows_of_header_bare hheader hcarries
  · exact follows_of_short (Nat.lt_of_not_le hheader)

theorem formatRound_ne_aborted (datagram : List Byte) : formatRound datagram ≠ .aborted := by
  rw [formatRound]
  split
  · exact Round.noConfusion
  · exact Round.noConfusion

/-- A payload that does not end with the datagram is cut off, a negative length leaves less than a header to
read, and both are dispatched if the monitor lives. -/
theorem wellSized_of_iteration (hround : (h.iteration abi a rest).1 = formatRound a.datagram) :
    a.WellSized abi := by
  intro hcarries hheader
  rw [iteration_of_header hheader, if_pos hcarries] at hround
  have hfits : a.fits abi (realSize abi (ctlLength a.datagram)).toNat = true := by
    by_contra hnot
    rw [readMessage_of_not_fits (Bool.eq_false_of_not_eq_true hnot)] at hround
    exact formatRound_ne_aborted a.datagram hround.symm
  have hlow : -8 ≤ ctlLength a.datagram := by
    by_contra hnot
    have hwraps : a.fits abi (realSize abi (ctlLength a.datagram)).toNat = false :=
      not_fits_realSize (neg_two_pow_le_intAt 4 a.datagram) (not_le.mp hnot)
    rw [hwraps] at hfits
    cases hfits
  have hsize : (realSize abi (ctlLength a.datagram)).toNat = (headerSize + ctlLength a.datagram).toNat :=
    toNat_realSize hlow (intAt_lt_two_pow 4 a.datagram)
  by_cases hshort : a.datagram.length < (realSize abi (ctlLength a.datagram)).toNat
  · rw [hsize] at hfits hshort
    refine ⟨?_, ?_, hfits⟩ <;> omega
  · -- what was read is dispatched or ends the monitor, so that the format has to take it for a message
    rw [readMessage_of_long hfits (Nat.le_of_not_lt hshort)] at hround
    split at hround
    · rw [formatRound, accepts, if_pos hcarries] at hround
      split_ifs at hround with hmessage
      rw [hsize] at hfits
      exact ⟨hmessage.2.1, hmessage.2.2.le, hfits⟩
    · exact absurd hround.symm (formatRound_ne_aborted a.datagram)

end SocketHandler

end Reading

/-! ## The whole queue -/

namespace SocketHandler

variable {abi : PointerWidth} {h : SocketHandler} {queue : List Arrival}

theorem keepsFormat_of_wellSized (hqueue : h.queue = queue) (hsized : ∀ a ∈ queue, a.WellSized abi) :
    h.KeepsFormat abi := by
  -- over the queue, for every buffer: no iteration depends on what the one before left there
  induction queue generalizing h with
  | nil =>
      have hserved : h.handleEvent abi = ([], h) := handleEvent_nil hqueue
      exact ⟨by rw [hserved, hqueue]; rfl, by rw [hserved, hqueue], by rw [hserved, hqueue]; rfl⟩
  | cons a rest ih =>
      obtain ⟨hround, hstate⟩ : h.Follows abi a rest :=
        follows_of_wellSized (hsized a List.mem_cons_self)
      have hgoes : (h.iteration abi a rest).1 ≠ .aborted := by
        rw [hround]
        exact formatRound_ne_aborted a.datagram
      have hnext := iteration_queue hgoes
      have hrest := ih hnext fun b hb => hsized b (List.mem_cons_of_mem a hb)
      have hserved : h.handleEvent abi = _ := handleEvent_cons hqueue
      rw [if_neg hgoes] at hserved
      constructor
      · rw [hserved, hqueue, List.map_cons, ← hround, hrest.rounds, hnext]
      · rw [hserved]
        exact hrest.queue
      · have hfold := hrest.state
        rw [hnext, hstate] at hfold
        rw [hserved, hqueue, List.foldl_cons]
        exact hfold

theorem wellSized_of_rounds (hqueue : h.queue = queue)
    (hrounds : (h.handleEvent abi).1 = queue.map fun a => formatRound a.datagram) :
    ∀ a ∈ queue, a.WellSized abi := by
  induction queue generalizing h with
  | nil => exact fun a ha => absurd ha List.not_mem_nil
  | cons a rest ih =>
      rw [handleEvent_cons hqueue, List.map_cons] at hrounds
      by_cases hgoes : (h.iteration abi a rest).1 = .aborted
      · rw [if_pos hgoes] at hrounds
        exact absurd (List.cons.inj hrounds).1.symm (formatRound_ne_aborted a.datagram)
      · rw [if_neg hgoes] at hrounds
        obtain ⟨hround, hrest⟩ := List.cons.inj hrounds
        intro b hb
        rcases List.mem_cons.mp hb with rfl | hb
        · exact wellSized_of_iteration hround
        · exact ih (iteration_queue hgoes) hrest b hb

/-- The control socket keeps to its format exactly if all the datagrams have the right size. -/
theorem keepsFormat_iff (abi : PointerWidth) (h : SocketHandler) :
    h.KeepsFormat abi ↔ ∀ a ∈ h.queue, a.WellSized abi := by
  constructor
  · intro hkeeps
    exact wellSized_of_rounds rfl hkeeps.rounds
  · intro hsized
    exact keepsFormat_of_wellSized rfl hsized

/-- The datagrams on the socket of a monitor with a running daemon. -/
def waiting (datagrams : List (List Byte)) : SocketHandler where
  queue := datagrams.map fun d => ⟨d, fun _ => true, noProcesses⟩
  buf := []
  state := ⟨bootMonitor, [], []⟩

/-- A `CtlMessage` with the bytes behind its header. -/
def ctlMessage (cmd : Nat) (length : Int) (data : List Byte) : List Byte :=
  toBytes 4 cmd ++ toBytes 4 (BitVec.ofInt 32 length).toNat ++ data

/-- Lengths of `-9` and `-1` end the monitor before the STOP behind them is read: there is no buffer for the one
and no string for the other. A confirmation with a byte too much is dispatched. -/
theorem malformed_dispatched :
    ((waiting [ctlMessage 5 (-9) [], toBytes 4 2]).handleEvent .bits64).1 = [.aborted] ∧
      ¬ (waiting [ctlMessage 5 (-9) [], toBytes 4 2]).KeepsFormat .bits64 ∧
      ((waiting [ctlMessage 5 (-1) [], toBytes 4 2]).handleEvent .bits64).1 = [.aborted] ∧
      ¬ (waiting [ctlMessage 5 (-1) [], toBytes 4 2]).KeepsFormat .bits64 ∧
      ((waiting [ctlMessage 4 4 [44, 3, 0, 0, 0]]).handleEvent .bits64).1 =
        [.dispatched (.zygoteInjected 812)] ∧
      ¬ (waiting [ctlMessage 4 4 [44, 3, 0, 0, 0]]).KeepsFormat .bits64 := by
  have hbuffer : ((waiting [ctlMessage 5 (-9) [], toBytes 4 2]).handleEvent .bits64).1 = [.aborted] := by
    rw [handleEvent_cons rfl]
    decide
  have hstring : ((waiting [ctlMessage 5 (-1) [], toBytes 4 2]).handleEvent .bits64).1 = [.aborted] := by
    rw [handleEvent_cons rfl]
    decide
  have hcut : ((waiting [ctlMessage 4 4 [44, 3, 0, 0, 0]]).handleEvent .bits64).1 =
      [.dispatched (.zygoteInjected 812)] := by
    rw [handleEvent_cons rfl, if_neg (by decide), handleEvent_nil rfl]
    decide
  refine ⟨hbuffer, fun hkeeps => ?_, hstring, fun hkeeps => ?_, hcut, fun hkeeps => ?_⟩
  · exact absurd (hbuffer.symm.trans hkeeps.rounds) (by decide)
  · exact absurd (hstring.symm.trans hkeeps.rounds) (by decide)
  · exact absurd (hcut.symm.trans hkeeps.rounds) (by decide)

end SocketHandler

end NeoZygisk.Monitor
