import NeoZygisk.Common.ProcessFlags
import NeoZygisk.Monitor.ControlSocket

/-!
# The messages on the control socket

Three programs write to the control socket: the daemon sends what it serves, the heartbeats of the zygotes
and the start of the system server, and the commands of the user and of the stages come from the tracer's own
binary. `Message` has the messages they build and `Message.datagram` the bytes. The handler reads every one
of them as what it was sent for, whatever it read before: `handleEvent_delivered`.
-/

set_option autoImplicit false

namespace NeoZygisk.Monitor

open NeoZygisk.Lib.Bytes
open NeoZygisk.Common

/-! ## The writers -/

/-- The name of a file; a module is named after its directory. -/
structure FileName where
  bytes : List Byte
  noNul : (0 : Byte) ∉ bytes

/-- The bytes of a format string; all of them are ASCII. -/
def bytesOf (text : String) : List Byte := text.toList.map fun c => BitVec.ofNat 8 c.toNat

/-- A count as `{}` formats it. -/
def decimal (n : Nat) : List Byte := (Nat.toDigits 10 n).map fun c => BitVec.ofNat 8 c.toNat

/-- A root implementation as `{:?}` formats it. -/
def debugName : RootImpl → String
  | .none => "None"
  | .tooOld => "TooOld"
  | .multiple => "Multiple"
  | .apatch => "APatch"
  | .kernelSU => "KernelSU"
  | .magisk => "Magisk"

/-- The text that `send_startup_info` formats. -/
def startupInfo (root : RootImpl) (modules : List FileName) : List Byte :=
  if root.supported then
    let moduleNames := modules.map FileName.bytes
    if moduleNames.isEmpty then bytesOf "\tRoot: " ++ bytesOf (debugName root)
    else
      bytesOf "\tRoot: " ++ bytesOf (debugName root) ++ bytesOf "\n\tModules (" ++ decimal modules.length ++
        bytesOf "):\n\t\t" ++ (bytesOf "\n\t\t").intercalate moduleNames
  else bytesOf "\t\tInvalid root implementation: " ++ bytesOf (debugName root)

/-- What is sent to the monitor: by the daemon, and by `send_control_command` and `send_rearm_command`. -/
inductive Message where
  | startup (root : RootImpl) (modules : List FileName)
  | heartbeat (peerPid : BitVec 32)
  | systemServerStarted
  | start
  | stop
  | exit
  | rearm (ignoreDisable : Bool)

/-- The bytes of a message. The length of a text counts its terminator and is a `u32`. -/
def Message.datagram : Message → List Byte
  | .startup root modules =>
      let info := startupInfo root modules
      toBytes 4 (if root.supported then 5 else 6) ++ toBytes 4 (info.length % 2 ^ 32 + 1) ++ info ++ [0]
  | .heartbeat peerPid => toBytes 4 4 ++ toBytes 4 4 ++ toBytes 4 peerPid.toNat
  | .systemServerStarted => toBytes 4 7
  | .start => toBytes 4 1
  | .stop => toBytes 4 2
  | .exit => toBytes 4 3
  | .rearm ignoreDisable => toBytes 4 8 ++ toBytes 4 1 ++ [if ignoreDisable then 1 else 0]

/-! ## What a message is sent for -/

/-- The command of a message with its payload. The payload of a text has the terminator. -/
def Message.request : Message → Request
  | .startup root modules =>
      if root.supported then .daemonSetInfo (startupInfo root modules ++ [0])
      else .daemonSetErrorInfo (startupInfo root modules ++ [0])
  | .heartbeat peerPid => .zygoteInjected peerPid.toInt
  | .systemServerStarted => .systemServerStarted
  | .start => .start
  | .stop => .stop
  | .exit => .exit
  | .rearm ignoreDisable => .rearm ignoreDisable

/-- What a message is to change. The texts that are kept are those of the daemon. -/
def Message.deliver (o : RearmOutcomes) (c : ControlState) : Message → ControlState
  | .startup root modules =>
      if root.supported then { c with daemonInfo := startupInfo root modules }
      else
        { c with
          monitor := { c.monitor with abi := c.monitor.abi.setDaemonCrashed }
          daemonErrorInfo := startupInfo root modules }
  | .heartbeat peerPid =>
      { c with monitor := { c.monitor with abi := c.monitor.abi.notifyInjected peerPid.toInt } }
  | .systemServerStarted => c
  | .start => { c with monitor := c.monitor.requestStart }
  | .stop => { c with monitor := c.monitor.requestStop "user requested" }
  | .exit => { c with monitor := c.monitor.requestExit }
  | .rearm ignoreDisable => { c with monitor := (c.monitor.requestRearm o ignoreDisable).2 }

/-! ## The socket -/

/-- The send buffer of a sender's socket. Its size is an `int` of the kernel. -/
structure SendBuffer where
  size : Nat
  lt_two_pow : size < 2 ^ 31

/-- Whether a datagram is taken: one that does not fit next to the kernel's own 32 bytes is refused with
`EMSGSIZE`. -/
def SendBuffer.sends (b : SendBuffer) (datagram : List Byte) : Bool := decide (datagram.length + 32 ≤ b.size)

/-- A message that waits on the control socket: it was taken from its sender, and there is memory to read
it. -/
structure Delivered (b : SendBuffer) (m : Message) (a : Arrival) : Prop where
  datagram : a.datagram = m.datagram
  sent : b.sends m.datagram = true
  grows : a.grows m.datagram.length = true

/-! ## The texts of the daemon -/

section Texts

variable {root : RootImpl} {modules : List FileName} {text : List Byte}

theorem withoutTrailingNuls_terminated (h : text.getLast? ≠ some 0) :
    withoutTrailingNuls (text ++ [0]) = text := by
  have hnul : decide ((0 : Byte) = 0) = true := rfl
  rw [withoutTrailingNuls, List.rdropWhile_concat_pos (fun b => decide (b = 0)) text 0 hnul]
  apply List.rdropWhile_eq_self_iff.mpr
  -- without its terminator the text ends in a byte that is kept
  intro hne hlast
  rw [List.getLast?_eq_some_getLast hne, of_decide_eq_true hlast] at h
  exact h rfl

/-- A text ends as its last part does, unless that part is empty. -/
theorem getLast?_append_ne {front back : List Byte} (hfront : front.getLast? ≠ some 0)
    (hback : back.getLast? ≠ some 0) : (front ++ back).getLast? ≠ some 0 := by
  rw [List.getLast?_append]
  cases hlast : back.getLast? with
  | none => exact hfront
  | some b => rwa [hlast] at hback

theorem FileName.getLast?_bytes (name : FileName) : name.bytes.getLast? ≠ some 0 :=
  fun hlast => name.noNul (List.mem_of_getLast? hlast)

theorem getLast?_join (names : List FileName) :
    ((bytesOf "\n\t\t").intercalate (names.map FileName.bytes)).getLast? ≠ some 0 := by
  induction names with
  | nil => decide
  | cons name rest ih =>
      cases rest with
      | nil =>
          rw [List.map_singleton, List.intercalate_singleton]
          exact name.getLast?_bytes
      | cons next rest =>
          rw [List.map_cons, List.map_cons, List.intercalate_cons_cons]
          apply getLast?_append_ne
          · apply getLast?_append_ne name.getLast?_bytes
            decide
          · exact ih

theorem getLast?_debugName (root : RootImpl) : (bytesOf (debugName root)).getLast? ≠ some 0 := by
  cases root with
  | none | tooOld | multiple | apatch | kernelSU | magisk => decide

/-- The text of the daemon does not end in a terminator of its own. -/
theorem getLast?_startupInfo (root : RootImpl) (modules : List FileName) :
    (startupInfo root modules).getLast? ≠ some 0 := by
  have hcaption : (bytesOf "):\n\t\t").getLast? = some 9 := by decide
  have hname := getLast?_debugName root
  simp only [startupInfo]
  split_ifs
  · apply getLast?_append_ne _ hname
    decide
  · apply getLast?_append_ne _ (getLast?_join modules)
    rw [List.getLast?_append, hcaption, Option.some_or]
    decide
  · apply getLast?_append_ne _ hname
    decide

end Texts

/-! ## Reading the messages back -/

/-- A message with a payload is a `CtlMessage` whose length is that of the bytes behind it. -/
theorem accepts_payload {cmd : Nat} {payload : List Byte} (hcmd : cmd < 2 ^ 32)
    (hcarries : (Command.ofValue cmd).carriesPayload = true) (hsize : payload.length < 2 ^ 31) :
    accepts (toBytes 4 cmd ++ (toBytes 4 payload.length ++ payload)) =
      some (.ofMessage (.ofValue cmd) payload) := by
  have hword : ctlCmd (toBytes 4 cmd ++ (toBytes 4 payload.length ++ payload)) = .ofValue cmd := by
    have hread := wordAt_append_toBytes [] (toBytes 4 payload.length ++ payload) cmd rfl
    rw [List.nil_append, Nat.mod_eq_of_lt hcmd] at hread
    exact congrArg Command.ofValue hread
  have hlength : ctlLength (toBytes 4 cmd ++ (toBytes 4 payload.length ++ payload)) = payload.length := by
    rw [ctlLength, intAt_append_toBytes _ _ _ (length_toBytes 4 cmd),
      BitVec.toInt_eq_toNat_of_lt (by rw [BitVec.toNat_ofNat]; omega), BitVec.toNat_ofNat,
      Nat.mod_eq_of_lt (by omega)]
  have htotal : (toBytes 4 cmd ++ (toBytes 4 payload.length ++ payload)).length = 8 + payload.length := by
    simp only [List.length_append, length_toBytes]
    omega
  have hdrop : (toBytes 4 cmd ++ (toBytes 4 payload.length ++ payload)).drop headerSize = payload := by
    rw [← List.append_assoc]
    exact List.drop_left' (by rw [List.length_append, length_toBytes, length_toBytes]; rfl)
  rw [accepts, hword, if_pos hcarries, hlength, htotal, hdrop]
  apply if_pos
  simp only [headerSize]
  omega

/-- A command that stands alone is its four bytes. -/
theorem accepts_bare {cmd : Nat} (hcmd : cmd < 2 ^ 32)
    (hcarries : (Command.ofValue cmd).carriesPayload = false) :
    accepts (toBytes 4 cmd) = some (.ofMessage (.ofValue cmd) []) := by
  have hword : ctlCmd (toBytes 4 cmd) = .ofValue cmd := by
    have hread := wordAt_append_toBytes [] [] cmd rfl
    rw [List.nil_append, List.append_nil, Nat.mod_eq_of_lt hcmd] at hread
    exact congrArg Command.ofValue hread
  rw [accepts, hword, hcarries, length_toBytes]
  rfl

/-- The bytes of a message have the format of the socket, and it gives the message back. -/
theorem accepts_datagram (m : Message) (hsize : m.datagram.length < 2 ^ 31) :
    accepts m.datagram = some m.request := by
  cases m with
  | startup root modules =>
      have hlength : (startupInfo root modules ++ [0]).length < 2 ^ 31 := by
        simp only [Message.datagram, List.length_append, length_toBytes] at hsize ⊢
        omega
      have hcount : toBytes 4 ((startupInfo root modules).length % 2 ^ 32 + 1) =
          toBytes 4 (startupInfo root modules ++ [0]).length := by
        rw [List.length_append, List.length_singleton] at hlength ⊢
        rw [Nat.mod_eq_of_lt (by omega)]
      rw [Message.datagram, Message.request, hcount, List.append_assoc, List.append_assoc]
      cases hroot : root.supported with
      | true =>
          rw [if_pos rfl, if_pos rfl, accepts_payload (by decide) rfl hlength]
          rfl
      | false =>
          rw [if_neg Bool.false_ne_true, if_neg Bool.false_ne_true, accepts_payload (by decide) rfl hlength]
          rfl
  | heartbeat peerPid =>
      have hpid : intAt 0 (toBytes 4 peerPid.toNat) = peerPid.toInt := by
        have hread := intAt_append_toBytes [] [] peerPid.toNat rfl
        rwa [List.nil_append, List.append_nil, BitVec.ofNat_toNat, BitVec.setWidth_eq] at hread
      have hread : accepts (toBytes 4 4 ++ (toBytes 4 4 ++ toBytes 4 peerPid.toNat)) = _ :=
        accepts_payload (by decide) rfl (by rw [length_toBytes]; decide)
      rw [Message.datagram, Message.request, List.append_assoc, hread, Command.ofValue, Request.ofMessage,
        length_toBytes, if_pos rfl, hpid]
  | rearm ignoreDisable =>
      cases ignoreDisable with
      | false => rfl
      | true => rfl
  | systemServerStarted | start | stop | exit => exact accepts_bare (by decide) rfl

/-- The request of a message changes what the message was sent for. -/
theorem handle_request (o : RearmOutcomes) (c : ControlState) (m : Message) :
    m.request.handle o c = m.deliver o c := by
  cases m with
  | startup root modules =>
      have htext : withoutTrailingNuls (startupInfo root modules ++ [0]) = startupInfo root modules :=
        withoutTrailingNuls_terminated (getLast?_startupInfo root modules)
      rw [Message.request, Message.deliver]
      split_ifs
      · simp only [Request.handle, htext]
      · simp only [Request.handle, htext]
  | heartbeat peerPid | systemServerStarted | start | stop | exit | rearm ignoreDisable => rfl

/-! ## The queue -/

section Queue

variable {abi : PointerWidth} {b : SendBuffer} {m : Message} {a : Arrival}

theorem Delivered.length_lt (h : Delivered b m a) : m.datagram.length + 32 < 2 ^ 31 :=
  lt_of_le_of_lt (of_decide_eq_true h.sent) b.lt_two_pow

theorem Delivered.accepts_eq (h : Delivered b m a) : accepts a.datagram = some m.request := by
  rw [h.datagram]
  exact accepts_datagram m (by have := h.length_lt; omega)

/-- What the format accepts has the size its header gives, so only memory decides whether it is read. -/
theorem Delivered.wellSized (h : Delivered b m a) : a.WellSized abi := by
  intro hcarries hheader
  have haccepts := h.accepts_eq
  have hlength := h.length_lt
  rw [accepts, if_pos hcarries] at haccepts
  split_ifs at haccepts with hmessage
  obtain ⟨-, hpos, hsize⟩ := hmessage
  refine ⟨hpos, hsize.le, ?_⟩
  have hfits : m.datagram.length ≤ abi.maxSize := by
    cases abi with
    | bits32 =>
        simp only [PointerWidth.maxSize, PointerWidth.bits]
        omega
    | bits64 =>
        simp only [PointerWidth.maxSize, PointerWidth.bits]
        omega
  rw [← hsize, Int.toNat_natCast, h.datagram, Arrival.fits, decide_eq_true hfits, h.grows]
  exact Bool.or_true _

theorem wellSized_of_delivered {ms : List Message} {queue : List Arrival}
    (h : List.Forall₂ (Delivered b) ms queue) : ∀ a ∈ queue, a.WellSized abi := by
  induction h with
  | nil => exact fun a ha => absurd ha List.not_mem_nil
  | cons hm hrest ih =>
      intro a ha
      rcases List.mem_cons.mp ha with rfl | ha
      · exact hm.wellSized
      · exact ih a ha

theorem formatRound_of_delivered {ms : List Message} {queue : List Arrival}
    (h : List.Forall₂ (Delivered b) ms queue) :
    queue.map (fun a => formatRound a.datagram) = ms.map fun m => .dispatched m.request := by
  induction h with
  | nil => rfl
  | cons hm hrest ih => rw [List.map_cons, List.map_cons, ih, formatRound, hm.accepts_eq]

theorem formatState_of_delivered {ms : List Message} {queue : List Arrival}
    (h : List.Forall₂ (Delivered b) ms queue) (c : ControlState) :
    queue.foldl formatState c =
      (ms.zip queue).foldl (fun c sent => sent.1.deliver sent.2.outcomes c) c := by
  induction h generalizing c with
  | nil => rfl
  | @cons m a ms queue hm hrest ih =>
      have hstep : formatState c a = m.deliver a.outcomes c := by
        rw [formatState, hm.accepts_eq]
        exact handle_request a.outcomes c m
      rw [List.foldl_cons, List.zip_cons_cons, List.foldl_cons, hstep, ih]

/-- Every message on the control socket is dispatched as the command and payload it was built from, one after
the other, and leaves the texts as the daemon had them, whatever is in the buffer. -/
theorem handleEvent_delivered (abi : PointerWidth) (b : SendBuffer) (ms : List Message) (h : SocketHandler)
    (hqueue : List.Forall₂ (Delivered b) ms h.queue) :
    (h.handleEvent abi).1 = ms.map (fun m => .dispatched m.request) ∧
      (h.handleEvent abi).2.queue = [] ∧
      (h.handleEvent abi).2.state =
        (ms.zip h.queue).foldl (fun c sent => sent.1.deliver sent.2.outcomes c) h.state := by
  obtain ⟨hrounds, hempty, hstate⟩ : h.KeepsFormat abi :=
    SocketHandler.keepsFormat_of_wellSized rfl (wellSized_of_delivered hqueue)
  refine ⟨?_, hempty, ?_⟩
  · rw [hrounds, formatRound_of_delivered hqueue]
  · rw [hstate, formatState_of_delivered hqueue]

/-- The messages as they wait on the socket of a monitor with a running daemon. -/
def waitingMessages (ms : List Message) : SocketHandler := .waiting (ms.map Message.datagram)

/-- A daemon that serves a module comes up behind a STOP, and a heartbeat follows. -/
def bootMessages : List Message :=
  [.stop, .startup .kernelSU [⟨bytesOf "lsposed", by decide⟩], .heartbeat 812]

theorem handleEvent_bootMessages :
    List.Forall₂ (Delivered ⟨212992, by decide⟩) bootMessages (waitingMessages bootMessages).queue ∧
      ((waitingMessages bootMessages).handleEvent .bits64).1 =
        [.dispatched .stop,
          .dispatched (.daemonSetInfo (bytesOf "\tRoot: KernelSU\n\tModules (1):\n\t\tlsposed\x00")),
          .dispatched (.zygoteInjected 812)] := by
  have hqueue : List.Forall₂ (Delivered ⟨212992, by decide⟩) bootMessages
      (waitingMessages bootMessages).queue :=
    .cons ⟨rfl, by decide, rfl⟩ (.cons ⟨rfl, by decide, rfl⟩ (.cons ⟨rfl, by decide, rfl⟩ .nil))
  have hserved := (handleEvent_delivered .bits64 ⟨212992, by decide⟩ bootMessages _ hqueue).1
  refine ⟨hqueue, hserved.trans ?_⟩
  decide

end Queue

end NeoZygisk.Monitor
