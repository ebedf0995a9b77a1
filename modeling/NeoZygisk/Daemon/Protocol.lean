import NeoZygisk.Common.DataModel
import NeoZygisk.Common.ProcessFlags
import NeoZygisk.Daemon.ReadModules
import NeoZygisk.Lib.Duplex
import NeoZygisk.Namespace.Snapshots

/-!
# The daemon's socket

Ten requests go from the loader, which is written in C++, to the daemon, which is written in Rust. Neither side
shares a line with the other: the actions are numbered by two enumerations, and the sizes and the order of what is
read and written are spelled out on both sides.

`Request.client` is the function of the loader that makes a request, from its first write on, and `handleConnection`
what the daemon does with a connection. `session_ends` says that the two understand each other: whichever way they
take turns, and into whatever pieces the bytes fall, the daemon handles the request that was made, the client returns
the answer that is meant for it, and nothing is left on the socket.
-/

set_option autoImplicit false

namespace NeoZygisk.Daemon.Protocol

open NeoZygisk.Common
open NeoZygisk.Daemon.ReadModules
open NeoZygisk.Lib.Bytes
open NeoZygisk.Lib.Duplex
open NeoZygisk.Lib.Stream
open NeoZygisk.Namespace.Snapshots (MountNamespace)

variable {m : DataModel} {F : Type}

/-! ## The actions -/

/-- The enumeration of the loader. -/
inductive SocketAction where
  | PingHeartbeat
  | GetProcessFlags
  | CacheMountNamespace
  | UpdateMountNamespace
  | ReadModules
  | RequestCompanionSocket
  | GetModuleDir
  | ZygoteRestart
  | SystemServerStarted
  | RefreshModules
  deriving DecidableEq, Repr

/-- `(uint8_t) SocketAction::…`. -/
def SocketAction.code : SocketAction → BitVec 8
  | .PingHeartbeat => 0
  | .GetProcessFlags => 1
  | .CacheMountNamespace => 2
  | .UpdateMountNamespace => 3
  | .ReadModules => 4
  | .RequestCompanionSocket => 5
  | .GetModuleDir => 6
  | .ZygoteRestart => 7
  | .SystemServerStarted => 8
  | .RefreshModules => 9

/-- The enumeration of the daemon. -/
inductive DaemonSocketAction where
  | PingHeartbeat
  | GetProcessFlags
  | CacheMountNamespace
  | UpdateMountNamespace
  | ReadModules
  | RequestCompanionSocket
  | GetModuleDir
  | ZygoteRestart
  | SystemServerStarted
  | RefreshModules
  deriving DecidableEq, Repr

/-- `DaemonSocketAction::try_from`. -/
def DaemonSocketAction.tryFrom (value : Nat) : Option DaemonSocketAction :=
  match value with
  | 0 => some .PingHeartbeat
  | 1 => some .GetProcessFlags
  | 2 => some .CacheMountNamespace
  | 3 => some .UpdateMountNamespace
  | 4 => some .ReadModules
  | 5 => some .RequestCompanionSocket
  | 6 => some .GetModuleDir
  | 7 => some .ZygoteRestart
  | 8 => some .SystemServerStarted
  | 9 => some .RefreshModules
  | _ => none

/-- `(uint8_t) type`, for `MountNamespace` of the loader. -/
def namespaceCode : MountNamespace → BitVec 8
  | .clean => 0
  | .root => 1

/-- `MountNamespace::try_from` of the daemon. -/
def namespaceTryFrom (value : Nat) : Option MountNamespace :=
  match value with
  | 0 => some .clean
  | 1 => some .root
  | _ => none

/-! ## The client -/

/-- The functions of the loader that talk to the daemon. -/
inductive Request (m : DataModel) where
  | pingHeartbeat
  | getProcessFlags (uid : Uid)
  | cacheMountNamespace (pid : BitVec 32)
  | updateMountNamespace (type : MountNamespace)
  | readModules
  | connectCompanion (index : m.Word)
  | getModuleDir (index : m.Word)
  | zygoteRestart
  | systemServerStarted
  | refreshModules (ignoreDisable : Bool)

/-- What these functions return. -/
inductive Returned (F : Type) where
  | void
  | bool (value : Bool)
  | flags (value : BitVec 32)
  | fd (value : Descriptor F)
  | modules (value : List (Entry F))
  /-- The connection itself, which is the module's from here on, or -1. -/
  | companion (connected : Bool)

section Client

/-- `write_u8`. -/
def writeU8 {ρ : Type} (value : BitVec 8) (next : Party F ρ) : Party F ρ := .send (plain [value]) next

/-- `write_u32`. -/
def writeU32 {ρ : Type} (value : BitVec 32) (next : Party F ρ) : Party F ρ :=
  .send (plain (toBytes 4 value.toNat)) next

/-- `write_usize`, of either side. -/
def sendUsize {ρ : Type} (wordSize value : Nat) (next : Party F ρ) : Party F ρ :=
  .send (writeUsize wordSize value) next

/-- `read_exact_or`, with zero for what did not come. -/
def readExactOr {ρ : Type} (size : Nat) (next : Nat → Party F ρ) : Party F ρ :=
  .recv size [] fun cells => next (if (bytes cells).length = size then ofBytes (bytes cells) else 0)

/-- `read_string` of the loader. -/
def readStringOr {ρ : Type} (wordSize : Nat) (next : List (BitVec 8) → Party F ρ) : Party F ρ :=
  readExactOr wordSize fun len => .recv len [] fun cells => next ((bytes cells).takeWhile (· ≠ 0))

/-- `recv_fd`, in a call that no signal interrupts. -/
def recvDescriptor {ρ : Type} (next : Descriptor F → Party F ρ) : Party F ρ :=
  .recv 4 [] fun cells => next ((cells.findSome? Cell.attached).elim .missing .received)

/-- The loop of `ReadModules`. -/
def readModulesLoop {ρ : Type} (wordSize : Nat) : Nat → (List (Entry F) → Party F ρ) → Party F ρ
  | 0, next => next []
  | len + 1, next =>
      readStringOr wordSize fun name => recvDescriptor fun fd =>
        readModulesLoop wordSize len fun rest => next (⟨name, fd⟩ :: rest)

/-- What follows `Connect` in the functions of the loader. -/
def Request.client : Request m → Party F (Returned F)
  | .pingHeartbeat => writeU8 SocketAction.PingHeartbeat.code (.done (.bool true))
  | .getProcessFlags uid =>
      writeU8 SocketAction.GetProcessFlags.code
        (writeU32 uid (readExactOr 4 fun flags => .done (.flags (BitVec.ofNat 32 flags))))
  | .cacheMountNamespace pid =>
      writeU8 SocketAction.CacheMountNamespace.code (writeU32 pid (.done .void))
  | .updateMountNamespace type =>
      writeU8 SocketAction.UpdateMountNamespace.code
        (writeU8 (namespaceCode type)
          (readExactOr 1 fun status =>
            if status = 0 then .done (.fd .missing) else recvDescriptor fun fd => .done (.fd fd)))
  | .readModules =>
      writeU8 SocketAction.ReadModules.code
        (readExactOr m.wordSize fun len =>
          readModulesLoop m.wordSize len fun modules => .done (.modules modules))
  | .connectCompanion index =>
      writeU8 SocketAction.RequestCompanionSocket.code
        (sendUsize m.wordSize index.toNat
          (readExactOr 1 fun answer => .done (.companion (decide (answer = 1)))))
  | .getModuleDir index =>
      writeU8 SocketAction.GetModuleDir.code
        (sendUsize m.wordSize index.toNat (recvDescriptor fun fd => .done (.fd fd)))
  | .zygoteRestart => writeU8 SocketAction.ZygoteRestart.code (.done .void)
  | .systemServerStarted => writeU8 SocketAction.SystemServerStarted.code (.done .void)
  | .refreshModules ignoreDisable =>
      writeU8 SocketAction.RefreshModules.code
        (writeU8 (if ignoreDisable then 1 else 0)
          (readExactOr 1 fun answer => .done (.bool (decide (answer = 1)))))

end Client

/-! ## The daemon -/

/-- What the daemon answers from: the root solution, the cached namespaces, the modules it serves, the directories
it can open, what a rescan comes to, and which companions take a connection. -/
structure Context (m : DataModel) (F : Type) where
  root : RootImpl
  queries : RootQueries
  namespaceFd : MountNamespace → Option F
  /-- The four bytes that `send_fd` sends along. -/
  payload : BitVec 32
  modules : Snapshot m.wordSize F
  openDir : List (BitVec 8) → Option F
  refreshes : Bool → Bool
  companion : ReadModules.Module m.wordSize F → Bool

/-- What became of a connection. The first five are what the main thread does on its own, besides writing an
answer. -/
inductive Handled where
  | pingHeartbeat
  | cacheMountNamespace (pid : Int)
  | zygoteRestart
  | systemServerStarted
  | refreshModules (ignoreDisable : Bool)
  | answered
  /-- An error that is only logged. -/
  | failed
  /-- The peer is not trusted. -/
  | rejected
  deriving DecidableEq, Repr

section Daemon

/-- `read_u8`, `read_u32` and `read_usize` of the daemon, where the question mark ends the handler. -/
def readExact (size : Nat) (next : Nat → Party F Handled) : Party F Handled :=
  .recv size [] fun cells => if (bytes cells).length = size then next (ofBytes (bytes cells)) else .done .failed

/-- `send_fd`. -/
def sendDescriptor (payload : BitVec 32) (fd : F) (next : Party F Handled) : Party F Handled :=
  .send (sendFd payload fd) next

def writeModules {wordSize : Nat} (payload : BitVec 32) :
    List (ReadModules.Module wordSize F) → Party F Handled
  | [] => .done .answered
  | module :: rest =>
      sendUsize wordSize module.name.length
        (.send (plain module.name) (sendDescriptor payload module.libFd (writeModules payload rest)))

def handleGetProcessFlags' (ctx : Context m F) : Party F Handled :=
  readExact 4 fun uid => writeU32 (handleGetProcessFlags ctx.root ctx.queries (BitVec.ofNat 32 uid)) (.done .answered)

def handleUpdateMountNamespace (ctx : Context m F) : Party F Handled :=
  readExact 1 fun value =>
    match namespaceTryFrom value with
    | none => .done .failed
    | some type =>
        match ctx.namespaceFd type with
        | some fd => writeU8 1 (sendDescriptor ctx.payload fd (.done .answered))
        | none => writeU8 0 (.done .answered)

def handleReadModules' (ctx : Context m F) : Party F Handled :=
  sendUsize m.wordSize ctx.modules.modules.length (writeModules ctx.payload ctx.modules.modules)

/-- `handle_request_companion_socket`, and the first byte from the companion, if there is one. -/
def handleRequestCompanionSocket (ctx : Context m F) : Party F Handled :=
  readExact m.wordSize fun index =>
    match ctx.modules.modules[index]? with
    | none => writeU8 0 (.done .answered)
    | some module => writeU8 (if ctx.companion module then 1 else 0) (.done .answered)

def handleGetModuleDir (ctx : Context m F) : Party F Handled :=
  readExact m.wordSize fun index =>
    match ctx.modules.modules[index]? with
    | none => .done .failed
    | some module =>
        match ctx.openDir module.name with
        | none => .done .failed
        | some fd => sendDescriptor ctx.payload fd (.done .answered)

/-- The branches of `handle_connection` and `handle_threaded_action`. -/
def handleAction (ctx : Context m F) : DaemonSocketAction → Party F Handled
  | .CacheMountNamespace => readExact 4 fun pid => .done (.cacheMountNamespace (BitVec.ofNat 32 pid).toInt)
  | .PingHeartbeat => .done .pingHeartbeat
  | .ZygoteRestart => .done .zygoteRestart
  | .SystemServerStarted => .done .systemServerStarted
  | .RefreshModules =>
      readExact 1 fun value =>
        writeU8 (if ctx.refreshes (decide (value ≠ 0)) then 1 else 0) (.done (.refreshModules (decide (value ≠ 0))))
  | .GetProcessFlags => handleGetProcessFlags' ctx
  | .UpdateMountNamespace => handleUpdateMountNamespace ctx
  | .ReadModules => handleReadModules' ctx
  | .RequestCompanionSocket => handleRequestCompanionSocket ctx
  | .GetModuleDir => handleGetModuleDir ctx

def AID_ROOT : Uid := 0
def AID_SYSTEM : Uid := 1000

/-- Only these talk to the daemon. -/
def trusted (uid : Uid) : Bool := uid == AID_ROOT || uid == AID_SYSTEM

/-- `handle_connection`. The uid of the peer is `none` if it cannot be told. -/
def handleConnection (ctx : Context m F) (peer : Option Uid) : Party F Handled :=
  match peer.filter trusted with
  | none => .done .rejected
  | some _ =>
      readExact 1 fun value =>
        match DaemonSocketAction.tryFrom value with
        | none => .done .failed
        | some action => handleAction ctx action

end Daemon

/-! ## What a request is for -/

section Meaning

variable (ctx : Context m F)

/-- What the client is to learn. -/
def Request.returned : Request m → Returned F
  | .pingHeartbeat => .bool true
  | .getProcessFlags uid => .flags (handleGetProcessFlags ctx.root ctx.queries uid)
  | .cacheMountNamespace _ => .void
  | .updateMountNamespace type => .fd ((ctx.namespaceFd type).elim .missing .received)
  | .readModules => .modules (ctx.modules.modules.map ReadModules.Module.entry)
  | .connectCompanion index => .companion (ctx.modules.modules[index.toNat]?.any ctx.companion)
  | .getModuleDir index =>
      .fd ((ctx.modules.modules[index.toNat]?.bind fun module => ctx.openDir module.name).elim .missing .received)
  | .zygoteRestart => .void
  | .systemServerStarted => .void
  | .refreshModules ignoreDisable => .bool (ctx.refreshes ignoreDisable)

/-- What the daemon is to do. -/
def Request.handled : Request m → Handled
  | .pingHeartbeat => .pingHeartbeat
  | .getProcessFlags _ => .answered
  | .cacheMountNamespace pid => .cacheMountNamespace pid.toInt
  | .updateMountNamespace _ => .answered
  | .readModules => .answered
  | .connectCompanion _ => .answered
  | .getModuleDir index =>
      if (ctx.modules.modules[index.toNat]?.bind fun module => ctx.openDir module.name).isSome then .answered
      else .failed
  | .zygoteRestart => .zygoteRestart
  | .systemServerStarted => .systemServerStarted
  | .refreshModules ignoreDisable => .refreshModules ignoreDisable

/-- A client that has connected. -/
def session (r : Request m) (peer : Uid) : Conn F (Returned F) Handled :=
  ⟨r.client, handleConnection ctx (some peer), [], []⟩

/-- Both are done and understood each other. -/
def agreed (r : Request m) : Conn F (Returned F) Handled := ⟨.done (r.returned ctx), .done (r.handled ctx), [], []⟩

end Meaning

/-! ## Messages that arrive as they were sent -/

section Messages

variable (client : Party F (Returned F)) (server : Party F Handled)

theorem toBytes_one (value : BitVec 8) : toBytes 1 value.toNat = [value] := by
  rw [toBytes, toBytes, BitVec.ofNat_toNat, BitVec.setWidth_eq]

theorem readExact_plain {size value : Nat} (h : value < 256 ^ size) (next : Nat → Party F Handled) :
    Reaches ⟨.send (plain (toBytes size value)) client, readExact size next, [], []⟩ ⟨client, next value, [], []⟩ := by
  have hlength : (plain (toBytes size value) : List (Cell F)).length = size := by rw [length_plain, length_toBytes]
  have hreach := reaches_up (σ := Handled) hlength client fun cells =>
    if (bytes cells).length = size then next (ofBytes (bytes cells)) else .done .failed
  rwa [bytes_plain, length_toBytes, if_pos rfl, ofBytes_toBytes, Nat.mod_eq_of_lt h] at hreach

theorem readExact_writeU8 (value : BitVec 8) (next : Nat → Party F Handled) :
    Reaches ⟨writeU8 value client, readExact 1 next, [], []⟩ ⟨client, next value.toNat, [], []⟩ := by
  rw [writeU8, ← toBytes_one]
  exact readExact_plain client value.isLt next

theorem readExact_writeU32 (value : BitVec 32) (next : Nat → Party F Handled) :
    Reaches ⟨writeU32 value client, readExact 4 next, [], []⟩ ⟨client, next value.toNat, [], []⟩ :=
  readExact_plain client value.isLt next

theorem readExact_word (value : m.Word) (next : Nat → Party F Handled) :
    Reaches ⟨sendUsize m.wordSize value.toNat client, readExact m.wordSize next, [], []⟩
      ⟨client, next value.toNat, [], []⟩ := by
  apply readExact_plain
  have hlt : value.toNat < 2 ^ (8 * m.wordSize) := value.isLt
  rwa [pow_mul] at hlt

theorem readExactOr_plain {size value : Nat} (h : value < 256 ^ size) (next : Nat → Party F (Returned F)) :
    Reaches ⟨readExactOr size next, .send (plain (toBytes size value)) server, [], []⟩ ⟨next value, server, [], []⟩ := by
  have hlength : (plain (toBytes size value) : List (Cell F)).length = size := by rw [length_plain, length_toBytes]
  have hreach := reaches_down (ρ := Returned F) hlength server fun cells =>
    next (if (bytes cells).length = size then ofBytes (bytes cells) else 0)
  rwa [bytes_plain, length_toBytes, if_pos rfl, ofBytes_toBytes, Nat.mod_eq_of_lt h] at hreach

theorem readExactOr_writeU8 (value : BitVec 8) (next : Nat → Party F (Returned F)) :
    Reaches ⟨readExactOr 1 next, writeU8 value server, [], []⟩ ⟨next value.toNat, server, [], []⟩ := by
  rw [writeU8, ← toBytes_one]
  exact readExactOr_plain server value.isLt next

theorem recvDescriptor_sendDescriptor (payload : BitVec 32) (fd : F) (next : Descriptor F → Party F (Returned F)) :
    Reaches ⟨recvDescriptor next, sendDescriptor payload fd server, [], []⟩ ⟨next (.received fd), server, [], []⟩ := by
  have hlength : (sendFd payload fd).length = 4 := by rw [sendFd, length_message, length_toBytes]
  exact reaches_down (ρ := Returned F) hlength server _

theorem readStringOr_name {wordSize : Nat} (module : ReadModules.Module wordSize F)
    (next : List (BitVec 8) → Party F (Returned F)) :
    Reaches ⟨readStringOr wordSize next, sendUsize wordSize module.name.length (.send (plain module.name) server), [], []⟩
      ⟨next module.name, server, [], []⟩ := by
  refine (readExactOr_plain _ module.sized _).trans ?_
  have hreach := reaches_down (ρ := Returned F) (length_plain module.name) server fun cells =>
    next ((bytes cells).takeWhile (· ≠ 0))
  have hname : module.name.takeWhile (· ≠ 0) = module.name := by
    apply List.takeWhile_eq_self_iff.mpr
    intro b hb
    apply decide_eq_true
    rintro rfl
    exact module.noNul hb
  rwa [bytes_plain, hname] at hreach

/-- The list comes over one module at a time. -/
theorem readModulesLoop_writeModules {wordSize : Nat} (payload : BitVec 32)
    (modules : List (ReadModules.Module wordSize F)) (next : List (Entry F) → Party F (Returned F)) :
    Reaches ⟨readModulesLoop wordSize modules.length next, writeModules payload modules, [], []⟩
      ⟨next (modules.map ReadModules.Module.entry), .done .answered, [], []⟩ := by
  induction modules generalizing next with
  | nil => exact .refl
  | cons module rest ih =>
      refine (readStringOr_name _ module _).trans ?_
      refine (recvDescriptor_sendDescriptor _ payload module.libFd _).trans ?_
      exact ih fun entries => next (module.entry :: entries)

end Messages

/-! ## Every request -/

section Sessions

variable (ctx : Context m F)

theorem namespaceTryFrom_code (type : MountNamespace) : namespaceTryFrom (namespaceCode type).toNat = some type := by
  cases type <;> rfl

/-- The action of a request gets to its branch. -/
theorem reaches_handleAction {peer : Uid} (hpeer : trusted peer = true) (action : SocketAction)
    {handled : DaemonSocketAction} (hcode : DaemonSocketAction.tryFrom action.code.toNat = some handled)
    (client : Party F (Returned F)) :
    Reaches ⟨writeU8 action.code client, handleConnection ctx (some peer), [], []⟩
      ⟨client, handleAction ctx handled, [], []⟩ := by
  have hconnection : handleConnection ctx (some peer) =
      readExact 1 fun value =>
        match DaemonSocketAction.tryFrom value with
        | none => .done .failed
        | some action => handleAction ctx action := by
    rw [handleConnection, Option.filter_some_pos hpeer]
  rw [hconnection]
  have hreach := readExact_writeU8 client action.code fun value =>
    match DaemonSocketAction.tryFrom value with
    | none => .done .failed
    | some action => handleAction ctx action
  rwa [hcode] at hreach

theorem reaches_getProcessFlags (uid : Uid) :
    Reaches ⟨writeU32 uid (readExactOr 4 fun flags => .done (.flags (BitVec.ofNat 32 flags))),
        handleAction ctx .GetProcessFlags, [], []⟩ (agreed ctx (.getProcessFlags uid)) := by
  rw [handleAction, handleGetProcessFlags']
  refine (readExact_writeU32 _ uid _).trans ?_
  rw [BitVec.ofNat_toNat, BitVec.setWidth_eq]
  have hlt : (handleGetProcessFlags ctx.root ctx.queries uid).toNat < 256 ^ 4 := BitVec.isLt _
  have hreach := readExactOr_plain (F := F) (.done .answered) hlt fun flags => .done (.flags (BitVec.ofNat 32 flags))
  rwa [BitVec.ofNat_toNat, BitVec.setWidth_eq] at hreach

theorem reaches_updateMountNamespace (type : MountNamespace) :
    Reaches ⟨writeU8 (namespaceCode type) (readExactOr 1 fun status =>
          if status = 0 then .done (.fd .missing) else recvDescriptor fun fd => .done (.fd fd)),
        handleAction ctx .UpdateMountNamespace, [], []⟩ (agreed ctx (.updateMountNamespace type)) := by
  rw [handleAction, handleUpdateMountNamespace]
  refine (readExact_writeU8 _ (namespaceCode type) _).trans ?_
  rw [namespaceTryFrom_code, agreed, Request.returned]
  dsimp only
  cases ctx.namespaceFd type with
  | none => exact readExactOr_writeU8 _ 0 _
  | some fd =>
      refine (readExactOr_writeU8 _ 1 _).trans ?_
      exact recvDescriptor_sendDescriptor _ ctx.payload fd fun fd => .done (.fd fd)

theorem reaches_readModules :
    Reaches ⟨readExactOr m.wordSize fun len => readModulesLoop m.wordSize len fun modules => .done (.modules modules),
        handleAction ctx .ReadModules, [], []⟩ (agreed ctx .readModules) := by
  refine (readExactOr_plain _ ctx.modules.sized _).trans ?_
  exact readModulesLoop_writeModules ctx.payload ctx.modules.modules fun modules => .done (.modules modules)

theorem reaches_connectCompanion (index : m.Word) :
    Reaches ⟨sendUsize m.wordSize index.toNat
          (readExactOr 1 fun answer => .done (.companion (decide (answer = 1)))),
        handleAction ctx .RequestCompanionSocket, [], []⟩ (agreed ctx (.connectCompanion index)) := by
  rw [handleAction, handleRequestCompanionSocket]
  refine (readExact_word _ index _).trans ?_
  rw [agreed, Request.returned]
  cases ctx.modules.modules[index.toNat]? with
  | none => exact readExactOr_writeU8 _ 0 _
  | some module =>
      rw [Option.any_some]
      cases hcompanion : ctx.companion module with
      | false =>
          simp only [hcompanion]
          exact readExactOr_writeU8 _ 0 _
      | true =>
          simp only [hcompanion]
          exact readExactOr_writeU8 _ 1 _

/-- A directory that cannot be opened is told by closing the connection. -/
theorem reaches_getModuleDir (index : m.Word) :
    Reaches ⟨sendUsize m.wordSize index.toNat (recvDescriptor fun fd => .done (.fd fd)),
        handleAction ctx .GetModuleDir, [], []⟩ (agreed ctx (.getModuleDir index)) := by
  rw [handleAction, handleGetModuleDir]
  refine (readExact_word _ index _).trans ?_
  rw [agreed, Request.returned, Request.handled]
  cases ctx.modules.modules[index.toNat]? with
  | none => exact reaches_eof (by decide) _ _
  | some module =>
      cases hdir : ctx.openDir module.name with
      | none =>
          simp only [Option.bind_some, hdir]
          exact reaches_eof (by decide) _ _
      | some fd =>
          simp only [Option.bind_some, hdir]
          exact recvDescriptor_sendDescriptor _ ctx.payload fd fun fd => .done (.fd fd)

theorem reaches_refreshModules (ignoreDisable : Bool) :
    Reaches ⟨writeU8 (if ignoreDisable then 1 else 0)
          (readExactOr 1 fun answer => .done (.bool (decide (answer = 1)))),
        handleAction ctx .RefreshModules, [], []⟩ (agreed ctx (.refreshModules ignoreDisable)) := by
  rw [handleAction]
  refine (readExact_writeU8 _ _ _).trans ?_
  have hignore : decide ((if ignoreDisable then (1 : BitVec 8) else 0).toNat ≠ 0) = ignoreDisable := by
    cases ignoreDisable <;> rfl
  rw [hignore, agreed, Request.returned]
  cases ctx.refreshes ignoreDisable with
  | false => exact readExactOr_writeU8 _ 0 _
  | true => exact readExactOr_writeU8 _ 1 _

theorem reaches_agreed (r : Request m) {peer : Uid} (hpeer : trusted peer = true) :
    Reaches (session ctx r peer) (agreed ctx r) := by
  cases r with
  | pingHeartbeat => exact reaches_handleAction ctx hpeer .PingHeartbeat rfl _
  | getProcessFlags uid => exact (reaches_handleAction ctx hpeer .GetProcessFlags rfl _).trans (reaches_getProcessFlags ctx uid)
  | cacheMountNamespace pid =>
      refine (reaches_handleAction ctx hpeer .CacheMountNamespace rfl _).trans ?_
      have hread := readExact_writeU32 (F := F) (.done .void) pid fun pid =>
        .done (.cacheMountNamespace (BitVec.ofNat 32 pid).toInt)
      rwa [BitVec.ofNat_toNat, BitVec.setWidth_eq] at hread
  | updateMountNamespace type =>
      exact (reaches_handleAction ctx hpeer .UpdateMountNamespace rfl _).trans (reaches_updateMountNamespace ctx type)
  | readModules => exact (reaches_handleAction ctx hpeer .ReadModules rfl _).trans (reaches_readModules ctx)
  | connectCompanion index =>
      exact (reaches_handleAction ctx hpeer .RequestCompanionSocket rfl _).trans (reaches_connectCompanion ctx index)
  | getModuleDir index => exact (reaches_handleAction ctx hpeer .GetModuleDir rfl _).trans (reaches_getModuleDir ctx index)
  | zygoteRestart => exact reaches_handleAction ctx hpeer .ZygoteRestart rfl _
  | systemServerStarted => exact reaches_handleAction ctx hpeer .SystemServerStarted rfl _
  | refreshModules ignoreDisable =>
      exact (reaches_handleAction ctx hpeer .RefreshModules rfl _).trans (reaches_refreshModules ctx ignoreDisable)

/-- No run goes on for ever, every run can be continued to where both agree, and it ends nowhere else. -/
theorem session_ends (r : Request m) {peer : Uid} (hpeer : trusted peer = true) :
    (∀ run : Nat → Conn F (Returned F) Handled, run 0 = session ctx r peer → ¬ ∀ n, Step (run n) (run (n + 1))) ∧
      ∀ c, Reaches (session ctx r peer) c →
        Reaches c (agreed ctx r) ∧ (Ended c → c = agreed ctx r) := by
  refine ⟨fun run _ => not_forever run, fun c hc => ?_⟩
  have hreach := reaches_end (reaches_agreed ctx r hpeer) ended_done hc
  refine ⟨hreach, fun hend => ?_⟩
  rcases hreach.cases_head with heq | ⟨c', hstep, -⟩
  · exact heq
  · exact absurd hstep (hend c')

end Sessions

/-- A daemon under Magisk with one module, whose directory and namespaces cannot be opened. -/
def oneModule : Context .lp64 Nat where
  root := .magisk
  queries := ⟨fun _ => false, fun _ => false, fun _ => false⟩
  namespaceFd _ := none
  payload := 0
  modules := ⟨[⟨ascii "tracker", by decide, by decide, 7⟩], by decide⟩
  openDir _ := none
  refreshes _ := true
  companion _ := false

/-- What zygote asks first. -/
theorem session_ends_zygote :
    trusted AID_ROOT = true ∧
      (∀ run : Nat → Conn Nat (Returned Nat) Handled, run 0 = session oneModule .readModules AID_ROOT →
        ¬ ∀ n, Step (run n) (run (n + 1))) ∧
      ∀ c, Reaches (session oneModule .readModules AID_ROOT) c →
        Reaches c (agreed oneModule .readModules) ∧ (Ended c → c = agreed oneModule .readModules) :=
  ⟨rfl, session_ends oneModule .readModules rfl⟩

end NeoZygisk.Daemon.Protocol
