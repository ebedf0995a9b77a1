import Mathlib.Data.List.TakeWhile
import NeoZygisk.Lib.Bytes
import NeoZygisk.Lib.Stream

/-!
# The reply to `ReadModules`

The daemon writes the number of its modules, and for each of them the name with its length in front and a
message that carries the descriptor of the library. `ReadModules` reads this back in a process that signals
may interrupt. The reads of bytes go on where they were interrupted or fell short, but `xrecvmsg` is not
repeated: the descriptor is then taken from memory nobody wrote, and the message stays in the stream. The list
is the daemon's exactly if no signal arrives in one of these calls (`readModules_iff`).
-/

set_option autoImplicit false

namespace NeoZygisk.Daemon.ReadModules

open NeoZygisk.Lib.Bytes
open NeoZygisk.Lib.Stream

/-! ## The daemon -/

/-- A module of a snapshot: a name that a `String` can hold, and its open library. -/
structure Module (wordSize : Nat) (F : Type) where
  name : List (BitVec 8)
  noNul : (0 : BitVec 8) ∉ name
  sized : name.length < 256 ^ wordSize
  libFd : F

/-- A snapshot that a `Vec` can hold. -/
structure Snapshot (wordSize : Nat) (F : Type) where
  modules : List (Module wordSize F)
  sized : modules.length < 256 ^ wordSize

section Daemon

variable {wordSize : Nat} {F : Type}

def writeUsize (wordSize value : Nat) : List (Cell F) := plain (toBytes wordSize value)

def writeString (wordSize : Nat) (value : List (BitVec 8)) : List (Cell F) :=
  writeUsize wordSize value.length ++ plain value

/-- `send_fd` of the passfd crate: one message with a payload of four bytes. -/
def sendFd (payload : BitVec 32) (fd : F) : List (Cell F) := message (toBytes 4 payload.toNat) fd

/-- What the daemon sends for its modules, one after the other. -/
def sendModules (payload : BitVec 32) : List (Module wordSize F) → List (Cell F)
  | [] => []
  | m :: rest => writeString wordSize m.name ++ sendFd payload m.libFd ++ sendModules payload rest

/-- `handle_read_modules`. -/
def handleReadModules (payload : BitVec 32) (snapshot : Snapshot wordSize F) : List (Cell F) :=
  writeUsize wordSize snapshot.modules.length ++ sendModules payload snapshot.modules

end Daemon

/-! ## The client -/

/-- A descriptor as `recv_fd` returns it. -/
inductive Descriptor (F : Type) where
  | received (fd : F)
  /-- The value -1: there was no control header. -/
  | missing
  /-- The bytes of a control buffer that nobody filled. -/
  | indeterminate
  deriving DecidableEq, Repr

/-- An element of the vector that `ReadModules` returns. -/
structure Entry (F : Type) where
  name : List (BitVec 8)
  fd : Descriptor F

/-- The client's end: what is still in the stream, and how its next reads are answered. When no answer is left
a read returns all it asks for. -/
structure Client (F : Type) where
  answers : List Answer
  stream : List (Cell F)

section Client

variable {F : Type}

/-- The loop of `xread`, with `count` bytes to go. -/
def xreadLoop : List Answer → Nat → List (Cell F) → List (BitVec 8) × Client F
  | [], count, s => (bytes (s.take count), ⟨[], s.drop count⟩)
  | .interrupted :: answers, count, s =>
      -- `continue` goes to the condition of the loop
      if count = 0 then ([], ⟨answers, s⟩) else xreadLoop answers count s
  | .upTo n :: answers, count, s =>
      let ret := readSize n count s
      if ret = count ∨ ret = 0 then (bytes (s.take ret), ⟨answers, s.drop ret⟩)
      else
        let r := xreadLoop answers (count - ret) (s.drop ret)
        (bytes (s.take ret) ++ r.1, r.2)

def xread (count : Nat) (c : Client F) : List (BitVec 8) × Client F := xreadLoop c.answers count c.stream

def readUsize (wordSize : Nat) (c : Client F) : Nat × Client F :=
  let r := xread wordSize c
  (if r.1.length = wordSize then ofBytes r.1 else 0, r.2)

/-- `read_string`. The buffer is returned as a C string, which ends at the first NUL. -/
def readString (wordSize : Nat) (c : Client F) : List (BitVec 8) × Client F :=
  let len := readUsize wordSize c
  let r := xread len.1 len.2
  (r.1.takeWhile (· ≠ 0), r.2)

/-- `recv_fd`. The call of `recvmsg` waits for all four bytes. After an error `msg_controllen` is still the
size of the buffer, and `CMSG_FIRSTHDR` points into it. -/
def recvFd (interrupted : Bool) (c : Client F) : Descriptor F × Client F :=
  if interrupted then (.indeterminate, c)
  else
    let fd := (c.stream.take 4).findSome? Cell.attached
    (fd.elim .missing .received, { c with stream := c.stream.drop 4 })

/-- The loop of `ReadModules` from the module `i` on. `interrupts` tells in which of the calls of `recvmsg` a
signal arrives. -/
def readLoop (wordSize : Nat) (interrupts : Nat → Bool) :
    Nat → Nat → Client F → List (Entry F) × Client F
  | 0, _, c => ([], c)
  | len + 1, i, c =>
      let name := readString wordSize c
      let fd := recvFd (interrupts i) name.2
      let r := readLoop wordSize interrupts len (i + 1) fd.2
      (⟨name.1, fd.1⟩ :: r.1, r.2)

/-- `ReadModules`, from the reply on. -/
def readModules (wordSize : Nat) (interrupts : Nat → Bool) (c : Client F) : List (Entry F) × Client F :=
  let len := readUsize wordSize c
  readLoop wordSize interrupts len.1 0 len.2

end Client

/-! ## Reading back -/

section Reading

variable {wordSize : Nat} {F : Type}

/-- Interrupted and short reads do not show. -/
theorem xreadLoop_eq (answers : List Answer) (count : Nat) (s : List (Cell F)) (h : count ≤ s.length) :
    ∃ answers', xreadLoop answers count s = (bytes (s.take count), ⟨answers', s.drop count⟩) := by
  induction answers generalizing count s with
  | nil => exact ⟨[], rfl⟩
  | cons answer answers ih =>
      cases answer with
      | interrupted =>
          rw [xreadLoop]
          split_ifs with hzero
          · subst hzero
            exact ⟨answers, rfl⟩
          · exact ih count s h
      | upTo n =>
          simp only [xreadLoop]
          split_ifs with hlast
          · have hret : readSize n count s = count := by
              simp only [readSize] at hlast ⊢
              omega
            exact ⟨answers, by rw [hret]⟩
          · -- the rest of the bytes comes with the reads that follow
            have hle : readSize n count s ≤ count := by
              simp only [readSize]
              omega
            obtain ⟨answers', hrest⟩ := ih (count - readSize n count s) (s.drop (readSize n count s)) (by
              rw [List.length_drop]
              omega)
            refine ⟨answers', ?_⟩
            rw [hrest, List.drop_drop, Nat.add_sub_cancel' hle, bytes_take_append hle]

theorem xread_plain (bs : List (BitVec 8)) (answers : List Answer) (rest : List (Cell F)) :
    ∃ answers', xread bs.length ⟨answers, plain bs ++ rest⟩ = (bs, ⟨answers', rest⟩) := by
  obtain ⟨answers', h⟩ := xreadLoop_eq answers bs.length (plain bs ++ rest) (by
    rw [List.length_append, length_plain]
    omega)
  rw [take_plain_append, drop_plain_append] at h
  exact ⟨answers', h⟩

theorem readUsize_writeUsize {value : Nat} (h : value < 256 ^ wordSize) (answers : List Answer)
    (rest : List (Cell F)) :
    ∃ answers', readUsize wordSize ⟨answers, writeUsize wordSize value ++ rest⟩ =
      (value, ⟨answers', rest⟩) := by
  obtain ⟨answers', hread⟩ := xread_plain (toBytes wordSize value) answers rest
  rw [length_toBytes] at hread
  refine ⟨answers', ?_⟩
  simp only [readUsize, writeUsize, hread, length_toBytes, if_true, ofBytes_toBytes, Nat.mod_eq_of_lt h]

theorem readString_writeString {name : List (BitVec 8)} (hnoNul : (0 : BitVec 8) ∉ name)
    (hsized : name.length < 256 ^ wordSize) (answers : List Answer) (rest : List (Cell F)) :
    ∃ answers', readString wordSize ⟨answers, writeString wordSize name ++ rest⟩ =
      (name, ⟨answers', rest⟩) := by
  obtain ⟨answers₁, hlen⟩ := readUsize_writeUsize hsized answers (plain name ++ rest)
  obtain ⟨answers₂, hread⟩ := xread_plain name answers₁ rest
  have hname : name.takeWhile (· ≠ 0) = name := by
    apply List.takeWhile_eq_self_iff.mpr
    intro b hb
    apply decide_eq_true
    rintro rfl
    exact hnoNul hb
  refine ⟨answers₂, ?_⟩
  simp only [readString, writeString, List.append_assoc, hlen, hread, hname]

theorem recvFd_sendFd (payload : BitVec 32) (fd : F) (answers : List Answer) (rest : List (Cell F)) :
    recvFd false ⟨answers, sendFd payload fd ++ rest⟩ = (.received fd, ⟨answers, rest⟩) := by
  have hlength : (sendFd payload fd).length = 4 := by rw [sendFd, length_message, length_toBytes]
  have hattached : (sendFd payload fd).findSome? Cell.attached = some fd := rfl
  simp only [recvFd, Bool.false_eq_true, if_false, List.take_left' hlength, List.drop_left' hlength,
    hattached, Option.elim_some]

/-- The entry of a module on the client's side. -/
def Module.entry (m : Module wordSize F) : Entry F := ⟨m.name, .received m.libFd⟩

/-- As long as no `recvmsg` is interrupted, the loop reads the modules back and nothing behind them. -/
theorem readLoop_sendModules (interrupts : Nat → Bool) (payload : BitVec 32) (modules : List (Module wordSize F))
    (rest : List (Cell F)) (i : Nat) (answers : List Answer)
    (h : ∀ j < modules.length, interrupts (i + j) = false) :
    ∃ answers', readLoop wordSize interrupts modules.length i ⟨answers, sendModules payload modules ++ rest⟩ =
      (modules.map Module.entry, ⟨answers', rest⟩) := by
  induction modules generalizing i answers with
  | nil => exact ⟨answers, rfl⟩
  | cons m modules ih =>
      have hfirst : interrupts i = false := h 0 (Nat.succ_pos _)
      obtain ⟨answers₁, hname⟩ := readString_writeString m.noNul m.sized answers
        (sendFd payload m.libFd ++ (sendModules payload modules ++ rest))
      have hfd := recvFd_sendFd payload m.libFd answers₁ (sendModules payload modules ++ rest)
      obtain ⟨answers₂, hrest⟩ := ih (i + 1) answers₁ fun j hj => by
        rw [Nat.add_right_comm]
        exact h (j + 1) (Nat.succ_lt_succ hj)
      refine ⟨answers₂, ?_⟩
      simp only [List.length_cons, readLoop, sendModules, List.append_assoc, hname, hfirst, hfd, hrest,
        List.map_cons]
      rfl

/-- An interrupted `recvmsg` shows in its entry, whatever is read afterwards. -/
theorem readLoop_of_interrupted (interrupts : Nat → Bool) (len i j : Nat) (c : Client F) (hj : j < len)
    (h : interrupts (i + j) = true) :
    ((readLoop wordSize interrupts len i c).1[j]?).map Entry.fd = some .indeterminate := by
  induction len generalizing i j c with
  | zero => exact absurd hj (Nat.not_lt_zero j)
  | succ len ih =>
      cases j with
      | zero =>
          have hfirst : interrupts i = true := h
          simp only [readLoop, hfirst, recvFd, if_true, List.getElem?_cons_zero, Option.map_some]
      | succ j =>
          simp only [readLoop, List.getElem?_cons_succ]
          apply ih (i + 1) j _ (Nat.lt_of_succ_lt_succ hj)
          rw [Nat.add_right_comm]
          exact h

/-- For every snapshot, and however the reads are split and interrupted, the client gets the names and
descriptors of the daemon's list in their order, and reads as much as was sent, exactly if no `recvmsg` is
interrupted. -/
theorem readModules_iff (payload : BitVec 32) (snapshot : Snapshot wordSize F) (rest : List (Cell F))
    (answers : List Answer) (interrupts : Nat → Bool) :
    ((readModules wordSize interrupts ⟨answers, handleReadModules payload snapshot ++ rest⟩).1 =
        snapshot.modules.map Module.entry ∧
      (readModules wordSize interrupts ⟨answers, handleReadModules payload snapshot ++ rest⟩).2.stream =
        rest) ↔
      ∀ i < snapshot.modules.length, interrupts i = false := by
  obtain ⟨answers₁, hlen⟩ := readUsize_writeUsize snapshot.sized answers
    (sendModules payload snapshot.modules ++ rest)
  simp only [readModules, handleReadModules, List.append_assoc, hlen]
  constructor
  · rintro ⟨hentries, -⟩ i hi
    by_contra hinterrupted
    -- the entry of an interrupted call has a descriptor that no module of the snapshot has
    have htrue : interrupts (0 + i) = true := by
      rw [Nat.zero_add]
      exact Bool.eq_true_of_not_eq_false hinterrupted
    have hentry : ((readLoop wordSize interrupts snapshot.modules.length 0
        ⟨answers₁, sendModules payload snapshot.modules ++ rest⟩).1[i]?).map Entry.fd = _ :=
      readLoop_of_interrupted interrupts _ 0 i _ hi htrue
    rw [hentries, List.getElem?_map, List.getElem?_eq_getElem hi] at hentry
    cases hentry
  · intro h
    obtain ⟨answers₂, hloop⟩ := readLoop_sendModules interrupts payload snapshot.modules rest 0 answers₁
      fun j hj => by
        rw [Nat.zero_add]
        exact h j hj
    rw [hloop]
    exact ⟨rfl, rfl⟩

end Reading

/-- A snapshot of one module, on a device with 32-bit words. -/
def oneModule : Snapshot 4 Nat := ⟨[⟨[108, 115, 112], by decide, by decide, 7⟩], by decide⟩

/-- A signal in the only `recvmsg`: the descriptor was not received, and its message is still there. -/
theorem interrupted_oneModule :
    (readModules 4 (fun _ => true) ⟨[], handleReadModules 0 oneModule⟩).1.map Entry.fd = [.indeterminate] ∧
      (readModules 4 (fun _ => true) ⟨[], handleReadModules 0 oneModule⟩).2.stream.length = 4 ∧
      ¬ ((readModules 4 (fun _ => true) ⟨[], handleReadModules 0 oneModule⟩).1 =
          oneModule.modules.map Module.entry ∧
        (readModules 4 (fun _ => true) ⟨[], handleReadModules 0 oneModule⟩).2.stream = []) := by
  have hstream : (readModules 4 (fun _ => true) ⟨[], handleReadModules 0 oneModule⟩).2.stream.length = 4 := by
    decide
  refine ⟨by decide, hstream, fun hreads => ?_⟩
  rw [hreads.2] at hstream
  cases hstream

end NeoZygisk.Daemon.ReadModules
