import NeoZygisk.Common.DataModel
import NeoZygisk.Lib.Bytes

/-!
# Receiving a descriptor

`recv_fd` hands `recvmsg` a control buffer on its stack and takes the descriptor from where the first control
message has its data. `recv_fds` looks at everything that can be wrong with the message, but only a control
length too short for a header makes it return null; the other checks write to the log. After a failed
`recvmsg` the control length is still the one that was passed in, so what is returned comes from the stack.

`Message.descriptor` is what a message means: a descriptor if it is whole, untruncated and carries exactly one.
`recvFd_iff` says for which outcomes of `recvmsg` `recv_fd` agrees with that whatever was on the stack.
-/

set_option autoImplicit false

namespace NeoZygisk.Common.SocketUtils

open NeoZygisk.Lib.Bytes

/-! ## Control messages -/

variable {m : DataModel}

/-- `sizeof(cmsghdr)`: the length, the level and the type. -/
def sizeofCmsghdr (m : DataModel) : Nat := m.wordSize + 4 + 4

/-- `CMSG_ALIGN`. -/
def cmsgAlign (m : DataModel) (len : Nat) : Nat := (len + m.wordSize - 1) / m.wordSize * m.wordSize

/-- The offset of `CMSG_DATA`. -/
def cmsgData (m : DataModel) : Nat := cmsgAlign m (sizeofCmsghdr m)

/-- `CMSG_LEN`. -/
def cmsgLen (m : DataModel) (len : Nat) : Nat := cmsgAlign m (sizeofCmsghdr m) + len

/-- `CMSG_SPACE`. -/
def cmsgSpace (m : DataModel) (len : Nat) : Nat := cmsgAlign m (sizeofCmsghdr m) + cmsgAlign m len

/-- `SOL_SOCKET`. -/
def solSocket : Int := 1

/-- `SCM_RIGHTS`. -/
def scmRights : Int := 1

/-- `cmsg->cmsg_len`, `cmsg->cmsg_level` and `cmsg->cmsg_type` of the first control message. -/
structure Cmsghdr where
  len : Nat
  level : Int
  type : Int
  deriving DecidableEq, Repr

def readCmsghdr (m : DataModel) (control : List (BitVec 8)) : Cmsghdr where
  len := ofBytes (control.take m.wordSize)
  level := intAt m.wordSize control
  type := intAt (m.wordSize + 4) control

/-! ## What `recvmsg` comes to -/

/-- `sizeof(int)`. -/
abbrev sizeofInt : Nat := 4

/-- A `recvmsg` that succeeds, also at the end of the stream: the number of data bytes, the bytes written to the
control buffer, `msg_controllen` and whether `MSG_CTRUNC` is set. Padding is counted but not written. -/
structure Message (m : DataModel) where
  count : Nat
  count_le : count ≤ sizeofInt
  control : List (BitVec 8)
  controllen : Nat
  written_le : control.length ≤ controllen
  controllen_le : controllen ≤ cmsgSpace m sizeofInt
  truncated : Bool

inductive RecvOutcome (m : DataModel) where
  /-- The result -1. The header is as the caller filled it. -/
  | failed
  | received (msg : Message m)

/-- `cmsgbuf` of `recv_fd`. -/
abbrev ControlBuffer (m : DataModel) := { buf : List (BitVec 8) // buf.length = cmsgSpace m sizeofInt }

namespace RecvOutcome

variable (o : RecvOutcome m)

/-- The result of `recvmsg`. -/
def returned : RecvOutcome m → Int
  | .failed => -1
  | .received msg => msg.count

/-- `msg.msg_controllen` after the call. -/
def controllen (bufsz : Nat) : RecvOutcome m → Nat
  | .failed => bufsz
  | .received msg => msg.controllen

/-- The control buffer after the call. -/
def control (buf : List (BitVec 8)) : RecvOutcome m → List (BitVec 8)
  | .failed => buf
  | .received msg => store msg.control buf

end RecvOutcome

/-! ## Receiving -/

/-- What `recv_fds` writes to the log. -/
inductive Complaint where
  | ioFailure
  | noHeaders
  | sizeMismatch
  | lengthMismatch
  | protocolMismatch
  deriving DecidableEq, Repr

/-- `recv_fds`: its complaints and the bytes from the returned pointer on. -/
def recvFds (o : RecvOutcome m) (buf : List (BitVec 8)) (bufsz cnt : Nat) :
    List Complaint × Option (List (BitVec 8)) :=
  let io := if o.returned ≠ sizeofInt then [.ioFailure] else []
  -- `CMSG_FIRSTHDR`
  if o.controllen bufsz < sizeofCmsghdr m then (io ++ [.noHeaders], none)
  else
    let cmsg := readCmsghdr m (o.control buf)
    let size := if o.controllen bufsz ≠ bufsz then [.sizeMismatch] else []
    let length := if cmsg.len ≠ cmsgLen m (sizeofInt * cnt) then [.lengthMismatch] else []
    let protocol := if cmsg.level ≠ solSocket ∨ cmsg.type ≠ scmRights then [.protocolMismatch] else []
    (io ++ size ++ length ++ protocol, some ((o.control buf).drop (cmsgData m)))

/-- `recv_fd`. -/
def recvFd (o : RecvOutcome m) (buf : ControlBuffer m) : Int :=
  match (recvFds o buf.1 (cmsgSpace m sizeofInt) 1).2 with
  | none => -1
  | some data => intAt 0 data

/-! ## What a message means -/

/-- The descriptor of a message: all of the data came, nothing was cut off, and the control message is an
`SCM_RIGHTS` with one descriptor. -/
def Message.descriptor (msg : Message m) : Option Int :=
  if msg.count = sizeofInt ∧ msg.truncated = false ∧ cmsgLen m sizeofInt ≤ msg.control.length ∧
      readCmsghdr m msg.control = ⟨cmsgLen m sizeofInt, solSocket, scmRights⟩ then
    some (intAt (cmsgData m) msg.control)
  else none

def RecvOutcome.descriptor : RecvOutcome m → Option Int
  | .failed => none
  | .received msg => msg.descriptor

/-- `recvmsg` succeeds, and either with a descriptor, or without room for a control header, or with -1 in the
place of a descriptor. -/
def RecvOutcome.Sound : RecvOutcome m → Prop
  | .failed => False
  | .received msg =>
      msg.descriptor.isSome ∨ msg.controllen < sizeofCmsghdr m ∨
        (cmsgLen m sizeofInt ≤ msg.control.length ∧ intAt (cmsgData m) msg.control = -1)

/-! ## Words of the control buffer -/

theorem intAt_drop (i : Nat) (buf : List (BitVec 8)) : intAt 0 (buf.drop i) = intAt i buf := by
  rw [intAt, intAt, wordAt, wordAt, List.drop_zero]

/-- A word whose last byte is zero is not negative. -/
theorem intAt_ne_of_getElem_zero {i : Nat} {buf : List (BitVec 8)} (h : buf[i + 3]? = some 0) :
    intAt i buf ≠ -1 := by
  have hlength : i + 3 < buf.length := (List.getElem?_eq_some_iff.mp h).1
  have hlast : buf[i + 3] = 0 := (List.getElem?_eq_some_iff.mp h).2
  have hword : (buf.drop i).take 4 = [buf[i], buf[i + 1], buf[i + 2], buf[i + 3]] := by
    rw [List.drop_eq_getElem_cons (by omega), List.drop_eq_getElem_cons (by omega),
      List.drop_eq_getElem_cons (by omega), List.drop_eq_getElem_cons (by omega)]
    rfl
  have hsmall : wordAt i buf < 2 ^ 24 := by
    have h0 := buf[i].isLt
    have h1 := buf[i + 1].isLt
    have h2 := buf[i + 2].isLt
    rw [wordAt, hword, hlast]
    have h3 : (0 : BitVec 8).toNat = 0 := rfl
    simp only [ofBytes]
    omega
  intro hint
  rw [intAt, BitVec.toInt_eq_toNat_cond, BitVec.toNat_ofNat] at hint
  split at hint
  · omega
  · omega

theorem sizeofCmsghdr_le (m : DataModel) : sizeofCmsghdr m ≤ cmsgSpace m sizeofInt := by
  cases m <;> decide

theorem cmsgData_add_lt (m : DataModel) : cmsgData m + 3 < cmsgSpace m sizeofInt := by
  cases m <;> decide

theorem cmsgLen_eq (m : DataModel) : cmsgLen m sizeofInt = cmsgData m + 4 := rfl

/-! ## When a descriptor or -1 is returned -/

/-- The buffer of zeros. -/
def blank (m : DataModel) : ControlBuffer m := ⟨List.replicate _ 0, List.length_replicate⟩

/-- With room for a header, `recv_fd` returns the word at `CMSG_DATA`. -/
theorem recvFd_of_le {o : RecvOutcome m} {buf : ControlBuffer m}
    (h : sizeofCmsghdr m ≤ o.controllen (cmsgSpace m sizeofInt)) :
    recvFd o buf = intAt (cmsgData m) (o.control buf.1) := by
  simp only [recvFd, recvFds, if_neg (Nat.not_lt.mpr h)]
  exact intAt_drop _ _

theorem recvFd_of_lt {o : RecvOutcome m} {buf : ControlBuffer m}
    (h : o.controllen (cmsgSpace m sizeofInt) < sizeofCmsghdr m) : recvFd o buf = -1 := by
  simp only [recvFd, recvFds, if_pos h]

/-- A word that was written whole does not depend on the buffer. -/
theorem intAt_store {msg : Message m} (h : cmsgLen m sizeofInt ≤ msg.control.length)
    (buf : List (BitVec 8)) : intAt (cmsgData m) (store msg.control buf) = intAt (cmsgData m) msg.control :=
  intAt_eq_of_take (take_store h)

/-- A word that was not written whole ends with a byte of the buffer. -/
theorem intAt_store_blank {msg : Message m} (h : msg.control.length < cmsgLen m sizeofInt) :
    intAt (cmsgData m) (store msg.control (blank m).1) ≠ -1 := by
  apply intAt_ne_of_getElem_zero
  rw [cmsgLen_eq] at h
  have hlt := cmsgData_add_lt m
  have hle : msg.control.length ≤ cmsgData m + 3 := by omega
  rw [store, List.getElem?_append_right hle, blank, List.drop_replicate, List.getElem?_replicate]
  rw [if_pos (by omega)]

theorem Message.descriptor_eq_some {msg : Message m} {fd : Int} (h : msg.descriptor = some fd) :
    cmsgLen m sizeofInt ≤ msg.control.length ∧ intAt (cmsgData m) msg.control = fd := by
  simp only [Message.descriptor] at h
  split at h
  · rename_i hgood
    exact ⟨hgood.2.2.1, Option.some.inj h⟩
  · cases h

/-- `recv_fd` returns the descriptor of the message, and -1 where there is none, for every content of the
control buffer exactly if the outcome is sound. -/
theorem recvFd_iff (o : RecvOutcome m) :
    (∀ buf : ControlBuffer m, recvFd o buf = o.descriptor.getD (-1)) ↔ o.Sound := by
  cases o with
  | failed =>
      -- the stack is read: a buffer of zeros gives zero
      refine iff_of_false ?_ id
      intro h
      have hblank := h (blank m)
      rw [recvFd_of_le (sizeofCmsghdr_le m)] at hblank
      refine intAt_ne_of_getElem_zero ?_ hblank
      have hlt := cmsgData_add_lt m
      rw [RecvOutcome.control, blank, List.getElem?_replicate, if_pos hlt]
  | received msg =>
      simp only [RecvOutcome.descriptor, RecvOutcome.Sound]
      by_cases hlen : msg.controllen < sizeofCmsghdr m
      · -- no header: there is no descriptor either
        have hnone : msg.descriptor = none := by
          rw [Option.eq_none_iff_forall_ne_some]
          intro fd hfd
          have hle := (Message.descriptor_eq_some hfd).1
          have hwritten := msg.written_le
          have : sizeofCmsghdr m ≤ cmsgLen m sizeofInt := by
            cases m <;> decide
          omega
        refine iff_of_true ?_ (.inr (.inl hlen))
        intro buf
        rw [recvFd_of_lt (o := .received msg) hlen, hnone]
        rfl
      · have hle : sizeofCmsghdr m ≤ (RecvOutcome.received msg).controllen (cmsgSpace m sizeofInt) :=
          Nat.le_of_not_lt hlen
        cases hfd : msg.descriptor with
        | some fd =>
            obtain ⟨hwritten, hint⟩ := Message.descriptor_eq_some hfd
            refine iff_of_true ?_ (.inl rfl)
            intro buf
            rw [recvFd_of_le hle, RecvOutcome.control, intAt_store hwritten, hint]
            rfl
        | none =>
            simp only [Option.isSome_none, Bool.false_eq_true, false_or, hlen, Option.getD_none]
            constructor
            · intro h
              have hblank := h (blank m)
              rw [recvFd_of_le hle, RecvOutcome.control] at hblank
              have hwritten : cmsgLen m sizeofInt ≤ msg.control.length := by
                apply Nat.le_of_not_lt
                intro hshort
                exact intAt_store_blank hshort hblank
              exact ⟨hwritten, by rwa [intAt_store hwritten] at hblank⟩
            · rintro ⟨hwritten, hint⟩ buf
              rw [recvFd_of_le hle, RecvOutcome.control, intAt_store hwritten, hint]

/-! ## A failed call -/

/-- A control buffer with a seven where the descriptor belongs. -/
def stale : ControlBuffer .lp64 :=
  ⟨List.replicate 16 0 ++ [7, 0, 0, 0, 0, 0, 0, 0], rfl⟩

/-- After an I/O error `recv_fd` returns the seven from its stack. -/
theorem recvFd_failed_stale :
    recvFd .failed stale = 7 ∧
      ¬ ∀ buf : ControlBuffer .lp64, recvFd .failed buf = (RecvOutcome.failed (m := .lp64)).descriptor.getD (-1) := by
  have hseven : recvFd .failed stale = 7 := by decide
  refine ⟨hseven, ?_⟩
  intro h
  rw [h stale] at hseven
  cases hseven

end NeoZygisk.Common.SocketUtils
