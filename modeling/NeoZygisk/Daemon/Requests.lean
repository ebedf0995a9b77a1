import Mathlib.Tactic.SplitIfs
import NeoZygisk.Daemon.ModuleIndex

/-!
# Requests for a companion

Every `RequestCompanionSocket` is served by a thread of the daemon. The thread takes a snapshot, waits for the
mutex of the module it was asked for, and under it looks at the companion, starts one if there is none, and
forwards the socket of its client or answers 0. Meanwhile companions answer and exit, the main thread drops
companions and publishes snapshots, old snapshots go with their last reader, and children are reaped.

`Inv` is what every step keeps: where a thread is, it has the mutex it needs and has answered nothing, a
registered companion belongs to its module and answered 1, and no child is forgotten before it was waited for.
-/

set_option autoImplicit false

namespace NeoZygisk.Daemon.Requests

open NeoZygisk.Lib
open NeoZygisk.Lib.Transition

/-- A module object: a snapshot, and a position in it. -/
abbrev ModuleId := Nat × Nat

/-- A companion process, with what it has done at setup. -/
structure Child where
  module : ModuleId
  /-- The name and the library were handed over. -/
  handed : Bool
  /-- The byte it answered with. -/
  answer : Option (BitVec 8)
  alive : Bool
  deriving DecidableEq, Repr

/-- Where `handle_request_companion_socket` is. From `checking` on it holds the mutex of the module, and
`handing` and `awaiting` are inside `spawn_companion`. -/
inductive Stage where
  | received
  | resolved
  | checking
  | spawning
  | handing (child : Nat)
  | awaiting (child : Nat)
  | sending
  | done
  deriving DecidableEq, Repr

/-- The thread of a request whose index was read. `writes` are the bytes the daemon wrote to the client, and
`forwarded` the companions its socket was sent to. -/
structure Thread where
  index : Nat
  snapshot : Nat
  stage : Stage
  writes : List (BitVec 8)
  forwarded : List Nat
  deriving DecidableEq, Repr

def Thread.module (th : Thread) : ModuleId := (th.snapshot, th.index)

/-- The main thread: it drops the companions of a snapshot one by one, rescans, and reaps. -/
inductive Main where
  | idle
  | dropping (rest : List ModuleId)
  | rescanning
  | reaping
  deriving DecidableEq, Repr

structure World where
  snapshots : Heap (List String)
  current : Nat
  ignoreDisable : Bool
  /-- The field `companion` of every module, and the thread that holds its mutex. -/
  companion : ModuleId → Option Nat
  holder : ModuleId → Option Nat
  /-- All the children ever spawned. -/
  children : Heap Child
  /-- `pending_companions`. -/
  pending : List Nat
  /-- The children for which `try_wait` returned an exit or an error. -/
  waited : List Nat
  threads : Heap Thread
  main : Main

/-- The daemon with the modules of its startup scan. -/
def start (modules : List String) : World where
  snapshots := ⟨fun _ => modules, 1⟩
  current := 0
  ignoreDisable := false
  companion := fun _ => none
  holder := fun _ => none
  children := ⟨fun _ => ⟨(0, 0), false, none, false⟩, 0⟩
  pending := []
  waited := []
  threads := ⟨fun _ => ⟨0, 0, .received, [], []⟩, 0⟩
  main := .idle

inductive Act where
  /-- A request is completely received. -/
  | request (index : Nat)
  /-- A thread goes on; `failed` if the system call it makes fails. -/
  | advance (tid : Nat) (failed : Bool)
  /-- A companion answers at setup. -/
  | answer (child : Nat) (byte : BitVec 8)
  | exit (child : Nat)
  | zygoteRestart
  | refreshModules (ignoreDisable : Bool)
  /-- The main thread drops the next companion. -/
  | drop
  | rescan (scan : Scan)
  /-- `reap_companions`; `error` where `try_wait` fails. -/
  | reap (error : Nat → Bool)
  /-- A thread that answers `ReadModules` reaps. -/
  | readModules (error : Nat → Bool)
  /-- A retired snapshot is dropped with a companion of it. -/
  | retire (module : ModuleId)

namespace World

def setThread (w : World) (tid : Nat) (th : Thread) : World :=
  { w with threads := w.threads.modify tid fun _ => th }

def setCompanion (w : World) (module : ModuleId) (child : Option Nat) : World :=
  { w with companion := Function.update w.companion module child }

def setHolder (w : World) (module : ModuleId) (tid : Option Nat) : World :=
  { w with holder := Function.update w.holder module tid }

/-- The end of a request: the answer 0, or the socket sent to a companion. -/
def finish (w : World) (tid : Nat) (th : Thread) : Option Nat → World
  | none => w.setThread tid { th with stage := .done, writes := th.writes ++ [0] }
  | some child => w.setThread tid { th with stage := .done, forwarded := th.forwarded ++ [child] }

/-- `reap_companions`. -/
def reap (w : World) (error : Nat → Bool) : World :=
  { w with
    pending := w.pending.filter fun c => !error c && (w.children.get c).alive
    waited := w.waited ++ w.pending.filter fun c => error c || !(w.children.get c).alive }

/-- The swap of the snapshots; its modules have no companion, and nobody holds their mutex. -/
def publish (w : World) (modules : List String) : World :=
  { w with
    snapshots := w.snapshots.alloc modules
    current := w.snapshots.next
    companion := fun m => if m.1 = w.snapshots.next then none else w.companion m
    holder := fun m => if m.1 = w.snapshots.next then none else w.holder m
    main := .reaping }

/-- The daemon has its end of the socket to a companion of the module: it is registered, or a thread is
starting it. -/
def Connected (w : World) (module : ModuleId) (child : Nat) : Prop :=
  w.companion module = some child ∨
    ∃ tid < w.threads.next, (w.threads.get tid).module = module ∧
      ((w.threads.get tid).stage = .handing child ∨ (w.threads.get tid).stage = .awaiting child)

/-- A thread holds a reference to a snapshot. -/
def InUse (w : World) (snapshot : Nat) : Prop :=
  ∃ tid < w.threads.next, (w.threads.get tid).stage ≠ .received ∧ (w.threads.get tid).stage ≠ .done ∧
    (w.threads.get tid).snapshot = snapshot

instance (w : World) (snapshot : Nat) : Decidable (w.InUse snapshot) :=
  inferInstanceAs (Decidable (∃ tid < w.threads.next, _))

end World

/-- One step of `handle_request_companion_socket`. A child is pushed to `pending_companions` as soon as it is
spawned, which is one step here: in between only its thread knows it, and a sweep that comes there does what it
would have done before the spawn. Client sockets are writable, so the answer 0 arrives. -/
def advance (w : World) (tid : Nat) (failed : Bool) : Option World :=
  let th := w.threads.get tid
  match th.stage with
  | .received =>
      let th := { th with snapshot := w.current }
      if th.index < (w.snapshots.get w.current).length then
        some (w.setThread tid { th with stage := .resolved })
      else some (w.finish tid th none)
  | .resolved =>
      if w.holder th.module = none then
        some ((w.setHolder th.module (some tid)).setThread tid { th with stage := .checking })
      else none
  | .checking =>
      match w.companion th.module with
      | some child =>
          if (w.children.get child).alive = true ∧ failed = false then
            some (w.setThread tid { th with stage := .sending })
          else some ((w.setCompanion th.module none).setThread tid { th with stage := .spawning })
      | none => some (w.setThread tid { th with stage := .spawning })
  | .spawning =>
      if failed then some (w.setThread tid { th with stage := .sending })
      else
        some ({ w with
          children := w.children.alloc ⟨th.module, false, none, true⟩
          pending := w.pending ++ [w.children.next] }.setThread tid
            { th with stage := .handing w.children.next })
  | .handing child =>
      if failed = false ∧ (w.children.get child).alive = true then
        some ({ w with children := w.children.modify child ({ · with handed := true }) }.setThread tid
          { th with stage := .awaiting child })
      else some (w.setThread tid { th with stage := .sending })
  | .awaiting child =>
      match (w.children.get child).answer with
      | some byte =>
          some ((if byte = 1 then w.setCompanion th.module (some child) else w).setThread tid
            { th with stage := .sending })
      | none =>
          -- the read blocks until the companion answers, or its exit ends the stream
          if (w.children.get child).alive then none
          else some (w.setThread tid { th with stage := .sending })
  | .sending =>
      match w.companion th.module with
      | some child =>
          if failed = false ∧ (w.children.get child).alive = true then
            some ((w.setHolder th.module none).finish tid th (some child))
          else some ((w.setHolder th.module none).finish tid th none)
      | none => some ((w.setHolder th.module none).finish tid th none)
  | .done => none

def step (w : World) : Act → Option World
  | .request index => some { w with threads := w.threads.alloc ⟨index, 0, .received, [], []⟩ }
  | .advance tid failed => if tid < w.threads.next then advance w tid failed else none
  | .answer child byte =>
      if child < w.children.next ∧ (w.children.get child).alive = true ∧
          (w.children.get child).handed = true ∧ (w.children.get child).answer = none then
        some { w with children := w.children.modify child ({ · with answer := some byte }) }
      else none
  | .exit child =>
      if child < w.children.next ∧ (w.children.get child).alive = true then
        some { w with children := w.children.modify child ({ · with alive := false }) }
      else none
  | .zygoteRestart =>
      if w.main = .idle then
        let modules := (List.range (w.snapshots.get w.current).length).map fun i => (w.current, i)
        some { w with main := .dropping modules }
      else none
  | .refreshModules ignoreDisable =>
      if w.main = .idle then some { w with ignoreDisable, main := .rescanning } else none
  | .drop =>
      match w.main with
      | .dropping (m :: rest) =>
          if w.holder m = none then some { w.setCompanion m none with main := .dropping rest } else none
      | .dropping [] => some { w with main := .rescanning }
      | _ => none
  | .rescan scan =>
      if w.main = .rescanning then
        match loadModules w.ignoreDisable scan with
        | some modules => some (w.publish modules)
        | none => some { w with main := .idle }
      else none
  | .reap error => if w.main = .reaping then some { w.reap error with main := .idle } else none
  | .readModules error => some (w.reap error)
  | .retire m => if m.1 ≠ w.current ∧ ¬ w.InUse m.1 then some (w.setCompanion m none) else none

/-! ## One answer -/

namespace World

/-- The module a thread was asked for is in its snapshot. -/
def Indexed (w : World) (th : Thread) : Prop :=
  th.snapshot < w.snapshots.next ∧ th.index < (w.snapshots.get th.snapshot).length

/-- The process was started for the module. -/
def Belongs (w : World) (child : Nat) (module : ModuleId) : Prop :=
  child < w.children.next ∧ (w.children.get child).module = module

/-- A request got the answer 0 of the daemon, or its socket went to a companion of its module that had
answered 1. -/
def Answered (w : World) (th : Thread) : Prop :=
  (th.writes = [0] ∧ th.forwarded = []) ∨
    (th.writes = [] ∧ ∃ child, th.forwarded = [child] ∧ w.Indexed th ∧ w.Belongs child th.module ∧
      (w.children.get child).answer = some 1)

end World

/-- Nothing was answered yet. -/
def Thread.Quiet (th : Thread) : Prop := th.writes = [] ∧ th.forwarded = []

/-- What holds of a thread in each of its stages. -/
def ThreadOk (w : World) (tid : Nat) (th : Thread) : Prop :=
  match th.stage with
  | .received => th.Quiet
  | .resolved => th.Quiet ∧ w.Indexed th
  | .checking | .sending => th.Quiet ∧ w.Indexed th ∧ w.holder th.module = some tid
  | .spawning =>
      th.Quiet ∧ w.Indexed th ∧ w.holder th.module = some tid ∧ w.companion th.module = none
  | .handing child | .awaiting child =>
      th.Quiet ∧ w.Indexed th ∧ w.holder th.module = some tid ∧ w.companion th.module = none ∧
        w.Belongs child th.module
  | .done => w.Answered th

structure Inv (w : World) : Prop where
  threads : ∀ tid < w.threads.next, ThreadOk w tid (w.threads.get tid)
  companion : ∀ m child, w.companion m = some child →
    w.Belongs child m ∧ (w.children.get child).answer = some 1
  pending : ∀ child < w.children.next, child ∈ w.pending ∨ child ∈ w.waited
  current : w.current < w.snapshots.next

/-- What a step may do to the snapshots and children that there are: it keeps them, and an answer that was
given. -/
structure Extends (w w' : World) : Prop where
  snapshots_next : w.snapshots.next ≤ w'.snapshots.next
  snapshots_get : ∀ s < w.snapshots.next, w'.snapshots.get s = w.snapshots.get s
  children_next : w.children.next ≤ w'.children.next
  module : ∀ c < w.children.next, (w'.children.get c).module = (w.children.get c).module
  answer : ∀ c < w.children.next, ∀ byte, (w.children.get c).answer = some byte →
    (w'.children.get c).answer = some byte

/-- The mutexes a thread holds stay with it, and a slot that is empty under its mutex stays empty. -/
def KeepsLocks (w w' : World) (tid : Nat) : Prop :=
  ∀ m : ModuleId, m.1 < w.snapshots.next → w.holder m = some tid →
    w'.holder m = some tid ∧ (w.companion m = none → w'.companion m = none)

section Frame

variable {w w' : World} {tid child : Nat} {th : Thread} {m : ModuleId} {byte : BitVec 8}

theorem Extends.indexed (h : Extends w w') (hth : w.Indexed th) : w'.Indexed th := by
  refine ⟨Nat.lt_of_lt_of_le hth.1 h.snapshots_next, ?_⟩
  rw [h.snapshots_get th.snapshot hth.1]
  exact hth.2

theorem Extends.belongs (h : Extends w w') (hc : w.Belongs child m) : w'.Belongs child m :=
  ⟨Nat.lt_of_lt_of_le hc.1 h.children_next, (h.module child hc.1).trans hc.2⟩

theorem Extends.answered (h : Extends w w') (hth : w.Answered th) : w'.Answered th := by
  rcases hth with hrefused | ⟨hwrites, c, hforwarded, hindexed, hbelongs, hanswer⟩
  · exact .inl hrefused
  · exact .inr ⟨hwrites, c, hforwarded, h.indexed hindexed, h.belongs hbelongs,
      h.answer c hbelongs.1 1 hanswer⟩

/-- A companion that may stand in the slot of a module may still stand there. -/
theorem Extends.registered (h : Extends w w')
    (hc : w.Belongs child m ∧ (w.children.get child).answer = some 1) :
    w'.Belongs child m ∧ (w'.children.get child).answer = some 1 :=
  ⟨h.belongs hc.1, h.answer child hc.1.1 1 hc.2⟩

/-- A thread that does not move is none the worse for the steps of the others. -/
theorem ThreadOk.frame (hth : ThreadOk w tid th) (h : Extends w w') (hlocks : KeepsLocks w w' tid) :
    ThreadOk w' tid th := by
  rw [ThreadOk] at hth ⊢
  cases hstage : th.stage with
  | received =>
      rw [hstage] at hth
      exact hth
  | resolved =>
      rw [hstage] at hth
      exact ⟨hth.1, h.indexed hth.2⟩
  | checking | sending =>
      rw [hstage] at hth
      obtain ⟨hquiet, hindexed, hholder⟩ := hth
      exact ⟨hquiet, h.indexed hindexed, (hlocks th.module hindexed.1 hholder).1⟩
  | spawning =>
      rw [hstage] at hth
      obtain ⟨hquiet, hindexed, hholder, hempty⟩ := hth
      obtain ⟨hholder', hempty'⟩ := hlocks th.module hindexed.1 hholder
      exact ⟨hquiet, h.indexed hindexed, hholder', hempty' hempty⟩
  | handing child | awaiting child =>
      rw [hstage] at hth
      obtain ⟨hquiet, hindexed, hholder, hempty, hbelongs⟩ := hth
      obtain ⟨hholder', hempty'⟩ := hlocks th.module hindexed.1 hholder
      exact ⟨hquiet, h.indexed hindexed, hholder', hempty' hempty, h.belongs hbelongs⟩
  | done =>
      rw [hstage] at hth
      exact h.answered hth

theorem extends_of_eq (hsnapshots : w'.snapshots = w.snapshots) (hchildren : w'.children = w.children) :
    Extends w w' := by
  constructor
  · exact Nat.le_of_eq (by rw [hsnapshots])
  · intro s _
    rw [hsnapshots]
  · exact Nat.le_of_eq (by rw [hchildren])
  · intro c _
    rw [hchildren]
  · intro c _ byte hbyte
    rw [hchildren]
    exact hbyte

/-- A child is changed in place, and what it answered is kept. -/
theorem extends_of_modify {f : Child → Child} (hsnapshots : w'.snapshots = w.snapshots)
    (hchildren : w'.children = w.children.modify child f)
    (hmodule : (f (w.children.get child)).module = (w.children.get child).module)
    (hanswer : ∀ byte, (w.children.get child).answer = some byte →
      (f (w.children.get child)).answer = some byte) : Extends w w' := by
  have hget : ∀ c ≠ child, w'.children.get c = w.children.get c := by
    intro c hc
    rw [hchildren, Heap.get_modify_of_ne _ _ hc]
  have hself : w'.children.get child = f (w.children.get child) := by
    rw [hchildren, Heap.get_modify_self]
  constructor
  · exact Nat.le_of_eq (by rw [hsnapshots])
  · intro s _
    rw [hsnapshots]
  · exact Nat.le_of_eq (by rw [hchildren, Heap.next_modify])
  · intro c _
    by_cases hc : c = child
    · rw [hc, hself, hmodule]
    · rw [hget c hc]
  · intro c _ byte hbyte
    by_cases hc : c = child
    · rw [hc] at hbyte ⊢
      rw [hself]
      exact hanswer byte hbyte
    · rw [hget c hc]
      exact hbyte

theorem extends_of_alloc {c : Child} (hsnapshots : w'.snapshots = w.snapshots)
    (hchildren : w'.children = w.children.alloc c) : Extends w w' := by
  have hget : ∀ k < w.children.next, w'.children.get k = w.children.get k := by
    intro k hk
    rw [hchildren, Heap.get_alloc_of_lt _ _ hk]
  constructor
  · exact Nat.le_of_eq (by rw [hsnapshots])
  · intro s _
    rw [hsnapshots]
  · rw [hchildren, Heap.next_alloc]
    exact Nat.le_succ _
  · intro k hk
    rw [hget k hk]
  · intro k hk byte hbyte
    rw [hget k hk]
    exact hbyte

theorem extends_publish (modules : List String) : Extends w (w.publish modules) := by
  refine ⟨Nat.le_succ _, fun s hs => Heap.get_alloc_of_lt _ _ hs, Nat.le_refl _, fun _ _ => rfl, ?_⟩
  intro c _ byte hbyte
  exact hbyte

/-- A step under the mutex of one module does not reach the other mutexes. -/
theorem keepsLocks_of_ne (hm : w.holder m ≠ some tid)
    (hholder : ∀ m' ≠ m, w'.holder m' = w.holder m')
    (hcompanion : ∀ m' ≠ m, w'.companion m' = w.companion m') : KeepsLocks w w' tid := by
  intro m' _ hm'
  have hne : m' ≠ m := by
    rintro rfl
    exact hm hm'
  refine ⟨(hholder m' hne).trans hm', fun hempty => ?_⟩
  rw [hcompanion m' hne, hempty]

theorem keepsLocks_refl (hholder : w'.holder = w.holder) (hcompanion : w'.companion = w.companion) :
    KeepsLocks w w' tid := by
  intro m _ hm
  rw [hholder, hcompanion]
  exact ⟨hm, id⟩

end Frame

/-! ## Steps -/

section Step

variable {w w' : World} {tid child : Nat} {th : Thread} {m : ModuleId} {failed : Bool}

/-- A step of something else than a thread, that registers no companion. -/
theorem Inv.environment (h : Inv w) (hext : Extends w w') (hthreads : w'.threads = w.threads)
    (hlocks : ∀ tid, KeepsLocks w w' tid)
    (hcompanion : ∀ m c, w'.companion m = some c → w.companion m = some c)
    (hpending : ∀ c < w'.children.next, c ∈ w'.pending ∨ c ∈ w'.waited)
    (hcurrent : w'.current < w'.snapshots.next) : Inv w' := by
  refine ⟨?_, ?_, hpending, hcurrent⟩
  · rw [hthreads]
    intro tid htid
    exact (h.threads tid htid).frame hext (hlocks tid)
  · intro m c hc
    exact hext.registered (h.companion m c (hcompanion m c hc))

/-- A step of the main thread, or of a reader, that only moves the main thread or reaps children. -/
theorem Inv.bookkeeping (h : Inv w) (hsnapshots : w'.snapshots = w.snapshots)
    (hchildren : w'.children = w.children) (hthreads : w'.threads = w.threads)
    (hslots : w'.holder = w.holder ∧ w'.companion = w.companion) (hcurrent : w'.current = w.current)
    (hpending : ∀ c, c ∈ w.pending ∨ c ∈ w.waited → c ∈ w'.pending ∨ c ∈ w'.waited) : Inv w' := by
  refine h.environment (extends_of_eq hsnapshots hchildren) hthreads
    (fun _ => keepsLocks_refl hslots.1 hslots.2) ?_ ?_ ?_
  · intro m c hc
    rwa [hslots.2] at hc
  · intro c hc
    rw [hchildren] at hc
    exact hpending c (h.pending c hc)
  · rw [hcurrent, hsnapshots]
    exact h.current

/-- A step of one thread. -/
theorem Inv.thread (h : Inv w) (hext : Extends w w')
    (hthreads : w'.threads = w.threads.modify tid fun _ => th) (hself : ThreadOk w' tid th)
    (hlocks : ∀ other ≠ tid, KeepsLocks w w' other)
    (hcompanion : ∀ m c, w'.companion m = some c →
      w'.Belongs c m ∧ (w'.children.get c).answer = some 1)
    (hpending : ∀ c < w'.children.next, c ∈ w'.pending ∨ c ∈ w'.waited)
    (hcurrent : w'.current < w'.snapshots.next) : Inv w' := by
  refine ⟨?_, hcompanion, hpending, hcurrent⟩
  rw [hthreads]
  intro other hother
  by_cases hne : other = tid
  · rw [hne, Heap.get_modify_self]
    exact hself
  · rw [Heap.get_modify_of_ne _ _ hne]
    exact (h.threads other hother).frame hext (hlocks other hne)

/-- A step of one thread that has to do with a child and touches no slot and no mutex. -/
theorem Inv.withChild (h : Inv w) (hext : Extends w w')
    (hthreads : w'.threads = w.threads.modify tid fun _ => th) (hself : ThreadOk w' tid th)
    (hslots : w'.holder = w.holder ∧ w'.companion = w.companion)
    (hpending : ∀ c < w'.children.next, c ∈ w'.pending ∨ c ∈ w'.waited)
    (hcurrent : w'.current < w'.snapshots.next) : Inv w' := by
  refine h.thread hext hthreads hself (fun _ _ => keepsLocks_refl hslots.1 hslots.2) ?_ hpending hcurrent
  intro m c hc
  rw [hslots.2] at hc
  exact hext.registered (h.companion m c hc)

/-- A step of one thread that leaves everything else as it is, but for slots it empties and mutexes it
holds. -/
theorem Inv.threadOnly (h : Inv w) (hsnapshots : w'.snapshots = w.snapshots)
    (hchildren : w'.children = w.children) (hqueues : w'.pending = w.pending ∧ w'.waited = w.waited)
    (hcurrent : w'.current = w.current)
    (hthreads : w'.threads = w.threads.modify tid fun _ => th) (hself : ThreadOk w' tid th)
    (hlocks : ∀ other ≠ tid, KeepsLocks w w' other)
    (hcompanion : ∀ m c, w'.companion m = some c → w.companion m = some c) : Inv w' := by
  have hext : Extends w w' := extends_of_eq hsnapshots hchildren
  refine h.thread hext hthreads hself hlocks ?_ ?_ ?_
  · intro m c hc
    exact hext.registered (h.companion m c (hcompanion m c hc))
  · rw [hchildren, hqueues.1, hqueues.2]
    exact h.pending
  · rw [hcurrent, hsnapshots]
    exact h.current

/-- No other thread has the mutex that a thread has. -/
theorem holder_ne {other : Nat} (hm : w.holder m = some tid) (hne : other ≠ tid) :
    w.holder m ≠ some other := by
  rw [hm]
  exact fun h => hne (Option.some.inj h).symm

/-- A slot that was emptied registers nobody. -/
theorem companion_of_setCompanion_none {m' : ModuleId}
    (hc : (w.setCompanion m none).companion m' = some child) : w.companion m' = some child := by
  by_cases hm : m' = m
  · rw [hm] at hc
    simp only [World.setCompanion, Function.update_self] at hc
    cases hc
  · simp only [World.setCompanion, Function.update_of_ne hm] at hc
    exact hc

/-- A step of one thread that changes only where the thread is. -/
theorem Inv.moved (h : Inv w) (hself : ThreadOk (w.setThread tid th) tid th) : Inv (w.setThread tid th) :=
  h.threadOnly rfl rfl ⟨rfl, rfl⟩ rfl rfl hself (fun _ _ => keepsLocks_refl rfl rfl) fun _ _ hc => hc

/-- A thread that has its companion, or none, gives the mutex back with its answer. -/
theorem Inv.finished {child : Option Nat} (h : Inv w) (hm : w.holder th.module = some tid)
    (hquiet : th.Quiet) (hindexed : w.Indexed th) (hchild : ∀ c, child = some c →
      w.companion th.module = some c) : Inv ((w.setHolder th.module none).finish tid th child) := by
  have hlocks : ∀ other ≠ tid, KeepsLocks w ((w.setHolder th.module none).finish tid th child) other := by
    intro other hother
    refine keepsLocks_of_ne (holder_ne hm hother) (fun m' hm' => ?_) fun m' _ => ?_
    · cases child with
      | none => exact Function.update_of_ne hm' ..
      | some c => exact Function.update_of_ne hm' ..
    · cases child with
      | none => rfl
      | some c => rfl
  cases child with
  | none =>
      refine h.threadOnly rfl rfl ⟨rfl, rfl⟩ rfl rfl (.inl ⟨?_, hquiet.2⟩) hlocks fun _ _ hc => hc
      simp only [hquiet.1, List.nil_append]
  | some c =>
      obtain ⟨hbelongs, hanswer⟩ := h.companion _ c (hchild c rfl)
      refine h.threadOnly rfl rfl ⟨rfl, rfl⟩ rfl rfl ?_ hlocks fun _ _ hc => hc
      refine .inr ⟨hquiet.1, c, ?_, hindexed, hbelongs, hanswer⟩
      simp only [hquiet.2, List.nil_append]

/-- A thread takes the free mutex of its module. -/
theorem Inv.locked (h : Inv w) (hfree : w.holder m = none)
    (hself : ThreadOk ((w.setHolder m (some tid)).setThread tid th) tid th) :
    Inv ((w.setHolder m (some tid)).setThread tid th) := by
  refine h.threadOnly rfl rfl ⟨rfl, rfl⟩ rfl rfl hself ?_ fun _ _ hc => hc
  intro other _
  refine keepsLocks_of_ne (m := m) ?_ (fun m' hm' => ?_) fun _ _ => rfl
  · rw [hfree]
    exact Option.some_ne_none other |>.symm
  · exact Function.update_of_ne hm' ..

/-- A thread drops the companion it found dead. -/
theorem Inv.dropped (h : Inv w) (hholder : w.holder m = some tid)
    (hself : ThreadOk ((w.setCompanion m none).setThread tid th) tid th) :
    Inv ((w.setCompanion m none).setThread tid th) := by
  refine h.threadOnly rfl rfl ⟨rfl, rfl⟩ rfl rfl hself ?_ fun _ _ hc => companion_of_setCompanion_none hc
  intro other hother
  refine keepsLocks_of_ne (holder_ne hholder hother) (fun _ _ => rfl) fun m' hm' => ?_
  exact Function.update_of_ne hm' ..

/-- A thread registers a companion of its module that has answered 1. -/
theorem Inv.registered (h : Inv w) (hholder : w.holder m = some tid)
    (hchild : w.Belongs child m ∧ (w.children.get child).answer = some 1)
    (hself : ThreadOk ((w.setCompanion m (some child)).setThread tid th) tid th) :
    Inv ((w.setCompanion m (some child)).setThread tid th) := by
  refine h.thread (extends_of_eq rfl rfl) rfl hself (fun other hother => ?_) (fun m' c hc => ?_) h.pending
    h.current
  · refine keepsLocks_of_ne (holder_ne hholder hother) (fun _ _ => rfl) fun m' hm' => ?_
    exact Function.update_of_ne hm' ..
  · by_cases hm : m' = m
    · simp only [World.setCompanion, World.setThread, hm, Function.update_self, Option.some.injEq] at hc
      rw [← hc, hm]
      exact hchild
    · simp only [World.setCompanion, World.setThread, Function.update_of_ne hm] at hc
      exact h.companion m' c hc

theorem inv_advance (h : Inv w) (htid : tid < w.threads.next) (hstep : advance w tid failed = some w') :
    Inv w' := by
  have hth := h.threads tid htid
  rw [ThreadOk] at hth
  simp only [advance] at hstep
  cases hstage : (w.threads.get tid).stage with
  | received =>
      simp only [hstage] at hth hstep
      split_ifs at hstep with hindex
      · cases hstep
        exact h.moved ⟨hth, h.current, hindex⟩
      · cases hstep
        refine h.moved (.inl ⟨?_, hth.2⟩)
        simp only [hth.1, List.nil_append]
  | resolved =>
      simp only [hstage] at hth hstep
      split_ifs at hstep with hfree
      cases hstep
      exact h.locked hfree ⟨hth.1, hth.2, Function.update_self ..⟩
  | checking =>
      simp only [hstage] at hth hstep
      obtain ⟨hquiet, hindexed, hholder⟩ := hth
      split at hstep
      · split_ifs at hstep with halive
        · cases hstep
          exact h.moved ⟨hquiet, hindexed, hholder⟩
        · cases hstep
          exact h.dropped hholder ⟨hquiet, hindexed, hholder, Function.update_self ..⟩
      · rename_i hempty
        cases hstep
        exact h.moved ⟨hquiet, hindexed, hholder, hempty⟩
  | spawning =>
      simp only [hstage] at hth hstep
      obtain ⟨hquiet, hindexed, hholder, hempty⟩ := hth
      split_ifs at hstep with hfailed
      · cases hstep
        exact h.moved ⟨hquiet, hindexed, hholder⟩
      · cases hstep
        refine h.withChild (extends_of_alloc rfl rfl) rfl
          ⟨hquiet, hindexed, hholder, hempty, Nat.lt_succ_self _, ?_⟩ ⟨rfl, rfl⟩ (fun c hc => ?_) h.current
        · exact congrArg Child.module (Heap.get_alloc_self _ _)
        · -- the new child is the last one of the pending ones
          rcases Nat.lt_succ_iff_lt_or_eq.mp hc with hold | hnew
          · exact (h.pending c hold).imp_left (List.mem_append_left _)
          · exact .inl (List.mem_append_right _ (List.mem_singleton.mpr hnew))
  | handing child =>
      simp only [hstage] at hth hstep
      obtain ⟨hquiet, hindexed, hholder, hempty, hbelongs⟩ := hth
      split_ifs at hstep with hhanded
      · cases hstep
        have hext : Extends w { w with children := w.children.modify child ({ · with handed := true }) } :=
          extends_of_modify (f := ({ · with handed := true })) rfl rfl rfl fun _ => id
        exact h.withChild (extends_of_modify (f := ({ · with handed := true })) rfl rfl rfl fun _ => id) rfl
          ⟨hquiet, hindexed, hholder, hempty, hext.belongs hbelongs⟩ ⟨rfl, rfl⟩ h.pending h.current
      · cases hstep
        exact h.moved ⟨hquiet, hindexed, hholder⟩
  | awaiting child =>
      simp only [hstage] at hth hstep
      obtain ⟨hquiet, hindexed, hholder, hempty, hbelongs⟩ := hth
      split at hstep
      · rename_i byte hanswer
        cases hstep
        split_ifs with hone
        · exact h.registered hholder ⟨hbelongs, hone ▸ hanswer⟩ ⟨hquiet, hindexed, hholder⟩
        · exact h.moved ⟨hquiet, hindexed, hholder⟩
      · split_ifs at hstep
        cases hstep
        exact h.moved ⟨hquiet, hindexed, hholder⟩
  | sending =>
      simp only [hstage] at hth hstep
      obtain ⟨hquiet, hindexed, hholder⟩ := hth
      split at hstep
      · rename_i child hchild
        split_ifs at hstep with hsent
        · cases hstep
          exact h.finished hholder hquiet hindexed fun c hc => by rw [← hc]; exact hchild
        · cases hstep
          exact h.finished hholder hquiet hindexed nofun
      · cases hstep
        exact h.finished hholder hquiet hindexed nofun
  | done =>
      simp only [hstage] at hstep
      cases hstep

/-- The reaper lets go of the children it has waited for. -/
theorem mem_reap {error : Nat → Bool} (h : child ∈ w.pending ∨ child ∈ w.waited) :
    child ∈ (w.reap error).pending ∨ child ∈ (w.reap error).waited := by
  simp only [World.reap, List.mem_filter, List.mem_append, Bool.and_eq_true, Bool.or_eq_true,
    Bool.not_eq_true']
  rcases h with hpending | hwaited
  · cases herror : error child with
    | true => exact .inr (.inr ⟨hpending, .inl rfl⟩)
    | false =>
        cases halive : (w.children.get child).alive with
        | true => exact .inl ⟨hpending, rfl, rfl⟩
        | false => exact .inr (.inr ⟨hpending, .inr rfl⟩)
  · exact .inr (.inl hwaited)

theorem inv_step {a : Act} (h : Inv w) (hstep : step w a = some w') : Inv w' := by
  cases a with
  | request index =>
      cases hstep
      refine ⟨fun tid htid => ?_, h.companion, h.pending, h.current⟩
      rcases Nat.lt_succ_iff_lt_or_eq.mp htid with hold | rfl
      · simp only [Heap.get_alloc_of_lt _ _ hold]
        exact (h.threads tid hold).frame (extends_of_eq rfl rfl) (keepsLocks_refl rfl rfl)
      · simp only [Heap.get_alloc_self]
        exact ⟨rfl, rfl⟩
  | advance tid failed =>
      simp only [step, Option.ite_none_right_eq_some] at hstep
      exact inv_advance h hstep.1 hstep.2
  | answer child byte =>
      simp only [step, Option.ite_none_right_eq_some, Option.some.injEq] at hstep
      obtain ⟨⟨-, -, -, hnone⟩, rfl⟩ := hstep
      refine h.environment (extends_of_modify (f := ({ · with answer := some byte })) rfl rfl rfl fun b hb => ?_) rfl
        (fun _ => keepsLocks_refl rfl rfl) (fun _ _ => id) h.pending h.current
      rw [hnone] at hb
      cases hb
  | exit child =>
      simp only [step, Option.ite_none_right_eq_some, Option.some.injEq] at hstep
      obtain ⟨-, rfl⟩ := hstep
      exact h.environment (extends_of_modify (f := ({ · with alive := false })) rfl rfl rfl fun _ => id) rfl
        (fun _ => keepsLocks_refl rfl rfl) (fun _ _ => id) h.pending h.current
  | zygoteRestart =>
      simp only [step, Option.ite_none_right_eq_some, Option.some.injEq] at hstep
      obtain ⟨-, rfl⟩ := hstep
      exact h.bookkeeping rfl rfl rfl ⟨rfl, rfl⟩ rfl fun _ => id
  | refreshModules ignoreDisable =>
      simp only [step, Option.ite_none_right_eq_some, Option.some.injEq] at hstep
      obtain ⟨-, rfl⟩ := hstep
      exact h.bookkeeping rfl rfl rfl ⟨rfl, rfl⟩ rfl fun _ => id
  | drop =>
      simp only [step] at hstep
      split at hstep
      · rename_i m rest hmain
        split_ifs at hstep with hfree
        cases hstep
        refine h.environment (extends_of_eq rfl rfl) rfl (fun tid => ?_)
          (fun _ _ hc => companion_of_setCompanion_none hc) h.pending h.current
        refine keepsLocks_of_ne (m := m) ?_ (fun _ _ => rfl) fun m' hm' => ?_
        · rw [hfree]
          exact Option.some_ne_none tid |>.symm
        · exact Function.update_of_ne hm' ..
      · cases hstep
        exact h.bookkeeping rfl rfl rfl ⟨rfl, rfl⟩ rfl fun _ => id
      · cases hstep
  | rescan scan =>
      simp only [step, Option.ite_none_right_eq_some] at hstep
      obtain ⟨-, hstep⟩ := hstep
      split at hstep
      · rename_i modules _
        cases hstep
        -- the modules of the new snapshot are nobody's yet
        refine h.environment (extends_publish modules) rfl (fun tid m hm hholder => ?_) (fun m c hc => ?_)
          h.pending (Nat.lt_succ_self _)
        · have hne : m.1 ≠ w.snapshots.next := Nat.ne_of_lt hm
          simp only [World.publish, if_neg hne]
          exact ⟨hholder, id⟩
        · simp only [World.publish] at hc
          split_ifs at hc
          exact hc
      · cases hstep
        exact h.bookkeeping rfl rfl rfl ⟨rfl, rfl⟩ rfl fun _ => id
  | reap error =>
      simp only [step, Option.ite_none_right_eq_some, Option.some.injEq] at hstep
      obtain ⟨-, rfl⟩ := hstep
      exact h.bookkeeping rfl rfl rfl ⟨rfl, rfl⟩ rfl fun _ => mem_reap
  | readModules error =>
      cases hstep
      exact h.bookkeeping rfl rfl rfl ⟨rfl, rfl⟩ rfl fun _ => mem_reap
  | retire m =>
      simp only [step, Option.ite_none_right_eq_some, Option.some.injEq] at hstep
      obtain ⟨-, rfl⟩ := hstep
      refine h.environment (extends_of_eq rfl rfl) rfl (fun tid m' _ hholder => ⟨hholder, fun hempty => ?_⟩)
        (fun _ _ hc => companion_of_setCompanion_none hc) h.pending h.current
      by_cases hm : m' = m
      · rw [hm]
        exact Function.update_self ..
      · exact (Function.update_of_ne hm ..).trans hempty

theorem inv_start (modules : List String) : Inv (start modules) := by
  refine ⟨fun tid htid => ?_, fun m c hc => ?_, fun c hc => ?_, Nat.lt_succ_self 0⟩
  · exact absurd htid (Nat.not_lt_zero tid)
  · cases hc
  · exact absurd hc (Nat.not_lt_zero c)

end Step

end NeoZygisk.Daemon.Requests
