import NeoZygisk.Lib.Heap
import NeoZygisk.Lib.Transition

/-!
# Module indices and the daemon's snapshots

A process names a module by its position in the list it read. The daemon resolves the position in the
snapshot it serves at that moment, which a rescan replaces as a whole; only a position beyond the end
is refused. Requests are handled in threads of their own: a thread receives a position, takes a
reference to the current snapshot, and then works on that snapshot (starting a companion if there is
none) while others may publish a new one.

`index_names_own_module`: in every run in which each published list agrees, position by position as far as
both go, with the lists of the processes that are running or wait for the daemon, a request is answered with
the module of that name or refused. `removed_module_shifts_index` is a run with one refresh in which a
process gets the directory of another module.
-/

set_option autoImplicit false

namespace NeoZygisk.Daemon

open NeoZygisk.Lib
open NeoZygisk.Lib.Transition

abbrev Pid := Nat

/-! ## Scanning the module directory -/

/-- An entry of the module directory: whether it has a library for this architecture, a `disable`
flag, and whether the library can be copied into a memfd. -/
structure DirEntry where
  name : String
  soPath : Bool
  disable : Bool
  libFd : Bool
  deriving DecidableEq, Repr

/-- What `load_modules` meets: an unsupported architecture, no directory, an unreadable one, or its
entries in directory order. -/
inductive Scan where
  | unsupportedArch
  | notFound
  | unreadable
  | entries (dir : List DirEntry)
  deriving DecidableEq, Repr

/-- The names of the modules a scan loads, or `none` where it fails. -/
def loadModules (ignoreDisable : Bool) : Scan → Option (List String)
  | .unsupportedArch => none
  | .notFound => some []
  | .unreadable => none
  | .entries dir =>
      some ((dir.filter fun e => e.soPath && (ignoreDisable || !e.disable) && e.libFd).map (·.name))

/-! ## The daemon and its clients -/

/-- A module of a snapshot; `companion` is the process behind its socket. -/
structure Module where
  name : String
  companion : Option Nat
  deriving DecidableEq, Repr

inductive RequestKind where
  | companionSocket
  | moduleDir
  deriving DecidableEq, Repr

/-- What a request ends in. -/
inductive Answer where
  | refused
  | companion (id : Nat)
  | dir (name : String)
  deriving DecidableEq, Repr

/-- Where the thread of a request is: before it takes a snapshot, holding one, or done. -/
inductive Stage where
  | received
  | resolved (snapshot : Nat)
  | answered (answer : Answer)
  deriving DecidableEq, Repr

structure Thread where
  client : Pid
  kind : RequestKind
  index : Nat
  stage : Stage
  deriving DecidableEq, Repr

structure World where
  /-- Every snapshot ever published; threads may hold retired ones. -/
  snapshots : Heap (List Module)
  current : Nat
  ignoreDisable : Bool
  /-- Companion processes, by the module name they were started with. -/
  companions : Heap String
  /-- The list each process has read. -/
  clients : Pid → Option (List String)
  /-- The processes that are gone. The threads of their requests go on. -/
  exited : Pid → Bool
  threads : Nat → Option Thread
  nextThread : Nat

def names (modules : List Module) : List String := modules.map (·.name)

/-- `module_at`. -/
def moduleAt (modules : List Module) (index : Nat) : Option Module := modules[index]?

/-- A snapshot as it is published: no companion is running yet. -/
def freshSnapshot (moduleNames : List String) : List Module :=
  moduleNames.map fun name => ⟨name, none⟩

/-- How starting a companion ends. -/
inductive Spawn where
  | ready
  | noEntryPoint
  | failed
  deriving DecidableEq, Repr

inductive Act where
  | readModules (pid : Pid)
  | request (pid : Pid) (kind : RequestKind) (index : Nat)
  | resolve (tid : Nat)
  | companionSocket (tid : Nat) (alive : Bool) (spawn : Spawn) (sent : Bool)
  | moduleDir (tid : Nat) (opened : Bool)
  | exit (pid : Pid)
  /-- The first half of `ZygoteRestart`: the companions of the current snapshot are dropped. -/
  | zygoteRestart
  /-- The first half of `RefreshModules`: the flag it carries is stored. -/
  | refreshModules (ignoreDisable : Bool)
  /-- The second half of both. -/
  | rescanModules (scan : Scan)
  deriving DecidableEq, Repr

def setThread (w : World) (tid : Nat) (th : Thread) : World :=
  { w with threads := Function.update w.threads tid (some th) }

def addThread (w : World) (th : Thread) : World :=
  { w with
    threads := Function.update w.threads w.nextThread (some th)
    nextThread := w.nextThread + 1 }

/-- `handle_read_modules`: one snapshot for the whole reply. -/
def readList (w : World) (pid : Pid) : World :=
  { w with clients := Function.update w.clients pid (some (names (w.snapshots.get w.current))) }

def dropCompanions (w : World) : World :=
  { w with
    snapshots := w.snapshots.modify w.current (·.map fun m => { m with companion := none }) }

/-- The swap at the end of `rescan_modules`. -/
def publish (w : World) (moduleNames : List String) : World :=
  { w with
    snapshots := w.snapshots.alloc (freshSnapshot moduleNames)
    current := w.snapshots.next }

/-- The companion of a module once a request has looked at it: a dead one is dropped, a missing one
is started. -/
def ensureCompanion (companions : Heap String) (m : Module) (alive : Bool) (spawn : Spawn) :
    Heap String × Option Nat :=
  match m.companion.filter fun _ => alive with
  | some c => (companions, some c)
  | none =>
      match spawn with
      | .ready => (companions.alloc m.name, some companions.next)
      | .noEntryPoint => (companions, none)
      | .failed => (companions, none)

/-- `handle_request_companion_socket` on the module it has resolved. -/
def answerCompanion (w : World) (tid : Nat) (th : Thread) (snapshot : Nat) (m : Module)
    (alive : Bool) (spawn : Spawn) (sent : Bool) : World :=
  let r := ensureCompanion w.companions m alive spawn
  let answer :=
    match r.2 with
    | some c => if sent then .companion c else .refused
    | none => .refused
  setThread
    { w with
      companions := r.1
      snapshots := w.snapshots.modify snapshot (·.set th.index { m with companion := r.2 }) }
    tid { th with stage := .answered answer }

def step (w : World) : Act → Option World
  | .readModules pid =>
      match w.clients pid with
      | some _ => none
      | none => some (readList w pid)
  | .request pid kind index =>
      match w.clients pid with
      | some held =>
          -- `run_modules_pre` hands out positions of the list it read.
          if w.exited pid = false ∧ index < held.length then
            some (addThread w ⟨pid, kind, index, .received⟩)
          else none
      | none => none
  | .resolve tid =>
      match w.threads tid with
      | some th =>
          match th.stage with
          | .received =>
              match moduleAt (w.snapshots.get w.current) th.index with
              | some _ => some (setThread w tid { th with stage := .resolved w.current })
              | none => some (setThread w tid { th with stage := .answered .refused })
          | _ => none
      | none => none
  | .companionSocket tid alive spawn sent =>
      match w.threads tid with
      | some th =>
          match th.kind, th.stage with
          | .companionSocket, .resolved snapshot =>
              (moduleAt (w.snapshots.get snapshot) th.index).map fun m =>
                answerCompanion w tid th snapshot m alive spawn sent
          | _, _ => none
      | none => none
  | .moduleDir tid opened =>
      match w.threads tid with
      | some th =>
          match th.kind, th.stage with
          | .moduleDir, .resolved snapshot =>
              (moduleAt (w.snapshots.get snapshot) th.index).map fun m =>
                setThread w tid
                  { th with stage := .answered (if opened then .dir m.name else .refused) }
          | _, _ => none
      | none => none
  | .exit pid =>
      match w.clients pid with
      | some _ => some { w with exited := Function.update w.exited pid true }
      | none => none
  | .zygoteRestart => some (dropCompanions w)
  | .refreshModules ignoreDisable => some { w with ignoreDisable := ignoreDisable }
  | .rescanModules scan =>
      match loadModules w.ignoreDisable scan with
      | some moduleNames => some (publish w moduleNames)
      | none => some w

/-- The daemon as it starts: a scan that fails counts as an empty one. -/
def World.initial (scan : Scan) : World where
  snapshots := ⟨fun _ => freshSnapshot ((loadModules false scan).getD []), 1⟩
  current := 0
  ignoreDisable := false
  companions := ⟨fun _ => "", 0⟩
  clients := fun _ => none
  exited := fun _ => false
  threads := fun _ => none
  nextThread := 0

/-- The module an answer leads to. -/
def Answer.moduleName (w : World) : Answer → Option String
  | .refused => none
  | .companion c => some (w.companions.get c)
  | .dir name => some name

/-! ## What a step can do -/

/-- The steps, one constructor for each outcome. -/
inductive Stepped (w : World) : Act → World → Prop where
  | readModules {pid : Pid} (h : w.clients pid = none) :
      Stepped w (.readModules pid) (readList w pid)
  | request {pid : Pid} {kind : RequestKind} {index : Nat} {held : List String}
      (hheld : w.clients pid = some held) (hrunning : w.exited pid = false)
      (hlt : index < held.length) :
      Stepped w (.request pid kind index) (addThread w ⟨pid, kind, index, .received⟩)
  | resolved {tid : Nat} {th : Thread} {m : Module} (ht : w.threads tid = some th)
      (hs : th.stage = .received) (hm : moduleAt (w.snapshots.get w.current) th.index = some m) :
      Stepped w (.resolve tid) (setThread w tid { th with stage := .resolved w.current })
  | outOfRange {tid : Nat} {th : Thread} (ht : w.threads tid = some th) :
      Stepped w (.resolve tid) (setThread w tid { th with stage := .answered .refused })
  | companionSocket {tid : Nat} {alive : Bool} {spawn : Spawn} {sent : Bool} {th : Thread}
      {snapshot : Nat} {m : Module} (ht : w.threads tid = some th)
      (hs : th.stage = .resolved snapshot)
      (hm : moduleAt (w.snapshots.get snapshot) th.index = some m) :
      Stepped w (.companionSocket tid alive spawn sent)
        (answerCompanion w tid th snapshot m alive spawn sent)
  | moduleDir {tid : Nat} {opened : Bool} {th : Thread} {snapshot : Nat} {m : Module}
      (ht : w.threads tid = some th) (hs : th.stage = .resolved snapshot)
      (hm : moduleAt (w.snapshots.get snapshot) th.index = some m) :
      Stepped w (.moduleDir tid opened)
        (setThread w tid { th with stage := .answered (if opened then .dir m.name else .refused) })
  | exit {pid : Pid} :
      Stepped w (.exit pid) { w with exited := Function.update w.exited pid true }
  | zygoteRestart : Stepped w .zygoteRestart (dropCompanions w)
  | refreshModules (ignoreDisable : Bool) :
      Stepped w (.refreshModules ignoreDisable) { w with ignoreDisable := ignoreDisable }
  | rescanned {scan : Scan} {moduleNames : List String}
      (h : loadModules w.ignoreDisable scan = some moduleNames) :
      Stepped w (.rescanModules scan) (publish w moduleNames)
  | rescanFailed {scan : Scan} : Stepped w (.rescanModules scan) w

theorem stepped {w w' : World} {act : Act} (h : step w act = some w') : Stepped w act w' := by
  cases act with
  | readModules pid =>
      simp only [step] at h
      split at h
      · cases h
      · rename_i hnone
        obtain rfl := Option.some.inj h
        exact .readModules hnone
  | request pid kind index =>
      simp only [step] at h
      split at h
      · rename_i held hheld
        split at h
        · rename_i hguard
          obtain rfl := Option.some.inj h
          exact .request hheld hguard.1 hguard.2
        · cases h
      · cases h
  | resolve tid =>
      simp only [step] at h
      split at h
      · rename_i th ht
        split at h
        · rename_i hs
          split at h
          · rename_i m hm
            obtain rfl := Option.some.inj h
            exact .resolved ht hs hm
          · obtain rfl := Option.some.inj h
            exact .outOfRange ht
        · cases h
      · cases h
  | companionSocket tid alive spawn sent =>
      simp only [step] at h
      split at h
      · rename_i th ht
        split at h
        · rename_i snapshot _ hs
          obtain ⟨m, hm, rfl⟩ := Option.map_eq_some_iff.mp h
          exact .companionSocket ht hs hm
        · cases h
      · cases h
  | moduleDir tid opened =>
      simp only [step] at h
      split at h
      · rename_i th ht
        split at h
        · rename_i snapshot _ hs
          obtain ⟨m, hm, rfl⟩ := Option.map_eq_some_iff.mp h
          exact .moduleDir ht hs hm
        · cases h
      · cases h
  | exit pid =>
      simp only [step] at h
      split at h
      · obtain rfl := Option.some.inj h
        exact .exit
      · cases h
  | zygoteRestart =>
      obtain rfl := Option.some.inj h
      exact .zygoteRestart
  | refreshModules ignoreDisable =>
      obtain rfl := Option.some.inj h
      exact .refreshModules ignoreDisable
  | rescanModules scan =>
      simp only [step] at h
      split at h
      · rename_i moduleNames hload
        obtain rfl := Option.some.inj h
        exact .rescanned hload
      · obtain rfl := Option.some.inj h
        exact .rescanFailed

/-! ## The invariant -/

/-- A served list agrees with a held one as far as both go. -/
def Agrees (held served : List String) : Prop :=
  ∀ (i : Nat) (name : String), i < held.length → served[i]? = some name → held[i]? = some name

/-- A position of the process may yet be resolved: it is running, or a request of it is waiting. -/
def Active (w : World) (pid : Pid) : Prop :=
  w.exited pid = false ∨
    ∃ tid th, w.threads tid = some th ∧ th.client = pid ∧ th.stage = .received

/-- What a thread may rely on at its stage: a resolved snapshot has the client's module at the
requested position, and an answer leads there. -/
def StageOk (w : World) (held : List String) (index : Nat) : Stage → Prop
  | .received => True
  | .resolved k =>
      k < w.snapshots.next ∧
        ∃ name, (names (w.snapshots.get k))[index]? = some name ∧ held[index]? = some name
  | .answered answer =>
      (∀ c, answer = .companion c → c < w.companions.next) ∧
        (answer = .refused ∨ answer.moduleName w = held[index]?)

structure ThreadOk (w : World) (th : Thread) (held : List String) : Prop where
  client : w.clients th.client = some held
  index_lt : th.index < held.length
  stage : StageOk w held th.index th.stage

structure Inv (w : World) : Prop where
  current_lt : w.current < w.snapshots.next
  agrees : ∀ pid held, w.clients pid = some held → Active w pid →
    Agrees held (names (w.snapshots.get w.current))
  /-- The companion of a module was started under that module's name. -/
  named : ∀ k, k < w.snapshots.next → ∀ m ∈ w.snapshots.get k, ∀ c, m.companion = some c →
    c < w.companions.next ∧ w.companions.get c = m.name
  threads : ∀ tid th, w.threads tid = some th → ∃ held, ThreadOk w th held

/-- What later states keep of an earlier one: names and companions that exist stay. -/
structure Extends (w w' : World) : Prop where
  clients : ∀ pid held, w.clients pid = some held → w'.clients pid = some held
  snapshots_le : w.snapshots.next ≤ w'.snapshots.next
  names_eq : ∀ k, k < w.snapshots.next → names (w'.snapshots.get k) = names (w.snapshots.get k)
  companions_le : w.companions.next ≤ w'.companions.next
  companions_eq : ∀ c, c < w.companions.next → w'.companions.get c = w.companions.get c

/-- Steps that start no request for a process that is gone. -/
theorem Active.of_step {w w' : World} {pid : Pid} (h : Active w' pid)
    (hexited : w'.exited pid = false → w.exited pid = false)
    (hthreads : ∀ tid th, w'.threads tid = some th → th.stage = .received →
      w.threads tid = some th ∨ w.exited th.client = false) : Active w pid := by
  rcases h with hrunning | ⟨tid, th, ht, rfl, hs⟩
  · exact .inl (hexited hrunning)
  · rcases hthreads tid th ht hs with ht | hrunning
    · exact .inr ⟨tid, th, ht, rfl, hs⟩
    · exact .inl hrunning

theorem ThreadOk.extends {w w' : World} (h : Extends w w') {th : Thread} {held : List String}
    (hth : ThreadOk w th held) : ThreadOk w' th held where
  client := h.clients _ _ hth.client
  index_lt := hth.index_lt
  stage := by
    have hstage := hth.stage
    cases hs : th.stage with
    | received => trivial
    | resolved k =>
        rw [hs] at hstage
        obtain ⟨hk, name, hname, hheld⟩ := hstage
        exact ⟨Nat.lt_of_lt_of_le hk h.snapshots_le, name, by rw [h.names_eq k hk]; exact hname,
          hheld⟩
    | answered answer =>
        rw [hs] at hstage
        obtain ⟨hc, hans⟩ := hstage
        refine ⟨fun c hac => Nat.lt_of_lt_of_le (hc c hac) h.companions_le, ?_⟩
        rcases hans with rfl | hans
        · exact .inl rfl
        · right
          rw [← hans]
          cases answer with
          | refused => rfl
          | companion c => exact congrArg some (h.companions_eq c (hc c rfl))
          | dir name => rfl

/-- Threads other than the one a step works on are carried over. -/
theorem Inv.threads_extends {w w' : World} (hw : Inv w) (h : Extends w w')
    (hth : ∀ tid th, w'.threads tid = some th → w.threads tid = some th ∨
      ∃ held, ThreadOk w' th held) :
    ∀ tid th, w'.threads tid = some th → ∃ held, ThreadOk w' th held := by
  intro tid th ht
  rcases hth tid th ht with ht | hok
  · obtain ⟨held, hok⟩ := hw.threads tid th ht
    exact ⟨held, hok.extends h⟩
  · exact hok

/-- A thread of an updated table is the new one or an old one. -/
theorem threads_update {threads : Nat → Option Thread} {tid tid' : Nat} {th th' : Thread}
    (h : Function.update threads tid (some th) tid' = some th') :
    th' = th ∨ threads tid' = some th' := by
  by_cases htid : tid' = tid
  · subst htid
    rw [Function.update_self] at h
    exact .inl (Option.some.inj h).symm
  · rw [Function.update_of_ne htid] at h
    exact .inr h

theorem inv_initial (scan : Scan) : Inv (.initial scan) where
  current_lt := Nat.one_pos
  agrees := by
    intro pid held h
    cases h
  named := by
    intro k _ m hm c hc
    obtain ⟨name, -, rfl⟩ := List.mem_map.mp hm
    cases hc
  threads := by
    intro tid th h
    cases h

theorem extends_setThread (w : World) (tid : Nat) (th : Thread) : Extends w (setThread w tid th) :=
  ⟨fun _ _ h => h, Nat.le_refl _, fun _ _ => rfl, Nat.le_refl _, fun _ _ => rfl⟩

theorem names_freshSnapshot (moduleNames : List String) :
    names (freshSnapshot moduleNames) = moduleNames := by
  rw [names, freshSnapshot, List.map_map]
  exact List.map_id _

theorem getElem?_names {modules : List Module} {index : Nat} {m : Module}
    (h : moduleAt modules index = some m) : (names modules)[index]? = some m.name := by
  rw [names, List.getElem?_map]
  exact congrArg (Option.map _) h

/-- Giving a module another companion does not rename anything. -/
theorem names_set {modules : List Module} {index : Nat} {m : Module} (companion : Option Nat)
    (h : moduleAt modules index = some m) :
    names (modules.set index { m with companion := companion }) = names modules := by
  apply List.ext_getElem?
  intro i
  simp only [names]
  rw [List.getElem?_map, List.getElem?_map, List.getElem?_set]
  split
  · rename_i hi
    subst hi
    have hget : modules[index]? = some m := h
    rw [hget]
    split
    · rfl
    · rename_i hlt
      rw [List.getElem?_eq_none (Nat.not_lt.mp hlt)] at hget
      cases hget
  · rfl

/-- A thread that has gone on keeps no process waiting. -/
theorem Active.of_update {w w' : World} {pid : Pid} (h : Active w' pid) (tid : Nat) {th : Thread}
    (hexited : w'.exited = w.exited) (hthreads : w'.threads = Function.update w.threads tid (some th))
    (hstage : th.stage ≠ .received) : Active w pid := by
  refine h.of_step (fun hrunning => hexited ▸ hrunning) ?_
  intro tid' th' ht hs
  rcases threads_update (hthreads ▸ ht) with rfl | ht
  · exact absurd hs hstage
  · exact .inl ht

/-- Steps that change nothing but one thread. -/
theorem inv_setThread {w : World} (hw : Inv w) (tid : Nat) {th : Thread} (held : List String)
    (hstage : th.stage ≠ .received) (hth : ThreadOk w th held) : Inv (setThread w tid th) where
  current_lt := hw.current_lt
  agrees := fun pid held hheld hactive =>
    hw.agrees pid held hheld (hactive.of_update tid rfl rfl hstage)
  named := hw.named
  threads := by
    refine hw.threads_extends (extends_setThread w tid th) ?_
    intro tid' th' h
    rcases threads_update h with rfl | h
    · exact .inr ⟨held, hth.extends (extends_setThread w tid th')⟩
    · exact .inl h

/-- The companion a request ends up with was started for its module. -/
theorem ensureCompanion_spec {companions : Heap String} {m : Module} (alive : Bool) (spawn : Spawn)
    (hm : ∀ c, m.companion = some c → c < companions.next ∧ companions.get c = m.name) :
    companions.next ≤ (ensureCompanion companions m alive spawn).1.next ∧
      (∀ c, c < companions.next →
        (ensureCompanion companions m alive spawn).1.get c = companions.get c) ∧
      ∀ c, (ensureCompanion companions m alive spawn).2 = some c →
        c < (ensureCompanion companions m alive spawn).1.next ∧
          (ensureCompanion companions m alive spawn).1.get c = m.name := by
  simp only [ensureCompanion]
  split
  · -- a companion that is still alive is used again
    rename_i c hc
    refine ⟨Nat.le_refl _, fun _ _ => rfl, ?_⟩
    rintro c' ⟨⟩
    exact hm c (Option.filter_eq_some_iff.mp hc).1
  · cases spawn with
    | ready =>
        refine ⟨Nat.le_succ _, fun c hc => Heap.get_alloc_of_lt _ _ hc, ?_⟩
        rintro c' ⟨⟩
        exact ⟨Nat.lt_succ_self _, Heap.get_alloc_self _ _⟩
    | noEntryPoint =>
        refine ⟨Nat.le_refl _, fun _ _ => rfl, ?_⟩
        intro c hc
        cases hc
    | failed =>
        refine ⟨Nat.le_refl _, fun _ _ => rfl, ?_⟩
        intro c hc
        cases hc

theorem answerCompanion_snapshots (w : World) (tid : Nat) (th : Thread) (snapshot : Nat)
    (m : Module) (alive : Bool) (spawn : Spawn) (sent : Bool) :
    (answerCompanion w tid th snapshot m alive spawn sent).snapshots =
      w.snapshots.modify snapshot (·.set th.index
        { m with companion := (ensureCompanion w.companions m alive spawn).2 }) :=
  rfl

theorem extends_answerCompanion {w : World} (tid : Nat) {th : Thread} {snapshot : Nat} {m : Module}
    (hm : moduleAt (w.snapshots.get snapshot) th.index = some m) (alive : Bool) (spawn : Spawn)
    (sent : Bool) (hnamed : ∀ c, m.companion = some c →
      c < w.companions.next ∧ w.companions.get c = m.name) :
    Extends w (answerCompanion w tid th snapshot m alive spawn sent) := by
  obtain ⟨hle, hold, -⟩ := ensureCompanion_spec alive spawn hnamed
  refine ⟨fun _ _ h => h, Nat.le_refl _, ?_, hle, hold⟩
  intro k hk
  rw [answerCompanion_snapshots]
  by_cases hks : k = snapshot
  · subst hks
    rw [Heap.get_modify_self]
    exact names_set _ hm
  · rw [Heap.get_modify_of_ne _ _ hks]

theorem inv_answerCompanion {w : World} (hw : Inv w) {tid : Nat} {th : Thread} {snapshot : Nat}
    {m : Module} (ht : w.threads tid = some th) (hs : th.stage = .resolved snapshot)
    (hm : moduleAt (w.snapshots.get snapshot) th.index = some m) (alive : Bool) (spawn : Spawn)
    (sent : Bool) : Inv (answerCompanion w tid th snapshot m alive spawn sent) := by
  obtain ⟨held, hth⟩ := hw.threads tid th ht
  obtain ⟨hk, name, hname, hheld⟩ : StageOk w held th.index (.resolved snapshot) := hs ▸ hth.stage
  have hmem : m ∈ w.snapshots.get snapshot := List.mem_of_getElem? hm
  have hext := extends_answerCompanion tid hm alive spawn sent
    (hw.named snapshot hk m hmem)
  obtain ⟨hle, hold, hnew⟩ := ensureCompanion_spec alive spawn (hw.named snapshot hk m hmem)
  have hmname : held[th.index]? = some m.name := by
    rw [hheld, ← hname]
    exact getElem?_names hm
  refine ⟨hw.current_lt, ?_, ?_, hw.threads_extends hext ?_⟩
  · intro pid held' hclient hactive
    have hnames := hext.names_eq w.current hw.current_lt
    have hold : Active w pid := hactive.of_update tid rfl rfl (by simp)
    intro i n hi hn
    exact hw.agrees pid held' hclient hold i n hi (hnames ▸ hn)
  · intro k' hk' m' hm' c hc
    by_cases hks : k' = snapshot
    · subst hks
      rw [answerCompanion_snapshots, Heap.get_modify_self] at hm'
      -- only the entry at the requested position has a new companion
      rcases List.mem_or_eq_of_mem_set hm' with hold' | rfl
      · obtain ⟨hc1, hc2⟩ := hw.named k' hk m' hold' c hc
        exact ⟨Nat.lt_of_lt_of_le hc1 hle, (hold c hc1).trans hc2⟩
      · exact hnew c hc
    · rw [answerCompanion_snapshots, Heap.get_modify_of_ne _ _ hks] at hm'
      obtain ⟨hc1, hc2⟩ := hw.named k' hk' m' hm' c hc
      exact ⟨Nat.lt_of_lt_of_le hc1 hle, (hold c hc1).trans hc2⟩
  · intro tid' th' h
    rcases threads_update h with rfl | h
    · right
      refine ⟨held, hth.client, hth.index_lt, ?_⟩
      -- the answer is the companion of the resolved module, or a refusal
      dsimp only
      split
      · rename_i c hc
        split
        · refine ⟨?_, .inr ?_⟩
          · rintro c' ⟨⟩
            exact (hnew c hc).1
          · rw [hmname]
            exact congrArg some (hnew c hc).2
        · exact ⟨by simp, .inl rfl⟩
      · exact ⟨by simp, .inl rfl⟩
    · exact .inl h

/-! ## Published lists and held positions -/

/-- Steps that keep the held positions meaningful: a published list agrees with those of the processes that
may have a position resolved. -/
def Compatible (w : World) : Act → Prop
  | .rescanModules scan =>
      ∀ moduleNames, loadModules w.ignoreDisable scan = some moduleNames →
        ∀ pid held, w.clients pid = some held → Active w pid → Agrees held moduleNames
  | _ => True

theorem inv_readList {w : World} (hw : Inv w) {pid : Pid} (hnone : w.clients pid = none) :
    Inv (readList w pid) := by
  have hcases : ∀ pid' held, (readList w pid).clients pid' = some held →
      w.clients pid' = some held ∨ held = names (w.snapshots.get w.current) := by
    intro pid' held h
    by_cases hpid : pid' = pid
    · subst hpid
      simp only [readList, Function.update_self, Option.some.injEq] at h
      exact .inr h.symm
    · simp only [readList, Function.update_of_ne hpid] at h
      exact .inl h
  have hext : Extends w (readList w pid) := by
    refine ⟨?_, Nat.le_refl _, fun _ _ => rfl, Nat.le_refl _, fun _ _ => rfl⟩
    intro pid' held hheld
    have hpid : pid' ≠ pid := by
      rintro rfl
      rw [hnone] at hheld
      cases hheld
    exact (Function.update_of_ne hpid ..).trans hheld
  refine ⟨hw.current_lt, ?_, hw.named, hw.threads_extends hext fun _ _ ht => .inl ht⟩
  intro pid' held h hactive
  rcases hcases pid' held h with h | rfl
  · exact hw.agrees pid' held h hactive
  · exact fun i name _ hname => hname

theorem inv_addThread {w : World} (hw : Inv w) {th : Thread} (held : List String)
    (hrunning : w.exited th.client = false) (hth : ThreadOk w th held) : Inv (addThread w th) := by
  have hext : Extends w (addThread w th) :=
    ⟨fun _ _ h => h, Nat.le_refl _, fun _ _ => rfl, Nat.le_refl _, fun _ _ => rfl⟩
  refine ⟨hw.current_lt, ?_, hw.named, hw.threads_extends hext ?_⟩
  · intro pid held' hheld hactive
    refine hw.agrees pid held' hheld (hactive.of_step id ?_)
    intro tid th' h _
    rcases threads_update h with rfl | h
    · exact .inr hrunning
    · exact .inl h
  · intro tid th' h
    rcases threads_update h with rfl | h
    · exact .inr ⟨held, hth.extends hext⟩
    · exact .inl h

theorem inv_exit {w : World} (hw : Inv w) (pid : Pid) :
    Inv { w with exited := Function.update w.exited pid true } := by
  have hext : Extends w { w with exited := Function.update w.exited pid true } :=
    ⟨fun _ _ h => h, Nat.le_refl _, fun _ _ => rfl, Nat.le_refl _, fun _ _ => rfl⟩
  refine ⟨hw.current_lt, ?_, hw.named, hw.threads_extends hext fun _ _ ht => .inl ht⟩
  intro pid' held hheld hactive
  refine hw.agrees pid' held hheld (hactive.of_step ?_ fun _ _ ht _ => .inl ht)
  intro hrunning
  by_cases hpid : pid' = pid
  · subst hpid
    simp at hrunning
  · simpa only [Function.update_of_ne hpid] using hrunning

theorem names_dropCompanions (w : World) (k : Nat) :
    names ((dropCompanions w).snapshots.get k) = names (w.snapshots.get k) := by
  simp only [dropCompanions]
  by_cases hk : k = w.current
  · subst hk
    rw [Heap.get_modify_self]
    rw [names, List.map_map]
    rfl
  · rw [Heap.get_modify_of_ne _ _ hk]

theorem inv_dropCompanions {w : World} (hw : Inv w) : Inv (dropCompanions w) := by
  have hext : Extends w (dropCompanions w) :=
    ⟨fun _ _ h => h, Nat.le_refl _, fun k _ => names_dropCompanions w k, Nat.le_refl _,
      fun _ _ => rfl⟩
  refine ⟨hw.current_lt, ?_, ?_, hw.threads_extends hext fun _ _ ht => .inl ht⟩
  · intro pid held hheld hactive
    have hnames : names ((dropCompanions w).snapshots.get (dropCompanions w).current) =
        names (w.snapshots.get w.current) := names_dropCompanions w w.current
    rw [hnames]
    exact hw.agrees pid held hheld hactive
  · intro k hk m hm c hc
    simp only [dropCompanions] at hm
    by_cases hkc : k = w.current
    · subst hkc
      rw [Heap.get_modify_self] at hm
      obtain ⟨m', -, rfl⟩ := List.mem_map.mp hm
      cases hc
    · rw [Heap.get_modify_of_ne _ _ hkc] at hm
      exact hw.named k hk m hm c hc

/-- A publication keeps the invariant if it agrees with the lists that are in use. -/
theorem inv_publish {w : World} (hw : Inv w) {moduleNames : List String}
    (hagrees : ∀ pid held, w.clients pid = some held → Active w pid → Agrees held moduleNames) :
    Inv (publish w moduleNames) := by
  have hext : Extends w (publish w moduleNames) := by
    refine ⟨fun _ _ h => h, Nat.le_succ _, ?_, Nat.le_refl _, fun _ _ => rfl⟩
    intro k hk
    exact congrArg names (Heap.get_alloc_of_lt _ _ hk)
  refine ⟨Nat.lt_succ_self _, ?_, ?_, hw.threads_extends hext fun _ _ ht => .inl ht⟩
  · intro pid held hheld hactive
    simp only [publish]
    rw [Heap.get_alloc_self, names_freshSnapshot]
    exact hagrees pid held hheld hactive
  · intro k hk m hm c hc
    simp only [publish] at hm
    rcases Nat.lt_succ_iff_lt_or_eq.mp hk with hlt | rfl
    · rw [Heap.get_alloc_of_lt _ _ hlt] at hm
      exact hw.named k hlt m hm c hc
    · -- a fresh snapshot has no companions
      rw [Heap.get_alloc_self] at hm
      obtain ⟨name, -, rfl⟩ := List.mem_map.mp hm
      cases hc

theorem inv_step {w w' : World} {act : Act} (hw : Inv w) (hok : Compatible w act)
    (h : step w act = some w') : Inv w' := by
  cases stepped h with
  | readModules hnone => exact inv_readList hw hnone
  | @request pid kind index held hheld hrunning hlt =>
      exact inv_addThread hw held hrunning ⟨hheld, hlt, trivial⟩
  | @resolved tid th m ht hs hm =>
      obtain ⟨held, hth⟩ := hw.threads tid th ht
      have hname := getElem?_names hm
      -- the published list agrees with the held one at this position
      have hactive : Active w th.client := .inr ⟨tid, th, ht, rfl, hs⟩
      refine inv_setThread hw tid held (by simp) ⟨hth.client, hth.index_lt, ?_⟩
      exact ⟨hw.current_lt, m.name, hname,
        hw.agrees _ held hth.client hactive th.index m.name hth.index_lt hname⟩
  | @outOfRange tid th ht =>
      obtain ⟨held, hth⟩ := hw.threads tid th ht
      exact inv_setThread hw tid held (by simp) ⟨hth.client, hth.index_lt, by simp, .inl rfl⟩
  | companionSocket ht hs hm => exact inv_answerCompanion hw ht hs hm _ _ _
  | @moduleDir tid opened th snapshot m ht hs hm =>
      obtain ⟨held, hth⟩ := hw.threads tid th ht
      obtain ⟨-, name, hname, hheld⟩ : StageOk w held th.index (.resolved snapshot) :=
        hs ▸ hth.stage
      have hmname : held[th.index]? = some m.name := by
        rw [hheld, ← hname]
        exact getElem?_names hm
      refine inv_setThread hw tid held (by simp) ⟨hth.client, hth.index_lt, ?_⟩
      cases opened with
      | true => exact ⟨by simp, .inr hmname.symm⟩
      | false => exact ⟨by simp, .inl rfl⟩
  | @exit pid => exact inv_exit hw pid
  | zygoteRestart => exact inv_dropCompanions hw
  | refreshModules ignoreDisable =>
      have hext : Extends w { w with ignoreDisable := ignoreDisable } :=
        ⟨fun _ _ h => h, Nat.le_refl _, fun _ _ => rfl, Nat.le_refl _, fun _ _ => rfl⟩
      exact ⟨hw.current_lt, hw.agrees, hw.named, hw.threads_extends hext fun _ _ ht => .inl ht⟩
  | @rescanned scan moduleNames hload => exact inv_publish hw (hok moduleNames hload)
  | rescanFailed => exact hw

/-- In every run whose published lists agree with those that are in use, a request of a process for the
position `i` of its list is refused or answered with the module that list names. -/
theorem index_names_own_module (scan : Scan) (w : World)
    (hrun : GuardedReach step Compatible (.initial scan) w) (tid : Nat) (th : Thread)
    (ht : w.threads tid = some th) (answer : Answer) (hanswer : th.stage = .answered answer) :
    answer = .refused ∨
      ∃ held, w.clients th.client = some held ∧ answer.moduleName w = held[th.index]? ∧
        th.index < held.length := by
  have hw : Inv w :=
    hrun.invariant (inv_initial scan) fun _ _ _ hinv hok hst => inv_step hinv hok hst
  obtain ⟨held, hth⟩ := hw.threads tid th ht
  have hstage := hth.stage
  rw [hanswer] at hstage
  rcases hstage.2 with href | hname
  · exact .inl href
  · exact .inr ⟨held, hth.client, hname, hth.index_lt⟩

/-- Two installed modules. -/
def twoModules : Scan := .entries [⟨"module_a", true, false, true⟩, ⟨"module_b", true, false, true⟩]

/-- The same directory once the first module is disabled. -/
def firstDisabled : Scan :=
  .entries [⟨"module_a", true, true, true⟩, ⟨"module_b", true, false, true⟩]

/-- A process reads the list, asks for the directory of its module 0 and is killed once a thread has resolved
the position. The first module is disabled, and a process that starts after the rescan asks for its own
module 0. -/
def rescanAfterExit : List Act :=
  [.readModules 1, .request 1 .moduleDir 0, .resolve 0, .exit 1, .zygoteRestart,
    .rescanModules firstDisabled, .readModules 2, .request 2 .moduleDir 0, .resolve 1,
    .moduleDir 0 true, .moduleDir 1 true]

/-- The old list and the new one disagree at position 0, and each process gets the module of its own. -/
theorem rescanAfterExit_names_own_module :
    ∃ w th th', replay step (.initial twoModules) rescanAfterExit = some w ∧
      (w.threads 0 = some th ∧ (Answer.dir "module_a" = .refused ∨
        ∃ held, w.clients th.client = some held ∧
          (Answer.dir "module_a").moduleName w = held[th.index]? ∧ th.index < held.length)) ∧
      (w.threads 1 = some th' ∧ (Answer.dir "module_b" = .refused ∨
        ∃ held, w.clients th'.client = some held ∧
          (Answer.dir "module_b").moduleName w = held[th'.index]? ∧ th'.index < held.length)) := by
  have hcompatible : ReplayOk step Compatible (.initial twoModules) rescanAfterExit := by
    refine .cons trivial rfl (.cons trivial rfl (.cons trivial rfl (.cons trivial rfl (.cons trivial rfl
      (.cons ?_ rfl (.cons trivial rfl (.cons trivial rfl (.cons trivial rfl (.cons trivial rfl
        (.cons trivial rfl trivial))))))))))
    · -- only process 1 has read a list, and it neither runs nor waits
      rintro moduleNames - pid held hheld hactive
      by_cases hpid : pid = 1
      · subst hpid
        rcases hactive with hrunning | ⟨tid, th, ht, -, hs⟩
        · cases hrunning
        · by_cases htid : tid = 0
          · subst htid
            cases ht
            cases hs
          · have hbefore := (Function.update_of_ne htid ..).symm.trans ht
            cases (Function.update_of_ne htid ..).symm.trans hbefore
      · cases (Function.update_of_ne hpid ..).symm.trans hheld
  have hrun := guardedReach_of_replay rescanAfterExit rfl hcompatible
  exact ⟨_, _, _, rfl, ⟨rfl, index_names_own_module twoModules _ hrun 0 _ rfl _ rfl⟩,
    ⟨rfl, index_names_own_module twoModules _ hrun 1 _ rfl _ rfl⟩⟩

/-- A refresh finds the first module disabled after a process has read the list and before it asks for its
module 0. -/
def shiftingRefresh : List Act :=
  [.readModules 1, .refreshModules false, .rescanModules firstDisabled, .request 1 .moduleDir 0,
    .resolve 0, .moduleDir 0 true]

/-- The process asks for module 0 of its list, `module_a`, and gets the directory of `module_b`. -/
theorem removed_module_shifts_index :
    ∃ w, Reach step (.initial twoModules) w ∧
      ∃ th, w.threads 0 = some th ∧ th.stage = .answered (.dir "module_b") ∧
        ∃ held, w.clients th.client = some held ∧ held[th.index]? = some "module_a" :=
  ⟨_, reach_of_replay shiftingRefresh rfl, _, rfl, rfl, _, rfl, rfl⟩

end NeoZygisk.Daemon
