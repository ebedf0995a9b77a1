import Mathlib.Tactic.SplitIfs
import NeoZygisk.Daemon.ModuleIndex

/-!
# Refreshing the modules

The main thread of the daemon serves `RefreshModules` and `ZygoteRestart` one after the other, while every
`ReadModules` is answered in a thread of its own. A snapshot is built before it is published and a reader
keeps the one it took, so a reply is always one whole list. `refresh_modules` stores the flag of its request
before it scans, and a scan that fails leaves the flag behind: a request that is answered 0 then decides
whether disabled modules count for the rescans of the daemon itself. `atomic_iff` says when refreshing is
atomic.

The daemon is lenient at startup where a refresh is strict: it serves an empty list if its first scan fails.
Until a scan succeeds there is no result that a reply could be of, and `served` compares it with that list.
-/

set_option autoImplicit false

namespace NeoZygisk.Daemon.Refresh

open NeoZygisk.Lib.Transition

/-! ## The daemon -/

/-- A scan that succeeded, with what it loaded. -/
structure Loaded where
  ignoreDisable : Bool
  scan : Scan
  modules : List String
  loaded : loadModules ignoreDisable scan = some modules

/-- The fields of `AppContext` that a refresh works on. -/
structure AppContext where
  modules : List String
  ignoreDisable : Bool
  deriving DecidableEq, Repr

/-- A request that rescans; a refresh comes with the context it found. -/
inductive Request where
  | zygoteRestart
  | refreshModules (before : AppContext)

inductive Main where
  | idle
  | rescanning (request : Request)
  | publishing (request : Request) (result : Loaded)

/-- What a reply is made of: the count, then a name with its descriptor for each module. -/
inductive Sent where
  | count (n : Nat)
  | entry (name : String)
  deriving DecidableEq, Repr

/-- Where `handle_read_modules` is. -/
inductive ReaderStage where
  | started
  | counting (modules : List String)
  | sending (rest : List String)
  | done
  deriving DecidableEq, Repr

/-- A thread that answers `ReadModules`; `taken` is the number of snapshots published when it took its own. -/
structure Reader where
  stage : ReaderStage
  taken : Nat
  sent : List Sent
  deriving DecidableEq, Repr

/-- A `RefreshModules` that was answered, with the context before it and after it. -/
structure Answered where
  before : AppContext
  after : AppContext
  ok : Bool
  deriving DecidableEq, Repr

structure World where
  context : AppContext
  main : Main
  readers : Nat → Option Reader
  /-- The scans whose result was published, the latest one last. -/
  published : List Loaded
  answers : List Answered

inductive Act where
  | refreshModules (ignoreDisable : Bool)
  | zygoteRestart
  | scan (scan : Scan)
  | publish
  | readModules (tid : Nat)
  | takeSnapshot (tid : Nat)
  | write (tid : Nat)
  deriving DecidableEq, Repr

namespace World

def setReader (w : World) (tid : Nat) (r : Reader) : World :=
  { w with readers := Function.update w.readers tid (some r) }

/-- The answer of the main thread, which only a refresh gets. -/
def answer (w : World) (ok : Bool) : Request → World
  | .zygoteRestart => { w with main := .idle }
  | .refreshModules before =>
      { w with main := .idle, answers := w.answers ++ [⟨before, w.context, ok⟩] }

end World

/-- The daemon as it starts: a scan that fails counts as an empty one. -/
def start (scan : Scan) : World where
  context := ⟨(loadModules false scan).getD [], false⟩
  main := .idle
  readers := fun _ => none
  published :=
    match h : loadModules false scan with
    | some modules => [⟨false, scan, modules, h⟩]
    | none => []
  answers := []

/-- `refresh_modules`, `rescan_modules` and `handle_read_modules`. The write of the answer follows a failed
scan at once, and the swap of the snapshots after a good one. -/
def step (w : World) : Act → Option World
  | .refreshModules ignoreDisable =>
      match w.main with
      | .idle =>
          -- the flag is in force before the scan, and no failure takes it back
          some { w with
            context := { w.context with ignoreDisable }
            main := .rescanning (.refreshModules w.context) }
      | _ => none
  | .zygoteRestart =>
      match w.main with
      | .idle => some { w with main := .rescanning .zygoteRestart }
      | _ => none
  | .scan scan =>
      match w.main with
      | .rescanning request =>
          match h : loadModules w.context.ignoreDisable scan with
          | some modules => some { w with main := .publishing request ⟨_, scan, modules, h⟩ }
          | none => some (w.answer false request)
      | _ => none
  | .publish =>
      match w.main with
      | .publishing request result =>
          let context := { w.context with modules := result.modules }
          some ({ w with context, published := w.published ++ [result] }.answer true request)
      | _ => none
  | .readModules tid =>
      match w.readers tid with
      | none => some (w.setReader tid ⟨.started, 0, []⟩)
      | some _ => none
  -- the reader counts and sends one `Arc`, whatever is published in between
  | .takeSnapshot tid =>
      match w.readers tid with
      | some ⟨.started, _, sent⟩ =>
          some (w.setReader tid ⟨.counting w.context.modules, w.published.length, sent⟩)
      | _ => none
  | .write tid =>
      match w.readers tid with
      | some ⟨.counting modules, taken, sent⟩ =>
          some (w.setReader tid ⟨.sending modules, taken, sent ++ [.count modules.length]⟩)
      | some ⟨.sending (name :: rest), taken, sent⟩ =>
          some (w.setReader tid ⟨.sending rest, taken, sent ++ [.entry name]⟩)
      | some ⟨.sending [], taken, sent⟩ => some (w.setReader tid ⟨.done, taken, sent⟩)
      | _ => none

/-! ## Atomic refreshes -/

/-- What the daemon serves after these scans: the result of the last one, and before the first, which only a
failed startup leaves open, the empty list. -/
def served (published : List Loaded) : List String := (published.getLast?.map Loaded.modules).getD []

/-- The whole reply for a list of modules. -/
def reply (modules : List String) : List Sent := .count modules.length :: modules.map .entry

/-- Every reply is the list that was published last when it took its snapshot (the empty list of a startup
whose scan failed, if nothing was), and a refresh that was answered 0 left the snapshot and the outcome of
all rescans as they were. -/
structure Atomic (w : World) : Prop where
  replies : ∀ tid r, w.readers tid = some r → r.stage = .done →
    r.sent = reply (served (w.published.take r.taken))
  refused : ∀ a ∈ w.answers, a.ok = false → a.after.modules = a.before.modules ∧
    ∀ scan, loadModules a.after.ignoreDisable scan = loadModules a.before.ignoreDisable scan

/-- A refresh whose scan fails carries the flag that was in force. -/
def Kept (w : World) : Act → Prop
  | .scan scan => ∀ before, w.main = .rescanning (.refreshModules before) →
      loadModules w.context.ignoreDisable scan = none → w.context.ignoreDisable = before.ignoreDisable
  | _ => True

/-- The flag can be told from the scans: a directory may have a disabled module. -/
theorem loadModules_eq_iff (flag flag' : Bool) :
    (∀ scan, loadModules flag scan = loadModules flag' scan) ↔ flag = flag' := by
  constructor
  · intro h
    have hdisabled := h (.entries [⟨"", true, true, true⟩])
    cases flag with
    | false =>
        cases flag' with
        | false => rfl
        | true => exact absurd hdisabled (by decide)
    | true =>
        cases flag' with
        | false => exact absurd hdisabled (by decide)
        | true => rfl
  · rintro rfl scan
    rfl

/-! ## The invariant -/

/-- A reader sends the list it took, and what it took was published before. -/
def Reader.Follows (published : List Loaded) (r : Reader) : Prop :=
  match r.stage with
  | .started => r.sent = []
  | .counting modules =>
      r.taken ≤ published.length ∧ modules = served (published.take r.taken) ∧ r.sent = []
  | .sending rest =>
      r.taken ≤ published.length ∧ r.sent ++ rest.map .entry = reply (served (published.take r.taken))
  | .done => r.taken ≤ published.length ∧ r.sent = reply (served (published.take r.taken))

structure Inv (w : World) : Prop where
  context : w.context.modules = served w.published
  readers : ∀ tid r, w.readers tid = some r → r.Follows w.published
  /-- Only the main thread swaps snapshots, so a refresh finds its own as long as it scans. -/
  main : ∀ before, w.main = .rescanning (.refreshModules before) →
    before.modules = w.context.modules

section Step

variable {w t : World} {a : Act} {scan : Scan} {tid : Nat} {r : Reader} {request : Request}

theorem Reader.Follows.publish {published : List Loaded} (h : r.Follows published) (result : Loaded) :
    r.Follows (published ++ [result]) := by
  obtain ⟨stage, taken, sent⟩ := r
  -- what was published when the reader took its snapshot stays where it is
  have htake : taken ≤ published.length →
      (published ++ [result]).take taken = published.take taken := List.take_append_of_le_length
  have hlength : published.length ≤ (published ++ [result]).length := by
    rw [List.length_append]
    exact Nat.le_add_right _ _
  simp only [Reader.Follows] at h ⊢
  cases stage with
  | started => exact h
  | counting modules => exact ⟨Nat.le_trans h.1 hlength, by rw [htake h.1]; exact h.2⟩
  | sending rest => exact ⟨Nat.le_trans h.1 hlength, by rw [htake h.1]; exact h.2⟩
  | done => exact ⟨Nat.le_trans h.1 hlength, by rw [htake h.1]; exact h.2⟩

theorem served_append (published : List Loaded) (result : Loaded) :
    served (published ++ [result]) = result.modules := by
  simp only [served, List.getLast?_concat, Option.map_some, Option.getD_some]

theorem inv_start (scan : Scan) : Inv (start scan) := by
  refine ⟨?_, fun tid r h => (nomatch h), fun before h => (nomatch h)⟩
  simp only [start]
  split
  · rename_i modules h
    simp only [h, served, List.getLast?_singleton, Option.map_some, Option.getD_some]
  · rename_i h
    simp only [h, served, List.getLast?_nil, Option.map_none, Option.getD_none]

theorem Inv.setReader (h : Inv w) (hr : r.Follows w.published) : Inv (w.setReader tid r) := by
  refine ⟨h.context, fun i r' hi => ?_, h.main⟩
  by_cases hself : i = tid
  · subst hself
    simp only [World.setReader, Function.update_self, Option.some.injEq] at hi
    subst hi
    exact hr
  · simp only [World.setReader, Function.update_of_ne hself] at hi
    exact h.readers i r' hi

/-- The main thread is idle after its answer, and nothing else of the context has changed. -/
theorem Inv.answer {ok : Bool} (hcontext : w.context.modules = served w.published)
    (hreaders : ∀ tid r, w.readers tid = some r → r.Follows w.published) : Inv (w.answer ok request) := by
  cases request with
  | zygoteRestart => exact ⟨hcontext, hreaders, fun before h => (nomatch h)⟩
  | refreshModules before => exact ⟨hcontext, hreaders, fun before h => (nomatch h)⟩

/-- A reader takes the list that is served, and sends it from its count to its last entry. -/
theorem Inv.reader (h : Inv w) (hact : a = .readModules tid ∨ a = .takeSnapshot tid ∨ a = .write tid)
    (hstep : step w a = some t) : ∃ r, t = w.setReader tid r ∧ r.Follows w.published := by
  rcases hact with rfl | rfl | rfl
  · simp only [step] at hstep
    split at hstep
    · cases hstep
      exact ⟨_, rfl, rfl⟩
    · cases hstep
  · simp only [step] at hstep
    split at hstep
    · rename_i taken sent hreader
      cases hstep
      refine ⟨_, rfl, Nat.le_refl _, ?_, h.readers tid _ hreader⟩
      simp only [List.take_length]
      exact h.context
    · cases hstep
  · simp only [step] at hstep
    split at hstep
    · rename_i modules taken sent hreader
      cases hstep
      obtain ⟨hle, hmodules, hsent⟩ := h.readers tid _ hreader
      refine ⟨_, rfl, hle, ?_⟩
      simp only at hmodules hsent ⊢
      rw [hsent, List.nil_append, ← hmodules]
      rfl
    · rename_i name rest taken sent hreader
      cases hstep
      obtain ⟨hle, hsent⟩ := h.readers tid _ hreader
      refine ⟨_, rfl, hle, ?_⟩
      simp only [List.map_cons, List.append_assoc, List.singleton_append] at hsent ⊢
      exact hsent
    · rename_i taken sent hreader
      cases hstep
      obtain ⟨hle, hsent⟩ := h.readers tid _ hreader
      refine ⟨_, rfl, hle, ?_⟩
      simp only [List.map_nil, List.append_nil] at hsent ⊢
      exact hsent
    · cases hstep

/-- What the steps of the main thread do. -/
inductive MainStepped (w : World) : Act → World → Prop where
  | refreshModules {ignoreDisable : Bool} :
      MainStepped w (.refreshModules ignoreDisable)
        { w with
          context := { w.context with ignoreDisable }
          main := .rescanning (.refreshModules w.context) }
  | zygoteRestart : MainStepped w .zygoteRestart { w with main := .rescanning .zygoteRestart }
  | scanned {scan : Scan} {request : Request} {result : Loaded} :
      MainStepped w (.scan scan) { w with main := .publishing request result }
  | scanFailed {scan : Scan} {request : Request} (hmain : w.main = .rescanning request)
      (hscan : loadModules w.context.ignoreDisable scan = none) :
      MainStepped w (.scan scan) (w.answer false request)
  | published {request : Request} {result : Loaded} :
      MainStepped w .publish
        ({ w with
          context := { w.context with modules := result.modules }
          published := w.published ++ [result] }.answer true request)

/-- A step is one of the main thread, or one of a reader. -/
theorem mainStepped_or (hstep : step w a = some t) :
    MainStepped w a t ∨ ∃ tid, a = .readModules tid ∨ a = .takeSnapshot tid ∨ a = .write tid := by
  cases a with
  | refreshModules ignoreDisable =>
      simp only [step] at hstep
      split at hstep
      · cases hstep
        exact .inl .refreshModules
      · cases hstep
  | zygoteRestart =>
      simp only [step] at hstep
      split at hstep
      · cases hstep
        exact .inl .zygoteRestart
      · cases hstep
  | scan scan =>
      simp only [step] at hstep
      split at hstep
      · rename_i request hmain
        split at hstep
        · cases hstep
          exact .inl .scanned
        · rename_i hscan
          cases hstep
          exact .inl (.scanFailed hmain hscan)
      · cases hstep
  | publish =>
      simp only [step] at hstep
      split at hstep
      · cases hstep
        exact .inl .published
      · cases hstep
  | readModules tid => exact .inr ⟨tid, .inl rfl⟩
  | takeSnapshot tid => exact .inr ⟨tid, .inr (.inl rfl)⟩
  | write tid => exact .inr ⟨tid, .inr (.inr rfl)⟩

theorem inv_step (h : Inv w) (hstep : step w a = some t) : Inv t := by
  rcases mainStepped_or hstep with hmain | ⟨tid, hact⟩
  · cases hmain with
    | refreshModules =>
        refine ⟨h.context, h.readers, fun before hmain => ?_⟩
        cases hmain
        rfl
    | zygoteRestart => exact ⟨h.context, h.readers, fun before hmain => nomatch hmain⟩
    | scanned => exact ⟨h.context, h.readers, fun before hmain => nomatch hmain⟩
    | scanFailed _ _ => exact .answer h.context h.readers
    | published =>
        refine .answer (served_append _ _).symm fun tid r hr => ?_
        exact (h.readers tid r hr).publish _
  · obtain ⟨r, rfl, hr⟩ := h.reader hact hstep
    exact h.setReader hr

/-- The replies need no condition. -/
theorem Inv.replies (h : Inv w) (hr : w.readers tid = some r) (hdone : r.stage = .done) :
    r.sent = reply (served (w.published.take r.taken)) := by
  have hfollows := h.readers tid r hr
  rw [Reader.Follows, hdone] at hfollows
  exact hfollows.2

/-- An answer stands behind the earlier ones, so only a refused request needs a look. -/
theorem Atomic.answered {v : World} {ok : Bool} (hatomic : Atomic w) (hanswers : v.answers = w.answers)
    (hnew : ∀ before, request = .refreshModules before → ok = false →
      v.context.modules = before.modules ∧
        ∀ scan, loadModules v.context.ignoreDisable scan = loadModules before.ignoreDisable scan) :
    ∀ a ∈ (v.answer ok request).answers, a.ok = false → a.after.modules = a.before.modules ∧
      ∀ scan, loadModules a.after.ignoreDisable scan = loadModules a.before.ignoreDisable scan := by
  intro a ha hok
  cases request with
  | zygoteRestart => exact hatomic.refused a (hanswers ▸ ha) hok
  | refreshModules before =>
      rcases List.mem_append.mp ha with hold | hlast
      · exact hatomic.refused a (hanswers ▸ hold) hok
      · rw [List.mem_singleton.mp hlast] at hok ⊢
        exact hnew before rfl hok

/-- One step: refreshes stay atomic exactly if a failed one changes nothing. -/
theorem atomic_step_iff (h : Inv w) (hatomic : Atomic w) :
    (∀ t, step w a = some t → Atomic t) ↔ Kept w a := by
  constructor
  · intro hkeeps
    cases a with
    | scan scan =>
        intro before hmain hscan
        have hstep : step w (.scan scan) = some (w.answer false (.refreshModules before)) := by
          simp only [step, hmain]
          split
          · rename_i hsome
            rw [hscan] at hsome
            cases hsome
          · rfl
        have hlast : (⟨before, w.context, false⟩ : Answered) ∈
            (w.answer false (.refreshModules before)).answers :=
          List.mem_append_right _ (List.mem_singleton_self _)
        exact (loadModules_eq_iff _ _).mp ((hkeeps _ hstep).refused _ hlast rfl).2
    | refreshModules ignoreDisable | zygoteRestart | publish | readModules tid | takeSnapshot tid
    | write tid => trivial
  · intro hkept t hstep
    refine ⟨fun tid r => (inv_step h hstep).replies, ?_⟩
    rcases mainStepped_or hstep with hmain | ⟨tid, hact⟩
    · cases hmain with
      | refreshModules => exact hatomic.refused
      | zygoteRestart => exact hatomic.refused
      | scanned => exact hatomic.refused
      | @scanFailed scan request hmain hscan =>
          refine hatomic.answered rfl fun before hrequest _ => ?_
          subst hrequest
          refine ⟨(h.main before hmain).symm, ?_⟩
          exact (loadModules_eq_iff _ _).mpr (hkept before hmain hscan)
      | published => exact hatomic.answered rfl fun before hrequest hok => nomatch hok
    · obtain ⟨r, rfl, -⟩ := h.reader hact hstep
      exact hatomic.refused

end Step

/-! ## Runs -/

/-- From any startup and in any order of the steps, refreshing is atomic in every state exactly if no refresh
whose scan fails carries another flag than the one in force. -/
theorem atomic_iff (startup : Scan) (schedule : List Act) :
    ReplayOk step (fun w a => ∀ t, step w a = some t → Atomic t) (start startup) schedule ↔
      ReplayOk step Kept (start startup) schedule := by
  have hstart : Atomic (start startup) := by
    constructor
    · intro tid r hr
      cases hr
    · intro answer hanswer
      cases hanswer
  refine replayOk_states_iff ?_ ?_ schedule (inv_start startup) hstart (replayOk_trivial schedule)
  · intro w a hw hatomic _
    exact atomic_step_iff hw hatomic
  · intro w a t hw _ _ hstep
    exact inv_step hw hstep

/-- A refresh that asks for the disabled modules meets an unreadable directory, and a zygote restart finds it
readable again. -/
def failedThenRestart : List Act :=
  [.refreshModules true, .scan .unreadable, .zygoteRestart,
    .scan (.entries [⟨"lsposed", true, true, true⟩]), .publish]

/-- The refresh was answered 0, and the restart publishes a module that the user has disabled. -/
theorem disabled_published_of_failedThenRestart :
    ∃ w, replay step (start (.entries [⟨"lsposed", true, true, true⟩])) failedThenRestart = some w ∧
      w.answers = [⟨⟨[], false⟩, ⟨[], true⟩, false⟩] ∧ w.context.modules = ["lsposed"] ∧ ¬ Atomic w := by
  refine ⟨_, rfl, rfl, rfl, fun hatomic => ?_⟩
  have hsame := (hatomic.refused ⟨⟨[], false⟩, ⟨[], true⟩, false⟩ (List.mem_singleton_self _) rfl).2
  exact absurd ((loadModules_eq_iff _ _).mp hsame) (by decide)

end NeoZygisk.Daemon.Refresh
