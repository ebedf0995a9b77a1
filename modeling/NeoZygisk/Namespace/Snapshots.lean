import Mathlib.Tactic.SplitIfs
import NeoZygisk.Lib.Transition

/-!
# The cached namespaces over restarts of the framework

`MountNamespaceManager` keeps the namespaces `Clean` and `Root` in cells that are written once. The daemon
outlives the framework: after a `ZygoteRestart` the next `system_server` sends its `CacheMountNamespace` to the
same daemon, which finds both cells filled. What a request is served after that is derived from the process of
the first request ever, so it is up to date exactly if both requests name the same one (`upToDate_iff`). The
two namespaces always go together.

A namespace is given by the process it was derived from.
-/

set_option autoImplicit false

namespace NeoZygisk.Namespace.Snapshots

open NeoZygisk.Lib.Transition

abbrev Pid := Nat

/-! ## The daemon -/

inductive MountNamespace where
  | clean
  | root
  deriving DecidableEq, Repr

/-- `MountNamespaceManager`. -/
structure MountNamespaceManager where
  cleanMntNsFd : Option Pid
  rootMntNsFd : Option Pid
  deriving DecidableEq, Repr

namespace MountNamespaceManager

/-- `get_namespace_fd`. -/
def getNamespaceFd (manager : MountNamespaceManager) : MountNamespace → Option Pid
  | .clean => manager.cleanMntNsFd
  | .root => manager.rootMntNsFd

/-- The cell of a namespace with a value. -/
def set (manager : MountNamespaceManager) (pid : Pid) : MountNamespace → MountNamespaceManager
  | .clean => { manager with cleanMntNsFd := some pid }
  | .root => { manager with rootMntNsFd := some pid }

/-- `save_mount_namespace`: whether it succeeded, and the cells after it. A cell that is filled is kept, and
nothing is set up for it. -/
def saveMountNamespace (manager : MountNamespaceManager) (pid : Pid) (setup : Bool) (ns : MountNamespace) :
    Bool × MountNamespaceManager :=
  match manager.getNamespaceFd ns with
  | some _ => (true, manager)
  | none => if setup then (true, manager.set pid ns) else (false, manager)

end MountNamespaceManager

/-- The requests the main thread is through with. -/
inductive Event where
  | cached (pid : Pid)
  | restarted
  deriving DecidableEq, Repr

/-- An `UpdateMountNamespace` that was answered: with the namespace of a process, or with 0. `asked` is what
the requests had asked for before it. -/
structure Answer where
  served : Option Pid
  asked : Option Pid
  deriving DecidableEq, Repr

/-- The main thread is between two requests, or has saved the first of the two namespaces. -/
inductive Main where
  | idle
  | savedClean (pid : Pid)
  deriving DecidableEq, Repr

structure World where
  manager : MountNamespaceManager
  main : Main
  /-- The requests so far, the latest one first. -/
  history : List Event
  answers : List Answer

/-- The process of the first `CacheMountNamespace`. -/
def first : List Event → Option Pid
  | [] => none
  | .restarted :: history => first history
  | .cached pid :: history => (first history).or (some pid)

/-- The process of the last `CacheMountNamespace`, if that request follows a `ZygoteRestart`. -/
def asked : List Event → Option Pid
  | [] => none
  | .restarted :: history => asked history
  | .cached pid :: history => if .restarted ∈ history then some pid else none

def start : World := ⟨⟨none, none⟩, .idle, [], []⟩

inductive Act where
  /-- `CacheMountNamespace` up to the namespace `Clean`; `setup` if the child can set it up. -/
  | cacheMountNamespace (pid : Pid) (setup : Bool)
  /-- The namespace `Root`. -/
  | saveRoot (setup : Bool)
  | zygoteRestart
  /-- A thread answers `UpdateMountNamespace`. -/
  | updateMountNamespace (ns : MountNamespace)
  deriving DecidableEq, Repr

/-- `handle_connection` and `handle_update_mount_namespace`. A restart drops companions and rescans the
modules, but leaves the manager alone. -/
def step (w : World) : Act → Option World
  | .cacheMountNamespace pid setup =>
      if w.main = .idle then
        -- a failure here leaves `Root` unsaved
        let r := w.manager.saveMountNamespace pid setup .clean
        some { w with manager := r.2, main := if r.1 then .savedClean pid else .idle }
      else none
  | .saveRoot setup =>
      match w.main with
      | .savedClean pid =>
          let r := w.manager.saveMountNamespace pid setup .root
          some { w with manager := r.2, main := .idle, history := .cached pid :: w.history }
      | .idle => none
  | .zygoteRestart =>
      if w.main = .idle then some { w with history := .restarted :: w.history } else none
  | .updateMountNamespace ns =>
      some { w with answers := ⟨w.manager.getNamespaceFd ns, asked w.history⟩ :: w.answers }

/-! ## Serving the running framework -/

/-- Every answer after a request that follows a restart is the namespace of the process it named, and the two
namespaces are those of one process. -/
structure UpToDate (w : World) : Prop where
  answers : ∀ a ∈ w.answers, ∀ pid, a.asked = some pid → a.served = some pid
  together : ∀ pid pid', w.manager.cleanMntNsFd = some pid → w.manager.rootMntNsFd = some pid' → pid = pid'

/-- Every namespace can be set up. -/
def Succeeds (_ : World) : Act → Prop
  | .cacheMountNamespace _ setup | .saveRoot setup => setup = true
  | _ => True

/-- The last `CacheMountNamespace`, if it follows a restart, names the process of the first one. -/
def SameProcess (w : World) : Act → Prop
  | .updateMountNamespace _ => ∀ pid, asked w.history = some pid → first w.history = some pid
  | _ => True

/-- Where nothing fails, the cells hold the process of the first request. -/
structure Inv (w : World) : Prop where
  idle : w.main = .idle → w.manager = ⟨first w.history, first w.history⟩
  savedClean : ∀ pid, w.main = .savedClean pid →
    w.manager = ⟨(first w.history).or (some pid), first w.history⟩

section Step

variable {w t : World} {a : Act} {pid : Pid}

theorem saveMountNamespace_of_setup (manager : MountNamespaceManager) (pid : Pid) (ns : MountNamespace) :
    (manager.saveMountNamespace pid true ns).1 = true := by
  rw [MountNamespaceManager.saveMountNamespace]
  split
  · rfl
  · rfl

theorem saveClean_eq (clean root : Option Pid) (pid : Pid) :
    (MountNamespaceManager.saveMountNamespace ⟨clean, root⟩ pid true .clean).2 =
      ⟨clean.or (some pid), root⟩ := by
  cases clean with
  | none => rfl
  | some other => rfl

theorem saveRoot_eq (clean root : Option Pid) (pid : Pid) :
    (MountNamespaceManager.saveMountNamespace ⟨clean, root⟩ pid true .root).2 =
      ⟨clean, root.or (some pid)⟩ := by
  cases root with
  | none => rfl
  | some other => rfl

theorem inv_step (h : Inv w) (hok : Succeeds w a) (hstep : step w a = some t) : Inv t := by
  cases a with
  | cacheMountNamespace pid setup =>
      simp only [step, Option.ite_none_right_eq_some, Option.some.injEq] at hstep
      obtain ⟨hidle, rfl⟩ := hstep
      obtain rfl : setup = true := hok
      rw [h.idle hidle]
      constructor
      · intro hmain
        simp only [saveMountNamespace_of_setup, if_true] at hmain
        cases hmain
      · intro pid' hmain
        simp only [saveMountNamespace_of_setup, if_true, Main.savedClean.injEq] at hmain
        subst hmain
        exact saveClean_eq ..
  | saveRoot setup =>
      obtain rfl : setup = true := hok
      simp only [step] at hstep
      split at hstep
      · rename_i pid hmain
        cases hstep
        rw [h.savedClean pid hmain]
        exact ⟨fun _ => saveRoot_eq .., fun _ hnot => nomatch hnot⟩
      · cases hstep
  | zygoteRestart =>
      simp only [step, Option.ite_none_right_eq_some, Option.some.injEq] at hstep
      obtain ⟨hidle, rfl⟩ := hstep
      exact ⟨fun _ => h.idle hidle, fun pid hmain => h.savedClean pid hmain⟩
  | updateMountNamespace ns =>
      cases hstep
      exact ⟨h.idle, h.savedClean⟩

/-- The namespaces of one daemon are those of one process. -/
theorem Inv.together {pid' : Pid} (h : Inv w) (hclean : w.manager.cleanMntNsFd = some pid)
    (hroot : w.manager.rootMntNsFd = some pid') : pid = pid' := by
  cases hmain : w.main with
  | idle =>
      rw [h.idle hmain] at hclean hroot
      exact Option.some.inj (hclean.symm.trans hroot)
  | savedClean cached =>
      rw [h.savedClean cached hmain] at hclean hroot
      simp only at hclean hroot
      rw [hroot, Option.some_or] at hclean
      exact (Option.some.inj hclean).symm

/-- Once a request was served, both cells have the process of the first one. -/
theorem Inv.served (h : Inv w) (hfirst : first w.history = some pid) (ns : MountNamespace) :
    w.manager.getNamespaceFd ns = some pid := by
  cases hmain : w.main with
  | idle =>
      rw [h.idle hmain, hfirst]
      cases ns with
      | clean => rfl
      | root => rfl
  | savedClean cached =>
      rw [h.savedClean cached hmain, hfirst]
      cases ns with
      | clean => rfl
      | root => rfl

/-- What was asked for was asked for in a request, so there is a first one. -/
theorem first_isSome {history : List Event} (h : asked history = some pid) :
    ∃ pid₀, first history = some pid₀ := by
  -- the latest event is the head
  induction history with
  | nil => cases h
  | cons event history ih =>
      cases event with
      | restarted => exact ih h
      | cached latest =>
          rw [first]
          cases first history with
          | none => exact ⟨latest, rfl⟩
          | some pid₀ => exact ⟨pid₀, rfl⟩

/-- One step: the daemon stays up to date exactly if an answer is asked for the first process. -/
theorem upToDate_step_iff (h : Inv w) (hok : Succeeds w a) (hup : UpToDate w) :
    (∀ t, step w a = some t → UpToDate t) ↔ SameProcess w a := by
  constructor
  · intro hsteps
    cases a with
    | updateMountNamespace ns =>
        intro pid hasked
        obtain ⟨pid₀, hfirst⟩ := first_isSome hasked
        have hserved := (hsteps _ rfl).answers _ List.mem_cons_self pid hasked
        rw [h.served hfirst ns] at hserved
        exact hfirst.trans hserved
    | cacheMountNamespace pid setup | saveRoot setup | zygoteRestart => trivial
  · intro hsame t hstep
    refine ⟨?_, fun pid pid' => (inv_step h hok hstep).together⟩
    cases a with
    | cacheMountNamespace pid setup | zygoteRestart =>
        simp only [step, Option.ite_none_right_eq_some, Option.some.injEq] at hstep
        obtain ⟨-, rfl⟩ := hstep
        exact hup.answers
    | saveRoot setup =>
        simp only [step] at hstep
        split at hstep
        · cases hstep
          exact hup.answers
        · cases hstep
    | updateMountNamespace ns =>
        cases hstep
        intro answer hanswer pid hasked
        rcases List.mem_cons.mp hanswer with rfl | hold
        · exact h.served (hsame pid hasked) ns
        · exact hup.answers answer hold pid hasked

end Step

/-! ## Runs -/

theorem inv_start : Inv start := ⟨fun _ => rfl, fun _ h => nomatch h⟩

/-- In every run in which namespaces can be set up, all answers are up to date and the two namespaces go
together exactly if every answer comes after requests that name one process. -/
theorem upToDate_iff (schedule : List Act) (hok : ReplayOk step Succeeds start schedule) :
    ReplayOk step (fun w a => ∀ t, step w a = some t → UpToDate t) start schedule ↔
      ReplayOk step SameProcess start schedule := by
  have hstart : UpToDate start := by
    constructor
    · intro answer hanswer
      cases hanswer
    · intro pid pid' hclean
      cases hclean
  refine replayOk_states_iff ?_ ?_ schedule inv_start hstart hok
  · intro w a hw hup hsucceeds
    exact upToDate_step_iff hw hsucceeds hup
  · intro w a t hw hsucceeds _ hstep
    exact inv_step hw hsucceeds hstep

/-- A daemon that is started while zygote restarts. -/
def lateDaemon : List Act :=
  [.zygoteRestart, .cacheMountNamespace 812 true, .saveRoot true, .updateMountNamespace .clean]

theorem upToDate_lateDaemon :
    ReplayOk step Succeeds start lateDaemon ∧
      ReplayOk step (fun w a => ∀ t, step w a = some t → UpToDate t) start lateDaemon := by
  have hok : ReplayOk step Succeeds start lateDaemon := by
    exact .cons trivial rfl (.cons rfl rfl (.cons rfl rfl (.cons trivial rfl trivial)))
  refine ⟨hok, (upToDate_iff lateDaemon hok).mpr ?_⟩
  exact .cons trivial rfl (.cons trivial rfl (.cons trivial rfl (.cons (fun _ => id) rfl trivial)))

/-- The framework restarts, and its new `system_server` asks for its namespace. -/
def softReboot : List Act :=
  [.cacheMountNamespace 812 true, .saveRoot true, .zygoteRestart, .cacheMountNamespace 2071 true,
    .saveRoot true, .updateMountNamespace .root]

/-- The request after the restart is served the namespace of the old `system_server`. -/
theorem stale_of_softReboot :
    ∃ w, replay step start softReboot = some w ∧ w.answers = [⟨some 812, some 2071⟩] ∧ ¬ UpToDate w := by
  refine ⟨_, rfl, rfl, fun hup => ?_⟩
  have hserved := hup.answers ⟨some 812, some 2071⟩ List.mem_cons_self 2071 rfl
  exact absurd hserved (by decide)

end NeoZygisk.Namespace.Snapshots
