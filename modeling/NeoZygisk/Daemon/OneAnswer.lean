import NeoZygisk.Daemon.Requests

/-!
# One answer for each request

A thread inside the mutex of its module can always come to its end: a companion that does not answer may exit,
and every other call returns. So a thread that waits for a mutex gets it, and every request can end. It ends
with one answer of one party; a module has at most one companion the daemon is connected to; and every child
is pending until it was waited for: `oneAnswer_of_reach`.
-/

set_option autoImplicit false

namespace NeoZygisk.Daemon.Requests

open NeoZygisk.Lib
open NeoZygisk.Lib.Transition

/-! ## Mutexes are given back -/

/-- The thread holds the mutex of its module. -/
def Stage.holds : Stage → Bool
  | .received | .resolved | .done => false
  | _ => true

/-- A mutex is held by a thread that is inside of it. -/
def HolderOk (w : World) : Prop :=
  ∀ m tid, w.holder m = some tid →
    tid < w.threads.next ∧ (w.threads.get tid).module = m ∧ (w.threads.get tid).stage.holds = true

section Holder

variable {w w' : World} {tid : Nat} {failed : Bool}

/-- What a step of a thread does to the thread and to the mutexes. -/
theorem advance_holder (hstep : advance w tid failed = some w') :
    ∃ th', w'.threads = w.threads.modify tid (fun _ => th') ∧
      ((w'.holder = w.holder ∧ th'.stage.holds = (w.threads.get tid).stage.holds ∧
          (th'.stage.holds = true → th'.module = (w.threads.get tid).module)) ∨
        (w'.holder = Function.update w.holder (w.threads.get tid).module (some tid) ∧
          th'.stage.holds = true ∧ th'.module = (w.threads.get tid).module) ∨
        w'.holder = Function.update w.holder (w.threads.get tid).module none) := by
  simp only [advance] at hstep
  -- a mutex is taken at `resolved` and released at `sending`; in between the thread keeps its module
  cases hstage : (w.threads.get tid).stage with
  | received =>
      simp only [hstage] at hstep
      split_ifs at hstep with hindex
      · cases hstep
        exact ⟨_, rfl, .inl ⟨rfl, rfl, fun hholds => absurd hholds Bool.false_ne_true⟩⟩
      · cases hstep
        exact ⟨_, rfl, .inl ⟨rfl, rfl, fun hholds => absurd hholds Bool.false_ne_true⟩⟩
  | resolved =>
      simp only [hstage] at hstep
      split_ifs at hstep with hfree
      cases hstep
      exact ⟨_, rfl, .inr (.inl ⟨rfl, rfl, rfl⟩)⟩
  | checking =>
      simp only [hstage] at hstep
      split at hstep
      · split_ifs at hstep with halive
        · cases hstep
          exact ⟨_, rfl, .inl ⟨rfl, rfl, fun _ => rfl⟩⟩
        · cases hstep
          exact ⟨_, rfl, .inl ⟨rfl, rfl, fun _ => rfl⟩⟩
      · cases hstep
        exact ⟨_, rfl, .inl ⟨rfl, rfl, fun _ => rfl⟩⟩
  | spawning =>
      simp only [hstage] at hstep
      split_ifs at hstep with hfailed
      · cases hstep
        exact ⟨_, rfl, .inl ⟨rfl, rfl, fun _ => rfl⟩⟩
      · cases hstep
        exact ⟨_, rfl, .inl ⟨rfl, rfl, fun _ => rfl⟩⟩
  | handing child =>
      simp only [hstage] at hstep
      split_ifs at hstep with hhanded
      · cases hstep
        exact ⟨_, rfl, .inl ⟨rfl, rfl, fun _ => rfl⟩⟩
      · cases hstep
        exact ⟨_, rfl, .inl ⟨rfl, rfl, fun _ => rfl⟩⟩
  | awaiting child =>
      simp only [hstage] at hstep
      split at hstep
      · cases hstep
        split_ifs
        · exact ⟨_, rfl, .inl ⟨rfl, rfl, fun _ => rfl⟩⟩
        · exact ⟨_, rfl, .inl ⟨rfl, rfl, fun _ => rfl⟩⟩
      · split_ifs at hstep
        cases hstep
        exact ⟨_, rfl, .inl ⟨rfl, rfl, fun _ => rfl⟩⟩
  | sending =>
      simp only [hstage] at hstep
      split at hstep
      · split_ifs at hstep with hsent
        · cases hstep
          exact ⟨_, rfl, .inr (.inr rfl)⟩
        · cases hstep
          exact ⟨_, rfl, .inr (.inr rfl)⟩
      · cases hstep
        exact ⟨_, rfl, .inr (.inr rfl)⟩
  | done =>
      simp only [hstage] at hstep
      cases hstep

theorem holderOk_advance (h : HolderOk w) (htid : tid < w.threads.next)
    (hstep : advance w tid failed = some w') : HolderOk w' := by
  obtain ⟨th', hthreads, hholder⟩ := advance_holder hstep
  -- a mutex of another module is held by another thread, which has not moved
  have hother : ∀ m k, m ≠ (w.threads.get tid).module → w.holder m = some k →
      k < w'.threads.next ∧ (w'.threads.get k).module = m ∧ (w'.threads.get k).stage.holds = true := by
    intro m k hm hk
    obtain ⟨hlt, hmodule, hholds⟩ := h m k hk
    have hne : k ≠ tid := by
      rintro rfl
      exact hm hmodule.symm
    rw [hthreads, Heap.get_modify_of_ne _ _ hne]
    exact ⟨hlt, hmodule, hholds⟩
  intro m k hk
  rcases hholder with ⟨heq, hholds, hmodule⟩ | ⟨heq, hholds, hmodule⟩ | heq
  · rw [heq] at hk
    by_cases hne : k = tid
    · subst hne
      obtain ⟨hlt, hold, hin⟩ := h m k hk
      rw [hthreads, Heap.get_modify_self]
      exact ⟨hlt, (hmodule (hholds.trans hin)).trans hold, hholds.trans hin⟩
    · obtain ⟨hlt, hold, hin⟩ := h m k hk
      rw [hthreads, Heap.get_modify_of_ne _ _ hne]
      exact ⟨hlt, hold, hin⟩
  · by_cases hm : m = (w.threads.get tid).module
    · rw [heq, hm, Function.update_self, Option.some.injEq] at hk
      rw [← hk, hthreads, Heap.get_modify_self, hm]
      exact ⟨htid, hmodule, hholds⟩
    · rw [heq, Function.update_of_ne hm] at hk
      exact hother m k hm hk
  · by_cases hm : m = (w.threads.get tid).module
    · rw [heq, hm, Function.update_self] at hk
      cases hk
    · rw [heq, Function.update_of_ne hm] at hk
      exact hother m k hm hk

theorem holderOk_step {a : Act} (h : HolderOk w) (hstep : step w a = some w') : HolderOk w' := by
  cases a with
  | request index =>
      cases hstep
      intro m k hk
      obtain ⟨hlt, hmodule, hholds⟩ := h m k hk
      simp only [Heap.get_alloc_of_lt _ _ hlt]
      exact ⟨Nat.lt_succ_of_lt hlt, hmodule, hholds⟩
  | advance tid failed =>
      simp only [step, Option.ite_none_right_eq_some] at hstep
      exact holderOk_advance h hstep.1 hstep.2
  | answer child byte | exit child | zygoteRestart | refreshModules ignoreDisable | reap error
  | retire module =>
      simp only [step, Option.ite_none_right_eq_some, Option.some.injEq] at hstep
      obtain ⟨-, rfl⟩ := hstep
      exact h
  | drop =>
      simp only [step] at hstep
      split at hstep
      · split_ifs at hstep
        cases hstep
        exact h
      · cases hstep
        exact h
      · cases hstep
  | rescan scan =>
      simp only [step, Option.ite_none_right_eq_some] at hstep
      obtain ⟨-, hstep⟩ := hstep
      split at hstep
      · cases hstep
        intro m k hk
        simp only [World.publish] at hk
        split_ifs at hk
        exact h m k hk
      · cases hstep
        exact h
  | readModules error =>
      cases hstep
      exact h

end Holder

/-! ## Every request can end -/

/-- A run in which no other thread moves. -/
structure Passes (w : World) (tid : Nat) (w' : World) : Prop where
  reach : Reach step w w'
  others : ∀ other ≠ tid, w'.threads.get other = w.threads.get other
  next : w'.threads.next = w.threads.next

section Progress

variable {w w' w'' : World} {tid child : Nat} {failed : Bool}

theorem Passes.trans (h : Passes w tid w') (h' : Passes w' tid w'') : Passes w tid w'' where
  reach := h.reach.trans h'.reach
  others other hother := (h'.others other hother).trans (h.others other hother)
  next := h'.next.trans h.next

theorem passes_advance (htid : tid < w.threads.next) (hstep : advance w tid failed = some w') :
    Passes w tid w' := by
  obtain ⟨th', hthreads, -⟩ := advance_holder hstep
  refine ⟨.tail (.advance tid failed) .refl trivial ((if_pos htid).trans hstep), fun other hother => ?_, ?_⟩
  · rw [hthreads, Heap.get_modify_of_ne _ _ hother]
  · rw [hthreads, Heap.next_modify]

/-- The thread can come to its end, and give the mutex of its module back. -/
def Ends (w : World) (tid : Nat) : Prop :=
  ∃ w', Passes w tid w' ∧ (w'.threads.get tid).stage = .done ∧
    w'.holder (w.threads.get tid).module = none

theorem Passes.ends (h : Passes w tid w')
    (hmodule : (w'.threads.get tid).module = (w.threads.get tid).module) (hends : Ends w' tid) :
    Ends w tid := by
  obtain ⟨w'', hpass, hdone, hholder⟩ := hends
  rw [hmodule] at hholder
  exact ⟨w'', h.trans hpass, hdone, hholder⟩

theorem ends_of_sending (htid : tid < w.threads.next) (hstage : (w.threads.get tid).stage = .sending) :
    Ends w tid := by
  have hstep : advance w tid true =
      some ((w.setHolder (w.threads.get tid).module none).finish tid (w.threads.get tid) none) := by
    simp only [advance, hstage]
    split
    · rfl
    · rfl
  refine ⟨_, passes_advance htid hstep, ?_, Function.update_self ..⟩
  simp only [World.finish, World.setThread, Heap.get_modify_self]

theorem get_setThread (w : World) (tid : Nat) (th : Thread) : (w.setThread tid th).threads.get tid = th :=
  Heap.get_modify_self w.threads tid fun _ => th

/-- A thread that can end from its next stage can end. -/
theorem ends_of_step {v : World} {stage : Stage} (htid : tid < w.threads.next)
    (hstep : advance w tid failed = some (v.setThread tid { w.threads.get tid with stage }))
    (hends : ∀ u : World, tid < u.threads.next → (u.threads.get tid).stage = stage → Ends u tid) :
    Ends w tid := by
  have hpass := passes_advance htid hstep
  refine hpass.ends ?_ (hends _ ?_ ?_)
  · rw [get_setThread]
    rfl
  · rw [hpass.next]
    exact htid
  · rw [get_setThread]

theorem ends_of_spawning (htid : tid < w.threads.next) (hstage : (w.threads.get tid).stage = .spawning) :
    Ends w tid := by
  have hstep : advance w tid true = some (w.setThread tid { w.threads.get tid with stage := .sending }) := by
    simp only [advance, hstage, if_true]
  exact ends_of_step htid hstep fun u => ends_of_sending

theorem ends_of_checking (htid : tid < w.threads.next) (hstage : (w.threads.get tid).stage = .checking) :
    Ends w tid := by
  cases hcompanion : w.companion (w.threads.get tid).module with
  | some child =>
      have hstep : advance w tid true = some ((w.setCompanion (w.threads.get tid).module none).setThread tid
          { w.threads.get tid with stage := .spawning }) := by
        simp only [advance, hstage, hcompanion, Bool.true_eq_false, and_false, if_false]
      exact ends_of_step htid hstep fun u => ends_of_spawning
  | none =>
      have hstep : advance w tid true =
          some (w.setThread tid { w.threads.get tid with stage := .spawning }) := by
        simp only [advance, hstage, hcompanion]
      exact ends_of_step htid hstep fun u => ends_of_spawning

theorem ends_of_exited (htid : tid < w.threads.next) (hstage : (w.threads.get tid).stage = .awaiting child)
    (hanswer : (w.children.get child).answer = none) (halive : (w.children.get child).alive = false) :
    Ends w tid := by
  have hstep : advance w tid true = some (w.setThread tid { w.threads.get tid with stage := .sending }) := by
    simp only [advance, hstage, hanswer, halive, Bool.false_eq_true, if_false]
  exact ends_of_step htid hstep fun u => ends_of_sending

/-- A companion that does not answer may exit, which ends the read. -/
theorem ends_of_awaiting (h : Inv w) (htid : tid < w.threads.next)
    (hstage : (w.threads.get tid).stage = .awaiting child) : Ends w tid := by
  cases hanswer : (w.children.get child).answer with
  | some byte =>
      have hstep : advance w tid true =
          some ((if byte = 1 then w.setCompanion (w.threads.get tid).module (some child) else w).setThread tid
            { w.threads.get tid with stage := .sending }) := by
        simp only [advance, hstage, hanswer]
      exact ends_of_step htid hstep fun u => ends_of_sending
  | none =>
      cases halive : (w.children.get child).alive with
      | false => exact ends_of_exited htid hstage hanswer halive
      | true =>
          have hth := h.threads tid htid
          rw [ThreadOk, hstage] at hth
          have hexit : Passes w tid
              { w with children := w.children.modify child ({ · with alive := false }) } := by
            refine ⟨.tail (.exit child) .refl trivial ?_, fun _ _ => rfl, rfl⟩
            exact if_pos ⟨hth.2.2.2.2.1, halive⟩
          refine hexit.ends rfl (ends_of_exited htid hstage ?_ ?_)
          · rw [Heap.get_modify_self]
            exact hanswer
          · rw [Heap.get_modify_self]

/-- Inside the mutex every thread can come to its end. -/
theorem ends_of_holds (h : Inv w) (htid : tid < w.threads.next)
    (hholds : (w.threads.get tid).stage.holds = true) : Ends w tid := by
  cases hstage : (w.threads.get tid).stage with
  | received | resolved | done =>
      rw [hstage] at hholds
      cases hholds
  | checking => exact ends_of_checking htid hstage
  | spawning => exact ends_of_spawning htid hstage
  | handing child =>
      have hstep : advance w tid true =
          some (w.setThread tid { w.threads.get tid with stage := .sending }) := by
        simp only [advance, hstage, Bool.true_eq_false, false_and, if_false]
      exact ends_of_step htid hstep fun u => ends_of_sending
  | awaiting child => exact ends_of_awaiting h htid hstage
  | sending => exact ends_of_sending htid hstage

/-- A thread gets a mutex nobody holds. -/
theorem ends_of_free (htid : tid < w.threads.next)
    (hstage : (w.threads.get tid).stage = .resolved)
    (hfree : w.holder (w.threads.get tid).module = none) :
    ∃ w', Reach step w w' ∧ (w'.threads.get tid).stage = .done := by
  have hstep : advance w tid false = some ((w.setHolder (w.threads.get tid).module (some tid)).setThread tid
      { w.threads.get tid with stage := .checking }) := by
    simp only [advance, hstage, hfree, if_true]
  obtain ⟨w', hpass, hdone, -⟩ := ends_of_step htid hstep fun u => ends_of_checking
  exact ⟨w', hpass.reach, hdone⟩

/-- A thread that waits for a mutex gets it when the thread that holds it has ended. -/
theorem ends_of_resolved (h : Inv w) (hholder : HolderOk w) (htid : tid < w.threads.next)
    (hstage : (w.threads.get tid).stage = .resolved) :
    ∃ w', Reach step w w' ∧ (w'.threads.get tid).stage = .done := by
  cases hheld : w.holder (w.threads.get tid).module with
  | none => exact ends_of_free htid hstage hheld
  | some other =>
      obtain ⟨hlt, hmodule, hholds⟩ := hholder _ other hheld
      have hne : tid ≠ other := by
        rintro rfl
        rw [hstage] at hholds
        cases hholds
      obtain ⟨w₁, hpass, -, hfree⟩ := ends_of_holds h hlt hholds
      have hth := hpass.others tid hne
      rw [hmodule, ← hth] at hfree
      have htid₁ : tid < w₁.threads.next := by
        rw [hpass.next]
        exact htid
      obtain ⟨w₂, hreach, hdone⟩ := ends_of_free htid₁ (by rw [hth]; exact hstage) hfree
      exact ⟨w₂, hpass.reach.trans hreach, hdone⟩

/-- Every thread can come to its end. -/
theorem ends_of_inv (h : Inv w) (hholder : HolderOk w) (htid : tid < w.threads.next) :
    ∃ w', Reach step w w' ∧ (w'.threads.get tid).stage = .done := by
  cases hstage : (w.threads.get tid).stage with
  | received =>
      have hreach : ∀ {w'}, advance w tid false = some w' → Reach step w w' := fun hstep =>
        (passes_advance htid hstep).reach
      by_cases hindex : (w.threads.get tid).index < (w.snapshots.get w.current).length
      · have hstep : advance w tid false = some (w.setThread tid
            { w.threads.get tid with snapshot := w.current, stage := .resolved }) := by
          simp only [advance, hstage, hindex, if_true]
        obtain ⟨w', hreach', hdone⟩ := ends_of_resolved (inv_advance h htid hstep)
          (holderOk_advance hholder htid hstep) htid (by rw [get_setThread])
        exact ⟨w', (hreach hstep).trans hreach', hdone⟩
      · have hstep : advance w tid false = some (w.finish tid
            { w.threads.get tid with snapshot := w.current } none) := by
          simp only [advance, hstage, hindex, if_false]
        exact ⟨_, hreach hstep, by rw [World.finish, get_setThread]⟩
  | resolved => exact ends_of_resolved h hholder htid hstage
  | checking | spawning | handing child | awaiting child | sending =>
      obtain ⟨w', hpass, hdone, -⟩ := ends_of_holds h htid (by rw [hstage]; rfl)
      exact ⟨w', hpass.reach, hdone⟩
  | done => exact ⟨w, .refl, hstage⟩

end Progress

/-! ## Runs -/

/-- The three promises of the daemon, in one state. -/
structure OneAnswer (w : World) : Prop where
  /-- A request that has ended got one answer, and one that has not got none. -/
  answered : ∀ tid < w.threads.next,
    if (w.threads.get tid).stage = .done then w.Answered (w.threads.get tid) else (w.threads.get tid).Quiet
  /-- No request is stuck. -/
  ends : ∀ tid < w.threads.next, ∃ w', Reach step w w' ∧ (w'.threads.get tid).stage = .done
  single : ∀ m c c', w.Connected m c → w.Connected m c' → c = c'
  pending : ∀ c < w.children.next, c ∈ w.pending ∨ c ∈ w.waited

section Runs

variable {w : World} {tid c c' : Nat} {m : ModuleId}

theorem Inv.quiet (h : Inv w) (htid : tid < w.threads.next) (hstage : (w.threads.get tid).stage ≠ .done) :
    (w.threads.get tid).Quiet := by
  have hth := h.threads tid htid
  rw [ThreadOk] at hth
  cases hcase : (w.threads.get tid).stage with
  | received =>
      rw [hcase] at hth
      exact hth
  | resolved | checking | spawning | handing child | awaiting child | sending =>
      rw [hcase] at hth
      exact hth.1
  | done => exact absurd hcase hstage

/-- A thread that starts a companion has the mutex of the module, and the module has no other one. -/
theorem Inv.starting (h : Inv w) (htid : tid < w.threads.next)
    (hstage : (w.threads.get tid).stage = .handing c ∨ (w.threads.get tid).stage = .awaiting c) :
    w.holder (w.threads.get tid).module = some tid ∧ w.companion (w.threads.get tid).module = none := by
  have hth := h.threads tid htid
  rw [ThreadOk] at hth
  rcases hstage with hstage | hstage
  · rw [hstage] at hth
    exact ⟨hth.2.2.1, hth.2.2.2.1⟩
  · rw [hstage] at hth
    exact ⟨hth.2.2.1, hth.2.2.2.1⟩

theorem Inv.single (h : Inv w) (hc : w.Connected m c) (hc' : w.Connected m c') : c = c' := by
  rcases hc with hslot | ⟨tid, htid, rfl, hstage⟩
  · rcases hc' with hslot' | ⟨tid', htid', rfl, hstage'⟩
    · exact Option.some.inj (hslot.symm.trans hslot')
    · rw [(h.starting htid' hstage').2] at hslot
      cases hslot
  · obtain ⟨hholder, hempty⟩ := h.starting htid hstage
    rcases hc' with hslot' | ⟨tid', htid', hmodule, hstage'⟩
    · rw [hempty] at hslot'
      cases hslot'
    · obtain ⟨hholder', -⟩ := h.starting htid' hstage'
      rw [hmodule, hholder, Option.some.injEq] at hholder'
      subst hholder'
      -- one thread is in one stage
      rcases hstage with hstage | hstage
      · rw [hstage] at hstage'
        simpa using hstage'
      · rw [hstage] at hstage'
        simpa using hstage'

/-- In every state the daemon comes to from its startup, each request that ended was answered once, by the
daemon with 0 or by a companion of its module that had answered 1; every other one can end, and nothing was
answered to it. A module has one companion at most, and every child is pending until it was waited for. -/
theorem oneAnswer_of_reach (modules : List String) (w : World) (h : Reach step (start modules) w) :
    OneAnswer w := by
  have hinv : Inv w := h.invariant (inv_start modules) fun _ _ _ hi _ hs => inv_step hi hs
  have hholder : HolderOk w := by
    refine h.invariant (I := HolderOk) ?_ fun _ _ _ hi _ hs => holderOk_step hi hs
    intro m tid hm
    cases hm
  constructor
  · intro tid htid
    split_ifs with hdone
    · have hth := hinv.threads tid htid
      rw [ThreadOk, hdone] at hth
      exact hth
    · exact hinv.quiet htid hdone
  · exact fun tid htid => ends_of_inv hinv hholder htid
  · exact fun m c c' hc hc' => hinv.single hc hc'
  · exact hinv.pending

/-- Two requests for one module and one for a module there is not. The first one starts the companion while
the second one waits for the mutex; the companion exits before it is used again. -/
def threeRequests : List Act :=
  [.request 0, .request 0, .request 5, .advance 0 false, .advance 1 false, .advance 0 false, .advance 0 false,
    .advance 0 false, .advance 2 false, .advance 0 false, .answer 0 1, .advance 0 false, .advance 0 false,
    .exit 0, .advance 1 false, .advance 1 false, .advance 1 true, .readModules fun _ => false, .advance 1 false]

theorem oneAnswer_of_threeRequests :
    ∃ w, replay step (start ["lsposed"]) threeRequests = some w ∧
      w.threads.get 0 = ⟨0, 0, .done, [], [0]⟩ ∧ w.threads.get 1 = ⟨0, 0, .done, [0], []⟩ ∧
      w.threads.get 2 = ⟨5, 0, .done, [0], []⟩ ∧ w.pending = [] ∧ w.waited = [0] ∧ OneAnswer w := by
  have hrun : (replay step (start ["lsposed"]) threeRequests).map (fun w =>
      (w.threads.get 0, w.threads.get 1, w.threads.get 2, w.pending, w.waited)) =
        some (⟨0, 0, .done, [], [0]⟩, ⟨0, 0, .done, [0], []⟩, ⟨5, 0, .done, [0], []⟩, [], [0]) := by
    decide +kernel
  obtain ⟨w, hw, hends⟩ := Option.map_eq_some_iff.mp hrun
  simp only [Prod.mk.injEq] at hends
  obtain ⟨hzero, hone, htwo, hpending, hwaited⟩ := hends
  refine ⟨w, hw, hzero, hone, htwo, hpending, hwaited, ?_⟩
  exact oneAnswer_of_reach ["lsposed"] w (reach_of_replay threeRequests hw)

end Runs

end NeoZygisk.Daemon.Requests
