import Mathlib.Logic.Relation

/-!
# Guarded runs of partial step functions

A system is a partial step function `step : σ → α → Option σ`: the label `a` is enabled in `s` when
`step s a` is a value. `GuardedReach step ok s t` says that `t` is reached from `s` by enabled steps
each of which met the side condition `ok` in the state it was taken from; `Reach` is the case
without a side condition. An invariant that guarded steps keep holds in every state so reached
(`GuardedReach.invariant`), and a finite list of labels that replays is such a run
(`guardedReach_of_replay`).
-/

set_option autoImplicit false

namespace NeoZygisk.Lib.Transition

universe u v

variable {σ : Type u} {α : Type v}

/-- States reached from `s` by enabled steps that all meet `ok`. -/
inductive GuardedReach (step : σ → α → Option σ) (ok : σ → α → Prop) (s : σ) : σ → Prop where
  | refl : GuardedReach step ok s s
  | tail {t t' : σ} (a : α) :
      GuardedReach step ok s t → ok t a → step t a = some t' → GuardedReach step ok s t'

/-- States reached from `s` by enabled steps. -/
abbrev Reach (step : σ → α → Option σ) : σ → σ → Prop :=
  GuardedReach step fun _ _ => True

/-- The replay of a list of labels; `none` when one of them is not enabled. -/
def replay (step : σ → α → Option σ) : σ → List α → Option σ
  | s, [] => some s
  | s, a :: as => (step s a).bind fun t => replay step t as

/-- Every label of the list meets `ok` in the state the replay takes it from. -/
def ReplayOk (step : σ → α → Option σ) (ok : σ → α → Prop) : σ → List α → Prop
  | _, [] => True
  | s, a :: as => ok s a ∧ ∀ t, step s a = some t → ReplayOk step ok t as

namespace GuardedReach

variable {step : σ → α → Option σ} {ok : σ → α → Prop}

/-- A predicate that holds at the start and that every guarded step keeps holds in every state
reached. -/
theorem invariant {I : σ → Prop} {s t : σ} (h : GuardedReach step ok s t) (h0 : I s)
    (hstep : ∀ t a t', I t → ok t a → step t a = some t' → I t') : I t := by
  induction h with
  | refl => exact h0
  | tail a _ hok hst ih => exact hstep _ a _ ih hok hst

/-- Guarded runs compose. -/
theorem trans {s t u : σ} (h : GuardedReach step ok s t) (h' : GuardedReach step ok t u) :
    GuardedReach step ok s u := by
  induction h' with
  | refl => exact h
  | tail a _ hok hst ih => exact ih.tail a hok hst

end GuardedReach

/-- A label that meets the condition where it leads on, and the labels after it. -/
theorem ReplayOk.cons {step : σ → α → Option σ} {ok : σ → α → Prop} {s t : σ} {a : α} {as : List α}
    (hok : ok s a) (hstep : step s a = some t) (hrest : ReplayOk step ok t as) :
    ReplayOk step ok s (a :: as) := by
  refine ⟨hok, ?_⟩
  intro u hu
  obtain rfl := Option.some.inj (hstep.symm.trans hu)
  exact hrest

/-- A replay whose labels all meet the side condition is a guarded run. -/
theorem guardedReach_of_replay {step : σ → α → Option σ} {ok : σ → α → Prop} :
    ∀ (as : List α) {s t : σ}, replay step s as = some t → ReplayOk step ok s as →
      GuardedReach step ok s t := by
  intro as
  induction as with
  | nil =>
      intro s t h _
      obtain rfl := Option.some.inj h
      exact .refl
  | cons a as ih =>
      intro s t h hok
      -- the first label leads to `u`, and the rest replays from there
      obtain ⟨u, hu, hrest⟩ := Option.bind_eq_some_iff.mp h
      have hhead : GuardedReach step ok s u := .tail a .refl hok.1 hu
      exact hhead.trans (ih hrest (hok.2 u hu))

/-- A replay goes on where the first part of it ends. -/
theorem replay_append {step : σ → α → Option σ} (s : σ) (as bs : List α) :
    replay step s (as ++ bs) = (replay step s as).bind fun t => replay step t bs := by
  induction as generalizing s with
  | nil => rfl
  | cons a as ih =>
      simp only [List.cons_append, replay, ih]
      cases step s a with
      | none => rfl
      | some t => rfl

/-- Two side conditions that agree wherever an invariant holds, one of which keeps the invariant, are met
by the same replays. -/
theorem replayOk_iff {step : σ → α → Option σ} {guard P Q : σ → α → Prop} {I : σ → Prop}
    (hiff : ∀ s a, I s → guard s a → (P s a ↔ Q s a))
    (hkeep : ∀ s a t, I s → guard s a → P s a → step s a = some t → I t) :
    ∀ (as : List α) {s : σ}, I s → ReplayOk step guard s as →
      (ReplayOk step P s as ↔ ReplayOk step Q s as) := by
  intro as
  induction as with
  | nil =>
      intro s _ _
      exact Iff.rfl
  | cons a as ih =>
      intro s hI hguard
      constructor
      · rintro ⟨hP, hrest⟩
        refine ⟨(hiff s a hI hguard.1).mp hP, ?_⟩
        intro t ht
        exact (ih (hkeep s a t hI hguard.1 hP ht) (hguard.2 t ht)).mp (hrest t ht)
      · rintro ⟨hQ, hrest⟩
        have hP := (hiff s a hI hguard.1).mpr hQ
        refine ⟨hP, ?_⟩
        intro t ht
        exact (ih (hkeep s a t hI hguard.1 hP ht) (hguard.2 t ht)).mpr (hrest t ht)

/-- In a replay a predicate holds of every state exactly if every step meets a condition, when one step keeps
the predicate exactly under the condition; an invariant that such steps keep may be used. -/
theorem replayOk_states_iff {step : σ → α → Option σ} {guard Q : σ → α → Prop} {I G : σ → Prop}
    (hiff : ∀ s a, I s → G s → guard s a → ((∀ t, step s a = some t → G t) ↔ Q s a))
    (hkeep : ∀ s a t, I s → guard s a → G t → step s a = some t → I t) (as : List α) {s : σ}
    (hI : I s) (hG : G s) (hguard : ReplayOk step guard s as) :
    ReplayOk step (fun s a => ∀ t, step s a = some t → G t) s as ↔ ReplayOk step Q s as := by
  refine replayOk_iff (I := fun s => I s ∧ G s) ?_ ?_ as ⟨hI, hG⟩ hguard
  · intro s a hs hga
    exact hiff s a hs.1 hs.2 hga
  · intro s a t hs hga hgood hst
    exact ⟨hkeep s a t hs.1 hga (hgood t hst) hst, hgood t hst⟩

/-- No side condition is met by every replay. -/
theorem replayOk_trivial {step : σ → α → Option σ} (as : List α) {s : σ} :
    ReplayOk step (fun _ _ => True) s as := by
  induction as generalizing s with
  | nil => trivial
  | cons a as ih => exact ⟨trivial, fun u _ => ih⟩

/-- A condition on the labels alone is met by a replay of labels that meet it. -/
theorem replayOk_of_forall {step : σ → α → Option σ} {ok : α → Prop} {as : List α} (h : ∀ a ∈ as, ok a) {s : σ} :
    ReplayOk step (fun _ a => ok a) s as := by
  induction as generalizing s with
  | nil => trivial
  | cons a as ih => exact ⟨h a List.mem_cons_self, fun u _ => ih fun b hb => h b (List.mem_cons_of_mem a hb)⟩

/-- A replay is a run. -/
theorem reach_of_replay {step : σ → α → Option σ} (as : List α) {s t : σ}
    (h : replay step s as = some t) : Reach step s t :=
  guardedReach_of_replay as h (replayOk_trivial as)

end NeoZygisk.Lib.Transition
