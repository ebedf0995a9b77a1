import Mathlib.Algebra.Order.BigOperators.Group.Finset
import Mathlib.Data.Fintype.Basic
import Mathlib.Logic.Function.Basic
import Mathlib.Order.WellFounded
import NeoZygisk.Lib.Transition

/-!
# Edge-triggered event loops

A loop watches descriptors and calls the handler of each that is reported. A descriptor is reported once for everything
that happens to it up to the report, so what a handler leaves unread is not reported again: the next report comes with
the next thing that happens. The kernel keeps the descriptors it has to report in a list, from which it drops those
that have become unreadable.

If every handler returns only when its descriptor is unreadable, the loop sleeps only when all of them are
(`asleep_unreadable`), whatever happens meanwhile. Its own steps are bounded by what there is to do
(`length_add_measure_le`), so it falls asleep or ends (`settles`).
-/

set_option autoImplicit false

namespace NeoZygisk.Lib.EdgeTriggered

open NeoZygisk.Lib.Transition

/-! ## The loop -/

/-- Descriptors with their handlers. `readable` is what a poll tells, and `outside` what happens to a descriptor by
itself, which the kernel reports if it `wakes`. A handler that is at rest was not called, or is about to look whether
there is something to read; `serve` is a step of it, with whether it stops the loop. -/
structure Sources (ι : Type) (β ε α : ι → Type) where
  readable : ∀ i, β i → Bool
  atRest : ∀ i, β i → Bool
  outside : ∀ i, β i → ε i → Option (β i)
  wakes : ∀ i, ε i → Bool
  serve : ∀ i, β i → α i → Option (β i × Bool)
  /-- How many steps the handler has left at most. -/
  weight : ∀ i, β i → Nat
  atRest_outside : ∀ {i b e b'}, outside i b e = some b' → atRest i b' = atRest i b
  readable_outside : ∀ {i b e b'}, outside i b e = some b' → readable i b' = true →
    readable i b = true ∨ wakes i e = true
  exists_serve : ∀ {i b}, (atRest i b && !readable i b) = false → ∃ a, (serve i b a).isSome = true
  weight_serve : ∀ {i b a b' stop}, serve i b a = some (b', stop) → weight i b' < weight i b

/-- Where the loop stands. It first registers the descriptors, and then waits for events and handles them in batches. -/
inductive Position (ι : Type) where
  | watching (todo : List ι)
  | waiting
  | batch (rest : List ι)
  | serving (i : ι) (rest : List ι)
  | ended

variable {ι : Type} {β ε α : ι → Type}

/-- The descriptors that were reported and not yet dealt with. -/
def Position.engaged : Position ι → List ι
  | .batch rest => rest
  | .serving i rest => i :: rest
  | _ => []

def Position.weight : Position ι → Nat
  | .watching todo => 5 * todo.length + 1
  | .batch rest => 2 * rest.length + 1
  | .serving _ rest => 2 * rest.length + 2
  | _ => 0

/-- `ready` is the kernel's list of the descriptors it has to report. -/
structure Loop (ι : Type) (β : ι → Type) where
  position : Position ι
  running : Bool
  watched : List ι
  ready : List ι
  source : ∀ i, β i

/-- A descriptor is registered, or it cannot be, or the program gives up. -/
inductive Registration where
  | watched
  | unwatched
  | aborted

inductive Label (ι : Type) (ε α : ι → Type) where
  | outside (i : ι) (e : ε i)
  /-- The wait fails, and is tried again. -/
  | interrupted
  | register (r : Registration)
  | wait
  | next
  | serve (i : ι) (a : α i)
  | leave

/-- A step of the loop itself, which is not repeated in vain. -/
def Label.own : Label ι ε α → Bool
  | .outside _ _ => false
  | .interrupted => false
  | _ => true

/-- The events of a wait for so many, and what stays in the list. -/
def collect (readable : ι → Bool) : Nat → List ι → List ι × List ι
  | 0, ready => ([], ready)
  | _, [] => ([], [])
  | n + 1, i :: ready =>
      if readable i then
        let collected := collect readable n ready
        (i :: collected.1, collected.2)
      else collect readable (n + 1) ready

section Step

variable [DecidableEq ι]

/-- The kernel puts a descriptor into the list, in which it is at most once. -/
def raise (i : ι) (ready : List ι) : List ι := if i ∈ ready then ready else ready ++ [i]

def step (S : Sources ι β ε α) (maxEvents : Nat) (s : Loop ι β) : Label ι ε α → Option (Loop ι β)
  | .outside i e =>
      (S.outside i (s.source i) e).map fun b =>
        { s with
          source := Function.update s.source i b
          ready := if S.wakes i e && decide (i ∈ s.watched) then raise i s.ready else s.ready }
  | .interrupted =>
      match s.position with
      | .waiting => some s
      | _ => none
  | .register r =>
      match s.position, r with
      -- registering reports a descriptor that can be read already
      | .watching (i :: todo), .watched =>
          some
            { s with
              position := .watching todo
              watched := i :: s.watched
              ready := if S.readable i (s.source i) then raise i s.ready else s.ready }
      | .watching (_ :: todo), .unwatched => some { s with position := .watching todo }
      | .watching (_ :: _), .aborted => some { s with position := .ended }
      | _, _ => none
  | .wait =>
      match s.position with
      | .waiting =>
          let collected := collect (fun i => S.readable i (s.source i)) maxEvents s.ready
          if collected.1.isEmpty then none
          else some { s with position := .batch collected.1, ready := collected.2 }
      | _ => none
  | .next =>
      match s.position with
      | .watching [] => some { s with position := .waiting, running := true }
      | .batch [] => some { s with position := if s.running then .waiting else .ended }
      | .batch (i :: rest) => some { s with position := .serving i rest }
      | _ => none
  | .serve i a =>
      match s.position with
      | .serving j _ =>
          if i = j then
            (S.serve i (s.source i) a).map fun served =>
              { s with source := Function.update s.source i served.1, running := s.running && !served.2 }
          else none
      | _ => none
  | .leave =>
      match s.position with
      | .serving i rest =>
          if S.atRest i (s.source i) && !S.readable i (s.source i) then
            some { s with position := if s.running then .batch rest else .ended }
          else none
      | _ => none

end Step

/-- A wait that finds nothing to report blocks. -/
def Asleep (S : Sources ι β ε α) (maxEvents : Nat) (s : Loop ι β) : Prop :=
  s.position = .waiting ∧ (collect (fun i => S.readable i (s.source i)) maxEvents s.ready).1 = []

/-- Every registration succeeds. -/
def Registers (a : Label ι ε α) : Prop := ∀ r, a = .register r → r = .watched

/-- A loop before it registers anything. -/
def starting (todo : List ι) (source : ∀ i, β i) : Loop ι β := ⟨.watching todo, false, [], [], source⟩

/-! ## The kernel's list -/

theorem mem_raise [DecidableEq ι] {i j : ι} {ready : List ι} : j ∈ raise i ready ↔ j = i ∨ j ∈ ready := by
  rw [raise]
  split
  · rename_i hmem
    constructor
    · exact .inr
    · rintro (rfl | hj)
      · exact hmem
      · exact hj
  · rw [List.mem_append, List.mem_singleton, or_comm]

theorem mem_raise_if [DecidableEq ι] {c : Prop} [Decidable c] {i j : ι} {ready : List ι} (h : j ∈ ready) :
    j ∈ if c then raise i ready else ready := by
  split
  · exact mem_raise.mpr (.inr h)
  · exact h

theorem length_raise_le [DecidableEq ι] (i : ι) (ready : List ι) : (raise i ready).length ≤ ready.length + 1 := by
  rw [raise]
  split
  · exact Nat.le_succ _
  · rw [List.length_append, List.length_singleton]

/-- A readable descriptor of the list is reported or stays in it. -/
theorem mem_collect {readable : ι → Bool} {i : ι} (hi : readable i = true) {n : Nat} {ready : List ι}
    (h : i ∈ ready) : i ∈ (collect readable n ready).1 ∨ i ∈ (collect readable n ready).2 := by
  induction ready generalizing n with
  | nil => cases h
  | cons j ready ih =>
      cases n with
      | zero => exact .inr h
      | succ n =>
          rw [collect]
          split
          · rcases List.mem_cons.mp h with rfl | hmem
            · exact .inl List.mem_cons_self
            · exact (ih hmem).imp_left (List.mem_cons_of_mem _)
          · rename_i hj
            rcases List.mem_cons.mp h with rfl | hmem
            · exact absurd hi hj
            · exact ih hmem

theorem length_collect_le (readable : ι → Bool) (n : Nat) (ready : List ι) :
    (collect readable n ready).1.length + (collect readable n ready).2.length ≤ ready.length := by
  induction ready generalizing n with
  | nil => cases n <;> exact Nat.le_refl 0
  | cons i ready ih =>
      cases n with
      | zero => exact Nat.le_of_eq (Nat.zero_add _)
      | succ n =>
          rw [collect]
          split
          · have hlength := ih n
            simp only [List.length_cons]
            omega
          · exact (ih (n + 1)).trans (Nat.le_succ _)

/-- Nothing is reported only if nothing in the list is readable. -/
theorem readable_eq_false_of_collect {readable : ι → Bool} {n : Nat} (hn : 0 < n) {ready : List ι}
    (h : (collect readable n ready).1 = []) {i : ι} (hi : i ∈ ready) : readable i = false := by
  obtain ⟨n, rfl⟩ := Nat.exists_eq_succ_of_ne_zero hn.ne'
  induction ready with
  | nil => cases hi
  | cons j ready ih =>
      rw [collect] at h
      split at h
      · cases h
      · rename_i hj
        rcases List.mem_cons.mp hi with rfl | hmem
        · exact Bool.not_eq_true _ |>.mp hj
        · exact ih hmem h

/-! ## What a step does -/

section Steps

variable [DecidableEq ι] {S : Sources ι β ε α} {maxEvents : Nat} {s t : Loop ι β}

/-- The state after a step, by its label. -/
inductive Move (S : Sources ι β ε α) (maxEvents : Nat) (s : Loop ι β) : Label ι ε α → Loop ι β → Prop where
  | outside {i : ι} {e : ε i} {b : β i} (houtside : S.outside i (s.source i) e = some b) :
      Move S maxEvents s (.outside i e)
        { s with
          source := Function.update s.source i b
          ready := if S.wakes i e && decide (i ∈ s.watched) then raise i s.ready else s.ready }
  | interrupted (hposition : s.position = .waiting) : Move S maxEvents s .interrupted s
  | watched {i : ι} {todo : List ι} (hposition : s.position = .watching (i :: todo)) :
      Move S maxEvents s (.register .watched)
        { s with
          position := .watching todo
          watched := i :: s.watched
          ready := if S.readable i (s.source i) then raise i s.ready else s.ready }
  | unwatched {i : ι} {todo : List ι} (hposition : s.position = .watching (i :: todo)) :
      Move S maxEvents s (.register .unwatched) { s with position := .watching todo }
  | aborted {i : ι} {todo : List ι} (hposition : s.position = .watching (i :: todo)) :
      Move S maxEvents s (.register .aborted) { s with position := .ended }
  | wait {i : ι} {rest ready : List ι} (hposition : s.position = .waiting)
      (hcollect : collect (fun i => S.readable i (s.source i)) maxEvents s.ready = (i :: rest, ready)) :
      Move S maxEvents s .wait { s with position := .batch (i :: rest), ready }
  | start (hposition : s.position = .watching []) :
      Move S maxEvents s .next { s with position := .waiting, running := true }
  | again (hposition : s.position = .batch []) :
      Move S maxEvents s .next { s with position := if s.running then .waiting else .ended }
  | call {i : ι} {rest : List ι} (hposition : s.position = .batch (i :: rest)) :
      Move S maxEvents s .next { s with position := .serving i rest }
  | serve {i : ι} {rest : List ι} {a : α i} {b : β i} {stop : Bool} (hposition : s.position = .serving i rest)
      (hserve : S.serve i (s.source i) a = some (b, stop)) :
      Move S maxEvents s (.serve i a)
        { s with source := Function.update s.source i b, running := s.running && !stop }
  | leave {i : ι} {rest : List ι} (hposition : s.position = .serving i rest)
      (hrest : S.atRest i (s.source i) = true) (hdrained : S.readable i (s.source i) = false) :
      Move S maxEvents s .leave { s with position := if s.running then .batch rest else .ended }

theorem move_of_step {a : Label ι ε α} (h : step S maxEvents s a = some t) : Move S maxEvents s a t := by
  cases a with
  | outside i e =>
      obtain ⟨b, houtside, rfl⟩ := Option.map_eq_some_iff.mp h
      exact .outside houtside
  | interrupted =>
      simp only [step] at h
      split at h
      · rename_i hposition
        obtain rfl := Option.some.inj h
        exact .interrupted hposition
      · cases h
  | register r =>
      simp only [step] at h
      split at h
      · rename_i hposition
        obtain rfl := Option.some.inj h
        exact .watched hposition
      · rename_i hposition
        obtain rfl := Option.some.inj h
        exact .unwatched hposition
      · rename_i hposition
        obtain rfl := Option.some.inj h
        exact .aborted hposition
      · cases h
  | wait =>
      simp only [step] at h
      split at h
      · rename_i hposition
        split at h
        · cases h
        · rename_i hsome
          obtain rfl := Option.some.inj h
          cases hcollect : collect (fun i => S.readable i (s.source i)) maxEvents s.ready with
          | mk events ready =>
              cases events with
              | nil =>
                  rw [hcollect] at hsome
                  exact absurd rfl hsome
              | cons i rest => exact .wait hposition hcollect
      · cases h
  | next =>
      simp only [step] at h
      split at h
      · rename_i hposition
        obtain rfl := Option.some.inj h
        exact .start hposition
      · rename_i hposition
        obtain rfl := Option.some.inj h
        exact .again hposition
      · rename_i hposition
        obtain rfl := Option.some.inj h
        exact .call hposition
      · cases h
  | serve i a =>
      simp only [step] at h
      split at h
      · rename_i j rest hposition
        split at h
        · rename_i hij
          subst hij
          obtain ⟨⟨b, stop⟩, hserve, rfl⟩ := Option.map_eq_some_iff.mp h
          exact .serve hposition hserve
        · cases h
      · cases h
  | leave =>
      simp only [step] at h
      split at h
      · rename_i i rest hposition
        split at h
        · rename_i hreturns
          obtain rfl := Option.some.inj h
          rw [Bool.and_eq_true, Bool.not_eq_true'] at hreturns
          exact .leave hposition hreturns.1 hreturns.2
        · cases h
      · cases h

/-! ## Nothing readable is forgotten -/

/-- Up to the end, what is readable is in the kernel's list or in the batch, and only the handler that was called is
not at rest. -/
structure Inv (S : Sources ι β ε α) (s : Loop ι β) : Prop where
  reported : s.position ≠ .ended → ∀ i ∈ s.watched, S.readable i (s.source i) = true →
    i ∈ s.ready ∨ i ∈ s.position.engaged
  rests : ∀ i, S.atRest i (s.source i) = true ∨ ∃ rest, s.position = .serving i rest
  covers : s.position ≠ .ended → ∀ i, i ∈ s.watched ∨ ∃ todo, s.position = .watching todo ∧ i ∈ todo

omit [DecidableEq ι] in
theorem inv_starting {todo : List ι} (htodo : ∀ i, i ∈ todo) {source : ∀ i, β i}
    (hrest : ∀ i, S.atRest i (source i) = true) : Inv S (starting todo source) := by
  refine ⟨?_, fun i => .inl (hrest i), fun _ i => .inr ⟨todo, rfl, htodo i⟩⟩
  intro _ i hi
  cases hi

omit [DecidableEq ι] in
/-- After the registrations everything is watched. -/
theorem Inv.mem_watched (hs : Inv S s) (hne : s.position ≠ .ended)
    (hdone : ∀ todo, s.position = .watching todo → todo = []) (i : ι) : i ∈ s.watched := by
  rcases hs.covers hne i with hmem | ⟨todo, htodo, hmem⟩
  · exact hmem
  · rw [hdone todo htodo] at hmem
    cases hmem

omit [DecidableEq ι] in
/-- Outside a call every handler is at rest. -/
theorem Inv.atRest (hs : Inv S s) (hidle : ∀ i rest, s.position ≠ .serving i rest) (i : ι) :
    S.atRest i (s.source i) = true := by
  rcases hs.rests i with hrest | ⟨rest, hserving⟩
  · exact hrest
  · exact absurd hserving (hidle i rest)

omit [DecidableEq ι] in
/-- Outside a batch what is readable is in the kernel's list. -/
theorem Inv.mem_ready (hs : Inv S s) (hne : s.position ≠ .ended) (hnone : s.position.engaged = []) {i : ι}
    (hi : i ∈ s.watched) (hread : S.readable i (s.source i) = true) : i ∈ s.ready := by
  rcases hs.reported hne i hi hread with hmem | hmem
  · exact hmem
  · rw [hnone] at hmem
    cases hmem

omit [DecidableEq ι] in
/-- The loop moves on to where every descriptor of its batch is still in it, if it is readable. -/
theorem Inv.moved (hs : Inv S s) (hne : s.position ≠ .ended)
    (hdone : ∀ todo, s.position = .watching todo → todo = []) {p : Position ι} {running : Bool}
    (hengaged : p ≠ .ended → ∀ i ∈ s.position.engaged, S.readable i (s.source i) = true → i ∈ p.engaged)
    (hrests : ∀ i, S.atRest i (s.source i) = true ∨ ∃ rest, p = .serving i rest) :
    Inv S { s with position := p, running } := by
  refine ⟨?_, hrests, ?_⟩
  · intro hp i hi hread
    exact (hs.reported hne i hi hread).imp_right fun hmem => hengaged hp i hmem hread
  · intro _ i
    exact .inl (hs.mem_watched hne hdone i)

/-- What becomes readable wakes the loop, or was reported before. -/
theorem Inv.outside (hs : Inv S s) {i : ι} {e : ε i} {b : β i} (houtside : S.outside i (s.source i) e = some b) :
    Inv S { s with
      source := Function.update s.source i b
      ready := if S.wakes i e && decide (i ∈ s.watched) then raise i s.ready else s.ready } := by
  have hkept : ∀ {j}, j ∈ s.ready →
      j ∈ if S.wakes i e && decide (i ∈ s.watched) then raise i s.ready else s.ready := mem_raise_if
  refine ⟨?_, ?_, hs.covers⟩
  · intro hposition j hj hread
    by_cases hij : j = i
    · subst hij
      simp only [Function.update_self] at hread
      rcases S.readable_outside houtside hread with hbefore | hwakes
      · exact (hs.reported hposition j hj hbefore).imp_left hkept
      · left
        simp [hwakes, hj, mem_raise]
    · simp only [Function.update_of_ne hij] at hread
      exact (hs.reported hposition j hj hread).imp_left hkept
  · intro j
    by_cases hij : j = i
    · subst hij
      simp only [Function.update_self, S.atRest_outside houtside]
      exact hs.rests j
    · simp only [Function.update_of_ne hij]
      exact hs.rests j

/-- A descriptor that is readable when it is registered is reported at once. -/
theorem Inv.watched (hs : Inv S s) {i : ι} {todo : List ι} (hposition : s.position = .watching (i :: todo)) :
    Inv S { s with
      position := .watching todo
      watched := i :: s.watched
      ready := if S.readable i (s.source i) then raise i s.ready else s.ready } := by
  refine ⟨?_, ?_, ?_⟩
  · intro _ j hj hread
    left
    dsimp only at hread ⊢
    rcases List.mem_cons.mp hj with rfl | hmem
    · rw [if_pos hread]
      exact mem_raise.mpr (.inl rfl)
    · exact mem_raise_if (hs.mem_ready (by simp [hposition]) (by simp [hposition, Position.engaged]) hmem hread)
  · intro j
    exact .inl (hs.atRest (by simp [hposition]) j)
  · intro _ j
    rcases hs.covers (by simp [hposition]) j with hmem | ⟨todo', htodo, hmem⟩
    · exact .inl (List.mem_cons_of_mem _ hmem)
    · rw [hposition] at htodo
      cases htodo
      rcases List.mem_cons.mp hmem with rfl | hrest
      · exact .inl List.mem_cons_self
      · exact .inr ⟨todo, rfl, hrest⟩

omit [DecidableEq ι] in
/-- `epoll_wait` takes nothing readable off the list without reporting it. -/
theorem Inv.wait (hs : Inv S s) {i : ι} {rest ready : List ι} (hposition : s.position = .waiting)
    (hcollect : collect (fun i => S.readable i (s.source i)) maxEvents s.ready = (i :: rest, ready)) :
    Inv S { s with position := .batch (i :: rest), ready } := by
  have hdone : ∀ todo, s.position = .watching todo → todo = [] := by simp [hposition]
  refine ⟨?_, ?_, ?_⟩
  · intro _ j hj hread
    have hmem : j ∈ s.ready :=
      hs.mem_ready (by simp [hposition]) (by simp [hposition, Position.engaged]) hj hread
    let readable : ι → Bool := fun i => S.readable i (s.source i)
    have hreadable : readable j = true := hread
    have hcollected : j ∈ (collect readable maxEvents s.ready).1 ∨ j ∈ (collect readable maxEvents s.ready).2 :=
      mem_collect hreadable hmem
    rw [hcollect] at hcollected
    exact hcollected.symm
  · intro j
    exact .inl (hs.atRest (by simp [hposition]) j)
  · intro _ j
    exact .inl (hs.mem_watched (by simp [hposition]) hdone j)

/-- The descriptor that is served stays engaged, so that whatever its handler leaves unread is not forgotten. -/
theorem Inv.serve (hs : Inv S s) {i : ι} {rest : List ι} (hposition : s.position = .serving i rest) (b : β i)
    (running : Bool) : Inv S { s with source := Function.update s.source i b, running } := by
  refine ⟨?_, ?_, hs.covers⟩
  · intro hne j hj hread
    by_cases hij : j = i
    · subst hij
      right
      dsimp only
      rw [hposition]
      exact List.mem_cons_self
    · simp only [Function.update_of_ne hij] at hread
      exact hs.reported hne j hj hread
  · intro j
    by_cases hij : j = i
    · subst hij
      exact .inr ⟨rest, hposition⟩
    · simp only [Function.update_of_ne hij]
      exact hs.rests j

omit [DecidableEq ι] in
/-- A handler that returns has emptied its descriptor: the rest of the batch is all that is left of it. -/
theorem Inv.leave (hs : Inv S s) {i : ι} {rest : List ι} (hposition : s.position = .serving i rest)
    (hrest : S.atRest i (s.source i) = true) (hdrained : S.readable i (s.source i) = false) :
    Inv S { s with position := if s.running then .batch rest else .ended } := by
  apply hs.moved (by simp [hposition])
  · simp [hposition]
  · intro hne j hj hread
    split at hne
    · rename_i hrunning
      rw [if_pos hrunning]
      rw [hposition] at hj
      rcases List.mem_cons.mp hj with rfl | hmem
      · rw [hdrained] at hread
        cases hread
      · exact hmem
    · exact absurd rfl hne
  · intro j
    rcases hs.rests j with hj | ⟨rest', hserving⟩
    · exact .inl hj
    · rw [hposition] at hserving
      cases hserving
      exact .inl hrest

theorem inv_step {a : Label ι ε α} (h : step S maxEvents s a = some t) (hok : Registers a) (hs : Inv S s) :
    Inv S t := by
  have hmove := move_of_step h
  cases hmove with
  | outside houtside => exact hs.outside houtside
  | interrupted => exact hs
  | watched hposition => exact hs.watched hposition
  | unwatched => exact absurd (hok _ rfl) (by simp)
  | aborted => exact absurd (hok _ rfl) (by simp)
  | wait hposition hcollect => exact hs.wait hposition hcollect
  | start hposition =>
      apply hs.moved (by simp [hposition])
      · intro todo htodo
        rw [hposition] at htodo
        cases htodo
        rfl
      · intro _ i hi
        simp [hposition, Position.engaged] at hi
      · intro i
        exact .inl (hs.atRest (by simp [hposition]) i)
  | again hposition =>
      apply hs.moved (by simp [hposition])
      · simp [hposition]
      · intro _ i hi
        simp [hposition, Position.engaged] at hi
      · intro i
        exact .inl (hs.atRest (by simp [hposition]) i)
  | call hposition =>
      -- the descriptor whose handler is called is still engaged
      apply hs.moved (by simp [hposition])
      · simp [hposition]
      · intro _ j hj _
        rwa [hposition] at hj
      · intro j
        exact .inl (hs.atRest (by simp [hposition]) j)
  | @serve i rest a b stop hposition _ => exact hs.serve hposition b (s.running && !stop)
  | leave hposition hrest hdrained => exact hs.leave hposition hrest hdrained

omit [DecidableEq ι] in
/-- The loop sleeps only when nothing is readable and every handler is at rest. -/
theorem asleep_unreadable (hmax : 0 < maxEvents) (hs : Inv S s) (hasleep : Asleep S maxEvents s) (i : ι) :
    S.readable i (s.source i) = false ∧ S.atRest i (s.source i) = true := by
  obtain ⟨hposition, hcollect⟩ := hasleep
  have hwatched : i ∈ s.watched := by
    apply hs.mem_watched
    · simp [hposition]
    · simp [hposition]
  constructor
  · by_contra hread
    rw [Bool.not_eq_false] at hread
    have hmem : i ∈ s.ready :=
      hs.mem_ready (by simp [hposition]) (by simp [hposition, Position.engaged]) hwatched hread
    have hquiet : S.readable i (s.source i) = false := readable_eq_false_of_collect hmax hcollect hmem
    rw [hquiet] at hread
    cases hread
  · exact hs.atRest (by simp [hposition]) i

/-! ## What holds of every descriptor -/

/-- What everything that happens to a descriptor keeps holds of all of them. -/
theorem source_step {P : ∀ i, β i → Prop}
    (houtside : ∀ {i b e b'}, S.outside i b e = some b' → P i b → P i b')
    (hserve : ∀ {i b a b' stop}, S.serve i b a = some (b', stop) → P i b → P i b') {a : Label ι ε α}
    (h : step S maxEvents s a = some t) (hs : ∀ i, P i (s.source i)) (i : ι) : P i (t.source i) := by
  have hmove := move_of_step h
  cases hmove with
  | @outside j e b hb =>
      exact (Function.forall_update_iff s.source P).mpr ⟨houtside hb (hs j), fun k _ => hs k⟩ i
  | @serve j rest a b stop hposition hb =>
      exact (Function.forall_update_iff s.source P).mpr ⟨hserve hb (hs j), fun k _ => hs k⟩ i
  | _ => exact hs i

/-- A loop that is under way stops for a reason, and does not sleep again. -/
structure Stops (Q : ∀ i, β i → Prop) (s : Loop ι β) : Prop where
  reason : s.running = false → (∃ todo, s.position = .watching todo) ∨ ∃ i, Q i (s.source i)
  awake : s.position = .waiting → s.running = true
  ended : s.position = .ended → s.running = false

omit [DecidableEq ι] in
/-- A loop that has been under way stops because a handler asked for it. -/
theorem Stops.asked {Q : ∀ i, β i → Prop} (hs : Stops Q s) (hunder : ∀ todo, s.position ≠ .watching todo)
    (hstop : s.running = false) : ∃ i, Q i (s.source i) := by
  rcases hs.reason hstop with ⟨todo, htodo⟩ | hreason
  · exact absurd htodo (hunder todo)
  · exact hreason

theorem stops_step {Q : ∀ i, β i → Prop}
    (houtside : ∀ {i b e b'}, S.outside i b e = some b' → Q i b → Q i b')
    (hserve : ∀ {i b a b' stop}, S.serve i b a = some (b', stop) → Q i b ∨ stop = true → Q i b') {a : Label ι ε α}
    (h : step S maxEvents s a = some t) (hok : Registers a) (hs : Stops Q s) : Stops Q t := by
  have hmove := move_of_step h
  cases hmove with
  | @outside j e b hb =>
      -- the reason may stand with the descriptor to which something happens
      refine ⟨?_, hs.awake, hs.ended⟩
      intro hstop
      refine (hs.reason hstop).imp_right ?_
      rintro ⟨i, hi⟩
      refine ⟨i, ?_⟩
      by_cases hij : i = j
      · subst hij
        simp only [Function.update_self]
        exact houtside hb hi
      · simp only [Function.update_of_ne hij]
        exact hi
  | interrupted => exact hs
  | @watched i todo hposition => exact ⟨fun _ => .inl ⟨todo, rfl⟩, nofun, nofun⟩
  | unwatched => exact absurd (hok _ rfl) (by simp)
  | aborted => exact absurd (hok _ rfl) (by simp)
  | wait hposition hcollect =>
      refine ⟨?_, nofun, nofun⟩
      intro hstop
      exact Bool.noConfusion ((hs.awake hposition).symm.trans hstop)
  | start hposition => exact ⟨Bool.noConfusion, fun _ => rfl, nofun⟩
  | again hposition =>
      refine ⟨?_, ?_, ?_⟩
      · intro hstop
        exact .inr (hs.asked (by simp [hposition]) hstop)
      · intro hwaiting
        by_contra hstop
        rw [if_neg hstop] at hwaiting
        cases hwaiting
      · intro hended
        by_contra hrunning
        rw [if_pos (by simpa using hrunning)] at hended
        cases hended
  | call hposition =>
      refine ⟨?_, nofun, nofun⟩
      intro hstop
      exact .inr (hs.asked (by simp [hposition]) hstop)
  | @serve j rest a b stop hposition hb =>
      refine ⟨?_, ?_, ?_⟩
      · intro hstop
        right
        -- this handler asks now, or one has asked before
        by_cases hasked : stop = true
        · refine ⟨j, ?_⟩
          simp only [Function.update_self]
          exact hserve hb (.inr hasked)
        · have hbefore : s.running = false := by simpa [hasked] using hstop
          obtain ⟨i, hi⟩ := hs.asked (by simp [hposition]) hbefore
          refine ⟨i, ?_⟩
          by_cases hij : i = j
          · subst hij
            simp only [Function.update_self]
            exact hserve hb (.inl hi)
          · simp only [Function.update_of_ne hij]
            exact hi
      · intro hwaiting
        simp [hposition] at hwaiting
      · intro hended
        simp [hposition] at hended
  | leave hposition hrest hdrained =>
      refine ⟨?_, ?_, ?_⟩
      · intro hstop
        exact .inr (hs.asked (by simp [hposition]) hstop)
      · intro hwaiting
        dsimp only at hwaiting
        split at hwaiting
        · cases hwaiting
        · cases hwaiting
      · intro hended
        by_contra hrunning
        rw [if_pos (by simpa using hrunning)] at hended
        cases hended

/-! ## The loop comes to rest -/

variable [Fintype ι]

/-- What there is to do: the steps of the handlers, the descriptors to report and the rest of the batch. -/
def measure (S : Sources ι β ε α) (s : Loop ι β) : Nat :=
  ∑ i, S.weight i (s.source i) + 4 * s.ready.length + s.position.weight

theorem measure_step {a : Label ι ε α} (h : step S maxEvents s a = some t) (hown : a.own = true) :
    measure S t < measure S s := by
  have hmove := move_of_step h
  cases hmove with
  | outside houtside => cases hown
  | interrupted hposition => cases hown
  | @watched i todo hposition =>
      -- a registration counts 5, of which 4 go to the descriptor if it is reported at once
      have hready : (if S.readable i (s.source i) then raise i s.ready else s.ready).length ≤ s.ready.length + 1 := by
        split
        · exact length_raise_le i s.ready
        · exact Nat.le_succ _
      simp only [measure, hposition, Position.weight, List.length_cons]
      omega
  | unwatched hposition =>
      simp only [measure, hposition, Position.weight, List.length_cons]
      omega
  | aborted hposition =>
      simp only [measure, hposition, Position.weight]
      omega
  | @wait i rest ready hposition hcollect =>
      -- what is handed out counts 4 in the kernel's list and 2 in the batch
      have hlength := length_collect_le (fun i => S.readable i (s.source i)) maxEvents s.ready
      rw [hcollect] at hlength
      simp only [measure, hposition, Position.weight, List.length_cons] at hlength ⊢
      omega
  | start hposition =>
      simp only [measure, hposition, Position.weight]
      omega
  | again hposition =>
      have hweight : (if s.running then Position.waiting else (Position.ended : Position ι)).weight = 0 := by
        split <;> rfl
      simp only [measure, hposition, hweight]
      exact Nat.lt_succ_self _
  | call hposition =>
      simp only [measure, hposition, Position.weight, List.length_cons]
      omega
  | @serve i rest a b stop hposition hserve =>
      have hsum : ∑ j, S.weight j (Function.update s.source i b j) < ∑ j, S.weight j (s.source j) := by
        apply Finset.sum_lt_sum
        · intro j _
          by_cases hij : j = i
          · subst hij
            rw [Function.update_self]
            exact (S.weight_serve hserve).le
          · rw [Function.update_of_ne hij]
        · refine ⟨i, Finset.mem_univ i, ?_⟩
          rw [Function.update_self]
          exact S.weight_serve hserve
      simp only [measure]
      omega
  | @leave i rest hposition hrest hdrained =>
      have hweight : (if s.running then Position.batch rest else .ended).weight ≤ 2 * rest.length + 1 := by
        split
        · exact Nat.le_refl _
        · exact Nat.zero_le _
      simp only [measure, hposition] at hweight ⊢
      rw [Position.weight]
      omega

/-- Left to itself, the loop takes no more steps than there is to do. -/
theorem length_add_measure_le {as : List (Label ι ε α)} (hown : ∀ a ∈ as, a.own = true) {s : Loop ι β}
    (h : replay (step S maxEvents) s as = some t) : as.length + measure S t ≤ measure S s := by
  induction as generalizing s with
  | nil =>
      obtain rfl := Option.some.inj h
      exact Nat.le_of_eq (Nat.zero_add _)
  | cons a as ih =>
      obtain ⟨u, hu, hrest⟩ := Option.bind_eq_some_iff.mp h
      have hstep := measure_step hu (hown a List.mem_cons_self)
      have htail := ih (fun b hb => hown b (List.mem_cons_of_mem _ hb)) hrest
      rw [List.length_cons]
      omega

omit [Fintype ι] in
/-- A loop without a step of its own is asleep or has ended. -/
theorem asleep_or_ended (s : Loop ι β) :
    (Asleep S maxEvents s ∨ s.position = .ended) ∨
      ∃ a, Label.own a = true ∧ (step S maxEvents s a).isSome = true := by
  cases hposition : s.position with
  | watching todo =>
      right
      cases todo with
      | nil => exact ⟨.next, rfl, by rw [step, hposition]; rfl⟩
      | cons i todo => exact ⟨.register .watched, rfl, by simp only [step, hposition, Option.isSome_some]⟩
  | waiting =>
      by_cases hcollect : (collect (fun i => S.readable i (s.source i)) maxEvents s.ready).1 = []
      · exact .inl (.inl ⟨hposition, hcollect⟩)
      · right
        refine ⟨.wait, rfl, ?_⟩
        simp only [step, hposition]
        rw [if_neg fun hnil => hcollect (List.isEmpty_iff.mp hnil)]
        rfl
  | batch rest =>
      right
      cases rest with
      | nil => exact ⟨.next, rfl, by rw [step, hposition]; rfl⟩
      | cons i rest => exact ⟨.next, rfl, by rw [step, hposition]; rfl⟩
  | serving i rest =>
      right
      cases hreturns : S.atRest i (s.source i) && !S.readable i (s.source i) with
      | false =>
          obtain ⟨a, ha⟩ := S.exists_serve hreturns
          refine ⟨.serve i a, rfl, ?_⟩
          simp only [step, hposition, if_true, Option.isSome_map]
          exact ha
      | true =>
          refine ⟨.leave, rfl, ?_⟩
          simp only [step, hposition, hreturns, if_true, Option.isSome_some]
  | ended => exact .inl (.inr rfl)

/-- Left to itself, the loop falls asleep or ends. -/
theorem settles (s : Loop ι β) :
    ∃ as t, (∀ a ∈ as, Label.own a = true) ∧ replay (step S maxEvents) s as = some t ∧
      (Asleep S maxEvents t ∨ t.position = .ended) := by
  induction hn : measure S s using Nat.strong_induction_on generalizing s with
  | _ n ih =>
      rcases asleep_or_ended s with hrest | ⟨a, hown, hstep⟩
      · exact ⟨[], s, List.forall_mem_nil _, rfl, hrest⟩
      · obtain ⟨u, hu⟩ := Option.isSome_iff_exists.mp hstep
        obtain ⟨as, t, has, hreplay, hrest⟩ := ih (measure S u) (hn ▸ measure_step hu hown) u rfl
        refine ⟨a :: as, t, ?_, ?_, hrest⟩
        · intro b hb
          rcases List.mem_cons.mp hb with rfl | hmem
          · exact hown
          · exact has b hmem
        · rw [replay, hu]
          exact hreplay

end Steps

end NeoZygisk.Lib.EdgeTriggered
