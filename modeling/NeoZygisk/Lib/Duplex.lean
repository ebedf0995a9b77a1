import Mathlib.Logic.Relation
import Mathlib.Order.GameAdd
import Mathlib.Order.WellFounded
import NeoZygisk.Lib.Stream

/-!
# Two parties on a stream socket

A party sends, waits for a number of bytes, or is done and has closed its end. Sends and receives go through in
pieces of any size. A party gets fewer bytes than it waits for only if the other end is closed and nothing is left to
read; what is sent to a closed end stays in the stream.

However the two take turns, they end (`not_forever`), and they end alike: if some run comes to a configuration in
which no step is left, every other run can be continued to it (`reaches_end`). `reaches_up`, `reaches_down` and
`reaches_eof` build such a run from messages that are received as they were sent.
-/

set_option autoImplicit false

namespace NeoZygisk.Lib.Duplex

open NeoZygisk.Lib.Stream
open Relation

/-- A party with a result. `got` is what has come of the bytes that a `recv` waits for, `n` how many are missing. -/
inductive Party (α ρ : Type) where
  | done (result : ρ)
  | send (cells : List (Cell α)) (next : Party α ρ)
  | recv (n : Nat) (got : List (Cell α)) (next : List (Cell α) → Party α ρ)

def Party.closed {α ρ : Type} : Party α ρ → Bool
  | .done _ => true
  | .send _ _ => false
  | .recv _ _ _ => false

/-- One move of a party, with what it takes from the stream that comes in and what it adds to the one that goes out.
`eof` is the end of the stream that comes in. -/
inductive Moves {α ρ : Type} (eof : Prop) : Party α ρ → List (Cell α) → List (Cell α) → Party α ρ → Prop where
  | push {cells : List (Cell α)} {next : Party α ρ} {k : Nat} (hpos : 0 < k) (hk : k ≤ cells.length) :
      Moves eof (.send cells next) [] (cells.take k) (.send (cells.drop k) next)
  | sent {next : Party α ρ} : Moves eof (.send [] next) [] [] next
  | pull {cells got : List (Cell α)} {n : Nat} {next : List (Cell α) → Party α ρ} (hne : cells ≠ [])
      (hn : cells.length ≤ n) :
      Moves eof (.recv n got next) cells [] (.recv (n - cells.length) (got ++ cells) next)
  | full {got : List (Cell α)} {next : List (Cell α) → Party α ρ} :
      Moves eof (.recv 0 got next) [] [] (next got)
  | ended {got : List (Cell α)} {n : Nat} {next : List (Cell α) → Party α ρ} (heof : eof) :
      Moves eof (.recv (n + 1) got next) [] [] (next got)

/-- Both parties and what is on its way to the server and to the client. -/
@[ext] structure Conn (α ρ σ : Type) where
  client : Party α ρ
  server : Party α σ
  up : List (Cell α)
  down : List (Cell α)

variable {α ρ σ : Type}

inductive Step : Conn α ρ σ → Conn α ρ σ → Prop where
  | client {c : Conn α ρ σ} {taken sent down : List (Cell α)} {p : Party α ρ} (hdown : c.down = taken ++ down)
      (hmove : Moves (c.server.closed = true ∧ c.down = []) c.client taken sent p) :
      Step c ⟨p, c.server, c.up ++ sent, down⟩
  | server {c : Conn α ρ σ} {taken sent up : List (Cell α)} {p : Party α σ} (hup : c.up = taken ++ up)
      (hmove : Moves (c.client.closed = true ∧ c.up = []) c.server taken sent p) :
      Step c ⟨c.client, p, up, c.down ++ sent⟩

abbrev Reaches : Conn α ρ σ → Conn α ρ σ → Prop := ReflTransGen Step

/-- Nothing is left to do. -/
def Ended (c : Conn α ρ σ) : Prop := ∀ c', ¬ Step c c'

/-! ## Moves -/

theorem Moves.closed_eq_false {eof : Prop} {p p' : Party α ρ} {taken sent : List (Cell α)}
    (h : Moves eof p taken sent p') : p.closed = false := by
  cases h <;> rfl

/-- Away from its end, more can come in. -/
theorem Moves.of_not_eof {eof eof' : Prop} {p p' : Party α ρ} {taken sent : List (Cell α)}
    (h : Moves eof p taken sent p') (hno : ¬ eof) : Moves eof' p taken sent p' := by
  cases h with
  | push hpos hk => exact .push hpos hk
  | sent => exact .sent
  | pull hne hn => exact .pull hne hn
  | full => exact .full
  | ended heof => exact absurd heof hno

/-! ## Both ends alike -/

def Conn.swap (c : Conn α ρ σ) : Conn α σ ρ := ⟨c.server, c.client, c.down, c.up⟩

theorem Step.swap {c c' : Conn α ρ σ} (h : Step c c') : Step c.swap c'.swap := by
  cases h with
  | client hdown hmove => exact Step.server (c := c.swap) hdown hmove
  | server hup hmove => exact Step.client (c := c.swap) hup hmove

theorem Reaches.swap {c c' : Conn α ρ σ} (h : Reaches c c') : Reaches c.swap c'.swap := by
  induction h with
  | refl => exact .refl
  | tail _ hstep ih => exact ih.tail hstep.swap

/-! ## Confluence -/

/-- Of two pieces that are sent the longer one can be made up from the shorter. -/
theorem step_push {server : Party α σ} {cells up down : List (Cell α)} {next : Party α ρ} {k l : Nat} (hkl : k < l)
    (hl : l ≤ cells.length) :
    Step ⟨.send (cells.drop k) next, server, up ++ cells.take k, down⟩
      ⟨.send (cells.drop l) next, server, up ++ cells.take l, down⟩ := by
  have hmove : Moves (server.closed = true ∧ down = []) (.send (cells.drop k) next) [] ((cells.drop k).take (l - k))
      (.send ((cells.drop k).drop (l - k)) next) := by
    apply Moves.push
    · omega
    · rw [List.length_drop]
      omega
  have hstep := Step.client (c := ⟨.send (cells.drop k) next, server, up ++ cells.take k, down⟩)
    (List.nil_append down).symm hmove
  have hdrop : (cells.drop k).drop (l - k) = cells.drop l := by
    rw [List.drop_drop, Nat.add_sub_cancel' (Nat.le_of_lt hkl)]
  have htake : cells.take k ++ (cells.drop k).take (l - k) = cells.take l := by
    rw [← List.take_add, Nat.add_sub_cancel' (Nat.le_of_lt hkl)]
  rwa [hdrop, List.append_assoc, htake] at hstep

/-- And so with what is received. -/
theorem step_pull {server : Party α σ} {up first second down got : List (Cell α)} {n : Nat}
    {next : List (Cell α) → Party α ρ} (hne : second ≠ []) (hn : (first ++ second).length ≤ n) :
    Step ⟨.recv (n - first.length) (got ++ first) next, server, up, second ++ down⟩
      ⟨.recv (n - (first ++ second).length) (got ++ (first ++ second)) next, server, up, down⟩ := by
  rw [List.length_append] at hn
  have hmove : Moves (server.closed = true ∧ second ++ down = []) (.recv (n - first.length) (got ++ first) next)
      second [] (.recv (n - first.length - second.length) (got ++ first ++ second) next) := by
    apply Moves.pull hne
    omega
  have hstep := Step.client
    (c := ⟨.recv (n - first.length) (got ++ first) next, server, up, second ++ down⟩) rfl hmove
  rwa [List.append_nil, Nat.sub_sub, ← List.length_append, List.append_assoc] at hstep

/-- Two moves of the same party come together. -/
theorem join_client {c : Conn α ρ σ} {taken sent down taken' sent' down' : List (Cell α)} {p p' : Party α ρ}
    (hdown : c.down = taken ++ down) (hdown' : c.down = taken' ++ down')
    (hmove : Moves (c.server.closed = true ∧ c.down = []) c.client taken sent p)
    (hmove' : Moves (c.server.closed = true ∧ c.down = []) c.client taken' sent' p') :
    ∃ d, ReflGen Step ⟨p, c.server, c.up ++ sent, down⟩ d ∧
      Reaches ⟨p', c.server, c.up ++ sent', down'⟩ d := by
  obtain ⟨client, server, up, inbox⟩ := c
  dsimp only at *
  cases hmove with
  | @push cells next k hpos hk =>
      obtain rfl : inbox = down := hdown
      cases hmove' with
      | @push _ _ l hpos' hl =>
          obtain rfl : inbox = down' := hdown'
          rcases Nat.lt_trichotomy k l with hkl | rfl | hlk
          · exact ⟨_, .single (step_push hkl hl), .refl⟩
          · exact ⟨_, .refl, .refl⟩
          · exact ⟨_, .refl, .single (step_push hlk hk)⟩
      | sent => exact absurd hk (by simp only [List.length_nil]; omega)
  | sent =>
      obtain rfl : inbox = down := hdown
      cases hmove' with
      | push hpos' hl => exact absurd hl (by simp only [List.length_nil]; omega)
      | sent =>
          obtain rfl : inbox = down' := hdown'
          exact ⟨_, .refl, .refl⟩
  | @pull _ got n next hne hn =>
      cases hmove' with
      | pull hne' hn' =>
          subst hdown
          -- one of the two pieces is the beginning of the other
          rcases List.append_eq_append_iff.mp hdown' with ⟨more, rfl, rfl⟩ | ⟨more, rfl, rfl⟩
          · rcases List.eq_nil_or_concat more with rfl | ⟨l, a, rfl⟩
            · simp only [List.append_nil, List.nil_append]
              exact ⟨_, .refl, .refl⟩
            · refine ⟨_, .single ?_, .refl⟩
              rw [List.append_nil]
              exact step_pull (by simp) hn'
          · rcases List.eq_nil_or_concat more with rfl | ⟨l, a, rfl⟩
            · simp only [List.append_nil, List.nil_append]
              exact ⟨_, .refl, .refl⟩
            · refine ⟨_, .refl, .single ?_⟩
              rw [List.append_nil]
              exact step_pull (by simp) hn
      | full =>
          exact absurd (List.length_eq_zero_iff.mp (Nat.le_zero.mp hn)) hne
      | ended heof =>
          rw [heof.2] at hdown
          exact absurd (List.append_eq_nil_iff.mp hdown.symm).1 hne
  | full =>
      obtain rfl : inbox = down := hdown
      cases hmove' with
      | pull hne' hn' => exact absurd (List.length_eq_zero_iff.mp (Nat.le_zero.mp hn')) hne'
      | full =>
          obtain rfl : inbox = down' := hdown'
          exact ⟨_, .refl, .refl⟩
  | ended heof =>
      obtain rfl : inbox = down := hdown
      cases hmove' with
      | pull hne' hn' =>
          rw [heof.2] at hdown'
          exact absurd (List.append_eq_nil_iff.mp hdown'.symm).1 hne'
      | ended _ =>
          obtain rfl : inbox = down' := hdown'
          exact ⟨_, .refl, .refl⟩

/-- Moves of different parties commute: what one adds stands behind what the other takes. -/
theorem join_both {c : Conn α ρ σ} {taken sent down taken' sent' up : List (Cell α)} {p : Party α ρ} {q : Party α σ}
    (hdown : c.down = taken ++ down) (hup : c.up = taken' ++ up)
    (hclient : Moves (c.server.closed = true ∧ c.down = []) c.client taken sent p)
    (hserver : Moves (c.client.closed = true ∧ c.up = []) c.server taken' sent' q) :
    Step ⟨p, c.server, c.up ++ sent, down⟩ ⟨p, q, up ++ sent, down ++ sent'⟩ ∧
      Step ⟨c.client, q, up, c.down ++ sent'⟩ ⟨p, q, up ++ sent, down ++ sent'⟩ := by
  have hopen : ¬ (c.server.closed = true ∧ c.down = []) := by
    rw [hserver.closed_eq_false]
    exact fun h => Bool.false_ne_true h.1
  have hopen' : ¬ (c.client.closed = true ∧ c.up = []) := by
    rw [hclient.closed_eq_false]
    exact fun h => Bool.false_ne_true h.1
  constructor
  · have hinbox : c.up ++ sent = taken' ++ (up ++ sent) := by rw [hup, List.append_assoc]
    exact Step.server (c := ⟨p, c.server, c.up ++ sent, down⟩) hinbox (hserver.of_not_eof hopen')
  · have hinbox : c.down ++ sent' = taken ++ (down ++ sent') := by rw [hdown, List.append_assoc]
    exact Step.client (c := ⟨c.client, q, up, c.down ++ sent'⟩) hinbox (hclient.of_not_eof hopen)

theorem join {c c₁ c₂ : Conn α ρ σ} (h₁ : Step c c₁) (h₂ : Step c c₂) :
    ∃ d, ReflGen Step c₁ d ∧ Reaches c₂ d := by
  cases h₁ with
  | client hdown hmove =>
      cases h₂ with
      | client hdown' hmove' => exact join_client hdown hdown' hmove hmove'
      | server hup' hmove' =>
          obtain ⟨hfirst, hsecond⟩ := join_both hdown hup' hmove hmove'
          exact ⟨_, .single hfirst, .single hsecond⟩
  | server hup hmove =>
      cases h₂ with
      | client hdown' hmove' =>
          obtain ⟨hfirst, hsecond⟩ := join_both hdown' hup hmove' hmove
          exact ⟨_, .single hsecond, .single hfirst⟩
      | server hup' hmove' =>
          obtain ⟨d, hfirst, hsecond⟩ := join_client (c := c.swap) hup hup' hmove hmove'
          refine ⟨d.swap, ?_, hsecond.swap⟩
          cases hfirst with
          | refl => exact .refl
          | single hstep => exact .single hstep.swap

theorem confluent {c c₁ c₂ : Conn α ρ σ} (h₁ : Reaches c c₁) (h₂ : Reaches c c₂) : Join Reaches c₁ c₂ :=
  church_rosser (fun _ _ _ => join) h₁ h₂

/-- Every run can be continued to where one of them ends. -/
theorem reaches_end {c c' t : Conn α ρ σ} (ht : Reaches c t) (hend : Ended t) (h : Reaches c c') : Reaches c' t := by
  obtain ⟨d, htd, hd⟩ := confluent ht h
  rcases htd.cases_head with rfl | ⟨d', hstep, -⟩
  · exact hd
  · exact absurd hstep (hend d')

theorem ended_done {result : ρ} {result' : σ} {up down : List (Cell α)} :
    Ended (⟨.done result, .done result', up, down⟩ : Conn α ρ σ) := by
  intro c' h
  cases h with
  | client _ hmove => cases hmove
  | server _ hmove => cases hmove

/-! ## Termination -/

/-- `p'` is what is left of `p` after one move. -/
def After (p' p : Party α ρ) : Prop := ∃ eof taken sent, Moves eof p taken sent p'

theorem acc_send {next : Party α ρ} (hnext : Acc After next) :
    ∀ (k : Nat) (cells : List (Cell α)), cells.length = k → Acc After (.send cells next) := by
  intro k
  induction k using Nat.strong_induction_on with
  | _ k ih =>
      intro cells hk
      refine Acc.intro _ ?_
      rintro p' ⟨eof, taken, sent, hmove⟩
      cases hmove with
      | push hpos hle =>
          refine ih _ ?_ _ rfl
          rw [List.length_drop]
          omega
      | sent => exact hnext

theorem acc_recv {next : List (Cell α) → Party α ρ} (hnext : ∀ cells, Acc After (next cells)) (n : Nat) :
    ∀ got, Acc After (.recv n got next) := by
  induction n using Nat.strong_induction_on with
  | _ n ih =>
      intro got
      refine Acc.intro _ ?_
      rintro p' ⟨eof, taken, sent, hmove⟩
      cases hmove with
      | pull hne hle =>
          have hpos := List.length_pos_iff.mpr hne
          exact ih _ (by omega) _
      | full => exact hnext got
      | ended => exact hnext got

theorem acc_party (p : Party α ρ) : Acc After p := by
  induction p with
  | done result =>
      refine Acc.intro _ ?_
      rintro p' ⟨eof, taken, sent, hmove⟩
      cases hmove
  | send cells next ih => exact acc_send ih cells.length cells rfl
  | recv n got next ih => exact acc_recv ih n got

/-- Every step is a move of one of the two. -/
theorem Step.gameAdd {c c' : Conn α ρ σ} (h : Step c c') :
    Prod.GameAdd After After (c'.client, c'.server) (c.client, c.server) := by
  cases h with
  | client hdown hmove => exact .fst ⟨_, _, _, hmove⟩
  | server hup hmove => exact .snd ⟨_, _, _, hmove⟩

/-- No run goes on for ever. -/
theorem not_forever (run : Nat → Conn α ρ σ) : ¬ ∀ n, Step (run n) (run (n + 1)) := by
  intro hrun
  have hwf : WellFounded (Prod.GameAdd (After (α := α) (ρ := ρ)) (After (α := α) (ρ := σ))) :=
    WellFounded.prod_gameAdd ⟨acc_party⟩ ⟨acc_party⟩
  exact (wellFounded_iff_isEmpty_descending_chain.mp hwf).elim
    ⟨fun n => ((run n).client, (run n).server), fun n => (hrun n).gameAdd⟩

/-! ## Messages -/

/-- The server waits for as many bytes as the client sends. -/
theorem reaches_up {cells : List (Cell α)} {n : Nat} (hn : cells.length = n) (client : Party α ρ)
    (next : List (Cell α) → Party α σ) :
    Reaches ⟨.send cells client, .recv n [] next, [], []⟩ ⟨client, next cells, [], []⟩ := by
  subst hn
  have hsent : Reaches (⟨.send cells client, .recv cells.length [] next, [], []⟩ : Conn α ρ σ)
      ⟨client, .recv cells.length [] next, cells, []⟩ := by
    cases cells with
    | nil => exact .single (Step.client (List.nil_append _).symm .sent)
    | cons a cells =>
        have hpush := Step.client (c := ⟨.send (a :: cells) client, .recv (a :: cells).length [] next, [], []⟩)
          (List.nil_append _).symm (Moves.push (k := (a :: cells).length) (Nat.succ_pos cells.length) (Nat.le_refl _))
        rw [List.take_length, List.drop_length] at hpush
        refine ReflTransGen.head hpush (.single ?_)
        have hdone := Step.client (c := ⟨.send [] client, .recv (a :: cells).length [] next, a :: cells, []⟩)
          (List.nil_append _).symm .sent
        rwa [List.append_nil] at hdone
  refine hsent.trans ?_
  cases cells with
  | nil => exact .single (Step.server (List.nil_append _).symm .full)
  | cons a cells =>
      have hpull := Step.server (c := ⟨client, .recv (a :: cells).length [] next, a :: cells, []⟩)
        (List.append_nil _).symm
        (Moves.pull (List.cons_ne_nil a cells) (Nat.le_refl (a :: cells).length))
      rw [Nat.sub_self] at hpull
      exact ReflTransGen.head hpull (.single (Step.server (List.nil_append _).symm .full))

theorem reaches_down {cells : List (Cell α)} {n : Nat} (hn : cells.length = n) (server : Party α σ)
    (next : List (Cell α) → Party α ρ) :
    Reaches ⟨.recv n [] next, .send cells server, [], []⟩ ⟨next cells, server, [], []⟩ :=
  (reaches_up hn server next).swap

/-- The client waits, but the server has closed its end. -/
theorem reaches_eof {n : Nat} (hn : 0 < n) (result : σ) (next : List (Cell α) → Party α ρ) :
    Reaches ⟨.recv n [] next, .done result, [], []⟩ ⟨next [], .done result, [], []⟩ := by
  cases n with
  | zero => exact absurd hn (Nat.lt_irrefl 0)
  | succ n => exact .single (Step.client (List.nil_append _).symm (.ended ⟨rfl, rfl⟩))

end NeoZygisk.Lib.Duplex
