import Mathlib.Data.List.Basic

/-!
# Logged reads

A computation that reads a store cell by cell is a value together with the addresses that were read for it
(`Reads`). Computations are put together in order (`>>=`). `Within p x` says that `x` reads addresses with `p`
only; the rules `within_pure`, `within_read` and `within_bind` follow the way `x` is built, where the rule for a
sequence gives its second part the value of the first.

For a computation that may give up (`OptionT`), `Attempts p x r` also states its outcome. A sequence goes on
(`attempts_seq`) or stops (`attempts_stop`) with its first part.
-/

set_option autoImplicit false

namespace NeoZygisk.Lib

universe u

/-- A value with the addresses that were read for it. -/
structure Reads (ι α : Type u) where
  value : α
  reads : List ι

namespace Reads

variable {ι α β : Type u}

instance : Monad (Reads ι) where
  pure a := ⟨a, []⟩
  bind x f := ⟨(f x.value).value, x.reads ++ (f x.value).reads⟩

/-- The content of one cell. -/
def read (store : ι → α) (a : ι) : Reads ι α := ⟨store a, [a]⟩

@[simp] theorem value_pure (a : α) : (pure a : Reads ι α).value = a := rfl

@[simp] theorem value_bind (x : Reads ι α) (f : α → Reads ι β) : (x >>= f).value = (f x.value).value := rfl

@[simp] theorem value_read (store : ι → α) (a : ι) : (read store a).value = store a := rfl

/-- Only addresses with `p` are read. -/
def Within (p : ι → Prop) (x : Reads ι α) : Prop := ∀ a ∈ x.reads, p a

variable {p : ι → Prop}

theorem within_pure (a : α) : Within p (pure a : Reads ι α) := by
  intro b hb
  cases hb

theorem within_read (store : ι → α) {a : ι} (h : p a) : Within p (read store a) := by
  intro b hb
  obtain rfl := List.mem_singleton.mp hb
  exact h

/-- The second part of a sequence is run on the value of the first. -/
theorem within_bind {x : Reads ι α} {f : α → Reads ι β} (hx : Within p x) (hf : Within p (f x.value)) :
    Within p (x >>= f) := by
  intro a ha
  rcases List.mem_append.mp ha with hfirst | hsecond
  · exact hx a hfirst
  · exact hf a hsecond

/-! ## Computations that may give up -/

/-- Only addresses with `p` are read, and the outcome is `r`. -/
structure Attempts (p : ι → Prop) (x : OptionT (Reads ι) α) (r : Option α) : Prop where
  within : Within p x.run
  outcome : x.run.value = r

theorem attempts_pure (a : α) : Attempts p (pure a : OptionT (Reads ι) α) (some a) := by
  constructor
  · exact within_pure (some a)
  · rfl

/-- A part that does not give up. -/
theorem attempts_lift {x : Reads ι α} (h : Within p x) :
    Attempts p (OptionT.lift x : OptionT (Reads ι) α) (some x.value) := by
  constructor
  · apply within_bind h
    exact within_pure (some x.value)
  · rfl

/-- What a sequence does after its first part. -/
theorem run_bind (x : OptionT (Reads ι) α) (f : α → OptionT (Reads ι) β) :
    (x >>= f).run = x.run >>= fun r => r.elim (pure none) fun a => (f a).run := by
  rw [OptionT.run_bind]
  rfl

/-- A sequence goes on with what its first part found. -/
theorem attempts_seq {x : OptionT (Reads ι) α} {f : α → OptionT (Reads ι) β} {a : α} {r : Option β}
    (hx : Attempts p x (some a)) (hf : Attempts p (f a) r) : Attempts p (x >>= f) r := by
  constructor
  · rw [run_bind]
    apply within_bind hx.within
    rw [hx.outcome]
    exact hf.within
  · rw [run_bind, value_bind, hx.outcome]
    exact hf.outcome

theorem attempts_stop {x : OptionT (Reads ι) α} {f : α → OptionT (Reads ι) β} (hx : Attempts p x none) :
    Attempts p (x >>= f) none := by
  constructor
  · rw [run_bind]
    apply within_bind hx.within
    rw [hx.outcome]
    exact within_pure none
  · rw [run_bind, value_bind, hx.outcome]
    rfl

section Guards

variable {κ : Type} {p : κ → Prop} {c : Prop} [Decidable c]

theorem attempts_guard (h : c) : Attempts p (guard c : OptionT (Reads κ) Unit) (some ()) := by
  rw [guard, if_pos h]
  exact attempts_pure ()

theorem attempts_guard_not (h : ¬ c) : Attempts p (guard c : OptionT (Reads κ) Unit) none := by
  rw [guard, if_neg h]
  constructor
  · exact within_pure none
  · rfl

end Guards

end Reads

end NeoZygisk.Lib
