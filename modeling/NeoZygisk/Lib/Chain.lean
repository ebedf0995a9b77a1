import Mathlib.Data.List.Basic

/-!
# Search along chains

A chain leads from an entry to the next one until it stops. A search follows it to the first entry that is hit;
it has fuel, since a chain may run in a circle. On a chain that stops the search is the one in the list of its
entries (`search_eq_find?`).

A hash table has a chain for every key. If each entry it covers stands in the chain of its key, a search that
hits nothing means that no covered entry of the key is hit (`Table.search_spec`).
-/

set_option autoImplicit false

namespace NeoZygisk.Lib.Chain

universe u v w

variable {α : Type u} {κ : Type v} {next : α → Option α} {hit : α → Bool} {start : Option α} {l l' : List α}

/-- The first entry that is hit, if there is one; `none` when the fuel runs out. -/
def search (next : α → Option α) (hit : α → Bool) : Nat → Option α → Option (Option α)
  | _, none => some none
  | 0, some _ => none
  | fuel + 1, some a => if hit a then some (some a) else search next hit fuel (next a)

/-- The chain from `start` on stops, and these are its entries. -/
inductive Trail (next : α → Option α) : Option α → List α → Prop where
  | stop : Trail next none []
  | step {a : α} {l : List α} : Trail next (next a) l → Trail next (some a) (a :: l)

/-- A chain that stops has one list of entries. -/
theorem Trail.unique (h : Trail next start l) (h' : Trail next start l') : l = l' := by
  induction h generalizing l' with
  | stop =>
      cases h'
      rfl
  | step _ ih =>
      cases h' with
      | step h' => rw [ih h']

/-- A search along a chain that stops is one in the list of its entries. -/
theorem search_eq_find? (h : Trail next start l) {fuel : Nat} (hfuel : l.length ≤ fuel) :
    search next hit fuel start = some (l.find? hit) := by
  induction h generalizing fuel with
  | stop => cases fuel <;> rfl
  | @step a l _ ih =>
      cases fuel with
      | zero => exact absurd hfuel (Nat.not_succ_le_zero l.length)
      | succ fuel =>
          rw [search, List.find?_cons]
          cases hit a with
          | true => rfl
          | false => exact ih (Nat.le_of_succ_le_succ hfuel)

/-! ## Hash tables with chains -/

/-- Where the chain of a key starts, and how it goes on. -/
structure Table (κ : Type v) (α : Type u) where
  start : κ → Option α
  next : α → Option α

namespace Table

/-- Every chain stops and leads through covered entries only, and every covered entry stands in the chain of its
key. -/
structure WellFormed (t : Table κ α) (covers : α → Prop) (key : α → κ) : Prop where
  terminated : ∀ k, ∃ l, Trail t.next (t.start k) l ∧ ∀ a ∈ l, covers a
  placed : ∀ a, covers a → ∃ l, Trail t.next (t.start (key a)) l ∧ a ∈ l

/-- A table with a chain for each bucket. -/
theorem WellFormed.of_buckets {β : Type w} {t : Table κ α} {covers : α → Prop} {key : α → κ} (bucket : κ → β)
    (chains : β → List α) (htrail : ∀ k, Trail t.next (t.start k) (chains (bucket k)))
    (hcovers : ∀ b, ∀ a ∈ chains b, covers a) (hplaced : ∀ a, covers a → a ∈ chains (bucket (key a))) :
    t.WellFormed covers key := by
  constructor
  · intro k
    exact ⟨chains (bucket k), htrail k, hcovers (bucket k)⟩
  · intro a ha
    exact ⟨chains (bucket (key a)), htrail (key a), hplaced a ha⟩

/-- With enough fuel a search comes to a covered entry that is hit, or no covered entry of the key is hit. -/
theorem search_spec {t : Table κ α} {covers : α → Prop} {key : α → κ} (h : t.WellFormed covers key)
    (hit : α → Bool) (k : κ) :
    ∃ bound, ∃ found : Option α, (∀ fuel, bound ≤ fuel → search t.next hit fuel (t.start k) = some found) ∧
      (∀ a, found = some a → covers a ∧ hit a = true) ∧
      (found = none → ∀ a, covers a → key a = k → hit a = false) := by
  obtain ⟨l, htrail, hcovers⟩ := h.terminated k
  refine ⟨l.length, l.find? hit, fun fuel hfuel => search_eq_find? htrail hfuel, ?_, ?_⟩
  · intro a ha
    exact ⟨hcovers a (List.mem_of_find?_eq_some ha), List.find?_some ha⟩
  · rintro hnone a ha rfl
    obtain ⟨l', htrail', hmem⟩ := h.placed a ha
    rw [← htrail.unique htrail'] at hmem
    simpa using List.find?_eq_none.mp hnone a hmem

end Table

end NeoZygisk.Lib.Chain
