import Mathlib.Data.List.Sort

/-!
# Selecting entries and listing them by descending key

`selectDesc key p l` keeps the entries of `l` that satisfy `p` and lists them by descending `key`.
On a list whose keys are distinct the result determines the selection: two predicates give the same
list exactly when they agree on every entry (`map_selectDesc_eq_iff`). Renaming the entries commutes
with the selection when it keeps the keys and the predicate (`map_selectDesc`). Of two selected entries the one
with the larger key comes first (`comesBefore_selectDesc_iff`).

A component that a fold sets at the entries of a kind has what the last of them set (`foldl_lastMatch`). A list
is matched by what a partial map makes of it if the map makes a match of every entry (`forall₂_filterMap_iff`).
-/

set_option autoImplicit false

namespace NeoZygisk.Lib.Selection

universe u v

variable {α : Type u} {β : Type v}

/-- The entries of `l` that satisfy `p`, by descending key. -/
def selectDesc (key : α → Nat) (p : α → Bool) (l : List α) : List α :=
  (l.filter p).insertionSort fun a b => key b ≤ key a

@[simp] theorem mem_selectDesc {key : α → Nat} {p : α → Bool} {l : List α} {a : α} :
    a ∈ selectDesc key p l ↔ a ∈ l ∧ p a = true := by
  simp [selectDesc, List.mem_insertionSort]

/-- Predicates that agree on the list select the same entries in the same order. -/
theorem selectDesc_congr {key : α → Nat} {p q : α → Bool} {l : List α}
    (h : ∀ a ∈ l, p a = q a) : selectDesc key p l = selectDesc key q l := by
  rw [selectDesc, selectDesc, List.filter_congr h]

/-- Renaming the entries commutes with the selection. -/
theorem map_selectDesc {keyα : α → Nat} {keyβ : β → Nat} {p : α → Bool} {q : β → Bool}
    (f : α → β) (l : List α) (hkey : ∀ a, keyβ (f a) = keyα a)
    (hp : ∀ a ∈ l, q (f a) = p a) :
    (selectDesc keyα p l).map f = selectDesc keyβ q (l.map f) := by
  -- the order is decided by the keys, which the renaming keeps
  rw [selectDesc, selectDesc,
    List.map_insertionSort (fun a b => keyα b ≤ keyα a) (fun a b => keyβ b ≤ keyβ a) f
    (l.filter p) (fun a _ b _ => by rw [hkey, hkey]), List.filter_map]
  have hcomp : l.filter p = l.filter (q ∘ f) :=
    List.filter_congr fun a ha => (hp a ha).symm
  rw [hcomp]

/-- With distinct keys, and entries renamed by a map that keeps the keys, two selections give the
same list exactly when their predicates agree on every entry. -/
theorem map_selectDesc_eq_iff (keyα : α → Nat) (keyβ : β → Nat) {p q : α → Bool} {l : List α}
    (f : α → β) (hkey : ∀ a, keyβ (f a) = keyα a) (hkeys : (l.map keyα).Nodup) :
    (selectDesc keyα p l).map f = (selectDesc keyα q l).map f ↔ ∀ a ∈ l, p a = q a := by
  -- an entry that one list selects is in the other list under the same name, hence the same entry
  have transfer : ∀ p q : α → Bool,
      (selectDesc keyα p l).map f = (selectDesc keyα q l).map f →
        ∀ a ∈ l, p a = true → q a = true := by
    intro p q h a ha hpa
    have hmem : f a ∈ (selectDesc keyα p l).map f :=
      List.mem_map_of_mem (mem_selectDesc.mpr ⟨ha, hpa⟩)
    rw [h] at hmem
    obtain ⟨b, hb, hfb⟩ := List.mem_map.mp hmem
    obtain ⟨hbl, hqb⟩ := mem_selectDesc.mp hb
    -- equal names have equal keys, and the keys are distinct
    have hkeyb : keyα b = keyα a := by rw [← hkey, ← hkey, hfb]
    rwa [List.inj_on_of_nodup_map hkeys hbl ha hkeyb] at hqb
  constructor
  · intro h a ha
    rw [Bool.eq_iff_iff]
    exact ⟨transfer p q h a ha, transfer q p h.symm a ha⟩
  · intro h
    rw [selectDesc_congr h]

/-! ## The order of the entries -/

/-- `x` comes before `y` in the list. -/
def ComesBefore (l : List α) (x y : α) : Prop := List.Sublist [x, y] l

/-- A list splits at its later entry. -/
theorem ComesBefore.split {l : List α} {x y : α} (h : ComesBefore l x y) :
    ∃ before after, l = before ++ y :: after ∧ x ∈ before := by
  induction l with
  | nil => cases h
  | cons a l ih =>
      cases h with
      | cons _ h =>
          obtain ⟨before, after, rfl, hx⟩ := ih h
          exact ⟨a :: before, after, rfl, List.mem_cons_of_mem a hx⟩
      | cons_cons _ h =>
          obtain ⟨before, after, rfl⟩ := List.append_of_mem (List.singleton_sublist.mp h)
          exact ⟨x :: before, after, rfl, List.mem_cons_self⟩

theorem comesBefore_of_split {before after : List α} {x y : α} (hx : x ∈ before) :
    ComesBefore (before ++ y :: after) x y := by
  have hhead : [x].Sublist before := List.singleton_sublist.mpr hx
  have htail : [y].Sublist (y :: after) := List.singleton_sublist.mpr List.mem_cons_self
  exact hhead.append htail

/-- In a list of falling numbers the order is that of the numbers. -/
theorem comesBefore_iff_of_pairwise {l : List Nat} (h : l.Pairwise (· > ·)) {x y : Nat} :
    ComesBefore l x y ↔ x ∈ l ∧ y ∈ l ∧ y < x := by
  constructor
  · intro hxy
    have hpair := h.sublist hxy
    simp only [List.pairwise_cons, List.mem_singleton, forall_eq] at hpair
    exact ⟨hxy.subset (by simp), hxy.subset (by simp), hpair.1⟩
  · rintro ⟨hx, hy, hlt⟩
    obtain ⟨before, after, rfl⟩ := List.append_of_mem hy
    obtain ⟨-, htail, -⟩ := List.pairwise_append.mp h
    -- what stands behind `y` is smaller
    have hbefore : x ∈ before := by
      rcases List.mem_append.mp hx with hx | hx
      · exact hx
      · rcases List.mem_cons.mp hx with rfl | hx
        · omega
        · have := List.rel_of_pairwise_cons htail hx
          omega
    exact comesBefore_of_split hbefore

/-- The keys of a selection fall, if they are distinct. -/
theorem pairwise_map_selectDesc {key : α → Nat} {p : α → Bool} {l : List α}
    (hkeys : (l.map key).Nodup) : ((selectDesc key p l).map key).Pairwise (· > ·) := by
  have : Std.Total (fun a b : α => key b ≤ key a) := ⟨fun a b => Nat.le_total (key b) (key a)⟩
  have : IsTrans α (fun a b : α => key b ≤ key a) := ⟨fun a b c hab hbc => Nat.le_trans hbc hab⟩
  have hsorted := List.pairwise_insertionSort (fun a b : α => key b ≤ key a) (l.filter p)
  have hdistinct : ((selectDesc key p l).map key).Nodup := by
    have hperm := (List.perm_insertionSort (fun a b : α => key b ≤ key a) (l.filter p)).map key
    exact hperm.nodup_iff.mpr (hkeys.sublist (List.filter_sublist.map key))
  have hfalls : ((selectDesc key p l).map key).Pairwise (· ≥ ·) := List.pairwise_map.mpr hsorted
  exact (hfalls.and hdistinct).imp fun h => lt_of_le_of_ne h.1 h.2.symm

/-- With distinct keys the larger key comes first. -/
theorem comesBefore_selectDesc_iff {key : α → Nat} {p : α → Bool} {l : List α}
    (hkeys : (l.map key).Nodup) {a b : α} (ha : a ∈ l) (hb : b ∈ l) :
    ComesBefore ((selectDesc key p l).map key) (key a) (key b) ↔
      p a = true ∧ p b = true ∧ key b < key a := by
  have hmem : ∀ {c}, c ∈ l → (key c ∈ (selectDesc key p l).map key ↔ p c = true) := by
    intro c hc
    rw [List.mem_map]
    constructor
    · rintro ⟨c', hc', heq⟩
      obtain ⟨hcl, hp⟩ := mem_selectDesc.mp hc'
      rwa [← List.inj_on_of_nodup_map hkeys hcl hc heq]
    · intro hp
      exact ⟨c, mem_selectDesc.mpr ⟨hc, hp⟩, rfl⟩
  rw [comesBefore_iff_of_pairwise (pairwise_map_selectDesc hkeys), hmem ha, hmem hb]

/-! ## The last entry of a kind -/

/-- A fold that sets a component at the entries that meet `p` leaves the one set by the last of them. -/
theorem foldl_lastMatch {γ : Type u} {δ : Type v} {step : γ → α → γ} {component : γ → δ} {p : α → Bool}
    {set : α → δ} (hstep : ∀ c a, component (step c a) = if p a then set a else component c)
    (c : γ) (l : List α) :
    component (l.foldl step c) = (l.filter p).getLast?.elim (component c) set := by
  induction l generalizing c with
  | nil => rfl
  | cons a l ih =>
      rw [List.foldl_cons, ih, hstep]
      cases hp : p a with
      | true =>
          -- a later entry of the kind overrides `a`
          rw [List.filter_cons_of_pos hp, List.getLast?_cons]
          cases (l.filter p).getLast? <;> rfl
      | false =>
          rw [List.filter_cons_of_neg (by simp [hp])]
          rfl

/-! ## An entry for each -/

/-- A list that is mapped in part is matched entry by entry exactly if each entry is mapped to its match. -/
theorem forall₂_filterMap_iff {R : α → β → Prop} {f : α → Option β} {l : List α} :
    List.Forall₂ R l (l.filterMap f) ↔ ∀ a ∈ l, ∃ b, f a = some b ∧ R a b := by
  induction l with
  | nil => exact ⟨fun _ a ha => absurd ha List.not_mem_nil, fun _ => .nil⟩
  | cons a l ih =>
      rw [List.forall_mem_cons]
      cases hf : f a with
      | none =>
          constructor
          · -- nothing matches the first entry
            intro h
            rw [List.filterMap_cons_none hf] at h
            have hlength := h.length_eq
            have hle := List.length_filterMap_le f l
            rw [List.length_cons] at hlength
            omega
          · rintro ⟨⟨b, hb, -⟩, -⟩
            cases hb
      | some b =>
          rw [List.filterMap_cons_some hf, List.forall₂_cons, ih]
          constructor
          · rintro ⟨hab, h⟩
            exact ⟨⟨b, rfl, hab⟩, h⟩
          · rintro ⟨⟨b', hb', hab⟩, h⟩
            cases hb'
            exact ⟨hab, h⟩

end NeoZygisk.Lib.Selection
