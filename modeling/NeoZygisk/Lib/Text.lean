import Mathlib.Data.List.TakeWhile

/-!
# Text

Texts are lists of any alphabet. They are searched for a part (`indexOf`), taken apart into lines (`lines`), rid of
the white space at their ends (`trim`) and read word by word, where the white space before a word is skipped
(`word`).

In a text of words with a space before each (`spaced`), a mark that is set off by spaces is found where no word
before it is the mark itself (`indexOf_spaced`).
-/

set_option autoImplicit false

namespace NeoZygisk.Lib.Text

universe u

variable {α : Type u}

section Texts

variable [DecidableEq α]

/-- Where the text first has a part. -/
def indexOf (part : List α) : List α → Option Nat
  | [] => if part = [] then some 0 else none
  | a :: text => if part <+: a :: text then some 0 else (indexOf part text).map (· + 1)

/-- The text has a part. -/
def contains (part text : List α) : Bool := (indexOf part text).isSome

/-- The lines of a text. The last one may lack its end, but is not empty then. -/
def lines (newline : α) : List α → List (List α)
  | [] => []
  | a :: text =>
      if a = newline then [] :: lines newline text
      else
        match lines newline text with
        | [] => [[a]]
        | line :: rest => (a :: line) :: rest

end Texts

/-- The first word of a text and what follows it. -/
def word (space : α → Bool) (text : List α) : List α × List α :=
  ((text.dropWhile space).takeWhile fun a => !space a, (text.dropWhile space).dropWhile fun a => !space a)

/-- A text without the white space at its ends. -/
def trim (space : α → Bool) (text : List α) : List α :=
  ((text.dropWhile space).reverse.dropWhile space).reverse

/-- Words with a space before each. -/
def spaced (space : α) (ws : List (List α)) : List α := ws.flatMap fun w => space :: w

/-! ## Lines -/

section Lines

variable [DecidableEq α]

/-- A line that ends is the first. -/
theorem lines_append_cons {newline : α} {line : List α} (h : newline ∉ line) (text : List α) :
    lines newline (line ++ newline :: text) = line :: lines newline text := by
  induction line with
  | nil => rw [List.nil_append, lines, if_pos rfl]
  | cons a line ih =>
      rw [List.cons_append, lines, if_neg (List.ne_of_not_mem_cons h).symm, ih (List.not_mem_of_not_mem_cons h)]

/-- Lines that are put together are taken apart again. -/
theorem lines_flatMap {newline : α} {ls : List (List α)} (h : ∀ line ∈ ls, newline ∉ line) :
    lines newline (ls.flatMap fun line => line ++ [newline]) = ls := by
  induction ls with
  | nil => rfl
  | cons line ls ih =>
      rw [List.flatMap_cons, List.append_assoc, List.singleton_append,
        lines_append_cons (h line List.mem_cons_self), ih fun l hl => h l (List.mem_cons_of_mem line hl)]

end Lines

/-! ## Words -/

/-- What is taken ends where the rest does not belong to it. -/
theorem takeWhile_append_stop {p : α → Bool} {w rest : List α} (hw : ∀ a ∈ w, p a = true)
    (hrest : ∀ a ∈ rest.head?, p a = false) : (w ++ rest).takeWhile p = w := by
  rw [List.takeWhile_append_of_pos hw]
  cases rest with
  | nil => exact List.append_nil w
  | cons a rest => rw [List.takeWhile_cons_of_neg (by simp [hrest a rfl]), List.append_nil]

theorem dropWhile_append_stop {p : α → Bool} {w rest : List α} (hw : ∀ a ∈ w, p a = true)
    (hrest : ∀ a ∈ rest.head?, p a = false) : (w ++ rest).dropWhile p = rest := by
  rw [List.dropWhile_append_of_pos hw]
  cases rest with
  | nil => rfl
  | cons a rest => exact List.dropWhile_cons_of_neg (by simp [hrest a rfl])

/-- A word after white space, up to the next white space. -/
theorem word_eq {space : α → Bool} {skipped w rest : List α} (hskipped : ∀ a ∈ skipped, space a = true)
    (hw : ∀ a ∈ w, space a = false) (hne : w ≠ []) (hrest : ∀ a ∈ rest.head?, space a = true) :
    word space (skipped ++ (w ++ rest)) = (w, rest) := by
  have hword : ∀ a ∈ w, (!space a) = true := by
    intro a ha
    rw [hw a ha]
    rfl
  have hstop : ∀ a ∈ rest.head?, (!space a) = false := by
    intro a ha
    rw [hrest a ha]
    rfl
  -- nothing of the word is skipped
  have hdrop : (skipped ++ (w ++ rest)).dropWhile space = w ++ rest := by
    apply dropWhile_append_stop hskipped
    obtain ⟨b, w, rfl⟩ := List.exists_cons_of_ne_nil hne
    intro a ha
    exact hw a (List.mem_of_mem_head? ha)
  rw [word, hdrop, takeWhile_append_stop hword hstop, dropWhile_append_stop hword hstop]

/-- What is read as a word has no white space in it. -/
theorem space_of_mem_word {space : α → Bool} {text : List α} {a : α} (h : a ∈ (word space text).1) :
    space a = false := by
  simpa using List.mem_takeWhile_imp h

/-- Only white space is trimmed away as a whole. -/
theorem trim_eq_nil_iff {space : α → Bool} {text : List α} : trim space text = [] ↔ ∀ a ∈ text, space a = true := by
  rw [trim, List.reverse_eq_nil_iff, List.dropWhile_eq_nil_iff]
  constructor
  · intro h
    -- what is not dropped in front would begin with something else than white space
    cases hrest : text.dropWhile space with
    | nil => exact List.dropWhile_eq_nil_iff.mp hrest
    | cons a rest =>
        have hstop := List.head_dropWhile_not space (l := text) (by rw [hrest]; exact List.cons_ne_nil a rest)
        simp only [hrest, List.head_cons] at hstop
        rw [h a (by rw [hrest, List.mem_reverse]; exact List.mem_cons_self)] at hstop
        cases hstop
  · intro h a ha
    exact h a ((List.dropWhile_suffix space).subset (List.mem_reverse.mp ha))

/-- Nothing is trimmed where no white space stands at the ends. -/
theorem trim_eq_self {space : α → Bool} {text : List α} (hfirst : ∀ a ∈ text.head?, space a = false)
    (hlast : ∀ a ∈ text.getLast?, space a = false) : trim space text = text := by
  have hdrop : ∀ text : List α, (∀ a ∈ text.head?, space a = false) → text.dropWhile space = text := by
    intro text h
    cases text with
    | nil => rfl
    | cons a text => exact List.dropWhile_cons_of_neg (by simp [h a rfl])
  rw [trim, hdrop text hfirst, hdrop text.reverse, List.reverse_reverse]
  intro a ha
  rw [List.head?_reverse] at ha
  exact hlast a ha

/-- Words and what follows them after a space begin with a space. -/
theorem exists_spaced_append_cons (space : α) (ws : List (List α)) (rest : List α) :
    ∃ tail, spaced space ws ++ space :: rest = space :: tail := by
  cases ws with
  | nil => exact ⟨rest, rfl⟩
  | cons w ws => exact ⟨_, rfl⟩

/-! ## Parts -/

section Parts

variable [DecidableEq α] {space mark : α}

/-- The mark is not found in a word before it. -/
theorem indexOf_append_cons {w : List α} (h : space ∉ w) (rest : List α) :
    indexOf [space, mark, space] (w ++ space :: rest) =
      (indexOf [space, mark, space] (space :: rest)).map (· + w.length) := by
  induction w with
  | nil => simp
  | cons a w ih =>
      have hno : ¬ [space, mark, space] <+: a :: (w ++ space :: rest) := by
        rw [List.cons_prefix_cons]
        exact fun hprefix => List.ne_of_not_mem_cons h hprefix.1
      rw [List.cons_append, indexOf, if_neg hno, ih (List.not_mem_of_not_mem_cons h), Option.map_map]
      congr 1

/-- Nor is it found before the word, if the word is not the mark. -/
theorem indexOf_cons_append_cons {w : List α} (hmark : mark ≠ space) (h : space ∉ w) (hne : w ≠ [mark])
    (rest : List α) :
    indexOf [space, mark, space] (space :: (w ++ space :: rest)) =
      (indexOf [space, mark, space] (space :: rest)).map (· + (w.length + 1)) := by
  have hno : ¬ [space, mark, space] <+: space :: (w ++ space :: rest) := by
    rw [List.cons_prefix_cons]
    rintro ⟨-, hprefix⟩
    cases w with
    | nil => exact hmark (List.cons_prefix_cons.mp hprefix).1
    | cons a w =>
        obtain ⟨rfl, htail⟩ := List.cons_prefix_cons.mp hprefix
        cases w with
        | nil => exact hne rfl
        | cons b w =>
            -- the word would go on with a space
            have hb := (List.cons_prefix_cons.mp htail).1
            exact h (hb ▸ List.mem_cons_of_mem _ List.mem_cons_self)
  rw [indexOf, if_neg hno, indexOf_append_cons h, Option.map_map]
  congr 1

/-- After words none of which is the mark, the mark is found behind them. -/
theorem indexOf_spaced (hmark : mark ≠ space) {ws : List (List α)} (h : ∀ w ∈ ws, space ∉ w ∧ w ≠ [mark])
    (rest : List α) :
    indexOf [space, mark, space] (spaced space ws ++ space :: mark :: space :: rest) =
      some (spaced space ws).length := by
  induction ws with
  | nil =>
      rw [spaced, List.flatMap_nil, List.nil_append, indexOf, if_pos ⟨rest, rfl⟩]
      rfl
  | cons w ws ih =>
      obtain ⟨hspace, hne⟩ := h w List.mem_cons_self
      have hrest := ih fun w' hw' => h w' (List.mem_cons_of_mem w hw')
      obtain ⟨tail, htail⟩ := exists_spaced_append_cons space ws (mark :: space :: rest)
      have hcons : spaced space (w :: ws) = space :: (w ++ spaced space ws) := rfl
      rw [hcons, List.cons_append, List.append_assoc, htail, indexOf_cons_append_cons hmark hspace hne, ← htail,
        hrest, Option.map_some, List.length_cons, List.length_append]
      congr 1
      omega

/-- A text is cut at the mark. -/
theorem indexOf_first_spaced (hmark : mark ≠ space) {first : List α} (hfirst : space ∉ first)
    {ws : List (List α)} (h : ∀ w ∈ ws, space ∉ w ∧ w ≠ [mark]) (rest : List α) :
    indexOf [space, mark, space] (first ++ spaced space ws ++ space :: mark :: space :: rest) =
      some (first ++ spaced space ws).length := by
  obtain ⟨tail, htail⟩ := exists_spaced_append_cons space ws (mark :: space :: rest)
  rw [List.append_assoc, htail, indexOf_append_cons hfirst, ← htail, indexOf_spaced hmark h, Option.map_some,
    List.length_append, Nat.add_comm]

/-- A part that is found lies in the text. -/
theorem indexOf_add_length_le {part text : List α} {i : Nat} (h : indexOf part text = some i) :
    i + part.length ≤ text.length := by
  induction text generalizing i with
  | nil =>
      rw [indexOf] at h
      split at h
      · rename_i hpart
        cases h
        rw [hpart]
        exact Nat.le_refl 0
      · cases h
  | cons a text ih =>
      rw [indexOf] at h
      split at h
      · rename_i hprefix
        cases h
        rw [Nat.zero_add]
        exact hprefix.length_le
      · obtain ⟨j, hj, rfl⟩ := Option.map_eq_some_iff.mp h
        have := ih hj
        rw [List.length_cons]
        omega

end Parts

end NeoZygisk.Lib.Text
