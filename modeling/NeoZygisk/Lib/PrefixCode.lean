import Mathlib.Data.List.Infix

/-!
# Prefix codes

A text that is put together from words can be taken apart again if, whatever follows a word, no other word is read in
its place. `ReadsBack` says so of the words for the values that meet a condition, and is used word by word, from the
front of the text to its end.

Words of which none is a prefix of another (`readsBack_of_incomparable`) and texts up to a mark they do not contain
(`readsBack_delimited`) are such codes.
-/

set_option autoImplicit false

namespace NeoZygisk.Lib.PrefixCode

universe u v

variable {α : Type u} {β : Type v}

/-- Whatever follows a word, its value and what follows are read back. -/
def ReadsBack (valid : α → Prop) (code : α → List β) : Prop :=
  ∀ a b, valid a → valid b → ∀ x y : List β, code a ++ x = code b ++ y → a = b ∧ x = y

/-- No word is a prefix of another. -/
theorem readsBack_of_incomparable {valid : α → Prop} {code : α → List β}
    (h : ∀ a b, valid a → valid b → code a <+: code b → a = b) : ReadsBack valid code := by
  intro a b ha hb x y heq
  have hab : a = b := by
    -- of two prefixes of a text one is a prefix of the other
    rcases List.prefix_or_prefix_of_prefix (List.prefix_append (code a) x)
      (heq ▸ List.prefix_append (code b) y) with hshort | hlong
    · exact h a b ha hb hshort
    · exact (h b a hb ha hlong).symm
  subst hab
  exact ⟨rfl, List.append_cancel_left heq⟩

/-- A text that ends at the first mark. -/
theorem readsBack_delimited (mark : β) : ReadsBack (fun text => mark ∉ text) fun text : List β => text ++ [mark] := by
  intro s t hs ht x y heq
  simp only [List.append_assoc, List.singleton_append] at heq
  induction s generalizing t with
  | nil =>
      cases t with
      | nil => exact ⟨rfl, (List.cons.inj heq).2⟩
      | cons c t => exact absurd (List.mem_cons.mpr (.inl (List.cons.inj heq).1)) ht
  | cons c s ih =>
      cases t with
      | nil => exact absurd (List.mem_cons.mpr (.inl (List.cons.inj heq).1.symm)) hs
      | cons d t =>
          obtain ⟨rfl, hrest⟩ := List.cons.inj heq
          obtain ⟨rfl, hxy⟩ :=
            ih t (fun hc => hs (List.mem_cons_of_mem c hc)) (fun hc => ht (List.mem_cons_of_mem c hc)) hrest
          exact ⟨rfl, hxy⟩

end NeoZygisk.Lib.PrefixCode
