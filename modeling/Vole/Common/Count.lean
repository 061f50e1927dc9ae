import Mathlib.Data.List.Basic

/-!
# One entry of a list changes

What the list has then, and how many of its entries satisfy a test.
-/

namespace Vole

open List

variable {α : Type} {p : α → Bool} {l : List α} {i : ℕ} {a b : α}

theorem of_getElem?_set {j : ℕ} (h : (l.set i a)[j]? = some b) :
    j = i ∧ b = a ∨ j ≠ i ∧ l[j]? = some b := by
  rcases eq_or_ne j i with rfl | hne
  · obtain ⟨-, rfl⟩ := List.getElem?_eq_some_iff.mp h
    exact .inl ⟨rfl, getElem_set_self _⟩
  · exact .inr ⟨hne, getElem?_set_ne hne.symm ▸ h⟩

/-- **One entry changes.** -/
theorem countP_set_add (h : l[i]? = some a) :
    (l.set i b).countP p + (p a).toNat = l.countP p + (p b).toNat := by
  induction l generalizing i with
  | nil => simp at h
  | cons c rest ih =>
    cases i with
    | zero =>
      obtain rfl : c = a := by simpa using h
      simp only [set_cons_zero, countP_cons]
      cases p c <;> cases p b <;> simp
    | succ i =>
      have hrest := ih (i := i) (by simpa using h)
      simp only [set_cons_succ, countP_cons]
      omega

/-- An entry that changes between two that count the same. -/
theorem countP_set_eq (h : l[i]? = some a) (hb : p b = p a) : (l.set i b).countP p = l.countP p := by
  have hset := countP_set_add (p := p) (b := b) h
  rw [hb] at hset
  omega

theorem countP_pos_of_getElem? (h : l[i]? = some a) (ha : p a = true) : 0 < l.countP p :=
  countP_pos_iff.mpr ⟨a, mem_of_getElem? h, ha⟩

theorem countP_concat (a : α) : (l ++ [a]).countP p = l.countP p + (p a).toNat := by
  rw [countP_append, countP_singleton]
  cases p a <;> rfl

end Vole
