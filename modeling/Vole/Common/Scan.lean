import Mathlib.Order.Bounds.Basic
import Mathlib.Data.Set.Basic

/-!
# The first answer of a scan

A loop over an ordered list that stops at the first element it has an
answer for. `firstAnswer` carries the index such a loop counts;
`firstAnswer_eq_some` says nothing before the stop answers, which
`isLeast_index` reads as a least index.
-/

namespace Vole

variable {α β : Type*}

/-- The first element `f` answers on, with its index counted from `n`. -/
def firstAnswer (f : α → Option β) : ℕ → List α → Option (ℕ × α × β)
  | _, [] => none
  | n, a :: rest =>
    match f a with
    | some b => some (n, a, b)
    | none => firstAnswer f (n + 1) rest

variable {f : α → Option β} {n : ℕ} {l : List α}

/-- A scan that stops has found its element, and everything before it
gave no answer. -/
theorem firstAnswer_eq_some {i : ℕ} {a : α} {b : β} (h : firstAnswer f n l = some (i, a, b)) :
    ∃ k, i = n + k ∧ l[k]? = some a ∧ f a = some b ∧
      ∀ k' a', k' < k → l[k']? = some a' → f a' = none := by
  induction l generalizing n with
  | nil => cases h
  | cons x rest ih =>
    rw [firstAnswer] at h
    cases hx : f x with
    | some y =>
      rw [hx] at h
      obtain ⟨rfl, rfl, rfl⟩ := h
      exact ⟨0, by omega, rfl, hx, fun k' a' hk => absurd hk (Nat.not_lt_zero _)⟩
    | none =>
      rw [hx] at h
      obtain ⟨k, hi, hk, hb, hbefore⟩ := ih h
      refine ⟨k + 1, by omega, hk, hb, fun k' a' hk' ha' => ?_⟩
      cases k' with
      | zero =>
        have : x = a' := by simpa using ha'
        exact this ▸ hx
      | succ k' => exact hbefore k' a' (by omega) (by simpa using ha')

/-- A scan that runs out has found no element with an answer. -/
theorem firstAnswer_eq_none (h : firstAnswer f n l = none) : ∀ a ∈ l, f a = none := by
  induction l generalizing n with
  | nil => intro a ha; cases ha
  | cons x rest ih =>
    rw [firstAnswer] at h
    cases hx : f x with
    | some y => rw [hx] at h; cases h
    | none =>
      rw [hx] at h
      exact List.forall_mem_cons.mpr ⟨hx, ih h⟩

/-- A scan over a list that ends in an answer stops. -/
theorem firstAnswer_isSome {a : α} (ha : l.getLast? = some a) (hb : (f a).isSome) :
    ∃ r, firstAnswer f n l = some r := by
  cases h : firstAnswer f n l with
  | some r => exact ⟨r, rfl⟩
  | none =>
    have hnone := firstAnswer_eq_none h a (List.mem_of_getLast? ha)
    rw [hnone] at hb
    cases hb

/-- **A stop is a least index**: an element with the property and none
before it. -/
theorem isLeast_index {P : ℕ → α → Prop} {i : ℕ} {a : α} (hi : l[i]? = some a) (hP : P i a)
    (hbefore : ∀ k a', k < i → l[k]? = some a' → ¬ P k a') :
    IsLeast {k | ∃ a', l[k]? = some a' ∧ P k a'} i := by
  refine ⟨⟨a, hi, hP⟩, ?_⟩
  rintro k ⟨a', hk, hP'⟩
  by_contra hlt
  exact hbefore k a' (by omega) hk hP'

end Vole
