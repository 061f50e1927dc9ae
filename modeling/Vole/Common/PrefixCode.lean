import Mathlib.Data.List.Basic
import Mathlib.Data.List.Infix

/-!
# Prefix codes

Where no code word starts another, a stream of words can be taken apart in one
way only. A reader that has taken words off a stream and is left with something
that starts no word has taken all of them.
-/

namespace Vole

open List

variable {ω α : Type}

/-- **A prefix code** for the valid values. -/
structure PrefixCode (valid : ω → Prop) (encode : ω → List α) : Prop where
  cancel : ∀ {x y : ω} {r r' : List α}, valid x → valid y →
    encode x ++ r = encode y ++ r' → x = y
  ne_nil : ∀ {x : ω}, valid x → encode x ≠ []

/-- The words of some values. -/
def codeStream (encode : ω → List α) (values : List ω) : List α := (values.map encode).flatten

/-- No word is there as a whole. -/
def Unfinished (valid : ω → Prop) (encode : ω → List α) (rest : List α) : Prop :=
  ∀ x, valid x → ¬ encode x <+: rest

/-- No word is there, whatever comes. -/
def Hopeless (valid : ω → Prop) (encode : ω → List α) (rest : List α) : Prop :=
  ∀ more, Unfinished valid encode (rest ++ more)

variable {valid : ω → Prop} {encode : ω → List α} {xs ys : List ω} {r r' : List α}

theorem codeStream_cons (x : ω) (xs : List ω) :
    codeStream encode (x :: xs) = encode x ++ codeStream encode xs := rfl

theorem codeStream_concat (xs : List ω) (x : ω) :
    codeStream encode (xs ++ [x]) = codeStream encode xs ++ encode x := by
  rw [codeStream, map_append, flatten_append]
  simp only [map_cons, map_nil, flatten_cons, flatten_nil, append_nil,
    codeStream]

namespace PrefixCode

variable (code : PrefixCode valid encode)
include code

theorem unfinished_nil : Unfinished valid encode [] :=
  fun _ hx hprefix => code.ne_nil hx (prefix_nil.mp hprefix)

variable (hxs : ∀ x ∈ xs, valid x) (hys : ∀ y ∈ ys, valid y)

include hxs hys

/-- **All words were taken** from a stream whose rest starts none. -/
theorem taken_all (hrest : Unfinished valid encode r)
    (h : codeStream encode xs ++ r = codeStream encode ys ++ r') : ys <+: xs := by
  induction ys generalizing xs with
  | nil => exact nil_prefix
  | cons y ys ih =>
    have hy := hys y mem_cons_self
    rw [codeStream_cons, append_assoc] at h
    cases xs with
    | nil => exact absurd ⟨_, h.symm⟩ (hrest y hy)
    | cons x xs =>
      have hx := hxs x mem_cons_self
      rw [codeStream_cons, append_assoc] at h
      obtain rfl := code.cancel hx hy h
      exact prefix_cons_inj x |>.mpr (ih (fun z hz => hxs z (mem_cons_of_mem _ hz))
        (fun z hz => hys z (mem_cons_of_mem _ hz)) (append_cancel_left h))

/-- **A stream of words is read as these words.** -/
theorem read_all (hrest : Unfinished valid encode r)
    (h : codeStream encode xs ++ r = codeStream encode ys) : xs = ys := by
  have hmore : codeStream encode xs ++ r = codeStream encode ys ++ [] := by
    rw [append_nil, h]
  have hle := code.taken_all hxs hys hrest hmore
  have hge := code.taken_all hys hxs code.unfinished_nil hmore.symm
  exact hge.eq_of_length_le hle.length_le

/-- **A part of a stream of words is read as the first of them.** -/
theorem read_part (h : codeStream encode xs ++ r <+: codeStream encode ys) : xs <+: ys := by
  obtain ⟨more, hmore⟩ := h
  have hall : codeStream encode ys ++ [] = codeStream encode xs ++ (r ++ more) := by
    rw [append_nil, ← hmore, append_assoc]
  exact code.taken_all hys hxs code.unfinished_nil hall

end PrefixCode

end Vole
