import Mathlib.Data.List.Basic
import Mathlib.Tactic.SplitIfs

/-!
# Framed streams

A stream is read in stages. Each stage needs so many items, and those decide
the next stage and perhaps a value, or end the stream for a reason. `parse`
reads a stream that is there at once. A reader that has taken a part of the
stream and holds what it has not used yet agrees with it (`Reads`), however the
parts came; and a stream that was written frame by frame (`Chain`) is read
frame by frame.
-/

namespace Vole

open List Prod

/-- **Stages of a stream.** A stage that needs nothing leads to one of lower
rank, so that reading ends. -/
structure Framing (σ α ω ε : Type) where
  need : σ → ℕ
  take : σ → List α → Except ε (σ × Option ω)
  rank : σ → ℕ
  rank_lt : ∀ {s t : σ} {out : Option ω}, need s = 0 → take s [] = .ok (t, out) → rank t < rank s

namespace Framing

/-- Where a stream leaves its reader. -/
inductive End (σ α ε : Type) where
  | waiting (stage : σ) (rest : List α)
  | failed (reason : ε)

variable {σ α ω ε : Type} (m : Framing σ α ω ε)

/-- **The values of a stream**, and where it leaves its reader. -/
def parse (s : σ) (items : List α) : List ω × End σ α ε :=
  if items.length < m.need s then ([], .waiting s items)
  else
    match _h : m.take s (items.take (m.need s)) with
    | .error reason => ([], .failed reason)
    | .ok (t, out) =>
      let rest := parse t (items.drop (m.need s))
      (out.toList ++ rest.1, rest.2)
termination_by (items.length, m.rank s)
decreasing_by
  rcases Nat.eq_zero_or_pos (m.need s) with hzero | hpos
  · rw [hzero, take_zero] at _h
    rw [hzero, drop_zero]
    exact Prod.Lex.right _ (m.rank_lt hzero _h)
  · refine Prod.Lex.left _ _ ?_
    rw [length_drop]
    omega

/-- Values before those of the rest. -/
def before (given : List ω) (parsed : List ω × End σ α ε) : List ω × End σ α ε :=
  (given ++ parsed.1, parsed.2)

theorem before_before (given more : List ω) (parsed : List ω × End σ α ε) :
    before given (before more parsed) = before (given ++ more) parsed := by
  simp only [before, append_assoc]

section Parse

variable {m} {s t : σ} {items rest : List α} {out : Option ω} {reason : ε}

theorem parse_of_lt (h : items.length < m.need s) : m.parse s items = ([], .waiting s items) := by
  rw [parse, if_pos h]

theorem parse_of_ok (hle : m.need s ≤ items.length)
    (h : m.take s (items.take (m.need s)) = .ok (t, out)) :
    m.parse s items = before out.toList (m.parse t (items.drop (m.need s))) := by
  rw [parse, if_neg (Nat.not_lt.mpr hle)]
  split
  case h_1 h' =>
    rw [h] at h'
    cases h'
  case h_2 h' =>
    rw [h] at h'
    cases h'
    rfl

theorem parse_of_error (hle : m.need s ≤ items.length)
    (h : m.take s (items.take (m.need s)) = .error reason) :
    m.parse s items = ([], .failed reason) := by
  rw [parse, if_neg (Nat.not_lt.mpr hle)]
  split
  case h_1 h' =>
    rw [h] at h'
    cases h'
    rfl
  case h_2 h' =>
    rw [h] at h'
    cases h'

end Parse

/-! ## Readers -/

/-- **A reader has taken these items from where the stream started**, has given
these values, and is at this stage with what it holds: whatever comes next, it
goes on as the whole stream does. -/
def Reads (first : σ) (taken : List α) (given : List ω) (s : σ) (held : List α) : Prop :=
  ∀ rest, m.parse first (taken ++ rest) = before given (m.parse s (held ++ rest))

namespace Reads

variable {m} {first s t : σ} {taken held : List α} {given : List ω} {out : Option ω} {reason : ε}

theorem start (s : σ) : m.Reads s [] [] s [] := fun _ => rfl

section

variable (h : m.Reads first taken given s held)

include h

/-- More of the stream arrives. -/
theorem read (chunk : List α) : m.Reads first (taken ++ chunk) given s (held ++ chunk) := by
  intro rest
  rw [append_assoc, append_assoc]
  exact h (chunk ++ rest)

/-- A stage is complete. -/
theorem take (hle : m.need s ≤ held.length)
    (htake : m.take s (held.take (m.need s)) = .ok (t, out)) :
    m.Reads first taken (given ++ out.toList) t (held.drop (m.need s)) := by
  intro rest
  have hlong : m.need s ≤ (held ++ rest).length := by
    rw [length_append]
    omega
  rw [h rest, parse_of_ok hlong (by rw [take_append_of_le_length hle]; exact htake),
    drop_append_of_le_length hle, before_before]

/-- A stage whose items are all there, and no more. -/
theorem complete (hneed : held.length = m.need s) (htake : m.take s held = .ok (t, out)) :
    m.Reads first taken (given ++ out.toList) t [] := by
  have htaken : held.take (m.need s) = held := take_of_length_le (Nat.le_of_eq hneed)
  have hdropped : held.drop (m.need s) = [] := drop_eq_nil_of_le (Nat.le_of_eq hneed)
  have hread := h.take (Nat.le_of_eq hneed.symm) (by rw [htaken]; exact htake)
  rw [hdropped] at hread
  exact hread

/-- **A reader that fails fails on the stream**, whatever comes next. -/
theorem failed (hle : m.need s ≤ held.length)
    (htake : m.take s (held.take (m.need s)) = .error reason) (rest : List α) :
    m.parse first (taken ++ rest) = (given, .failed reason) := by
  have hlong : m.need s ≤ (held ++ rest).length := by
    rw [length_append]
    omega
  rw [h rest, parse_of_error hlong (by rw [take_append_of_le_length hle]; exact htake)]
  exact congrArg (·, End.failed reason) (append_nil given)

/-- A stage whose items are all there, and that they end. -/
theorem stopped (hneed : held.length = m.need s)
    (htake : m.take s held = .error reason) : m.parse first taken = (given, .failed reason) := by
  have hheld : held.take (m.need s) = held := take_of_length_le (Nat.le_of_eq hneed)
  have hfailed := h.failed (Nat.le_of_eq hneed.symm) (by rw [hheld]; exact htake) []
  rwa [append_nil] at hfailed

/-- **A reader that waits has given all that was there.** -/
theorem waiting (hlt : held.length < m.need s) :
    m.parse first taken = (given, .waiting s held) := by
  have hparse := h []
  rw [append_nil, append_nil, parse_of_lt hlt] at hparse
  rw [hparse]
  exact congrArg (·, End.waiting s held) (append_nil given)

end

/-- **The items of two stages, cut off**: the reader waits in the one or the other. -/
theorem torn {head tail part : List α} (h : m.Reads first head [] s [])
    (hfirst : head.length = m.need first) (hsecond : tail.length = m.need s)
    (hpart : part <+: head ++ tail) (hne : part ≠ head ++ tail) :
    m.parse first part = ([], .waiting first part) ∨
      ∃ held, m.parse first part = ([], .waiting s held) := by
  rcases Nat.lt_or_ge part.length head.length with hshort | hlong
  · exact .inl (parse_of_lt (hfirst ▸ hshort))
  · obtain ⟨more, rfl⟩ := prefix_of_prefix_length_le (prefix_append head tail) hpart hlong
    have hmore : more <+: tail := (prefix_append_right_inj head).mp hpart
    have hrest : more.length < tail.length := by
      have hle := hmore.length_le
      have hlength := mt hmore.eq_of_length fun hall => hne (by rw [hall])
      omega
    exact .inr ⟨_, (h.read more).waiting (hsecond ▸ hrest)⟩

/-- One stretch of the stream after another. -/
theorem trans {u : σ} {more : List α} {later : List ω} (h : m.Reads first taken given s [])
    (hnext : m.Reads s more later u held) :
    m.Reads first (taken ++ more) (given ++ later) u held := by
  intro rest
  rw [append_assoc, h (more ++ rest), nil_append, hnext rest, before_before]

end Reads

/-! ## Frames -/

/-- **A stream written frame by frame**: the items of each frame and its
values. `frame` says what a frame is from one stage to another. -/
inductive Chain (frame : σ → List α → List ω → σ → Prop) : σ → List (List α × List ω) → σ → Prop
  | nil {s : σ} : Chain frame s [] s
  | concat {s t u : σ} {frames : List (List α × List ω)} {items : List α} {values : List ω} :
    Chain frame s frames t → frame t items values u → Chain frame s (frames ++ [(items, values)]) u

namespace Chain

variable {m} {frame : σ → List α → List ω → σ → Prop} {s t : σ}
variable {frames : List (List α × List ω)}

/-- **It is read frame by frame.** -/
theorem reads (hframe : ∀ {s items values t}, frame s items values t → m.Reads s items values t [])
    (h : Chain frame s frames t) :
    m.Reads s (frames.map fst).flatten (frames.map snd).flatten t [] := by
  induction h with
  | nil => exact Reads.start _
  | @concat t u frames items values _ hlast ih =>
    have hread := ih.trans (hframe hlast)
    simp only [map_append, flatten_append, map_cons, map_nil,
      flatten_cons, flatten_nil, append_nil]
    exact hread

/-- The frames before any cut of the stream, and the one that is cut. -/
theorem cut (h : Chain frame s frames t) {items : List α}
    (hcut : items <+: (frames.map fst).flatten) :
    (∃ before after piece values u v, frames = before ++ (piece, values) :: after ∧
      Chain frame s before u ∧ frame u piece values v ∧
      ∃ part, part <+: piece ∧ part ≠ piece ∧ items = (before.map fst).flatten ++ part) ∨
      items = (frames.map fst).flatten := by
  induction h with
  | nil => exact .inr (prefix_nil.mp hcut)
  | @concat t u frames piece values hchain hlast ih =>
    simp only [map_append, flatten_append, map_cons, map_nil,
      flatten_cons, flatten_nil, append_nil] at hcut ⊢
    rcases prefix_or_prefix_of_prefix hcut (prefix_append _ piece) with hearlier | hlater
    · rcases ih hearlier with
        ⟨before, after, other, values', v, w, hframes, hbefore, hother, hcut'⟩ | hall
      · exact .inl ⟨before, after ++ [(piece, values)], other, values', v, w,
          by rw [hframes]; simp, hbefore, hother, hcut'⟩
      by_cases hpiece : piece = []
      · exact .inr (by rw [hall, hpiece, append_nil])
      · refine .inl ⟨frames, [], piece, values, t, u, rfl, hchain, hlast, [], nil_prefix,
          ?_, ?_⟩
        · exact fun hnil => hpiece hnil.symm
        · rw [hall, append_nil]
    · obtain ⟨part, hitems⟩ := hlater
      have hpart : part <+: piece := by
        rw [← hitems] at hcut
        exact (prefix_append_right_inj _).mp hcut
      by_cases hwhole : part = piece
      · exact .inr (by rw [← hitems, hwhole])
      · exact .inl ⟨frames, [], piece, values, t, u, rfl, hchain, hlast, part, hpart, hwhole,
          hitems.symm⟩

end Chain

end Framing

end Vole
