import Vole.Common.Framing

/-!
# Parsers that start over

A parser keeps the items of the current frame in a buffer and goes through the
stages of the frame while they arrive. When it is dropped between two of them the
buffer stays, and the next one starts over at its beginning. `Resumes` says where
a parser is in the buffer: it does what one does that starts over.
-/

namespace Vole.Framing

open List

variable {σ α ω ε : Type} {m : Framing σ α ω ε} {first s t : σ} {buffer : List α} {offset : ℕ}
variable {out : Option ω} {reason : ε} {taken : List α} {given : List ω}

/-- **A parser is at this stage**, which starts at this offset of the buffer. -/
structure Resumes (m : Framing σ α ω ε) (first : σ) (buffer : List α) (s : σ) (offset : ℕ) :
    Prop where
  inside : offset ≤ buffer.length
  reads : m.Reads first buffer [] s (buffer.drop offset)

namespace Resumes

/-- It starts at the beginning. -/
theorem start (m : Framing σ α ω ε) (first : σ) (buffer : List α) :
    m.Resumes first buffer first 0 :=
  ⟨Nat.zero_le _, fun _ => rfl⟩

/-- What the stage is about. -/
theorem held (hle : offset + m.need s ≤ buffer.length) :
    m.need s ≤ (buffer.drop offset).length := by
  rw [length_drop]
  omega

section

variable (h : m.Resumes first buffer s offset)

include h

/-- **The stage is complete**, and the next one starts where it ends. -/
theorem next (hle : offset + m.need s ≤ buffer.length)
    (htake : m.take s ((buffer.drop offset).take (m.need s)) = .ok (t, none)) :
    m.Resumes first buffer t (offset + m.need s) := by
  refine ⟨hle, ?_⟩
  have hreads := h.reads.take (held hle) htake
  rwa [Option.toList_none, append_nil, drop_drop] at hreads

/-- **The frame is complete**, and there is nothing after it. -/
theorem done (hle : offset + m.need s = buffer.length)
    (htake : m.take s ((buffer.drop offset).take (m.need s)) = .ok (first, out)) :
    m.Reads first buffer out.toList first [] := by
  have hreads := h.reads.take (held (Nat.le_of_eq hle)) htake
  rwa [nil_append, drop_drop, hle, drop_length] at hreads

/-- **The stage fails.** -/
theorem failed (hle : offset + m.need s ≤ buffer.length)
    (htake : m.take s ((buffer.drop offset).take (m.need s)) = .error reason) :
    m.parse first buffer = ([], .failed reason) := by
  have hparse := h.reads.failed (held hle) htake []
  rwa [append_nil] at hparse

/-- **The stage waits.** -/
theorem waiting (hlt : buffer.length < offset + m.need s) :
    m.parse first buffer = ([], .waiting s (buffer.drop offset)) := by
  refine h.reads.waiting ?_
  have hinside := h.inside
  rw [length_drop]
  omega

end

end Resumes

/-- What is in the buffer is parsed after what was given. -/
theorem Reads.parse (h : m.Reads first taken given first buffer) :
    m.parse first taken = before given (m.parse first buffer) := by
  have hparse := h []
  rwa [append_nil, append_nil] at hparse

/-- What is in the buffer is read. -/
theorem Reads.through {later : List ω} (h : m.Reads first taken given first buffer)
    (hnext : m.Reads first buffer later first []) : m.Reads first taken (given ++ later) first [] := by
  intro rest
  rw [h rest, hnext rest, before_before]

end Vole.Framing
