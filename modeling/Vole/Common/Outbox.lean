import Mathlib.Data.List.Basic
import Mathlib.Data.Nat.Notation

/-!
# Frames on a wire

A writer puts one frame after another on a wire, each in as many parts as the
wire takes it. What was given up in the middle stays where it is (`rest`); a
writer that then begins no other frame has written whole frames and a part of
the last one.
-/

namespace Vole

open List

/-- What was written, the frames that were begun, and what is left of the last
one. -/
structure Outbox where
  wire : List UInt8
  frames : List (List UInt8)
  rest : List UInt8

namespace Outbox

/-- Nothing was written yet. -/
def new : Outbox := ⟨[], [], []⟩

/-- A frame is begun. -/
def start (frame : List UInt8) (o : Outbox) : Outbox :=
  { o with frames := o.frames ++ [frame], rest := frame }

/-- The wire takes so many bytes. -/
def took (count : ℕ) (o : Outbox) : Outbox :=
  { o with wire := o.wire ++ o.rest.take count, rest := o.rest.drop count }

variable {o : Outbox} {frame : List UInt8}

/-- **The wire has the frames, but for what is left of the last one.** -/
structure Sound (o : Outbox) : Prop where
  all : o.wire ++ o.rest = o.frames.flatten
  last : o.rest <:+ o.frames.getLastD []

theorem Sound.new : new.Sound := ⟨rfl, suffix_refl _⟩

theorem Sound.start (h : o.Sound) (hdone : o.rest = []) : (o.start frame).Sound := by
  have hall := h.all
  rw [hdone, append_nil] at hall
  refine ⟨?_, ?_⟩
  · change o.wire ++ frame = (o.frames ++ [frame]).flatten
    rw [hall, flatten_append]
    simp only [flatten_cons, flatten_nil, append_nil]
  · have hlast : (o.frames ++ [frame]).getLastD [] = frame := getLastD_concat ..
    exact (congrArg (frame <:+ ·) hlast).mpr (suffix_refl frame)

theorem Sound.took (h : o.Sound) (count : ℕ) : (o.took count).Sound := by
  refine ⟨?_, (drop_suffix _ _).trans h.last⟩
  change (o.wire ++ o.rest.take count) ++ o.rest.drop count = o.frames.flatten
  rw [append_assoc, take_append_drop]
  exact h.all

/-- The wire takes the rest of the frame. -/
theorem rest_took_all (o : Outbox) : (o.took o.rest.length).rest = [] := drop_length

/-- **Whole frames, and a part of the last one.** -/
theorem Sound.cut (h : o.Sound) :
    ∃ part, part <+: o.frames.getLastD [] ∧ o.wire = o.frames.dropLast.flatten ++ part := by
  obtain ⟨part, hlast⟩ := h.last
  refine ⟨part, ⟨o.rest, hlast⟩, ?_⟩
  rcases eq_nil_or_concat o.frames with hnil | ⟨before, frame, hframes⟩
  · rw [hnil] at hlast
    have hparts := append_eq_nil_iff.mp hlast
    have hall := h.all
    rw [hnil, hparts.2, append_nil] at hall
    rw [hall, hnil, hparts.1]
    rfl
  · have hall := h.all
    rw [concat_eq_append] at hframes
    rw [hframes, getLastD_concat] at hlast
    rw [hframes, flatten_append, flatten_singleton, ← hlast, ← append_assoc] at hall
    rw [hframes, dropLast_concat]
    exact append_cancel_right hall

end Outbox

end Vole
