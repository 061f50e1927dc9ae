import Vole.Vless.Model.HeaderXor

/-!
# Masked headers, however they are cut

`HeaderXor::apply` treats a piece of the stream part by part: the rest of a body,
then what a header lacks. A piece is the same as its bytes one by one
(`apply_cons`), so the pieces do not matter (`applyAll_eq`). The writer records a
header before it is masked and the reader after it is unmasked, so both know where
the next one starts.
-/

namespace Vole.Vless

open List Nat

/-- A byte of the stream is used. -/
def Ctr.next (ctr : Ctr) : Ctr := { ctr with position := ctr.position + 1 }

theorem Ctr.apply_cons (ctr : Ctr) (byte : UInt8) (data : Bytes) :
    ctr.apply (byte :: data) =
      ((byte ^^^ ctr.stream ctr.position) :: (ctr.next.apply data).1, (ctr.next.apply data).2) := by
  simp only [Ctr.apply, Ctr.next, mapIdx_cons, length_cons, add_zero, add_assoc,
    add_comm 1]

namespace HeaderXor

/-- The state after the bytes of a header so far. -/
def ofPart (header : Bytes) : HeaderXor :=
  if short : header.length < 5 then ⟨header, 0, short⟩ else ofHeader header

/-- What becomes of one byte. -/
def step (self : HeaderXor) (ctr : Ctr) (byte : UInt8) (decrypt : Bool) :
    UInt8 × HeaderXor × Ctr :=
  if self.remaining ≠ 0 then (byte, { self with remaining := self.remaining - 1 }, ctr)
  else
    let masked := byte ^^^ ctr.stream ctr.position
    (masked, ofPart (self.header ++ [if decrypt then masked else byte]), ctr.next)

/-- One piece after another. -/
def applyAll (self : HeaderXor) (ctr : Ctr) (decrypt : Bool) : List Bytes → Bytes × HeaderXor × Ctr
  | [] => ([], self, ctr)
  | piece :: pieces =>
    let (out, next, ctr) := self.apply ctr piece decrypt
    let (rest, last, ctr) := next.applyAll ctr decrypt pieces
    (out ++ rest, last, ctr)

variable (self : HeaderXor) (ctr : Ctr) (decrypt : Bool) (bytes : Bytes)

theorem apply_nil : self.apply ctr [] decrypt = ([], self, ctr) := by
  rw [apply, dif_pos rfl]

/-- The rest of a body is left as it is. -/
theorem apply_skip : self.apply ctr bytes decrypt =
    (let count := min self.remaining bytes.length
    let last := apply { self with remaining := self.remaining - count } ctr (bytes.drop count)
      decrypt
    (bytes.take count ++ last.1, last.2)) := by
  by_cases hnil : bytes = []
  · subst hnil
    simp [apply_nil]
  rcases self with ⟨header, _ | remaining, short⟩
  · simp
  · rw [apply, dif_neg hnil, if_pos (succ_ne_zero _)]

/-- What a header lacks is masked. -/
theorem apply_fill {header : Bytes} (hle : header.length ≤ 5) :
    (ofPart header).apply ctr bytes decrypt =
      (let count := min (5 - header.length) bytes.length
      let part := ctr.apply (bytes.take count)
      let last := apply (ofPart (header ++ if decrypt then part.1 else bytes.take count)) part.2
        (bytes.drop count) decrypt
      (part.1 ++ last.1, last.2)) := by
  by_cases hnil : bytes = []
  · subst hnil
    simp [apply_nil, Ctr.apply]
  by_cases hfull : header.length = 5
  · simp [hfull, Ctr.apply]
  · have hshort : header.length < 5 := by omega
    conv_lhs => rw [ofPart, dif_pos hshort, apply, dif_neg hnil, if_neg (not_not.mpr rfl)]
    rfl

/-- **A piece is its bytes, one by one.** -/
theorem apply_cons (byte : UInt8) : self.apply ctr (byte :: bytes) decrypt =
    (let one := self.step ctr byte decrypt
    let last := one.2.1.apply one.2.2 bytes decrypt
    (one.1 :: last.1, last.2)) := by
  rcases self with ⟨header, _ | remaining, short⟩
  · have hself : (⟨header, 0, short⟩ : HeaderXor) = ofPart header := (dif_pos short).symm
    have hcount : min (5 - header.length) (bytes.length + 1) =
        min (5 - (header.length + 1)) bytes.length + 1 := by omega
    -- what the header lacks after the byte
    have hrest : ∀ recorded, (ofPart (header ++ [recorded])).apply ctr.next bytes decrypt = _ :=
      fun recorded => apply_fill ctr.next decrypt bytes (by rw [length_append]; exact short)
    conv_lhs => rw [hself, apply_fill _ _ _ (Nat.le_of_lt short), length_cons, hcount]
    cases decrypt <;> simp [step, hrest, Ctr.apply_cons]
  · have hrest := apply_skip ⟨header, remaining, short⟩ ctr decrypt bytes
    conv_lhs => rw [apply_skip, length_cons]
    simp [step, hrest, Nat.add_min_add_right]

/-- **The pieces do not matter.** -/
theorem applyAll_eq (pieces : List Bytes) :
    self.applyAll ctr decrypt pieces = self.apply ctr pieces.flatten decrypt := by
  have happend : ∀ (first : Bytes) (self : HeaderXor) (ctr : Ctr) (second : Bytes),
      self.apply ctr (first ++ second) decrypt =
        (let one := self.apply ctr first decrypt
        let last := one.2.1.apply one.2.2 second decrypt
        (one.1 ++ last.1, last.2)) := by
    intro first
    induction first with
    | nil => simp [apply_nil]
    | cons byte first ih =>
      intro self ctr second
      rw [cons_append, apply_cons, apply_cons]
      simp [ih]
  induction pieces generalizing self ctr with
  | nil => exact (apply_nil self ctr decrypt).symm
  | cons piece pieces ih =>
    rw [flatten_cons, happend, applyAll]
    simp [ih]

/-- **What was masked is unmasked**, and both sides are where they were. -/
theorem apply_apply :
    self.apply ctr (self.apply ctr bytes false).1 true = (bytes, (self.apply ctr bytes false).2) := by
  induction bytes generalizing self ctr with
  | nil => rw [apply_nil, apply_nil]
  | cons byte bytes ih =>
    have hback : self.step ctr (self.step ctr byte false).1 true =
        (byte, (self.step ctr byte false).2) := by
      by_cases hbody : self.remaining = 0
      · simp only [step, hbody, ne_eq, not_true_eq_false, ↓reduceIte, Bool.false_eq_true,
          UInt8.xor_assoc, UInt8.xor_self, UInt8.xor_zero]
      · simp [step, hbody]
    rw [apply_cons self ctr false]
    simp only [apply_cons, hback, ih]

/-- **The masking of headers does not depend on how the stream is cut.** Two ways
to cut it give the same bytes and the same state, in either direction; and what was
masked in some pieces and is unmasked in any others, with the same CTR stream, is
what it was. -/
theorem masking_exact :
    (∀ pieces pieces' : List Bytes, pieces.flatten = pieces'.flatten →
      self.applyAll ctr decrypt pieces = self.applyAll ctr decrypt pieces') ∧
    ∀ sent received : List Bytes, received.flatten = (self.applyAll ctr false sent).1 →
      self.applyAll ctr true received = (sent.flatten, (self.applyAll ctr false sent).2) := by
  refine ⟨fun pieces pieces' hsame => ?_, fun sent received hwire => ?_⟩
  · rw [applyAll_eq, applyAll_eq, hsame]
  · rw [applyAll_eq, hwire, applyAll_eq, apply_apply]

/-- A header that is none of application data, and the start of one that is. -/
theorem masking_exact_sample :
    (default.applyAll ⟨fun _ => 255, 0⟩ false [[22, 3], [3, 0, 1, 23, 3]]).1 =
        [233, 252, 252, 255, 254, 232, 252] ∧
      default.applyAll ⟨fun _ => 255, 0⟩ true [[233, 252, 252], [255, 254, 232, 252]] =
        ([22, 3, 3, 0, 1, 23, 3],
          (default.applyAll ⟨fun _ => 255, 0⟩ false [[22, 3], [3, 0, 1, 23, 3]]).2) := by
  have hwire : (default.applyAll ⟨fun _ => 255, 0⟩ false [[22, 3], [3, 0, 1, 23, 3]]).1 =
      [233, 252, 252, 255, 254, 232, 252] := by
    rw [applyAll_eq]
    simp [apply_cons, apply_nil, step, default, ofPart, ofHeader, Ctr.next]
    decide
  exact ⟨hwire, (masking_exact default _ true).2 _ [[233, 252, 252], [255, 254, 232, 252]]
    hwire.symm⟩

end HeaderXor

end Vole.Vless
