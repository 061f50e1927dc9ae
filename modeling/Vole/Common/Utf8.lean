import Mathlib.Data.List.Basic

/-!
# UTF-8

Whether a list of bytes is UTF-8, by a machine that reads it byte by byte
and knows what the current character still needs.
-/

namespace Vole.Utf8

open Option List

/-- What the current character still needs. -/
inductive State where
  /-- nothing: the next byte begins a character -/
  | start
  /-- this many continuation bytes, and one more -/
  | tail (more : ℕ)
  /-- after `E0`, which must not be overlong -/
  | afterE0
  /-- after `ED`, which must not begin a surrogate -/
  | afterED
  /-- after `F0`, which must not be overlong -/
  | afterF0
  /-- after `F4`, which must not be beyond the last character -/
  | afterF4
  deriving DecidableEq, Repr

/-- The first byte of a character. -/
def first (b : UInt8) : Option State :=
  if b < 0x80 then some .start
  else if b < 0xC2 then none
  else if b < 0xE0 then some (.tail 0)
  else if b = 0xE0 then some .afterE0
  else if b = 0xED then some .afterED
  else if b < 0xF0 then some (.tail 1)
  else if b = 0xF0 then some .afterF0
  else if b < 0xF4 then some (.tail 2)
  else if b = 0xF4 then some .afterF4
  else none

/-- A byte that continues a character, between these two. -/
def proceed (low high b : UInt8) (next : State) : Option State :=
  if low ≤ b ∧ b ≤ high then some next else none

/-- One byte. -/
def step : State → UInt8 → Option State
  | .start, b => first b
  | .tail 0, b => proceed 0x80 0xBF b .start
  | .tail (more + 1), b => proceed 0x80 0xBF b (.tail more)
  | .afterE0, b => proceed 0xA0 0xBF b (.tail 0)
  | .afterED, b => proceed 0x80 0x9F b (.tail 0)
  | .afterF0, b => proceed 0x90 0xBF b (.tail 1)
  | .afterF4, b => proceed 0x80 0x8F b (.tail 1)

/-- A list of bytes. -/
def run : State → List UInt8 → Option State
  | q, [] => some q
  | q, b :: rest => (step q b).bind fun next => run next rest

/-- `str::from_utf8(bytes).is_ok()`. -/
def isUtf8 (bytes : List UInt8) : Bool := run .start bytes == some .start

/-! ## The characters of a text -/

/-- A byte that is not the first one of a character. -/
def Continues (b : UInt8) : Prop := 0x80 ≤ b ∧ b ≤ 0xBF

/-- **The bytes of one character**: not overlong (`C0`, `C1` and what comes
after `E0` and `F0`), no surrogate (after `ED`), not above `10FFFF` (after
`F4`), and all of them. -/
def Character : List UInt8 → Prop
  | [a] => a < 0x80
  | [a, b] => 0xC2 ≤ a ∧ a < 0xE0 ∧ Continues b
  | [a, b, c] => 0xE0 ≤ a ∧ a < 0xF0 ∧ Continues b ∧ Continues c ∧ (a = 0xE0 → 0xA0 ≤ b) ∧
      (a = 0xED → b < 0xA0)
  | [a, b, c, d] => 0xF0 ≤ a ∧ a ≤ 0xF4 ∧ Continues b ∧ Continues c ∧ Continues d ∧
      (a = 0xF0 → 0x90 ≤ b) ∧ (a = 0xF4 → b < 0x90)
  | _ => False

/-- **Well-formed UTF-8**: one character after the other. -/
def WellFormed (bytes : List UInt8) : Prop :=
  ∃ text : List (List UInt8), (∀ c ∈ text, Character c) ∧ bytes = text.flatten

/-- The machine comes from `q` to the end of a character. -/
def Accepts (q : State) (bytes : List UInt8) : Prop := run q bytes = some .start

theorem Accepts.proceed {q next : State} {low high : UInt8} {bytes : List UInt8}
    (h : Accepts q bytes) (hq : q ≠ .start) (hstep : ∀ b, step q b = proceed low high b next) :
    ∃ b rest, bytes = b :: rest ∧ low ≤ b ∧ b ≤ high ∧ Accepts next rest := by
  cases bytes with
  | nil => exact absurd (some.inj h) hq
  | cons b rest =>
    rw [Accepts, run, hstep, Utf8.proceed] at h
    split_ifs at h with hb
    · exact ⟨b, rest, rfl, hb.1, hb.2, h⟩
    · cases h

/-- **What is accepted begins with a character**, and what begins with one
is accepted as the rest is. -/
theorem accepts_start {bytes : List UInt8} (hsome : bytes ≠ []) : Accepts .start bytes ↔
    ∃ c rest, Character c ∧ bytes = c ++ rest ∧ Accepts .start rest := by
  constructor
  · intro h
    obtain ⟨a, bytes, rfl⟩ := exists_cons_of_ne_nil hsome
    obtain ⟨q, hq, h⟩ : ∃ q, first a = some q ∧ Accepts q bytes := bind_eq_some_iff.1 h
    unfold first at hq
    split_ifs at hq with h₁ h₂ h₃ h₄ h₅ h₆ h₇ h₈ h₉ <;> cases hq
    · exact ⟨[a], bytes, h₁, rfl, h⟩
    · obtain ⟨b, rest, rfl, hb, hb', h⟩ := h.proceed nofun fun _ => rfl
      exact ⟨[a, b], rest, by simp only [Character, Continues]; grind, rfl, h⟩
    iterate 3
      obtain ⟨b, rest, rfl, hb, hb', h⟩ := h.proceed nofun fun _ => rfl
      obtain ⟨c, rest, rfl, hc, hc', h⟩ := h.proceed nofun fun _ => rfl
      exact ⟨[a, b, c], rest, by simp only [Character, Continues]; grind, rfl, h⟩
    all_goals
      obtain ⟨b, rest, rfl, hb, hb', h⟩ := h.proceed nofun fun _ => rfl
      obtain ⟨c, rest, rfl, hc, hc', h⟩ := h.proceed nofun fun _ => rfl
      obtain ⟨d, rest, rfl, hd, hd', h⟩ := h.proceed nofun fun _ => rfl
      exact ⟨[a, b, c, d], rest, by simp only [Character, Continues]; grind, rfl, h⟩
  · rintro ⟨c, rest, hc, rfl, hrest⟩
    unfold Accepts at hrest ⊢
    match c, hc with
    | [a], hc | [a, b], hc | [a, b, c], hc | [a, b, c, d], hc =>
      simp only [Character, Continues] at hc
      simp only [cons_append, nil_append, run, step, first]
      grind [step, proceed]

theorem isUtf8_iff (bytes : List UInt8) : isUtf8 bytes = true ↔ WellFormed bytes := by
  have haccepts : ∀ bytes, isUtf8 bytes = true ↔ Accepts .start bytes := fun _ => beq_iff_eq
  rw [haccepts]
  constructor
  · intro h
    induction hlength : bytes.length using Nat.strongRecOn generalizing bytes with
    | _ n ih =>
      by_cases hsome : bytes = []
      · exact ⟨[], nofun, by rw [hsome]; rfl⟩
      · obtain ⟨c, rest, hc, rfl, hrest⟩ := (accepts_start hsome).1 h
        have hpos : 0 < c.length := length_pos_iff.2 fun hnil => by simp [hnil, Character] at hc
        rw [length_append] at hlength
        obtain ⟨text, htext, rfl⟩ := ih rest.length (by omega) rest hrest rfl
        exact ⟨c :: text, forall_mem_cons.2 ⟨hc, htext⟩, rfl⟩
  · rintro ⟨text, htext, rfl⟩
    induction text with
    | nil => rfl
    | cons c text ih =>
      obtain ⟨hc, htext⟩ := forall_mem_cons.1 htext
      refine (accepts_start fun hnil => ?_).2 ⟨c, text.flatten, hc, rfl, ih htext⟩
      simp [(append_eq_nil_iff.1 hnil).1, Character] at hc

end Vole.Utf8
