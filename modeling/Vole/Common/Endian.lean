import Mathlib.Algebra.Group.Nat.Defs

/-!
# Numbers as bytes

Sixteen bits as two bytes, the high one first, and numbers of any length, the
lowest byte first or the highest.
-/

namespace Vole

open List Nat

/-- `u16::to_be_bytes`. -/
def be16 (value : ℕ) : List UInt8 := [UInt8.ofNat (value / 256), UInt8.ofNat (value % 256)]

/-- `u16::from_be_bytes`. -/
def ofBe16 (high low : UInt8) : ℕ := high.toNat * 256 + low.toNat

theorem ofBe16_lt (high low : UInt8) : ofBe16 high low < 65536 := by
  have hhigh := high.toNat_lt
  have hlow := low.toNat_lt
  unfold ofBe16
  omega

/-- **A number comes back.** -/
theorem ofBe16_be16 {value : ℕ} (h : value < 65536) :
    ofBe16 (UInt8.ofNat (value / 256)) (UInt8.ofNat (value % 256)) = value := by
  have hhigh : value / 256 < 256 := by omega
  have hlow : value % 256 < 256 := by omega
  rw [ofBe16, UInt8.toNat_ofNat_of_lt' hhigh, UInt8.toNat_ofNat_of_lt' hlow]
  omega

/-! ## The lowest byte first -/

/-- The number of some bytes, the lowest first. -/
def ofLe : List UInt8 → ℕ
  | [] => 0
  | byte :: rest => byte.toNat + 256 * ofLe rest

variable (bytes : List UInt8)

theorem ofLe_lt : ofLe bytes < 256 ^ bytes.length := by
  induction bytes with
  | nil => exact Nat.one_pos
  | cons byte rest ih =>
    have hbyte : byte.toNat < 256 := byte.toNat_lt
    rw [ofLe, length_cons, pow_succ]
    omega

/-- Bytes of one length are told apart by their number. -/
theorem ofLe_inj {a b : List UInt8} (hlength : a.length = b.length) (h : ofLe a = ofLe b) :
    a = b := by
  induction a generalizing b with
  | nil => exact (length_eq_zero_iff.mp hlength.symm).symm
  | cons x a ih =>
    cases b with
    | nil => cases hlength
    | cons y b =>
      have hx := x.toNat_lt
      have hy := y.toNat_lt
      rw [ofLe, ofLe] at h
      rw [ih (succ.inj hlength) (by omega), UInt8.toNat_inj.mp (by omega : x.toNat = y.toNat)]

/-! ## The highest byte first -/

/-- A number as so many bytes. -/
def toBe : ℕ → ℕ → List UInt8
  | 0, _ => []
  | length + 1, value => toBe length (value / 256) ++ [UInt8.ofNat (value % 256)]

/-- The number of some bytes, the highest first. -/
def ofBe (bytes : List UInt8) : ℕ := ofLe bytes.reverse

@[simp] theorem length_toBe (length value : ℕ) : (toBe length value).length = length := by
  induction length generalizing value with
  | zero => rfl
  | succ length ih => rw [toBe, length_append, ih, length_singleton]

/-- **A number comes back from its bytes.** -/
theorem ofBe_toBe {length value : ℕ} (h : value < 256 ^ length) :
    ofBe (toBe length value) = value := by
  induction length generalizing value with
  | zero =>
    rw [lt_one_iff.mp h]
    rfl
  | succ length ih =>
    have hquotient : value / 256 < 256 ^ length := by
      exact Nat.div_lt_of_lt_mul (Nat.mul_comm _ _ ▸ h)
    have hbyte : value % 256 < 256 := mod_lt _ (by omega)
    have hsplit : ofBe (toBe (length + 1) value) =
        (UInt8.ofNat (value % 256)).toNat + 256 * ofBe (toBe length (value / 256)) := by
      rw [ofBe, toBe, reverse_append]
      rfl
    rw [hsplit, ih hquotient, UInt8.toNat_ofNat_of_lt' hbyte]
    omega

theorem ofBe_lt : ofBe bytes < 256 ^ bytes.length := by
  have hlt := ofLe_lt bytes.reverse
  rwa [length_reverse] at hlt

/-- And bytes come back from their number. -/
theorem toBe_ofBe : toBe bytes.length (ofBe bytes) = bytes := by
  have hlength : (toBe bytes.length (ofBe bytes)).length = bytes.length := length_toBe _ _
  have hsame := ofBe_toBe (ofBe_lt bytes)
  refine reverse_inj.mp (ofLe_inj ?_ hsame)
  rw [length_reverse, length_reverse, hlength]

end Vole
