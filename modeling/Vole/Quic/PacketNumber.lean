import Mathlib.Data.Nat.Bitwise

/-!
# Packet numbers of QUIC

The sniffer has the low bytes of a packet number and takes the number
nearest to the one it expects. Arithmetic of a `u64` that would overflow
is `none`.
-/

namespace Vole.Quic

open Nat

/-- `u64::MAX`. -/
def maxU64 : ℕ := 2 ^ 64 - 1

/-- The packet number after the largest that was seen. -/
def expectedNumber (largest : Option UInt64) : ℕ :=
  -- `saturating_add`
  largest.elim 0 fun value => min (value.toNat + 1) maxU64

/-- `quic_sniffer::reconstruct_packet_number`. -/
def reconstructPacketNumber (largest : Option UInt64) (truncated : UInt64) (encodedLength : ℕ) :
    Option ℕ := do
  let expected := expectedNumber largest
  let packetNumberBits := encodedLength * 8
  guard (packetNumberBits < 64)
  let window := 2 ^ packetNumberBits
  let halfWindow := window / 2
  let mask := window - 1
  -- `!mask` has the other bits
  let candidate := (expected &&& (maxU64 - mask)) ||| truncated.toNat
  if min (candidate + halfWindow) maxU64 ≤ expected ∧ candidate < 2 ^ 62 - window then
    guard (candidate + window ≤ maxU64)
    return candidate + window
  else if min (expected + halfWindow) maxU64 < candidate ∧ window ≤ candidate then
    return candidate - window
  else return candidate

theorem expectedNumber_le (largest : Option UInt64) : expectedNumber largest ≤ maxU64 := by
  cases largest with
  | none => exact zero_le _
  | some value => exact min_le_right _ _

/-- Without its low bits a number is a multiple of the window. -/
theorem and_not_mask {x k : ℕ} (hx : x ≤ maxU64) (hk : k < 64) :
    x &&& (maxU64 - (2 ^ k - 1)) = 2 ^ k * (x / 2 ^ k) := by
  have hle : 2 ^ k ≤ 2 ^ 64 := Nat.pow_le_pow_right (by decide) (by omega)
  have hmask : maxU64 - (2 ^ k - 1) = 2 ^ 64 - (2 ^ k - 1 + 1) := by
    unfold maxU64
    omega
  refine eq_of_testBit_eq fun i => ?_
  rw [hmask, testBit_and, testBit_two_pow_sub_succ (by omega), testBit_two_pow_sub_one,
    mul_comm, ← shiftRight_eq_div_pow, ← shiftLeft_eq, testBit_shiftLeft,
    testBit_shiftRight]
  rcases lt_or_ge i k with hlow | hhigh
  · simp [hlow, not_le.mpr hlow]
  · rw [Nat.add_sub_cancel' hhigh]
    rcases lt_or_ge i 64 with hin | hout
    · simp [hin, hhigh, not_lt.mpr hhigh]
    · have hbit : x.testBit i = false := testBit_lt_two_pow
        (Nat.lt_of_le_of_lt hx (Nat.lt_of_lt_of_le (by decide) (Nat.pow_le_pow_right (by decide) hout)))
      simp [hbit]

/-- The number that is taken for a candidate. -/
def nearest (expected window candidate : ℕ) : ℕ :=
  if min (candidate + window / 2) maxU64 ≤ expected ∧ candidate < 2 ^ 62 - window then
    candidate + window
  else if min (expected + window / 2) maxU64 < candidate ∧ window ≤ candidate then
    candidate - window
  else candidate

/-- No operation overflows. -/
theorem reconstruct_eq (largest : Option UInt64) (truncated : UInt64) {length : ℕ}
    (h : length ≤ 4) :
    reconstructPacketNumber largest truncated length =
      some (nearest (expectedNumber largest) (2 ^ (length * 8))
        ((expectedNumber largest &&& (maxU64 - (2 ^ (length * 8) - 1))) ||| truncated.toNat)) := by
  have hbits : length * 8 < 64 := by omega
  simp only [reconstructPacketNumber, nearest, guard, if_pos hbits]
  have hword : 2 ^ 62 ≤ maxU64 := by decide
  split_ifs with hnear hroom <;> first | rfl | omega

theorem nearest_mod (expected window candidate : ℕ) :
    nearest expected window candidate % window = candidate % window := by
  unfold nearest
  split_ifs with hbefore hafter
  · exact add_mod_right _ _
  · exact (mod_eq_sub_mod hafter.2).symm
  · rfl

/-- **Packet numbers.** A number within half a window of the expected one
is found from its low bytes, and whatever bytes are sent, the number found
ends in them and nothing overflows. -/
theorem packet_number_exact (largest : Option UInt64) (length : ℕ) (hmin : 1 ≤ length)
    (hmax : length ≤ 4) :
    (∀ pn < 2 ^ 62,
      let expected := largest.elim 0 fun value => value.toNat + 1
      expected < pn + 2 ^ (8 * length - 1) → pn ≤ expected + 2 ^ (8 * length - 1) →
        reconstructPacketNumber largest (UInt64.ofNat (pn % 2 ^ (8 * length))) length =
          some pn) ∧
    ∀ truncated, ∃ result, reconstructPacketNumber largest truncated length = some result ∧
      result % 2 ^ (8 * length) = truncated.toNat % 2 ^ (8 * length) := by
  have hbits : length * 8 < 64 := by omega
  have hexpected := expectedNumber_le largest
  rw [mul_comm]
  refine ⟨fun pn hpn hlow hhigh => ?_, fun truncated => ⟨_, reconstruct_eq largest truncated hmax, ?_⟩⟩
  · have htruncated : pn % 2 ^ (length * 8) < 2 ^ (length * 8) := Nat.mod_lt _ (Nat.two_pow_pos _)
    have hword : 2 ^ (length * 8) < 2 ^ 64 := Nat.pow_lt_pow_right (by decide) hbits
    have hhalf : 2 ^ (length * 8 - 1) < 2 ^ 63 := Nat.pow_lt_pow_right (by decide) (by omega)
    have hsame : expectedNumber largest = largest.elim 0 fun value => value.toNat + 1 := by
      cases largest with
      | none => rfl
      | some value => exact min_eq_left (by simp only [Option.elim, maxU64] at *; omega)
    rw [reconstruct_eq _ _ hmax, UInt64.toNat_ofNat_of_lt' (htruncated.trans hword),
      and_not_mask hexpected hbits, ← two_pow_add_eq_or_of_lt htruncated]
    unfold nearest maxU64
    -- the windows are numbers, and the rest is linear
    obtain rfl | rfl | rfl | rfl : length = 1 ∨ length = 2 ∨ length = 3 ∨ length = 4 := by omega
    all_goals
      refine congrArg some ?_
      split_ifs <;> omega
  · -- the candidate has the low bits that were sent
    rw [nearest_mod, and_not_mask hexpected hbits, or_mod_two_pow, mul_mod_right, zero_or]

theorem packet_number_exact_sample :
    reconstructPacketNumber (some 0xa82f30ea) (UInt64.ofNat (0xa82f9b32 % 2 ^ (8 * 2))) 2 =
      some 0xa82f9b32 :=
  (packet_number_exact (some 0xa82f30ea) 2 (by decide) (by decide)).1 _ (by decide) (by decide)
    (by decide)

end Vole.Quic
