import Mathlib.Algebra.BigOperators.Intervals
import Mathlib.Algebra.Order.BigOperators.Group.Finset
import Vole.Hysteria2.Model.Bandwidth

/-!
# The pacer keeps the rate

A claim spends what it is granted from a credit that is never above the
capacity and grows by the rate of the claim before (`claim_after`), so the
bytes granted over a stretch of claims are bounded by what the stretch
started with and earned.
-/

namespace Vole.Hysteria2.Bucket

open Finset Nat

variable {self : Bucket} {claim : Claim}

theorem refilled_le_capacity : self.refilled claim ≤ claim.capacity * nanos := by
  unfold refilled
  split
  · exact le_rfl
  · exact min_le_right _ _

theorem refilled_le_earned (claim : Claim) {last : ℕ} (h : self.last = some last) :
    self.refilled claim ≤ self.credit + (claim.now - last) * self.rate.toNat := by
  rw [refilled, h]
  exact (min_le_left _ _).trans ((min_le_left _ _).trans (Nat.add_le_add_left (min_le_left _ _) _))

/-- The bytes a claim is granted. -/
def granted (self : Bucket) (claim : Claim) : ℕ :=
  if (self.claim claim).2 = 0 then claim.bytes.toNat else 0

theorem rate_pos (h : claim.rate ≠ 0) : 0 < claim.rate.toNat :=
  pos_of_ne_zero fun hzero => h (UInt64.toNat_inj.mp hzero)

theorem claim_of_le (h : claim.rate ≠ 0) (hcost : claim.bytes.toNat * nanos ≤ self.refilled claim) :
    self.claim claim =
      (⟨some claim.now, self.refilled claim - claim.bytes.toNat * nanos, claim.rate⟩, 0) := by
  rw [Bucket.claim, if_neg h]
  exact if_pos hcost

theorem claim_of_lt (h : claim.rate ≠ 0) (hcost : self.refilled claim < claim.bytes.toNat * nanos) :
    ∃ delay, self.claim claim = (⟨some claim.now, self.refilled claim, claim.rate⟩, delay) ∧
      0 < delay ∧ min (claim.bytes.toNat * nanos - self.refilled claim)
        (u64Max * claim.rate.toNat) ≤ delay * claim.rate.toNat := by
  have hrate := rate_pos h
  have hbound : 0 < u64Max := by simp [u64Max]
  refine ⟨_, by rw [Bucket.claim, if_neg h]; exact if_neg hcost.not_ge, ?_, ?_⟩
  · exact lt_min (div_pos (by omega) hrate) hbound
  · rw [← Nat.mul_min_mul_right]
    refine min_le_min_right _ ?_
    have hceil := lt_div_mul_add hrate
      (a := claim.bytes.toNat * nanos - self.refilled claim + (claim.rate.toNat - 1))
    omega

/-- **What a claim leaves**: the credit less what it grants. -/
theorem claim_after (self : Bucket) (h : claim.rate ≠ 0) :
    (self.claim claim).1.last = some claim.now ∧ (self.claim claim).1.rate = claim.rate ∧
      self.granted claim * nanos + (self.claim claim).1.credit = self.refilled claim := by
  unfold granted
  rcases le_or_gt (claim.bytes.toNat * nanos) (self.refilled claim) with hcost | hcost
  · rw [claim_of_le h hcost, if_pos rfl]
    exact ⟨rfl, rfl, Nat.add_sub_cancel' hcost⟩
  · obtain ⟨delay, hclaim, hdelay, -⟩ := claim_of_lt h hcost
    rw [hclaim, if_neg hdelay.ne']
    exact ⟨rfl, rfl, by rw [zero_mul, zero_add]⟩

/-- The bucket before claim `k`. -/
def before (self : Bucket) (claims : ℕ → Claim) : ℕ → Bucket
  | 0 => self
  | k + 1 => ((self.before claims k).claim (claims k)).1

variable {claims : ℕ → Claim}

/-- What is left after a stretch of claims is at most what it started with
and earned, less what was granted. -/
theorem granted_add_credit {i j : ℕ} (hij : i ≤ j) (hrates : ∀ k ≤ j, (claims k).rate ≠ 0) :
    (∑ k ∈ Icc i j, (self.before claims k).granted (claims k)) * nanos +
        (self.before claims (j + 1)).credit ≤
      (claims i).capacity * nanos +
        ∑ k ∈ Ico i j, ((claims (k + 1)).now - (claims k).now) * (claims k).rate.toNat := by
  induction j, hij using le_induction with
  | base =>
    obtain ⟨-, -, hcredit⟩ := claim_after (self.before claims i) (hrates i le_rfl)
    rw [Icc_self, sum_singleton, Ico_self, sum_empty, before, hcredit]
    exact refilled_le_capacity
  | succ j hij ih =>
    obtain ⟨hlast, hrate, -⟩ := claim_after (self.before claims j) (hrates j (by omega))
    obtain ⟨-, -, hcredit⟩ := claim_after (self.before claims (j + 1)) (hrates (j + 1) le_rfl)
    have hearned := refilled_le_earned (claims (j + 1)) hlast
    rw [hrate] at hearned
    rw [sum_Icc_succ_top (by omega), sum_Ico_succ_top hij, add_mul]
    have hrest := ih fun k hk => hrates k (by omega)
    simp only [before] at hcredit hrest ⊢
    omega

/-- **A delay is long enough** to earn what was missing. -/
theorem retry_granted (h : claim.rate ≠ 0) (hbytes : claim.bytes.toNat ≤ claim.capacity)
    (hdelay : (self.claim claim).2 ≠ 0) {later : ℕ}
    (hlater : claim.now + (self.claim claim).2 ≤ later) :
    ((self.claim claim).1.claim { claim with now := later }).2 = 0 := by
  rcases le_or_gt (claim.bytes.toNat * nanos) (self.refilled claim) with hcost | hcost
  · rw [claim_of_le h hcost] at hdelay
    exact absurd rfl hdelay
  · obtain ⟨delay, hclaim, -, hlong⟩ := claim_of_lt h hcost
    rw [hclaim] at hlater ⊢
    have hwait : delay * claim.rate.toNat ≤ (later - claim.now) * claim.rate.toNat :=
      mul_le_mul_right _ (by simp only at hlater; omega)
    -- a bucket is full long before the delay comes to its bound
    have hfull : claim.bytes.toNat * nanos ≤ u64Max * claim.rate.toNat := by
      have hmtu := claim.mtu.toNat_lt
      have hrate := rate_pos h
      have hcapacity : claim.capacity ≤ 655350 * claim.rate.toNat := by
        unfold Claim.capacity
        omega
      unfold nanos u64Max
      omega
    have hbound : claim.bytes.toNat * nanos ≤ u128Max := by
      have := claim.bytes.toNat_lt
      unfold nanos u128Max
      omega
    have hgranted : claim.bytes.toNat * nanos ≤
        (Bucket.mk (some claim.now) (self.refilled claim) claim.rate).refilled
          { claim with now := later } := by
      refine le_min (le_min ?_ hbound) (mul_le_mul_right _ hbytes)
      dsimp only
      omega
    exact congrArg Prod.snd (claim_of_le (by exact h) hgranted)

/-- **Pacing.** The bytes granted over a stretch of claims are at most the
capacity at its first claim and what was earned since, each claim's rate
holding until the next, and a claim that had to wait is granted after its
delay. Time that goes back is no time. -/
theorem pacing_exact (self : Bucket) :
    (∀ (claims : ℕ → Claim) i j, i ≤ j → (∀ k ≤ j, (claims k).rate ≠ 0) →
      (∑ k ∈ Icc i j, (self.before claims k).granted (claims k)) * nanos ≤
        (claims i).capacity * nanos +
          ∑ k ∈ Ico i j, ((claims (k + 1)).now - (claims k).now) * (claims k).rate.toNat) ∧
    ∀ claim : Claim, claim.rate ≠ 0 → claim.bytes.toNat ≤ claim.capacity →
      (self.claim claim).2 ≠ 0 → ∀ later, claim.now + (self.claim claim).2 ≤ later →
        ((self.claim claim).1.claim { claim with now := later }).2 = 0 := by
  refine ⟨fun claims i j hij hrates => ?_, fun claim h hbytes hdelay later hlater => ?_⟩
  · exact (le_add_right _ _).trans (granted_add_credit hij hrates)
  · exact retry_granted h hbytes hdelay hlater

/-- Eleven packets of one instant, and the last of them 11.2 ms later. -/
theorem pacing_exact_sample :
    (∑ k ∈ Icc 0 10, ((Bucket.mk none 0 0).before (fun _ => ⟨0, 1400, 125000, 1400⟩) k).granted
        ⟨0, 1400, 125000, 1400⟩) * nanos ≤ 14000 * nanos ∧
      (((Bucket.mk (some 0) 0 125000).claim ⟨0, 1400, 125000, 1400⟩).1.claim
        ⟨11200000, 1400, 125000, 1400⟩).2 = 0 := by
  refine ⟨((pacing_exact _).1 _ 0 10 (by decide) fun _ _ => by decide).trans (by decide +kernel), ?_⟩
  exact (pacing_exact _).2 ⟨0, 1400, 125000, 1400⟩ (by decide) (by decide) (by decide +kernel) _
    (by decide +kernel)

end Vole.Hysteria2.Bucket
