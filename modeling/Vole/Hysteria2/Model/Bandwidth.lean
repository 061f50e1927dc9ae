import Mathlib.Algebra.Order.Ring.Nat
import Mathlib.Logic.Function.Basic

/-!
# The bandwidth of Hysteria2

The pacer's token bucket, and the loss ratio that the congestion
controller stores for it. Instants and durations are in nanoseconds.
-/

namespace Vole.Hysteria2

/-- The nanoseconds of a second. -/
@[irreducible] def nanos : ℕ := 1000000000

/-- `u64::MAX`. -/
@[irreducible] def u64Max : ℕ := 2 ^ 64 - 1

/-- `u128::MAX`. -/
@[irreducible] def u128Max : ℕ := 2 ^ 128 - 1

/-! ## The pacer -/

/-- `bandwidth::Bucket`. The credit is in byte-nanoseconds. -/
structure Bucket where
  last : Option ℕ
  credit : ℕ
  rate : UInt64

/-- The arguments of a call of `claim`. -/
structure Claim where
  now : ℕ
  bytes : UInt64
  rate : UInt64
  mtu : UInt16

/-- The bytes the bucket holds at most. -/
def Claim.capacity (claim : Claim) : ℕ := max (claim.mtu.toNat * 10) (claim.rate.toNat / 250)

namespace Bucket

/-- What is assigned to `self.credit`. -/
def refilled (self : Bucket) (claim : Claim) : ℕ :=
  match self.last with
  | none => claim.capacity * nanos
  | some last =>
    let earned := min ((claim.now - last) * self.rate.toNat) u128Max
    min (min (self.credit + earned) u128Max) (claim.capacity * nanos)

/-- The bucket afterwards, and the delay. -/
def claim (self : Bucket) (claim : Claim) : Bucket × ℕ :=
  if claim.rate = 0 then ({ self with last := none }, 0)
  else
    let credit := self.refilled claim
    let cost := claim.bytes.toNat * nanos
    if cost ≤ credit then (⟨some claim.now, credit - cost, claim.rate⟩, 0)
    else
      (⟨some claim.now, credit, claim.rate⟩,
        -- `div_ceil`
        min ((cost - credit + (claim.rate.toNat - 1)) / claim.rate.toNat) u64Max)

end Bucket

/-! ## The loss ratio -/

/-- `bandwidth::Slot`. -/
structure Slot where
  second : ℕ
  acknowledged : ℕ
  lost : ℕ

/-- `u64::saturating_add`. -/
def saturatingAdd (a b : ℕ) : ℕ := min (a + b) u64Max

/-- `bandwidth::Switchable`, with the ratio it stores in `Bandwidth`. -/
structure Switchable where
  start : ℕ
  slots : Fin 5 → Slot
  ratio : ℕ

namespace Switchable

/-- `ControllerFactory::build`. -/
def build (now : ℕ) : Switchable := ⟨now, fun _ => ⟨0, 0, 0⟩, 1000000⟩

/-- The slot of a second. -/
abbrev slotOf (second : ℕ) : Fin 5 := Fin.ofNat 5 second

/-- The slots with a sample of this second. -/
def record (slots : Fin 5 → Slot) (second acknowledged lost : ℕ) : Fin 5 → Slot :=
  let slot := slots (slotOf second)
  let slot := if slot.second ≠ second then ⟨second, 0, 0⟩ else slot
  Function.update slots (slotOf second)
    { slot with
      acknowledged := saturatingAdd slot.acknowledged acknowledged
      lost := saturatingAdd slot.lost lost }

/-- The ratio of the slots of the last five seconds. -/
def lossRatio (slots : Fin 5 → Slot) (second : ℕ) : ℕ :=
  let counted := (List.ofFn slots).filter fun slot => second - slot.second < 5
  let (ack, loss) := counted.foldl (fun (a, l) slot =>
    (saturatingAdd a slot.acknowledged, saturatingAdd l slot.lost)) (0, 0)
  let total := saturatingAdd ack loss
  if total < 50 then 1000000 else max (ack * 1000000 / total) 800000

def sample (self : Switchable) (now acknowledged lost : ℕ) : Switchable :=
  let second := (now - self.start) / nanos
  let slots := record self.slots second acknowledged lost
  { self with slots, ratio := lossRatio slots second }

/-- `Bandwidth::compensated`. -/
def compensated (self : Switchable) (rate : UInt64) : ℕ :=
  min (rate.toNat * 1000000 / self.ratio) u64Max

end Switchable

end Vole.Hysteria2
