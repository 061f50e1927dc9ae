import Mathlib.Algebra.BigOperators.Fin
import Mathlib.Algebra.Order.BigOperators.Group.List
import Mathlib.Algebra.Order.Group.Nat
import Vole.Hysteria2.Model.Bandwidth

/-!
# The loss ratio is that of the last five seconds

A slot is taken by a second and given up to a later one of the same
residue, so it holds the samples of the last second that fell to it
(`Kept`). Five seconds in a row fall to five slots.
-/

namespace Vole.Hysteria2

open List Function Switchable Bool Nat

/-- The arguments of a call of `sample`. -/
structure Sample where
  now : ℕ
  acknowledged : ℕ
  lost : ℕ

/-- The whole second of a sample, counted from the start. -/
def Sample.second (start : ℕ) (x : Sample) : ℕ := (x.now - start) / nanos

/-- The controller after the samples. -/
def Switchable.run (start : ℕ) (samples : List Sample) : Switchable :=
  samples.foldl (fun s x => s.sample x.now x.acknowledged x.lost) (.build start)

/-- What the ratio of these samples is meant to be. -/
def ratioOf (samples : List Sample) : ℕ :=
  let ack := (samples.map Sample.acknowledged).sum
  let total := ack + (samples.map Sample.lost).sum
  if total < 50 then 1000000 else max 800000 (1000000 * ack / total)

/-- The samples of the five seconds up to `second`. -/
def recent (start second : ℕ) (samples : List Sample) : List Sample :=
  samples.filter fun x => x.second start ≤ second ∧ second < x.second start + 5

/-! ## What the slots hold -/

/-- A slot has the counts of these samples. -/
structure Slot.Holds (slot : Slot) (samples : List Sample) : Prop where
  acknowledged : slot.acknowledged = min (samples.map Sample.acknowledged).sum u64Max
  lost : slot.lost = min (samples.map Sample.lost).sum u64Max

/-- The samples of a second, where it falls to slot `i`. -/
def fallen (start : ℕ) (samples : List Sample) (second : ℕ) (i : Fin 5) : List Sample :=
  samples.filter fun x => x.second start = second ∧ slotOf second = i

/-- Each slot holds the samples of the last second that fell to it. -/
structure Kept (start : ℕ) (samples : List Sample) (slots : Fin 5 → Slot) : Prop where
  holds : ∀ i, (slots i).Holds (fallen start samples (slots i).second i)
  latest : ∀ x ∈ samples, x.second start ≤ (slots (slotOf (x.second start))).second
  placed : ∀ i, (slots i).second = 0 ∨
    slotOf (slots i).second = i ∧ ∃ x ∈ samples, x.second start = (slots i).second

variable {start second : ℕ} {samples : List Sample} {x : Sample} {slots : Fin 5 → Slot}

theorem saturatingAdd_min (a b : ℕ) : saturatingAdd (min a u64Max) b = min (a + b) u64Max := by
  unfold saturatingAdd
  omega

theorem Slot.Holds.nil : Slot.Holds ⟨second, 0, 0⟩ [] :=
  ⟨(zero_min _).symm, (zero_min _).symm⟩

theorem Slot.Holds.add {slot : Slot} (h : slot.Holds samples) (x : Sample) :
    Slot.Holds ⟨second, saturatingAdd slot.acknowledged x.acknowledged,
      saturatingAdd slot.lost x.lost⟩ (samples ++ [x]) := by
  refine ⟨?_, ?_⟩
  · rw [h.acknowledged, saturatingAdd_min, map_append, sum_append_nat]
    rfl
  · rw [h.lost, saturatingAdd_min, map_append, sum_append_nat]
    rfl

theorem fallen_concat (i : Fin 5) :
    fallen start (samples ++ [x]) second i = fallen start samples second i ++
      if x.second start = second ∧ slotOf second = i then [x] else [] := by
  unfold fallen
  rw [filter_append, filter_singleton, cond_decide]

theorem Kept.init : Kept start [] (fun _ => ⟨0, 0, 0⟩) :=
  ⟨fun _ => .nil, nofun, fun _ => .inl rfl⟩

section Last

variable (h : Kept start samples slots) (hlast : ∀ y ∈ samples, y.second start ≤ second)

include h hlast

theorem Kept.le_last (i : Fin 5) : (slots i).second ≤ second := by
  rcases h.placed i with hzero | ⟨-, y, hy, hsame⟩
  · omega
  · exact hsame ▸ hlast y hy

/-- The slots stay so with a sample that is not before the others. -/
theorem Kept.record (hx : x.second start = second) :
    Kept start (samples ++ [x]) (record slots second x.acknowledged x.lost) := by
  have hhere : (Switchable.record slots second x.acknowledged x.lost (slotOf second)).second =
      second := by
    rw [Switchable.record, update_self]
    dsimp only
    split_ifs with hother
    · rfl
    · exact not_not.mp hother
  have helse : ∀ i ≠ slotOf second,
      Switchable.record slots second x.acknowledged x.lost i = slots i :=
    fun i hi => update_of_ne hi _ _
  refine ⟨fun i => ?_, fun y hy => ?_, fun i => ?_⟩
  · rw [fallen_concat, hx]
    by_cases hi : i = slotOf second
    · subst hi
      rw [hhere, if_pos ⟨rfl, rfl⟩, Switchable.record, update_self]
      split_ifs with hother
      · -- a sample of this second would have set the slot to it
        have hnone : fallen start samples second (slotOf second) = [] := by
          refine filter_eq_nil_iff.mpr fun y hy hsame => hother ?_
          have hlatest := h.latest y hy
          rw [(of_decide_eq_true hsame).1] at hlatest
          exact le_antisymm (h.le_last hlast _) hlatest
        rw [hnone]
        exact Slot.Holds.nil.add x
      · have hholds := h.holds (slotOf second)
        rw [not_not.mp hother] at hholds
        exact hholds.add x
    · have hnot : ¬ (second = (slots i).second ∧ slotOf (slots i).second = i) := by
        rintro ⟨hsame, hin⟩
        exact hi (hin.symm.trans (congrArg _ hsame.symm))
      rw [helse i hi, if_neg hnot, append_nil]
      exact h.holds i
  · rcases mem_append.mp hy with hy | hy
    · by_cases hi : slotOf (y.second start) = slotOf second
      · rw [hi, hhere]
        exact hlast y hy
      · rw [helse _ hi]
        exact h.latest y hy
    · rw [mem_singleton.mp hy, hx, hhere]
  · by_cases hi : i = slotOf second
    · rw [hi, hhere]
      exact .inr ⟨rfl, x, mem_concat_self, hx⟩
    · rw [helse i hi]
      refine (h.placed i).imp_right fun ⟨hi, y, hy, hsame⟩ => ⟨hi, y, ?_, hsame⟩
      exact mem_append_left _ hy

/-- What counts of a slot are its samples of the last five seconds. -/
theorem Kept.counted (i : Fin 5) :
    (if second - (slots i).second < 5 then fallen start samples (slots i).second i else []) =
      (recent start second samples).filter fun x => slotOf (x.second start) = i := by
  have hpast := h.le_last hlast i
  have hslot : ∀ x ∈ samples, slotOf (x.second start) = i →
      x.second start ≤ (slots i).second := fun x hx hi => hi ▸ h.latest x hx
  unfold recent
  rw [filter_filter]
  split_ifs with hcounted
  · refine filter_congr fun x hx => ?_
    simp only [← decide_and, decide_eq_decide]
    constructor
    · rintro ⟨hsame, hi⟩
      exact ⟨hsame ▸ hi, hlast x hx, by omega⟩
    · rintro ⟨hi, -, hrecent⟩
      have hle := hslot x hx hi
      have hsame : x.second start = (slots i).second := by
        rcases h.placed i with hzero | ⟨hplaced, -⟩
        · omega
        · have hresidue := congrArg Fin.val (hplaced.trans hi.symm)
          simp only [Fin.ofNat] at hresidue
          omega
      exact ⟨hsame, hsame ▸ hi⟩
  · refine (filter_eq_nil_iff.mpr fun x hx hin => ?_).symm
    simp only [and_eq_true, decide_eq_true_eq] at hin
    have hle := hslot x hx hin.1
    omega

omit h hlast

theorem sum_filter_map {α : Type} (p : α → Prop) [DecidablePred p] (f : α → ℕ) (l : List α) :
    ((l.filter p).map f).sum = (l.map fun a => if p a then f a else 0).sum := by
  simp [sum_map_ite]

/-- The samples of all slots are all samples. -/
theorem sum_slots (count : Sample → ℕ) :
    ∑ i, ((samples.filter fun x => slotOf (x.second start) = i).map count).sum =
      (samples.map count).sum := by
  simp only [sum_filter_map]
  induction samples with
  | nil => simp
  | cons x rest ih =>
    simp only [map_cons, sum_cons, Finset.sum_add_distrib, ih, Finset.sum_ite_eq, Finset.mem_univ,
      if_true]

include h hlast

/-- **What the slots count** are the recent samples, where they do not
saturate. -/
theorem Kept.sum_counted {part : Slot → ℕ} {count : Sample → ℕ}
    (hpart : ∀ i, part (slots i) =
      min ((fallen start samples (slots i).second i).map count).sum u64Max)
    (hfits : ((recent start second samples).map count).sum ≤ u64Max) :
    (((ofFn slots).filter fun slot => second - slot.second < 5).map part).sum =
      ((recent start second samples).map count).sum := by
  rw [sum_filter_map, map_ofFn, sum_ofFn, ← sum_slots]
  refine Finset.sum_congr rfl fun i _ => ?_
  have hcounted := h.counted hlast i
  dsimp only [comp_apply]
  split_ifs at hcounted ⊢ with hin
  · rw [hpart, hcounted, min_eq_left]
    exact ((filter_sublist.map count).sum_le_sum (by simp)).trans hfits
  · rw [← hcounted]
    rfl

omit h hlast

/-! ## The ratio -/

theorem foldl_saturatingAdd (counted : List Slot) (a l : ℕ) :
    counted.foldl (fun (a, l) slot =>
        (saturatingAdd a slot.acknowledged, saturatingAdd l slot.lost))
        (min a u64Max, min l u64Max) =
      (min (a + (counted.map Slot.acknowledged).sum) u64Max,
        min (l + (counted.map Slot.lost).sum) u64Max) := by
  induction counted generalizing a l with
  | nil => simp
  | cons slot rest ih =>
    simp only [foldl_cons, saturatingAdd_min, ih, map_cons, sum_cons, add_assoc]

theorem lossRatio_eq :
    lossRatio slots second =
      let counted := (ofFn slots).filter fun slot => second - slot.second < 5
      let ack := min (counted.map Slot.acknowledged).sum u64Max
      let total := saturatingAdd ack (min (counted.map Slot.lost).sum u64Max)
      if total < 50 then 1000000 else max (ack * 1000000 / total) 800000 := by
  have hfold := foldl_saturatingAdd ((ofFn slots).filter fun slot => second - slot.second < 5) 0 0
  simp only [zero_min, zero_add] at hfold
  simp only [lossRatio, hfold]

include h hlast

theorem Kept.lossRatio (hfits : ((recent start second samples).map Sample.acknowledged).sum +
      ((recent start second samples).map Sample.lost).sum ≤ u64Max) :
    lossRatio slots second = ratioOf (recent start second samples) := by
  have hack := h.sum_counted hlast (fun i => (h.holds i).acknowledged) (by omega)
  have hlost := h.sum_counted hlast (fun i => (h.holds i).lost) (by omega)
  rw [lossRatio_eq]
  simp only [hack, hlost, ratioOf, saturatingAdd, min_eq_left hfits,
    min_eq_left (le_of_add_right_le hfits), min_eq_left (le_of_add_left_le hfits),
    mul_comm, max_comm]

end Last

/-- The ratio is between 0.8 and 1. -/
theorem lossRatio_mem : 800000 ≤ lossRatio slots second ∧ lossRatio slots second ≤ 1000000 := by
  rw [lossRatio_eq]
  dsimp only
  split_ifs with htotal
  · omega
  · refine ⟨le_max_right _ _, max_le (Nat.div_le_of_le_mul (Nat.mul_le_mul_right _ ?_)) (by omega)⟩
    unfold saturatingAdd
    omega

namespace Switchable

theorem run_concat (x : Sample) :
    run start (samples ++ [x]) = (run start samples).sample x.now x.acknowledged x.lost :=
  foldl_concat ..

theorem run_start : (run start samples).start = start := by
  induction samples using reverseRecOn with
  | nil => rfl
  | append_singleton rest x ih =>
    rw [run_concat]
    exact ih

theorem slots_run_concat : (run start (samples ++ [x])).slots =
    record (run start samples).slots (x.second start) x.acknowledged x.lost := by
  rw [run_concat, sample, run_start]
  rfl

theorem second_le (hsorted : (samples ++ [x]).Pairwise fun x y => x.now ≤ y.now) :
    ∀ y ∈ samples, y.second start ≤ x.second start := fun y hy =>
  Nat.div_le_div_right (Nat.sub_le_sub_right
    ((pairwise_append.mp hsorted).2.2 y hy x mem_cons_self) _)

theorem kept_run (hsorted : samples.Pairwise fun x y => x.now ≤ y.now) :
    Kept start samples (run start samples).slots := by
  induction samples using reverseRecOn with
  | nil => exact .init
  | append_singleton rest x ih =>
    rw [slots_run_concat]
    exact (ih (pairwise_append.mp hsorted).1).record (second_le hsorted) rfl

theorem ratio_mem : 800000 ≤ (run start samples).ratio ∧ (run start samples).ratio ≤ 1000000 := by
  rcases samples.eq_nil_or_concat with rfl | ⟨rest, x, rfl⟩
  · exact ⟨(by decide : 800000 ≤ 1000000), le_rfl⟩
  · rw [concat_eq_append, run_concat]
    exact lossRatio_mem

/-- **Loss compensation.** After every sample the ratio is that of the
samples of the last five seconds, the current one among them, and the
compensated rate is between the rate and five quarters of it. -/
theorem ratio_exact (start : ℕ) :
    (∀ samples last, (samples ++ [last]).Pairwise (fun x y => x.now ≤ y.now) →
      let window := recent start (last.second start) (samples ++ [last])
      (window.map Sample.acknowledged).sum + (window.map Sample.lost).sum ≤ u64Max →
        (run start (samples ++ [last])).ratio = ratioOf window) ∧
    ∀ samples (rate : UInt64), rate.toNat ≤ (run start samples).compensated rate ∧
      (run start samples).compensated rate ≤ rate.toNat * 5 / 4 := by
  refine ⟨fun samples last hsorted hfits => ?_, fun samples rate => ?_⟩
  · have hkept : Kept start _ _ := kept_run hsorted
    rw [slots_run_concat] at hkept
    rw [run_concat, sample, run_start]
    exact hkept.lossRatio (forall_mem_append.mpr ⟨second_le hsorted, by simp [Sample.second]⟩) hfits
  · obtain ⟨hlow, hhigh⟩ : 800000 ≤ (run start samples).ratio ∧ _ := ratio_mem
    have hrate := rate.toNat_lt
    refine ⟨le_min ?_ ?_, (min_le_left _ _).trans ?_⟩
    · rw [le_div_iff_mul_le (by omega)]
      exact mul_le_mul_left _ hhigh
    · unfold u64Max
      omega
    · calc rate.toNat * 1000000 / (run start samples).ratio
          ≤ rate.toNat * 1000000 / 800000 := div_le_div_left hlow (by decide)
        _ = rate.toNat * 5 / 4 := by omega

/-- Losses of more than five seconds ago are forgotten. -/
theorem ratio_exact_sample :
    (run 0 ([⟨0, 0, 100⟩] ++ [⟨5 * nanos, 45, 5⟩])).ratio = 900000 ∧
      (125000 : UInt64).toNat ≤ (run 0 [⟨0, 0, 100⟩]).compensated 125000 := by
  refine ⟨((ratio_exact 0).1 _ _ (by decide +kernel) (by decide +kernel)).trans ?_,
    ((ratio_exact 0).2 _ _).1⟩
  decide +kernel

end Switchable

end Vole.Hysteria2
