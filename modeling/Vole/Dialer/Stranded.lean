import Vole.Common.Runs
import Vole.Dialer.Claims

/-!
# No caller of the DNS workers is stranded

A worker that becomes free wakes a call that is registered, or leaves the
permit for the next one. The permit is one: where two calls have found every
worker busy and neither is registered yet, two workers that become free leave
one permit between them, and one of the calls sleeps beside a free worker
(`caller_stranded`). Where a permit that is stored already meets at most one
such call (`apart`), nobody is stranded (`workers_sound`).
-/

namespace Vole.Dialer

open Place List Nat

variable {α : Type}

namespace DnsWorkerPool

variable {s t : DnsWorkerPool α} {e : PoolEvent α} {history : List (DnsWorkerPool α × PoolEvent α)}

/-! ## What is counted -/

section

variable (s)

/-- The workers that are free. -/
def idle : ℕ := s.workers.countP fun worker => !worker.busy

/-- The workers that are about to notify somebody. -/
def freed : ℕ := s.workers.countP fun worker => worker.thread.isFreed

/-- The calls that are woken, and have not looked for a worker since. -/
def coming : ℕ := s.calls.countP isComing

def parked : ℕ := s.calls.countP isParked

def scanned : ℕ := s.calls.countP isScanned

/-- Every worker that the scan has still to see is busy. -/
def blindAt (scan : Scan) : Bool :=
  (s.workers.drop scan.slot).all (·.busy)

/-- The call that has the mutex finds no worker as it is. -/
def blind : Bool := s.lock.any s.blindAt

/-- The call that has the mutex was woken and finds a worker. -/
def hopeful : Bool := s.lock.any fun scan => scan.woken && !s.blindAt scan

/-- Somebody is on the way to a worker, or will be woken. -/
def inFlight : Bool :=
  s.permit || s.lock.any (·.woken) || s.calls.any isComing || s.calls.any isRefused ||
    s.workers.any fun worker => worker.thread.isFreed

/-- **A call sleeps beside a free worker**, and nothing is on the way to wake
it. -/
def Stranded : Prop :=
  (∃ worker ∈ s.workers, worker.busy = false) ∧ (∃ place ∈ s.calls, place.isParked = true) ∧
    s.inFlight = false

/-- The step is a `notify_one` that finds the permit stored. -/
def coalesces : PoolEvent α → Bool
  | .notify _ none => s.permit
  | .retract _ none => s.permit
  | .cancel i none => s.permit && (s.calls[i]?.any fun place => place.isComing)
  | _ => false

/-- **A permit that is stored already meets at most one call that has begun
its scan and is not registered.** -/
def apart (e : PoolEvent α) : Bool :=
  !s.coalesces e || s.scanned + s.scanning ≤ 1

/-! ## Who comes for a worker -/

/-- How many come for a worker, or will be woken for one. -/
def cover : ℕ := s.coming + s.hopeful.toNat + s.freed

/-- **Whoever sleeps is covered.** Where a call is registered, the permit is
gone and as many come as there are free workers. So it is, with the permit,
for two calls that have seen no free worker and are not registered yet; and
without it for one. -/
structure Covered : Prop where
  parked : 0 < s.parked → s.permit.toNat = 0 ∧ s.idle ≤ s.cover
  two : 2 ≤ s.scanned + s.blind.toNat → s.idle ≤ s.permit.toNat + s.cover
  last : 1 ≤ s.scanned + s.blind.toNat → s.permit.toNat = 0 → s.idle ≤ s.cover

end

section Counts

variable {i w : ℕ} {old new : Place α} {before after : DnsWorker α}

/-- What is counted where a call goes on. -/
theorem counts_call (hi : s.calls[i]? = some old) (hcalls : t.calls = s.calls.set i new) :
    t.coming + old.isComing.toNat = s.coming + new.isComing.toNat ∧
      t.parked + old.isParked.toNat = s.parked + new.isParked.toNat ∧
      t.scanned + old.isScanned.toNat = s.scanned + new.isScanned.toNat := by
  unfold coming parked scanned
  rw [hcalls]
  exact ⟨countP_set_add hi, countP_set_add hi, countP_set_add hi⟩

/-- What is counted where a worker goes on. -/
theorem counts_worker (hw : s.workers[w]? = some before)
    (hworkers : t.workers = s.workers.set w after) :
    t.idle + (!before.busy).toNat = s.idle + (!after.busy).toNat ∧
      t.freed + before.thread.isFreed.toNat = s.freed + after.thread.isFreed.toNat := by
  unfold idle freed
  rw [hworkers]
  exact ⟨countP_set_add (p := fun worker => !worker.busy) hw,
    countP_set_add (p := fun worker => worker.thread.isFreed) hw⟩

theorem counts_calls_eq (hcalls : t.calls = s.calls) :
    t.coming = s.coming ∧ t.parked = s.parked ∧ t.scanned = s.scanned := by
  unfold coming parked scanned
  rw [hcalls]
  exact ⟨rfl, rfl, rfl⟩

theorem counts_workers_eq (hworkers : t.workers = s.workers) :
    t.idle = s.idle ∧ t.freed = s.freed := by
  unfold idle freed
  rw [hworkers]
  exact ⟨rfl, rfl⟩

end Counts

section Scan

variable {scan : Scan} {w : ℕ} {before after : DnsWorker α}

theorem blindAt_iff : s.blindAt scan = true ↔
    ∀ (j : ℕ) worker, scan.slot ≤ j → s.workers[j]? = some worker → worker.busy = true := by
  unfold blindAt
  rw [all_eq_true]
  constructor
  · intro h j worker hj hworker
    refine h worker (mem_iff_getElem?.mpr ⟨j - scan.slot, ?_⟩)
    rw [getElem?_drop, Nat.add_sub_cancel' hj]
    exact hworker
  · intro h worker hworker
    obtain ⟨j, hj⟩ := mem_iff_getElem?.mp hworker
    rw [getElem?_drop] at hj
    exact h _ worker (le_add_right _ _) hj

/-- The scan sees what it saw before, where no flag changes. -/
theorem sees_eq (hflags : t.workers.map (·.busy) = s.workers.map (·.busy))
    (hlock : t.lock = s.lock) : t.blind = s.blind ∧ t.hopeful = s.hopeful := by
  have hall (u : DnsWorkerPool α) (scan : Scan) :
      u.blindAt scan = ((u.workers.map (·.busy)).drop scan.slot).all id := by
    rw [← map_drop, all_map]
    rfl
  have hat : t.blindAt = s.blindAt := by
    funext scan
    rw [hall, hall, hflags]
  unfold blind hopeful
  rw [hlock, hat]
  exact ⟨rfl, rfl⟩

theorem flags_set (hw : s.workers[w]? = some before) (hbusy : after.busy = before.busy) :
    (s.workers.set w after).map (·.busy) = s.workers.map (·.busy) := by
  obtain ⟨hlt, rfl⟩ := List.getElem?_eq_some_iff.mp hw
  rw [map_set, hbusy, ← map_set, set_getElem_self]

/-- A worker that becomes free turns no scan blind. -/
theorem sees_of_freed (hw : s.workers[w]? = some before)
    (hworkers : t.workers = s.workers.set w after) (hbusy : after.busy = false)
    (hlock : t.lock = s.lock) :
    t.blind.toNat ≤ s.blind.toNat ∧ s.hopeful.toNat ≤ t.hopeful.toNat := by
  have hat (scan : Scan) (hblind : t.blindAt scan = true) : s.blindAt scan = true := by
    have hlt := (List.getElem?_eq_some_iff.mp hw).1
    rw [blindAt_iff] at hblind ⊢
    intro j worker hj hworker
    have hjw : w ≠ j := by
      rintro rfl
      have hafter := hblind w after hj (by rw [hworkers, getElem?_set_self hlt])
      exact Bool.false_ne_true (hbusy.symm.trans hafter)
    exact hblind j worker hj (by rw [hworkers, getElem?_set_ne hjw]; exact hworker)
  unfold blind hopeful
  rw [hlock]
  cases s.lock with
  | none => exact ⟨Nat.le_refl _, Nat.le_refl _⟩
  | some scan =>
    have hscan := hat scan
    simp only [Option.any_some]
    revert hscan
    cases t.blindAt scan <;> cases s.blindAt scan <;> cases scan.woken <;> decide

theorem sees_unlocked (hlock : s.lock = none) : s.blind = false ∧ s.hopeful = false := by
  unfold blind hopeful
  rw [hlock]
  exact ⟨rfl, rfl⟩

variable (hlock : s.lock = some scan)

include hlock

/-- A scan at the end of the list has found no worker. -/
theorem sees_at_end (hend : s.workers[scan.slot]? = none) :
    s.blind = true ∧ s.hopeful = false := by
  have hblind : s.blindAt scan = true := by
    rw [blindAt, drop_eq_nil_of_le (getElem?_eq_none_iff.mp hend)]
    rfl
  unfold blind hopeful
  rw [hlock, Option.any_some, Option.any_some, hblind]
  exact ⟨rfl, Bool.and_false _⟩

/-- A scan that passes a busy worker sees what it saw. -/
theorem sees_passed {worker : DnsWorker α}
    (hw : s.workers[scan.slot]? = some worker) (hbusy : worker.busy = true)
    (hworkers : t.workers = s.workers) (hnext : t.lock = some { scan with slot := scan.slot + 1 }) :
    t.blind = s.blind ∧ t.hopeful = s.hopeful := by
  have hat : t.blindAt { scan with slot := scan.slot + 1 } = s.blindAt scan := by
    obtain ⟨hlt, rfl⟩ := List.getElem?_eq_some_iff.mp hw
    rw [blindAt, blindAt, hworkers, drop_eq_getElem_cons hlt, all_cons, hbusy]
    rfl
  unfold blind hopeful
  rw [hlock, hnext]
  simp only [Option.any_some, hat, and_self]

/-- A scan that starts is blind where no worker is free. -/
theorem sees_started (hslot : scan.slot = 0) (hidle : 0 < s.idle) :
    s.blind = false ∧ s.hopeful = scan.woken := by
  have hblind : s.blindAt scan = false := by
    refine eq_false_of_ne_true fun hblind => ?_
    obtain ⟨worker, hmem, hfree⟩ := countP_pos_iff.mp hidle
    obtain ⟨j, hj⟩ := mem_iff_getElem?.mp hmem
    have hbusy := blindAt_iff.mp hblind j worker (hslot ▸ zero_le j) hj
    rw [hbusy] at hfree
    exact Bool.false_ne_true hfree
  unfold blind hopeful
  rw [hlock]
  simp only [Option.any_some, hblind, Bool.not_false, Bool.and_true, and_self]

end Scan

namespace Covered

theorem init : Covered (default : DnsWorkerPool α) :=
  ⟨fun h => absurd h (Nat.lt_irrefl 0), fun _ => Nat.zero_le _, fun _ _ => Nat.zero_le _⟩

/-- Nobody is added to those who sleep, and no worker is freed that nobody
comes for. -/
theorem of_le (h : Covered s) (hparked : t.parked ≤ s.parked) (hpermit : t.permit = s.permit)
    (hwaits : t.scanned + t.blind.toNat ≤ s.scanned + s.blind.toNat)
    (hcover : t.idle + s.cover ≤ s.idle + t.cover) : Covered t := by
  refine ⟨fun hpos => ?_, fun htwo => ?_, fun hone hnone => ?_⟩
  · obtain ⟨hgone, hidle⟩ := h.parked (by omega)
    exact ⟨hpermit ▸ hgone, by omega⟩
  · have hidle := h.two (by omega)
    rw [hpermit]
    omega
  · have hidle := h.last (by omega) (hpermit ▸ hnone)
    omega

/-- No worker is free, and nobody is added to those who are registered. -/
theorem of_idle (h : Covered s) (hparked : t.parked ≤ s.parked) (hpermit : t.permit = s.permit)
    (hidle : t.idle = 0) : Covered t := by
  refine ⟨fun hpos => ⟨?_, by omega⟩, fun _ => by omega, fun _ _ => by omega⟩
  rw [hpermit]
  exact (h.parked (by omega)).1

section Call

variable {i : ℕ} {old new : Place α}

/-- A call goes on that neither sleeps nor comes for a worker after it. -/
theorem call (h : Covered s) (hi : s.calls[i]? = some old)
    (hcalls : t.calls = s.calls.set i new) (hworkers : t.workers = s.workers)
    (hlock : t.lock = s.lock) (hpermit : t.permit = s.permit)
    (hcoming : new.isComing = old.isComing) (hparked : new.isParked = false)
    (hscanned : new.isScanned = false) : Covered t := by
  obtain ⟨hc, hp, hs⟩ := counts_call hi hcalls
  obtain ⟨hidle, hfreed⟩ := counts_workers_eq hworkers
  obtain ⟨hblind, hhopeful⟩ := sees_eq (congrArg _ hworkers) hlock
  simp only [hcoming, hparked, hscanned, Bool.toNat_false] at hc hp hs
  refine h.of_le (by omega) hpermit ?_ ?_
  · rw [hblind]
    omega
  · unfold cover
    rw [hhopeful]
    omega

/-- The mutex is released. -/
theorem release (h : Covered s) (hi : s.calls[i]? = some .scanning)
    (hcalls : t.calls = s.calls.set i new) (hlock : t.lock = none) (hpermit : t.permit = s.permit)
    (hcoming : new.isComing = false) (hparked : new.isParked = false)
    (hwaits : new.isScanned.toNat ≤ s.blind.toNat)
    (hidle : t.idle + s.hopeful.toNat ≤ s.idle) (hfreed : t.freed = s.freed) : Covered t := by
  obtain ⟨hc, hp, hs⟩ := counts_call hi hcalls
  obtain ⟨hblind, hhopeful⟩ := sees_unlocked hlock
  rw [hcoming] at hc
  rw [hparked] at hp
  replace hc : t.coming = s.coming := hc
  refine h.of_le (Nat.le_of_eq hp) hpermit ?_ ?_
  · rw [hblind]
    change _ + 0 ≤ _
    omega
  · unfold cover
    rw [hhopeful]
    omega

end Call

/-- A worker goes on, and its flag stays. -/
theorem worker (h : Covered s) {w : ℕ} {before after : DnsWorker α}
    (hw : s.workers[w]? = some before) (hworkers : t.workers = s.workers.set w after)
    (hcalls : t.calls = s.calls) (hlock : t.lock = s.lock) (hpermit : t.permit = s.permit)
    (hbusy : after.busy = before.busy)
    (hthread : after.thread.isFreed = before.thread.isFreed) : Covered t := by
  obtain ⟨hc, hp, hs⟩ := counts_calls_eq hcalls
  obtain ⟨hidle, hfreed⟩ := counts_worker hw hworkers
  obtain ⟨hblind, hhopeful⟩ := sees_eq (hworkers ▸ flags_set hw hbusy) hlock
  rw [hbusy] at hidle
  rw [hthread] at hfreed
  refine h.of_le (by omega) hpermit ?_ ?_
  · exact Nat.le_of_eq (by rw [hblind, hs])
  · unfold cover
    rw [hhopeful]
    omega

/-- Somebody who would come does not, and notifies another instead. -/
theorem notifies (h : Covered s) {u : DnsWorkerPool α} {woken : Option ℕ}
    (hparked : u.parked = s.parked) (hpermit : u.permit = s.permit) (hidle : u.idle = s.idle)
    (hwaits : u.scanned + u.blind.toNat = s.scanned + s.blind.toNat)
    (hcover : s.cover ≤ u.cover + 1) (hnotifies : Notifies u woken t)
    (hapart : woken = none → s.permit = true → s.scanned + s.blind.toNat ≤ 1) : Covered t := by
  cases hnotifies with
  | @wakes i hi =>
    obtain ⟨hc, hp, hs⟩ := counts_call (t := u.goOn i .notified) hi rfl
    obtain ⟨hi', hf⟩ := counts_workers_eq (s := u) (t := u.goOn i .notified) rfl
    obtain ⟨hblind, hhopeful⟩ := sees_eq (s := u) (t := u.goOn i .notified) rfl rfl
    simp only [isComing, isParked, isScanned, Bool.toNat_false,
      Bool.toNat_true] at hc hp hs
    refine h.of_le (by omega) hpermit ?_ ?_
    · rw [hblind]
      omega
    · unfold cover at hcover ⊢
      rw [hhopeful]
      omega
  | stores hnone =>
    -- the permit is in the place of the one that was to come, unless it was stored before
    refine ⟨fun hpos => absurd hnone (Nat.ne_of_gt hpos), fun htwo => ?_,
      fun _ hgone => absurd hgone (by simp)⟩
    change 2 ≤ u.scanned + u.blind.toNat at htwo
    change u.idle ≤ 1 + u.cover
    cases hstored : s.permit with
    | true =>
      have hfew := hapart rfl hstored
      omega
    | false =>
      have hlast := h.last (by omega) (by rw [hstored]; rfl)
      omega

/-- **One step**, of a permit that meets at most one call. -/
theorem turn (h : Covered s) (hsorted : Sorted s) (hapart : s.apart e = true) (hturn : Turn s e t) :
    Covered t := by
  have hfew : s.coalesces e = true → s.scanned + s.blind.toNat ≤ 1 := by
    intro hcoalesces
    have hle : s.blind.toNat ≤ s.scanning := by
      rw [hsorted.lock, blind]
      cases s.lock with
      | none => exact Nat.le_refl _
      | some scan => exact Bool.toNat_le _
    simp only [apart, hcoalesces, Bool.not_true, Bool.false_or, decide_eq_true_eq] at hapart
    omega
  cases hturn with
  | called =>
    refine h.of_le ?_ rfl (Nat.add_le_add ?_ (Nat.le_refl _)) (Nat.add_le_add (Nat.le_refl _)
      (Nat.add_le_add (Nat.add_le_add ?_ (Nat.le_refl _)) (Nat.le_refl _)))
    · simp [DnsWorkerPool.parked, isParked]
    · simp [scanned, isScanned]
    · simp [coming, isComing]
  | @locked i woken hi hlock =>
    obtain ⟨hc, hp, hs⟩ := counts_call
      (t := ({ s with lock := some ⟨i, woken, 0⟩ } : DnsWorkerPool α).goOn i .scanning) hi rfl
    simp only [isComing, isParked, isScanned, Bool.toNat_false] at hc hp hs
    rcases Nat.eq_zero_or_pos s.idle with hidle | hidle
    · exact h.of_idle (by omega) rfl hidle
    obtain ⟨hblind, hhopeful⟩ := sees_started
      (s := ({ s with lock := some ⟨i, woken, 0⟩ } : DnsWorkerPool α).goOn i .scanning)
      rfl rfl hidle
    obtain ⟨hblind', hhopeful'⟩ := sees_unlocked hlock
    refine h.of_le (by omega) rfl ?_ ?_
    · rw [hblind, hblind']
      omega
    · unfold cover
      rw [hhopeful, hhopeful']
      change s.idle + (s.coming + 0 + s.freed) ≤ s.idle + (_ + woken.toNat + s.freed)
      omega
  | passed hlock hw hbusy =>
    obtain ⟨hblind, hhopeful⟩ := sees_passed (t := { s with lock := some _ }) hlock hw hbusy rfl rfl
    refine h.of_le (Nat.le_refl _) rfl ?_ ?_
    · rw [hblind]
      exact Nat.le_refl _
    · unfold cover
      rw [hhopeful]
      exact Nat.le_refl _
  | @claimed scan worker hlock hw hbusy =>
    obtain ⟨hidle, hfreed⟩ := counts_worker
      (t := (({ s with lock := none } : DnsWorkerPool α).withWorker scan.slot
        { worker with busy := true }).goOn scan.call (.claimed scan.slot)) hw rfl
    have hhopeful := s.hopeful.toNat_le
    simp only [hbusy, Bool.not_false, Bool.not_true, Bool.toNat_true, Bool.toNat_false] at hidle
    exact h.release (hsorted.holder _ hlock) rfl rfl rfl rfl rfl (zero_le _) (by omega)
      (Nat.add_right_cancel hfreed)
  | @spawned scan hlock hend _ =>
    obtain ⟨hblind, hhopeful⟩ := sees_at_end hlock hend
    refine h.release (hsorted.holder _ hlock) rfl rfl rfl rfl rfl (zero_le _) ?_ ?_
    · rw [hhopeful]
      simp [goOn, idle, DnsWorker.spawn]
    · simp [goOn, freed, DnsWorker.spawn, Thread.isFreed]
  | missed hlock hend =>
    obtain ⟨hblind, hhopeful⟩ := sees_at_end hlock hend
    refine h.release (hsorted.holder _ hlock) rfl rfl rfl rfl rfl ?_ ?_ rfl
    · rw [hblind]
      exact Nat.le_refl _
    · rw [hhopeful]
      exact Nat.le_refl _
  | unspawned hlock hend =>
    obtain ⟨hblind, hhopeful⟩ := sees_at_end hlock hend
    refine h.release (hsorted.holder _ hlock) rfl rfl rfl rfl rfl (zero_le _) ?_ rfl
    rw [hhopeful]
    exact Nat.le_refl _
  | @spent i hi hpermit =>
    -- nobody is registered while the permit is there, and of two calls it was for one
    obtain ⟨hc, hp, hs⟩ := counts_call
      (t := ({ s with permit := false } : DnsWorkerPool α).goOn i (.entering true)) hi rfl
    simp only [isComing, isParked, isScanned, Bool.toNat_false,
      Bool.toNat_true] at hc hp hs
    have hnone : s.parked = 0 := by
      refine Nat.eq_zero_of_not_pos fun hpos => ?_
      have hgone := (h.parked hpos).1
      rw [hpermit] at hgone
      exact absurd hgone (by decide)
    have htwo := h.two
    rw [hpermit] at htwo
    have hcover : s.cover + 1 =
        (({ s with permit := false } : DnsWorkerPool α).goOn i (.entering true)).cover := by
      change s.coming + s.hopeful.toNat + s.freed + 1 = _ + s.hopeful.toNat + s.freed
      omega
    refine ⟨fun hpos => by omega, fun hmore => ?_, fun hone _ => ?_⟩
    · change 2 ≤ _ + s.blind.toNat at hmore
      have hidle : s.idle ≤ 1 + s.cover := htwo (by omega)
      change s.idle ≤ 0 + _
      omega
    · change 1 ≤ _ + s.blind.toNat at hone
      have hidle : s.idle ≤ 1 + s.cover := htwo (by omega)
      change s.idle ≤ _
      omega
  | @parked i hi hpermit =>
    obtain ⟨hc, hp, hs⟩ := counts_call (t := s.goOn i .parked) hi rfl
    simp only [isComing, isParked, isScanned, Bool.toNat_false,
      Bool.toNat_true] at hc hp hs
    have hgone : s.permit.toNat = 0 := by rw [hpermit]; rfl
    have hcover : s.cover = (s.goOn i .parked).cover := by
      change s.coming + s.hopeful.toNat + s.freed = _ + s.hopeful.toNat + s.freed
      omega
    have hidle : (s.goOn i .parked).idle ≤ (s.goOn i .parked).cover := by
      rw [← hcover]
      exact h.last (by omega) hgone
    exact ⟨fun _ => ⟨hgone, hidle⟩, fun _ => Nat.le_trans hidle (Nat.le_add_left _ _),
      fun _ _ => hidle⟩
  | resumed hi => exact h.call hi rfl rfl rfl rfl rfl rfl rfl
  | cancelled hi hplace =>
    rcases hplace with rfl | rfl <;> exact h.call hi rfl rfl rfl rfl rfl rfl rfl
  | @forwarded i _ _ hi hnotifies =>
    obtain ⟨hc, hp, hs⟩ := counts_call (t := s.goOn i .dropped) hi rfl
    simp only [isComing, isParked, isScanned, Bool.toNat_false,
      Bool.toNat_true] at hc hp hs
    refine h.notifies hp rfl rfl ?_ ?_ hnotifies ?_
    · change _ + s.blind.toNat = _
      omega
    · change s.coming + s.hopeful.toNat + s.freed ≤ _ + s.hopeful.toNat + s.freed + 1
      omega
    · rintro rfl hpermit
      exact hfew (by simp [coalesces, hpermit, hi, isComing])
  | @sent i w worker hi hw hchannel =>
    have hsent : Covered (s.withWorker w { worker with channel := [i] }) :=
      h.worker hw rfl rfl rfl rfl rfl rfl
    exact hsent.call hi rfl rfl rfl rfl rfl rfl rfl
  | refused hi hw hchannel => exact absurd (hsorted.channel_empty hi hw) hchannel
  | retracted hi _ =>
    have hpos : 0 < s.refusals := countP_pos_of_getElem? hi rfl
    rw [hsorted.refusals] at hpos
    omega
  | received hw hchannel hthread =>
    exact h.worker hw rfl rfl rfl rfl rfl (by rw [hthread]; rfl)
  | @finished w i worker _ answer hw hthread =>
    obtain ⟨hidle, hfreed⟩ := counts_worker
      (t := s.withWorker w ⟨false, worker.channel, .freed i answer⟩) hw rfl
    obtain ⟨hblind, hhopeful⟩ := sees_of_freed
      (t := s.withWorker w ⟨false, worker.channel, .freed i answer⟩) hw rfl rfl rfl
    simp only [hthread, Thread.isFreed, Bool.not_false, Bool.toNat_true, Bool.toNat_false]
      at hidle hfreed
    refine h.of_le (Nat.le_refl _) rfl (Nat.add_le_add (Nat.le_refl _) hblind) ?_
    change _ + (s.coming + s.hopeful.toNat + s.freed) ≤ _ + (s.coming + _ + _)
    omega
  | @notified w i worker result _ _ hw hthread hnotifies =>
    obtain ⟨hidle, hfreed⟩ := counts_worker
      (t := s.withWorker w ⟨worker.busy, worker.channel, .notified i result⟩) hw rfl
    obtain ⟨hblind, hhopeful⟩ := sees_eq
      (t := s.withWorker w ⟨worker.busy, worker.channel, .notified i result⟩) (flags_set hw rfl) rfl
    simp only [hthread, Thread.isFreed, Bool.toNat_true, Bool.toNat_false] at hidle hfreed
    refine h.notifies ?_ ?_ ?_ ?_ ?_ hnotifies ?_
    · rfl
    · rfl
    · omega
    · rw [hblind]
      rfl
    · unfold cover
      rw [hhopeful]
      change s.coming + s.hopeful.toNat + s.freed ≤ s.coming + s.hopeful.toNat + _ + 1
      omega
    · rintro rfl hpermit
      exact hfew hpermit
  | @responded w i worker result hw hthread =>
    have hresponded : Covered (s.withWorker w ⟨worker.busy, worker.channel, .receiving⟩) :=
      h.worker hw rfl rfl rfl rfl rfl (by rw [hthread]; rfl)
    unfold deliver
    split
    case h_1 hi => exact hresponded.call hi rfl rfl rfl rfl rfl rfl rfl
    case h_2 => exact hresponded

end Covered

/-! ## The runs -/

/-- The runs of the pool. -/
def Runs (history : List (DnsWorkerPool α × PoolEvent α)) (t : DnsWorkerPool α) : Prop :=
  Run (fun s e t => step s e = some t) default history t

theorem Runs.sorted (h : Runs history t) : Sorted t :=
  h.invariant .init fun _ _ _ hsorted hstep => hsorted.turn (turn_of_step hstep)

/-- Whoever sleeps is covered, while the permits meet few calls. -/
theorem Runs.covered (h : Runs history t)
    (hapart : ∀ s e, (s, e) ∈ history → s.apart e = true) : Covered t := by
  induction h with
  | start => exact .init
  | @next past t u e hrun htake ih =>
    have hbefore : Covered t := ih fun s e hmem => hapart s e (mem_append_left _ hmem)
    have hlast : t.apart e = true :=
      hapart t e (mem_append_right _ (mem_singleton.mpr rfl))
    exact hbefore.turn (Runs.sorted hrun) hlast (turn_of_step htake)

/-- Where all who sleep are covered, somebody is in flight. -/
theorem Covered.not_stranded (h : Covered t) : ¬ Stranded t := by
  rintro ⟨⟨worker, hworker, hfree⟩, ⟨place, hplace, hparked⟩, hnone⟩
  have hidle : 0 < t.idle := countP_pos_iff.mpr ⟨worker, hworker, by simp [hfree]⟩
  have hsleeps : 0 < t.parked := countP_pos_iff.mpr ⟨place, hplace, hparked⟩
  have hcover : t.cover = 0 := by
    simp only [inFlight, Bool.or_eq_false_iff, any_eq_false] at hnone
    obtain ⟨⟨⟨⟨-, hwoken⟩, hcoming⟩, -⟩, hfreed⟩ := hnone
    have hhopeless : t.hopeful = false := by
      unfold hopeful
      cases hlock : t.lock with
      | none => rfl
      | some scan =>
        rw [hlock, Option.any_some] at hwoken
        rw [Option.any_some, hwoken, Bool.false_and]
    have hnobody : t.coming = 0 := countP_eq_zero.mpr hcoming
    have hnothing : t.freed = 0 := countP_eq_zero.mpr hfreed
    rw [cover, hhopeless, hnobody, hnothing]
    rfl
  have hle := (h.parked hsleeps).2
  omega

/-- **The workers are few and each has one request; nobody is stranded where a
permit that is stored already meets at most one call.** -/
theorem workers_sound (h : Runs history t) :
    t.workers.length ≤ maxDnsWorkers ∧
      (∀ (i w : ℕ), t.calls[i]? = some (.claimed w) →
        ∃ worker, t.workers[w]? = some worker ∧ worker.channel = []) ∧
      (∀ place ∈ t.calls, place.isRefused = false) ∧
      ((∀ s e, (s, e) ∈ history → s.apart e = true) → ¬ Stranded t) := by
  have hsorted := h.sorted
  refine ⟨hsorted.length, fun i w hi => ?_, fun place hplace => ?_, fun hapart => ?_⟩
  · have hclaims : 0 < t.calls.countP (claims w) :=
      countP_pos_of_getElem? hi (decide_eq_true rfl)
    have hlt : w < t.workers.length := by
      refine Nat.lt_of_not_le fun hle => ?_
      have hnone := hsorted.known w hle
      omega
    have hw : t.workers[w]? = some t.workers[w] := getElem?_eq_getElem hlt
    exact ⟨_, hw, hsorted.channel_empty hi hw⟩
  · exact eq_false_of_ne_true (countP_eq_zero.mp hsorted.refusals place hplace)
  · exact (h.covered hapart).not_stranded

/-- Four calls have the four workers. -/
def occupied : List (PoolEvent ℕ) :=
  (range maxDnsWorkers).flatMap fun i =>
    [.resolve, .lock i] ++ replicate (i + 1) .scan ++ [.send i, .receive i]

/-- Two calls find them busy, and each is registered before a worker is free. -/
def registered : List (PoolEvent ℕ) :=
  occupied ++ [.resolve, .lock 4] ++ replicate 5 .scan ++ [.poll 4, .resolve, .lock 5] ++
    replicate 5 .scan ++ [.poll 5, .finish 0 (.ok [7]), .notify 0 (some 4), .respond 0,
      .resume 4, .lock 4, .scan, .finish 1 (.ok [8])]

/-- There are such runs: a call is parked beside a free worker, and the worker
wakes it next. -/
theorem workers_sound_registered :
    ∃ t, Runs (trail step default registered) t ∧ 0 < t.parked ∧ 0 < t.idle ∧
      t.workers.length ≤ maxDnsWorkers ∧ ¬ Stranded t := by
  obtain ⟨t, hrun, hparked, hidle⟩ := run_of_exec_any step (s := default) registered
    (fun t : DnsWorkerPool ℕ => 0 < t.parked ∧ 0 < t.idle) (by decide +kernel)
  have hapart : ∀ taken ∈ trail step default registered, taken.1.apart taken.2 = true := by
    decide +kernel
  obtain ⟨hlength, -, -, hstranded⟩ := workers_sound hrun
  exact ⟨t, hrun, hparked, hidle, hlength, hstranded fun s e => hapart (s, e)⟩

/-- Two calls find the workers busy; two workers become free before either is
registered, and the second finds the permit stored. One call spends the permit
and takes a worker, the other is registered. -/
def coalesced : List (PoolEvent ℕ) :=
  occupied ++ [.resolve, .lock 4] ++ replicate 5 .scan ++ [.resolve, .lock 5] ++
    replicate 5 .scan ++ [.finish 0 (.ok [7]), .notify 0 none, .respond 0,
      .finish 1 (.ok [8]), .notify 1 none, .respond 1, .poll 4, .lock 4, .scan, .send 4, .poll 5]

/-- **A caller is stranded.** -/
theorem caller_stranded :
    ∃ (history : List (DnsWorkerPool ℕ × PoolEvent ℕ)) (t : DnsWorkerPool ℕ),
      Runs history t ∧ Stranded t := by
  obtain ⟨t, hrun, ht⟩ := run_of_exec_any step (s := default) coalesced
    (fun t : DnsWorkerPool ℕ => (∃ worker ∈ t.workers, worker.busy = false) ∧
      (∃ place ∈ t.calls, isParked place = true) ∧ t.inFlight = false) (by decide +kernel)
  exact ⟨_, t, hrun, ht⟩

end DnsWorkerPool

end Vole.Dialer
