import Mathlib.Order.Basic
import Vole.Dialer.Workers

/-!
# Who has a DNS worker

A worker that is busy has one request: the call that claimed it still has to
send it, or it is in the channel, or the thread resolves it. So the channel
of a worker that a call has claimed is empty, and `try_send` finds room.
-/

namespace Vole.Dialer

open Place List Option Bool DnsWorkerPool

variable {α : Type}

namespace DnsWorkerPool

variable {s t : DnsWorkerPool α} {e : PoolEvent α}

def scanning (s : DnsWorkerPool α) : ℕ := s.calls.countP isScanning

def refusals (s : DnsWorkerPool α) : ℕ := s.calls.countP isRefused

/-- **Every worker is where its flag says**: while it is busy, one call has
it, or its channel has one request, or its thread has one. -/
structure Sorted (s : DnsWorkerPool α) : Prop where
  length : s.workers.length ≤ maxDnsWorkers
  one : ∀ (w : ℕ) worker, s.workers[w]? = some worker →
    s.calls.countP (claims w) + worker.channel.length + worker.thread.isResolving.toNat =
      worker.busy.toNat
  known : ∀ w, s.workers.length ≤ w → s.calls.countP (claims w) = 0
  lock : s.scanning = (s.lock.isSome).toNat
  holder : ∀ scan, s.lock = some scan → s.calls[scan.call]? = some .scanning
  refusals : s.refusals = 0

namespace Sorted

theorem init : Sorted (default : DnsWorkerPool α) where
  length := Nat.zero_le _
  one := by simp [default]
  known := by simp [default]
  lock := rfl
  holder := by simp [default]
  refusals := rfl

section Call

variable {i : ℕ} {old new : Place α}

/-- A call goes on that the mutex does not concern, and every worker keeps its
balance. -/
theorem move (h : Sorted s) (hi : s.calls[i]? = some old) (hcalls : t.calls = s.calls.set i new)
    (hlock : t.lock = s.lock) (hscanning : new.isScanning = false ∧ old.isScanning = false)
    (hrefused : new.isRefused = old.isRefused) (hlength : t.workers.length = s.workers.length)
    (hone : ∀ (w : ℕ) worker, t.workers[w]? = some worker → ∃ before, s.workers[w]? = some before ∧
      (new.claims w).toNat + worker.channel.length + worker.thread.isResolving.toNat +
        before.busy.toNat = (old.claims w).toNat + before.channel.length +
          before.thread.isResolving.toNat + worker.busy.toNat)
    (hknown : ∀ w, (new.claims w).toNat ≤ (old.claims w).toNat) : Sorted t := by
  have hcount (w : ℕ) : t.calls.countP (claims w) + (old.claims w).toNat =
      s.calls.countP (claims w) + (new.claims w).toNat := by
    rw [hcalls]
    exact countP_set_add hi
  refine ⟨hlength ▸ h.length, fun w worker hw => ?_, fun w hw => ?_, ?_, fun scan hscan => ?_, ?_⟩
  · obtain ⟨before, hbefore, hsum⟩ := hone w worker hw
    have hold := h.one w before hbefore
    have hnew := hcount w
    omega
  · have hnone := h.known w (hlength ▸ hw)
    have hnew := hcount w
    have hle := hknown w
    omega
  · have hsame : t.scanning = s.scanning := by
      rw [scanning, hcalls, countP_set_eq hi (by rw [hscanning.1, hscanning.2])]
      rfl
    rw [hsame, hlock]
    exact h.lock
  · have hold := h.holder scan (hlock ▸ hscan)
    have hne : scan.call ≠ i := by
      rintro rfl
      obtain rfl : old = .scanning := some.inj (hi.symm.trans hold)
      simp [isScanning] at hscanning
    rw [hcalls, getElem?_set_ne (Ne.symm hne)]
    exact hold
  · have hsame : t.refusals = s.refusals := by
      rw [DnsWorkerPool.refusals, hcalls, countP_set_eq hi hrefused]
      rfl
    rw [hsame]
    exact h.refusals

/-- A call goes on, and neither the mutex nor a worker is concerned. -/
theorem call (h : Sorted s) (hi : s.calls[i]? = some old)
    (hcalls : t.calls = s.calls.set i new) (hworkers : t.workers = s.workers)
    (hlock : t.lock = s.lock) (hclaims : ∀ w, new.claims w = old.claims w)
    (hscanning : new.isScanning = false ∧ old.isScanning = false)
    (hrefused : new.isRefused = old.isRefused) : Sorted t :=
  h.move hi hcalls hlock hscanning hrefused (by rw [hworkers])
    (fun w worker hw => ⟨worker, hworkers ▸ hw, by rw [hclaims]⟩) fun w => by simp [hclaims]

end Call

section Worker

variable {w : ℕ} {old new : DnsWorker α}

/-- A worker goes on, and keeps its balance. -/
theorem worker (h : Sorted s) (hw : s.workers[w]? = some old)
    (hworkers : t.workers = s.workers.set w new) (hcalls : t.calls = s.calls)
    (hlock : t.lock = s.lock)
    (hsum : new.channel.length + new.thread.isResolving.toNat + old.busy.toNat =
      old.channel.length + old.thread.isResolving.toNat + new.busy.toNat) : Sorted t := by
  refine ⟨?_, fun v worker hv => ?_, fun v hv => ?_, ?_, fun scan hscan => ?_, ?_⟩
  · rw [hworkers, length_set]
    exact h.length
  · rw [hcalls]
    rw [hworkers] at hv
    rcases of_getElem?_set hv with ⟨rfl, rfl⟩ | ⟨-, hv⟩
    · have hone := h.one v old hw
      omega
    · exact h.one v worker hv
  · rw [hcalls]
    rw [hworkers, length_set] at hv
    exact h.known v hv
  · have hlocked := h.lock
    unfold scanning at hlocked ⊢
    rwa [hcalls, hlock]
  · rw [hcalls]
    exact h.holder scan (hlock ▸ hscan)
  · have hnone := h.refusals
    unfold DnsWorkerPool.refusals at hnone ⊢
    rwa [hcalls]

end Worker

variable (h : Sorted s)

include h

/-- The call that has the mutex gives it back. -/
theorem unlock {scan : Scan} {new : Place α} (hscan : s.lock = some scan)
    (hcalls : t.calls = s.calls.set scan.call new) (hlock : t.lock = none)
    (hnew : new.isScanning = false ∧ new.isRefused = false) (hlength : t.workers.length ≤ maxDnsWorkers)
    (hone : ∀ (w : ℕ) worker, t.workers[w]? = some worker →
      s.calls.countP (claims w) + (new.claims w).toNat + worker.channel.length +
        worker.thread.isResolving.toNat = worker.busy.toNat)
    (hknown : ∀ w, t.workers.length ≤ w →
      s.calls.countP (claims w) = 0 ∧ new.claims w = false) : Sorted t := by
  have hold := h.holder scan hscan
  have hclaims (w : ℕ) : t.calls.countP (claims w) =
      s.calls.countP (claims w) + (new.claims w).toNat := by
    have hset := countP_set_add (p := claims w) (b := new) hold
    rw [hcalls]
    simpa [claims] using hset
  refine ⟨hlength, fun w worker hw => ?_, fun w hw => ?_, ?_, by simp [hlock], ?_⟩
  · rw [hclaims]
    exact hone w worker hw
  · rw [hclaims, (hknown w hw).1, (hknown w hw).2]
    rfl
  · have hset := countP_set_add (p := isScanning) (b := new) hold
    have hlocked := h.lock
    rw [hnew.1] at hset
    simp only [scanning, hscan, isSome_some, toNat_true,
      toNat_false, isScanning] at hlocked hset
    rw [scanning, hcalls, hlock]
    simp only [isSome_none, toNat_false]
    omega
  · have hnone := h.refusals
    unfold DnsWorkerPool.refusals at hnone ⊢
    rw [hcalls, countP_set_eq hold (by rw [hnew.2]; rfl), hnone]

/-- **A channel takes a request only when it is empty.** -/
theorem channel_empty {i w : ℕ} {worker : DnsWorker α}
    (hi : s.calls[i]? = some (.claimed w)) (hw : s.workers[w]? = some worker) :
    worker.channel = [] := by
  have hone := h.one w worker hw
  have hpos : 0 < s.calls.countP (claims w) :=
    countP_pos_of_getElem? hi (by simp [claims])
  have hbusy := worker.busy.toNat_le
  exact length_eq_zero_iff.mp (by omega)

/-- A call sends its request to the worker that it has. -/
theorem send {i w : ℕ} {worker : DnsWorker α}
    (hi : s.calls[i]? = some (.claimed w)) (hw : s.workers[w]? = some worker)
    (hchannel : worker.channel = []) :
    Sorted ((s.withWorker w { worker with channel := [i] }).goOn i .waiting) := by
  refine h.move hi rfl rfl ⟨rfl, rfl⟩ rfl (length_set ..) (fun v new hv => ?_)
    fun _ => Nat.zero_le _
  rcases of_getElem?_set hv with ⟨rfl, rfl⟩ | ⟨hne, hv⟩
  · exact ⟨worker, hw, by simp [claims, hchannel]⟩
  · exact ⟨new, hv, by simp [claims, hne.symm]⟩

theorem notifies {woken : Option ℕ} (hnotifies : Notifies s woken t) : Sorted t := by
  cases hnotifies with
  | wakes hi => exact h.call hi rfl rfl rfl (fun _ => rfl) ⟨rfl, rfl⟩ rfl
  | stores _ => exact ⟨h.length, h.one, h.known, h.lock, h.holder, h.refusals⟩

/-- **A step keeps that.** -/
theorem turn (hturn : Turn s e t) : Sorted t := by
  cases hturn with
  | called =>
    have hcount {p : Place α → Bool} (hp : p (.entering false) = false) :
        (s.calls ++ [entering false]).countP p = s.calls.countP p := by
      rw [countP_concat, hp]
      rfl
    refine ⟨h.length, fun w worker hw => ?_, fun w hw => ?_, ?_, fun scan hscan => ?_, ?_⟩
    · exact (hcount (p := claims w) rfl).symm ▸ h.one w worker hw
    · exact (hcount (p := claims w) rfl).trans (h.known w hw)
    · exact (hcount (p := isScanning) rfl).trans h.lock
    · have hold := h.holder scan hscan
      rw [List.getElem?_append_left (List.getElem?_eq_some_iff.mp hold).1]
      exact hold
    · exact (hcount (p := isRefused) rfl).trans h.refusals
  | @locked i woken hi hlock =>
    have hclaims (w : ℕ) : (s.calls.set i .scanning).countP (claims w) =
        s.calls.countP (claims w) := countP_set_eq hi rfl
    refine ⟨h.length, fun w worker hw => ?_, fun w hw => ?_, ?_, ?_, ?_⟩
    · exact (hclaims w).symm ▸ h.one w worker hw
    · exact (hclaims w).symm ▸ h.known w hw
    · have hset := countP_set_add (p := isScanning) (b := .scanning) hi
      have hfree := h.lock
      simp only [scanning, hlock, isSome_none, toNat_false,
        isScanning, toNat_true] at hfree hset
      show (s.calls.set i .scanning).countP isScanning = 1
      omega
    · rintro scan ⟨⟩
      have hlt := (List.getElem?_eq_some_iff.mp hi).1
      exact getElem?_set_self hlt
    · have hsame : (s.calls.set i .scanning).countP isRefused = s.refusals :=
        countP_set_eq hi rfl
      exact hsame.trans h.refusals
  | @passed scan _ hlock _ _ =>
    refine ⟨h.length, h.one, h.known, ?_, ?_, h.refusals⟩
    · have hlocked := h.lock
      rw [hlock] at hlocked
      exact hlocked
    · rintro _ ⟨⟩
      exact h.holder scan hlock
  | @claimed scan worker hlock hw hbusy =>
    have hlt := (List.getElem?_eq_some_iff.mp hw).1
    refine h.unlock hlock rfl rfl ⟨rfl, rfl⟩ ?_ (fun v new hv => ?_) fun v hv => ?_
    · exact (length_set ..).trans_le h.length
    · rcases of_getElem?_set hv with ⟨rfl, rfl⟩ | ⟨hvw, hv⟩
      · have hone := h.one _ _ hw
        simp only [hbusy, toNat_false, claims, decide_true, toNat_true] at hone ⊢
        omega
      · simpa [claims, hvw.symm] using h.one v new hv
    · change (s.workers.set scan.slot { worker with busy := true }).length ≤ v at hv
      rw [length_set] at hv
      refine ⟨h.known v hv, ?_⟩
      simp only [claims, decide_eq_false_iff_not]
      omega
  | @spawned scan hlock hnone hlen =>
    refine h.unlock hlock rfl rfl ⟨rfl, rfl⟩ ?_ (fun v new hv => ?_) fun v hv => ?_
    · show (s.workers ++ [DnsWorker.spawn]).length ≤ maxDnsWorkers
      rw [length_append, length_singleton]
      omega
    · change (s.workers ++ [DnsWorker.spawn])[v]? = some new at hv
      rcases Nat.lt_trichotomy v s.workers.length with hlt | heq | hgt
      · rw [getElem?_append_left hlt] at hv
        have hne : s.workers.length ≠ v := by omega
        simpa [claims, hne] using h.one v new hv
      · subst heq
        obtain rfl : DnsWorker.spawn = new := by simpa using hv
        rw [h.known _ (Nat.le_refl _)]
        simp [claims, DnsWorker.spawn, Thread.isResolving]
      · rw [getElem?_eq_none (by simp; omega)] at hv
        cases hv
    · change (s.workers ++ [DnsWorker.spawn]).length ≤ v at hv
      rw [length_append, length_singleton] at hv
      refine ⟨h.known v (by omega), ?_⟩
      simp only [claims, decide_eq_false_iff_not]
      omega
  | missed hlock _ | unspawned hlock _ =>
    exact h.unlock hlock rfl rfl ⟨rfl, rfl⟩ h.length h.one fun w hw => ⟨h.known w hw, rfl⟩
  | spent hi _ | parked hi _ | resumed hi =>
    exact h.call hi rfl rfl rfl (fun _ => rfl) ⟨rfl, rfl⟩ rfl
  | cancelled hi hplace =>
    rcases hplace with rfl | rfl <;> exact h.call hi rfl rfl rfl (fun _ => rfl) ⟨rfl, rfl⟩ rfl
  | @forwarded i _ _ hi hnotifies =>
    have hdropped : Sorted (s.goOn i .dropped) :=
      h.call hi rfl rfl rfl (fun _ => rfl) ⟨rfl, rfl⟩ rfl
    exact hdropped.notifies hnotifies
  | @sent i w worker hi hw hchannel => exact h.send hi hw hchannel
  | refused hi hw hchannel => exact absurd (h.channel_empty hi hw) hchannel
  | retracted hi _ =>
    have hpos : 0 < s.refusals := countP_pos_of_getElem? hi rfl
    rw [h.refusals] at hpos
    omega
  | received hw hchannel hthread =>
    refine h.worker hw rfl rfl rfl ?_
    simp only [hchannel, hthread, Thread.isResolving, length_cons]
    simp
  | @finished w i worker _ _ hw hthread =>
    have hone := h.one _ _ hw
    refine h.worker hw rfl rfl rfl ?_
    simp only [hthread, Thread.isResolving, toNat_true, toNat_false] at hone ⊢
    have hbusy := worker.busy.toNat_le
    omega
  | @notified w i worker result _ _ hw hthread hnotifies =>
    have hnotified : Sorted (s.withWorker w ⟨worker.busy, worker.channel, .notified i result⟩) :=
      h.worker hw rfl rfl rfl (by simp [hthread, Thread.isResolving])
    exact hnotified.notifies hnotifies
  | @responded w i worker result hw hthread =>
    have hresponded : Sorted (s.withWorker w ⟨worker.busy, worker.channel, .receiving⟩) :=
      h.worker hw rfl rfl rfl (by simp [hthread, Thread.isResolving])
    unfold deliver
    split
    case h_1 hi => exact hresponded.call hi rfl rfl rfl (fun _ => rfl) ⟨rfl, rfl⟩ rfl
    case h_2 => exact hresponded

end Sorted

end DnsWorkerPool

end Vole.Dialer
