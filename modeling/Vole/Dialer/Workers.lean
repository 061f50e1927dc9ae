import Vole.Common.Count
import Vole.Dialer.Model.Workers

/-!
# What the DNS workers do

The steps of the pool, each with what it finds (`Turn`), and what is counted
in it.
-/

namespace Vole.Dialer

open Option List

variable {α : Type}

namespace Place

def isScanning : Place α → Bool
  | .scanning => true
  | _ => false

def isScanned : Place α → Bool
  | .scanned => true
  | _ => false

/-- The call was woken, and has not looked for a worker since. -/
def isComing : Place α → Bool
  | .entering woken => woken
  | .notified => true
  | _ => false

def isRefused : Place α → Bool
  | .refused => true
  | _ => false

def claims (index : ℕ) : Place α → Bool
  | .claimed worker => worker = index
  | _ => false

end Place

namespace Thread

/-- The flag of the worker is cleared, and nobody is notified of that yet. -/
def isFreed : Thread α → Bool
  | .freed _ _ => true
  | _ => false

def isResolving : Thread α → Bool
  | .resolving _ => true
  | _ => false

end Thread

namespace DnsWorkerPool

variable {s t : DnsWorkerPool α} {e : PoolEvent α}

/-- **What a call of `notify_one` does.** -/
inductive Notifies (s : DnsWorkerPool α) : Option ℕ → DnsWorkerPool α → Prop
  | wakes {i : ℕ} : s.calls[i]? = some .parked → Notifies s (some i) (s.goOn i .notified)
  | stores : s.calls.countP Place.isParked = 0 → Notifies s none { s with permit := true }

/-- **What a step does.** -/
inductive Turn (s : DnsWorkerPool α) : PoolEvent α → DnsWorkerPool α → Prop
  | called : Turn s .resolve { s with calls := s.calls ++ [.entering false] }
  | locked {i : ℕ} {woken : Bool} :
    s.calls[i]? = some (.entering woken) → s.lock = none →
    Turn s (.lock i) ({ s with lock := some ⟨i, woken, 0⟩ }.goOn i .scanning)
  /-- The scan. -/
  | passed {scan : Scan} {worker : DnsWorker α} :
    s.lock = some scan → s.workers[scan.slot]? = some worker → worker.busy = true →
    Turn s .scan { s with lock := some { scan with slot := scan.slot + 1 } }
  | claimed {scan : Scan} {worker : DnsWorker α} :
    s.lock = some scan → s.workers[scan.slot]? = some worker → worker.busy = false →
    Turn s .scan
      ((({ s with lock := none } : DnsWorkerPool α).withWorker scan.slot
        { worker with busy := true }).goOn scan.call (.claimed scan.slot))
  | spawned {scan : Scan} :
    s.lock = some scan → s.workers[scan.slot]? = none → s.workers.length < maxDnsWorkers →
    Turn s .scan
      ({ s with lock := none, workers := s.workers ++ [DnsWorker.spawn] }.goOn scan.call
        (.claimed s.workers.length))
  | missed {scan : Scan} :
    s.lock = some scan → s.workers[scan.slot]? = none →
    Turn s .scan ({ s with lock := none }.goOn scan.call .scanned)
  | unspawned {scan : Scan} {error : IoError} :
    s.lock = some scan → s.workers[scan.slot]? = none →
    Turn s (.spawnFailed error) ({ s with lock := none }.goOn scan.call (.returned (.error error)))
  /-- Waiting for a worker. -/
  | spent {i : ℕ} :
    s.calls[i]? = some .scanned → s.permit = true →
    Turn s (.poll i) ({ s with permit := false }.goOn i (.entering true))
  | parked {i : ℕ} :
    s.calls[i]? = some .scanned → s.permit = false → Turn s (.poll i) (s.goOn i .parked)
  | resumed {i : ℕ} :
    s.calls[i]? = some .notified → Turn s (.resume i) (s.goOn i (.entering true))
  | cancelled {i : ℕ} {woken : Option ℕ} {place : Place α} :
    s.calls[i]? = some place → place = .parked ∨ place = .waiting →
    Turn s (.cancel i woken) (s.goOn i .dropped)
  | forwarded {i : ℕ} {woken : Option ℕ} {t : DnsWorkerPool α} :
    s.calls[i]? = some .notified → Notifies (s.goOn i .dropped) woken t →
    Turn s (.cancel i woken) t
  /-- The request. -/
  | sent {i w : ℕ} {worker : DnsWorker α} :
    s.calls[i]? = some (.claimed w) → s.workers[w]? = some worker → worker.channel = [] →
    Turn s (.send i) ((s.withWorker w { worker with channel := [i] }).goOn i .waiting)
  | refused {i w : ℕ} {worker : DnsWorker α} :
    s.calls[i]? = some (.claimed w) → s.workers[w]? = some worker → worker.channel ≠ [] →
    Turn s (.send i) ((s.withWorker w { worker with busy := false }).goOn i .refused)
  | retracted {i : ℕ} {woken : Option ℕ} {t : DnsWorkerPool α} :
    s.calls[i]? = some .refused →
    Notifies (s.goOn i (.returned (.error unavailable))) woken t → Turn s (.retract i woken) t
  /-- The worker. -/
  | received {w i : ℕ} {rest : List ℕ} {worker : DnsWorker α} :
    s.workers[w]? = some worker → worker.channel = i :: rest → worker.thread = .receiving →
    Turn s (.receive w) (s.withWorker w ⟨worker.busy, rest, .resolving i⟩)
  | finished {w i : ℕ} {worker : DnsWorker α} {result answer : Except IoError (List α)} :
    s.workers[w]? = some worker → worker.thread = .resolving i →
    Turn s (.finish w result) (s.withWorker w ⟨false, worker.channel, .freed i answer⟩)
  | notified {w i : ℕ} {worker : DnsWorker α} {result : Except IoError (List α)}
      {woken : Option ℕ} {t : DnsWorkerPool α} :
    s.workers[w]? = some worker → worker.thread = .freed i result →
    Notifies (s.withWorker w ⟨worker.busy, worker.channel, .notified i result⟩) woken t →
    Turn s (.notify w woken) t
  | responded {w i : ℕ} {worker : DnsWorker α} {result : Except IoError (List α)} :
    s.workers[w]? = some worker → worker.thread = .notified i result →
    Turn s (.respond w)
      ((s.withWorker w ⟨worker.busy, worker.channel, .receiving⟩).deliver i result)

theorem notifies_of_eq {woken : Option ℕ} (h : s.notifyOne woken = some t) :
    Notifies s woken t := by
  cases woken with
  | some i =>
    simp only [notifyOne] at h
    split at h
    case h_1 hparked =>
      cases h
      exact .wakes hparked
    case h_2 => cases h
  | none =>
    simp only [notifyOne] at h
    split_ifs at h with hany
    cases h
    refine .stores (countP_eq_zero.mpr fun place hplace => ?_)
    simp only [List.any_eq_true, not_exists, not_and] at hany
    exact hany place hplace

theorem scan_turn {scan : Scan} (hlock : s.lock = some scan) : Turn s .scan (s.scan scan) := by
  unfold DnsWorkerPool.scan
  cases hslot : s.workers[scan.slot]? with
  | some worker =>
    dsimp only
    split_ifs with hbusy
    · exact .passed hlock hslot hbusy
    · exact .claimed hlock hslot (by simpa using hbusy)
  | none =>
    split_ifs with hlen
    · exact .spawned hlock hslot hlen
    · exact .missed hlock hslot

/-- **Every step is one of these.** -/
theorem turn_of_step (h : s.step e = some t) : Turn s e t := by
  cases e <;> dsimp only [step] at h
  case resolve =>
    cases h
    exact .called
  case lock i =>
    split at h <;> cases h
    next hcall hlock => exact .locked hcall hlock
  case scan =>
    obtain ⟨scan, hlock, rfl⟩ := map_eq_some_iff.mp h
    exact scan_turn hlock
  case spawnFailed error =>
    split at h
    next scan hlock =>
      split_ifs at h with hend
      cases h
      exact .unspawned hlock (getElem?_eq_none hend.1)
    next => cases h
  case poll i =>
    split at h
    next hcall =>
      split_ifs at h with hpermit <;> cases h
      · exact .spent hcall hpermit
      · exact .parked hcall (by simpa using hpermit)
    next => cases h
  case resume i =>
    split at h <;> cases h
    next hcall => exact .resumed hcall
  case cancel i woken =>
    split at h
    next hcall =>
      cases h
      exact .cancelled hcall (.inl rfl)
    next hcall => exact .forwarded hcall (notifies_of_eq h)
    next hcall =>
      cases h
      exact .cancelled hcall (.inr rfl)
    next => cases h
  case send i =>
    split at h
    next w hcall =>
      obtain ⟨worker, hworker, rfl⟩ := map_eq_some_iff.mp h
      unfold DnsWorkerPool.send
      split_ifs with hchannel
      · exact .sent hcall hworker hchannel
      · exact .refused hcall hworker hchannel
    next => cases h
  case retract i woken =>
    split at h
    next hcall => exact .retracted hcall (notifies_of_eq h)
    next => cases h
  case receive w =>
    split at h <;> cases h
    next hworker => exact .received hworker rfl rfl
  case finish w result =>
    split at h <;> cases h
    next hworker => exact .finished hworker rfl
  case notify w woken =>
    split at h
    next hworker => exact .notified hworker rfl (notifies_of_eq h)
    next => cases h
  case respond w =>
    split at h <;> cases h
    next hworker => exact .responded hworker rfl

end DnsWorkerPool

end Vole.Dialer
