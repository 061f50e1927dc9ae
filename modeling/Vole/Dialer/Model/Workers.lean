import Vole.Common.Runs
import Vole.Model.IoError

/-!
# The bootstrap DNS workers

A pool of threads that resolve names, the calls of `resolve` that use them,
and the `Notify` on which calls wait for a worker. A step takes one call or
one thread to its next access of something shared: the mutex of the list,
the flag of a worker, its channel, the `Notify`.

`notify_one` wakes some call that is registered, or stores the one permit.
`notified()` registers nothing: a call is registered when it first polls the
future, after its scan. A call that was woken and is dropped passes its
notification on. A worker thread ends with its pool only, so its channel is
never closed here.
-/

namespace Vole.Dialer

/-- `limits::MAX_DNS_WORKERS`. -/
def maxDnsWorkers : ℕ := 4

/-- `dialer::MAX_RESOLVED_ADDRESSES`. -/
def maxResolvedAddresses : ℕ := 8

variable {α : Type}

/-- `dialer::take_resolved_addresses`. -/
def takeResolvedAddresses (addresses : List α) : List α := addresses.take maxResolvedAddresses

/-- Where a worker thread is: at `recv`, in the lookup for a call, and after
the lookup before `notify_one` and before the response. -/
inductive Thread (α : Type) where
  | receiving
  | resolving (call : ℕ)
  | freed (call : ℕ) (result : Except IoError (List α))
  | notified (call : ℕ) (result : Except IoError (List α))

/-- `dialer::DnsWorker`, with its thread. The channel has the calls that the
requests in it are from. -/
structure DnsWorker (α : Type) where
  busy : Bool
  channel : List ℕ
  thread : Thread α

/-- `DnsWorker::spawn`, and the claim that follows. -/
def DnsWorker.spawn : DnsWorker α where
  busy := true
  channel := []
  thread := .receiving

/-- Where a call of `DnsWorkerPool::resolve` is. `woken` is whether it comes
from `notified.await`. -/
inductive Place (α : Type) where
  /-- `claim_worker`, before it has the mutex, while it has it, and after
  that with no worker. -/
  | entering (woken : Bool)
  | scanning
  | scanned
  /-- It is registered, and it is woken and not resumed. -/
  | parked
  | notified
  /-- It has a worker, its request was refused, and it waits for the
  response. -/
  | claimed (worker : ℕ)
  | refused
  | waiting
  | returned (result : Except IoError (List α))
  | dropped

/-- The call that has the mutex: whether it was woken, and the slot it looks
at next. -/
structure Scan where
  call : ℕ
  woken : Bool
  slot : ℕ

/-- `dialer::DnsWorkerPool`, with the calls. `permit` is what the `Notify`
stores. -/
structure DnsWorkerPool (α : Type) where
  workers : List (DnsWorker α)
  lock : Option Scan
  permit : Bool
  calls : List (Place α)

/-- What can happen next. Where `notify_one` is called, `woken` is the call
that it wakes. -/
inductive PoolEvent (α : Type) where
  | resolve
  | lock (call : ℕ)
  | scan
  | spawnFailed (error : IoError)
  | poll (call : ℕ)
  | resume (call : ℕ)
  | cancel (call : ℕ) (woken : Option ℕ)
  | send (call : ℕ)
  | retract (call : ℕ) (woken : Option ℕ)
  | receive (worker : ℕ)
  | finish (worker : ℕ) (result : Except IoError (List α))
  | notify (worker : ℕ) (woken : Option ℕ)
  | respond (worker : ℕ)

namespace Place

def isParked : Place α → Bool
  | .parked => true
  | _ => false

end Place

namespace DnsWorkerPool

variable (self : DnsWorkerPool α)

/-- `DnsWorkerPool::default`. -/
def default : DnsWorkerPool α where
  workers := []
  lock := none
  permit := false
  calls := []

/-- A call goes on. -/
def goOn (call : ℕ) (place : Place α) : DnsWorkerPool α :=
  { self with calls := self.calls.set call place }

/-- A worker changes. -/
def withWorker (index : ℕ) (worker : DnsWorker α) : DnsWorkerPool α :=
  { self with workers := self.workers.set index worker }

/-- `Notify::notify_one`. -/
def notifyOne : Option ℕ → Option (DnsWorkerPool α)
  | some call =>
    match self.calls[call]? with
    | some .parked => some (self.goOn call .notified)
    | _ => none
  | none => if self.calls.any Place.isParked then none else some { self with permit := true }

/-- The next slot of the scan, or its end. -/
def scan (scan : Scan) : DnsWorkerPool α :=
  let released := { self with lock := none }
  match self.workers[scan.slot]? with
  | some worker =>
    -- `try_claim`
    if worker.busy then { self with lock := some { scan with slot := scan.slot + 1 } }
    else (released.withWorker scan.slot { worker with busy := true }).goOn scan.call
      (.claimed scan.slot)
  | none =>
    if self.workers.length < maxDnsWorkers then
      { released with workers := self.workers ++ [DnsWorker.spawn] }.goOn scan.call
        (.claimed self.workers.length)
    else released.goOn scan.call .scanned

/-- `try_send` of the request, to a channel for one. -/
def send (call index : ℕ) (worker : DnsWorker α) : DnsWorkerPool α :=
  if worker.channel = [] then
    (self.withWorker index { worker with channel := [call] }).goOn call .waiting
  else (self.withWorker index { worker with busy := false }).goOn call .refused

/-- `bootstrap DNS worker is unavailable`. -/
def unavailable : IoError := ⟨.brokenPipe, "bootstrap DNS worker is unavailable"⟩

/-- The response arrives, if the call still waits for it. -/
def deliver (call : ℕ) (result : Except IoError (List α)) : DnsWorkerPool α :=
  match self.calls[call]? with
  | some .waiting => self.goOn call (.returned result)
  | _ => self

/-- **A step of the pool.** -/
def step : PoolEvent α → Option (DnsWorkerPool α)
  | .resolve => some { self with calls := self.calls ++ [.entering false] }
  | .lock call =>
    match self.calls[call]?, self.lock with
    | some (.entering woken), none =>
      some ({ self with lock := some { call, woken, slot := 0 } }.goOn call .scanning)
    | _, _ => none
  | .scan => self.lock.map self.scan
  | .spawnFailed error =>
    match self.lock with
    | some scan =>
      if self.workers.length ≤ scan.slot ∧ self.workers.length < maxDnsWorkers then
        some ({ self with lock := none }.goOn scan.call (.returned (.error error)))
      else none
    | none => none
  | .poll call =>
    match self.calls[call]? with
    | some .scanned =>
      if self.permit then some ({ self with permit := false }.goOn call (.entering true))
      else some (self.goOn call .parked)
    | _ => none
  | .resume call =>
    match self.calls[call]? with
    | some .notified => some (self.goOn call (.entering true))
    | _ => none
  | .cancel call woken =>
    match self.calls[call]? with
    | some .parked => some (self.goOn call .dropped)
    | some .notified => (self.goOn call .dropped).notifyOne woken
    | some .waiting => some (self.goOn call .dropped)
    | _ => none
  | .send call =>
    match self.calls[call]? with
    | some (.claimed index) => self.workers[index]?.map (self.send call index)
    | _ => none
  | .retract call woken =>
    match self.calls[call]? with
    | some .refused => (self.goOn call (.returned (.error unavailable))).notifyOne woken
    | _ => none
  | .receive index =>
    match self.workers[index]? with
    | some ⟨busy, call :: rest, .receiving⟩ =>
      some (self.withWorker index ⟨busy, rest, .resolving call⟩)
    | _ => none
  | .finish index result =>
    match self.workers[index]? with
    | some ⟨_, channel, .resolving call⟩ =>
      some (self.withWorker index
        ⟨false, channel, .freed call (result.map takeResolvedAddresses)⟩)
    | _ => none
  | .notify index woken =>
    match self.workers[index]? with
    | some ⟨busy, channel, .freed call result⟩ =>
      (self.withWorker index ⟨busy, channel, .notified call result⟩).notifyOne woken
    | _ => none
  | .respond index =>
    match self.workers[index]? with
    | some ⟨busy, channel, .notified call result⟩ =>
      some ((self.withWorker index ⟨busy, channel, .receiving⟩).deliver call result)
    | _ => none

end DnsWorkerPool

end Vole.Dialer
