import Mathlib.Logic.Function.Basic
import Vole.Common.Runs

/-!
# Single flights

`dns::runtime::SingleflightRegistry` and the callers of `exchange_address` and
`exchange_opaque`. A caller looks into the cache and joins the registry under
the lock of the cache, which is one step here; sending an update and removing
the entry are two. What the upstreams answer, how long it is cached and what
the cache evicts for it is up to the events.
-/

namespace Vole.Dns

/-- `FlightUpdate`, with results `ρ`. -/
inductive FlightUpdate (ρ : Type) where
  | pending
  | complete (result : ρ)
  | retry
  deriving DecidableEq, Repr

/-- `FlightState`, with its key. `stored` is when the response in the cache
expires that its leader put there, while no later insert has replaced or
evicted it. -/
structure Flight (κ ρ : Type) where
  key : κ
  update : FlightUpdate ρ
  stored : Option ℕ

/-- Where a caller is. -/
inductive Caller (κ ρ : Type) where
  | idle
  | looking (key : κ)
  /-- It has a `FlightLeaderGuard`: until the upstreams have answered, until
  the update is sent, and until the entry is removed. -/
  | leading (flight : ℕ)
  | answered (flight : ℕ) (result : ρ)
  | announced (flight : ℕ) (result : Option ρ)
  /-- The guard is gone. -/
  | ended (flight : ℕ) (result : Option ρ)
  /-- It has found a flight, and it has subscribed to its updates. -/
  | joined (key : κ) (flight : ℕ)
  | waiting (key : κ) (flight : ℕ)
  | followed (flight : ℕ) (result : ρ)
  | hit (result : ρ)
  | dropped
  deriving DecidableEq, Repr

/-- The registry, the cache with the expiry of each entry, every flight that
was `made`, and the callers. -/
structure Singleflight (κ γ ρ : Type) where
  now : ℕ
  cache : γ → Option (ρ × ℕ)
  registry : κ → Option ℕ
  made : ℕ
  flights : ℕ → Flight κ ρ
  callers : ℕ → Caller κ ρ

/-- What can happen next. A response that is not cached has no `expiry`. -/
inductive FlightEvent (κ γ ρ : Type) where
  | call (caller : ℕ) (key : κ)
  | pass (seconds : ℕ)
  | look (caller : ℕ)
  | exchanged (caller : ℕ) (result : ρ) (expiry : Option ℕ) (evicted : List γ)
  | complete (caller : ℕ)
  | cancel (caller : ℕ)
  | remove (caller : ℕ)
  | subscribe (caller : ℕ)
  | wait (caller : ℕ)

namespace Singleflight

variable {κ γ ρ : Type} [DecidableEq κ] [DecidableEq γ] (slot : κ → γ) (self : Singleflight κ γ ρ)

/-- A caller goes on. -/
def goOn (caller : ℕ) (place : Caller κ ρ) : Singleflight κ γ ρ :=
  { self with callers := Function.update self.callers caller place }

/-- A new flight of this key, led by this caller. -/
def lead (caller : ℕ) (key : κ) : Singleflight κ γ ρ :=
  { self with
    registry := Function.update self.registry key (some self.made)
    made := self.made + 1
    flights := Function.update self.flights self.made ⟨key, .pending, none⟩
    callers := Function.update self.callers caller (.leading self.made) }

/-- `SingleflightRegistry::join`. -/
def join (caller : ℕ) (key : κ) : Singleflight κ γ ρ :=
  match self.registry key with
  | some flight => self.goOn caller (.joined key flight)
  | none => self.lead caller key

/-- The block of `exchange_address` and `exchange_opaque` under the lock of
the cache, where the entry of a key is at `slot`. -/
def look (caller : ℕ) (key : κ) : Singleflight κ γ ρ :=
  match (self.cache (slot key)).filter (self.now < ·.2) with
  | some (result, _) => self.goOn caller (.hit result)
  | none => self.join caller key

/-- The insert of `cache_response` or `exchange_opaque_leader`. -/
def store (flight : ℕ) (result : ρ) (expiry : ℕ) (evicted : List γ) : Singleflight κ γ ρ :=
  let own := slot (self.flights flight).key
  { self with
    cache := fun c =>
      if c = own then some (result, expiry) else if c ∈ evicted then none else self.cache c
    flights := fun f =>
      if f = flight then { self.flights f with stored := some expiry }
      else if slot (self.flights f).key ∈ own :: evicted then { self.flights f with stored := none }
      else self.flights f }

/-- `send_replace`. -/
def send (caller flight : ℕ) (result : Option ρ) : Singleflight κ γ ρ :=
  { self with
    flights := Function.update self.flights flight
      { self.flights flight with update := result.elim .retry .complete }
    callers := Function.update self.callers caller (.announced flight result) }

/-- `FlightLeaderGuard::remove_current`. -/
def removeCurrent (flight : ℕ) : Singleflight κ γ ρ :=
  if self.registry (self.flights flight).key = some flight then
    { self with registry := Function.update self.registry (self.flights flight).key none }
  else self

/-- One step. A guard can be dropped at any point. -/
def step : FlightEvent κ γ ρ → Option (Singleflight κ γ ρ)
  | .call i key =>
    match self.callers i with
    | .idle => some (self.goOn i (.looking key))
    | _ => none
  | .pass seconds => some { self with now := self.now + seconds }
  | .look i =>
    match self.callers i with
    | .looking key => some (self.look slot i key)
    | _ => none
  | .exchanged i result expiry evicted =>
    match self.callers i with
    | .leading f =>
      some ((expiry.elim self (self.store slot f result · evicted)).goOn i (.answered f result))
    | _ => none
  | .complete i =>
    match self.callers i with
    | .answered f result => some (self.send i f (some result))
    | _ => none
  | .cancel i =>
    match self.callers i with
    | .looking _ | .joined _ _ | .waiting _ _ => some (self.goOn i .dropped)
    | .leading f | .answered f _ => some (self.send i f none)
    | _ => none
  | .remove i =>
    match self.callers i with
    | .announced f result => some ((self.removeCurrent f).goOn i (.ended f result))
    | _ => none
  | .subscribe i =>
    match self.callers i with
    | .joined key f => some (self.goOn i (.waiting key f))
    | _ => none
  | .wait i =>
    match self.callers i with
    | .waiting key f =>
      match (self.flights f).update with
      | .pending => none
      | .complete result => some (self.goOn i (.followed f result))
      | .retry => some (self.goOn i (.looking key))
    | _ => none

end Singleflight

end Vole.Dns
