import Vole.Common.Runs
import Vole.Common.Table
import Vole.Model.IoError
import Vole.Model.Session

/-!
# SOCKS5 UDP associations

The registry of the associations that negotiated TCP control connections
have: which datagrams each receives, and who may reply for it. Every
function holds the lock of the registry throughout, so it is one step.

An entry of the map and its lease share three objects: the learned source,
the cancellation token and the queue. They are made together when the
association is registered, and are found here by the number of the
registration, which is what `Arc::ptr_eq` compares.
-/

namespace Vole.Socks5

/-- `association::QUEUE_CAPACITY`. -/
def queueCapacity : ℕ := 16

/-- `association::IDLE_TIMEOUT`, in nanoseconds. -/
def idleTimeout : ℕ := 30 * 10 ^ 9

/-- `std::net::SocketAddr`, with the flow label and the scope of an IPv6
address. -/
structure PeerAddr extends SocketAddr where
  flowInfo : UInt32
  scopeId : UInt32
  deriving DecidableEq, Repr

/-- `SocketAddr::set_port`. -/
def PeerAddr.setPort (self : PeerAddr) (port : UInt16) : PeerAddr := { self with port }

/-- What an entry and its lease share: `source`, `cancellation`, and the
channel with its queue and whether its receiver is gone. -/
structure Shared where
  source : PeerAddr
  cancelled : Bool
  closed : Bool
  queue : List Datagram
  deriving DecidableEq

/-- `association::Entry`. -/
structure Entry where
  lease : ℕ
  lastActivity : ℕ
  deriving DecidableEq

/-- A datagram that was sent to a client. -/
structure Reply where
  lease : ℕ
  target : PeerAddr
  packet : Bytes
  deriving DecidableEq

/-- `association::Associations`, with the registrations so far, the time of
the last step and the replies that were sent. -/
structure Associations where
  entries : Table PeerAddr Entry
  shared : ℕ → Shared
  registered : ℕ
  clock : ℕ
  replies : List Reply

namespace Associations

variable (self : Associations)

/-- No association. -/
def empty (shared : ℕ → Shared) : Associations where
  entries := ∅
  shared
  registered := 0
  clock := 0
  replies := []

/-- `Entry::expired`. -/
def expired (entry : Entry) (now : ℕ) : Bool :=
  (self.shared entry.lease).cancelled || (self.shared entry.lease).closed ||
    idleTimeout ≤ now - entry.lastActivity

/-- A change of what a lease and its entry share. -/
def share (lease : ℕ) (f : Shared → Shared) : Associations :=
  { self with shared := Function.update self.shared lease (f (self.shared lease)) }

/-- `CancellationToken::cancel`. -/
def cancel (lease : ℕ) : Associations := self.share lease ({ · with cancelled := true })

/-- The receiver of the queue goes away. -/
def close (lease : ℕ) : Associations := self.share lease ({ · with closed := true })

/-- `entries.remove(&key)`. -/
def remove (key : PeerAddr) : Associations := { self with entries := self.entries.erase key }

/-- `entries.insert(key, entry)`. -/
def insert (key : PeerAddr) (entry : Entry) : Associations :=
  { self with entries := self.entries.insert key entry }

/-- The new entry of `Associations::register`. -/
def enter (source : PeerAddr) (now : ℕ) : Associations :=
  { self with
    entries := self.entries.insert source { lease := self.registered, lastActivity := now }
    shared := Function.update self.shared self.registered
      { source, cancelled := false, closed := false, queue := [] }
    registered := self.registered + 1 }

/-- `Associations::register`: the lease, unless there is an entry. -/
def register (peer : PeerAddr) (port : UInt16) (now : ℕ) : Except IoError ℕ × Associations :=
  let source := peer.setPort port
  match self.entries.lookup source with
  | none => (.ok self.registered, self.enter source now)
  | some entry =>
    if !self.expired entry now then
      (.error ⟨.permissionDenied, "ambiguous SOCKS5 UDP association"⟩, self)
    else (.ok self.registered, ((self.cancel entry.lease).remove source).enter source now)

/-- `Lease::drop`. -/
def drop (lease : ℕ) : Associations :=
  let source := (self.shared lease).source
  let removed :=
    if (self.entries.lookup source).any fun entry => entry.lease == lease then self.remove source
    else self
  removed.cancel lease

/-- The key under which `Associations::enqueue` looks for an entry. -/
def keyFor (source : PeerAddr) : PeerAddr :=
  if (self.entries.lookup source).isSome then source else source.setPort 0

/-- A packet for which `try_reserve` found room: the source is learned, the
datagram queued and the idle time refreshed. -/
def deliver (key source : PeerAddr) (entry : Entry) (remote : Destination) (payload : Bytes)
    (now : ℕ) : Associations :=
  let self := self.share entry.lease fun shared =>
    { shared with
      source
      queue := shared.queue ++ [{ remote, payload, sniffedDomain := none }] }
  let entry := { entry with lastActivity := now }
  if key ≠ source then (self.remove key).insert source entry else self.insert key entry

/-- `Associations::enqueue`, of a packet that `decode_udp_packet` decodes to
this. The receiver takes no lock, and may go away between the two looks at
the channel (`closes`). -/
def enqueue (source : PeerAddr) (decoded : Option (Destination × Bytes)) (closes : Bool)
    (now : ℕ) : Associations :=
  match decoded with
  | none => self
  | some (remote, payload) =>
    let key := self.keyFor source
    match self.entries.lookup key with
    | none => self
    | some entry =>
      if self.expired entry now then (self.cancel entry.lease).remove key
      else
        let self := if closes then self.close entry.lease else self
        -- the two errors of `try_reserve`
        if (self.shared entry.lease).closed ||
            queueCapacity ≤ (self.shared entry.lease).queue.length then self
        else self.deliver key source entry remote payload now

/-- `Associations::cleanup`: what is not retained is cancelled. -/
def cleanup (now : ℕ) : Associations :=
  { self with
    entries := self.entries.retain fun _ entry => !self.expired entry now
    shared := fun lease =>
      if self.entries.entries.any fun found =>
          found.2.lease == lease && self.expired found.2 now then
        { self.shared lease with cancelled := true }
      else self.shared lease }

/-- `Associations::try_reply`, where the socket takes this many bytes, or
fails with this text. -/
def tryReply (lease : ℕ) (packet : Bytes) (written : Except String ℕ) (now : ℕ) :
    Except IoError Unit × Associations :=
  let source := (self.shared lease).source
  match (self.entries.lookup source).filter fun entry =>
      entry.lease == lease && !self.expired entry now with
  | none => (.error ⟨.notConnected, "SOCKS5 association ended"⟩, self)
  | some entry =>
    if source.port = 0 then (.error ⟨.notConnected, "SOCKS5 source is not learned"⟩, self)
    else
      match written with
      | .error text => (.error ⟨.os, text⟩, self)
      | .ok count =>
        let self := { self with replies := self.replies ++ [{ lease, target := source, packet }] }
        if count ≠ packet.length then
          (.error ⟨.writeZero, "partial SOCKS5 datagram"⟩, self)
        else (.ok (), self.insert source { entry with lastActivity := now })

end Associations

/-- The steps: the functions of the registry, each at its time, and what
others do to the shared objects: a token is cancelled, by its holder or
from above, a queue is read, and its receiver goes away. -/
inductive AssociationEvent where
  | register (peer : PeerAddr) (port : UInt16) (now : ℕ)
  | enqueue (source : PeerAddr) (decoded : Option (Destination × Bytes)) (closes : Bool) (now : ℕ)
  | cleanup (now : ℕ)
  | tryReply (lease : ℕ) (packet : Bytes) (written : Except String ℕ) (now : ℕ)
  | drop (lease : ℕ)
  | cancelled (lease : ℕ)
  | received (lease : ℕ)
  | closed (lease : ℕ)

namespace AssociationEvent

/-- The time of a step that reads the clock. -/
def now? : AssociationEvent → Option ℕ
  | register _ _ now => some now
  | enqueue _ _ _ now => some now
  | cleanup now => some now
  | tryReply _ _ _ now => some now
  | drop _ => none
  | cancelled _ => none
  | received _ => none
  | closed _ => none

/-- The lease a step is about. -/
def lease? : AssociationEvent → Option ℕ
  | register _ _ _ => none
  | enqueue _ _ _ _ => none
  | cleanup _ => none
  | tryReply lease _ _ _ => some lease
  | drop lease => some lease
  | cancelled lease => some lease
  | received lease => some lease
  | closed lease => some lease

end AssociationEvent

namespace Associations

variable (self : Associations)

/-- What a step does. -/
def perform : AssociationEvent → Associations
  | .register peer port now => (self.register peer port now).2
  | .enqueue source decoded closes now => self.enqueue source decoded closes now
  | .cleanup now => self.cleanup now
  | .tryReply lease packet written now => (self.tryReply lease packet written now).2
  | .drop lease => self.drop lease
  | .cancelled lease => self.cancel lease
  | .received lease => self.share lease fun shared => { shared with queue := shared.queue.drop 1 }
  | .closed lease => self.close lease

/-- **A step of the registry.** Times do not decrease, and a lease is used
only after it was registered. -/
def step (event : AssociationEvent) : Option Associations :=
  let now := event.now?.getD self.clock
  if self.clock ≤ now ∧ event.lease?.all (· < self.registered) then
    some { self.perform event with clock := now }
  else none

end Associations

end Vole.Socks5
