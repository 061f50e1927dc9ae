import Vole.Common.Runs
import Vole.Tun.Model.Quic

/-!
# The loop of a TUN UDP association

One association forwards the datagrams of one source. In each turn it waits
for the first of several things, in a fixed order of preference: a
cancellation, a deadline of the sniffing, a response, a datagram that is
ready to be sent, and only then the next datagram from the TUN device.
-/

namespace Vole.Tun

/-- The errors the loop ends with. -/
inductive AssociationError where
  | capacity
  | domainSource
  | send (message : String)
  | receive (message : String)
  deriving DecidableEq, Repr

/-- The results of `run_udp_association_inner_with_quic_factory`. -/
inductive Ending where
  | done
  | failed (error : AssociationError)
  deriving DecidableEq, Repr

/-- The results of `send_tun_udp_datagram`. A cancellation may come before
the transport is asked to send, or while it sends. -/
inductive SendResult where
  | sent
  | failed (message : String)
  | cancelled (asked : Bool)
  deriving DecidableEq, Repr

/-- `ResponseQueueResult`. -/
inductive ResponseQueueResult where
  | queued
  | dropped
  | closed
  deriving DecidableEq, Repr

/-- `AssociationEvent`, with what the turn meets: the time, the order in
which the map of flows is iterated, and how sending and queueing end. -/
inductive AssociationEvent where
  | cancelled
  | sniffDeadline (order : List SocketAddr) (now : ℕ)
  | readySend (result : SendResult)
  | inbound (order : List SocketAddr) (datagram : UdpDatagram) (now : ℕ)
  | inboundClosed
  | outbound (remote : Destination) (queueing : ResponseQueueResult)
  | outboundFailed (message : String)
  deriving DecidableEq, Repr

/-- The variables of the loop, and what it has done: the datagrams the
transport was asked to send, and one that was taken from the queue when the
association was cancelled. -/
structure Association (S N : Type) where
  quicSniff : UdpQuicSniffState S N
  ready : List PreparedTunUdpDatagram
  pendingSend : Option PreparedTunUdpDatagram
  handed : List PreparedTunUdpDatagram
  abandoned : Option PreparedTunUdpDatagram
  received : ℕ
  ended : Option Ending

/-- `append_ready_datagrams`. -/
def appendReadyDatagrams (ready datagrams : List PreparedTunUdpDatagram) :
    Except AssociationError (List PreparedTunUdpDatagram) :=
  if quicSniffReadyDatagramMax < ready.length + datagrams.length then .error .capacity
  else .ok (ready ++ datagrams)

/-- `configured_quic_sniffing`, for `SnifferConfig::matches_quic_port`. -/
def configuredQuicSniffing (config : Option (UInt16 → Bool)) (port : UInt16) : Bool :=
  config.any fun matchesQuicPort => matchesQuicPort port

namespace Association

variable {S N : Type} (engine : QuicSniffEngine S N) (config : Option (UInt16 → Bool))
  (self : Association S N)

/-- The loop before its first turn. -/
def new (factory : N) (idleTimeout : ℕ) : Association S N where
  quicSniff := .withIdleTimeout factory idleTimeout
  ready := []
  pendingSend := none
  handed := []
  abandoned := none
  received := 0
  ended := none

/-- The condition of the `ReadySend` branch. -/
def canSend : Bool := self.pendingSend.isSome || !self.ready.isEmpty

/-- More datagrams are ready, or there is no room for them. -/
def append (datagrams : List PreparedTunUdpDatagram) : Association S N :=
  match appendReadyDatagrams self.ready datagrams with
  | .ok ready => { self with ready }
  | .error error => { self with ended := some (.failed error) }

/-- `AssociationEvent::SniffDeadline`. -/
def sniffDeadline (order : List SocketAddr) (now : ℕ) : Association S N :=
  let (datagrams, quicSniff) := self.quicSniff.expire order now
  { self with quicSniff }.append datagrams

/-- `pending_send.take().or_else(|| ready.pop_front())`. -/
def takeReady : Option (PreparedTunUdpDatagram × Association S N) :=
  match self.pendingSend, self.ready with
  | some prepared, _ => some (prepared, { self with pendingSend := none })
  | none, prepared :: ready => some (prepared, { self with ready })
  | none, [] => none

/-- `send_tun_udp_datagram`, and what the loop makes of its result. -/
def send (prepared : PreparedTunUdpDatagram) : SendResult → Association S N
  | .sent => { self with handed := self.handed ++ [prepared] }
  | .failed message =>
    { self with handed := self.handed ++ [prepared], ended := some (.failed (.send message)) }
  | .cancelled true => { self with handed := self.handed ++ [prepared], ended := some .done }
  | .cancelled false => { self with abandoned := some prepared, ended := some .done }

/-- What `AssociationEvent::Inbound` makes of the result of the
sniffing. -/
def accept : QuicIngressResult → Association S N
  | .buffered => self
  | .forward prepared => { self with pendingSend := some prepared }
  | .replay datagrams => self.append datagrams

/-- `AssociationEvent::Inbound`. -/
def inbound (order : List SocketAddr) (datagram : UdpDatagram) (now : ℕ) : Association S N :=
  let datagram := { datagram with number := self.received }
  let self := { self with received := self.received + 1 }
  if configuredQuicSniffing config datagram.destination.port then
    let (result, quicSniff) := self.quicSniff.ingestDatagram engine order datagram now
    { self with quicSniff }.accept result
  else self.accept (.forward (.withoutDomain datagram none))

/-- `AssociationEvent::Outbound`, with a response. -/
def outbound (remote : Destination) (queueing : ResponseQueueResult) : Association S N :=
  match remote, queueing with
  | .domain _ _, _ =>
    { self with ended := some (.failed .domainSource) }
  | .ip _, .closed => { self with ended := some .done }
  | .ip _, .queued => self
  | .ip _, .dropped => self

/-- **One turn of the loop.** What is ready to be sent is preferred to the
next datagram, and a map is iterated in some order of its keys. A deadline
may be late by any time. -/
def step (event : AssociationEvent) : Option (Association S N) :=
  if self.ended.isSome then none
  else
    match event with
    | .cancelled => some { self with ended := some .done }
    | .sniffDeadline order now =>
      if self.quicSniff.nextDeadline.isSome ∧ order.Perm self.quicSniff.flows.keys then
        some (self.sniffDeadline order now)
      else none
    | .readySend result => self.takeReady.map fun (prepared, self) => self.send prepared result
    | .inbound order datagram now =>
      if self.canSend = false ∧ order.Perm self.quicSniff.flows.keys then
        some (self.inbound engine config order datagram now)
      else none
    | .inboundClosed =>
      if self.canSend = false then some { self with ended := some .done } else none
    | .outbound remote queueing => some (self.outbound remote queueing)
    | .outboundFailed message => some { self with ended := some (.failed (.receive message)) }

end Association

end Vole.Tun
