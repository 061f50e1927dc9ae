import Mathlib.Data.List.MinMax
import Vole.Common.Table
import Vole.Model.Session

/-!
# QUIC sniffing of TUN datagrams

Per association, the datagrams to a destination are held back while a
sniffer looks for the server name in their QUIC Initials. A flow is then
`Matched`, or it has no domain; and it is given up when the budget is
spent, when its deadline passes or when its version is unknown.

The sniffer is a parameter, and so is what the first packet of a datagram
says about its connection. Times are numbers. Two fields are not the
source's and are read by no function: the `number` of a datagram is its
place among those received, and the `flow` of a sniffed flow is the number
of the datagram that started it.
-/

namespace Vole.Tun

/-- `QUIC_SNIFF_FLOW_MAX`. -/
def quicSniffFlowMax : ℕ := 4

/-- `QUIC_SNIFF_PENDING_DATAGRAM_MAX`. -/
def quicSniffPendingDatagramMax : ℕ := 8

/-- `QUIC_SNIFF_PENDING_BYTES_MAX`. -/
def quicSniffPendingBytesMax : ℕ := 32 * 1024

/-- `QUIC_SNIFF_READY_DATAGRAM_MAX`. -/
def quicSniffReadyDatagramMax : ℕ := quicSniffPendingDatagramMax + 1

/-- `QUIC_SNIFF_TIMEOUT`, in milliseconds. -/
def quicSniffTimeout : ℕ := 500

/-- `quic_sniffer::QuicConnectionKey`. -/
structure QuicConnectionKey where
  wireVersion : UInt32
  destinationConnectionId : Bytes
  deriving DecidableEq, Repr

/-- `quic_sniffer::QuicConnectionObservation`. -/
inductive QuicConnectionObservation where
  | initial (key : QuicConnectionKey)
  | unsupportedVersion
  | none
  deriving DecidableEq, Repr

/-- `quic_sniffer::QuicSniffOutcome`. -/
inductive QuicSniffOutcome where
  | needMoreData
  | matched (domain : Bytes)
  | echExtensionPresent
  | notMatched
  | limitReached
  deriving DecidableEq, Repr

/-- `QuicSniffEngine` and the factory of its engines, with the states `S`
and `N`, beside `quic_connection_observation`. -/
structure QuicSniffEngine (S N : Type) where
  ingest : S → Bytes → QuicSniffOutcome × S
  authenticatedInitialInLastIngest : S → Bool
  newSniffer : N → S × N
  observation : Bytes → QuicConnectionObservation

/-- `vole_netstack::UdpDatagram`, with its place among those received. -/
structure UdpDatagram where
  source : SocketAddr
  destination : SocketAddr
  payload : Bytes
  number : ℕ
  deriving DecidableEq, Repr

/-- `PreparedTunUdpDatagram`, with the sniffed flow it belongs to. -/
structure PreparedTunUdpDatagram where
  datagram : UdpDatagram
  sniffedDomain : Option Bytes
  flowId : Option QuicConnectionKey
  flow : Option ℕ
  deriving DecidableEq, Repr

namespace PreparedTunUdpDatagram

/-- `PreparedTunUdpDatagram::without_domain`. -/
def withoutDomain (datagram : UdpDatagram) (flow : Option ℕ) : PreparedTunUdpDatagram where
  datagram
  sniffedDomain := none
  flowId := none
  flow

/-- `PreparedTunUdpDatagram::with_domain`. -/
def withDomain (datagram : UdpDatagram) (domain : Bytes) (flow : Option ℕ) :
    PreparedTunUdpDatagram where
  datagram
  sniffedDomain := some domain
  flowId := none
  flow

/-- `PreparedTunUdpDatagram::with_flow_id`. -/
def withFlowId (self : PreparedTunUdpDatagram) (flowId : Option QuicConnectionKey) :
    PreparedTunUdpDatagram :=
  { self with flowId }

end PreparedTunUdpDatagram

/-- `PendingQuicFlow`. -/
structure PendingQuicFlow (S : Type) where
  sniffer : S
  connectionKey : Option QuicConnectionKey
  datagrams : List PreparedTunUdpDatagram
  bufferedBytes : ℕ
  deadline : ℕ
  flow : ℕ

/-- `CompletedQuicFlow`. A flow of an unknown version was not sniffed. -/
structure CompletedQuicFlow where
  connectionKey : Option QuicConnectionKey
  lastUsed : ℕ
  flow : Option ℕ

/-- `QuicFlowState`. -/
inductive QuicFlowState (S : Type) where
  | pending (pending : PendingQuicFlow S)
  | matched (domain : Bytes) (completed : CompletedQuicFlow)
  | noDomain (completed : CompletedQuicFlow)

namespace QuicFlowState

variable {S : Type}

/-- `QuicFlowState::Pending(pending) => Some(pending)`. -/
def pending? : QuicFlowState S → Option (PendingQuicFlow S)
  | .pending flow => some flow
  | .matched _ _ => none
  | .noDomain _ => none

/-- `Matched { completed, .. } | NoDomain(completed) => Some(completed)`. -/
def completed? : QuicFlowState S → Option CompletedQuicFlow
  | .pending _ => none
  | .matched _ completed => some completed
  | .noDomain completed => some completed

end QuicFlowState

/-- `QuicIngressResult`. -/
inductive QuicIngressResult where
  | buffered
  | forward (prepared : PreparedTunUdpDatagram)
  | replay (datagrams : List PreparedTunUdpDatagram)
  deriving DecidableEq, Repr

/-- `starts_new_quic_connection`. -/
def startsNewQuicConnection (current observed : Option QuicConnectionKey) : Bool :=
  observed.any fun observed => current != some observed

/-- `prepend_quic_replay`. -/
def prependQuicReplay (replay : List PreparedTunUdpDatagram) (next : QuicIngressResult) :
    QuicIngressResult :=
  if replay.isEmpty then next
  else
    match next with
    | .buffered => .replay replay
    | .forward prepared => .replay (replay ++ [prepared])
    | .replay next => .replay (replay ++ next)

/-- `UdpQuicSniffState`. The flag tells whether a counter was ever to go
below zero. -/
structure UdpQuicSniffState (S N : Type) where
  flows : Table SocketAddr (QuicFlowState S)
  pendingDatagrams : ℕ
  pendingBytes : ℕ
  factory : N
  idleTimeout : ℕ
  underflowed : Bool

namespace UdpQuicSniffState

variable {S N : Type} (engine : QuicSniffEngine S N) (self : UdpQuicSniffState S N)

/-- `UdpQuicSniffState::with_idle_timeout`. -/
def withIdleTimeout (factory : N) (idleTimeout : ℕ) : UdpQuicSniffState S N where
  flows := ∅
  pendingDatagrams := 0
  pendingBytes := 0
  factory
  idleTimeout
  underflowed := false

/-- The pending flow to a destination. -/
def pendingAt (destination : SocketAddr) : Option (PendingQuicFlow S) :=
  (self.flows.lookup destination).bind QuicFlowState.pending?

/-- `UdpQuicSniffState::next_deadline`. -/
def nextDeadline : Option ℕ :=
  (self.flows.entries.filterMap fun entry =>
    entry.2.pending?.map PendingQuicFlow.deadline).min?

/-- `self.flows.insert(destination, state)`. -/
def put (destination : SocketAddr) (state : QuicFlowState S) : UdpQuicSniffState S N :=
  { self with flows := self.flows.insert destination state }

/-- `UdpQuicSniffState::release_pending`. -/
def releasePending (pending : PendingQuicFlow S) : UdpQuicSniffState S N :=
  { self with
    pendingDatagrams := self.pendingDatagrams - pending.datagrams.length
    pendingBytes := self.pendingBytes - pending.bufferedBytes
    underflowed := self.underflowed ||
      decide (self.pendingDatagrams < pending.datagrams.length) ||
      decide (self.pendingBytes < pending.bufferedBytes) }

/-- `UdpQuicSniffState::can_buffer`. -/
def canBuffer (bytes : ℕ) : Bool :=
  self.pendingDatagrams < quicSniffPendingDatagramMax &&
    self.pendingBytes + bytes ≤ quicSniffPendingBytesMax

/-- One more pending datagram of this length. -/
def charge (bytes : ℕ) : UdpQuicSniffState S N :=
  { self with
    pendingDatagrams := self.pendingDatagrams + 1
    pendingBytes := self.pendingBytes + bytes }

/-- A completed flow and when it was last used. -/
def lastUsed (destination : SocketAddr) : Option (SocketAddr × ℕ) :=
  ((self.flows.lookup destination).bind QuicFlowState.completed?).map fun completed =>
    (destination, completed.lastUsed)

/-- `UdpQuicSniffState::make_room_for_flow`, where the map is iterated in
this order. -/
def makeRoomForFlow (order : List SocketAddr) : Bool × UdpQuicSniffState S N :=
  if self.flows.size < quicSniffFlowMax then (true, self)
  else
    match (order.filterMap self.lastUsed).argmin Prod.snd with
    | some (destination, _) => (true, { self with flows := self.flows.erase destination })
    | none => (false, self)

/-- `UdpQuicSniffState::commit_started_flow`. -/
def commitStartedFlow (datagram : UdpDatagram) (connectionKey : Option QuicConnectionKey)
    (now : ℕ) (sniffer : S) (outcome : QuicSniffOutcome) :
    QuicIngressResult × UdpQuicSniffState S N :=
  let connectionKey :=
    if engine.authenticatedInitialInLastIngest sniffer then connectionKey else none
  let completed : CompletedQuicFlow :=
    { connectionKey, lastUsed := now, flow := some datagram.number }
  let prepared := PreparedTunUdpDatagram.withoutDomain datagram (some datagram.number)
  let noDomain := (.forward (prepared.withFlowId connectionKey),
    self.put datagram.destination (.noDomain completed))
  match outcome with
  | .needMoreData =>
    if self.canBuffer datagram.payload.length then
      (.buffered, (self.charge datagram.payload.length).put datagram.destination (.pending {
        sniffer
        connectionKey
        datagrams := [prepared.withFlowId connectionKey]
        bufferedBytes := datagram.payload.length
        deadline := now + quicSniffTimeout
        flow := datagram.number }))
    else noDomain
  | .matched domain =>
    (.forward ((PreparedTunUdpDatagram.withDomain datagram domain
        (some datagram.number)).withFlowId connectionKey),
      self.put datagram.destination (.matched domain completed))
  | .echExtensionPresent => noDomain
  | .notMatched => noDomain
  | .limitReached => noDomain

/-- `(self.new_sniffer)()`, and what it makes of a payload. -/
def candidate (payload : Bytes) : (QuicSniffOutcome × S) × UdpQuicSniffState S N :=
  let (sniffer, factory) := engine.newSniffer self.factory
  (engine.ingest sniffer payload, { self with factory })

/-- `UdpQuicSniffState::start_flow`. -/
def startFlow (order : List SocketAddr) (datagram : UdpDatagram)
    (connectionKey : Option QuicConnectionKey) (now : ℕ) :
    QuicIngressResult × UdpQuicSniffState S N :=
  match self.makeRoomForFlow order with
  | (false, self) => (.forward (.withoutDomain datagram none), self)
  | (true, self) =>
    let ((outcome, sniffer), self) := self.candidate engine datagram.payload
    self.commitStartedFlow engine datagram connectionKey now sniffer outcome

/-- `UdpQuicSniffState::finish_pending`. -/
def finishPending (pending : PendingQuicFlow S) (datagram : UdpDatagram) (domain : Option Bytes)
    (now : ℕ) : QuicIngressResult × UdpQuicSniffState S N :=
  let self := self.releasePending pending
  let datagrams :=
    pending.datagrams ++ [PreparedTunUdpDatagram.withoutDomain datagram (some pending.flow)]
  let completed : CompletedQuicFlow :=
    { connectionKey := pending.connectionKey, lastUsed := now, flow := some pending.flow }
  match domain with
  | some domain =>
    (.replay (datagrams.map fun buffered => { buffered with sniffedDomain := some domain }),
      self.put datagram.destination (.matched domain completed))
  | none => (.replay datagrams, self.put datagram.destination (.noDomain completed))

/-- `UdpQuicSniffState::apply_pending_outcome`. -/
def applyPendingOutcome (pending : PendingQuicFlow S) (datagram : UdpDatagram)
    (outcome : QuicSniffOutcome) (now : ℕ) : QuicIngressResult × UdpQuicSniffState S N :=
  match outcome with
  | .needMoreData =>
    if self.canBuffer datagram.payload.length then
      (.buffered, (self.charge datagram.payload.length).put datagram.destination (.pending {
        pending with
        bufferedBytes := pending.bufferedBytes + datagram.payload.length
        datagrams := pending.datagrams ++
          [PreparedTunUdpDatagram.withoutDomain datagram (some pending.flow)] }))
    else self.finishPending pending datagram none now
  | .matched domain => self.finishPending pending datagram (some domain) now
  | .echExtensionPresent => self.finishPending pending datagram none now
  | .notMatched => self.finishPending pending datagram none now
  | .limitReached => self.finishPending pending datagram none now

/-- `UdpQuicSniffState::fail_open_unsupported_version`. -/
def failOpenUnsupportedVersion (order : List SocketAddr) (datagram : UdpDatagram)
    (state : Option (QuicFlowState S)) (now : ℕ) : QuicIngressResult × UdpQuicSniffState S N :=
  let noDomain : QuicFlowState S :=
    .noDomain { connectionKey := none, lastUsed := now, flow := none }
  let prepared := PreparedTunUdpDatagram.withoutDomain datagram none
  match state with
  | some (.pending pending) =>
    (.replay (pending.datagrams ++ [prepared]),
      (self.releasePending pending).put datagram.destination noDomain)
  | some (.matched _ _) => (.forward prepared, self.put datagram.destination noDomain)
  | some (.noDomain _) => (.forward prepared, self.put datagram.destination noDomain)
  | none =>
    match self.makeRoomForFlow order with
    | (true, self) => (.forward prepared, self.put datagram.destination noDomain)
    | (false, self) => (.forward prepared, self)

/-- The identity a flow adopts with its first authenticated Initial. -/
def adopt (pending : PendingQuicFlow S) (connectionKey : Option QuicConnectionKey) :
    PendingQuicFlow S :=
  if pending.connectionKey.isNone then
    { pending with
      connectionKey
      datagrams := pending.datagrams.modifyHead (·.withFlowId connectionKey) }
  else pending

/-- A datagram to a pending flow, in `ingest_datagram`. -/
def ingestPending (pending : PendingQuicFlow S) (datagram : UdpDatagram)
    (connectionKey : Option QuicConnectionKey) (now : ℕ) :
    QuicIngressResult × UdpQuicSniffState S N :=
  let (outcome, sniffer) := engine.ingest pending.sniffer datagram.payload
  let pending := { pending with sniffer }
  if startsNewQuicConnection pending.connectionKey connectionKey then
    if engine.authenticatedInitialInLastIngest sniffer then
      self.applyPendingOutcome (adopt pending connectionKey) datagram outcome now
    else
      let ((outcome, candidate), self) := self.candidate engine datagram.payload
      if engine.authenticatedInitialInLastIngest candidate then
        let self := self.releasePending pending
        let (next, self) :=
          self.commitStartedFlow engine datagram connectionKey now candidate outcome
        (prependQuicReplay pending.datagrams next, self)
      else
        (.forward (.withoutDomain datagram none), self.put datagram.destination (.pending pending))
  else self.applyPendingOutcome pending datagram outcome now

/-- A datagram to a completed flow, in `ingest_datagram`: a new connection
starts a flow, and otherwise the flow goes on. -/
def ingestCompleted (completed : CompletedQuicFlow) (prepared : PreparedTunUdpDatagram)
    (state : CompletedQuicFlow → QuicFlowState S) (connectionKey : Option QuicConnectionKey)
    (now : ℕ) : QuicIngressResult × UdpQuicSniffState S N :=
  let datagram := prepared.datagram
  let proceed (self : UdpQuicSniffState S N) : QuicIngressResult × UdpQuicSniffState S N :=
    (.forward prepared,
      self.put datagram.destination (state { completed with lastUsed := now }))
  if startsNewQuicConnection completed.connectionKey connectionKey then
    let ((outcome, sniffer), self) := self.candidate engine datagram.payload
    if engine.authenticatedInitialInLastIngest sniffer then
      self.commitStartedFlow engine datagram connectionKey now sniffer outcome
    else proceed self
  else proceed self

/-- `quic_connection_key`. -/
def quicConnectionKey (payload : Bytes) : Option QuicConnectionKey :=
  match engine.observation payload with
  | .initial key => some key
  | .unsupportedVersion => none
  | .none => none

/-- `quic_has_unsupported_version`. -/
def quicHasUnsupportedVersion (payload : Bytes) : Bool :=
  engine.observation payload == .unsupportedVersion

/-- The flow a datagram meets, in `ingest_datagram`: a completed one must
have been used of late. -/
def current (datagram : UdpDatagram) (now : ℕ) : Option (QuicFlowState S) :=
  (self.flows.lookup datagram.destination).filter fun state =>
    state.completed?.all fun completed => now - completed.lastUsed < self.idleTimeout

/-- `UdpQuicSniffState::ingest_datagram`. -/
def ingestDatagram (order : List SocketAddr) (datagram : UdpDatagram) (now : ℕ) :
    QuicIngressResult × UdpQuicSniffState S N :=
  let connectionKey := quicConnectionKey engine datagram.payload
  let state := self.current datagram now
  let self := { self with flows := self.flows.erase datagram.destination }
  if connectionKey.isNone && quicHasUnsupportedVersion engine datagram.payload then
    self.failOpenUnsupportedVersion order datagram state now
  else
    match state with
    | none => self.startFlow engine order datagram connectionKey now
    | some (.matched domain completed) =>
      self.ingestCompleted engine completed (.withDomain datagram domain completed.flow)
        (.matched domain) connectionKey now
    | some (.noDomain completed) =>
      self.ingestCompleted engine completed (.withoutDomain datagram completed.flow)
        .noDomain connectionKey now
    | some (.pending pending) => self.ingestPending engine pending datagram connectionKey now

/-- One turn of the loop of `UdpQuicSniffState::expire`. -/
def expireOne (now : ℕ) (step : List PreparedTunUdpDatagram × UdpQuicSniffState S N)
    (destination : SocketAddr) : List PreparedTunUdpDatagram × UdpQuicSniffState S N :=
  match step.2.pendingAt destination with
  | none => step
  | some pending =>
    (step.1 ++ pending.datagrams,
      ({ step.2 with flows := step.2.flows.erase destination }.releasePending pending).put
        destination (.noDomain {
          connectionKey := pending.connectionKey
          lastUsed := now
          flow := some pending.flow }))

/-- The deadline of the pending flow to a destination has passed. -/
def overdue (now : ℕ) (destination : SocketAddr) : Bool :=
  (self.pendingAt destination).any fun pending => pending.deadline ≤ now

/-- `UdpQuicSniffState::expire`, where the map is iterated in this order. -/
def expire (order : List SocketAddr) (now : ℕ) :
    List PreparedTunUdpDatagram × UdpQuicSniffState S N :=
  (order.filter (self.overdue now)).foldl (expireOne now) ([], self)

end UdpQuicSniffState

end Vole.Tun
