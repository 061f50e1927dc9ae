import Vole.Common.Runs
import Vole.Model.IoError
import Vole.Routing.Model.Dispatcher

/-!
# The QUIC datagram adapter

`attach_mapped` puts a bounded queue for each direction between a QUIC
endpoint, which calls `try_send`, `poll_recv` and `poll_writable`, and a
datagram transport, which one task drives. A step takes the task, a call or
the owner to its next access of something shared: the mutex of the queues,
the `Notify` on which the task waits, a waker. The mutex is kept from one step
to the next only where the source notifies under it.

`notify_one` marks the `notified()` that the task has polled, or stores the
one permit. A `select!` that takes another branch drops its `notified()`, and
a notification that was given to it is stored again.
-/

namespace Vole.Quic

/-- `quic::QUEUE_LIMIT`. -/
def queueLimit : ℕ := 32

/-! ## What is attached -/

/-- `dispatch::DatagramBudget`. -/
structure DatagramBudget where
  transmit : UInt16
  receive : UInt16
  deriving DecidableEq, Repr

/-- What the socket and the task are given: the peer that the endpoint knows,
the one behind the transport, and the budget. -/
structure Attachment where
  peer : SocketAddr
  physicalPeer : SocketAddr
  budget : DatagramBudget
  deriving DecidableEq, Repr

/-- `quinn::udp::Transmit`. -/
structure Transmit where
  destination : SocketAddr
  contents : Bytes
  segmentSize : Option ℕ
  srcIp : Option IpAddr

/-- `quinn::udp::RecvMeta`. -/
structure RecvMeta where
  addr : SocketAddr
  len : ℕ
  stride : ℕ
  deriving DecidableEq, Repr

namespace Attachment

variable (self : Attachment)

/-- The check at the head of `try_send`. -/
def refuses (transmit : Transmit) : Bool :=
  transmit.destination != self.peer ||
    decide (transmit.contents.length > self.budget.transmit.toNat) ||
    transmit.segmentSize.isSome || transmit.srcIp.isSome

/-- The datagram comes from the peer behind the transport. -/
def fromPeer (datagram : Datagram) : Bool := datagram.remote == .ip self.physicalPeer

/-- The datagram is within the budget. -/
def fits (datagram : Datagram) : Bool :=
  decide (datagram.payload.length ≤ self.budget.receive.toNat)

end Attachment

/-! ## The queues -/

/-- `quic::Stats`. -/
structure Stats where
  sent : ℕ
  received : ℕ
  rejectedSource : ℕ
  rejectedOversize : ℕ
  droppedFull : ℕ
  peakOutgoing : ℕ
  peakIncoming : ℕ
  deriving DecidableEq, Repr

/-- `quic::State`. -/
structure State where
  incoming : List Bytes
  outgoing : List Bytes
  closed : Bool
  error : Option ErrorKind
  stats : Stats
  deriving DecidableEq, Repr

namespace State

variable (self : State)

/-- `State::default`. -/
def default : State where
  incoming := []
  outgoing := []
  closed := false
  error := none
  stats := ⟨0, 0, 0, 0, 0, 0, 0⟩

/-- `Shared::finish`, while it has the mutex. -/
def finish (error : Option ErrorKind) : State :=
  { self with closed := true, error := self.error.or error, incoming := [], outgoing := [] }

/-- What a call answers after that. -/
def closeError : ErrorKind := self.error.getD .brokenPipe

/-- `try_send`, while it has the mutex. -/
def trySend (contents : Bytes) : Except ErrorKind State :=
  if self.closed then .error self.closeError
  else if self.outgoing.length = queueLimit then .error .wouldBlock
  else
    let outgoing := self.outgoing ++ [contents]
    .ok { self with
      outgoing
      stats := { self.stats with peakOutgoing := max self.stats.peakOutgoing outgoing.length } }

/-- What `poll_recv` takes from the queue: the datagram, the first buffer
after it is copied there, and what is said of it. -/
structure Taken where
  payload : Bytes
  buffer : Bytes
  info : RecvMeta
  state : State

/-- `poll_recv`, while it has the mutex. -/
def pollRecv (peer : SocketAddr) (buffers : List Bytes) (slots : ℕ) :
    Option (Except ErrorKind Taken) :=
  if self.closed then some (.error self.closeError)
  else
    match self.incoming with
    | [] => none
    | payload :: rest =>
      match buffers with
      | [] => some (.error .invalidInput)
      | buffer :: _ =>
        if slots = 0 ∨ buffer.length < payload.length then some (.error .invalidInput)
        else some (.ok {
          payload
          buffer := payload ++ buffer.drop payload.length
          info := { addr := peer, len := payload.length, stride := payload.length }
          state := { self with incoming := rest } })

/-- `poll_writable`, while it has the mutex. -/
def pollWritable : Option (Except ErrorKind Unit) :=
  if self.closed then some (.error self.closeError)
  else if self.outgoing.length < queueLimit then some (.ok ())
  else none

/-- The task has received a datagram. The flag is whether it is queued. -/
def receive (attachment : Attachment) (datagram : Datagram) : State × Bool :=
  if !attachment.fromPeer datagram then
    ({ self with stats.rejectedSource := self.stats.rejectedSource + 1 }, false)
  else if !attachment.fits datagram then
    ({ self with stats.rejectedOversize := self.stats.rejectedOversize + 1 }, false)
  else if self.incoming.length = queueLimit then
    ({ self with stats.droppedFull := self.stats.droppedFull + 1 }, false)
  else
    let incoming := self.incoming ++ [datagram.payload]
    ({ self with
      incoming
      stats := { self.stats with
        received := self.stats.received + 1
        peakIncoming := max self.stats.peakIncoming incoming.length } }, true)

end State

/-! ## Who takes steps -/

/-- Where a call of `Shared::finish` is: before it has the mutex, and before
it wakes the reader and the writer. -/
inductive Finish where
  | enter (error : Option ErrorKind)
  | reader
  | writer
  deriving DecidableEq, Repr

/-- What is next in `finish`. -/
def Finish.next : Finish → Option Finish
  | .enter _ => some .reader
  | .reader => some .writer
  | .writer => none

/-- Where the task is. -/
inductive Driver where
  | spawned
  /-- `drive`: at the head of the loop, before its `select!` is polled, and
  after `notified()` was polled and was given a notification. -/
  | looping
  | selecting (canReceive : Bool)
  | waiting (canReceive : Bool)
  | notified (canReceive : Bool)
  /-- With a datagram that was received, and before it wakes the reader. -/
  | received (datagram : Datagram)
  | wakingReader
  /-- Before it looks at the outgoing queue, before it wakes the writer, in
  `transport.send`, and after it. -/
  | popping
  | wakingWriter (payload : Bytes)
  | sending (payload : Bytes)
  | sent
  /-- After `drive`. -/
  | finishing (stage : Finish)
  | done
  deriving DecidableEq, Repr

namespace Driver

/-- The task is in the `select!` of the loop. The flag is its
`can_receive`. -/
def select : Driver → Option Bool
  | .selecting canReceive => some canReceive
  | .waiting canReceive => some canReceive
  | .notified canReceive => some canReceive
  | _ => none

def isSending : Driver → Bool
  | .sending _ => true
  | _ => false

/-- The task has returned from its poll, or was never polled. -/
def isYielded : Driver → Bool
  | .spawned => true
  | .waiting _ => true
  | .notified _ => true
  | .sending _ => true
  | _ => false

end Driver

/-- Where the `DatagramDriver` is, that owns the task. -/
inductive Owner where
  | held
  /-- `drop`. -/
  | finishing (stage : Finish)
  | aborting
  | dropped
  deriving DecidableEq, Repr

/-- What the endpoint calls. -/
inductive Request where
  | trySend (transmit : Transmit)
  | pollRecv (buffers : List Bytes) (slots : ℕ)
  | pollWritable

/-- Where a call of the endpoint is. `none` is `Poll::Pending`. -/
inductive Place where
  /-- `try_send`. -/
  | trySend (transmit : Transmit)
  | pushed
  | sent (result : Except ErrorKind Unit)
  /-- `poll_recv`. -/
  | pollRecv (buffers : List Bytes) (slots : ℕ)
  | reading (buffers : List Bytes) (slots : ℕ)
  | popped (buffer : Bytes) (info : RecvMeta)
  | received (result : Option (Except ErrorKind (Bytes × RecvMeta)))
  /-- `poll_writable`. -/
  | pollWritable
  | writing
  | writable (result : Option (Except ErrorKind Unit))

def Request.enter : Request → Place
  | .trySend transmit => .trySend transmit
  | .pollRecv buffers slots => .pollRecv buffers slots
  | .pollWritable => .pollWritable

/-! ## The adapter -/

/-- `quic::Shared`, the task, its owner and the calls. A waker is the call
that registered it. No function reads `accepted` and `taken`, what was put in
the outgoing queue and what the task took from it, nor `received`, `admitted`
and `delivered`, what the transport gave, what of it was queued, and what
`poll_recv` took. -/
structure Adapter where
  state : State
  lock : Option ℕ
  permit : Bool
  reader : Option ℕ
  writer : Option ℕ
  driver : Driver
  hasSent : Bool
  cancelled : Bool
  owner : Owner
  calls : List Place
  accepted : List Bytes
  taken : List Bytes
  received : List Datagram
  admitted : List Bytes
  delivered : List Bytes

inductive Event where
  /-- The task goes on. -/
  | run
  /-- A branch of a `select!` is taken. -/
  | receive (answer : Except DispatchError Datagram)
  | cancelled
  | sent (answer : Except DispatchError Unit)
  | abort
  /-- `DatagramDriver::join`, and `drop`. -/
  | join
  | drop
  | owner
  /-- The endpoint makes a call, and a call goes on. -/
  | call (request : Request)
  | goOn (call : ℕ)

/-- `quic::dispatch_error`. -/
def dispatchError : DispatchError → ErrorKind
  | .notAllowed => .permissionDenied
  | .timedOut => .timedOut
  | _ => .connectionAborted

namespace Adapter

/-- What `attach_mapped` starts. -/
def attached : Adapter where
  state := .default
  lock := none
  permit := false
  reader := none
  writer := none
  driver := .spawned
  hasSent := false
  cancelled := false
  owner := .held
  calls := []
  accepted := []
  taken := []
  received := []
  admitted := []
  delivered := []

variable (attachment : Attachment) (self : Adapter)

/-- A step that takes the mutex. -/
def locked (next : Adapter) : Option Adapter := if self.lock = none then some next else none

def withCall (call : ℕ) (place : Place) : Adapter :=
  { self with calls := self.calls.set call place }

/-- `Notify::notify_one`. The task alone waits. -/
def notifyOne : Adapter :=
  match self.driver with
  | .waiting canReceive => { self with driver := .notified canReceive }
  | _ => { self with permit := true }

/-- The `select!` of the loop ends with another branch. -/
def leave (driver : Driver) : Adapter :=
  match self.driver with
  | .notified _ => { self with permit := true, driver }
  | _ => { self with driver }

/-- `Shared::finish`. -/
def finish : Finish → Option Adapter
  | .enter error => self.locked { self with state := self.state.finish error }
  | .reader => some { self with reader := none }
  | .writer => some { self with writer := none }

/-- The task has received a datagram, and looks at the queue. -/
def store (datagram : Datagram) : Adapter :=
  let (state, queued) := self.state.receive attachment datagram
  { self with
    state
    driver := if queued then .wakingReader else .popping
    received := self.received ++ [datagram]
    admitted := if queued then self.admitted ++ [datagram.payload] else self.admitted }

/-- The task takes a datagram to send. -/
def pop : Adapter :=
  match self.state.outgoing with
  | [] => { self with driver := .looping }
  | payload :: rest =>
    { self with
      state.outgoing := rest
      driver := .wakingWriter payload
      taken := self.taken ++ [payload] }

/-- The task has sent a datagram. -/
def count : Adapter :=
  let counted : Adapter :=
    { self with state.stats.sent := self.state.stats.sent + 1, hasSent := true, driver := .looping }
  if self.state.outgoing = [] then counted else counted.notifyOne

/-- The task goes on. -/
def run : Option Adapter :=
  match self.driver with
  | .spawned => some { self with driver := .looping }
  | .looping =>
    self.locked { self with driver := .selecting (self.state.incoming.length < queueLimit) }
  | .selecting canReceive =>
    -- `notified()` is polled
    if self.permit then some { self with permit := false, driver := .popping }
    else some { self with driver := .waiting canReceive }
  | .waiting _ => none
  | .notified _ => some { self with driver := .popping }
  | .received datagram => self.locked (self.store attachment datagram)
  | .wakingReader => some { self with reader := none, driver := .popping }
  | .popping => self.locked self.pop
  | .wakingWriter payload => some { self with writer := none, driver := .sending payload }
  | .sending _ => none
  | .sent => self.locked self.count
  | .finishing stage =>
    (self.finish stage).map fun next => { next with driver := stage.next.elim .done .finishing }
  | .done => none

/-- `try_send`, `poll_recv` and `poll_writable`. -/
def advance (call : ℕ) : Place → Option Adapter
  | .trySend transmit =>
    if attachment.refuses transmit then some (self.withCall call (.sent (.error .invalidInput)))
    else
      self.locked <|
        match self.state.trySend transmit.contents with
        | .error kind => self.withCall call (.sent (.error kind))
        | .ok state =>
          { self with state, accepted := self.accepted ++ [transmit.contents] }.withCall call
            .pushed
  | .pushed => some (self.notifyOne.withCall call (.sent (.ok ())))
  | .pollRecv buffers slots =>
    some ({ self with reader := some call }.withCall call (.reading buffers slots))
  | .reading buffers slots =>
    self.locked <|
      match self.state.pollRecv attachment.peer buffers slots with
      | none => self.withCall call (.received none)
      | some (.error kind) => self.withCall call (.received (some (.error kind)))
      | some (.ok taken) =>
        { self with
          state := taken.state
          lock := some call
          delivered := self.delivered ++ [taken.payload] }.withCall call
            (.popped taken.buffer taken.info)
  | .popped buffer info =>
    some ({ self.notifyOne with lock := none }.withCall call
      (.received (some (.ok (buffer, info)))))
  | .pollWritable => some ({ self with writer := some call }.withCall call .writing)
  | .writing => self.locked (self.withCall call (.writable self.state.pollWritable))
  | .sent _ => none
  | .received _ => none
  | .writable _ => none

/-- **A step of the adapter.** -/
def step : Event → Option Adapter
  | .run => self.run attachment
  | .receive answer =>
    if self.driver.select = some true ∧ self.hasSent = true then
      match answer with
      | .ok datagram => some (self.leave (.received datagram))
      | .error error => some (self.leave (.finishing (.enter (some (dispatchError error)))))
    else none
  | .cancelled =>
    if self.cancelled ∧ (self.driver.select.isSome ∨ self.driver.isSending) then
      some (self.leave (.finishing (.enter none)))
    else none
  | .sent answer =>
    match self.driver, answer with
    | .sending _, .ok () => some { self with driver := .sent }
    | .sending _, .error error =>
      some { self with driver := .finishing (.enter (some (dispatchError error))) }
    | _, _ => none
  | .abort =>
    if self.owner = .dropped ∧ self.driver.isYielded then some (self.leave .done) else none
  | .join => if self.owner = .held then some { self with cancelled := true } else none
  | .drop =>
    if self.owner = .held then
      some { self with cancelled := true, owner := .finishing (.enter none) }
    else none
  | .owner =>
    match self.owner with
    | .finishing stage =>
      (self.finish stage).map fun next =>
        { next with owner := stage.next.elim .aborting .finishing }
    | .aborting => some { self with owner := .dropped }
    | _ => none
  | .call request => some { self with calls := self.calls ++ [request.enter] }
  | .goOn call => self.calls[call]?.bind (self.advance attachment call)

end Adapter

end Vole.Quic
