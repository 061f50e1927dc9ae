import Vole.Common.Outbox
import Vole.Common.Poll
import Vole.Datagram.Model.Address
import Vole.Routing.Model.Groups

/-!
# UDP over TCP

Datagrams over a stream that is split in two. A task reads and decodes, and hands
over one datagram at a time through a queue; it reads each item of a datagram to its
end before the next one and keeps nothing else. `send` cancels the association
unless it was written to its end. The future that is under way and the task are
parts of the state (`Call`, `Reader`).
-/

namespace Vole.Uot

def responseQueueCapacity : ℕ := 1
def drainBufferSize : ℕ := 2048

/-! ## Encoding -/

/-- `encode_request`. -/
def encodeRequest (destination : Destination) : Except IoError Bytes :=
  match encodeAddress destination with
  | .error error => .error error
  | .ok address => .ok (0 :: address)

/-- `encode_uot_address`. -/
def encodeUotAddress (destination : Destination) : Except IoError Bytes :=
  match destination with
  | .ip ⟨.v4 bits, port⟩ =>
    if port = 0 then .error (invalidInput "UoT destination port is zero")
    else .ok (0 :: ((IpAddr.v4 bits).wire ++ portBytes port))
  | .ip ⟨.v6 bits, port⟩ =>
    if port = 0 then .error (invalidInput "UoT destination port is zero")
    else .ok (1 :: ((IpAddr.v6 bits).wire ++ portBytes port))
  | .domain host port =>
    if 255 < host.length then .error (invalidInput "UoT domain is too long")
    else if host = [] ∨ port = 0 ∨ host.any Bytes.isControl = true then
      .error (invalidInput "UoT destination is invalid")
    else .ok (2 :: UInt8.ofNat host.length :: (host ++ portBytes port))

/-- `encode_datagram`. -/
def encodeDatagram (datagram : Datagram) : Except IoError Bytes :=
  if 65535 < datagram.payload.length then .error (invalidInput "UoT datagram exceeds 65535 bytes")
  else
    match encodeUotAddress datagram.remote with
    | .error error => .error error
    | .ok address => .ok (address ++ (toBe 2 datagram.payload.length ++ datagram.payload))

/-- `encode_first_packet`. -/
def encodeFirstPacket (datagram : Datagram) : Except IoError Bytes :=
  match encodeRequest datagram.remote with
  | .error error => .error error
  | .ok request =>
    match encodeDatagram datagram with
    | .error error => .error error
    | .ok packet => .ok (request ++ packet)

/-! ## Decoding -/

/-- The item that `read_datagram` reads. -/
inductive Stage where
  | kind
  | ipv4
  | ipv4Port (ip : BitVec 32)
  | ipv6
  | ipv6Port (ip : BitVec 128)
  | domainLength
  | host (length : ℕ)
  | domainPort (host : Bytes)
  | payloadLength (remote : Destination)
  | payload (remote : Destination) (length : ℕ)
  | drain (remaining : ℕ)

/-- How long the item is. -/
def Stage.need : Stage → ℕ
  | .kind | .domainLength => 1
  | .ipv4Port _ | .ipv6Port _ | .domainPort _ | .payloadLength _ => 2
  | .ipv4 => 4
  | .ipv6 => 16
  | .host length => length
  | .payload _ length => length
  | .drain remaining => min remaining drainBufferSize

/-- What `read_u8` and `read_u16` report at the end of the stream, and what
`read_exact` does. -/
def Stage.eof : Stage → IoError
  | .kind | .domainLength | .ipv4Port _ | .ipv6Port _ | .domainPort _ | .payloadLength _ =>
    ⟨.unexpectedEof, ""⟩
  | .ipv4 | .ipv6 | .host _ | .payload _ _ | .drain _ => ⟨.unexpectedEof, "early eof"⟩

/-- What an item leads to. -/
inductive Next where
  | goes (stage : Stage)
  | gives (datagram : Datagram)
  | skips

/-- The checks of `read_uot_address` for an address. -/
def afterIp (address : SocketAddr) : Except IoError Next :=
  if address.port = 0 then .error (invalidData "UoT response port is zero")
  else .ok (.goes (.payloadLength (.ip address)))

def afterKind (kind : UInt8) : Except IoError Next :=
  if kind = 0 then .ok (.goes .ipv4)
  else if kind = 1 then .ok (.goes .ipv6)
  else if kind = 2 then .ok (.goes .domainLength)
  else .error (invalidData "UoT response has an unknown address type")

/-- What `read_datagram` does with the length of a payload. An empty one needs no
read. -/
def afterLength (max : ℕ) (remote : Destination) (length : ℕ) : Except IoError Next :=
  if max < length then .ok (.goes (.drain length))
  else if length = 0 then .ok (.gives ⟨remote, [], none⟩)
  else .ok (.goes (.payload remote length))

/-- `read_datagram`, `drain_exact` and `read_uot_address` have read an item. -/
def take (max : ℕ) : Stage → Bytes → Except IoError Next
  | .kind, item => afterKind (item.headD 0)
  | .ipv4, item => .ok (.goes (.ipv4Port (BitVec.ofNat 32 (ofBe item))))
  | .ipv4Port ip, item => afterIp ⟨.v4 ip, UInt16.ofNat (ofBe item)⟩
  | .ipv6, item => .ok (.goes (.ipv6Port (BitVec.ofNat 128 (ofBe item))))
  | .ipv6Port ip, item => afterIp ⟨.v6 ip, UInt16.ofNat (ofBe item)⟩
  | .domainLength, item =>
    if ofBe item = 0 then .error (invalidData "UoT response has an empty domain")
    else .ok (.goes (.host (ofBe item)))
  | .host _, item =>
    if Utf8.isUtf8 item then .ok (.goes (.domainPort item))
    else .error (invalidData "UoT response domain is not UTF-8")
  | .domainPort host, item =>
    match Destination.ofDomain host (UInt16.ofNat (ofBe item)) with
    | none => .error (invalidInput "invalid domain destination")
    | some destination => .ok (.goes (.payloadLength destination))
  | .payloadLength remote, item => afterLength max remote (ofBe item)
  | .payload remote _, item => .ok (.gives ⟨remote, item, none⟩)
  | .drain remaining, item =>
    if remaining = item.length then .ok .skips else .ok (.goes (.drain (remaining - item.length)))

/-! ## The association -/

/-- `uot::ReceiveEvent`. -/
inductive ReceiveEvent where
  | datagram (datagram : Datagram)
  | failed (error : IoError)

/-- The task of `read_loop`: it reads an item and has a part of it, it waits for the
queue, or it is over. -/
inductive Reader where
  | reading (stage : Stage) (held : Bytes)
  | delivering (event : ReceiveEvent)
  | ended

/-- The future that is under way. `close` waits for the task, or for the stream. -/
inductive Call where
  | send
  | receive
  | join
  | shutdown
  deriving DecidableEq

/-- What a call reports. -/
abbrev Failure := DispatchError ⊕ IoError

/-- `uot::UotTransport`, with its task and its queue. `outbox` is what went to the
stream. No function reads the last six fields: what was read from the stream, what
was returned, what the task had when it was stopped, what was sent, what was
reported, and whether a datagram was malformed. -/
structure Transport where
  max : ℕ
  responses : List ReceiveEvent
  reader : Reader
  cancelled : Bool
  readerTask : Bool
  firstWrite : Bool
  closed : Bool
  call : Option Call
  outbox : Outbox
  consumed : Bytes
  returned : List (Destination × Bytes)
  lost : List (Destination × Bytes)
  sends : List (Destination × Bytes)
  failures : List Failure
  malformed : Bool

/-- What happens: to the caller's future, to the task (`read`, `deliver`, `stop`), and
to the parent's token. `abort` is a poll of `send` that finds the token cancelled. -/
inductive Event where
  | send (datagram : Datagram)
  | receive
  | close
  | write (answer : Answer IoError ℕ)
  | flush (answer : Answer IoError Unit)
  | abort
  | recv
  | joined
  | shutdown (answer : Answer IoError Unit)
  | drop
  | cancel
  | read (answer : Answer IoError Bytes)
  | deliver
  | stop

namespace Transport

/-- `UotTransport::new`. -/
def new (max : UInt16) : Transport where
  max := max.toNat
  responses := []
  reader := .reading .kind []
  cancelled := false
  readerTask := true
  firstWrite := true
  closed := false
  call := none
  outbox := .new
  consumed := []
  returned := []
  lost := []
  sends := []
  failures := []
  malformed := false

def closedError : Failure := .inl (.other "UoT association is closed")
def streamEnded : IoError := ⟨.unexpectedEof, "UoT response stream ended"⟩
def writeZero : IoError := ⟨.writeZero, ""⟩

variable (self : Transport)

/-- A call ends with an error. -/
def report (failure : Failure) : Transport :=
  { self with failures := self.failures ++ [failure], call := none }

/-- `SendGuard::drop`, where the send was not committed. -/
def giveUp : Transport := { self with cancelled := true, call := none }

/-- What `send` writes. -/
def encode (datagram : Datagram) : Except IoError Bytes :=
  if self.firstWrite then encodeFirstPacket datagram else encodeDatagram datagram

/-- The first poll of `send`, up to its first write. -/
def startSend (datagram : Datagram) : Transport :=
  if self.closed || self.cancelled then self.report closedError
  else
    match self.encode datagram with
    | .error error => self.report (.inr error)
    | .ok packet =>
      { self with
        outbox := self.outbox.start packet
        sends := self.sends ++ [(datagram.remote, datagram.payload)]
        call := some .send }

/-- The stream answers a write of `write_all`. -/
def resumeWrite : Answer IoError ℕ → Transport
  | .pending => self
  | .failed error => self.giveUp.report (.inr error)
  | .ready count =>
    if min count self.outbox.rest.length = 0 then self.giveUp.report (.inr writeZero)
    else { self with outbox := self.outbox.took (min count self.outbox.rest.length) }

/-- The stream answers the flush of `send`. -/
def resumeFlush : Answer IoError Unit → Transport
  | .pending => self
  | .failed error => self.giveUp.report (.inr error)
  | .ready () => { self with firstWrite := false, call := none }

/-- The first poll of `receive`. -/
def startReceive : Transport :=
  if self.closed || self.cancelled then self.report closedError
  else { self with call := some .receive }

/-- `receive` finds something in the queue, or that nothing can come any more. -/
def resumeReceive : Option Transport :=
  match self.responses, self.reader with
  | .datagram datagram :: rest, _ =>
    some { self with
      responses := rest, call := none,
      returned := self.returned ++ [(datagram.remote, datagram.payload)] }
  | .failed error :: rest, _ =>
    some ({ self with responses := rest, closed := true }.report (.inr error))
  | [], .ended => some ({ self with closed := true }.report (.inr streamEnded))
  | [], _ => none

/-- The first poll of `close`. -/
def startClose : Transport :=
  if self.closed && !self.readerTask then self
  else
    { self with
      cancelled := true, readerTask := false,
      call := some (if self.readerTask then .join else .shutdown) }

/-- The stream answers the shutdown of `close`. -/
def resumeShutdown : Answer IoError Unit → Transport
  | .pending => self
  | .failed error => { self.report (.inr error) with closed := true }
  | .ready () => { self with closed := true, call := none }

/-- The future is dropped. -/
def dropCall : Call → Transport
  | .send => self.giveUp
  | .receive | .join | .shutdown => { self with call := none }

/-! ### The task -/

/-- The task has read an item. -/
def afterItem : Except IoError Next → Transport
  | .error error => { self with reader := .delivering (.failed error), malformed := true }
  | .ok (.goes stage) => { self with reader := .reading stage [] }
  | .ok (.gives datagram) => { self with reader := .delivering (.datagram datagram) }
  | .ok .skips => { self with reader := .reading .kind [] }

/-- More of an item arrived. -/
def arrived (stage : Stage) (held : Bytes) : Transport :=
  if held.length < stage.need then { self with reader := .reading stage held }
  else self.afterItem (take self.max stage held)

/-- The stream answers a read of the task. -/
def resumeRead (stage : Stage) (held : Bytes) : Answer IoError Bytes → Transport
  | .pending => self
  | .failed error => { self with reader := .delivering (.failed error) }
  | .ready bytes =>
    if bytes.take (stage.need - held.length) = [] then
      { self with reader := .delivering (.failed stage.eof) }
    else
      { self with consumed := self.consumed ++ bytes.take (stage.need - held.length) }.arrived stage
        (held ++ bytes.take (stage.need - held.length))

/-- The queue takes what the task has. -/
def deliver (event : ReceiveEvent) : Transport :=
  { self with
    responses := self.responses ++ [event]
    reader :=
      match event with
      | .datagram _ => .reading .kind []
      | .failed _ => .ended }

/-- What the task has. -/
def inHand : Reader → List (Destination × Bytes)
  | .delivering (.datagram datagram) => [(datagram.remote, datagram.payload)]
  | .delivering (.failed _) | .reading _ _ | .ended => []

/-- The task finds the token cancelled. -/
def stop : Transport :=
  { self with lost := self.lost ++ inHand self.reader, reader := .ended }

/-- An event of the task, where it can happen. -/
def stepReader : Event → Option Transport
  | .read answer =>
    match self.reader with
    | .reading stage held => some (self.resumeRead stage held answer)
    | .delivering _ | .ended => none
  | .deliver =>
    match self.reader with
    | .delivering event =>
      if self.responses.length < responseQueueCapacity then some (self.deliver event) else none
    | .reading _ _ | .ended => none
  | .stop => if self.cancelled then some self.stop else none
  | _ => none

/-- An event of the caller's future, where it can happen. -/
def stepCall (event : Event) : Option Transport :=
  match event, self.call with
  | .send datagram, none => some (self.startSend datagram)
  | .receive, none => some self.startReceive
  | .close, none => some self.startClose
  | .write answer, some .send =>
    if self.outbox.rest = [] then none else some (self.resumeWrite answer)
  | .flush answer, some .send =>
    if self.outbox.rest = [] then some (self.resumeFlush answer) else none
  | .abort, some .send =>
    if self.cancelled then some (self.report (.inl .notAllowed)) else none
  | .recv, some .receive => self.resumeReceive
  | .joined, some .join =>
    match self.reader with
    | .ended => some { self with call := some .shutdown }
    | .reading _ _ | .delivering _ => none
  | .shutdown answer, some .shutdown => some (self.resumeShutdown answer)
  | .drop, some call => some (self.dropCall call)
  | _, _ => none

/-- **One event**, where it can happen. -/
def step (event : Event) : Option Transport :=
  match event with
  | .cancel => some { self with cancelled := true }
  | .read answer => self.stepReader (.read answer)
  | .deliver => self.stepReader .deliver
  | .stop => self.stepReader .stop
  | event => self.stepCall event

end Transport

end Vole.Uot
