import Vole.Common.Outbox
import Vole.Common.Poll
import Vole.Datagram.Model.Address
import Vole.Routing.Model.Groups

/-!
# sing-mux UDP

Datagrams over one stream of a sing-mux connection. `next` fills `input` to the
length it needs, stage by stage; `input` stays when it is dropped. `send` takes
the stream for the time it writes, so a write that was dropped takes the stream
with it. The future that is under way is a part of the state (`Call`).
-/

namespace Vole.SingMux

/-- An error of this kind, without a text. -/
def plain (kind : ErrorKind) : IoError := ⟨kind, ""⟩

def writeZero : IoError := ⟨.writeZero, ""⟩

/-- The longest frame. -/
def maxFill : ℕ := 65535 + 261

/-! ## One datagram -/

/-- Where `next` fills its buffer: for the kind of the address, for the address and
the length, or for the payload. -/
inductive Stage where
  | kind
  | header (addressLen : ℕ)
  | payload (addressLen : ℕ) (remote : Destination) (length : ℕ)
  deriving DecidableEq

/-- How long the buffer has to be. -/
def Stage.need : Stage → ℕ
  | .kind => 2
  | .header addressLen => addressLen + 2
  | .payload addressLen _ length => addressLen + 2 + length

/-- Where `next` comes: it waits for its buffer, or it gives a datagram. -/
inductive Progress where
  | waits (stage : Stage)
  | gives (datagram : Datagram)

/-- `fill`, and what comes after it. -/
def fill (stage : Stage) (input : Bytes) (after : Except IoError Progress) :
    Except IoError Progress :=
  if maxFill < stage.need then .error (plain .invalidData)
  else if input.length < stage.need then .ok (.waits stage)
  else after

/-- After the payload: all of the buffer is used. -/
def afterPayload (addressLen : ℕ) (remote : Destination) (input : Bytes) : Except IoError Progress :=
  .ok (.gives ⟨remote, input.drop (addressLen + 2), none⟩)

/-- After the address and the length. -/
def afterHeader (addressLen : ℕ) (input : Bytes) : Except IoError Progress :=
  match decodeAddress (input.take addressLen) with
  | .error _ => .error (plain .invalidData)
  | .ok (remote, _) =>
    if ofBe ((input.drop addressLen).take 2) = 0 then .error (plain .invalidData)
    else
      fill (.payload addressLen remote (ofBe ((input.drop addressLen).take 2))) input
        (afterPayload addressLen remote input)

/-- How long an address is, by its first two bytes. -/
def addressLen : Bytes → Option ℕ
  | kind :: length :: _ =>
    if kind = 1 then some 7
    else if kind = 4 then some 19
    else if kind = 3 then some (length.toNat + 4)
    else none
  | _ => none

/-- After the kind of the address. -/
def afterKind (input : Bytes) : Except IoError Progress :=
  match addressLen input with
  | none => .error (plain .invalidData)
  | some size => fill (.header size) input (afterHeader size input)

/-- `next`, from one of its stages on. -/
def resume : Stage → Bytes → Except IoError Progress
  | .kind, input => fill .kind input (afterKind input)
  | .header size, input => fill (.header size) input (afterHeader size input)
  | .payload size remote length, input =>
    fill (.payload size remote length) input (afterPayload size remote input)

/-- `next`, from its start. -/
def next (input : Bytes) : Except IoError Progress := resume .kind input

/-! ## The association -/

/-- The future that is under way. `receive` waits in `next`, or goes on after a
datagram that was too long; `send` resolves its destination, or writes. -/
inductive Call where
  | receive (stage : Stage)
  | again
  | resolve (datagram : Datagram)
  | write
  deriving DecidableEq

/-- What a call reports. -/
abbrev Failure := DispatchError ⊕ IoError

/-- `datagram::DatagramIo`. `io` is whether it has its stream, `outbox` what went
there. No function reads the last five fields: what was read from the stream, what
was returned, what was sent for whom and to which peer, what was reported, and
whether a frame was malformed. -/
structure DatagramIo where
  io : Bool
  input : Bytes
  transmit : ℕ
  receive : ℕ
  first : Bool
  cancelled : Bool
  call : Option Call
  outbox : Outbox
  consumed : Bytes
  returned : List (Destination × Bytes)
  sends : List (Destination × SocketAddr × Bytes)
  failures : List Failure
  malformed : Bool

/-- What happens. `abort` is a poll that finds the token cancelled, `expire` one of
the first write after its deadline. -/
inductive Event where
  | send (datagram : Datagram)
  | receive
  | close
  | cancel
  | abort
  | expire
  | read (answer : Answer IoError Bytes)
  | wake
  | resolved (answer : Except DispatchError SocketAddr)
  | write (answer : Answer IoError ℕ)
  | flush (answer : Answer IoError Unit)
  | drop

/-- `resolve_ip` may answer with this peer: an address is its own, a name keeps its
port. -/
def resolves : Destination → SocketAddr → Bool
  | .ip address, peer => decide (peer = address)
  | .domain _ port, peer => decide (peer.port = port)

namespace DatagramIo

/-- `DatagramIo::new`. -/
def new (transmit receive : UInt16) : DatagramIo where
  io := true
  input := []
  transmit := transmit.toNat
  receive := receive.toNat
  first := true
  cancelled := false
  call := none
  outbox := .new
  consumed := []
  returned := []
  sends := []
  failures := []
  malformed := false

variable (self : DatagramIo)

/-- A call ends with an error. -/
def report (failure : Failure) : DatagramIo :=
  { self with failures := self.failures ++ [failure], call := none }

/-- `close`. -/
def close : DatagramIo := { self with io := false, input := [] }

/-- `receive` closes the association and fails. -/
def failReceive (error : IoError) : DatagramIo :=
  self.close.report (.inr error)

/-- What `receive` makes of where `next` came. -/
def settle : Except IoError Progress → DatagramIo
  | .error error => { self.failReceive error with malformed := true }
  | .ok (.waits stage) =>
    if self.io then { self with call := some (.receive stage) }
    else self.failReceive (plain .brokenPipe)
  | .ok (.gives datagram) =>
    if datagram.payload.length ≤ self.receive then
      { self with
        input := [], call := none,
        returned := self.returned ++ [(datagram.remote, datagram.payload)] }
    else { self with input := [], call := some .again }

/-- A round of the loop of `receive`. -/
def startReceive : DatagramIo :=
  if self.cancelled then self.failReceive (plain .connectionAborted)
  else self.settle (next self.input)

/-- How much `fill` asks for. -/
def request (stage : Stage) : ℕ := min (stage.need - self.input.length) 1024

/-- The stream answers a read of `fill`. -/
def resumeReceive (stage : Stage) : Answer IoError Bytes → DatagramIo
  | .pending => self
  | .failed error => self.failReceive error
  | .ready bytes =>
    if bytes.take (self.request stage) = [] then self.failReceive (plain .unexpectedEof)
    else
      settle
        { self with
          input := self.input ++ bytes.take (self.request stage),
          consumed := self.consumed ++ bytes.take (self.request stage) }
        (resume stage (self.input ++ bytes.take (self.request stage)))

/-- The first poll of `send`. -/
def startSend (datagram : Datagram) : DatagramIo :=
  if datagram.remote.port = 0 ∨ datagram.payload = [] ∨
      self.transmit < datagram.payload.length then self.report (.inr (plain .invalidInput))
  else if self.cancelled then self.report (.inl .notAllowed)
  else { self with call := some (.resolve datagram) }

/-- The packet that `send` writes to a peer. -/
def encodePacket (address : Bytes) (payload : Bytes) : Bytes :=
  address ++ (toBe 2 payload.length ++ payload)

/-- `send` has its peer. -/
def startWrite (datagram : Datagram) (peer : SocketAddr) : DatagramIo :=
  match encodeAddress (.ip peer) with
  | .error error => self.report (.inr error)
  | .ok address =>
    if self.io then
      { self with
        io := false
        outbox := self.outbox.start (encodePacket address datagram.payload)
        sends := self.sends ++ [(datagram.remote, peer, datagram.payload)]
        call := some .write }
    else self.report (.inr (plain .brokenPipe))

def resumeResolve (datagram : Datagram) : Except DispatchError SocketAddr → DatagramIo
  | .error error => self.report (.inl error)
  | .ok peer => self.startWrite datagram peer

/-- The stream answers a write of `write_all`. -/
def resumeWrite : Answer IoError ℕ → DatagramIo
  | .pending => self
  | .failed error => self.report (.inr error)
  | .ready count =>
    if min count self.outbox.rest.length = 0 then self.report (.inr writeZero)
    else { self with outbox := self.outbox.took (min count self.outbox.rest.length) }

/-- The stream answers the flush of `send`. -/
def resumeFlush : Answer IoError Unit → DatagramIo
  | .pending => self
  | .failed error => self.report (.inr error)
  | .ready () => { self with first := false, io := true, call := none }

/-- A poll finds the token cancelled. -/
def abort : Call → DatagramIo
  | .receive _ | .again => self.failReceive (plain .connectionAborted)
  | .resolve _ | .write => self.report (.inl .notAllowed)

/-- The resolver's answer is one that it can give. -/
def answers (datagram : Datagram) : Except DispatchError SocketAddr → Bool
  | .error _ => true
  | .ok peer => resolves datagram.remote peer

/-- **One event**, where it can happen. -/
def step (event : Event) : Option DatagramIo :=
  match event, self.call with
  | .cancel, _ => some { self with cancelled := true }
  | .send datagram, none => some (self.startSend datagram)
  | .receive, none => some self.startReceive
  | .close, none => some self.close
  | .abort, some call => if self.cancelled then some (self.abort call) else none
  | .expire, some .write => if self.first then some (self.report (.inr (plain .timedOut))) else none
  | .read answer, some (.receive stage) => some (self.resumeReceive stage answer)
  | .wake, some .again => some self.startReceive
  | .resolved answer, some (.resolve datagram) =>
    if answers datagram answer then some (self.resumeResolve datagram answer) else none
  | .write answer, some .write =>
    if self.outbox.rest = [] then none else some (self.resumeWrite answer)
  | .flush answer, some .write =>
    if self.outbox.rest = [] then some (self.resumeFlush answer) else none
  | .drop, some _ => some { self with call := none }
  | _, _ => none

end DatagramIo

end Vole.SingMux
