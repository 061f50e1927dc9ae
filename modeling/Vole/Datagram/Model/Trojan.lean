import Vole.Common.Outbox
import Vole.Common.Poll
import Vole.Datagram.Model.Address

/-!
# Trojan UDP

Datagrams over an authenticated Trojan stream. What was read and not used yet
stays in `wire` when `receive` is dropped; a write that was dropped leaves
`send_incomplete`. The future that is under way is a part of the state (`Call`).
-/

namespace Vole.Trojan

def maxDatagramPayload : ℕ := 8192
def maxFrameBytes : ℕ := 259 + 4 + maxDatagramPayload
def ioPollBudget : ℕ := 32

def invalidFrame : IoError := invalidData "invalid Trojan datagram frame"
def closedError : IoError := ⟨.brokenPipe, "Trojan association is closed"⟩
def invalidDatagram : IoError := invalidInput "invalid Trojan datagram"
def streamEnded : IoError := ⟨.unexpectedEof, "Trojan datagram stream ended"⟩
def writeZero : IoError := ⟨.writeZero, ""⟩

/-- What follows an address of this size, for `packet`. -/
def afterAddress (remote : Destination) (size : ℕ) (wire : Bytes) :
    Except IoError (Option (Datagram × Bytes)) :=
  if wire.length < size + 4 then .ok none
  else if maxDatagramPayload < ofBe ((wire.drop size).take 2) ∨
      (wire.drop (size + 2)).take 2 ≠ [13, 10] then .error invalidFrame
  else if wire.length < size + 4 + ofBe ((wire.drop size).take 2) then .ok none
  else
    .ok (some (⟨remote, (wire.drop (size + 4)).take (ofBe ((wire.drop size).take 2)), none⟩,
      wire.drop (size + 4 + ofBe ((wire.drop size).take 2))))

/-- `TrojanDatagram::packet`: a datagram and the bytes after it. -/
def packet (wire : Bytes) : Except IoError (Option (Datagram × Bytes)) :=
  match decodeAddress wire with
  | .error .truncated => .ok none
  | .error _ => .error invalidFrame
  | .ok (remote, size) => afterAddress remote size wire

/-- The future that is under way. `receive` waits for the stream, or has let others
run; it knows how many datagrams it may still discard before it does that. -/
inductive Call where
  | receive (left : ℕ)
  | yielded
  | send
  deriving DecidableEq

/-- `datagram::TrojanDatagram`. `stream` is whether it has its stream, `outbox` what
went there. No function reads the last five fields: what was read from the stream,
what was returned, what was sent, what was reported, and whether a frame was
malformed. -/
structure Transport where
  stream : Bool
  wire : Bytes
  transmit : ℕ
  receive : ℕ
  sendIncomplete : Bool
  call : Option Call
  outbox : Outbox
  consumed : Bytes
  returned : List (Destination × Bytes)
  sends : List (Destination × Bytes)
  failures : List IoError
  malformed : Bool

inductive Event where
  | send (datagram : Datagram)
  | receive
  | close
  | read (answer : Answer IoError Bytes)
  | wake
  | write (answer : Answer IoError ℕ)
  | flush (answer : Answer IoError Unit)
  | drop

namespace Transport

/-- `TrojanDatagram::new`. -/
def new (transmit receive : UInt16) : Transport where
  stream := true
  wire := []
  transmit := min transmit.toNat maxDatagramPayload
  receive := min receive.toNat maxDatagramPayload
  sendIncomplete := false
  call := none
  outbox := .new
  consumed := []
  returned := []
  sends := []
  failures := []
  malformed := false

variable (self : Transport)

/-- A call reports an error. -/
def report (error : IoError) : Transport :=
  { self with failures := self.failures ++ [error] }

/-- `check_open`: whether the association is open. -/
def checkOpen : Bool × Transport :=
  let self := if self.sendIncomplete then { self with stream := false } else self
  (self.stream, self)

/-- How much the next read may take. -/
def remaining : ℕ := min (maxFrameBytes - self.wire.length) 2048

/-- `receive` fails, and takes the stream with it. -/
def failReceive (error : IoError) : Transport :=
  { self.report error with stream := false, call := none }

/-- `send` fails. -/
def failSend (error : IoError) : Transport :=
  { self.report error with call := none }

/-- The loop of `receive`, up to where it waits or returns. -/
def receiveLoop : ℕ → Transport → Transport
  | 0, self => { self with call := some .yielded }
  | left + 1, self =>
    match packet self.wire with
    | .error error => { self.failReceive error with malformed := true }
    | .ok none =>
      if self.remaining = 0 then self.failReceive invalidFrame
      else { self with call := some (.receive (left + 1)) }
    | .ok (some (datagram, rest)) =>
      if datagram.payload.length ≤ self.receive then
        { self with
          wire := rest, call := none,
          returned := self.returned ++ [(datagram.remote, datagram.payload)] }
      else receiveLoop left { self with wire := rest }

/-- The first poll of `receive`. -/
def startReceive : Transport :=
  match self.checkOpen with
  | (false, self) => self.report closedError
  | (true, self) => receiveLoop ioPollBudget self

/-- The stream answers the read of `receive`. -/
def resumeReceive (left : ℕ) : Answer IoError Bytes → Transport
  | .pending => self
  | .failed error => self.failReceive error
  | .ready bytes =>
    if bytes.take self.remaining = [] then self.failReceive streamEnded
    else
      receiveLoop left
        { self with
          wire := self.wire ++ bytes.take self.remaining,
          consumed := self.consumed ++ bytes.take self.remaining }

/-- The packet that `send` writes. -/
def encodePacket (address : Bytes) (payload : Bytes) : Bytes :=
  address ++ (toBe 2 payload.length ++ ([13, 10] ++ payload))

/-- The first poll of `send`, up to its first write. -/
def startSend (datagram : Datagram) : Transport :=
  match self.checkOpen with
  | (false, self) => self.report closedError
  | (true, self) =>
    if self.transmit < datagram.payload.length ∨ datagram.remote.port = 0 then
      self.report invalidDatagram
    else
      match encodeAddress datagram.remote with
      | .error error => self.report error
      | .ok address =>
        { self with
          sendIncomplete := true
          outbox := self.outbox.start (encodePacket address datagram.payload)
          sends := self.sends ++ [(datagram.remote, datagram.payload)]
          call := some .send }

/-- The stream answers a write of `write_all`. -/
def resumeWrite : Answer IoError ℕ → Transport
  | .pending => self
  | .failed error => self.failSend error
  | .ready count =>
    if min count self.outbox.rest.length = 0 then self.failSend writeZero
    else { self with outbox := self.outbox.took (min count self.outbox.rest.length) }

/-- The stream answers the flush of `send`. -/
def resumeFlush : Answer IoError Unit → Transport
  | .pending => self
  | .failed error => self.failSend error
  | .ready () => { self with sendIncomplete := false, call := none }

/-- `close`. -/
def close : Transport := { self with stream := false, wire := [] }

/-- **One event**, where it can happen. -/
def step (event : Event) : Option Transport :=
  match event, self.call with
  | .send datagram, none => some (self.startSend datagram)
  | .receive, none => some self.startReceive
  | .close, none => some self.close
  | .read answer, some (.receive left) => some (self.resumeReceive left answer)
  | .wake, some .yielded => some (receiveLoop ioPollBudget self)
  | .write answer, some .send =>
    if self.outbox.rest = [] then none else some (self.resumeWrite answer)
  | .flush answer, some .send =>
    if self.outbox.rest = [] then some (self.resumeFlush answer) else none
  | .drop, some _ => some { self with call := none }
  | _, _ => none

end Transport

end Vole.Trojan
