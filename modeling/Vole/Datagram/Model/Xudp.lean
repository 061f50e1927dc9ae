import Vole.Common.Outbox
import Vole.Common.Poll
import Vole.Datagram.Model.Address

/-!
# XUDP

One UDP association in a mux stream. `send`, `receive` and `close` borrow the
transport, so at most one of them is under way; its future is a part of the state
(`Call`). It stops where it waits for the stream, goes on when that answers, and
may be dropped instead. What `read_frame` keeps in local variables across its
awaits is lost then (`Stage`), the buffer is not.
-/

namespace Vole.Xudp

def statusNew : UInt8 := 1
def statusKeep : UInt8 := 2
def statusEnd : UInt8 := 3
def statusKeepAlive : UInt8 := 4
def optionData : UInt8 := 1
def optionError : UInt8 := 2
def networkUdp : UInt8 := 2
def maxMetadataLength : ℕ := 512

/-! ## Frames -/

/-- `encode_data_frame`. -/
def encodeDataFrame (datagram : Datagram) (first : Bool) (globalId : Option (Vector UInt8 8)) :
    Except IoError Bytes := do
  if datagram.payload = [] then .error (invalidInput "XUDP does not send empty datagrams")
  else if 65535 < datagram.payload.length then
    .error (invalidInput "XUDP datagram exceeds 65535 bytes")
  else
    let destination ← encodePortFirst datagram.remote
    let id := (globalId.map Vector.toList).getD []
    let metadataLength := 2 + 1 + 1 + 1 + destination.length + id.length
    return toBe 2 metadataLength ++ [0, 0] ++
      [if first then statusNew else statusKeep, optionData, networkUdp] ++ destination ++ id ++
      toBe 2 datagram.payload.length ++ datagram.payload

/-- What `close` writes. -/
def endFrame : Bytes := [0, 4, 0, 0, statusEnd, 0]

/-- The checks of a frame's metadata: its status, and whether it has data. It has
at least four bytes. -/
def checkMetadata (metadata : Bytes) : Except IoError (UInt8 × Bool) :=
  let status := metadata.getD 2 0
  let option := metadata.getD 3 0
  if metadata.take 2 ≠ [0, 0] then .error (invalidData "unexpected XUDP session id")
  else if option &&& ~~~(optionData ||| optionError) ≠ 0 then
    .error (invalidData "unknown XUDP frame option")
  else if option &&& optionError ≠ 0 then
    .error ⟨.connectionReset, "XUDP peer closed the association with an error"⟩
  else if status = statusEnd then
    .error ⟨.connectionAborted, "XUDP peer closed the association normally"⟩
  else if status = statusKeep ∨ status = statusKeepAlive then
    .ok (status, option &&& optionData ≠ 0)
  else .error (invalidData "unexpected XUDP frame status")

/-- The destination a frame tells, where it tells one. -/
def toldRemote (metadata : Bytes) : Except IoError (Option Destination) :=
  if 4 < metadata.length then
    if metadata.getD 4 0 ≠ networkUdp then
      .error (invalidData "unexpected XUDP response network")
    else do
      let (destination, consumed) ← decodePortFirst (metadata.drop 5)
      if metadata.length < 5 + consumed then
        .error (invalidData "truncated XUDP response destination")
      else .ok (some destination)
  else .ok none

/-- The destination of a frame: the one it tells, or else the last one that was
sent to. -/
def remoteOf (metadata : Bytes) (lastRemote : Option Destination) : Except IoError Destination :=
  match toldRemote metadata with
  | .error error => .error error
  | .ok (some destination) => .ok destination
  | .ok none =>
    match lastRemote with
    | some destination => .ok destination
    | none =>
      .error (invalidData "XUDP response omitted its destination before any request")

/-- What the metadata of a frame come to: nothing where it has no data, and else
its destination. A frame that keeps the association alive has none. -/
def readMetadata (metadata : Bytes) (lastRemote : Option Destination) :
    Except IoError (Option (Option Destination)) :=
  match checkMetadata metadata with
  | .error error => .error error
  | .ok (_, false) => .ok none
  | .ok (status, true) =>
    if status = statusKeepAlive then .ok (some none)
    else (remoteOf metadata lastRemote).map fun remote => some (some remote)

def ceilingError (payloadLength : ℕ) (maxResponse : UInt16) : IoError :=
  invalidData ("XUDP response payload length " ++ toString payloadLength ++ " exceeds ceiling " ++
    toString maxResponse.toNat)

/-! ## Reading a frame -/

/-- Where `read_frame` waits: for which part of the frame, and what it knows by
then. There is no `remote` just where the status is `STATUS_KEEP_ALIVE`. -/
inductive Stage where
  | length
  | metadata (length : ℕ)
  | payloadLength (length : ℕ) (remote : Option Destination)
  | payload (length : ℕ) (remote : Option Destination) (payloadLength : ℕ)

/-- How much of the frame must be in the buffer. -/
def Stage.required : Stage → ℕ
  | .length => 2
  | .metadata size => 2 + size
  | .payloadLength size _ => 2 + size + 2
  | .payload size _ payloadSize => 2 + size + 2 + payloadSize

/-- What `read_frame` does until it waits again: it waits with what is in the
buffer, it clears the buffer and waits for another frame, or it returns. -/
inductive Progress where
  | waits (stage : Stage)
  | clears
  | gives (datagram : Datagram)

/-- What `read_frame` reads: the buffer, its bound, the limit on payloads and the
last destination. -/
structure View where
  buffer : Bytes
  maxBuffer : ℕ
  maxResponse : UInt16
  lastRemote : Option Destination

namespace View

variable (self : View)

/-- `fill_receive_buffer`, up to where it waits, and what follows. -/
def fill (stage : Stage) (next : Except IoError Progress) : Except IoError Progress :=
  if self.maxBuffer < stage.required then
    .error (invalidData "XUDP receive frame exceeds the bounded buffer")
  else if self.buffer.length < stage.required then .ok (.waits stage)
  else next

/-- The last part of a frame. -/
def afterPayloadLength (length : ℕ) (remote : Option Destination)
    (payloadLength : ℕ) : Except IoError Progress :=
  self.fill (.payload length remote payloadLength) <|
    match remote with
    | none => .ok .clears
    | some remote =>
      .ok (.gives ⟨remote, (self.buffer.drop (2 + length + 2)).take payloadLength, none⟩)

/-- After the metadata, where there is data. -/
def afterMetadata (length : ℕ) (remote : Option Destination) : Except IoError Progress :=
  self.fill (.payloadLength length remote) <|
    let payloadLength := ofBe ((self.buffer.drop (2 + length)).take 2)
    if self.maxResponse.toNat < payloadLength then
      .error (ceilingError payloadLength self.maxResponse)
    else self.afterPayloadLength length remote payloadLength

/-- After the length. -/
def afterLength (length : ℕ) : Except IoError Progress :=
  self.fill (.metadata length) <|
    match readMetadata ((self.buffer.drop 2).take length) self.lastRemote with
    | .error error => .error error
    | .ok none => .ok .clears
    | .ok (some remote) => self.afterMetadata length remote

/-- A frame, from its beginning. -/
def readFrame : Except IoError Progress :=
  self.fill .length <|
    let length := ofBe (self.buffer.take 2)
    if ¬ (4 ≤ length ∧ length ≤ maxMetadataLength) then
      .error (invalidData "invalid XUDP metadata length")
    else self.afterLength length

/-- The future goes on where it waited. -/
def resume : Stage → Except IoError Progress
  | .length => self.readFrame
  | .metadata length => self.afterLength length
  | .payloadLength length remote => self.afterMetadata length remote
  | .payload length remote payloadLength => self.afterPayloadLength length remote payloadLength

end View

/-! ## The transport -/

/-- The future that is under way. -/
inductive Call where
  | receive (stage : Stage)
  | send (remote : Destination)
  | close

/-- `xudp::XudpTransport`. `stream` is whether it has its stream, `outbox` what
went there. No function reads the last four fields: what was read from the stream;
the destinations that were sent to; what was returned, each datagram with the
destinations up to then; and the errors of `read_frame`. -/
structure Transport where
  stream : Bool
  globalId : Vector UInt8 8
  maxResponse : UInt16
  maxRequest : UInt16
  firstWrite : Bool
  lastRemote : Option Destination
  buffer : Bytes
  maxBuffer : ℕ
  closed : Bool
  call : Option Call
  outbox : Outbox
  consumed : Bytes
  sent : List Destination
  returned : List (Datagram × List Destination)
  failures : List IoError

/-- What happens: a call begins, the stream answers the one under way, or its
future is dropped. -/
inductive Event where
  | send (datagram : Datagram)
  | receive
  | close
  | read (answer : Answer IoError Bytes)
  | write (answer : Answer IoError ℕ)
  | flush (answer : Answer IoError Unit)
  | shutdown (answer : Answer IoError Unit)
  | drop

namespace Transport

/-- `XudpTransport::with_budget`. -/
def withBudget (globalId : Vector UInt8 8) (transmit receive : UInt16) : Transport where
  stream := true
  globalId := globalId
  maxResponse := receive
  maxRequest := transmit
  firstWrite := true
  lastRemote := none
  buffer := []
  maxBuffer := 2 + maxMetadataLength + 2 + receive.toNat
  closed := false
  call := none
  outbox := .new
  consumed := []
  sent := []
  returned := []
  failures := []

variable (self : Transport)

def view : View :=
  ⟨self.buffer, self.maxBuffer, self.maxResponse, self.lastRemote⟩

/-- What `receive` does with what `read_frame` came to. -/
def settle : Except IoError Progress → Transport
  | .error error =>
    { self with
      closed := true, stream := false, call := none, failures := self.failures ++ [error] }
  | .ok (.waits stage) => { self with call := some (.receive stage) }
  | .ok .clears => { self with buffer := [], call := some (.receive .length) }
  | .ok (.gives datagram) =>
    { self with
      buffer := [], call := none, returned := self.returned ++ [(datagram, self.sent)] }

/-- The first poll of `receive`. -/
def startReceive : Transport :=
  if self.closed then self else self.settle self.view.readFrame

def endOfStream : IoError := ⟨.unexpectedEof, "XUDP stream ended in the middle of a frame"⟩

/-- The buffer is extended, and the future goes on. -/
def received (stage : Stage) (got : Bytes) : Transport :=
  if got = [] then self.settle (.error endOfStream)
  else
    let self := { self with buffer := self.buffer ++ got, consumed := self.consumed ++ got }
    self.settle (self.view.resume stage)

/-- The stream answers the read of `fill_receive_buffer`. -/
def resumeReceive (stage : Stage) : Answer IoError Bytes → Transport
  | .pending => self
  | .failed error => self.settle (.error error)
  | .ready bytes =>
    self.received stage (bytes.take (min (stage.required - self.buffer.length) 1024))

/-- The global id goes with the first frame, unless it is zero. -/
def frameId : Option (Vector UInt8 8) :=
  if self.firstWrite && self.globalId ≠ Vector.replicate 8 0 then some self.globalId else none

/-- The first poll of `send`, up to its first write. -/
def startSend (datagram : Datagram) : Transport :=
  if self.closed then self
  else if self.maxRequest.toNat < datagram.payload.length then self
  else
    match encodeDataFrame datagram self.firstWrite self.frameId with
    | .error _ => self
    | .ok frame =>
      { self with
        closed := true
        stream := false
        outbox := self.outbox.start frame
        call := some (.send datagram.remote) }

/-- The first poll of `close`, up to its first write. -/
def startClose : Transport :=
  if self.closed then self
  else
    { self with
      closed := true, stream := false, outbox := self.outbox.start endFrame, call := some .close }

/-- The stream answers a write of `write_all`. -/
def resumeWrite : Answer IoError ℕ → Transport
  | .pending => self
  | .failed _ => { self with call := none }
  | .ready count =>
    if min count self.outbox.rest.length = 0 then { self with call := none }
    else { self with outbox := self.outbox.took (min count self.outbox.rest.length) }

/-- The stream answers the flush of `send`. -/
def resumeFlush (remote : Destination) : Answer IoError Unit → Transport
  | .pending => self
  | .failed _ => { self with call := none }
  | .ready () =>
    { self with
      stream := true
      closed := false
      firstWrite := false
      lastRemote := some remote
      call := none
      sent := self.sent ++ [remote] }

/-- The stream answers the shutdown of `close`. -/
def resumeShutdown : Answer IoError Unit → Transport
  | .pending => self
  | _ => { self with call := none }

/-- **One event**, where it can happen. -/
def step (event : Event) : Option Transport :=
  match event, self.call with
  | .send datagram, none => some (self.startSend datagram)
  | .receive, none => some self.startReceive
  | .close, none => some self.startClose
  | .read answer, some (.receive stage) => some (self.resumeReceive stage answer)
  | .write answer, some (.send _) =>
    if self.outbox.rest = [] then none else some (self.resumeWrite answer)
  | .write answer, some .close =>
    if self.outbox.rest = [] then none else some (self.resumeWrite answer)
  | .flush answer, some (.send remote) =>
    if self.outbox.rest = [] then some (self.resumeFlush remote answer) else none
  | .shutdown answer, some .close =>
    if self.outbox.rest = [] then some (self.resumeShutdown answer) else none
  | .drop, some _ => some { self with call := none }
  | _, _ => none

end Transport

end Vole.Xudp
