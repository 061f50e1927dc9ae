import Vole.Common.Bytes
import Vole.Model.IoError
import Mathlib.Logic.Function.Basic

/-!
# An AnyTLS session

One physical connection, which carries one stream at a time. A session is
shared by the task that opens a stream, the stream, the reader and the
writer loop, the waiter for an acknowledgement and whoever fails it. What
is written here is what each of them does between two points where another
one can come in: an atomic, a lock that is held over the whole access, or a
wait. `SessionEvent` lists the accesses of the two loops and of the
streams; the client model adds the others.

A stream is its channel, its `StreamShared` and its `AnyTlsStream`.
-/

namespace Vole.AnyTls

/-- `session::STATE_ACTIVE`, `STATE_IDLE` and `STATE_CLOSED`. -/
inductive SessionState where
  | active
  | idle
  | closed
  deriving DecidableEq, Repr

/-- `session::WRITER_QUEUE_CAPACITY`. -/
def writerQueueCapacity : ℕ := 2

/-- `session::MAX_DIAGNOSTIC_BYTES`. -/
def maxDiagnosticBytes : ℕ := 256

/-- `session::protocol_error`. -/
def protocolError (message : String) : IoError := ⟨.invalidData, message⟩

/-- `session::closed_pipe`. -/
def closedPipe (message : String) : IoError := ⟨.brokenPipe, message⟩

/-- The longest start that has at most so many bytes. -/
def takeBytes : ℕ → List Char → List Char
  | _, [] => []
  | count, c :: rest => if c.utf8Size ≤ count then c :: takeBytes (count - c.utf8Size) rest else []

/-- `session::bounded_message`. -/
def boundedMessage (message : String) : String :=
  if message.utf8ByteSize ≤ maxDiagnosticBytes then message
  else String.ofList (takeBytes (maxDiagnosticBytes - 3) message.toList) ++ "..."

/-- What a client is configured with, and how it reads the settings of a
server. -/
structure Config where
  incomingCapacity : ℕ
  maxStreamChunk : ℕ
  chunk_pos : 0 < maxStreamChunk
  /-- `session::parse_server_version`. -/
  parseServerVersion : Bytes → Except IoError ℕ

/-- `frame::Command`. -/
inductive Command where
  | waste
  | syn
  | push
  | fin
  | settings
  | alert
  | updatePaddingScheme
  | synAck
  | heartRequest
  | heartResponse
  | serverSettings
  deriving DecidableEq, Repr

/-- `frame::Frame`. -/
structure Frame where
  command : Command
  streamId : ℕ
  payload : Bytes
  deriving DecidableEq, Repr

/-! ## Streams -/

/-- `stream::StreamEvent`. -/
inductive StreamEvent where
  | data (payload : Bytes)
  | finished
  | failed (failure : IoError)

/-- The oneshot channel of an acknowledgement. -/
inductive Acknowledgement where
  | pending
  | sent (result : Except IoError Unit)
  | dropped

/-- A stream. `handle` is whether its `AnyTlsStream` is there, and
`pendingShutdown` what that waits for, with its answer. No function reads
`pushed`, what the frames for this stream carried while it was the active
one, and `read`, what `poll_read` returned. -/
structure Stream where
  events : List StreamEvent := []
  receiver : Bool := false
  remoteFinished : Bool := false
  localFinished : Bool := false
  failure : Option IoError := none
  acknowledgement : Acknowledgement := .pending
  handle : Bool := false
  current : Bytes := []
  readFinished : Bool := false
  closeQueued : Bool := false
  closed : Bool := false
  pendingShutdown : Option (Option (Except IoError Unit)) := none
  pushed : Bytes := []
  read : Bytes := []

namespace Stream

/-- The stream of `make_active_stream`. -/
def fresh : Stream := { receiver := true }

/-- `StreamShared::fail`. -/
def fail (self : Stream) (failure : IoError) : Stream :=
  { self with remoteFinished := true, failure := self.failure.or (some failure) }

/-- `incoming.try_send(event)`. -/
def trySend (self : Stream) (config : Config) (event : StreamEvent) : Stream :=
  if self.receiver ∧ self.events.length < max config.incomingCapacity 1 then
    { self with events := self.events ++ [event] }
  else self

/-- A turn of the loop of `poll_read`, with room for so many bytes. -/
def pollRead (self : Stream) (room : ℕ) : Stream :=
  if self.readFinished ∨ self.closed ∨ self.localFinished then
    { self with current := [], readFinished := true }
  else if self.current ≠ [] then
    { self with current := self.current.drop room, read := self.read ++ self.current.take room }
  else
    match self.events with
    | [] => self
    | .data payload :: rest => { self with events := rest, current := payload }
    | .finished :: rest =>
      { self with events := rest, remoteFinished := true, readFinished := true }
    | .failed failure :: rest => { self.fail failure with events := rest }

end Stream

/-! ## Sessions -/

/-- `session::ActiveStream`: its stream, and whether the sender of its
acknowledgement is still there. -/
structure ActiveStream where
  streamId : ℕ
  synAck : Bool
  deriving DecidableEq

/-- `session::WriterCommand`. -/
inductive WriterCommand where
  | openStream (streamId : ℕ)
  | data (streamId : ℕ) (payload : Bytes)
  | flush
  | closeStream (streamId : ℕ) (sendFin waited : Bool)
  | control
  deriving DecidableEq

/-- Where `release_stream` is, once it has taken the active stream. -/
inductive Place where
  | taken
  | marked
  | unclosed
  | freed
  | returned
  deriving DecidableEq

/-- Where `writer_loop` is. -/
inductive Writer where
  | unstarted
  | waiting
  | received (command : WriterCommand)
  | writing (command : WriterCommand)
  | closing (streamId : ℕ) (waited : Bool)
  | releasing (streamId : ℕ) (waited : Bool) (place : Place) (active : ActiveStream)
  | stopped
  deriving DecidableEq

/-- Where `reader_loop` is. -/
inductive Reader where
  | unstarted
  | reading
  | targeting (streamId : ℕ) (payload : Bytes)
  | pushing (streamId : ℕ) (rest : Bytes)
  | finishing (streamId : ℕ)
  | answering
  | stopped
  deriving DecidableEq

/-- `session::Session`, with its streams, its two loops and the answer to
its last `Open` command. -/
structure Session where
  state : SessionState := .active
  closed : Bool := false
  nextStreamId : ℕ := 0
  peerVersion : ℕ := 1
  active : Option ActiveStream := none
  queue : List WriterCommand := []
  cancelled : Bool := false
  writer : Writer := .unstarted
  reader : Reader := .unstarted
  openDone : Option (Except IoError Unit) := none
  stream : ℕ → Stream := fun _ => {}

/-- Why a waiter fails its session. -/
inductive Cause where
  | answered
  | stopped
  | timedOut
  deriving DecidableEq, Repr

/-- Who calls `Session::fail`: `pushing` is the reader loop where the
receiver of this stream is gone. No function reads it. -/
inductive Caller where
  | reader
  | pushing (streamId : ℕ)
  | writer
  | opening (streamId : ℕ)
  | abandoned (streamId : ℕ)
  | waiter (streamId : ℕ) (cause : Cause)
  | expiry
  | shutdown
  deriving DecidableEq, Repr

/-- A call of `Session::fail`. -/
structure Call where
  caller : Caller
  error : IoError
  deriving DecidableEq, Repr

namespace Session

variable (self : Session)

/-- The session that `prepare_first` makes. -/
def prepared (cancelled : Bool) : Session where
  nextStreamId := 1
  active := some ⟨1, true⟩
  cancelled
  stream := Function.update (fun _ => {}) 1 .fresh

/-- A change of a stream. -/
def withStream (streamId : ℕ) (f : Stream → Stream) : Session :=
  { self with stream := Function.update self.stream streamId (f (self.stream streamId)) }

/-- `session::is_allocated_stream`. -/
def isAllocatedStream (streamId : ℕ) : Bool := streamId ≠ 0 ∧ streamId ≤ self.nextStreamId

/-- `session::active_matches`. -/
def activeMatches (streamId : ℕ) : Bool := self.active.any fun active => active.streamId = streamId

/-- `session::active_target`. -/
def activeTarget (streamId : ℕ) : Except IoError (Option ℕ) :=
  if streamId = 0 then .error (protocolError "AnyTLS data frame uses stream ID zero")
  else
    match self.active with
    | none =>
      if self.isAllocatedStream streamId then .ok none
      else .error (protocolError "AnyTLS frame targets an unknown stream")
    | some active =>
      if active.streamId = streamId then .ok (some streamId)
      else if streamId < active.streamId then .ok none
      else .error (protocolError "AnyTLS frame targets a future stream")

/-- The part of `fail` that holds the lock of the active stream. -/
def failActive (config : Config) (error : IoError) : Session :=
  match self.active with
  | none => self
  | some active =>
    let session := self.withStream active.streamId fun stream =>
      let stream := stream.fail error
      let stream :=
        if active.synAck then
          { stream with
            acknowledgement := .sent (.error ⟨error.kind, boundedMessage error.text⟩) }
        else stream
      stream.trySend config (.failed error)
    { session with active := none }

/-! ## The reader loop -/

/-- An error of `handle_server_frame` ends the loop. -/
def readerError (error : IoError) : Session × List Call :=
  ({ self with reader := .stopped }, [⟨.reader, error⟩])

/-- The loop goes on with the next frame. -/
def readOn : Session × List Call := ({ self with reader := .reading }, [])

/-- The answer to whoever waits for the acknowledgement of the active
stream, once. -/
def acknowledge (active : ActiveStream) (result : Except IoError Unit) : Session :=
  if active.synAck then
    { self.withStream active.streamId ({ · with acknowledgement := .sent result }) with
      active := some { active with synAck := false } }
  else self

/-- `session::handle_syn_ack`, which holds the lock throughout. -/
def handleSynAck (config : Config) (frame : Frame) : Session × List Call :=
  if frame.streamId = 0 then
    self.readerError (protocolError "AnyTLS SYNACK uses stream ID zero")
  else
    match self.active with
    | none =>
      if self.isAllocatedStream frame.streamId then self.readOn
      else self.readerError (protocolError "AnyTLS SYNACK targets an unknown stream")
    | some active =>
      if active.streamId ≠ frame.streamId then
        if frame.streamId < active.streamId then self.readOn
        else self.readerError (protocolError "AnyTLS SYNACK targets an unknown stream")
      else
        if frame.payload = [] then (self.acknowledge active (.ok ())).readOn
        else
          let failure : IoError := ⟨.connectionRefused, "AnyTLS stream rejected by server"⟩
          let session := self.withStream active.streamId fun stream =>
            (stream.fail failure).trySend config (.failed failure)
          (session.acknowledge active (.error failure)).readerError failure

/-- `session::handle_server_frame`, up to where it waits. -/
def handleServerFrame (config : Config) (frame : Frame) : Session × List Call :=
  match frame.command with
  | .waste =>
    if frame.streamId ≠ 0 then
      self.readerError (protocolError "AnyTLS Waste uses a non-zero stream ID")
    else self.readOn
  | .push =>
    if frame.streamId = 0 then
      self.readerError (protocolError "AnyTLS PSH uses stream ID zero")
    else
      match self.activeTarget frame.streamId with
      | .error error => self.readerError error
      | .ok none => self.readOn
      | .ok (some streamId) =>
        let session := self.withStream streamId fun stream =>
          { stream with pushed := stream.pushed ++ frame.payload }
        ({ session with reader := .targeting streamId frame.payload }, [])
  | .fin =>
    if frame.payload ≠ [] then
      self.readerError (protocolError "AnyTLS FIN unexpectedly carries data")
    else
      match self.activeTarget frame.streamId with
      | .error error => self.readerError error
      | .ok none => self.readOn
      | .ok (some streamId) =>
        let session := self.withStream streamId ({ · with remoteFinished := true })
        ({ session with reader := .finishing streamId }, [])
  | .synAck => self.handleSynAck config frame
  | .alert =>
    if frame.streamId ≠ 0 then
      self.readerError (protocolError "AnyTLS Alert uses a non-zero stream ID")
    else self.readerError ⟨.connectionAborted, "AnyTLS server alert"⟩
  | .updatePaddingScheme =>
    if frame.streamId ≠ 0 ∨ frame.payload = [] then
      self.readerError (protocolError "AnyTLS padding update has an invalid header")
    else self.readOn
  | .heartRequest =>
    if frame.streamId ≠ 0 then
      self.readerError (protocolError "AnyTLS heartbeat request uses a non-zero stream ID")
    else if frame.payload ≠ [] then
      self.readerError (protocolError "AnyTLS heartbeat request unexpectedly carries data")
    else ({ self with reader := .answering }, [])
  | .heartResponse =>
    if frame.streamId ≠ 0 then
      self.readerError (protocolError "AnyTLS heartbeat response uses a non-zero stream ID")
    else if frame.payload ≠ [] then
      self.readerError (protocolError "AnyTLS heartbeat response unexpectedly carries data")
    else self.readOn
  | .serverSettings =>
    if frame.streamId ≠ 0 ∨ frame.payload = [] then
      self.readerError (protocolError "AnyTLS server settings have an invalid header")
    else
      match config.parseServerVersion frame.payload with
      | .error error => self.readerError error
      | .ok version =>
        ({ self with peerVersion := max self.peerVersion (min version 2) } : Session).readOn
  | .syn => self.readerError (protocolError "AnyTLS server sent a client-only frame command")
  | .settings => self.readerError (protocolError "AnyTLS server sent a client-only frame command")

/-- The look at `remote_finished`, before the payload is sent on. -/
def checkTarget (streamId : ℕ) (payload : Bytes) : Session × List Call :=
  if (self.stream streamId).remoteFinished then
    self.readerError (protocolError "AnyTLS PSH arrived after stream FIN")
  else if payload = [] then self.readOn
  else ({ self with reader := .pushing streamId payload }, [])

/-- `incoming.send` of a part of the payload: what is left, where there is
room. -/
def pushChunk (config : Config) (streamId : ℕ) (rest : Bytes) : Option (Session × List Call) :=
  let stream := self.stream streamId
  if !stream.receiver then
    some ({ self with reader := .stopped },
      [⟨.pushing streamId, closedPipe "AnyTLS stream receiver stopped"⟩])
  else if stream.events.length < max config.incomingCapacity 1 then
    let session := self.withStream streamId fun stream =>
      { stream with events := stream.events ++ [.data (rest.take config.maxStreamChunk)] }
    let rest := rest.drop config.maxStreamChunk
    some ({ session with reader := if rest = [] then .reading else .pushing streamId rest }, [])
  else none

/-- `incoming.send` of the end, whose result nobody reads. -/
def pushFinished (config : Config) (streamId : ℕ) : Option (Session × List Call) :=
  let stream := self.stream streamId
  if !stream.receiver then some self.readOn
  else if stream.events.length < max config.incomingCapacity 1 then
    some (self.withStream streamId fun stream =>
      { stream with events := stream.events ++ [.finished] }).readOn
  else none

/-! ## The writer loop -/

/-- An error ends the loop. Its receiver goes away, and what is queued with
it. -/
def writerError (error : IoError) : Session × List Call :=
  ({ self with writer := .stopped, queue := [] }, [⟨.writer, error⟩])

/-- The answer to a `CloseStream` command that somebody waits for. -/
def answerClose (streamId : ℕ) (waited : Bool) (result : Except IoError Unit) : Session :=
  if waited then
    self.withStream streamId fun stream =>
      { stream with pendingShutdown := stream.pendingShutdown.map fun _ => some result }
  else self

/-- The start of a command. -/
def startCommand : WriterCommand → Session × List Call
  | .openStream streamId => ({ self with writer := .writing (.openStream streamId) }, [])
  | .data streamId payload =>
    if self.activeMatches streamId then
      ({ self with writer := .writing (.data streamId payload) }, [])
    else self.writerError (protocolError "AnyTLS write targets an inactive stream")
  | .flush => ({ self with writer := .writing .flush }, [])
  | .closeStream streamId sendFin waited =>
    if sendFin then ({ self with writer := .writing (.closeStream streamId sendFin waited) }, [])
    else ({ self with writer := .closing streamId waited }, [])
  | .control => ({ self with writer := .writing .control }, [])

/-- The end of a write. -/
def finishCommand (command : WriterCommand) (result : Except IoError Unit) :
    Session × List Call :=
  let session : Session :=
    match command with
    | .openStream _ => { self with openDone := some result }
    | _ => self
  match result with
  | .ok () =>
    match command with
    | .closeStream streamId _ waited => ({ session with writer := .closing streamId waited }, [])
    | _ => ({ session with writer := .waiting }, [])
  | .error error =>
    match command with
    | .closeStream streamId _ waited =>
      (session.answerClose streamId waited result).writerError error
    | _ => session.writerError error

/-- An `ActiveStream` goes away, and the sender of its acknowledgement. -/
def dropActive (active : ActiveStream) : Session :=
  if active.synAck then self.withStream active.streamId ({ · with acknowledgement := .dropped })
  else self

/-- An error of `release_stream`, which ends the loop. -/
def releaseError (streamId : ℕ) (waited : Bool) (error : IoError) : Session × List Call :=
  (self.answerClose streamId waited (.error error)).writerError error

/-- The first access of `release_stream`. -/
def takeForRelease (streamId : ℕ) (waited : Bool) : Session × List Call :=
  match self.active with
  | none => self.releaseError streamId waited (protocolError "AnyTLS stream was already released")
  | some active =>
    ({ self with active := none, writer := .releasing streamId waited .taken active }, [])

/-- The other accesses of `release_stream` but the one to the client, which
is made at `freed`. -/
def release (streamId : ℕ) (waited : Bool) (place : Place) (active : ActiveStream) :
    Option (Session × List Call) :=
  let go (session : Session) (place : Place) : Session × List Call :=
    ({ session with writer := .releasing streamId waited place active }, [])
  let finish (session : Session) : Session × List Call :=
    ({ (session.dropActive active).answerClose streamId waited (.ok ()) with
      writer := .waiting }, [])
  match place with
  | .taken =>
    if active.streamId ≠ streamId then
      let error := protocolError "AnyTLS stream release ID mismatch"
      let (session, calls) := (self.dropActive active).releaseError streamId waited error
      some (session, ⟨.writer, error⟩ :: calls)
    else some (go (self.withStream streamId ({ · with localFinished := true })) .marked)
  | .marked => some (if self.closed then finish self else go self .unclosed)
  | .unclosed =>
    if self.state = .active then some (go { self with state := .idle } .freed)
    else
      let error := protocolError "AnyTLS session state did not permit release"
      let (session, calls) := (self.dropActive active).releaseError streamId waited error
      some (session, ⟨.writer, error⟩ :: calls)
  | .freed => none
  | .returned => some (finish self)

/-! ## The streams -/

/-- Whether the channel of the writer takes a command now. -/
def hasRoom : Bool := self.writer ≠ .stopped ∧ self.queue.length < writerQueueCapacity

/-- A command for the writer. -/
def enqueue (command : WriterCommand) : Session := { self with queue := self.queue ++ [command] }

/-- `AnyTlsStream::poll_shutdown`, up to where it waits. -/
def shutdownStream (streamId : ℕ) : Session :=
  let session := self.enqueue
    (.closeStream streamId (!(self.stream streamId).remoteFinished) true)
  session.withStream streamId ({ · with closeQueued := true, pendingShutdown := some none })

/-- `AnyTlsStream::drop`, with `Session::abandon_stream`. -/
def dropStream (streamId : ℕ) : Session × List Call :=
  let stream := self.stream streamId
  let gone (session : Session) : Session := session.withStream streamId ({ · with handle := false })
  if stream.closed ∨ stream.closeQueued then (gone self, [])
  else if self.hasRoom then
    let session := self.enqueue (.closeStream streamId (!stream.remoteFinished) false)
    (gone (session.withStream streamId ({ · with closeQueued := true })), [])
  else
    let session := gone (self.withStream streamId ({ · with closeQueued := true }))
    if self.activeMatches streamId then
      (session, [⟨.abandoned streamId, ⟨.connectionAborted,
        "AnyTLS stream was dropped before FIN could be queued"⟩⟩])
    else (session, [])

end Session

/-- The accesses of the two loops and of the streams. -/
inductive SessionEvent where
  /-- The reader loop: a frame is read, reading fails, the token is seen
  cancelled, the target is checked, a part of a payload or the end is sent,
  the stream is seen finished, a heartbeat is answered. -/
  | frame (frame : Frame)
  | readFailed (error : IoError)
  | readerCancelled
  | check
  | send
  | sendCancelled
  | respond
  /-- The writer loop: a command is received, started and written, the token
  is seen cancelled, and a stream is released. -/
  | receive
  | start
  | written (result : Except IoError Unit)
  | writerCancelled
  | release
  /-- A stream: a turn of `poll_read`, a write, a flush, `poll_shutdown` and
  its answer, and the two halves of the drop. -/
  | read (streamId room : ℕ)
  | write (streamId : ℕ) (payload : Bytes)
  | flush (streamId : ℕ)
  | shutdown (streamId : ℕ)
  | shutdownAnswered (streamId : ℕ)
  | dropHandle (streamId : ℕ)
  | dropReceiver (streamId : ℕ)

namespace Session

/-- **An access of a loop or a stream**: what it leaves, and the calls of
`fail` that follow. A loop that waits looks at its token first, but the
token may be cancelled after the look, so no access but those that see it
asks for it. -/
def step (config : Config) (self : Session) : SessionEvent → Option (Session × List Call)
  | .frame frame =>
    if self.reader = .reading then some (self.handleServerFrame config frame) else none
  | .readFailed error => if self.reader = .reading then some (self.readerError error) else none
  | .readerCancelled =>
    if !self.cancelled then none
    else
      match self.reader with
      | .reading => some ({ self with reader := .stopped }, [])
      | .pushing _ _ => some (self.readerError (closedPipe "AnyTLS session stopped"))
      | .finishing _ => some (self.readerError (closedPipe "AnyTLS session stopped"))
      | .answering => some (self.readerError (closedPipe "AnyTLS session stopped"))
      | _ => none
  | .check =>
    match self.reader with
    | .targeting streamId payload => some (self.checkTarget streamId payload)
    | _ => none
  | .send =>
    match self.reader with
    | .pushing streamId rest => self.pushChunk config streamId rest
    | .finishing streamId => self.pushFinished config streamId
    | _ => none
  | .sendCancelled =>
    match self.reader with
    | .pushing streamId _ => if (self.stream streamId).localFinished then some self.readOn else none
    | .finishing streamId => if (self.stream streamId).localFinished then some self.readOn else none
    | _ => none
  | .respond =>
    if self.reader ≠ .answering then none
    else if self.writer = .stopped then
      some (self.readerError (closedPipe "AnyTLS writer stopped"))
    else if self.hasRoom then some (self.enqueue .control).readOn
    else none
  | .receive =>
    if self.writer ≠ .waiting then none
    else
      match self.queue with
      | [] => none
      | command :: rest => some ({ self with writer := .received command, queue := rest }, [])
  | .start =>
    match self.writer with
    | .received command => some (self.startCommand command)
    | _ => none
  | .written result =>
    match self.writer with
    | .writing command => some (self.finishCommand command result)
    | _ => none
  | .writerCancelled =>
    if !self.cancelled then none
    else
      match self.writer with
      | .waiting => some ({ self with writer := .stopped, queue := [] }, [])
      | .received _ => some ({ self with writer := .stopped, queue := [] }, [])
      | .writing _ => some ({ self with writer := .stopped, queue := [] }, [])
      | _ => none
  | .release =>
    match self.writer with
    | .closing streamId waited => some (self.takeForRelease streamId waited)
    | .releasing streamId waited place active => self.release streamId waited place active
    | _ => none
  | .read streamId room =>
    if (self.stream streamId).handle then
      some (self.withStream streamId (Stream.pollRead · room), [])
    else none
  | .write streamId payload =>
    let stream := self.stream streamId
    if stream.handle ∧ ¬ stream.closed ∧ ¬ stream.closeQueued ∧ ¬ stream.remoteFinished ∧
        self.hasRoom then
      some (self.enqueue (.data streamId payload), [])
    else none
  | .flush streamId =>
    let stream := self.stream streamId
    if stream.handle ∧ ¬ stream.closed ∧ ¬ stream.closeQueued ∧ self.hasRoom then
      some (self.enqueue .flush, [])
    else none
  | .shutdown streamId =>
    let stream := self.stream streamId
    if stream.handle ∧ ¬ stream.closed ∧ stream.pendingShutdown.isNone ∧ self.hasRoom then
      some (self.shutdownStream streamId, [])
    else none
  | .shutdownAnswered streamId =>
    let stream := self.stream streamId
    let answered (result : Except IoError Unit) : Session :=
      self.withStream streamId ({ · with closed := result.isOk, pendingShutdown := none })
    if !stream.handle then none
    else
      match stream.pendingShutdown with
      | none => none
      | some (some result) => some (answered result, [])
      | some none =>
        if self.writer = .stopped then
          some (answered (.error (closedPipe "AnyTLS writer stopped")), [])
        else none
  | .dropHandle streamId =>
    if (self.stream streamId).handle then some (self.dropStream streamId) else none
  | .dropReceiver streamId =>
    if !(self.stream streamId).handle ∧ (self.stream streamId).closeQueued then
      some (self.withStream streamId ({ · with receiver := false }), [])
    else none

end Session

end Vole.AnyTls
