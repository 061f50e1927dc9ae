import Vole.Common.Bytes
import Vole.Model.Session

/-!
# TCP streams of the netstack

One intercepted TCP flow, as its two threads share it: the handle with its
byte queues and flags, and the stream, whose owner polls it. The owner's
side is a list of accesses to the handle, one atomic access each, in the
order in which the source makes them; between two of them the driver may
do anything. The accesses are sequentially consistent.

Beside the source's state a stream carries what has happened to it: the
bytes that went through each queue, the ends of file it has reported, and
what the driver did to its socket. No access reads these.
-/

namespace Vole.Netstack

/-- `tcp::FlowKey`. -/
structure FlowKey where
  source : SocketAddr
  destination : SocketAddr
  deriving DecidableEq, Repr

/-! ## Queues -/

/-- `tcp::ByteQueue`. -/
structure ByteQueue where
  bytes : Bytes
  capacity : ℕ
  fits : bytes.length ≤ capacity
  deriving DecidableEq

namespace ByteQueue

/-- `ByteQueue::new`. -/
def new (capacity : ℕ) : ByteQueue := ⟨[], capacity, Nat.zero_le _⟩

variable (queue : ByteQueue)

/-- The bytes that still fit. -/
def room : ℕ := queue.capacity - queue.bytes.length

/-- `ByteQueue::write`: how many bytes it took, and the queue. -/
def write (source : Bytes) : ℕ × ByteQueue :=
  let count := min source.length queue.room
  (count, ⟨queue.bytes ++ source.take count, queue.capacity, by
    have hfits := queue.fits
    have hcount : count ≤ queue.capacity - queue.bytes.length := Nat.min_le_right _ _
    rw [List.length_append, List.length_take]
    omega⟩)

/-- `ByteQueue::read` into a buffer with this much space. A deque copies
from its front slice only, which holds `front` bytes: at least one, where
there is one. -/
def read (front space : ℕ) : Bytes × ByteQueue :=
  let count := min (min (max front 1) queue.bytes.length) space
  (queue.bytes.take count, ⟨queue.bytes.drop count, queue.capacity, by
    have hfits := queue.fits
    rw [List.length_drop]
    omega⟩)

/-- `ByteQueue::is_empty`. -/
def isEmpty : Bool := queue.bytes.isEmpty

/-- `ByteQueue::is_full`. -/
def isFull : Bool := queue.bytes.length == queue.capacity

end ByteQueue

/-! ## Handles -/

/-- The flags of a handle. -/
inductive Flag where
  | dropped
  | socketClosed
  | readClosed
  | writeClosed
  | writeShutdown
  | stopped
  deriving DecidableEq, Repr

/-- `tcp::TcpStreamHandle`. A waker is registered or it is not. The
driver's `Notify` decides only when the driver runs, and is left out. -/
structure TcpStreamHandle where
  appRecv : ByteQueue
  appSend : ByteQueue
  recvWaker : Bool
  sendWaker : Bool
  flags : Flag → Bool

namespace TcpStreamHandle

/-- `TcpStreamHandle::new`. -/
def new (appRecvBuffer appSendBuffer : ℕ) : TcpStreamHandle :=
  ⟨.new appRecvBuffer, .new appSendBuffer, false, false, fun _ => false⟩

/-- `store(true, ..)` on a flag. No flag is ever lowered. -/
def store (flag : Flag) (handle : TcpStreamHandle) : TcpStreamHandle :=
  { handle with flags := Function.update handle.flags flag true }

end TcpStreamHandle

/-! ## The owner's side -/

/-- One access of the owner to the handle, with what it means to the poll
that makes it. -/
inductive Access where
  /-- `app_recv.read`; the poll is ready if it got bytes -/
  | read (space : ℕ)
  /-- a flag that ends the stream for a reader with this much space -/
  | eofIf (space : ℕ) (flag : Flag)
  /-- `app_send.write`; the poll is ready if bytes were taken -/
  | write (buffer : Bytes)
  /-- a flag that breaks the pipe for a writer -/
  | brokenIf (flag : Flag)
  /-- `app_send.is_empty`; the flush is ready, and a shutdown goes on -/
  | flushed (shutdown : Bool)
  | registerRecv
  | registerSend
  | wakeRecv
  | wakeSend
  | store (flag : Flag)
  deriving DecidableEq, Repr

/-- `read_closed || socket_closed || stopped`, in `poll_read`. -/
def readEnded (space : ℕ) : List Access :=
  [.eofIf space .readClosed, .eofIf space .socketClosed, .eofIf space .stopped]

/-- `TcpStream::poll_read`. -/
def pollRead (space : ℕ) : List Access :=
  .read space :: readEnded space ++ .registerRecv :: .read space :: readEnded space

/-- `TcpStream::write_unavailable`. -/
def writeUnavailable : List Access :=
  [.brokenIf .writeClosed, .brokenIf .socketClosed, .brokenIf .writeShutdown, .brokenIf .stopped]

/-- `TcpStream::poll_write`. -/
def pollWrite (buffer : Bytes) : List Access :=
  writeUnavailable ++ .write buffer :: .registerSend :: .write buffer :: writeUnavailable

/-- `TcpStream::poll_flush`, as it is or in a shutdown. -/
def flush (shutdown : Bool) : List Access :=
  .flushed shutdown :: writeUnavailable ++
    .registerSend :: .flushed shutdown :: writeUnavailable

/-- `TcpStream::poll_flush`. -/
def pollFlush : List Access := flush false

/-- `TcpStream::poll_shutdown`. -/
def pollShutdown : List Access := flush true

/-- `TcpStream::drop`. -/
def dropStream : List Access :=
  [.store .dropped, .store .readClosed, .store .writeClosed, .wakeRecv, .wakeSend]

/-- What the owner of a stream does with it. -/
inductive Call where
  | pollRead (space : ℕ)
  | pollWrite (buffer : Bytes)
  | pollFlush
  | pollShutdown
  | drop
  deriving DecidableEq, Repr

/-- The accesses of a call. -/
def Call.accesses : Call → List Access
  | .pollRead space => Netstack.pollRead space
  | .pollWrite buffer => Netstack.pollWrite buffer
  | .pollFlush => Netstack.pollFlush
  | .pollShutdown => Netstack.pollShutdown
  | .drop => dropStream

/-- `tcp::TcpStream`, its owner in the middle of a call: `control` holds
the accesses still to come. Then what has happened:

* `delivered` and `returned`: the bytes the driver put into `app_recv`, and
  those that `poll_read` returned;
* `accepted`: the bytes `poll_write` took;
* `eofs`: the bytes in `app_recv` whenever `poll_read` returned nothing
  into a buffer with space, on a stream that was not stopped;
* `late`: the driver closed the reading side while a `poll_read` had found
  `app_recv` empty, had not yet loaded all the flags it loads then, and
  `app_recv` was no longer empty;
* `closes`: the bytes in the socket whenever the driver closed it;
* `cramped`: a pass of the driver came to the stream with its socket
  inactive and more bytes unread in it than fitted into `app_recv`;
* `removed`: the bytes that had arrived at the socket when it was removed. -/
structure TcpStream where
  handle : TcpStreamHandle
  owned : Bool
  control : List Access
  delivered : Bytes
  returned : Bytes
  accepted : Bytes
  eofs : List Bytes
  late : Bool
  closes : List Bytes
  cramped : Bool
  removed : Option Bytes

namespace TcpStream

/-- `TcpStream::new`. -/
def new (handle : TcpStreamHandle) : TcpStream :=
  ⟨handle, true, [], [], [], [], [], false, [], false, none⟩

/-- No stream at all. -/
def absent : TcpStream := { new (.new 0 0) with owned := false }

variable (stream : TcpStream)

/-- Whether a flag is raised. -/
def has (flag : Flag) : Bool := stream.handle.flags flag

/-- `store(true, ..)` on a flag. -/
def store (flag : Flag) : TcpStream := { stream with handle := stream.handle.store flag }

/-- The owner begins a call. A stream that was dropped has no owner. -/
def begin (call : Call) : TcpStream :=
  if stream.owned && stream.control.isEmpty then
    { stream with control := call.accesses, owned := call != .drop }
  else stream

/-- The owner's next access. -/
def access (front : ℕ) : TcpStream :=
  match stream.control with
  | [] => stream
  | .read space :: rest =>
    let (bytes, queue) := stream.handle.appRecv.read front space
    { stream with
      handle := { stream.handle with appRecv := queue }
      returned := stream.returned ++ bytes
      control := if bytes.isEmpty then rest else [] }
  | .eofIf space flag :: rest =>
    if stream.has flag then
      { stream with
        eofs := if space == 0 || stream.has .stopped then stream.eofs
          else stream.handle.appRecv.bytes :: stream.eofs
        control := [] }
    else { stream with control := rest }
  | .write buffer :: rest =>
    let (count, queue) := stream.handle.appSend.write buffer
    { stream with
      handle := { stream.handle with appSend := queue }
      accepted := stream.accepted ++ buffer.take count
      control := if count == 0 then rest else [] }
  | .brokenIf flag :: rest =>
    { stream with control := if stream.has flag then [] else rest }
  | .flushed shutdown :: rest =>
    { stream with
      control := if stream.handle.appSend.isEmpty then
          if shutdown then [.store .writeShutdown] else []
        else rest }
  | .registerRecv :: rest =>
    { stream with handle := { stream.handle with recvWaker := true }, control := rest }
  | .registerSend :: rest =>
    { stream with handle := { stream.handle with sendWaker := true }, control := rest }
  | .wakeRecv :: rest =>
    { stream with handle := { stream.handle with recvWaker := false }, control := rest }
  | .wakeSend :: rest =>
    { stream with handle := { stream.handle with sendWaker := false }, control := rest }
  | .store flag :: rest => { stream.store flag with control := rest }

/-- A step of the owner. -/
inductive Step where
  | begin (call : Call)
  | access (front : ℕ)
  deriving DecidableEq, Repr

/-- The owner's step. -/
def step : Step → TcpStream
  | .begin call => stream.begin call
  | .access front => stream.access front

/-! ## The driver's side -/

/-- A `poll_read` into a buffer with space has found `app_recv` empty and
has still to load a flag. -/
def inWindow : Bool :=
  match stream.control with
  | .eofIf space _ :: _ => space != 0
  | _ => false

/-- The driver stores a flag that closes the reading side. -/
def closeReading (flag : Flag) : TcpStream :=
  { stream.store flag with
    late := stream.late ||
      (stream.inWindow && !stream.has .stopped && !stream.handle.appRecv.isEmpty) }

/-- The driver writes into `app_recv`. -/
def deliver (bytes : Bytes) : ℕ × TcpStream :=
  let (count, queue) := stream.handle.appRecv.write bytes
  (count, { stream with
    handle := { stream.handle with appRecv := queue }
    delivered := stream.delivered ++ bytes.take count })

/-- The driver reads from `app_send`. -/
def takeSend (front space : ℕ) : Bytes × TcpStream :=
  let (bytes, queue) := stream.handle.appSend.read front space
  (bytes, { stream with handle := { stream.handle with appSend := queue } })

/-- `recv_waker.wake`. -/
def wakeRecv : TcpStream := { stream with handle := { stream.handle with recvWaker := false } }

/-- `send_waker.wake`. -/
def wakeSend : TcpStream := { stream with handle := { stream.handle with sendWaker := false } }

end TcpStream

end Vole.Netstack
