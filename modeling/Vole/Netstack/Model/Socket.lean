import Vole.Common.Bytes
import Vole.Model.Session

/-!
# smoltcp's TCP socket

The socket and the socket set, as the driver uses them. smoltcp is not
part of the development: its calls are as its documentation has them, and
what a poll of the interface makes of a socket is left open. Beside
smoltcp's own state a socket carries the bytes that arrived in order and
those that `send` put in.
-/

namespace Vole.Netstack

/-- `smoltcp::socket::tcp::State`. -/
inductive State where
  | closed
  | listen
  | synSent
  | synReceived
  | established
  | finWait1
  | finWait2
  | closeWait
  | closing
  | lastAck
  | timeWait
  deriving DecidableEq, Repr

/-- `smoltcp::socket::tcp::Socket`. -/
structure Socket where
  state : State
  rx : Bytes
  rxCapacity : ℕ
  tx : Bytes
  txCapacity : ℕ
  remote : Option SocketAddr
  arrived : Bytes
  enqueued : Bytes
  deriving DecidableEq, Repr

namespace Socket

/-- `Socket::new`. -/
def new (rxCapacity txCapacity : ℕ) : Socket :=
  ⟨.closed, [], rxCapacity, [], txCapacity, none, [], []⟩

variable (socket : Socket)

/-- `Socket::listen`: an endpoint needs a port. -/
def listen (endpoint : SocketAddr) : Option Socket :=
  if endpoint.port = 0 then none else some { socket with state := .listen }

/-- `Socket::is_active`. -/
def isActive : Bool :=
  match socket.state with
  | .closed | .timeWait | .listen => false
  | _ => true

/-- `Socket::may_recv`. -/
def mayRecv : Bool :=
  match socket.state with
  | .established | .finWait1 | .finWait2 => true
  | _ => !socket.rx.isEmpty

/-- `Socket::can_recv`. -/
def canRecv : Bool := socket.mayRecv && !socket.rx.isEmpty

/-- `Socket::may_send`. -/
def maySend : Bool :=
  match socket.state with
  | .established | .closeWait => true
  | _ => false

/-- `Socket::can_send`. -/
def canSend : Bool := socket.maySend && decide (socket.tx.length < socket.txCapacity)

/-- What `Socket::recv` hands out: a piece of the front of the receive
buffer, up to where the ring wraps. -/
def readable (front : ℕ) : Bytes := socket.rx.take (max front 1)

/-- The space `Socket::send` hands out, up to where the ring wraps. -/
def writable (front : ℕ) : ℕ := min (max front 1) (socket.txCapacity - socket.tx.length)

/-- `Socket::recv` took this many bytes. -/
def dequeue (count : ℕ) : Socket := { socket with rx := socket.rx.drop count }

/-- `Socket::send` put these bytes in. -/
def enqueue (bytes : Bytes) : Socket :=
  { socket with tx := socket.tx ++ bytes, enqueued := socket.enqueued ++ bytes }

/-- `Socket::close`. -/
def close : Socket :=
  match socket.state with
  | .listen | .synSent => { socket with state := .closed }
  | .synReceived | .established => { socket with state := .finWait1 }
  | .closeWait => { socket with state := .lastAck }
  | _ => socket

/-- `Socket::abort`. -/
def abort : Socket := { socket with state := .closed }

/-- The handshake is over. -/
def pastHandshake : Bool :=
  match socket.state with
  | .listen | .synSent | .synReceived => false
  | _ => true

/-- Nothing more can be read from the socket. -/
def readingDone : Bool := socket.pastHandshake && !socket.mayRecv && !socket.canRecv

/-- What smoltcp makes of the socket in a poll: the bytes that join the
receive buffer have arrived. -/
def polled (next : Socket) : Socket :=
  { next with
    arrived := socket.arrived ++ next.rx.drop socket.rx.length
    enqueued := socket.enqueued }

end Socket

/-! ## The socket set -/

/-- `smoltcp::iface::SocketSet`: slots, of which a removed socket leaves
one free. A `SocketHandle` is the index of a slot. -/
structure SocketSet where
  slots : List (Option Socket)
  deriving DecidableEq, Repr

namespace SocketSet

/-- `SocketSet::new`. -/
def new : SocketSet := ⟨[]⟩

variable (set : SocketSet)

/-- `SocketSet::get`. -/
def get (handle : ℕ) : Option Socket := set.slots[handle]?.join

/-- Writes to a socket of the set. -/
def put (handle : ℕ) (socket : Socket) : SocketSet := ⟨set.slots.set handle (some socket)⟩

/-- `SocketSet::add`: the first free slot, or a new one. -/
def add (socket : Socket) : ℕ × SocketSet :=
  match set.slots.findIdx? Option.isNone with
  | some handle => (handle, set.put handle socket)
  | none => (set.slots.length, ⟨set.slots ++ [some socket]⟩)

/-- `SocketSet::remove`. -/
def remove (handle : ℕ) : SocketSet := ⟨set.slots.set handle none⟩

/-- Every socket of the set, changed. -/
def poll (network : ℕ → Socket → Socket) : SocketSet :=
  ⟨set.slots.mapIdx fun handle slot =>
    slot.map fun socket => socket.polled (network handle socket)⟩

/-- The number of sockets. -/
def count : ℕ := set.slots.countP Option.isSome

end SocketSet

end Vole.Netstack
