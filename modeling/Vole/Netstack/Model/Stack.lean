import Mathlib.Data.List.AList
import Mathlib.Data.Finset.Card
import Vole.Common.Proc
import Vole.Netstack.Model.Socket
import Vole.Netstack.Model.Tcp

/-!
# The driver of the netstack

One thread owns the interface, the device and the sockets. It takes raw
packets in, moves bytes between each socket and the queues of its stream,
and removes the flows that are over. Before each of its accesses to what
it shares, the owners of the streams may make any number of theirs. What
smoltcp makes of a poll, which packets come and when the channels are full
is up to the world. A panic of the driver is an error of its procedure.
-/

namespace Vole.Netstack

open Proc

/-! ## The world -/

/-- `icmp::IcmpIngress`. -/
inductive IcmpIngress where
  | notIcmp
  | dropped
  | smoltcp
  deriving DecidableEq, Repr

/-- `smoltcp::wire::IpProtocol`, as far as the driver tells them apart. -/
inductive IpProtocol where
  | tcp
  | udp
  | other
  deriving DecidableEq, Repr

/-- What another thread does. -/
inductive Interference where
  | stream (handle : ℕ) (step : TcpStream.Step)
  | cancel
  deriving DecidableEq, Repr

/-- Answers of the channels and of smoltcp at one moment. -/
structure Answers (P : Type) where
  txIsFull : Bool
  outboundIsClosed : Bool
  acceptIsFull : Bool
  acceptFails : Bool
  udpIsFull : Bool
  takesRx : Bool
  emits : Bool
  nextPacket : Option P
  front : ℕ

/-- A panic of the driver. -/
inductive Panic where
  | noSocket
  deriving DecidableEq, Repr

/-- `stack::TcpEntry`: a slot of the socket set, and the stream's handle. -/
structure TcpEntry where
  socket : ℕ
  handle : ℕ
  deriving DecidableEq, Repr

/-- A flow and its entry. -/
abbrev Entry := Sigma fun _ : FlowKey => TcpEntry

/-- Everything around the driver. `P` is the type of packets, and a hash
map yields its entries in any order. -/
structure World (P : Type) where
  classifyIcmp : P → IcmpIngress
  packetProtocol : P → Option IpProtocol
  parseTcpFlow : P → Option (FlowKey × Bool × Bool)
  parseUdpPacket : P → Bool
  interference : ℕ → List Interference
  network : ℕ → ℕ → Socket → Socket
  answers : ℕ → Answers P
  order : ℕ → List Entry → List Entry
  order_perm : ∀ time entries, (order time entries).Perm entries

/-- `config::NetStackConfig`, as the driver reads it. -/
structure NetStackConfig where
  tcpRecvBuffer : ℕ
  tcpSendBuffer : ℕ
  fakeIcmpEcho : Bool
  deriving DecidableEq, Repr

namespace NetStackConfig

/-- `NetStackConfig::recv_layer_buffer_size`. -/
def recvLayerBufferSize (config : NetStackConfig) : ℕ := config.tcpRecvBuffer / 2

/-- `NetStackConfig::send_layer_buffer_size`. -/
def sendLayerBufferSize (config : NetStackConfig) : ℕ := config.tcpSendBuffer / 2

end NetStackConfig

/-- `stack::Counters`. -/
structure Counters where
  activeTcp : ℕ
  activeTcpPeak : ℕ
  halfOpenTcp : ℕ
  halfOpenTcpPeak : ℕ
  rejectedTcp : ℕ
  droppedUdp : ℕ
  invalidPackets : ℕ
  icmpReplied : ℕ
  icmpDropped : ℕ
  deriving DecidableEq, Repr

/-- `stack::Driver` and what it shares: the streams by their handles, the
first `allocated` of which exist. `hasUdp` says whether there is a UDP
endpoint, `rx` is the device's pending packet, `accepts` what was put on
the accept queue, `time` counts what the driver has asked. -/
structure Stack (P : Type) where
  config : NetStackConfig
  hasUdp : Bool
  streams : ℕ → TcpStream
  allocated : ℕ
  cancelled : Bool
  rx : Option P
  sockets : SocketSet
  tcpEntries : AList fun _ : FlowKey => TcpEntry
  halfOpen : Finset FlowKey
  stats : Counters
  accepts : List (FlowKey × ℕ)
  stopped : Bool
  time : ℕ

variable {P : Type}

namespace Stack

/-- `Driver::new`. -/
def new (config : NetStackConfig) (hasUdp : Bool) : Stack P where
  config
  hasUdp
  streams _ := .absent
  allocated := 0
  cancelled := false
  rx := none
  sockets := .new
  tcpEntries := ∅
  halfOpen := ∅
  stats := ⟨0, 0, 0, 0, 0, 0, 0, 0, 0⟩
  accepts := []
  stopped := false
  time := 0

/-- Changes one stream. -/
def setStream (s : Stack P) (handle : ℕ) (stream : TcpStream) : Stack P :=
  { s with streams := Function.update s.streams handle stream }

/-- A step of another thread. -/
def interfere (s : Stack P) : Interference → Stack P
  | .stream handle step => s.setStream handle ((s.streams handle).step step)
  | .cancel => { s with cancelled := true }

/-- One more moment. -/
def tick (s : Stack P) : Stack P := { s with time := s.time + 1 }

end Stack

/-! ## Accesses -/

/-- A piece of the driver's work. -/
abbrev Act (P : Type) := Proc (Stack P) Panic

namespace Driver

variable (w : World P)

/-- The other threads take their steps. -/
def yield : Act P Unit :=
  update fun s => ((w.interference s.time).foldl Stack.interfere s).tick

/-- An answer from outside. -/
def ask {α : Type} (answer : Answers P → α) : Act P α := do
  let time ← read Stack.time
  update Stack.tick
  pure (answer (w.answers time))

/-- An access to a stream. -/
def onStream (handle : ℕ) (f : TcpStream → TcpStream) : Act P Unit := do
  yield w
  update fun s => s.setStream handle (f (s.streams handle))

/-- What the driver does with a socket and its stream at one moment. -/
def atFlow {α : Type} (entry : TcpEntry) (f : Socket → TcpStream → α × Socket × TcpStream) :
    Act P α := fun s =>
  match s.sockets.get entry.socket with
  | none => (.error .noSocket, s)
  | some socket =>
    let (a, socket, stream) := f socket (s.streams entry.handle)
    (.ok a, { s.setStream entry.handle stream with
      sockets := s.sockets.put entry.socket socket })

/-- A look at the socket of a flow, and an access to its stream. -/
def onFlow {α : Type} (entry : TcpEntry) (f : Socket → TcpStream → α × Socket × TcpStream) :
    Act P α := do
  yield w
  atFlow entry f

/-- `CancellationToken::is_cancelled`. -/
def isCancelled : Act P Bool := do
  yield w
  read Stack.cancelled

/-- Changes the counters. -/
def count (f : Counters → Counters) : Act P Unit :=
  update fun s => { s with stats := f s.stats }

/-- A poll of the interface: smoltcp may change every socket and take the
pending packet. -/
def poll : Act P Unit := do
  let takesRx ← ask w Answers.takesRx
  update fun s =>
    { s with
      sockets := s.sockets.poll (w.network s.time)
      rx := if takesRx then none else s.rx }

/-- `RawIpDevice::tx_is_full`. -/
def txIsFull : Act P Bool := ask w Answers.txIsFull

/-- `RawIpDevice::rx_is_empty`. -/
def rxIsEmpty : Act P Bool := read fun s => s.rx.isNone

/-- `RawIpDevice::push_rx`: whether the packet was taken. -/
def pushRx (packet : P) : Act P Bool := do
  let empty ← rxIsEmpty
  when empty (update fun s => { s with rx := some packet })
  pure empty

/-- `RawIpDevice::discard_rx`. -/
def discardRx : Act P Unit := update fun s => { s with rx := none }

/-! ## Admission -/

/-- `Driver::update_flow_stats`. -/
def updateFlowStats : Act P Unit :=
  update fun s =>
    let activeTcp := s.tcpEntries.entries.length
    let halfOpenTcp := s.halfOpen.card
    { s with stats := { s.stats with
        activeTcpPeak := max s.stats.activeTcpPeak activeTcp
        activeTcp := activeTcp
        halfOpenTcpPeak := max s.stats.halfOpenTcpPeak halfOpenTcp
        halfOpenTcp := halfOpenTcp } }

/-- A rejected flow. -/
def rejectTcp : Act P Bool := do
  count fun stats => { stats with rejectedTcp := stats.rejectedTcp + 1 }
  pure false

/-- The stream of a flow goes on the accept queue and its entry into the
table. -/
def enterFlow (flow : FlowKey) (socket : ℕ) : Act P Unit :=
  update fun s =>
    let stream := TcpStream.new
      (.new s.config.recvLayerBufferSize s.config.sendLayerBufferSize)
    { s.setStream s.allocated stream with
      allocated := s.allocated + 1
      accepts := (flow, s.allocated) :: s.accepts
      tcpEntries := s.tcpEntries.insert flow ⟨socket, s.allocated⟩
      halfOpen := insert flow s.halfOpen }

/-- A listening socket offers its stream to the accept queue. -/
def offerFlow (flow : FlowKey) (listening : Socket) : Act P Bool := do
  let s ← read id
  let added := s.sockets.add listening
  update fun s => { s with sockets := added.2 }
  if ← ask w Answers.acceptFails then
    update fun s => { s with sockets := s.sockets.remove added.1 }
    rejectTcp
  else
    enterFlow flow added.1
    updateFlowStats
    pure true

/-- `Driver::admit_tcp`. -/
def admitTcp (flow : FlowKey) : Act P Bool := do
  if ← ask w Answers.acceptIsFull then rejectTcp
  else
    let config ← read Stack.config
    match (Socket.new config.recvLayerBufferSize config.sendLayerBufferSize).listen
        flow.destination with
    | none => rejectTcp
    | some listening => offerFlow w flow listening

/-- `Driver::handle_tcp_packet`, once the flow has an entry. -/
def retainPacket (packet : P) : Act P Unit := do
  let pushed ← pushRx packet
  -- a pending packet is never overwritten
  when (!pushed) (count fun stats => { stats with rejectedTcp := stats.rejectedTcp + 1 })

/-- `Driver::handle_tcp_packet`. -/
def handleTcpPacket (packet : P) : Act P Unit :=
  match w.parseTcpFlow packet with
  | none => count fun stats => { stats with invalidPackets := stats.invalidPackets + 1 }
  | some (flow, syn, ack) => do
    let s ← read id
    if flow ∈ s.tcpEntries then retainPacket packet
    else if !syn || ack then pure ()
    else
      let admitted ← admitTcp w flow
      when admitted (retainPacket packet)

/-- An ICMP packet that gets no answer. -/
def dropIcmp : Act P Unit :=
  count fun stats => { stats with icmpDropped := stats.icmpDropped + 1 }

/-- `Driver::handle_icmp_packet`. -/
def handleIcmpPacket (packet : P) : Act P Unit := do
  let empty ← rxIsEmpty
  let full ← txIsFull w
  if !empty || full then dropIcmp
  else if ← pushRx packet then
    poll w
    discardRx
    let replied ← ask w Answers.emits
    count fun stats =>
      if replied then { stats with icmpReplied := stats.icmpReplied + 1 }
      else { stats with icmpDropped := stats.icmpDropped + 1 }
  else dropIcmp

/-- A UDP packet for the UDP endpoint. -/
def offerDatagram (packet : P) : Act P Unit :=
  if w.parseUdpPacket packet then do
    let full ← ask w Answers.udpIsFull
    when full (count fun stats => { stats with droppedUdp := stats.droppedUdp + 1 })
  else count fun stats => { stats with invalidPackets := stats.invalidPackets + 1 }

/-- The UDP arm of `Driver::handle_packet`. -/
def handleUdpPacket (packet : P) : Act P Unit := do
  let hasUdp ← read Stack.hasUdp
  when hasUdp (offerDatagram w packet)

/-- `Driver::handle_packet`, for what is not ICMP. -/
def handleByProtocol (packet : P) : Act P Unit :=
  match w.packetProtocol packet with
  | some .tcp => handleTcpPacket w packet
  | some .udp => handleUdpPacket w packet
  | some .other => pure ()
  | none => count fun stats => { stats with invalidPackets := stats.invalidPackets + 1 }

/-- `Driver::handle_packet`. -/
def handlePacket (packet : P) : Act P Unit := do
  let config ← read Stack.config
  match config.fakeIcmpEcho, w.classifyIcmp packet with
  | true, .dropped => dropIcmp
  | true, .smoltcp => handleIcmpPacket w packet
  | _, _ => handleByProtocol w packet

/-- `stack::RAW_INGRESS_BATCH`. -/
def rawIngressBatch : ℕ := 8

/-- What ends a batch after a packet. -/
def batchEnds : Act P Bool := do
  let cancelled ← isCancelled w
  let full ← txIsFull w
  let empty ← rxIsEmpty
  pure (cancelled || full || !empty)

/-- The loop of `Driver::handle_packet_batch`, with the packets it may
still take: how many it took. -/
def handlePackets : ℕ → P → Act P ℕ
  | 0, _ => pure 0
  | left + 1, packet => do
    if ← isCancelled w then pure 0
    else
      handlePacket w packet
      let empty ← rxIsEmpty
      when (!empty) (poll w)
      let ends ← batchEnds w
      if left == 0 || ends then pure 1
      else
        match ← ask w Answers.nextPacket with
        | none => pure 1
        | some next =>
          let count ← handlePackets left next
          pure (count + 1)

/-- `Driver::handle_packet_batch`. -/
def handlePacketBatch (first : P) : Act P ℕ := handlePackets w rawIngressBatch first

/-! ## A pass over the sockets -/

section

variable (entry : TcpEntry)

/-- `socket.recv(|bytes| app_recv.write(bytes))`. -/
def receiveOnce : Act P ℕ := do
  let front ← ask w Answers.front
  onFlow w entry fun socket stream =>
    if socket.mayRecv then
      let (count, stream) := stream.deliver (socket.readable front)
      (count, socket.dequeue count, stream)
    else (0, socket, stream)

/-- Whether the loop that receives goes on. -/
def canReceive : Act P Bool :=
  onFlow w entry fun socket stream =>
    (socket.canRecv && !stream.handle.appRecv.isFull, socket, stream)

/-- The loop that receives, with as many turns as there are bytes. -/
def receiveLoop : ℕ → Bool → Act P Bool
  | 0, received => pure received
  | turns + 1, received => do
    if ← canReceive w entry then
      if (← receiveOnce w entry) = 0 then pure received
      else receiveLoop turns true
    else pure received

/-- `socket.send(|bytes| app_send.read(bytes))`. -/
def sendOnce : Act P ℕ := do
  let front ← ask w Answers.front
  let space ← ask w Answers.front
  onFlow w entry fun socket stream =>
    if socket.maySend then
      let (bytes, stream) := stream.takeSend front (socket.writable space)
      (bytes.length, socket.enqueue bytes, stream)
    else (0, socket, stream)

/-- Whether the loop that sends goes on. -/
def canTransmit : Act P Bool :=
  onFlow w entry fun socket stream =>
    (socket.canSend && !stream.handle.appSend.isEmpty, socket, stream)

/-- The loop that sends, with as many turns as there is space. -/
def sendLoop : ℕ → Bool → Act P Bool
  | 0, sent => pure sent
  | turns + 1, sent => do
    if ← canTransmit w entry then
      if (← sendOnce w entry) = 0 then pure sent
      else sendLoop turns true
    else pure sent

/-- A look at the socket of a flow. -/
def look {α : Type} (f : Socket → α) : Act P α :=
  onFlow w entry fun socket stream => (f socket, socket, stream)

/-- An access to the stream of a flow. -/
def touch (f : TcpStream → TcpStream) : Act P Unit :=
  onFlow w entry fun socket stream => ((), socket, f stream)

/-- Whether a flag of a flow's stream is raised. -/
def load (flag : Flag) : Act P Bool :=
  onFlow w entry fun socket stream => (stream.has flag, socket, stream)

/-- A pass comes to a stream. -/
def beginTurn : Act P Unit :=
  onFlow w entry fun socket stream =>
    ((), socket, { stream with
      cramped := stream.cramped ||
        (!socket.isActive && decide (stream.handle.appRecv.room < socket.rx.length)) })

/-- Bytes from the socket to the stream. -/
def receive : Act P Unit := do
  let turns ← look w entry fun socket => socket.rx.length
  let received ← receiveLoop w entry (turns + 1) false
  when received (touch w entry TcpStream.wakeRecv)

/-- Bytes from the stream to the socket. -/
def transmit : Act P Unit := do
  let turns ← look w entry fun socket => socket.txCapacity - socket.tx.length
  let sent ← sendLoop w entry (turns + 1) false
  when sent (touch w entry TcpStream.wakeSend)

/-- `half_open.remove`. -/
def leaveHalfOpen (flow : FlowKey) : Act P Unit :=
  update fun s => { s with halfOpen := s.halfOpen.erase flow }

/-- The reading side has ended. -/
def endReading : Act P Unit := do
  touch w entry (·.closeReading .readClosed)
  touch w entry TcpStream.wakeRecv

/-- The writing side has ended. -/
def endWriting : Act P Unit := do
  touch w entry (·.store .writeClosed)
  touch w entry TcpStream.wakeSend

/-- What the state of the socket tells the stream. -/
def reportState (flow : FlowKey) (entry : TcpEntry) : Act P Unit := do
  let past ← look w entry Socket.pastHandshake
  when past (leaveHalfOpen flow)
  let readingDone ← look w entry Socket.readingDone
  when readingDone (endReading w entry)
  let maySend ← look w entry Socket.maySend
  when (past && !maySend) (endWriting w entry)

/-- `socket.abort()`. -/
def abortSocket : Act P Unit :=
  onFlow w entry fun socket stream => ((), socket.abort, stream)

/-- `socket.close()`. -/
def closeSocket : Act P Unit :=
  onFlow w entry fun socket stream =>
    ((), socket.close, { stream with closes := socket.enqueued :: stream.closes })

/-- The stream will write no more: `write_shutdown || dropped`. -/
def isSealed : Act P Bool := do
  if ← load w entry .writeShutdown then pure true
  else load w entry .dropped

/-- Closes the socket of a stream that will write no more, once everything
it wrote is in the socket. -/
def closeIfDrained : Act P Unit := do
  if ← isSealed w entry then
    let drained ← onFlow w entry fun socket stream =>
      (stream.handle.appSend.isEmpty, socket, stream)
    let maySend ← look w entry Socket.maySend
    when (drained && maySend) (closeSocket w entry)
  else pure ()

/-- What the owner of the stream asks of the socket. -/
def obeyOwner : Act P Unit := do
  let dropped ← load w entry .dropped
  let past ← look w entry Socket.pastHandshake
  if dropped && !past then abortSocket w entry
  else closeIfDrained w entry

end

/-- An admitted SYN still waits in the device. -/
def ingressPending (pendingFlow : Option FlowKey) (flow : FlowKey) (entry : TcpEntry) :
    Act P Bool := do
  let listens ← look w entry fun socket => socket.state == .listen
  let dropped ← load w entry .dropped
  let cancelled ← isCancelled w
  pure (listens && pendingFlow == some flow && !dropped && !cancelled)

/-- Whether a flow is over. -/
def isOver (pendingFlow : Option FlowKey) (flow : FlowKey) (entry : TcpEntry) : Act P Bool := do
  -- an aborted socket keeps its remote endpoint until the reset is out
  let resetPending ← look w entry fun socket => socket.state == .closed && socket.remote.isSome
  let pending ← ingressPending w pendingFlow flow entry
  let active ← look w entry Socket.isActive
  pure (!active && !resetPending && !pending)

/-- One turn of the loop of `Driver::drive_tcp_sockets`: whether the flow
is over. -/
def driveSocket (pendingFlow : Option FlowKey) (flow : FlowKey) (entry : TcpEntry) :
    Act P Bool := do
  beginTurn w entry
  receive w entry
  transmit w entry
  reportState w flow entry
  obeyOwner w entry
  isOver w pendingFlow flow entry

/-- The loop of `Driver::drive_tcp_sockets`: the flows that are over. -/
def driveSockets (pendingFlow : Option FlowKey) : List Entry → Act P (List FlowKey)
  | [] => pure []
  | ⟨flow, entry⟩ :: rest => do
    let ended ← driveSocket w pendingFlow flow entry
    let inactive ← driveSockets pendingFlow rest
    pure (if ended then flow :: inactive else inactive)

/-- `handle.socket_closed`, `write_closed` and the wakers of a removed
flow. -/
def closeHandle (handle : ℕ) : Act P Unit := do
  onStream w handle (·.closeReading .socketClosed)
  onStream w handle (·.store .writeClosed)
  onStream w handle TcpStream.wakeRecv
  onStream w handle TcpStream.wakeSend

/-- An entry leaves the table, with its socket. -/
def removeEntry (flow : FlowKey) (entry : TcpEntry) : Act P Unit :=
  update fun s =>
    let stream := s.streams entry.handle
    let arrived := (s.sockets.get entry.socket).map Socket.arrived
    { s.setStream entry.handle { stream with removed := arrived } with
      tcpEntries := s.tcpEntries.erase flow
      sockets := s.sockets.remove entry.socket
      halfOpen := s.halfOpen.erase flow }

/-- Removes a flow that is over. -/
def removeFlow (flow : FlowKey) : Act P Unit := do
  let s ← read id
  match s.tcpEntries.lookup flow with
  | none => pure ()
  | some entry =>
    removeEntry flow entry
    closeHandle w entry.handle

/-- Removes the flows that are over. -/
def removeFlows : List FlowKey → Act P Unit
  | [] => pure ()
  | flow :: rest => do
    removeFlow w flow
    removeFlows rest

/-- The entries in the order in which the table yields them. -/
def entries : Act P (List Entry) := read fun s => w.order s.time s.tcpEntries.entries

/-- `Driver::drive_tcp_sockets`. -/
def driveTcpSockets : Act P Unit := do
  let pending ← read Stack.rx
  let pendingFlow := (pending.bind w.parseTcpFlow).map Prod.fst
  let listed ← entries w
  let inactive ← driveSockets w pendingFlow listed
  removeFlows w inactive
  updateFlowStats

/-- `interface.poll`, while the output has room. -/
def pollUnlessFull : Act P Unit := do
  let full ← txIsFull w
  when (!full) (poll w)

/-- `CancellationToken::cancel`. -/
def cancel : Act P Unit := update fun s => { s with cancelled := true }

/-- `Driver::drive`. -/
def drive : Act P Unit := do
  if ← ask w Answers.outboundIsClosed then cancel
  else
    pollUnlessFull w
    driveTcpSockets w
    pollUnlessFull w

/-! ## Shutdown -/

/-- `TcpStreamHandle::mark_stopped`. -/
def markStopped (handle : ℕ) : Act P Unit := do
  onStream w handle (·.store .stopped)
  onStream w handle (·.store .socketClosed)
  onStream w handle (·.store .readClosed)
  onStream w handle (·.store .writeClosed)
  onStream w handle TcpStream.wakeRecv
  onStream w handle TcpStream.wakeSend

/-- Stops the streams of these entries. -/
def markAllStopped : List Entry → Act P Unit
  | [] => pure ()
  | ⟨_, entry⟩ :: rest => do
    markStopped w entry.handle
    markAllStopped rest

/-- The tables are emptied. -/
def clear : Act P Unit :=
  update fun s => { s with tcpEntries := ∅, halfOpen := ∅, sockets := .new }

/-- `Driver::shutdown`. -/
def shutdown : Act P Unit := do
  cancel
  discardRx
  let listed ← entries w
  markAllStopped w listed
  clear
  updateFlowStats
  update fun s => { s with stopped := true }

/-! ## Runs -/

/-- What happens to a stack. -/
inductive Operation (P : Type) where
  | handlePacketBatch (first : P)
  | drive
  | shutdown
  | interference (other : Interference)

/-- One operation. -/
def perform : Operation P → Act P Unit
  | .handlePacketBatch first => do
    let _ ← handlePacketBatch w first
    pure ()
  | .drive => drive w
  | .shutdown => shutdown w
  | .interference other => update fun s => s.interfere other

/-- A sequence of operations. -/
def run : List (Operation P) → Act P Unit
  | [] => pure ()
  | operation :: rest => do
    perform w operation
    run rest

end Driver

end Vole.Netstack
