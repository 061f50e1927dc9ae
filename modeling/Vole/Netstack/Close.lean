import Vole.Netstack.Bookkeeping

/-!
# The end of a stream

Two promises about the end of a stream, and what they rest on. A read that
returns nothing says that there is nothing more, and it is right unless the
driver closed the reading side between the moment the read found the queue
empty and the moment it looked at the flags, after filling the queue in
between (`late`). And a flow is removed only after everything that arrived
was delivered, unless its socket was inactive with more unread than the
queue had room for (`cramped`). Both things happen.
-/

namespace Vole.Netstack

namespace Driver

variable {P : Type}

/-- A stream after a sequence of operations. -/
def streamAfter (w : World P) (config : NetStackConfig) (hasUdp : Bool)
    (operations : List (Operation P)) (handle : ℕ) : TcpStream :=
  (run w operations (Stack.new config hasUdp)).2.streams handle

theorem inv_of_run (w : World P) (config : NetStackConfig) (hasUdp : Bool)
    (operations : List (Operation P)) :
    Inv w none (run w operations (Stack.new config hasUdp)).2 := by
  obtain ⟨_, -, hready⟩ := (run_ready operations).returns (Ready.new config hasUdp)
  exact hready.1

end Driver

open Driver List

variable {P : Type}

/-! ## A world of one flow -/

/-- One flow, whose socket smoltcp takes from state to state. Nothing is
ever full, and no thread comes between the driver's accesses. -/
def oneFlow (network : Socket → Socket) : World Unit where
  classifyIcmp _ := .notIcmp
  packetProtocol _ := some .tcp
  parseTcpFlow _ := some (⟨⟨.v4 0, 4000⟩, ⟨.v4 0, 443⟩⟩, true, false)
  parseUdpPacket _ := false
  interference _ := []
  network _ _ := network
  answers _ := ⟨false, false, false, false, false, true, false, none, 4096⟩
  order _ entries := entries
  order_perm _ _ := .refl _

/-- The smallest buffers that `NetStackConfig::validate` lets pass. -/
def smallest : NetStackConfig := ⟨4096, 4096, false⟩

/-- The owner begins a call and makes some of its accesses. -/
def owner (call : Call) (accesses : ℕ) : List (Operation Unit) :=
  .interference (.stream 0 (.begin call)) ::
    replicate accesses (.interference (.stream 0 (.access 4096)))

/-! ## The end of file -/

/-- **An end of file comes after the last byte**, on a stream whose reading
side was never closed late: what the driver delivered is what was returned
and what is still queued, and at every end of file nothing was queued. -/
theorem eof_after_last_byte (w : World P) (hlegal : w.Legal) (config : NetStackConfig)
    (hasUdp : Bool) (operations : List (Operation P)) (handle : ℕ) :
    (streamAfter w config hasUdp operations handle).delivered =
        (streamAfter w config hasUdp operations handle).returned ++
          (streamAfter w config hasUdp operations handle).handle.appRecv.bytes ∧
      ((streamAfter w config hasUdp operations handle).late = false →
        ∀ unread ∈ (streamAfter w config hasUdp operations handle).eofs, unread = []) := by
  have hlocal := (inv_of_run w config hasUdp operations).kept handle
  exact ⟨hlocal.received, hlocal.eofs hlegal⟩

/-- The peer's first segment after the handshake has one byte and a FIN. -/
def byteAndFin (socket : Socket) : Socket :=
  match socket.state with
  | .listen => { socket with state := .synReceived }
  | .synReceived => { socket with state := .established }
  | .established => { socket with state := .closeWait, rx := socket.rx ++ [7] }
  | _ => socket

theorem byteAndFin_legal : (oneFlow byteAndFin).Legal := by
  intro _ _ socket h
  show (byteAndFin socket).readingDone = true
  unfold byteAndFin
  cases hstate : socket.state <;> simp_all [Socket.readingDone, Socket.pastHandshake, Socket.mayRecv]

/-- Two reads that begin after the driver has closed the reading side. -/
def readsAfterClose : List (Operation Unit) :=
  [.handlePacketBatch (), .drive, .drive] ++ owner (.pollRead 1) 1 ++ owner (.pollRead 1) 2

/-- The first gets the byte, the second the end of file. -/
theorem eof_after_last_byte_reads :
    (streamAfter (oneFlow byteAndFin) smallest false readsAfterClose 0).eofs = [[]] ∧
      ∀ unread ∈ (streamAfter (oneFlow byteAndFin) smallest false readsAfterClose 0).eofs,
        unread = [] := by
  have hlate : (streamAfter (oneFlow byteAndFin) smallest false readsAfterClose 0).late = false := by
    decide +kernel
  have heofs := (eof_after_last_byte (oneFlow byteAndFin) byteAndFin_legal smallest false
    readsAfterClose 0).2 hlate
  exact ⟨by decide +kernel, heofs⟩

/-- A read that finds the queue empty, and the flag up after a pass of the
driver. -/
def readAcrossClose : List (Operation Unit) :=
  [.handlePacketBatch (), .drive] ++ owner (.pollRead 1) 1 ++
    [.drive, .interference (.stream 0 (.access 4096))]

/-- **A read reports the end of file with a byte in the queue**: between
its two looks the driver delivered the byte and closed the reading side. -/
theorem early_eof :
    (oneFlow byteAndFin).Legal ∧
      (streamAfter (oneFlow byteAndFin) smallest false readAcrossClose 0).eofs = [[7]] ∧
      (streamAfter (oneFlow byteAndFin) smallest false readAcrossClose 0).returned = [] ∧
      (streamAfter (oneFlow byteAndFin) smallest false readAcrossClose 0).owned = true ∧
      (streamAfter (oneFlow byteAndFin) smallest false readAcrossClose 0).has .stopped = false := by
  exact ⟨byteAndFin_legal, by decide +kernel, by decide +kernel, by decide +kernel,
    by decide +kernel⟩

/-! ## Removal -/

/-- **A flow is removed after everything that arrived was delivered**, where
smoltcp meets no reset and no timeout, the owner has not dropped the stream,
and no pass came to it with its socket inactive and more unread than
`app_recv` had room for. -/
theorem removed_after_delivery (w : World P) (horderly : w.Orderly) (config : NetStackConfig)
    (hasUdp : Bool) (operations : List (Operation P)) (handle : ℕ)
    (howned : (streamAfter w config hasUdp operations handle).owned = true)
    (hcramped : (streamAfter w config hasUdp operations handle).cramped = false) :
    ∀ arrived, (streamAfter w config hasUdp operations handle).removed = some arrived →
      (streamAfter w config hasUdp operations handle).delivered = arrived := by
  intro arrived hremoved
  have hsettled := (inv_of_run w config hasUdp operations).settled handle
  exact (hsettled arrived hremoved horderly howned hcramped).symm

/-- The peer acknowledges the FIN, fills the window, and then sends one more
byte with its own FIN. -/
def fillAndFin (socket : Socket) : Socket :=
  match socket.state with
  | .listen => { socket with state := .synReceived }
  | .synReceived => { socket with state := .established }
  | .finWait1 => { socket with state := .finWait2 }
  | .finWait2 =>
    if socket.arrived.isEmpty then
      { socket with
        rx := socket.rx ++ replicate (socket.rxCapacity - socket.rx.length) 7 }
    else
      { socket with
        state := .timeWait
        rx := socket.rx ++ replicate (min 1 (socket.rxCapacity - socket.rx.length)) 7 }
  | _ => socket

theorem fillAndFin_orderly : (oneFlow fillAndFin).Orderly := by
  intro _ _ socket
  show Socket.Orderly socket (fillAndFin socket)
  have hsame : ∀ state : State, state = socket.state ∨ state ∈ socket.state.next →
      Socket.Orderly socket { socket with state := state } := fun state hnext =>
    ⟨hnext, ⟨[], by simp⟩, rfl⟩
  unfold fillAndFin
  split
  · rename_i hstate
    exact hsame _ (by simp [hstate, State.next])
  · rename_i hstate
    exact hsame _ (by simp [hstate, State.next])
  · rename_i hstate
    exact hsame _ (by simp [hstate, State.next])
  · rename_i hstate
    split_ifs
    · exact ⟨Or.inl rfl, ⟨_, rfl, by simp, fun _ => by rw [hstate]; rfl⟩, rfl⟩
    · exact ⟨Or.inr (by simp [hstate, State.next]), ⟨_, rfl, by simp, fun _ => by rw [hstate]; rfl⟩,
        rfl⟩
  · exact hsame _ (Or.inl rfl)

/-- The owner shuts its side down and reads nothing. -/
def shutdownAndWait : List (Operation Unit) :=
  [.handlePacketBatch (), .drive] ++ owner .pollShutdown 2 ++ [.drive, .drive, .drive]

/-- The owner shuts its side down and reads what has come before the last
pass. -/
def shutdownAndRead : List (Operation Unit) :=
  [.handlePacketBatch (), .drive] ++ owner .pollShutdown 2 ++ [.drive, .drive] ++
    owner (.pollRead 4096) 1 ++ [.drive]

/-- All 2049 bytes are delivered to an owner that reads. -/
theorem removed_after_delivery_reads :
    (streamAfter (oneFlow fillAndFin) smallest false shutdownAndRead 0).removed.map length =
        some 2049 ∧
      ∀ arrived, (streamAfter (oneFlow fillAndFin) smallest false shutdownAndRead 0).removed =
          some arrived →
        (streamAfter (oneFlow fillAndFin) smallest false shutdownAndRead 0).delivered = arrived := by
  have howned : (streamAfter (oneFlow fillAndFin) smallest false shutdownAndRead 0).owned = true := by
    decide +kernel
  have hcramped :
      (streamAfter (oneFlow fillAndFin) smallest false shutdownAndRead 0).cramped = false := by
    decide +kernel
  exact ⟨by decide +kernel, removed_after_delivery (oneFlow fillAndFin) fillAndFin_orderly smallest
    false shutdownAndRead 0 howned hcramped⟩

/-- **A flow is removed with a byte unread**: `app_recv` was full when the
peer's FIN took the socket from `FIN-WAIT-2` to `TIME-WAIT`. -/
theorem unread_byte_lost :
    (oneFlow fillAndFin).Orderly ∧
      ((streamAfter (oneFlow fillAndFin) smallest false shutdownAndWait 0).removed.map
        length) = some 2049 ∧
      (streamAfter (oneFlow fillAndFin) smallest false shutdownAndWait 0).delivered.length = 2048 ∧
      (streamAfter (oneFlow fillAndFin) smallest false shutdownAndWait 0).owned = true ∧
      (streamAfter (oneFlow fillAndFin) smallest false shutdownAndWait 0).has .stopped = false := by
  exact ⟨fillAndFin_orderly, by decide +kernel, by decide +kernel, by decide +kernel,
    by decide +kernel⟩

end Vole.Netstack
