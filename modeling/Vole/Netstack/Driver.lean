import Vole.Netstack.Model.Stack
import Vole.Netstack.Stream

/-!
# What the driver keeps

`Inv` holds between any two accesses of the driver, but for the moments in
which an entry is on its way in or out of the tables: the tables agree
with each other, and every stream and its socket are as `Local` and `Link`
say. `At` adds what the driver knows in the middle of a turn about the
socket it looks at and its stream; what it knows has to be stable under
the owner's accesses. The specification of a turn is put together from
those of its accesses.
-/

namespace Vole.Netstack

open List Function Option

/-! ## The socket set -/

namespace SocketSet

variable (set : SocketSet)

theorem get_set {handle : ℕ} (hlt : handle < set.slots.length) (slot : Option Socket) (other : ℕ) :
    (⟨set.slots.set handle slot⟩ : SocketSet).get other =
      if other = handle then slot else set.get other := by
  unfold get
  by_cases heq : other = handle
  · subst heq
    simp [hlt]
  · simp [heq, Ne.symm heq]

theorem get_put {handle : ℕ} (h : (set.get handle).isSome) (socket : Socket) (other : ℕ) :
    (set.put handle socket).get other = if other = handle then some socket else set.get other := by
  refine set.get_set ?_ (some socket) other
  by_contra hge
  simp [get, getElem?_eq_none (by omega : set.slots.length ≤ handle)] at h

theorem get_remove (handle other : ℕ) :
    (set.remove handle).get other = if other = handle then none else set.get other := by
  unfold remove get
  by_cases heq : other = handle
  · subst heq
    by_cases hlt : other < set.slots.length <;> simp [hlt]
  · simp [heq, Ne.symm heq]

theorem get_poll (network : ℕ → Socket → Socket) (handle : ℕ) :
    (set.poll network).get handle =
      (set.get handle).map fun socket => socket.polled (network handle socket) := by
  unfold poll get
  rw [getElem?_mapIdx]
  rcases set.slots[handle]? with _ | _ | socket <;> rfl

theorem slot_of_findIdx {handle : ℕ} (h : set.slots.findIdx? isNone = some handle) :
    handle < set.slots.length ∧ set.get handle = none := by
  obtain ⟨hlt, hnone, -⟩ := findIdx?_eq_some_iff_getElem.mp h
  refine ⟨hlt, ?_⟩
  unfold get
  rw [getElem?_eq_getElem hlt, isNone_iff_eq_none.mp hnone]
  rfl

/-- A new socket takes a slot that is free. -/
theorem get_add_fst (socket : Socket) : set.get (set.add socket).1 = none := by
  unfold add
  split
  · rename_i handle hfree
    exact (set.slot_of_findIdx hfree).2
  · simp [get]

/-- And the others stay where they are. -/
theorem get_add (socket : Socket) (other : ℕ) :
    (set.add socket).2.get other =
      if other = (set.add socket).1 then some socket else set.get other := by
  unfold add
  split
  · rename_i handle hfree
    exact set.get_set (set.slot_of_findIdx hfree).1 (some socket) other
  unfold get
  by_cases heq : other = set.slots.length
  · simp [heq]
  · rw [if_neg heq]
    by_cases hlt : other < set.slots.length
    · rw [getElem?_append_left hlt]
    · rw [getElem?_append_right (by omega), getElem?_eq_none (by simp; omega),
        getElem?_eq_none (by omega)]

end SocketSet

/-! ## The world's part -/

namespace World

variable {P : Type} (w : World P)

/-- smoltcp: a socket from which nothing more can be read stays one. -/
def Legal : Prop :=
  ∀ time handle socket, socket.readingDone = true →
    (w.network time handle socket).readingDone = true

end World

/-- The states to which a segment that is no reset, or the
acknowledgement of a FIN, can take a socket. -/
def State.next : State → List State
  | .listen => [.synReceived]
  | .synReceived => [.established, .closeWait]
  | .established => [.closeWait]
  | .finWait1 => [.finWait2, .closing, .timeWait]
  | .finWait2 => [.timeWait]
  | .closing => [.timeWait]
  | .lastAck => [.closed]
  | .closed | .synSent | .closeWait | .timeWait => []

/-- The peer may still send. -/
def State.receives : State → Bool
  | .synReceived | .established | .finWait1 | .finWait2 => true
  | _ => false

/-- **An orderly poll**: at most one transition, no reset and no timeout;
the receive buffer keeps what is unread, and what joins it fits and comes
before the peer's FIN. -/
structure Socket.Orderly (socket next : Socket) : Prop where
  state : next.state = socket.state ∨ next.state ∈ socket.state.next
  rx : ∃ new, next.rx = socket.rx ++ new ∧ new.length ≤ socket.rxCapacity - socket.rx.length ∧
    (new ≠ [] → socket.state.receives = true)
  capacity : next.rxCapacity = socket.rxCapacity

namespace World

variable {P : Type} (w : World P)

/-- smoltcp meets no reset and no timeout. -/
def Orderly : Prop := ∀ time handle socket, Socket.Orderly socket (w.network time handle socket)

end World

/-! ## The invariant -/

variable {P : Type}

/-- **The tables agree.** Each entry has its own socket and its own stream,
which was put on the accept queue, and there are no other sockets. -/
structure Tables (s : Stack P) : Prop where
  socket_of_entry : ∀ flow entry, s.tcpEntries.lookup flow = some entry →
    (s.sockets.get entry.socket).isSome
  entry_of_socket : ∀ handle, (s.sockets.get handle).isSome →
    ∃ flow entry, s.tcpEntries.lookup flow = some entry ∧ entry.socket = handle
  socket_inj : ∀ flow flow' entry entry', s.tcpEntries.lookup flow = some entry →
    s.tcpEntries.lookup flow' = some entry' → entry.socket = entry'.socket → flow = flow'
  handle_inj : ∀ flow flow' entry entry', s.tcpEntries.lookup flow = some entry →
    s.tcpEntries.lookup flow' = some entry' → entry.handle = entry'.handle → flow = flow'
  halfOpen : ∀ flow ∈ s.halfOpen, flow ∈ s.tcpEntries
  accepted : ∀ flow entry, s.tcpEntries.lookup flow = some entry →
    (flow, entry.handle) ∈ s.accepts
  nodup : (s.accepts.map Prod.snd).Nodup
  allocated : ∀ flow handle, (flow, handle) ∈ s.accepts → handle < s.allocated

/-- **What holds of the streams** and of those that were accepted: their
flow has its entry still, or their socket is closed, but for one that is
leaving. -/
structure Streams (w : World P) (leaving : Option ℕ) (s : Stack P) : Prop where
  tables : Tables s
  closed : ∀ flow handle, (flow, handle) ∈ s.accepts →
    (∃ entry, s.tcpEntries.lookup flow = some entry ∧ entry.handle = handle) ∨
      (s.streams handle).has .socketClosed = true ∨ leaving = some handle
  kept : ∀ handle, (s.streams handle).Local w.Legal
  settled : ∀ handle, (s.streams handle).Settled w.Orderly

/-- **The invariant of the driver.** -/
structure Inv (w : World P) (leaving : Option ℕ) (s : Stack P) : Prop
    extends Streams w leaving s where
  link : ∀ flow entry socket, s.tcpEntries.lookup flow = some entry →
    s.sockets.get entry.socket = some socket →
    Link w.Legal w.Orderly socket (s.streams entry.handle)

variable {w : World P} {leaving : Option ℕ} {s t : Stack P}

/-- The tables do not depend on the contents of the sockets. -/
theorem Tables.congr (h : Tables s) (hentries : t.tcpEntries = s.tcpEntries)
    (hhalfOpen : t.halfOpen ⊆ s.halfOpen) (haccepts : t.accepts = s.accepts)
    (hallocated : t.allocated = s.allocated)
    (hsockets : ∀ handle, (t.sockets.get handle).isSome = (s.sockets.get handle).isSome) :
    Tables t where
  socket_of_entry := by
    rw [hentries]
    exact fun flow entry hlookup => (hsockets _).trans (h.socket_of_entry flow entry hlookup)
  entry_of_socket := by
    rw [hentries]
    exact fun handle hsome => h.entry_of_socket handle ((hsockets _).symm.trans hsome)
  socket_inj := by rw [hentries]; exact h.socket_inj
  handle_inj := by rw [hentries]; exact h.handle_inj
  halfOpen := by
    rw [hentries]
    exact fun flow hflow => h.halfOpen flow (hhalfOpen hflow)
  accepted := by rw [hentries, haccepts]; exact h.accepted
  nodup := by rw [haccepts]; exact h.nodup
  allocated := by rw [haccepts, hallocated]; exact h.allocated

theorem setStream_streams (s : Stack P) (handle : ℕ) (stream : TcpStream) (k : ℕ) :
    (s.setStream handle stream).streams k = if k = handle then stream else s.streams k := by
  show update s.streams handle stream k = _
  by_cases hk : k = handle
  · subst hk
    simp
  · simp [hk]

/-- **A stream goes on.** -/
theorem Streams.setStream (h : Streams w leaving s) {handle : ℕ} {stream : TcpStream}
    (hlocal : stream.Local w.Legal) (hsettled : stream.Settled w.Orderly)
    (hlater : (s.streams handle).Later stream) : Streams w leaving (s.setStream handle stream) where
  tables := h.tables.congr rfl (fun _ hmem => hmem) rfl rfl fun _ => rfl
  closed := by
    intro flow k hmem
    refine (h.closed flow k hmem).imp_right fun hclosed => hclosed.imp_left fun hraised => ?_
    rw [setStream_streams]
    split_ifs with hk
    · rw [hk] at hraised
      exact hlater.flags _ hraised
    · exact hraised
  kept := by
    intro k
    rw [setStream_streams]
    split_ifs
    · exact hlocal
    · exact h.kept k
  settled := by
    intro k
    rw [setStream_streams]
    split_ifs
    · exact hsettled
    · exact h.settled k

/-- The sockets change, and the same ones exist. -/
theorem Streams.setSockets (h : Streams w leaving s) {sockets : SocketSet}
    (hsockets : ∀ handle, (sockets.get handle).isSome = (s.sockets.get handle).isSome) :
    Streams w leaving { s with sockets } :=
  { h with tables := h.tables.congr rfl (fun _ hmem => hmem) rfl rfl hsockets }

/-- **A step of another thread keeps the streams.** -/
theorem Streams.interfere (h : Streams w leaving s) (other : Interference) :
    Streams w leaving (s.interfere other) := by
  cases other with
  | cancel => exact { h with tables := { h.tables with } }
  | stream handle step =>
    exact h.setStream ((h.kept handle).step step) ((h.settled handle).step (h.kept handle) step)
      (.step (h.kept handle) step)

/-- **A step of another thread keeps the invariant.** -/
theorem Inv.interfere (h : Inv w leaving s) (other : Interference) :
    Inv w leaving (s.interfere other) := by
  refine ⟨h.toStreams.interfere other, ?_⟩
  cases other with
  | cancel => exact h.link
  | stream handle step =>
    intro flow entry socket hlookup hsocket
    have hlink := h.link flow entry socket hlookup hsocket
    show Link _ _ _ ((s.setStream handle _).streams entry.handle)
    rw [setStream_streams]
    split_ifs with hk
    · rw [← hk]
      exact hlink.step (h.kept entry.handle) step
    · exact hlink

/-- **An access of the driver** to a stream and its socket keeps the
invariant, where it keeps the two and their tie. -/
theorem Inv.access (h : Inv w leaving s) {flow : FlowKey} {entry : TcpEntry}
    {socket next : Socket} {stream : TcpStream} (hlookup : s.tcpEntries.lookup flow = some entry)
    (hsocket : s.sockets.get entry.socket = some socket)
    (hlink : Link w.Legal w.Orderly next stream) (hlocal : stream.Local w.Legal)
    (hlater : (s.streams entry.handle).Later stream) :
    Inv w leaving { s.setStream entry.handle stream with
      sockets := s.sockets.put entry.socket next } := by
  have hsome : (s.sockets.get entry.socket).isSome := by rw [hsocket]; rfl
  have hstream := h.toStreams.setStream hlocal (.of_present hlink.present) hlater
  refine ⟨hstream.setSockets fun k => ?_, fun flow' entry' socket' hlookup' hsocket' => ?_⟩
  · rw [SocketSet.get_put _ hsome]
    split_ifs with hk
    · show true = (s.sockets.get k).isSome
      rw [hk, hsome]
    · rfl
  rw [SocketSet.get_put _ hsome] at hsocket'
  rw [setStream_streams]
  by_cases hflow : flow' = flow
  · subst hflow
    obtain rfl : entry' = entry := some.inj (hlookup'.symm.trans hlookup)
    rw [if_pos rfl] at hsocket' ⊢
    rw [← some.inj hsocket']
    exact hlink
  · have hslot : entry'.socket ≠ entry.socket := fun heq =>
      hflow (h.tables.socket_inj flow' flow entry' entry hlookup' hlookup heq)
    have hhandle : entry'.handle ≠ entry.handle := fun heq =>
      hflow (h.tables.handle_inj flow' flow entry' entry hlookup' hlookup heq)
    rw [if_neg hslot] at hsocket'
    rw [if_neg hhandle]
    exact h.link flow' entry' socket' hlookup' hsocket'

/-! ## What the other threads keep -/

/-- **Kept by the other threads**, whatever they do. -/
structure Shared (w : World P) (B : Stack P → Prop) : Prop where
  interfere : ∀ s other, B s → B (s.interfere other)
  tick : ∀ s, B s → B s.tick

theorem Shared.streams : Shared w (Streams w leaving) :=
  ⟨fun _ other h => h.interfere other, fun _ h => { h with tables := { h.tables with } }⟩

theorem Shared.inv : Shared w (Inv w leaving) :=
  ⟨fun _ other h => h.interfere other, fun _ h => { h with tables := { h.tables with } }⟩

namespace Driver

variable {α : Type} {B : Stack P → Prop}

/-- **The other threads may take their steps.** -/
theorem yield_keeps (hB : Shared w B) : Proc.Keeps B (yield w) := by
  refine .update fun s h => hB.tick _ ?_
  generalize w.interference s.time = others
  induction others generalizing s with
  | nil => exact h
  | cons other rest ih => exact ih _ (hB.interfere s other h)

theorem ask_keeps (hB : Shared w B) (answer : Answers P → α) : Proc.Keeps B (ask w answer) :=
  .bind (.read _) fun _ => .bind (.update hB.tick) fun _ => .pure _

theorem isCancelled_keeps (hB : Shared w B) : Proc.Keeps B (isCancelled w) :=
  .bind (yield_keeps hB) fun _ => .read _

end Driver

/-! ## What the driver knows in a turn -/

section Knowledge

/-- What the driver knows of a socket and its stream outlasts the owner's
accesses. -/
def Stable (legal : Prop) (φ : Socket → TcpStream → Prop) : Prop :=
  ∀ socket stream step, stream.Local legal → φ socket stream → φ socket (stream.step step)

/-- What the driver knows beside the flow it is at outlasts the turn. -/
structure Frame (w : World P) (flow : FlowKey) (entry : TcpEntry) (F : Stack P → Prop) : Prop where
  interfere : ∀ s other, Inv w none s → F s → F (s.interfere other)
  tick : ∀ s, F s → F s.tick
  access : ∀ s socket stream, Inv w none s → s.tcpEntries.lookup flow = some entry →
    (s.streams entry.handle).Later stream → F s →
    F { s.setStream entry.handle stream with sockets := s.sockets.put entry.socket socket }
  leaveHalfOpen : ∀ s, F s → F { s with halfOpen := s.halfOpen.erase flow }

/-- **In a turn**: the invariant, the entry, what holds beside it, and what
the driver knows of its socket and its stream. -/
structure At (w : World P) (flow : FlowKey) (entry : TcpEntry) (F : Stack P → Prop)
    (φ : Socket → TcpStream → Prop) (s : Stack P) : Prop where
  inv : Inv w none s
  lookup : s.tcpEntries.lookup flow = some entry
  frame : F s
  known : ∃ socket, s.sockets.get entry.socket = some socket ∧ φ socket (s.streams entry.handle)

variable {legal : Prop} {φ ψ : Socket → TcpStream → Prop}

theorem Stable.top : Stable legal fun _ _ => True := fun _ _ _ _ _ => trivial

theorem Stable.ofSocket (p : Socket → Prop) : Stable legal fun socket _ => p socket :=
  fun _ _ _ _ h => h

theorem Stable.and (hφ : Stable legal φ) (hψ : Stable legal ψ) :
    Stable legal fun socket stream => φ socket stream ∧ ψ socket stream :=
  fun socket stream step hlocal h =>
    ⟨hφ socket stream step hlocal h.1, hψ socket stream step hlocal h.2⟩

/-- A raised flag stays raised. -/
theorem Stable.raised (flag : Flag) (p : Prop) :
    Stable legal fun _ stream => p → stream.has flag = true :=
  fun _ _ step _ h hp => TcpStream.has_step (h hp) step

theorem TcpStream.Sealed.step {stream : TcpStream} (h : stream.Sealed) (step : TcpStream.Step) :
    (stream.step step).Sealed :=
  h.imp (TcpStream.has_step · step) (TcpStream.has_step · step)

theorem Stable.sealed (p : Prop) : Stable legal fun _ stream => p → stream.Sealed :=
  fun _ _ step _ h hp => (h hp).step step

/-- A sealed stream that is drained stays drained. -/
theorem Stable.drained (p : Prop) :
    Stable legal fun _ stream =>
      stream.Sealed ∧ (p → stream.handle.appSend.bytes = []) := by
  intro _ stream step hlocal ⟨hsealed, hdrained⟩
  obtain ⟨-, -, -, added, -, happSend, hadded⟩ := TcpStream.step_queues hlocal step
  refine ⟨hsealed.step step, fun hp => ?_⟩
  rw [happSend, hadded hsealed, hdrained hp, append_nil]

end Knowledge

section At

variable {flow : FlowKey} {entry : TcpEntry} {F : Stack P → Prop}
  {φ : Socket → TcpStream → Prop}

/-- What the driver knows in a turn outlasts the other threads' steps. -/
theorem At.shared (hφ : Stable w.Legal φ) (hF : Frame w flow entry F) :
    Shared w (At w flow entry F φ) where
  interfere := by
    intro s other h
    refine ⟨h.inv.interfere other, ?_, hF.interfere s other h.inv h.frame, ?_⟩
    · cases other <;> exact h.lookup
    obtain ⟨socket, hsocket, hknown⟩ := h.known
    cases other with
    | cancel => exact ⟨socket, hsocket, hknown⟩
    | stream handle step =>
      refine ⟨socket, hsocket, ?_⟩
      show φ socket ((s.setStream handle ((s.streams handle).step step)).streams entry.handle)
      rw [setStream_streams]
      split_ifs with heq
      · rw [← heq]
        exact hφ socket _ step (h.inv.kept entry.handle) hknown
      · exact hknown
  tick := fun s h =>
    ⟨{ h.inv with tables := { h.inv.tables with } }, h.lookup, hF.tick s h.frame, h.known⟩

/-- What the driver knows may be forgotten. -/
theorem At.imp {ψ : Socket → TcpStream → Prop} (h : At w flow entry F φ s)
    (himp : ∀ socket stream, φ socket stream → ψ socket stream) : At w flow entry F ψ s := by
  obtain ⟨socket, hsocket, hknown⟩ := h.known
  exact ⟨h.inv, h.lookup, h.frame, socket, hsocket, himp _ _ hknown⟩

end At

namespace Driver

variable {flow : FlowKey} {entry : TcpEntry} {F : Stack P → Prop}
  {φ : Socket → TcpStream → Prop} {α : Type}

/-- **An access of the driver** keeps what it knows, where it keeps the
stream, the tie to its socket, and what never goes back. -/
theorem onFlow_at {ψ : α → Socket → TcpStream → Prop}
    {f : Socket → TcpStream → α × Socket × TcpStream} (hφ : Stable w.Legal φ)
    (hF : Frame w flow entry F)
    (hf : ∀ socket stream, Link w.Legal w.Orderly socket stream → stream.Local w.Legal →
      φ socket stream →
      Link w.Legal w.Orderly (f socket stream).2.1 (f socket stream).2.2 ∧
        (f socket stream).2.2.Local w.Legal ∧ stream.Later (f socket stream).2.2 ∧
        ψ (f socket stream).1 (f socket stream).2.1 (f socket stream).2.2) :
    Proc.Ensures (At w flow entry F φ) (onFlow w entry f) (fun a => At w flow entry F (ψ a))
      (fun _ => False) := by
  refine Proc.Ensures.bind (yield_keeps (At.shared hφ hF)) fun _ s h => ?_
  obtain ⟨socket, hsocket, hknown⟩ := h.known
  obtain ⟨hlink, hlocal, hlater, hafter⟩ :=
    hf socket (s.streams entry.handle) (h.inv.link flow entry socket h.lookup hsocket)
      (h.inv.kept entry.handle) hknown
  have hsome : (s.sockets.get entry.socket).isSome := by rw [hsocket]; rfl
  simp only [atFlow, hsocket]
  refine ⟨fun a ha => ?_, nofun⟩
  cases ha
  refine ⟨h.inv.access h.lookup hsocket hlink hlocal hlater, h.lookup,
    hF.access s _ _ h.inv h.lookup hlater h.frame, (f socket (s.streams entry.handle)).2.1, ?_, ?_⟩
  · rw [SocketSet.get_put _ hsome, if_pos rfl]
  · show ψ _ _ (update s.streams entry.handle _ entry.handle)
    rw [update_self]
    exact hafter

end Driver

end Vole.Netstack
