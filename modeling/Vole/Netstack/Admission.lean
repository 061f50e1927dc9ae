import Vole.Common.Table
import Vole.Netstack.Driver

/-!
# Packets and admission

Between two operations the driver is at rest (`Ready`): the invariant
holds, the counters are those of the tables, and a driver that stopped is
cancelled and has no flows. Every packet leaves it so. Between the moment
a socket is added and the moment its flow has an entry the tables do not
agree (`Offered`), whatever the other threads do meanwhile.
-/

namespace Vole.Netstack

open Option List Proc SocketSet

variable {P : Type} {w : World P} {leaving : Option ℕ} {s t : Stack P}

/-! ## Streams that go on -/

/-- **Nothing but the streams has changed**, and they only went on; the
stack may have been cancelled. -/
structure Goes (s t : Stack P) : Prop where
  tcpEntries : t.tcpEntries = s.tcpEntries
  sockets : t.sockets = s.sockets
  halfOpen : t.halfOpen = s.halfOpen
  stats : t.stats = s.stats
  stopped : t.stopped = s.stopped
  cancelled : s.cancelled = true → t.cancelled = true
  later : ∀ handle, (s.streams handle).Later (t.streams handle)

theorem Goes.setStream {handle : ℕ} {stream : TcpStream}
    (h : (s.streams handle).Later stream) : Goes s (s.setStream handle stream) := by
  refine ⟨rfl, rfl, rfl, rfl, rfl, id, fun k => ?_⟩
  rw [setStream_streams]
  split_ifs with hk
  · rw [hk]
    exact h
  · exact .refl _

theorem Goes.interfere (h : Streams w leaving s) (other : Interference) :
    Goes s (s.interfere other) := by
  cases other with
  | cancel => exact ⟨rfl, rfl, rfl, rfl, rfl, fun _ => rfl, fun _ => .refl _⟩
  | stream handle step => exact .setStream (.step (h.kept handle) step)

theorem Goes.tick (s : Stack P) : Goes s s.tick :=
  ⟨rfl, rfl, rfl, rfl, rfl, id, fun _ => .refl _⟩

/-- What outlasts the streams' going on. -/
def Lasting (G : Stack P → Prop) : Prop := ∀ s t, Goes s t → G s → G t

section Lasting

variable {G H : Stack P → Prop}

theorem Lasting.and (hG : Lasting G) (hH : Lasting H) : Lasting fun s => G s ∧ H s :=
  fun s t hgoes h => ⟨hG s t hgoes h.1, hH s t hgoes h.2⟩

theorem Lasting.raised (handle : ℕ) (flag : Flag) :
    Lasting fun s : Stack P => (s.streams handle).has flag = true :=
  fun _ _ hgoes h => (hgoes.later handle).flags flag h

theorem Lasting.entries (table : AList fun _ : FlowKey => TcpEntry) :
    Lasting fun s : Stack P => s.tcpEntries = table :=
  fun _ _ hgoes h => hgoes.tcpEntries.trans h

theorem Lasting.cancelled : Lasting fun s : Stack P => s.cancelled = true :=
  fun _ _ hgoes h => hgoes.cancelled h

theorem Shared.and {B : Stack P → Prop} (hB : Shared w B)
    (hstreams : ∀ s, B s → Streams w leaving s) (hG : Lasting G) : Shared w fun s => B s ∧ G s where
  interfere s other h := ⟨hB.interfere s other h.1, hG s _ (.interfere (hstreams s h.1) other) h.2⟩
  tick s h := ⟨hB.tick s h.1, hG s _ (.tick s) h.2⟩

end Lasting

/-! ## The driver at rest -/

/-- The counters are those of the tables. -/
def Counted (s : Stack P) : Prop :=
  s.stats.activeTcp = s.tcpEntries.entries.length ∧ s.stats.halfOpenTcp = s.halfOpen.card

/-- A stack that has stopped is cancelled and has no flows. -/
def Halted (s : Stack P) : Prop :=
  s.stopped = true → s.cancelled = true ∧ s.tcpEntries = ∅

theorem Counted.lasting : Lasting (Counted (P := P)) := by
  intro s t h hs
  unfold Counted
  rw [h.stats, h.tcpEntries, h.halfOpen]
  exact hs

theorem Halted.lasting : Lasting (Halted (P := P)) := by
  intro s t h hs hstopped
  rw [h.stopped] at hstopped
  rw [h.tcpEntries]
  exact ⟨h.cancelled (hs hstopped).1, (hs hstopped).2⟩

/-- **The driver is at rest.** -/
def Ready (w : World P) (s : Stack P) : Prop := Inv w none s ∧ Counted s ∧ Halted s

/-- The driver is at rest and has not stopped. -/
def Running (w : World P) (s : Stack P) : Prop :=
  Inv w none s ∧ Counted s ∧ s.stopped = false

theorem Running.ready (h : Running w s) : Ready w s :=
  ⟨h.1, h.2.1, fun hstopped => by rw [h.2.2] at hstopped; cases hstopped⟩

/-- A stack that is not cancelled has not stopped. -/
theorem Ready.running (h : Ready w s) (hcancelled : s.cancelled = false) : Running w s := by
  refine ⟨h.1, h.2.1, ?_⟩
  by_contra hstopped
  have hset := (h.2.2 (by simpa using hstopped)).1
  rw [hcancelled] at hset
  cases hset

theorem Lasting.running : Lasting fun s : Stack P => s.stopped = false :=
  fun _ _ hgoes h => hgoes.stopped.trans h

theorem Ready.shared : Shared w (Ready w) :=
  .and .inv (fun _ h => h.toStreams) (Counted.lasting.and Halted.lasting)

theorem Running.shared : Shared w (Running w) :=
  .and .inv (fun _ h => h.toStreams) (Counted.lasting.and Lasting.running)

section

variable (h : Inv w leaving s)

include h

/-- Only which socket is where matters. -/
theorem Inv.setSockets {sockets : SocketSet}
    (hsockets : ∀ handle, sockets.get handle = s.sockets.get handle) :
    Inv w leaving { s with sockets } :=
  ⟨h.toStreams.setSockets fun handle => by rw [hsockets],
    fun flow entry socket hlookup hsocket =>
      h.link flow entry socket hlookup ((hsockets _).symm.trans hsocket)⟩

/-- **A poll** keeps the invariant: smoltcp adds and removes no socket. -/
theorem Inv.poll (time : ℕ) :
    Inv w leaving { s with sockets := s.sockets.poll (w.network time) } := by
  refine ⟨h.toStreams.setSockets fun handle => ?_, fun flow entry socket hlookup hsocket => ?_⟩
  · rw [get_poll, isSome_map]
  rw [get_poll, map_eq_some_iff] at hsocket
  obtain ⟨before, hbefore, rfl⟩ := hsocket
  refine (h.link flow entry before hlookup hbefore).polled (fun hlegal => hlegal _ _ _)
    fun horderly => ?_
  obtain ⟨new, hnew, -⟩ := (horderly time entry.socket before).rx
  exact ⟨new, hnew⟩

/-- The pending packet is no matter of the tables. -/
theorem Inv.setRx (rx : Option P) : Inv w leaving { s with rx } :=
  { h with tables := { h.tables with } }

theorem Inv.setStats (stats : Counters) : Inv w leaving { s with stats } :=
  { h with tables := { h.tables with } }

end

/-! ## Admission -/

namespace TcpStream

variable {legal orderly : Prop}

theorem Local.new (handle : TcpStreamHandle) (hrecv : handle.appRecv.bytes = [])
    (hflags : ∀ flag, handle.flags flag = false) : (TcpStream.new handle).Local legal where
  received := by
    show [] = [] ++ handle.appRecv.bytes
    rw [hrecv]
    rfl
  owner := fun _ => Or.inl nofun
  orphan := nofun
  chain := .nil
  dropped := fun hraised => by
    rw [show (TcpStream.new handle).has .dropped = false from hflags _] at hraised
    cases hraised
  shutdown := fun _ => rfl
  closes := nofun
  window := nofun
  eofs := nofun

end TcpStream

/-- The stream of a listening socket. -/
theorem Link.listening {legal orderly : Prop} {socket : Socket} (recvCapacity sendCapacity : ℕ)
    (hrx : socket.rx = []) (harrived : socket.arrived = []) (henqueued : socket.enqueued = []) :
    Link legal orderly socket (.new (.new recvCapacity sendCapacity)) where
  sent := by
    rw [henqueued]
    rfl
  connected := rfl
  running := rfl
  present := rfl
  received := fun _ => by
    rw [harrived, hrx]
    rfl
  reading := nofun

/-- An entry of a table with a new one is the new one, or was there. -/
theorem lookup_insert_cases {table : AList fun _ : FlowKey => TcpEntry} {flow flow' : FlowKey}
    {new entry : TcpEntry} (h : (table.insert flow new).lookup flow' = some entry) :
    (flow' = flow ∧ entry = new) ∨ (flow' ≠ flow ∧ table.lookup flow' = some entry) := by
  rw [Table.lookup_insert_apply] at h
  split_ifs at h with hflow
  · exact Or.inl ⟨hflow, (some.inj h).symm⟩
  · exact Or.inr ⟨hflow, h⟩

section Admission

variable {set : SocketSet} {listening : Socket} {flow : FlowKey}

/-- The entries that were there have other sockets and other streams. -/
theorem Tables.apart (h : Tables { s with sockets := set }) (listening : Socket) {flow' : FlowKey}
    {entry : TcpEntry} (hlookup : s.tcpEntries.lookup flow' = some entry) :
    entry.socket ≠ (set.add listening).1 ∧ entry.handle ≠ s.allocated := by
  have hsome : (set.get entry.socket).isSome := h.socket_of_entry flow' entry hlookup
  have hlt : entry.handle < s.allocated := h.allocated _ _ (h.accepted flow' entry hlookup)
  refine ⟨fun heq => ?_, by omega⟩
  rw [heq, get_add_fst] at hsome
  cases hsome

/-- **A flow enters the tables**, with a socket that was just added. -/
theorem Tables.enter (h : Tables { s with sockets := set })
    (hsockets : s.sockets = (set.add listening).2) (hfresh : s.tcpEntries.lookup flow = none) :
    Tables (Driver.enterFlow flow (set.add listening).1 s).2 where
  socket_of_entry := by
    intro flow' entry hlookup
    show (s.sockets.get entry.socket).isSome
    rw [hsockets, get_add]
    rcases lookup_insert_cases hlookup with ⟨-, rfl⟩ | ⟨-, hlookup⟩
    · rw [if_pos rfl]
      rfl
    · rw [if_neg (h.apart listening hlookup).1]
      exact h.socket_of_entry flow' entry hlookup
  entry_of_socket := by
    intro handle hsome
    have hget : ((set.add listening).2.get handle).isSome := hsockets ▸ hsome
    rw [get_add] at hget
    by_cases hnew : handle = (set.add listening).1
    · exact ⟨flow, _, AList.lookup_insert _, hnew.symm⟩
    rw [if_neg hnew] at hget
    obtain ⟨flow', entry, hlookup, hhandle⟩ := h.entry_of_socket handle hget
    refine ⟨flow', entry, ?_, hhandle⟩
    refine (AList.lookup_insert_ne fun heq => ?_).trans hlookup
    rw [heq] at hlookup
    cases hfresh.symm.trans hlookup
  socket_inj := by
    intro flow₁ flow₂ entry₁ entry₂ hlookup₁ hlookup₂ heq
    rcases lookup_insert_cases hlookup₁ with ⟨rfl, rfl⟩ | ⟨-, hbefore₁⟩ <;>
      rcases lookup_insert_cases hlookup₂ with ⟨rfl, rfl⟩ | ⟨-, hbefore₂⟩
    · rfl
    · exact absurd heq.symm (h.apart listening hbefore₂).1
    · exact absurd heq (h.apart listening hbefore₁).1
    · exact h.socket_inj flow₁ flow₂ entry₁ entry₂ hbefore₁ hbefore₂ heq
  handle_inj := by
    intro flow₁ flow₂ entry₁ entry₂ hlookup₁ hlookup₂ heq
    rcases lookup_insert_cases hlookup₁ with ⟨rfl, rfl⟩ | ⟨-, hbefore₁⟩ <;>
      rcases lookup_insert_cases hlookup₂ with ⟨rfl, rfl⟩ | ⟨-, hbefore₂⟩
    · rfl
    · exact absurd heq.symm (h.apart listening hbefore₂).2
    · exact absurd heq (h.apart listening hbefore₁).2
    · exact h.handle_inj flow₁ flow₂ entry₁ entry₂ hbefore₁ hbefore₂ heq
  halfOpen := by
    intro flow' hmem
    show flow' ∈ s.tcpEntries.insert flow _
    rw [AList.mem_insert]
    rcases Finset.mem_insert.mp hmem with rfl | hmem
    · exact Or.inl rfl
    · exact Or.inr (h.halfOpen flow' hmem)
  accepted := by
    intro flow' entry hlookup
    rcases lookup_insert_cases hlookup with ⟨rfl, rfl⟩ | ⟨-, hlookup⟩
    · exact mem_cons_self
    · exact mem_cons_of_mem _ (h.accepted flow' entry hlookup)
  nodup := by
    refine nodup_cons.mpr ⟨fun hmem => ?_, h.nodup⟩
    obtain ⟨⟨flow', handle⟩, hmem, rfl⟩ := mem_map.mp hmem
    exact Nat.lt_irrefl _ (h.allocated flow' _ hmem)
  allocated := by
    intro flow' handle hmem
    show handle < s.allocated + 1
    rcases mem_cons.mp hmem with heq | hmem
    · cases heq
      omega
    · have hlt : handle < s.allocated := h.allocated flow' handle hmem
      omega

/-- And the invariant holds with it. -/
theorem Inv.enter (h : Inv w none { s with sockets := set })
    (hsockets : s.sockets = (set.add listening).2) (hfresh : s.tcpEntries.lookup flow = none)
    (hrx : listening.rx = []) (harrived : listening.arrived = [])
    (henqueued : listening.enqueued = []) :
    Inv w none (Driver.enterFlow flow (set.add listening).1 s).2 where
  tables := h.tables.enter hsockets hfresh
  closed := by
    intro flow' handle hmem
    rcases mem_cons.mp hmem with heq | hmem
    · cases heq
      exact Or.inl ⟨_, AList.lookup_insert _, rfl⟩
    have hlt : handle < s.allocated := h.tables.allocated flow' handle hmem
    rcases h.closed flow' handle hmem with ⟨entry, hlookup, hhandle⟩ | hclosed | hleaving
    · refine Or.inl ⟨entry, (AList.lookup_insert_ne fun heq => ?_).trans hlookup, hhandle⟩
      rw [heq] at hlookup
      cases hfresh.symm.trans hlookup
    · refine Or.inr (Or.inl ?_)
      show ((s.setStream s.allocated _).streams handle).has _ = true
      rw [setStream_streams, if_neg (by omega)]
      exact hclosed
    · cases hleaving
  kept := by
    intro handle
    show ((s.setStream s.allocated _).streams handle).Local w.Legal
    rw [setStream_streams]
    split_ifs
    · exact .new _ rfl fun _ => rfl
    · exact h.kept handle
  settled := by
    intro handle
    show ((s.setStream s.allocated _).streams handle).Settled w.Orderly
    rw [setStream_streams]
    split_ifs
    · exact .of_present rfl
    · exact h.settled handle
  link := by
    intro flow' entry socket hlookup hsocket
    have hget : (set.add listening).2.get entry.socket = some socket := hsockets ▸ hsocket
    show Link _ _ socket ((s.setStream s.allocated _).streams entry.handle)
    rw [get_add] at hget
    rw [setStream_streams]
    rcases lookup_insert_cases hlookup with ⟨-, rfl⟩ | ⟨-, hlookup⟩
    · rw [if_pos rfl] at hget ⊢
      cases hget
      exact .listening _ _ hrx harrived henqueued
    · obtain ⟨hslot, hhandle⟩ := h.tables.apart listening hlookup
      rw [if_neg hslot] at hget
      rw [if_neg hhandle]
      exact h.link flow' entry socket hlookup hget

end Admission

/-! ## Packets -/

/-- While a stream is offered to the accept queue, its socket is in the set
and no entry has it yet. -/
def Offered (w : World P) (flow : FlowKey) (listening : Socket) (added : ℕ × SocketSet)
    (s : Stack P) : Prop :=
  ∃ set : SocketSet, added = set.add listening ∧ s.sockets = added.2 ∧
    s.tcpEntries.lookup flow = none ∧ Running w { s with sockets := set }

theorem Offered.shared {flow : FlowKey} {listening : Socket} {added : ℕ × SocketSet} :
    Shared w (Offered w flow listening added) where
  interfere := by
    rintro s other ⟨set, hadded, hsockets, hfresh, h⟩
    have hnext := Running.shared.interfere _ other h
    cases other <;> exact ⟨set, hadded, hsockets, hfresh, hnext⟩
  tick := by
    rintro s ⟨set, hadded, hsockets, hfresh, h⟩
    exact ⟨set, hadded, hsockets, hfresh, Running.shared.tick _ h⟩

theorem Lasting.fresh (flow : FlowKey) :
    Lasting fun s : Stack P => s.tcpEntries.lookup flow = none := by
  intro s t hgoes h
  rw [hgoes.tcpEntries]
  exact h

theorem Running.setSockets {sockets : SocketSet} (h : Running w s)
    (hsockets : ∀ handle, sockets.get handle = s.sockets.get handle) :
    Running w { s with sockets } :=
  ⟨h.1.setSockets hsockets, h.2⟩

namespace Driver

theorem count_running {f : Counters → Counters}
    (hf : ∀ stats, (f stats).activeTcp = stats.activeTcp ∧
      (f stats).halfOpenTcp = stats.halfOpenTcp) :
    Keeps (Running w) (count f) := by
  refine .update fun s h => ⟨h.1.setStats _, ?_, h.2.2⟩
  obtain ⟨hactive, hhalfOpen⟩ := hf s.stats
  exact ⟨hactive.trans h.2.1.1, hhalfOpen.trans h.2.1.2⟩

theorem poll_ready : Keeps (Ready w) (poll w) :=
  .bind (ask_keeps Ready.shared _) fun _ => .update fun _ h => ⟨(h.1.poll _).setRx _, h.2⟩

theorem poll_running : Keeps (Running w) (poll w) :=
  .bind (ask_keeps Running.shared _) fun _ => .update fun _ h => ⟨(h.1.poll _).setRx _, h.2⟩

variable (packet : P)

theorem pushRx_running : Keeps (Running w) (pushRx packet) :=
  .bind (.read _) fun _ => .bind (.when (.update fun _ h => ⟨h.1.setRx _, h.2⟩)) fun _ => .pure _

theorem rejectTcp_running : Keeps (Running w) rejectTcp :=
  .bind (count_running fun _ => ⟨rfl, rfl⟩) fun _ => .pure _

/-- **A flow is offered to the accept queue**: it enters the tables, or its
socket is removed again. -/
theorem offerFlow_running {flow : FlowKey} {listening : Socket} (hrx : listening.rx = [])
    (harrived : listening.arrived = []) (henqueued : listening.enqueued = []) :
    Ensures (fun s => Running w s ∧ s.tcpEntries.lookup flow = none)
      (offerFlow w flow listening) (fun _ => Running w) (fun _ => False) := by
  refine .bind (M := fun before s => s = before ∧ Running w s ∧ s.tcpEntries.lookup flow = none)
    (.read fun _ h => ⟨rfl, h⟩) fun before => ?_
  refine .bind (M := fun _ => Offered w flow listening (before.sockets.add listening))
    (.update fun s ⟨hs, h, hfresh⟩ => ⟨s.sockets, by rw [hs], rfl, hfresh, h⟩) fun _ => ?_
  refine .bind (ask_keeps Offered.shared _) fun fails => ?_
  split_ifs
  · refine .bind (M := fun _ => Running w) (.update ?_) fun _ => rejectTcp_running
    rintro s ⟨set, hadded, hsockets, -, h⟩
    refine h.setSockets (s := { s with sockets := set }) fun handle => ?_
    -- the slot of the new socket was free
    have hfree := set.get_add_fst listening
    rw [get_remove, hsockets, hadded, get_add]
    split_ifs with hslot
    · rw [hslot]
      exact hfree.symm
    · rfl
  · refine .bind (M := fun _ s => Inv w none s ∧ s.stopped = false) (.update ?_) fun _ => ?_
    · rintro s ⟨set, hadded, hsockets, hfresh, h⟩
      rw [hadded] at hsockets ⊢
      exact ⟨h.1.enter hsockets hfresh hrx harrived henqueued, h.2.2⟩
    · refine .bind (M := fun _ => Running w) (.update fun s h => ?_) fun _ => .pure fun _ h => h
      exact ⟨h.1.setStats _, ⟨rfl, rfl⟩, h.2⟩

/-- **Admission** of a flow that has no entry. -/
theorem admitTcp_running (flow : FlowKey) :
    Ensures (fun s => Running w s ∧ s.tcpEntries.lookup flow = none) (admitTcp w flow)
      (fun _ => Running w) (fun _ => False) := by
  have hshared : Shared w fun s => Running w s ∧ s.tcpEntries.lookup flow = none :=
    Running.shared.and (fun _ h => h.1.toStreams) (Lasting.fresh flow)
  refine .bind (ask_keeps hshared _) fun full => ?_
  split_ifs
  · exact rejectTcp_running.of_imp fun _ h => h.1
  refine .bind (Keeps.read _) fun config => ?_
  split
  · exact rejectTcp_running.of_imp fun _ h => h.1
  · rename_i listening hlisten
    -- a listening socket has seen no bytes
    unfold Socket.listen at hlisten
    split_ifs at hlisten
    cases hlisten
    exact offerFlow_running rfl rfl rfl

theorem retainPacket_running : Keeps (Running w) (retainPacket packet) :=
  .bind (pushRx_running packet) fun _ => .when (count_running fun _ => ⟨rfl, rfl⟩)

/-- **A TCP packet**, for a flow with an entry or for a new one. -/
theorem handleTcpPacket_running : Keeps (Running w) (handleTcpPacket w packet) := by
  unfold handleTcpPacket
  split
  · exact count_running fun _ => ⟨rfl, rfl⟩
  rename_i flow syn ack hparse
  refine Ensures.bind (M := fun before s => s = before ∧ Running w s)
    (.read fun _ h => ⟨rfl, h⟩) fun before => ?_
  split_ifs with hmem hsyn
  · exact (retainPacket_running packet).of_imp fun _ h => h.2
  · exact .pure fun _ h => h.2
  · refine .bind (M := fun _ => Running w) ?_ fun admitted =>
      Keeps.when (retainPacket_running packet)
    refine (admitTcp_running flow).of_imp fun s ⟨hs, h⟩ => ⟨h, ?_⟩
    rw [hs]
    exact AList.lookup_eq_none.mpr hmem

theorem dropIcmp_running : Keeps (Running w) dropIcmp := count_running fun _ => ⟨rfl, rfl⟩

theorem handleIcmpPacket_running : Keeps (Running w) (handleIcmpPacket w packet) := by
  refine .bind (.read _) fun empty => .bind (ask_keeps Running.shared _) fun full => ?_
  refine .ite dropIcmp_running (.bind (pushRx_running packet) fun pushed => ?_)
  refine .ite (.bind poll_running fun _ => ?_) dropIcmp_running
  refine .bind (.update fun _ h => ⟨h.1.setRx _, h.2⟩) fun _ => ?_
  refine .bind (ask_keeps Running.shared _) fun replied => count_running fun _ => ?_
  split_ifs <;> exact ⟨rfl, rfl⟩

theorem handleUdpPacket_running : Keeps (Running w) (handleUdpPacket w packet) := by
  refine .bind (.read _) fun hasUdp => .when (.ite ?_ (count_running fun _ => ⟨rfl, rfl⟩))
  exact .bind (ask_keeps Running.shared _) fun full => .when (count_running fun _ => ⟨rfl, rfl⟩)

/-- **Any packet** leaves the driver at rest. -/
theorem handlePacket_running : Keeps (Running w) (handlePacket w packet) := by
  have hprotocol : Keeps (Running w) (handleByProtocol w packet) := by
    unfold handleByProtocol
    split
    · exact handleTcpPacket_running packet
    · exact handleUdpPacket_running packet
    · exact .pure _
    · exact count_running fun _ => ⟨rfl, rfl⟩
  refine .bind (.read _) fun config => ?_
  split
  · exact dropIcmp_running
  · exact handleIcmpPacket_running packet
  · exact hprotocol

/-- **A batch of packets**: the driver is not cancelled when it takes one,
so it has not stopped. -/
theorem handlePackets_ready (left : ℕ) (packet : P) :
    Keeps (Ready w) (handlePackets w left packet) := by
  induction left generalizing packet with
  | zero => exact .pure _
  | succ left ih =>
    have hend : Keeps (Ready w) (batchEnds w) :=
      .bind (isCancelled_keeps Ready.shared) fun _ => .bind (ask_keeps Ready.shared _) fun _ =>
        .bind (.read _) fun _ => .pure _
    refine Ensures.bind (M := fun cancelled s => Ready w s ∧ s.cancelled = cancelled)
      (Ensures.bind (yield_keeps Ready.shared) fun _ => .read fun _ h => ⟨h, rfl⟩)
      fun cancelled => ?_
    split_ifs with hcancelled
    · exact .pure fun _ h => h.1
    refine Ensures.bind (M := fun _ => Ready w) ?_ fun _ => ?_
    · refine ((handlePacket_running packet).mono (fun _ _ h => h.ready) fun _ h => h).of_imp ?_
      rintro s ⟨h, rfl⟩
      exact h.running (by simpa using hcancelled)
    refine Keeps.bind (.read _) fun empty => .bind (.when poll_ready) fun _ =>
      .bind hend fun ends => ?_
    refine .ite (.pure _) (.bind (ask_keeps Ready.shared _) fun next => ?_)
    split
    · exact .pure _
    · exact .bind (ih _) fun _ => .pure _

end Driver

end Vole.Netstack
