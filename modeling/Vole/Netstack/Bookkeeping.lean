import Vole.Netstack.Pass

/-!
# Flow bookkeeping

Every operation leaves the driver at rest, from its first state on: the
batches of packets, the passes, and the shutdown, which raises the flags of
every stream before it empties the tables. So the tables, the counters and
the flags agree after every sequence of operations, whatever the packets,
the owners of the streams and smoltcp do.
-/

namespace Vole.Netstack

open List Proc SocketSet Stack

variable {P : Type} {w : World P} {s : Stack P}

/-! ## Shutdown -/

namespace Driver

variable {G : Stack P → Prop}

/-- The driver raises a flag of a stream that is to stop. -/
theorem store_streams {handle : ℕ} {flag : Flag} (hdropped : flag ≠ .dropped)
    (hshutdown : flag ≠ .writeShutdown) (hG : Lasting G)
    (hstopped : flag = .readClosed ∨ flag = .socketClosed →
      ∀ s, G s → (s.streams handle).has .stopped = true) :
    Ensures (fun s => Streams w none s ∧ G s) (onStream w handle (·.store flag))
      (fun _ s => Streams w none s ∧ (s.streams handle).has flag = true ∧ G s)
      fun _ => False := by
  refine onStream_shared (Shared.streams.and (fun _ h => h) hG) fun s h => ?_
  have hpasses := TcpStream.Passes.store (h.1.kept handle) hdropped hshutdown
    fun hflag => hstopped hflag s h.2
  refine ⟨h.1.passes hpasses, ?_, hG s _ (.setStream hpasses.later) h.2⟩
  rw [setStream_streams, if_pos rfl, TcpStream.has_store]
  simp

theorem wake_streams {handle : ℕ} {f : TcpStream → TcpStream}
    (hf : ∀ stream : TcpStream, stream.Local w.Legal → stream.Passes w.Legal (f stream))
    (hG : Lasting G) : Keeps (fun s => Streams w none s ∧ G s) (onStream w handle f) := by
  refine onStream_shared (Shared.streams.and (fun _ h => h) hG) fun s h => ?_
  have hpasses := hf _ (h.1.kept handle)
  exact ⟨h.1.passes hpasses, hG s _ (.setStream hpasses.later) h.2⟩

/-- **A stream stops**: its flags are up, first of all the one that says
so. -/
theorem markStopped_streams (handle : ℕ) (hG : Lasting G) :
    Ensures (fun s => Streams w none s ∧ G s) (markStopped w handle)
      (fun _ s => Streams w none s ∧ (s.streams handle).has .socketClosed = true ∧ G s)
      fun _ => False := by
  have hstopped := (Lasting.raised handle .stopped).and hG
  have hclosed := (Lasting.raised handle .socketClosed).and hstopped
  have hread := (Lasting.raised handle .readClosed).and hclosed
  have hwrite := (Lasting.raised handle .writeClosed).and hread
  refine (store_streams (by decide) (by decide) hG (by simp)).bind fun _ => ?_
  refine (store_streams (by decide) (by decide) hstopped fun _ _ h => h.1).bind fun _ => ?_
  refine (store_streams (by decide) (by decide) hclosed fun _ _ h => h.2.1).bind fun _ => ?_
  refine (store_streams (by decide) (by decide) hread (by simp)).bind fun _ => ?_
  refine Ensures.bind (wake_streams (fun _ h => .wakeRecv h) hwrite) fun _ => ?_
  exact (wake_streams (fun _ h => .wakeSend h) hwrite).mono
    (fun _ _ h => ⟨h.1, h.2.2.2.1, h.2.2.2.2.2⟩) fun _ h => h

theorem markAllStopped_streams (listed : List Entry) (hG : Lasting G) :
    Ensures (fun s => Streams w none s ∧ G s) (markAllStopped w listed)
      (fun _ s => Streams w none s ∧
        (∀ e ∈ listed, (s.streams e.2.handle).has .socketClosed = true) ∧ G s)
      fun _ => False := by
  induction listed generalizing G with
  | nil => exact .pure fun _ h => ⟨h.1, fun _ hmem => (by cases hmem), h.2⟩
  | cons first rest ih =>
    obtain ⟨flow, entry⟩ := first
    refine (markStopped_streams entry.handle hG).bind fun _ => ?_
    refine (ih ((Lasting.raised entry.handle .socketClosed).and hG)).mono
      (fun _ s h => ⟨h.1, ?_, h.2.2.2⟩) fun _ h => h
    exact forall_mem_cons.mpr ⟨h.2.2.1, h.2.1⟩

end Driver

/-- **Empty tables**, once every stream knows that its socket is closed. -/
theorem Streams.clear (h : Streams w none s)
    (hclosed : ∀ flow entry, s.tcpEntries.lookup flow = some entry →
      (s.streams entry.handle).has .socketClosed = true) :
    Inv w none { s with tcpEntries := ∅, halfOpen := ∅, sockets := .new } where
  tables :=
    { socket_of_entry := nofun
      entry_of_socket := fun handle hsome => by
        cases hsome
      socket_inj := nofun
      handle_inj := nofun
      halfOpen := fun _ hmem => by simp at hmem
      accepted := nofun
      nodup := h.tables.nodup
      allocated := h.tables.allocated }
  closed := by
    intro flow handle hmem
    rcases h.closed flow handle hmem with ⟨entry, hlookup, rfl⟩ | hraised | hleaving
    · exact Or.inr (Or.inl (hclosed flow entry hlookup))
    · exact Or.inr (Or.inl hraised)
    · cases hleaving
  kept := h.kept
  settled := h.settled
  link := nofun

namespace Driver

/-- **The shutdown** leaves the driver at rest. -/
theorem shutdown_ready : Keeps (Ready w) (shutdown w) := by
  refine Ensures.bind (M := fun _ s => Inv w none s ∧ s.cancelled = true)
    (.update fun s h => ⟨(Ready.shared.interfere s .cancel h).1, rfl⟩) fun _ => ?_
  refine Ensures.bind (M := fun _ s => Inv w none s ∧ s.cancelled = true)
    (.update fun _ h => ⟨h.1.setRx none, h.2⟩) fun _ => ?_
  -- every entry of the table is listed
  refine Ensures.bind (M := fun listed s => ∃ table : AList fun _ : FlowKey => TcpEntry,
      (∀ flow entry, table.lookup flow = some entry → (⟨flow, entry⟩ : Entry) ∈ listed) ∧
        Streams w none s ∧ s.cancelled = true ∧ s.tcpEntries = table)
    (.read fun s h => ⟨s.tcpEntries, fun flow entry hlookup => ?_, h.1.toStreams, h.2, rfl⟩)
    fun listed => ?_
  · exact (w.order_perm _ _).mem_iff.mpr (AList.mem_lookup_iff.mp hlookup)
  refine Ensures.bind (M := fun _ s => Streams w none s ∧ s.cancelled = true ∧
      ∀ flow entry, s.tcpEntries.lookup flow = some entry →
        (s.streams entry.handle).has .socketClosed = true) ?_ fun _ => ?_
  · rintro s ⟨table, hlisted, h⟩
    have hmark := markAllStopped_streams listed (Lasting.cancelled.and (Lasting.entries table)) s h
    refine ⟨fun _ hreturns => ?_, hmark.2⟩
    obtain ⟨hstreams, hclosed, hcancelled, hentries⟩ := hmark.1 _ hreturns
    refine ⟨hstreams, hcancelled, fun flow entry hlookup => ?_⟩
    rw [hentries] at hlookup
    exact hclosed _ (hlisted flow entry hlookup)
  refine Ensures.bind (M := fun _ s => Inv w none s ∧ s.cancelled = true ∧ s.tcpEntries = ∅)
    (.update fun s h => ⟨h.1.clear h.2.2, h.2.1, rfl⟩) fun _ => ?_
  refine Ensures.bind
    (M := fun _ s => Inv w none s ∧ Counted s ∧ s.cancelled = true ∧ s.tcpEntries = ∅)
    (.update fun s h => ⟨h.1.setStats _, ⟨rfl, rfl⟩, h.2⟩) fun _ => ?_
  exact .update fun s h => ⟨{ h.1 with tables := { h.1.tables with } }, h.2.1, fun _ => h.2.2⟩

/-! ## Runs -/

theorem perform_ready (operation : Operation P) : Keeps (Ready w) (perform w operation) := by
  cases operation with
  | handlePacketBatch first => exact .bind (handlePackets_ready _ _) fun _ => .pure _
  | drive => exact drive_ready
  | shutdown => exact shutdown_ready
  | interference other => exact .update fun s h => Ready.shared.interfere s other h

theorem run_ready (operations : List (Operation P)) : Keeps (Ready w) (run w operations) := by
  induction operations with
  | nil => exact .pure _
  | cons operation rest ih => exact .bind (perform_ready operation) fun _ => ih

end Driver

theorem TcpStream.Local.absent {legal : Prop} : TcpStream.absent.Local legal where
  received := rfl
  owner := nofun
  orphan := nofun
  chain := .nil
  dropped := fun _ => rfl
  shutdown := fun _ => rfl
  closes := nofun
  window := nofun
  eofs := nofun

/-- The first state: no tables and no streams. -/
theorem Ready.new (config : NetStackConfig) (hasUdp : Bool) :
    Ready w (Stack.new config hasUdp) := by
  have htables : Tables (Stack.new config hasUdp : Stack P) :=
    { socket_of_entry := nofun
      entry_of_socket := nofun
      socket_inj := nofun
      handle_inj := nofun
      halfOpen := nofun
      accepted := nofun
      nodup := .nil
      allocated := nofun }
  have hstreams : Streams w none (Stack.new config hasUdp) :=
    ⟨htables, fun _ _ hmem => (by cases hmem), fun _ => .absent, fun _ => .of_present rfl⟩
  exact ⟨⟨hstreams, fun _ _ _ hlookup => (by cases hlookup)⟩, ⟨rfl, rfl⟩,
    nofun⟩

/-! ## Agreement -/

theorem count_eq (set : SocketSet) :
    set.count = ((range set.slots.length).filter fun i => (set.get i).isSome).length := by
  have hslots : set.slots = (range set.slots.length).map set.get := by
    refine ext_getElem (by simp) fun i hlt _ => ?_
    simp [SocketSet.get, getElem?_eq_getElem hlt]
  unfold SocketSet.count
  nth_rewrite 1 [hslots]
  rw [countP_map, countP_eq_length_filter]
  rfl

theorem SocketSet.lt_of_isSome {set : SocketSet} {handle : ℕ} (h : (set.get handle).isSome) :
    handle < set.slots.length := by
  by_contra hge
  unfold SocketSet.get at h
  rw [getElem?_eq_none (by omega)] at h
  cases h

theorem Stack.mem_entries {flow : FlowKey} {entry : TcpEntry} :
    (⟨flow, entry⟩ : Entry) ∈ s.tcpEntries.entries ↔ s.tcpEntries.lookup flow = some entry :=
  AList.mem_lookup_iff.symm

/-- The entries have one socket each. -/
theorem Tables.count (h : Tables s) : s.sockets.count = s.tcpEntries.entries.length := by
  -- the slots in use are the sockets of the entries, in some order
  have hnodup : (s.tcpEntries.entries.map fun e => e.2.socket).Nodup := by
    refine List.Nodup.map_on ?_ s.tcpEntries.nodupKeys.nodup
    rintro ⟨flow, entry⟩ hmem ⟨flow', entry'⟩ hmem' heq
    have hlookup := mem_entries.mp hmem
    have hlookup' := mem_entries.mp hmem'
    obtain rfl := h.socket_inj flow flow' entry entry' hlookup hlookup' heq
    rw [Option.some.inj (hlookup.symm.trans hlookup')]
  have hperm : ((range s.sockets.slots.length).filter fun i => (s.sockets.get i).isSome).Perm
      (s.tcpEntries.entries.map fun e => e.2.socket) := by
    refine (perm_ext_iff_of_nodup (nodup_range.filter _) hnodup).mpr fun handle => ?_
    rw [mem_filter, mem_range, mem_map]
    constructor
    · rintro ⟨-, hsome⟩
      obtain ⟨flow, entry, hlookup, hsocket⟩ := h.entry_of_socket handle hsome
      exact ⟨⟨flow, entry⟩, mem_entries.mpr hlookup, hsocket⟩
    · rintro ⟨⟨flow, entry⟩, hmem, rfl⟩
      have hsome := h.socket_of_entry flow entry (mem_entries.mp hmem)
      exact ⟨lt_of_isSome hsome, hsome⟩
  rw [count_eq, hperm.length_eq, length_map]

/-- **The books are in order.** Every half-open flow has an entry; every
entry has its own socket, and there is no other; its stream was put on the
accept queue once; a stream whose entry is gone, or whose driver stopped,
knows that its socket is closed; the counters are the sizes of the tables;
and a socket was closed only with everything in it that its stream took
from its owner. -/
structure Bookkeeping (s : Stack P) : Prop where
  halfOpen : ∀ flow ∈ s.halfOpen, flow ∈ s.tcpEntries
  sockets : s.sockets.count = s.tcpEntries.entries.length
  socket : ∀ handle, (s.sockets.get handle).isSome ↔
    ∃! e : Entry, e ∈ s.tcpEntries.entries ∧ e.2.socket = handle
  flows : (s.tcpEntries.entries.map Sigma.fst).Nodup
  accepted : ∀ e ∈ s.tcpEntries.entries, s.accepts.count (e.1, e.2.handle) = 1
  handles : (s.accepts.map Prod.snd).Nodup
  removed : ∀ flow handle, (flow, handle) ∈ s.accepts →
    (∃ e ∈ s.tcpEntries.entries, e.1 = flow ∧ e.2.handle = handle) ∨
      (s.streams handle).has .socketClosed = true
  stopped : s.stopped = true → ∀ flow handle, (flow, handle) ∈ s.accepts →
    (s.streams handle).has .socketClosed = true
  activeTcp : s.stats.activeTcp = s.tcpEntries.entries.length
  halfOpenTcp : s.stats.halfOpenTcp = s.halfOpen.card
  pending : s.rx.toList.length ≤ 1
  closes : ∀ handle, ∀ enqueued ∈ (s.streams handle).closes,
    (s.streams handle).accepted = enqueued

theorem Tables.socket_iff (h : Tables s) (handle : ℕ) :
    (s.sockets.get handle).isSome ↔
      ∃! e : Entry, e ∈ s.tcpEntries.entries ∧ e.2.socket = handle := by
  constructor
  · intro hsome
    obtain ⟨flow, entry, hlookup, hsocket⟩ := h.entry_of_socket handle hsome
    refine ⟨⟨flow, entry⟩, ⟨mem_entries.mpr hlookup, hsocket⟩, ?_⟩
    rintro ⟨flow', entry'⟩ ⟨hmem', hsocket'⟩
    have hlookup' := mem_entries.mp hmem'
    obtain rfl := h.socket_inj flow' flow entry' entry hlookup' hlookup (hsocket'.trans hsocket.symm)
    rw [Option.some.inj (hlookup.symm.trans hlookup')]
  · rintro ⟨⟨flow, entry⟩, ⟨hmem, rfl⟩, -⟩
    exact h.socket_of_entry flow entry (mem_entries.mp hmem)

/-- A driver at rest has its books in order. -/
theorem Ready.bookkeeping (h : Ready w s) : Bookkeeping s := by
  obtain ⟨hinv, hcounted, hhalted⟩ := h
  have htables := hinv.tables
  have hremoved : ∀ flow handle, (flow, handle) ∈ s.accepts →
      (∃ e ∈ s.tcpEntries.entries, e.1 = flow ∧ e.2.handle = handle) ∨
        (s.streams handle).has .socketClosed = true := by
    intro flow handle hmem
    rcases hinv.closed flow handle hmem with ⟨entry, hlookup, rfl⟩ | hclosed | hleaving
    · exact Or.inl ⟨⟨flow, entry⟩, mem_entries.mpr hlookup, rfl, rfl⟩
    · exact Or.inr hclosed
    · cases hleaving
  exact {
    halfOpen := htables.halfOpen
    sockets := htables.count
    socket := htables.socket_iff
    flows := s.tcpEntries.nodupKeys
    accepted := fun e hmem => count_eq_one_of_mem (List.Nodup.of_map _ htables.nodup)
      (htables.accepted e.1 e.2 (mem_entries.mp hmem))
    handles := htables.nodup
    removed := hremoved
    stopped := by
      intro hstopped flow handle hmem
      refine (hremoved flow handle hmem).resolve_left ?_
      rintro ⟨e, he, -⟩
      rw [(hhalted hstopped).2] at he
      cases he
    activeTcp := hcounted.1
    halfOpenTcp := hcounted.2
    pending := by cases s.rx <;> simp
    closes := fun handle enqueued hmem => ((hinv.kept handle).closes enqueued hmem).1 }

/-- **The driver never panics, and its books are in order** after every
sequence of operations. -/
theorem bookkeeping_of_run (w : World P) (config : NetStackConfig) (hasUdp : Bool)
    (operations : List (Driver.Operation P)) :
    (Driver.run w operations (new config hasUdp)).1 = .ok () ∧
      Bookkeeping (Driver.run w operations (new config hasUdp)).2 := by
  obtain ⟨_, hreturns, hready⟩ := (Driver.run_ready operations).returns (Ready.new config hasUdp)
  exact ⟨hreturns, hready.bookkeeping (w := w)⟩

end Vole.Netstack
