import Vole.Netstack.Admission
import Vole.Netstack.Turn

/-!
# A pass of the driver

`Driver::drive_tcp_sockets` gives every socket its turn and then removes
the flows that are over. A flow that is over is drained after its turn,
and stays so until it is removed (`Passing`), so what arrived was
delivered. While a removed flow's stream waits for its flags, it is the one
that is leaving.
-/

namespace Vole.Netstack

open List Option Proc

variable {P : Type} {w : World P} {leaving : Option ℕ} {s : Stack P}

/-! ## A pass -/

/-- The buffer of the flow's socket is empty, unless its owner dropped the
stream or it was cramped. -/
def Drained (s : Stack P) (flow : FlowKey) : Prop :=
  ∀ entry socket, s.tcpEntries.lookup flow = some entry →
    s.sockets.get entry.socket = some socket → (s.streams entry.handle).owned = true →
    (s.streams entry.handle).cramped = false → socket.rx = []

theorem Drained.lasting (flow : FlowKey) : Lasting fun s : Stack P => Drained s flow := by
  intro s t hgoes h entry socket hlookup hsocket howned hcramped
  rw [hgoes.tcpEntries] at hlookup
  rw [hgoes.sockets] at hsocket
  have hlater := hgoes.later entry.handle
  exact h entry socket hlookup hsocket (hlater.owned howned) (hlater.cramped hcramped)

variable {table : AList fun _ : FlowKey => TcpEntry} {entry : TcpEntry}

/-- An access to one flow leaves the others drained. -/
theorem Drained.access {flow flow' : FlowKey} (h : Drained s flow')
    (hinv : Inv w none s) (hlookup : s.tcpEntries.lookup flow = some entry) (hne : flow' ≠ flow)
    (socket : Socket) (stream : TcpStream) :
    Drained { s.setStream entry.handle stream with
      sockets := s.sockets.put entry.socket socket } flow' := by
  intro entry' socket' hlookup' hsocket'
  have hslot : entry'.socket ≠ entry.socket := fun heq =>
    hne (hinv.tables.socket_inj flow' flow entry' entry hlookup' hlookup heq)
  have hhandle : entry'.handle ≠ entry.handle := fun heq =>
    hne (hinv.tables.handle_inj flow' flow entry' entry hlookup' hlookup heq)
  rw [SocketSet.get_put _ (hinv.tables.socket_of_entry flow entry hlookup), if_neg hslot] at hsocket'
  rw [setStream_streams, if_neg hhandle]
  exact h entry' socket' hlookup' hsocket'

/-- What a pass knows when it comes to a flow: the table is the one it
listed, and these flows are drained. -/
structure Passing (table : AList fun _ : FlowKey => TcpEntry) (done : List FlowKey)
    (s : Stack P) : Prop where
  entries : s.tcpEntries = table
  halted : Halted s
  drained : ∀ flow ∈ done, Drained s flow

theorem Passing.lasting {table : AList fun _ : FlowKey => TcpEntry} {done : List FlowKey} :
    Lasting (Passing (P := P) table done) := fun s t hgoes h =>
  ⟨hgoes.tcpEntries.trans h.entries, Halted.lasting s t hgoes h.halted,
    fun flow hflow => Drained.lasting flow s t hgoes (h.drained flow hflow)⟩

/-- It outlasts the turn of a flow that is not among them. -/
theorem Passing.frame {done : List FlowKey} {flow : FlowKey} (hflow : flow ∉ done) :
    Frame w flow entry (Passing table done) where
  interfere s other hinv h := Passing.lasting s _ (.interfere hinv.toStreams other) h
  tick s h := Passing.lasting s _ (.tick s) h
  access _ socket stream hinv hlookup _ h :=
    ⟨h.entries, h.halted, fun flow' hmem => (h.drained flow' hmem).access hinv hlookup
      (fun heq => hflow (heq ▸ hmem)) socket stream⟩
  leaveHalfOpen _ h := ⟨h.entries, h.halted, h.drained⟩

namespace Driver

variable {table : AList fun _ : FlowKey => TcpEntry}

/-- A turn in a pass. -/
theorem driveSocket_passing {done : List FlowKey}
    {flow : FlowKey} {entry : TcpEntry} (pendingFlow : Option FlowKey)
    (hlookup : table.lookup flow = some entry) (hflow : flow ∉ done) :
    Ensures (fun s => Inv w none s ∧ Passing table done s)
      (driveSocket w pendingFlow flow entry)
      (fun ended s => Inv w none s ∧ Passing table (if ended then flow :: done else done) s)
      fun _ => False := by
  have hframe : Frame w flow entry (Passing table done) := Passing.frame hflow
  refine ((driveSocket_at hframe pendingFlow).mono ?_ fun _ h => h).of_imp ?_
  · intro ended s h
    refine ⟨h.inv, h.frame.entries, h.frame.halted, fun flow' hmem => ?_⟩
    have hcases : (ended = true ∧ flow' = flow) ∨ flow' ∈ done := by
      cases ended <;> simp_all
    rcases hcases with ⟨hover, rfl⟩ | hmem
    · intro entry' socket hlookup' hsocket
      obtain ⟨socket', hsocket', hknown⟩ := h.known
      cases h.lookup.symm.trans hlookup'
      cases hsocket'.symm.trans hsocket
      exact hknown hover
    · exact h.frame.drained flow' hmem
  · rintro s ⟨hinv, h⟩
    have hentry : s.tcpEntries.lookup flow = some entry := by rw [h.entries, hlookup]
    obtain ⟨socket, hsocket⟩ :=
      isSome_iff_exists.mp (hinv.tables.socket_of_entry flow entry hentry)
    exact ⟨hinv, hentry, h, socket, hsocket, trivial⟩

/-- **A pass over the sockets** leaves those drained that are over. -/
theorem driveSockets_passing
    (pendingFlow : Option FlowKey) (listed : List Entry) (done : List FlowKey)
    (htable : ∀ e ∈ listed, table.lookup e.1 = some e.2)
    (hkeys : (listed.map Sigma.fst).Nodup) (hdone : ∀ e ∈ listed, e.1 ∉ done) :
    Ensures (fun s => Inv w none s ∧ Passing table done s)
      (driveSockets w pendingFlow listed)
      (fun inactive s => Inv w none s ∧ Passing table (inactive ++ done) s) fun _ => False := by
  induction listed generalizing done with
  | nil => exact .pure fun _ h => h
  | cons first rest ih =>
    obtain ⟨flow, entry⟩ := first
    obtain ⟨hfresh, hkeys⟩ := nodup_cons.mp hkeys
    refine (driveSocket_passing pendingFlow (htable ⟨flow, entry⟩ mem_cons_self)
      (hdone ⟨flow, entry⟩ mem_cons_self)).bind fun ended => ?_
    have hrest : ∀ e ∈ rest, e.1 ∉ (if ended then flow :: done else done) := by
      intro e he hmem
      have hne : e.1 ≠ flow := fun heq => hfresh (mem_map.mpr ⟨e, he, heq⟩)
      cases ended <;> simp_all
    refine (ih _ (fun e he => htable e (mem_cons_of_mem _ he)) hkeys hrest).bind
      fun inactive => .pure fun s h => ⟨h.1, h.2.entries, h.2.halted, fun flow' hmem => ?_⟩
    refine h.2.drained flow' ?_
    cases ended <;> simp_all [or_left_comm]

end Driver

/-! ## Removal -/

/-- No entry has the stream. -/
def Unlinked (handle : ℕ) (s : Stack P) : Prop :=
  ∀ flow entry, s.tcpEntries.lookup flow = some entry → entry.handle ≠ handle

theorem Unlinked.lasting (handle : ℕ) : Lasting (Unlinked (P := P) handle) := by
  intro s t hgoes h
  unfold Unlinked
  rw [hgoes.tcpEntries]
  exact h

/-- An entry of a table without one is another. -/
theorem lookup_erase_cases {flow flow' : FlowKey} (h : (table.erase flow).lookup flow' = some entry) :
    flow' ≠ flow ∧ table.lookup flow' = some entry := by
  rw [Table.lookup_erase_apply] at h
  split_ifs at h with hflow
  exact ⟨hflow, h⟩

section Removal

variable {flow : FlowKey} {entry : TcpEntry}

theorem Tables.remove (h : Tables s) (hlookup : s.tcpEntries.lookup flow = some entry) :
    Tables (Driver.removeEntry flow entry s).2 where
  socket_of_entry := by
    intro flow' entry' hlookup'
    obtain ⟨hne, hbefore⟩ := lookup_erase_cases hlookup'
    show ((s.sockets.remove entry.socket).get entry'.socket).isSome
    rw [SocketSet.get_remove, if_neg fun heq =>
      hne (h.socket_inj flow' flow entry' entry hbefore hlookup heq)]
    exact h.socket_of_entry flow' entry' hbefore
  entry_of_socket := by
    intro handle hsome
    have hget : ((s.sockets.remove entry.socket).get handle).isSome := hsome
    rw [SocketSet.get_remove] at hget
    split_ifs at hget with hhandle
    · cases hget
    · obtain ⟨flow', entry', hlookup', hsocket⟩ := h.entry_of_socket handle hget
      refine ⟨flow', entry', (AList.lookup_erase_ne fun heq => ?_).trans hlookup', hsocket⟩
      rw [heq, hlookup] at hlookup'
      rw [some.inj hlookup'] at hhandle
      exact hhandle hsocket.symm
  socket_inj := by
    intro flow₁ flow₂ entry₁ entry₂ hlookup₁ hlookup₂
    exact h.socket_inj flow₁ flow₂ entry₁ entry₂ (lookup_erase_cases hlookup₁).2
      (lookup_erase_cases hlookup₂).2
  handle_inj := by
    intro flow₁ flow₂ entry₁ entry₂ hlookup₁ hlookup₂
    exact h.handle_inj flow₁ flow₂ entry₁ entry₂ (lookup_erase_cases hlookup₁).2
      (lookup_erase_cases hlookup₂).2
  halfOpen := by
    intro flow' hmem
    obtain ⟨hne, hmem⟩ := Finset.mem_erase.mp hmem
    exact AList.mem_erase.mpr ⟨hne, h.halfOpen flow' hmem⟩
  accepted := fun flow' entry' hlookup' => h.accepted flow' entry' (lookup_erase_cases hlookup').2
  nodup := h.nodup
  allocated := h.allocated

/-- The entry's stream has none any more. -/
theorem Tables.unlinked (h : Tables s) (hlookup : s.tcpEntries.lookup flow = some entry) :
    Unlinked entry.handle (Driver.removeEntry flow entry s).2 := by
  intro flow' entry' hlookup' heq
  obtain ⟨hne, hbefore⟩ := lookup_erase_cases hlookup'
  exact hne (h.handle_inj flow' flow entry' entry hbefore hlookup heq)

/-- **A drained flow leaves the tables**: everything that arrived was
delivered. -/
theorem Inv.remove (h : Inv w none s) (hlookup : s.tcpEntries.lookup flow = some entry)
    (hdrained : Drained s flow) :
    Inv w (some entry.handle) (Driver.removeEntry flow entry s).2 where
  tables := h.tables.remove hlookup
  closed := by
    intro flow' handle hmem
    by_cases hhandle : handle = entry.handle
    · exact Or.inr (Or.inr (by rw [hhandle]))
    rcases h.closed flow' handle hmem with ⟨entry', hlookup', heq⟩ | hclosed | hleaving
    · refine Or.inl ⟨entry', (AList.lookup_erase_ne fun hflow => hhandle ?_).trans hlookup', heq⟩
      rw [hflow, hlookup] at hlookup'
      rw [← heq, some.inj hlookup']
    · refine Or.inr (Or.inl ?_)
      show ((s.setStream entry.handle _).streams handle).has _ = true
      rw [setStream_streams, if_neg hhandle]
      exact hclosed
    · cases hleaving
  kept := by
    intro handle
    show ((s.setStream entry.handle _).streams handle).Local w.Legal
    rw [setStream_streams]
    split_ifs
    · exact { h.kept entry.handle with }
    · exact h.kept handle
  settled := by
    intro handle
    show ((s.setStream entry.handle _).streams handle).Settled w.Orderly
    rw [setStream_streams]
    split_ifs
    · intro arrived harrived horderly howned hcramped
      obtain ⟨socket, hsocket, rfl⟩ := map_eq_some_iff.mp harrived
      have hreceived := (h.link flow entry socket hlookup hsocket).received horderly
      have hempty := hdrained entry socket hlookup hsocket howned hcramped
      rw [hreceived, hempty, append_nil]
    · exact h.settled handle
  link := by
    intro flow' entry' socket hlookup' hsocket
    obtain ⟨hne, hbefore⟩ := lookup_erase_cases hlookup'
    have hget : (s.sockets.remove entry.socket).get entry'.socket = some socket := hsocket
    rw [SocketSet.get_remove, if_neg fun heq =>
      hne (h.tables.socket_inj flow' flow entry' entry hbefore hlookup heq)] at hget
    show Link _ _ socket ((s.setStream entry.handle _).streams entry'.handle)
    rw [setStream_streams, if_neg (h.tables.unlinked hlookup flow' entry' hlookup')]
    exact h.link flow' entry' socket hbefore hget

/-- The others stay drained. -/
theorem Drained.remove {flow' : FlowKey} (hdrained : Drained s flow') (h : Inv w none s)
    (hlookup : s.tcpEntries.lookup flow = some entry) :
    Drained (Driver.removeEntry flow entry s).2 flow' := by
  intro entry' socket hlookup' hsocket
  obtain ⟨hne, hbefore⟩ := lookup_erase_cases hlookup'
  have hget : (s.sockets.remove entry.socket).get entry'.socket = some socket := hsocket
  rw [SocketSet.get_remove, if_neg fun heq =>
    hne (h.tables.socket_inj flow' flow entry' entry hbefore hlookup heq)] at hget
  show ((s.setStream entry.handle _).streams entry'.handle).owned = true →
    ((s.setStream entry.handle _).streams entry'.handle).cramped = false → _
  rw [setStream_streams, if_neg (h.tables.unlinked hlookup flow' entry' hlookup')]
  exact hdrained entry' socket hbefore hget

end Removal

/-! ## Streams without an entry -/

namespace TcpStream

variable {legal orderly : Prop} {stream next : TcpStream}

/-- **An access of the driver** to a stream that moves no bytes. -/
structure Passes (legal : Prop) (stream next : TcpStream) : Prop where
  kept : Local legal next
  later : Later stream next
  removed : next.removed = stream.removed
  delivered : next.delivered = stream.delivered

theorem Passes.settled (h : Passes legal stream next) (hsettled : stream.Settled orderly) :
    next.Settled orderly := by
  intro arrived hremoved horderly howned hcramped
  rw [h.removed] at hremoved
  rw [h.delivered]
  exact hsettled arrived hremoved horderly (h.later.owned howned) (h.later.cramped hcramped)

variable (h : Local legal stream)

include h

theorem Passes.wakeRecv : Passes legal stream stream.wakeRecv :=
  ⟨{ h with }, ⟨fun _ hraised => hraised, id, id⟩, rfl, rfl⟩

theorem Passes.wakeSend : Passes legal stream stream.wakeSend :=
  ⟨{ h with }, ⟨fun _ hraised => hraised, id, id⟩, rfl, rfl⟩

theorem Passes.store {flag : Flag} (hdropped : flag ≠ .dropped)
    (hshutdown : flag ≠ .writeShutdown)
    (hstopped : flag = .readClosed ∨ flag = .socketClosed → stream.has .stopped = true) :
    Passes legal stream (stream.store flag) :=
  ⟨h.storeByDriver hdropped hshutdown hstopped, .store stream flag, rfl, rfl⟩

theorem Passes.closeReading {flag : Flag}
    (hflag : flag = .readClosed ∨ flag = .socketClosed) :
    Passes legal stream (stream.closeReading flag) :=
  ⟨h.closeReading hflag, ⟨(Later.store stream flag).flags, id, id⟩, rfl, rfl⟩

end TcpStream

theorem Streams.passes (h : Streams w leaving s) {handle : ℕ} {stream : TcpStream}
    (hpasses : (s.streams handle).Passes w.Legal stream) :
    Streams w leaving (s.setStream handle stream) :=
  h.setStream hpasses.kept (hpasses.settled (h.settled handle)) hpasses.later

theorem Inv.passes (h : Inv w leaving s) {handle : ℕ} {stream : TcpStream}
    (hunlinked : Unlinked handle s) (hpasses : (s.streams handle).Passes w.Legal stream) :
    Inv w leaving (s.setStream handle stream) := by
  refine ⟨h.toStreams.passes hpasses, fun flow entry socket hlookup hsocket => ?_⟩
  rw [setStream_streams, if_neg (hunlinked flow entry hlookup)]
  exact h.link flow entry socket hlookup hsocket

/-- The stream that is leaving has left. -/
theorem Inv.left {handle : ℕ} (h : Inv w (some handle) s)
    (hclosed : (s.streams handle).has .socketClosed = true) : Inv w none s := by
  refine { h with closed := fun flow k hmem => ?_ }
  rcases h.closed flow k hmem with hentry | hraised | hleaving
  · exact Or.inl hentry
  · exact Or.inr (Or.inl hraised)
  · cases hleaving
    exact Or.inr (Or.inl hclosed)

namespace Driver

variable {G : Stack P → Prop}

theorem onStream_shared {B Q : Stack P → Prop} {handle : ℕ} {f : TcpStream → TcpStream}
    (hB : Shared w B) (hf : ∀ s, B s → Q (s.setStream handle (f (s.streams handle)))) :
    Ensures B (onStream w handle f) (fun _ => Q) fun _ => False :=
  Ensures.bind (yield_keeps hB) fun _ => .update hf

theorem onStream_unlinked {handle : ℕ} {f : TcpStream → TcpStream}
    (hf : ∀ stream : TcpStream, stream.Local w.Legal → stream.Passes w.Legal (f stream))
    (hG : Lasting G) :
    Keeps (fun s => Inv w leaving s ∧ Unlinked handle s ∧ G s) (onStream w handle f) := by
  have hlasting := (Unlinked.lasting handle).and hG
  refine onStream_shared (Shared.inv.and (fun _ h => h.toStreams) hlasting) fun s h => ?_
  have hpasses := hf _ (h.1.kept handle)
  exact ⟨h.1.passes h.2.1 hpasses, hlasting s _ (.setStream hpasses.later) h.2⟩

/-- **The stream of a removed flow** learns that its socket is closed. -/
theorem closeHandle_left (handle : ℕ) (hG : Lasting G) :
    Ensures (fun s => Inv w (some handle) s ∧ Unlinked handle s ∧ G s)
      (closeHandle w handle) (fun _ s => Inv w none s ∧ Unlinked handle s ∧ G s)
      fun _ => False := by
  have hlasting := (Unlinked.lasting handle).and hG
  refine .bind (M := fun _ s => Inv w none s ∧ Unlinked handle s ∧ G s)
    (onStream_shared (Shared.inv.and (fun _ h => h.toStreams) hlasting) fun s h => ?_) fun _ => ?_
  · have hpasses := TcpStream.Passes.closeReading (h.1.kept handle) (Or.inr rfl)
    refine ⟨(h.1.passes h.2.1 hpasses).left ?_, hlasting s _ (.setStream hpasses.later) h.2⟩
    rw [setStream_streams, if_pos rfl]
    exact (TcpStream.has_store _ _ _).trans (by simp)
  · exact Keeps.bind (onStream_unlinked (fun _ h => .store h (by decide) (by decide)
        (by simp)) hG) fun _ =>
      .bind (onStream_unlinked (fun _ h => .wakeRecv h) hG) fun _ =>
        onStream_unlinked (fun _ h => .wakeSend h) hG

/-- **A flow that is over is removed.** -/
theorem removeFlow_drained (flow : FlowKey) (rest : List FlowKey) :
    Ensures
      (fun s => Inv w none s ∧ Halted s ∧ ∀ flow' ∈ flow :: rest, Drained s flow')
      (removeFlow w flow) (fun _ s => Inv w none s ∧ Halted s ∧ ∀ flow' ∈ rest, Drained s flow')
      fun _ => False := by
  refine .bind (M := fun before s => s = before ∧ Inv w none s ∧ Halted s ∧
      ∀ flow' ∈ flow :: rest, Drained s flow') (.read fun _ h => ⟨rfl, h⟩) fun before => ?_
  split
  · exact .pure fun s h => ⟨h.2.1, h.2.2.1, fun flow' hmem =>
      h.2.2.2 flow' (mem_cons_of_mem _ hmem)⟩
  rename_i entry hlookup
  have hlasting : Lasting fun s : Stack P => Halted s ∧ ∀ flow' ∈ rest, Drained s flow' :=
    Halted.lasting.and fun s t hgoes h i hi => Drained.lasting i s t hgoes (h i hi)
  refine .bind (.update ?_) fun _ => (closeHandle_left entry.handle hlasting).mono
    (fun _ _ h => ⟨h.1, h.2.2⟩) fun _ h => h
  rintro s ⟨rfl, hinv, hhalted, hdrained⟩
  refine ⟨hinv.remove hlookup (hdrained flow mem_cons_self), hinv.tables.unlinked hlookup,
    fun hstopped => ?_, fun flow' hmem =>
      (hdrained flow' (mem_cons_of_mem _ hmem)).remove hinv hlookup⟩
  -- a driver that has stopped has no flows to remove
  rw [(hhalted hstopped).2] at hlookup
  cases hlookup

theorem removeFlows_drained (flows : List FlowKey) :
    Ensures (fun s => Inv w none s ∧ Halted s ∧ ∀ flow ∈ flows, Drained s flow)
      (removeFlows w flows) (fun _ s => Inv w none s ∧ Halted s) fun _ => False := by
  induction flows with
  | nil => exact .pure fun _ h => ⟨h.1, h.2.1⟩
  | cons flow rest ih => exact (removeFlow_drained flow rest).bind fun _ => ih

/-- **A pass** leaves the driver at rest. -/
theorem driveTcpSockets_ready : Keeps (Ready w) (driveTcpSockets w) := by
  refine Ensures.bind (Keeps.read _) fun pending => ?_
  refine .bind (M := fun listed s => (∃ table : AList fun _ : FlowKey => TcpEntry,
      (∀ e ∈ listed, table.lookup e.1 = some e.2) ∧ (listed.map Sigma.fst).Nodup ∧
        Inv w none s ∧ Passing table [] s)) (.read fun s h => ?_) fun listed => ?_
  · -- the entries a pass lists are those of the table, each flow once
    have hperm := w.order_perm s.time s.tcpEntries.entries
    exact ⟨s.tcpEntries, fun e he => AList.mem_lookup_iff.mpr (hperm.mem_iff.mp he),
      (hperm.map Sigma.fst).nodup_iff.mpr s.tcpEntries.nodupKeys, h.1, rfl, h.2.2, nofun⟩
  refine .bind (M := fun inactive s => Inv w none s ∧ Halted s ∧ ∀ flow ∈ inactive, Drained s flow)
    ?_ fun inactive => (removeFlows_drained inactive).bind fun _ =>
      .update fun _ h => ⟨h.1.setStats _, ⟨rfl, rfl⟩, h.2⟩
  rintro s ⟨table, htable, hnodup, h⟩
  have hpass := driveSockets_passing (w := w) ((pending.bind w.parseTcpFlow).map Prod.fst) listed []
    htable hnodup nofun s h
  refine ⟨fun inactive hreturns => ?_, hpass.2⟩
  obtain ⟨hinv, hpassing⟩ := hpass.1 inactive hreturns
  rw [append_nil] at hpassing
  exact ⟨hinv, hpassing.halted, hpassing.drained⟩

/-- **`drive`** leaves the driver at rest. -/
theorem drive_ready : Keeps (Ready w) (drive w) := by
  have hpoll : Keeps (Ready w) (pollUnlessFull w) :=
    .bind (ask_keeps Ready.shared _) fun _ => .when poll_ready
  refine .bind (ask_keeps Ready.shared _) fun closed => ?_
  refine .ite (.update fun s h => Ready.shared.interfere s .cancel h) ?_
  exact .bind hpoll fun _ => .bind driveTcpSockets_ready fun _ => hpoll

end Driver

end Vole.Netstack
