import Mathlib.Algebra.GroupWithZero.Nat
import Vole.Tun.Ingest
import Vole.Tun.Model.Association

/-!
# The budget of the sniffing

The counters of the sniffing count what its pending flows hold, and stay
within the budget. A datagram that arrives adds one to what is pending or
ready, and it arrives only where nothing is ready; an expiry moves
datagrams from pending to ready. So the queue of ready datagrams never
exceeds its capacity.
-/

namespace Vole.Tun

open Table UdpQuicSniffState Option Nat

variable {S N : Type} {engine : QuicSniffEngine S N} {config : Option (UInt16 → Bool)}

/-- The number of datagrams that a flow holds back. -/
def QuicFlowState.count (_ : SocketAddr) (state : QuicFlowState S) : ℕ :=
  state.pending?.elim 0 fun pending => pending.datagrams.length

/-- The number of bytes that a flow holds back. -/
def QuicFlowState.bytes (_ : SocketAddr) (state : QuicFlowState S) : ℕ :=
  state.pending?.elim 0 PendingQuicFlow.bufferedBytes

/-- A pending flow holds at least one datagram, and has counted its bytes. -/
structure PendingQuicFlow.Filled (pending : PendingQuicFlow S) : Prop where
  datagrams : pending.datagrams ≠ []
  bufferedBytes : pending.bufferedBytes =
    (pending.datagrams.map fun prepared => prepared.datagram.payload.length).sum

/-- The number of datagrams that leave the sniffing. -/
def QuicIngressResult.count : QuicIngressResult → ℕ
  | .buffered => 0
  | .forward _ => 1
  | .replay datagrams => datagrams.length

namespace UdpQuicSniffState

open QuicFlowState

variable {s t cleared : UdpQuicSniffState S N} {destination : SocketAddr} {datagram : UdpDatagram}
  {now : ℕ}

/-- **The counters count what the pending flows hold**, within the
budget. -/
structure Budgeted (s : UdpQuicSniffState S N) : Prop where
  datagrams : s.pendingDatagrams = Table.total count s.flows
  bytes : s.pendingBytes = Table.total QuicFlowState.bytes s.flows
  datagrams_le : s.pendingDatagrams ≤ quicSniffPendingDatagramMax
  bytes_le : s.pendingBytes ≤ quicSniffPendingBytesMax
  flows_le : s.flows.size ≤ quicSniffFlowMax
  filled : ∀ destination pending, s.pendingAt destination = some pending → pending.Filled
  underflowed : s.underflowed = false

theorem Budgeted.withIdleTimeout (factory : N) (idleTimeout : ℕ) :
    Budgeted (withIdleTimeout factory idleTimeout : UdpQuicSniffState S N) where
  datagrams := rfl
  bytes := rfl
  datagrams_le := zero_le _
  bytes_le := zero_le _
  flows_le := zero_le _
  filled := nofun
  underflowed := rfl

/-- The counters as they stand while the flow to a destination is out of
the table, with what the flow accounts for. -/
structure Owing (s : UdpQuicSniffState S N) (destination : SocketAddr) (count bytes : ℕ) :
    Prop where
  lookup : s.flows.lookup destination = none
  datagrams : s.pendingDatagrams = count + Table.total QuicFlowState.count s.flows
  bytes : s.pendingBytes = bytes + Table.total QuicFlowState.bytes s.flows
  datagrams_le : s.pendingDatagrams ≤ quicSniffPendingDatagramMax
  bytes_le : s.pendingBytes ≤ quicSniffPendingBytesMax
  room : s.flows.size < quicSniffFlowMax
  filled : ∀ destination pending, s.pendingAt destination = some pending → pending.Filled
  underflowed : s.underflowed = false

variable {pending : PendingQuicFlow S}

theorem pendingAt_erase {other : SocketAddr}
    (h : (s.without destination).pendingAt other = some pending) :
    s.pendingAt other = some pending := by
  rw [pendingAt, UdpQuicSniffState.without, lookup_erase_apply] at h
  split_ifs at h
  · cases h
  · exact h

variable {rest : Table SocketAddr (QuicFlowState S)}

theorem pendingAt_cleared (hrest : Cleared s.flows destination rest) {other : SocketAddr}
    (h : ({ s with flows := rest } : UdpQuicSniffState S N).pendingAt other = some pending) :
    s.pendingAt other = some pending := by
  obtain ⟨state, hstate, hpending⟩ := bind_eq_some_iff.mp h
  have hne : other ≠ destination := by
    rintro rfl
    rw [show rest.lookup other = none from hrest.lookup_self] at hstate
    cases hstate
  rcases hrest.lookup hne with hsame | ⟨hnone, -⟩
  · exact bind_eq_some_iff.mpr ⟨state, hsame ▸ hstate, hpending⟩
  · rw [show rest.lookup other = none from hnone] at hstate
    cases hstate

/-- A pending flow that is taken out of the table is owed. -/
theorem Budgeted.without (h : s.Budgeted) (hpending : s.pendingAt destination = some pending) :
    (s.without destination).Owing destination pending.datagrams.length
      pending.bufferedBytes := by
  obtain ⟨state, hlookup, hstate⟩ := bind_eq_some_iff.mp hpending
  have hcount : count destination state = pending.datagrams.length := by
    rw [QuicFlowState.count, hstate]
    rfl
  have hbytes : QuicFlowState.bytes destination state = pending.bufferedBytes := by
    rw [QuicFlowState.bytes, hstate]
    rfl
  refine ⟨AList.lookup_erase _ _, ?_, ?_, h.datagrams_le, h.bytes_le, ?_,
    fun other flow hflow => h.filled other flow (pendingAt_erase hflow), h.underflowed⟩
  · rw [← hcount]
    exact h.datagrams.trans (total_of_lookup hlookup)
  · rw [← hbytes]
    exact h.bytes.trans (total_of_lookup hlookup)
  · have hsize := size_of_lookup hlookup
    have hle := h.flows_le
    exact lt_of_lt_of_le (by rw [hsize]; exact lt_succ_self _) hle

/-- Where nothing is pending, nothing is owed. -/
theorem Budgeted.totals (h : s.Budgeted)
    (hpending : s.pendingAt destination = none) (hrest : Cleared s.flows destination rest) :
    s.pendingDatagrams = Table.total count rest ∧
      s.pendingBytes = Table.total QuicFlowState.bytes rest := by
  have htotal : ∀ f : SocketAddr → QuicFlowState S → ℕ,
      (∀ other state, QuicFlowState.pending? state = none → f other state = 0) →
      Table.total f s.flows = Table.total f rest := by
    intro f hf
    rw [hrest.total hf]
    cases hlookup : s.flows.lookup destination with
    | none => rw [erase_of_lookup hlookup]
    | some state =>
      rw [pendingAt_of_lookup hlookup] at hpending
      rw [total_of_lookup hlookup, hf _ _ hpending, zero_add]
  refine ⟨h.datagrams.trans (htotal _ fun other state hnone => ?_),
    h.bytes.trans (htotal _ fun other state hnone => ?_)⟩
  · rw [QuicFlowState.count, hnone]
    rfl
  · rw [QuicFlowState.bytes, hnone]
    rfl

theorem Budgeted.owing (h : s.Budgeted)
    (hpending : s.pendingAt destination = none) (hrest : Cleared s.flows destination rest)
    (hroom : rest.size < quicSniffFlowMax) (factory : N) :
    Owing { s with flows := rest, factory } destination 0 0 := by
  obtain ⟨hdatagrams, hbytes⟩ := h.totals hpending hrest
  exact ⟨hrest.lookup_self, hdatagrams.trans (zero_add _).symm,
    hbytes.trans (zero_add _).symm, h.datagrams_le, h.bytes_le, hroom,
    fun other flow hflow => h.filled other flow (pendingAt_cleared hrest hflow), h.underflowed⟩

/-- A flow that is released is owed no more, and nothing underflows. -/
theorem Owing.release (h : s.Owing destination pending.datagrams.length pending.bufferedBytes) :
    (s.releasePending pending).Owing destination 0 0 ∧
      (s.releasePending pending).pendingDatagrams + pending.datagrams.length =
        s.pendingDatagrams := by
  have hdatagrams := h.datagrams
  have hbytes := h.bytes
  have hle := h.datagrams_le
  have hle' := h.bytes_le
  refine ⟨⟨h.lookup, ?_, ?_, ?_, ?_, h.room, h.filled, ?_⟩, ?_⟩
  · show s.pendingDatagrams - pending.datagrams.length = _
    rw [hdatagrams, Nat.add_sub_cancel_left, Nat.zero_add]
    rfl
  · show s.pendingBytes - pending.bufferedBytes = _
    rw [hbytes, Nat.add_sub_cancel_left, Nat.zero_add]
    rfl
  · exact (sub_le _ _).trans hle
  · exact (sub_le _ _).trans hle'
  · have hsound : ¬ s.pendingDatagrams < pending.datagrams.length := by omega
    have hsound' : ¬ s.pendingBytes < pending.bufferedBytes := by omega
    simp [releasePending, h.underflowed, hsound, hsound']
  · show s.pendingDatagrams - pending.datagrams.length + pending.datagrams.length = _
    omega

/-- One more datagram is owed, where it may be buffered. -/
theorem Owing.charge {count bytes : ℕ} (h : s.Owing destination count bytes) {length : ℕ}
    (hbuffer : s.canBuffer length = true) :
    (s.charge length).Owing destination (count + 1) (bytes + length) := by
  obtain ⟨hcan, hcan'⟩ := Bool.and_eq_true_iff.mp hbuffer
  have hlt := of_decide_eq_true hcan
  have hle := of_decide_eq_true hcan'
  have hdatagrams := h.datagrams
  have hbytes := h.bytes
  refine ⟨h.lookup, ?_, ?_, hlt, hle, h.room, h.filled, h.underflowed⟩
  · show s.pendingDatagrams + 1 = count + 1 + Table.total QuicFlowState.count s.flows
    omega
  · show s.pendingBytes + length = bytes + length + Table.total QuicFlowState.bytes s.flows
    omega

variable {state : QuicFlowState S}

/-- **What is owed is put into the table.** -/
theorem Owing.put
    (h : s.Owing destination (QuicFlowState.count destination state)
      (QuicFlowState.bytes destination state))
    (hfilled : ∀ pending, state.pending? = some pending → pending.Filled) :
    (s.put destination state).Budgeted := by
  have herase : s.flows.erase destination = s.flows := erase_of_lookup h.lookup
  refine ⟨?_, ?_, h.datagrams_le, h.bytes_le, ?_, fun other pending hpending => ?_,
    h.underflowed⟩
  · refine h.datagrams.trans ?_
    rw [UdpQuicSniffState.put, total_insert, herase]
  · refine h.bytes.trans ?_
    rw [UdpQuicSniffState.put, total_insert, herase]
  · rw [UdpQuicSniffState.put, size_insert, herase]
    exact h.room
  by_cases heq : other = destination
  · subst heq
    rw [pendingAt_of_lookup (AList.lookup_insert s.flows)] at hpending
    exact hfilled pending hpending
  · have hsame : (s.put destination state).pendingAt other = s.pendingAt other := by
      unfold pendingAt UdpQuicSniffState.put
      rw [AList.lookup_insert_ne heq]
    exact h.filled other pending (hsame ▸ hpending)

/-! ## A datagram arrives -/

/-- A settled flow is not pending. -/
theorem Settles.pending? {prepared : PreparedTunUdpDatagram}
    (h : Settles engine s datagram now prepared state) : state.pending? = none := by
  cases h <;> rfl

theorem Finishes.pending? {replay : List PreparedTunUdpDatagram}
    (h : Finishes engine s datagram now pending replay state) : state.pending? = none := by
  cases h <;> rfl

/-- A flow that ends replays what it held and the datagram. -/
theorem Finishes.datagrams {replay : List PreparedTunUdpDatagram}
    (h : Finishes engine s datagram now pending replay state) :
    replay.map (·.datagram) =
      pending.datagrams.map (·.datagram) ++ [datagram] := by
  cases h with
  | unsupported | noDomain => rw [List.map_append]; rfl
  | matched =>
    rw [List.map_map, List.map_append]
    rfl

/-- Reading on changes neither the datagrams of a flow nor its bytes. -/
theorem ReadsOn.datagrams {pending next : PendingQuicFlow S}
    (h : ReadsOn engine s datagram pending next) :
    next.datagrams.map (·.datagram) =
      pending.datagrams.map (·.datagram) ∧
    next.bufferedBytes = pending.bufferedBytes := by
  cases h with
  | same => exact ⟨rfl, rfl⟩
  | adopted =>
    refine ⟨?_, rfl⟩
    cases pending.datagrams <;> rfl

theorem ReadsOn.filled {pending next : PendingQuicFlow S}
    (h : ReadsOn engine s datagram pending next) (hpending : pending.Filled) : next.Filled := by
  obtain ⟨hdatagrams, hbytes⟩ := h.datagrams
  have hlength := congrArg List.length hdatagrams
  rw [List.length_map, List.length_map] at hlength
  refine ⟨fun hnil => hpending.datagrams (List.length_eq_zero_iff.mp ?_), ?_⟩
  · rw [← hlength, hnil]
    rfl
  · have hsum := congrArg (fun l => (l.map fun d : UdpDatagram => d.payload.length).sum) hdatagrams
    rw [List.map_map, List.map_map] at hsum
    exact hbytes.trans (hpending.bufferedBytes.trans hsum.symm)

/-- A flow that begins is within the budget, and so is what it held
before. -/
theorem Begins.budgeted {next : QuicIngressResult} (h : Begins engine s cleared datagram now next t)
    (howing : cleared.Owing datagram.destination 0 0) :
    t.Budgeted ∧ next.count + t.pendingDatagrams = cleared.pendingDatagrams + 1 := by
  cases h with
  | settled _ hsettles =>
    have hnone := hsettles.pending?
    refine ⟨Owing.put ?_ fun pending hpending => ?_, add_comm 1 _⟩
    · rw [QuicFlowState.count, QuicFlowState.bytes, hnone]
      exact howing
    · rw [hnone] at hpending
      cases hpending
  | @held pending _ hholds hbuffer =>
    have hcharged := howing.charge hbuffer
    refine ⟨Owing.put ?_ fun flow hflow => ?_, zero_add _⟩
    · have hcount : QuicFlowState.count datagram.destination (.pending pending) = 0 + 1 := by
        show pending.datagrams.length = 1
        rw [hholds.datagrams]
        rfl
      have hbytes : QuicFlowState.bytes datagram.destination (.pending pending) =
          0 + datagram.payload.length :=
        hholds.bufferedBytes.trans (zero_add _).symm
      rw [hcount, hbytes]
      exact hcharged
    · obtain rfl : pending = flow := some.inj hflow
      refine ⟨?_, ?_⟩
      · rw [hholds.datagrams]
        exact List.cons_ne_nil _ _
      · rw [hholds.bufferedBytes, hholds.datagrams]
        rfl

theorem prependQuicReplay_count (replay : List PreparedTunUdpDatagram) (next : QuicIngressResult) :
    (prependQuicReplay replay next).count = replay.length + next.count := by
  unfold prependQuicReplay
  split_ifs with hempty
  · rw [List.isEmpty_iff.mp hempty, List.length_nil, zero_add]
  · cases next <;> simp [QuicIngressResult.count]

/-- **A datagram that arrives adds one** to what is pending or leaves. -/
theorem Ingested.budgeted {result : QuicIngressResult} (h : Ingested engine s datagram now result t)
    (hs : s.Budgeted) :
    t.Budgeted ∧ result.count + t.pendingDatagrams = s.pendingDatagrams + 1 := by
  cases h with
  | passed hnone hrest =>
    obtain ⟨hdatagrams, hbytes⟩ := hs.totals hnone hrest
    refine ⟨⟨hdatagrams, hbytes, hs.datagrams_le, hs.bytes_le, ?_,
      fun other flow hflow => hs.filled other flow (pendingAt_cleared hrest hflow),
      hs.underflowed⟩, add_comm 1 _⟩
    exact hrest.size_le.trans (size_erase_le.trans hs.flows_le)
  | started hnone hrest hroom hbegins => exact hbegins.budgeted (hs.owing hnone hrest hroom _)
  | @joined pending next _ hpending hreads hbuffer =>
    obtain ⟨hdatagrams, hbytes⟩ := hreads.datagrams
    have hlength := congrArg List.length hdatagrams
    rw [List.length_map, List.length_map] at hlength
    have hbuffer' : (s.without datagram.destination).canBuffer datagram.payload.length = true :=
      hbuffer
    have hcharged := (hs.without hpending).charge hbuffer'
    have hfilled := hreads.filled (hs.filled _ _ hpending)
    refine ⟨Owing.put ?_ fun flow hflow => ?_, zero_add _⟩
    · rw [← hlength, ← hbytes] at hcharged
      have hcount : (next.datagrams ++
          [PreparedTunUdpDatagram.withoutDomain datagram (some next.flow)]).length =
            next.datagrams.length + 1 := List.length_append
      unfold QuicFlowState.count QuicFlowState.bytes
      simp only [QuicFlowState.pending?, elim_some, hcount]
      exact hcharged
    · cases hflow
      refine ⟨List.append_ne_nil_of_left_ne_nil hfilled.datagrams _, ?_⟩
      rw [List.map_append, List.sum_append, ← hfilled.bufferedBytes]
      rfl
  | @finished pending next replay state hpending hreads hfinishes =>
    obtain ⟨hdatagrams, hbytes⟩ := hreads.datagrams
    have hlength := congrArg List.length hdatagrams
    rw [List.length_map, List.length_map] at hlength
    have howing := hs.without hpending
    rw [← hlength, ← hbytes] at howing
    obtain ⟨hreleased, hcount⟩ := howing.release
    have hnone := hfinishes.pending?
    have hreplay := congrArg List.length hfinishes.datagrams
    rw [List.length_map, List.length_append, List.length_map, List.length_singleton] at hreplay
    refine ⟨Owing.put ?_ fun flow hflow => ?_, ?_⟩
    · rw [QuicFlowState.count, QuicFlowState.bytes, hnone]
      exact hreleased
    · rw [hnone] at hflow
      cases hflow
    · show replay.length + ((s.without datagram.destination).releasePending next).pendingDatagrams
        = _
      have : (s.without datagram.destination).pendingDatagrams = s.pendingDatagrams := rfl
      omega
  | @overtook pending sniffer factory hovertakes =>
    have howing := hs.without hovertakes.pendingAt
    have hfilled := hs.filled _ _ hovertakes.pendingAt
    refine ⟨Owing.put ⟨howing.lookup, howing.datagrams, howing.bytes, howing.datagrams_le,
      howing.bytes_le, howing.room, howing.filled, howing.underflowed⟩ fun flow hflow => ?_,
      add_comm 1 _⟩
    cases hflow
    exact ⟨hfilled.datagrams, hfilled.bufferedBytes⟩
  | @replaced pending factory next t hpending hbegins =>
    have howing := hs.without hpending
    have hfactory : Owing { s.without datagram.destination with factory } datagram.destination
        pending.datagrams.length pending.bufferedBytes :=
      ⟨howing.lookup, howing.datagrams, howing.bytes, howing.datagrams_le, howing.bytes_le,
        howing.room, howing.filled, howing.underflowed⟩
    obtain ⟨hreleased, hcount⟩ := hfactory.release
    obtain ⟨hbudgeted, hnext⟩ := hbegins.budgeted hreleased
    refine ⟨hbudgeted, ?_⟩
    rw [prependQuicReplay_count]
    have : ({ s.without datagram.destination with factory } : UdpQuicSniffState S N).pendingDatagrams
      = s.pendingDatagrams := rfl
    omega

/-! ## Deadlines pass -/

/-- **A flow that expires** gives all it holds. -/
theorem expireOne_budgeted (now : ℕ) (destination : SocketAddr)
    (replay : List PreparedTunUdpDatagram) (hs : s.Budgeted) :
    (expireOne now (replay, s) destination).2.Budgeted ∧
      (expireOne now (replay, s) destination).1.length +
        (expireOne now (replay, s) destination).2.pendingDatagrams =
          replay.length + s.pendingDatagrams := by
  unfold expireOne
  cases hpending : s.pendingAt destination with
  | none => exact ⟨hs, rfl⟩
  | some pending =>
    obtain ⟨hreleased, hcount⟩ := (hs.without hpending).release
    refine ⟨Owing.put hreleased nofun, ?_⟩
    show (replay ++ pending.datagrams).length +
      ((s.without destination).releasePending pending).pendingDatagrams = _
    have : (s.without destination).pendingDatagrams = s.pendingDatagrams := rfl
    rw [List.length_append]
    omega

theorem expire_budgeted (order : List SocketAddr) (now : ℕ) (hs : s.Budgeted) :
    (s.expire order now).2.Budgeted ∧
      (s.expire order now).1.length + (s.expire order now).2.pendingDatagrams =
        s.pendingDatagrams := by
  refine List.foldlRecOn _ _ (motive := fun (reached : List _ × UdpQuicSniffState S N) =>
    reached.2.Budgeted ∧ reached.1.length + reached.2.pendingDatagrams = s.pendingDatagrams)
    ⟨hs, zero_add _⟩ ?_
  rintro ⟨replay, t⟩ ⟨ht, hcounts⟩ destination -
  obtain ⟨hone, hcount⟩ := expireOne_budgeted now destination replay ht
  exact ⟨hone, hcount.trans hcounts⟩

end UdpQuicSniffState

/-! ## The loop -/

namespace Association

variable {a b : Association S N} {event : AssociationEvent}

/-- **What a turn of the loop does.** -/
inductive Turn (engine : QuicSniffEngine S N) (config : Option (UInt16 → Bool))
    (a : Association S N) : AssociationEvent → Association S N → Prop
  | quiet {event : AssociationEvent} {ended : Option Ending} :
    a.ended = none → ended ≠ some (.failed .capacity) →
    (∀ order datagram now, event ≠ .inbound order datagram now) →
    Turn engine config a event { a with ended }
  | expired {order : List SocketAddr} {now : ℕ} :
    order.Perm a.quicSniff.flows.keys →
    Turn engine config a (.sniffDeadline order now) (a.sniffDeadline order now)
  | sent {prepared : PreparedTunUdpDatagram} {c : Association S N} {result : SendResult} :
    a.ended = none → a.takeReady = some (prepared, c) →
    Turn engine config a (.readySend result) (c.send prepared result)
  | received {order : List SocketAddr} {datagram : UdpDatagram} {now : ℕ} :
    a.ended = none → a.canSend = false →
    Turn engine config a (.inbound order datagram now)
      (a.inbound engine config order datagram now)

/-- A step is a turn. -/
theorem turn_of_step (hstep : a.step engine config event = some b) :
    Turn engine config a event b := by
  unfold step at hstep
  obtain ⟨hended, hstep⟩ := ite_none_left_eq_some.mp hstep
  have hnone : a.ended = none := by simpa using hended
  cases event with
  | cancelled | outboundFailed message =>
    cases hstep
    exact .quiet hnone nofun nofun
  | sniffDeadline order now =>
    simp only at hstep
    split_ifs at hstep with hguard
    cases hstep
    exact .expired hguard.2
  | readySend result =>
    obtain ⟨⟨prepared, c⟩, htake, rfl⟩ := map_eq_some_iff.mp hstep
    exact .sent hnone htake
  | inbound order datagram now =>
    simp only at hstep
    split_ifs at hstep with hguard
    cases hstep
    exact .received hnone hguard.1
  | inboundClosed =>
    simp only at hstep
    split at hstep
    · cases hstep
      exact .quiet hnone nofun nofun
    · cases hstep
  | outbound remote queueing =>
    cases hstep
    have hsame : Turn engine config a (.outbound remote queueing) { a with ended := a.ended } :=
      .quiet hnone (by rw [hnone]; exact nofun) nofun
    cases remote with
    | domain host port => exact .quiet hnone nofun nofun
    | ip address =>
      cases queueing with
      | queued | dropped => exact hsame
      | closed => exact .quiet hnone nofun nofun

/-- The number of datagrams that are ready, waiting to be sent or
pending. -/
def load (a : Association S N) : ℕ :=
  a.ready.length + (if a.pendingSend.isSome then 1 else 0) + a.quicSniff.pendingDatagrams

/-- The loop is within its budget and has not failed its own check. -/
structure Balanced (a : Association S N) : Prop where
  budget : a.quicSniff.Budgeted
  load_le : a.load ≤ quicSniffReadyDatagramMax
  intact : a.ended ≠ some (.failed .capacity)

theorem Balanced.new (factory : N) (idleTimeout : ℕ) :
    Balanced (new factory idleTimeout : Association S N) :=
  ⟨.withIdleTimeout factory idleTimeout, zero_le _, nofun⟩

/-- An append within the budget succeeds. -/
theorem append_eq {datagrams : List PreparedTunUdpDatagram}
    (h : a.ready.length + datagrams.length ≤ quicSniffReadyDatagramMax) :
    a.append datagrams = { a with ready := a.ready ++ datagrams } := by
  unfold append appendReadyDatagrams
  rw [if_neg (by omega)]

/-- What expires is ready then. -/
theorem sniffDeadline_eq (h : a.Balanced) (order : List SocketAddr) (now : ℕ) :
    a.sniffDeadline order now =
      { a with
        quicSniff := (a.quicSniff.expire order now).2
        ready := a.ready ++ (a.quicSniff.expire order now).1 } := by
  obtain ⟨-, hcount⟩ := expire_budgeted order now h.budget
  have hload := h.load_le
  unfold load at hload
  refine append_eq ?_
  show a.ready.length + (a.quicSniff.expire order now).1.length ≤ _
  omega

theorem sniffDeadline_balanced (h : a.Balanced) (order : List SocketAddr) (now : ℕ) :
    (a.sniffDeadline order now).Balanced := by
  obtain ⟨hbudget, hcount⟩ := expire_budgeted order now h.budget
  have hload := h.load_le
  unfold load at hload
  rw [sniffDeadline_eq h]
  refine ⟨hbudget, ?_, h.intact⟩
  show (a.ready ++ (a.quicSniff.expire order now).1).length +
    (if a.pendingSend.isSome then 1 else 0) + (a.quicSniff.expire order now).2.pendingDatagrams ≤ _
  rw [List.length_append]
  omega

theorem send_balanced (h : a.Balanced) {prepared : PreparedTunUdpDatagram} {c : Association S N}
    (htake : a.takeReady = some (prepared, c)) (result : SendResult) :
    (c.send prepared result).Balanced := by
  have hload := h.load_le
  -- what is taken leaves less, whatever sending it comes to
  have hc : c.quicSniff = a.quicSniff ∧ c.load ≤ a.load ∧ c.ended = a.ended := by
    unfold takeReady at htake
    split at htake
    next heq _ =>
      cases htake
      refine ⟨rfl, ?_, rfl⟩
      simp [load]
    next ready hnone heq =>
      cases htake
      refine ⟨rfl, ?_, rfl⟩
      simp only [load, heq, List.length_cons]
      omega
    next => cases htake
  obtain ⟨hsniff, hle, hended⟩ := hc
  have hbudget : c.quicSniff.Budgeted := hsniff ▸ h.budget
  cases result with
  | sent => exact ⟨hbudget, hle.trans hload, hended ▸ h.intact⟩
  | failed message => exact ⟨hbudget, hle.trans hload, nofun⟩
  | cancelled asked => cases asked <;> exact ⟨hbudget, hle.trans hload, nofun⟩

/-- Nothing is ready to be sent. -/
theorem canSend_eq_false : a.canSend = false ↔ a.pendingSend = none ∧ a.ready = [] := by
  unfold canSend
  simp

theorem accept_balanced {result : QuicIngressResult} (hbudget : a.quicSniff.Budgeted)
    (hsend : a.canSend = false)
    (hcount : result.count + a.quicSniff.pendingDatagrams ≤ quicSniffReadyDatagramMax)
    (hended : a.ended ≠ some (.failed .capacity)) : (a.accept result).Balanced := by
  obtain ⟨hnone, hready⟩ := canSend_eq_false.mp hsend
  cases result with
  | buffered =>
    refine ⟨hbudget, ?_, hended⟩
    simp only [accept, load, hnone, hready]
    exact (zero_add _).trans_le ((le_add_left _ _).trans hcount)
  | forward prepared =>
    refine ⟨hbudget, ?_, hended⟩
    simp only [accept, load, hready]
    exact (add_assoc 0 1 _).trans_le ((zero_add _).trans_le hcount)
  | replay datagrams =>
    have hlength : datagrams.length + a.quicSniff.pendingDatagrams ≤ quicSniffReadyDatagramMax :=
      hcount
    rw [accept, append_eq (by rw [hready, List.length_nil]; omega)]
    refine ⟨hbudget, ?_, hended⟩
    simp only [load, hnone, hready, List.nil_append]
    exact hlength

theorem inbound_balanced (engine : QuicSniffEngine S N) (config : Option (UInt16 → Bool))
    (h : a.Balanced) (hsend : a.canSend = false) (order : List SocketAddr)
    (datagram : UdpDatagram) (now : ℕ) : (a.inbound engine config order datagram now).Balanced := by
  unfold inbound
  have hle := h.budget.datagrams_le
  dsimp only
  split_ifs with hsniff
  · obtain ⟨hbudget, hcount⟩ := (ingestDatagram_spec engine order
      { datagram with number := a.received } now h.budget.flows_le).budgeted h.budget
    refine accept_balanced hbudget hsend ?_ h.intact
    rw [hcount]
    exact succ_le_succ hle
  · refine accept_balanced h.budget hsend ?_ h.intact
    show 1 + a.quicSniff.pendingDatagrams ≤ quicSniffPendingDatagramMax + 1
    omega

/-- **Every turn keeps the budget.** -/
theorem Turn.balanced (h : Turn engine config a event b) (ha : a.Balanced) : b.Balanced := by
  cases h with
  | quiet _ hended => exact ⟨ha.budget, ha.load_le, hended⟩
  | expired => exact sniffDeadline_balanced ha _ _
  | sent _ htake => exact send_balanced ha htake _
  | received _ hsend => exact inbound_balanced engine config ha hsend _ _ _

/-- The runs of the loop of an association. -/
def Runs (engine : QuicSniffEngine S N) (config : Option (UInt16 → Bool)) (factory : N)
    (idleTimeout : ℕ) : List (Association S N × AssociationEvent) → Association S N → Prop :=
  Run (fun a event b => a.step engine config event = some b) (new factory idleTimeout)

variable {factory : N} {idleTimeout : ℕ} {history : List (Association S N × AssociationEvent)}

theorem Runs.balanced (h : Runs engine config factory idleTimeout history a) : a.Balanced :=
  Run.invariant h (.new factory idleTimeout) fun _ _ _ hs hstep => (turn_of_step hstep).balanced hs

/-- **The sniffing stays within its budget**, in every run and whatever the
sniffers answer: the counters count what the pending flows hold and never
go below zero, the flows are few and none is empty, and what is ready,
waiting to be sent and pending fits the queue. So the queue is never found
full, and no datagram that waits to be sent is overwritten. -/
theorem sniffing_within_budget (h : Runs engine config factory idleTimeout history a) :
    a.quicSniff.pendingDatagrams = Table.total QuicFlowState.count a.quicSniff.flows ∧
    a.quicSniff.pendingBytes = Table.total QuicFlowState.bytes a.quicSniff.flows ∧
    a.quicSniff.pendingDatagrams ≤ 8 ∧ a.quicSniff.pendingBytes ≤ 32 * 1024 ∧
    a.quicSniff.underflowed = false ∧ a.quicSniff.flows.size ≤ 4 ∧
    (∀ destination pending, a.quicSniff.flows.lookup destination = some (.pending pending) →
      pending.datagrams ≠ []) ∧
    a.ready.length + (if a.pendingSend.isSome then 1 else 0) + a.quicSniff.pendingDatagrams ≤ 9 ∧
    a.ended ≠ some (.failed .capacity) ∧
    (∀ order datagram now b, a.step engine config (.inbound order datagram now) = some b →
      a.pendingSend = none) := by
  have ha := h.balanced
  refine ⟨ha.budget.datagrams, ha.budget.bytes, ha.budget.datagrams_le, ha.budget.bytes_le,
    ha.budget.underflowed, ha.budget.flows_le, fun destination pending hlookup => ?_,
    ha.load_le, ha.intact, fun order datagram now b hstep => ?_⟩
  · exact (ha.budget.filled destination pending
      (pendingAt_of_lookup hlookup)).datagrams
  · cases turn_of_step hstep with
    | quiet _ _ hinbound => exact absurd rfl (hinbound order datagram now)
    | received _ hsend => exact (canSend_eq_false.mp hsend).1

end Association

/-! ## A sample -/

/-- A sniffer that asks for more, up to an empty payload. -/
def patientEngine : QuicSniffEngine Unit Unit where
  ingest := fun _ payload => (if payload = [] then .notMatched else .needMoreData, ())
  authenticatedInitialInLastIngest := fun _ => false
  newSniffer := fun _ => ((), ())
  observation := fun _ => .none

/-- A datagram to an address with this last byte. -/
def sampleDatagram (host : BitVec 32) (payload : Bytes) : UdpDatagram where
  source := ⟨.v4 1, 1000⟩
  destination := ⟨.v4 host, 443⟩
  payload
  number := 0

/-- Two flows become pending, one of them expires and the other ends. -/
def sampleEvents : List AssociationEvent :=
  [.inbound [] (sampleDatagram 2 [1, 2]) 0,
    .inbound [⟨.v4 2, 443⟩] (sampleDatagram 3 [3]) 100,
    .sniffDeadline [⟨.v4 3, 443⟩, ⟨.v4 2, 443⟩] 500,
    .readySend .sent,
    .inbound [⟨.v4 3, 443⟩, ⟨.v4 2, 443⟩] (sampleDatagram 3 []) 550]

theorem Association.sniffing_within_budget_sample :
    ∃ history a, Association.Runs patientEngine (some (· == 443)) () 60000 history a ∧
      a.handed.length = 1 ∧ a.ready.length = 2 ∧ a.quicSniff.pendingDatagrams = 0 ∧
      a.ready.length + (if a.pendingSend.isSome then 1 else 0) +
        a.quicSniff.pendingDatagrams ≤ 9 := by
  obtain ⟨a, hrun, hhanded, hready, hpending⟩ := run_of_exec_any
    (fun a event => a.step patientEngine (some (· == 443)) event)
    (s := Association.new () 60000) sampleEvents
    (fun a => a.handed.length = 1 ∧ a.ready.length = 2 ∧ a.quicSniff.pendingDatagrams = 0)
    (by decide +kernel)
  exact ⟨_, a, hrun, hhanded, hready, hpending,
    (Association.sniffing_within_budget hrun).2.2.2.2.2.2.2.1⟩

end Vole.Tun
