import Vole.Tun.Model.Quic

/-!
# What a datagram does to the sniffing

`Ingested` says once what `ingest_datagram` can do with a datagram, and what
is then true of the flow to its destination: the datagram is passed on, it
settles or starts a flow, it joins a pending one, ends it, overtakes it or
replaces it. Nothing else in the table changes, but that a completed flow
may have made room.
-/

namespace Vole.Tun

open Option List Bool PreparedTunUdpDatagram

namespace UdpQuicSniffState

variable {S N : Type} {engine : QuicSniffEngine S N} {s t : UdpQuicSniffState S N}
  {datagram : UdpDatagram} {order : List SocketAddr} {now : ℕ}

/-! ## Making room -/

/-- **The table without the flow to a destination**, and perhaps without
another completed flow. -/
inductive Cleared (table : Table SocketAddr (QuicFlowState S)) (destination : SocketAddr) :
    Table SocketAddr (QuicFlowState S) → Prop
  | same : Cleared table destination (table.erase destination)
  | evicted {other : SocketAddr} {state : QuicFlowState S} :
    (table.erase destination).lookup other = some state → state.pending? = none →
    Cleared table destination ((table.erase destination).erase other)

variable {table rest : Table SocketAddr (QuicFlowState S)} {destination other : SocketAddr}

section

variable (h : Cleared table destination rest)

include h

theorem Cleared.lookup_self : rest.lookup destination = none := by
  cases h with
  | same => exact AList.lookup_erase _ _
  | @evicted other state hother _ =>
    have hne : destination ≠ other := by
      rintro rfl
      rw [AList.lookup_erase] at hother
      cases hother
    rw [AList.lookup_erase_ne hne, AList.lookup_erase]

/-- The other flows are there still, unless they are completed. -/
theorem Cleared.lookup (hne : other ≠ destination) :
    rest.lookup other = table.lookup other ∨
      rest.lookup other = none ∧ ∃ state, table.lookup other = some state ∧
        state.pending? = none := by
  cases h with
  | same => exact .inl (AList.lookup_erase_ne hne)
  | @evicted evicted state hevicted hstate =>
    by_cases heq : other = evicted
    · subst heq
      rw [AList.lookup_erase_ne hne] at hevicted
      exact .inr ⟨AList.lookup_erase _ _, state, hevicted, hstate⟩
    · rw [AList.lookup_erase_ne heq, AList.lookup_erase_ne hne]
      exact .inl rfl

/-- What counts pending flows counts the same. -/
theorem Cleared.total {M : Type} [AddCommMonoid M] {f : SocketAddr → QuicFlowState S → M}
    (hf : ∀ other state, QuicFlowState.pending? state = none → f other state = 0) :
    Table.total f rest = Table.total f (table.erase destination) := by
  cases h with
  | same => rfl
  | evicted hother hstate => rw [Table.total_of_lookup hother, hf _ _ hstate, zero_add]

theorem Cleared.size_le : rest.size ≤ Table.size (table.erase destination) := by
  cases h with
  | same => exact Nat.le_refl _
  | evicted => exact Table.size_erase_le

end

/-- The state without the flow to a destination, as `ingest_datagram` makes
it first. -/
def without (s : UdpQuicSniffState S N) (destination : SocketAddr) : UdpQuicSniffState S N :=
  { s with flows := s.flows.erase destination }

/-- `make_room_for_flow` makes room where it says so, and otherwise changes
nothing. -/
theorem makeRoomForFlow_spec (hsize : s.flows.size ≤ quicSniffFlowMax) (destination : SocketAddr)
    (order : List SocketAddr) :
    ∃ made rest, (s.without destination).makeRoomForFlow order = (made, { s with flows := rest }) ∧
      (made = true → rest.size < quicSniffFlowMax) ∧ Cleared s.flows destination rest := by
  have herase : Table.size (s.flows.erase destination) ≤ quicSniffFlowMax :=
    Table.size_erase_le.trans hsize
  unfold makeRoomForFlow
  split_ifs with hroom
  · exact ⟨true, _, rfl, fun _ => hroom, .same⟩
  cases holdest : (order.filterMap (s.without destination).lastUsed).argmin Prod.snd with
  | none => exact ⟨false, _, rfl, nofun, .same⟩
  | some oldest =>
    obtain ⟨other, used⟩ := oldest
    have hmem := argmin_mem holdest
    obtain ⟨key, -, hkey⟩ := mem_filterMap.mp hmem
    obtain ⟨completed, hcompleted, hpair⟩ := map_eq_some_iff.mp hkey
    obtain ⟨state, hstate, hstateCompleted⟩ := bind_eq_some_iff.mp hcompleted
    obtain ⟨rfl, -⟩ := Prod.mk.inj hpair
    have hpending : state.pending? = none := by
      cases state with
      | pending flow => cases hstateCompleted
      | matched domain flow | noDomain flow => rfl
    have hstate' : (s.flows.erase destination).lookup key = some state := hstate
    refine ⟨true, (s.flows.erase destination).erase key, rfl, fun _ => ?_,
      .evicted hstate' hpending⟩
    have hless := Table.size_of_lookup hstate'
    omega

/-! ## Answers of the sniffers -/

section

variable (engine s datagram now)

/-- What a sniffer answers to a payload, and whether an Initial
authenticated. -/
def answer (sniffer : S) (payload : Bytes) : QuicSniffOutcome × Bool :=
  ((engine.ingest sniffer payload).1,
    engine.authenticatedInitialInLastIngest (engine.ingest sniffer payload).2)

/-- The sniffer that would be made next. -/
def fresh : S := (engine.newSniffer s.factory).1

/-- **What the sniffer of a flow answers to a datagram**: the sniffer of the
pending flow, or the one made for the flow that the datagram starts. -/
def Answers (flow : ℕ) (reply : QuicSniffOutcome × Bool) : Prop :=
  (∃ pending, s.pendingAt datagram.destination = some pending ∧ pending.flow = flow ∧
    answer engine pending.sniffer datagram.payload = reply) ∨
  (flow = datagram.number ∧ answer engine (s.fresh engine) datagram.payload = reply)

/-- **The flow a datagram belongs to**: the one it meets, unless it opens a new
connection. The Initial of a new connection belongs to the flow it starts where
a fresh sniffer authenticates it; to a pending flow whose own sniffer
authenticates it; and else to none, if the flow it meets is pending. -/
def flowOf : Option ℕ :=
  let key := quicConnectionKey engine datagram.payload
  let authenticates (sniffer : S) : Bool := (answer engine sniffer datagram.payload).2
  if key.isNone && quicHasUnsupportedVersion engine datagram.payload then none
  else
    match s.current datagram now with
    | none => some datagram.number
    | some (.pending pending) =>
      if !startsNewQuicConnection pending.connectionKey key || authenticates pending.sniffer then
        some pending.flow
      else if authenticates (s.fresh engine) then some datagram.number
      else none
    | some (.matched _ completed) | some (.noDomain completed) =>
      if startsNewQuicConnection completed.connectionKey key && authenticates (s.fresh engine) then
        some datagram.number
      else completed.flow

/-! ## What a datagram does -/

/-- A flow that is settled with a datagram, which is forwarded. -/
inductive Settles : PreparedTunUdpDatagram → QuicFlowState S → Prop
  | unsupported : Settles (.withoutDomain datagram none)
      (.noDomain { connectionKey := none, lastUsed := now, flow := none })
  | matched {domain : Bytes} {completed : CompletedQuicFlow} :
    s.flows.lookup datagram.destination = some (.matched domain completed) →
    Settles (.withDomain datagram domain completed.flow)
      (.matched domain { completed with lastUsed := now })
  | noDomain {completed : CompletedQuicFlow} :
    s.flows.lookup datagram.destination = some (.noDomain completed) →
    Settles (.withoutDomain datagram completed.flow) (.noDomain { completed with lastUsed := now })
  | startedMatched {domain : Bytes} {key : Option QuicConnectionKey} {authenticated : Bool} :
    Answers engine s datagram datagram.number (.matched domain, authenticated) →
    (key ≠ none → authenticated = true) →
    Settles
      ((withDomain datagram domain (some datagram.number)).withFlowId key)
      (.matched domain { connectionKey := key, lastUsed := now, flow := some datagram.number })
  | startedNoDomain {outcome : QuicSniffOutcome} {key : Option QuicConnectionKey}
      {authenticated : Bool} :
    Answers engine s datagram datagram.number (outcome, authenticated) →
    (key ≠ none → authenticated = true) →
    Settles
      ((withoutDomain datagram (some datagram.number)).withFlowId key)
      (.noDomain { connectionKey := key, lastUsed := now, flow := some datagram.number })

/-- A flow that is started and held back with its first datagram. -/
structure Holds (pending : PendingQuicFlow S) : Prop where
  datagrams : pending.datagrams =
    [(withoutDomain datagram (some datagram.number)).withFlowId
      pending.connectionKey]
  bufferedBytes : pending.bufferedBytes = datagram.payload.length
  flow : pending.flow = datagram.number
  authenticated : pending.connectionKey ≠ none →
    ∃ outcome, Answers engine s datagram datagram.number (outcome, true)

/-- **A flow that a datagram starts** in a table without one, where `s` is
the state it found. -/
inductive Begins (engine : QuicSniffEngine S N) (s cleared : UdpQuicSniffState S N)
    (datagram : UdpDatagram) (now : ℕ) : QuicIngressResult → UdpQuicSniffState S N → Prop
  | settled {prepared : PreparedTunUdpDatagram} {state : QuicFlowState S} :
    flowOf engine s datagram now = prepared.flow →
    Settles engine s datagram now prepared state →
    Begins engine s cleared datagram now (.forward prepared)
      (cleared.put datagram.destination state)
  | held {pending : PendingQuicFlow S} :
    flowOf engine s datagram now = some datagram.number →
    Holds engine s datagram pending → cleared.canBuffer datagram.payload.length = true →
    Begins engine s cleared datagram now .buffered
      ((cleared.charge datagram.payload.length).put datagram.destination (.pending pending))

/-- What a pending flow becomes as its sniffer reads on: it may adopt its
identity. -/
inductive ReadsOn (pending : PendingQuicFlow S) : PendingQuicFlow S → Prop
  | same {sniffer : S} : ReadsOn pending { pending with sniffer }
  | adopted {sniffer : S} {key : Option QuicConnectionKey} :
    pending.connectionKey = none →
    (∃ outcome, Answers engine s datagram pending.flow (outcome, true)) →
    ReadsOn pending { pending with
      sniffer
      connectionKey := key
      datagrams := pending.datagrams.modifyHead (·.withFlowId key) }

/-- A pending flow that ends with a datagram: what is replayed, and what is
left. -/
inductive Finishes (pending : PendingQuicFlow S) :
    List PreparedTunUdpDatagram → QuicFlowState S → Prop
  | unsupported : Finishes pending
      (pending.datagrams ++ [.withoutDomain datagram none])
      (.noDomain { connectionKey := none, lastUsed := now, flow := none })
  | matched {domain : Bytes} {authenticated : Bool} :
    flowOf engine s datagram now = some pending.flow →
    Answers engine s datagram pending.flow (.matched domain, authenticated) →
    Finishes pending
      ((pending.datagrams ++ [withoutDomain datagram (some pending.flow)]).map
        fun buffered => { buffered with sniffedDomain := some domain })
      (.matched domain
        { connectionKey := pending.connectionKey, lastUsed := now, flow := some pending.flow })
  | noDomain : flowOf engine s datagram now = some pending.flow → Finishes pending
      (pending.datagrams ++ [.withoutDomain datagram (some pending.flow)])
      (.noDomain
        { connectionKey := pending.connectionKey, lastUsed := now, flow := some pending.flow })

/-- **A datagram that overtakes a pending flow**: its key differs from the
flow's, and it authenticates neither under the flow's sniffer nor under a
fresh one. -/
structure Overtakes (pending : PendingQuicFlow S) : Prop where
  pendingAt : s.pendingAt datagram.destination = some pending
  differs : startsNewQuicConnection pending.connectionKey
    (quicConnectionKey engine datagram.payload) = true
  underPending : (answer engine pending.sniffer datagram.payload).2 = false
  underFresh : (answer engine (s.fresh engine) datagram.payload).2 = false

/-- **What `ingest_datagram` does with a datagram.** -/
inductive Ingested : QuicIngressResult → UdpQuicSniffState S N → Prop
  | passed {rest : Table SocketAddr (QuicFlowState S)} :
    s.pendingAt datagram.destination = none → Cleared s.flows datagram.destination rest →
    Ingested (.forward (.withoutDomain datagram none)) { s with flows := rest }
  | started {rest : Table SocketAddr (QuicFlowState S)} {factory : N} {next : QuicIngressResult}
      {t : UdpQuicSniffState S N} :
    s.pendingAt datagram.destination = none → Cleared s.flows datagram.destination rest →
    rest.size < quicSniffFlowMax →
    Begins engine s { s with flows := rest, factory } datagram now next t →
    Ingested next t
  | joined {pending next : PendingQuicFlow S} :
    flowOf engine s datagram now = some pending.flow →
    s.pendingAt datagram.destination = some pending →
    ReadsOn engine s datagram pending next → s.canBuffer datagram.payload.length = true →
    Ingested .buffered
      (((s.without datagram.destination).charge datagram.payload.length).put datagram.destination
        (.pending { next with
          bufferedBytes := next.bufferedBytes + datagram.payload.length
          datagrams := next.datagrams ++ [.withoutDomain datagram (some next.flow)] }))
  | finished {pending next : PendingQuicFlow S} {replay : List PreparedTunUdpDatagram}
      {state : QuicFlowState S} :
    s.pendingAt datagram.destination = some pending →
    ReadsOn engine s datagram pending next →
    Finishes engine s datagram now next replay state →
    Ingested (.replay replay)
      (((s.without datagram.destination).releasePending next).put datagram.destination state)
  | overtook {pending : PendingQuicFlow S} {sniffer : S} {factory : N} :
    Overtakes engine s datagram pending →
    Ingested (.forward (.withoutDomain datagram none))
      ({ s.without datagram.destination with factory }.put datagram.destination
        (.pending { pending with sniffer }))
  | replaced {pending : PendingQuicFlow S} {factory : N} {next : QuicIngressResult}
      {t : UdpQuicSniffState S N} :
    s.pendingAt datagram.destination = some pending →
    Begins engine s ({ s.without datagram.destination with factory }.releasePending pending)
      datagram now next t →
    Ingested (prependQuicReplay pending.datagrams next) t

/-- What it does, as it returns it. -/
abbrev Ingests (r : QuicIngressResult × UdpQuicSniffState S N) : Prop :=
  Ingested engine s datagram now r.1 r.2

end

/-- A datagram that overtakes belongs to no flow. -/
theorem Overtakes.flowOf_eq {pending : PendingQuicFlow S} (h : Overtakes engine s datagram pending)
    (now : ℕ) : flowOf engine s datagram now = none := by
  obtain ⟨state, hlookup, hstate⟩ := bind_eq_some_iff.mp h.pendingAt
  have hkey : (quicConnectionKey engine datagram.payload).isNone = false := by
    cases hkey : quicConnectionKey engine datagram.payload with
    | none =>
      have hdiffers := h.differs
      simp [hkey, startsNewQuicConnection] at hdiffers
    | some key => rfl
  cases state with
  | pending flow =>
    cases hstate
    have hcurrent : s.current datagram now = some (.pending pending) := by
      rw [current, hlookup]
      rfl
    simp [flowOf, hcurrent, hkey, h.differs, h.underPending, h.underFresh]
  | matched | noDomain => cases hstate

theorem ReadsOn.flow {pending next : PendingQuicFlow S}
    (h : ReadsOn engine s datagram pending next) : next.flow = pending.flow := by
  cases h with
  | same | adopted => rfl

/-- `commit_started_flow` starts a flow. -/
theorem commitStartedFlow_spec {cleared : UdpQuicSniffState S N} {key : Option QuicConnectionKey}
    (hflow : flowOf engine s datagram now = some datagram.number) :
    let read := engine.ingest (s.fresh engine) datagram.payload
    let r := cleared.commitStartedFlow engine datagram key now read.2 read.1
    Begins engine s cleared datagram now r.1 r.2 := by
  have hreply : Answers engine s datagram datagram.number
      (answer engine (s.fresh engine) datagram.payload) := .inr ⟨rfl, rfl⟩
  unfold answer at hreply
  generalize engine.ingest (s.fresh engine) datagram.payload = read at hreply ⊢
  obtain ⟨outcome, sniffer⟩ := read
  have hkey : (if engine.authenticatedInitialInLastIngest sniffer then key else none) ≠ none →
      engine.authenticatedInitialInLastIngest sniffer = true := by
    intro hne
    by_contra hfalse
    rw [if_neg hfalse] at hne
    exact hne rfl
  unfold commitStartedFlow
  dsimp only
  generalize (if engine.authenticatedInitialInLastIngest sniffer then key else none) = key at hkey ⊢
  have hnoDomain : Begins engine s cleared datagram now _ _ :=
    .settled hflow (.startedNoDomain hreply hkey)
  cases outcome with
  | needMoreData =>
    simp only
    split_ifs with hbuffer
    · refine .held hflow ⟨rfl, rfl, rfl, fun hne => ⟨.needMoreData, ?_⟩⟩ hbuffer
      rw [← hkey hne]
      exact hreply
    · exact hnoDomain
  | matched domain => exact .settled hflow (.startedMatched hreply hkey)
  | echExtensionPresent | notMatched | limitReached => exact hnoDomain

/-- `finish_pending` ends a flow. -/
theorem finishPending_spec {pending next : PendingQuicFlow S} (domain : Option Bytes)
    (hflow : flowOf engine s datagram now = some pending.flow)
    (hpending : s.pendingAt datagram.destination = some pending)
    (hreads : ReadsOn engine s datagram pending next)
    (hdomain : ∀ name, domain = some name →
      ∃ authenticated, Answers engine s datagram next.flow (.matched name, authenticated)) :
    Ingests engine s datagram now
      ((s.without datagram.destination).finishPending next datagram domain now) := by
  rw [← hreads.flow] at hflow
  cases domain with
  | none => exact .finished hpending hreads (.noDomain hflow)
  | some name =>
    obtain ⟨authenticated, hreply⟩ := hdomain name rfl
    exact .finished hpending hreads (.matched hflow hreply)

/-- `apply_pending_outcome` lets the datagram join the flow, or ends it. -/
theorem applyPendingOutcome_spec {pending next : PendingQuicFlow S} {outcome : QuicSniffOutcome}
    {authenticated : Bool} (hflow : flowOf engine s datagram now = some pending.flow)
    (hpending : s.pendingAt datagram.destination = some pending)
    (hreads : ReadsOn engine s datagram pending next)
    (hreply : Answers engine s datagram next.flow (outcome, authenticated)) :
    Ingests engine s datagram now
      ((s.without datagram.destination).applyPendingOutcome next datagram outcome now) := by
  have hnone := finishPending_spec none hflow hpending hreads nofun
  unfold applyPendingOutcome
  cases outcome with
  | needMoreData =>
    simp only
    split_ifs with hbuffer
    · exact .joined hflow hpending hreads hbuffer
    · exact hnone
  | matched domain =>
    refine finishPending_spec _ hflow hpending hreads fun name hname => ⟨authenticated, ?_⟩
    rw [← some.inj hname]
    exact hreply
  | echExtensionPresent | notMatched | limitReached => exact hnone

/-- A datagram to a pending flow. -/
theorem ingestPending_spec {pending : PendingQuicFlow S} {key : Option QuicConnectionKey}
    (hkey : quicConnectionKey engine datagram.payload = key)
    (hflow : flowOf engine s datagram now =
      if !startsNewQuicConnection pending.connectionKey key ||
        (answer engine pending.sniffer datagram.payload).2 then some pending.flow
      else if (answer engine (s.fresh engine) datagram.payload).2 then some datagram.number
      else none)
    (hpending : s.pendingAt datagram.destination = some pending) :
    Ingests engine s datagram now
      ((s.without datagram.destination).ingestPending engine pending datagram key now) := by
  have hreply : Answers engine s datagram pending.flow
      (answer engine pending.sniffer datagram.payload) := .inl ⟨pending, hpending, rfl, rfl⟩
  unfold ingestPending
  dsimp only
  split_ifs with hnew hunder hfresh
  · -- the Initial belongs to the flow, which may adopt its identity
    have htrue : Answers engine s datagram pending.flow
        ((engine.ingest pending.sniffer datagram.payload).1, true) := by
      rw [← hunder]
      exact hreply
    rw [if_pos (by rw [answer, hunder, Bool.or_true])] at hflow
    unfold adopt
    split_ifs with hnone
    · exact applyPendingOutcome_spec hflow hpending
        (.adopted (isNone_iff_eq_none.mp hnone) ⟨_, htrue⟩) htrue
    · exact applyPendingOutcome_spec hflow hpending .same htrue
  · rw [if_neg (by simp [answer, hnew, hunder])] at hflow
    exact .replaced hpending (commitStartedFlow_spec (hflow.trans (if_pos hfresh)))
  · subst hkey
    exact .overtook ⟨hpending, hnew, (not_eq_true _).mp hunder, (not_eq_true _).mp hfresh⟩
  · rw [if_pos (by simp [hnew])] at hflow
    exact applyPendingOutcome_spec hflow hpending .same hreply

/-- The flow that a datagram meets is the one in the table. -/
theorem lookup_of_current {state : QuicFlowState S} (h : s.current datagram now = some state) :
    s.flows.lookup datagram.destination = some state :=
  (filter_eq_some_iff.mp h).1

theorem pendingAt_of_lookup {state : QuicFlowState S}
    (h : s.flows.lookup destination = some state) : s.pendingAt destination = state.pending? := by
  rw [pendingAt, h, bind_some]

/-- A pending flow is always met. -/
theorem pendingAt_of_current (now : ℕ)
    (h : ∀ pending, s.current datagram now ≠ some (.pending pending)) :
    s.pendingAt datagram.destination = none := by
  unfold pendingAt
  cases hlookup : s.flows.lookup datagram.destination with
  | none => rfl
  | some state =>
    cases state with
    | pending flow =>
      refine absurd ?_ (h flow)
      rw [current, hlookup]
      rfl
    | matched domain completed | noDomain completed => rfl

section

variable (hsize : s.flows.size ≤ quicSniffFlowMax)

include hsize

/-- A datagram to a completed flow. -/
theorem ingestCompleted_spec {completed : CompletedQuicFlow} {prepared : PreparedTunUdpDatagram}
    {state : CompletedQuicFlow → QuicFlowState S}
    (hmet : s.flows.lookup datagram.destination = some (state completed))
    (hpending : s.pendingAt datagram.destination = none) (hdatagram : prepared.datagram = datagram)
    (hsettles : Settles engine s datagram now prepared (state { completed with lastUsed := now }))
    (key : Option QuicConnectionKey)
    (hflow : flowOf engine s datagram now =
      if startsNewQuicConnection completed.connectionKey key &&
        (answer engine (s.fresh engine) datagram.payload).2 then some datagram.number
      else prepared.flow) :
    Ingests engine s datagram now
      ((s.without datagram.destination).ingestCompleted engine completed prepared state key
        now) := by
  have hroom : Table.size (s.flows.erase datagram.destination) < quicSniffFlowMax := by
    have := Table.size_of_lookup hmet
    omega
  subst hdatagram
  unfold ingestCompleted
  dsimp only
  split_ifs with hnew hfresh
  · rw [if_pos (by rw [hnew]; exact hfresh)] at hflow
    exact .started hpending .same hroom (commitStartedFlow_spec hflow)
  · rw [if_neg (by rw [hnew]; exact hfresh)] at hflow
    exact .started hpending .same hroom (.settled hflow hsettles)
  · rw [if_neg (by simp [hnew])] at hflow
    exact .started hpending .same hroom (.settled hflow hsettles)

/-- A datagram that meets no flow. -/
theorem startFlow_spec
    (hpending : s.pendingAt datagram.destination = none) (key : Option QuicConnectionKey)
    (hflow : flowOf engine s datagram now = some datagram.number) :
    Ingests engine s datagram now
      ((s.without datagram.destination).startFlow engine order datagram key now) := by
  obtain ⟨made, rest, hmake, hroom, hcleared⟩ :=
    makeRoomForFlow_spec hsize datagram.destination order
  unfold startFlow
  rw [hmake]
  cases made with
  | false => exact .passed hpending hcleared
  | true => exact .started hpending hcleared (hroom rfl) (commitStartedFlow_spec hflow)

/-- A datagram of an unknown version. -/
theorem failOpenUnsupportedVersion_spec (hflow : flowOf engine s datagram now = none) :
    Ingests engine s datagram now
      ((s.without datagram.destination).failOpenUnsupportedVersion order datagram
        (s.current datagram now) now) := by
  unfold failOpenUnsupportedVersion
  cases hcurrent : s.current datagram now with
  | none =>
    have hpending : s.pendingAt datagram.destination = none :=
      pendingAt_of_current now (by rw [hcurrent]; exact nofun)
    obtain ⟨made, rest, hmake, hroom, hcleared⟩ :=
      makeRoomForFlow_spec hsize datagram.destination order
    rw [hmake]
    cases made with
    | false => exact .passed hpending hcleared
    | true => exact .started hpending hcleared (hroom rfl) (.settled hflow .unsupported)
  | some state =>
    have hlookup := lookup_of_current hcurrent
    have hless := Table.size_of_lookup hlookup
    have hroom : Table.size (s.flows.erase datagram.destination) < quicSniffFlowMax := by omega
    have hpending := pendingAt_of_lookup hlookup
    cases state with
    | pending flow =>
      have hreads : ReadsOn engine s datagram flow { flow with sniffer := flow.sniffer } := .same
      exact .finished hpending hreads .unsupported
    | matched domain completed | noDomain completed =>
      exact .started hpending .same hroom (.settled hflow .unsupported)

end

/-- **`ingest_datagram` does one of these things**, where there are not too
many flows. -/
theorem ingestDatagram_spec (engine : QuicSniffEngine S N) (order : List SocketAddr)
    (datagram : UdpDatagram) (now : ℕ) (hsize : s.flows.size ≤ quicSniffFlowMax) :
    Ingests engine s datagram now (s.ingestDatagram engine order datagram now) := by
  unfold ingestDatagram
  dsimp only
  split_ifs with hversion
  · exact failOpenUnsupportedVersion_spec hsize (if_pos hversion)
  have hflow := flowOf.eq_1 engine s datagram now
  rw [if_neg hversion] at hflow
  cases hcurrent : s.current datagram now with
  | none =>
    rw [hcurrent] at hflow
    refine startFlow_spec hsize (pendingAt_of_current now ?_) _ hflow
    rw [hcurrent]
    exact nofun
  | some state =>
    have hlookup := lookup_of_current hcurrent
    have hpending := pendingAt_of_lookup hlookup
    rw [hcurrent] at hflow
    cases state with
    | pending flow => exact ingestPending_spec rfl hflow hpending
    | matched domain completed =>
      exact ingestCompleted_spec hsize hlookup hpending rfl (.matched hlookup) _ hflow
    | noDomain completed =>
      exact ingestCompleted_spec hsize hlookup hpending rfl (.noDomain hlookup) _ hflow

end UdpQuicSniffState

end Vole.Tun
