import Vole.Tun.Budget

/-!
# Where datagrams go, and their labels

A datagram that arrives goes behind what is held back for its destination,
or it overtakes it; and the flows to the other destinations hold what they
held. The labels of a datagram are traced to what is known of the past (an
`Account`): the answers of the sniffers, and which datagrams belong to
which flow.
-/

namespace Vole.Tun

open List Option PreparedTunUdpDatagram

variable {S N : Type} {engine : QuicSniffEngine S N} {config : Option (UInt16 → Bool)}

/-- The datagrams that leave the sniffing. -/
def QuicIngressResult.released : QuicIngressResult → List PreparedTunUdpDatagram
  | .buffered => []
  | .forward prepared => [prepared]
  | .replay datagrams => datagrams

/-- The sniffed flow of a state. -/
def QuicFlowState.flow? : QuicFlowState S → Option ℕ
  | .pending flow => some flow.flow
  | .matched _ completed => completed.flow
  | .noDomain completed => completed.flow

open PreparedTunUdpDatagram

namespace UdpQuicSniffState

variable {s t cleared : UdpQuicSniffState S N} {destination other : SocketAddr}
  {datagram : UdpDatagram} {now : ℕ} {state : QuicFlowState S}

/-! ## What moves -/

/-- The datagrams held back for a destination. -/
def held (s : UdpQuicSniffState S N) (destination : SocketAddr) : List PreparedTunUdpDatagram :=
  (s.pendingAt destination).elim [] PendingQuicFlow.datagrams

variable {pending : PendingQuicFlow S}

theorem held_of_pendingAt
    (h : s.pendingAt destination = some pending) : s.held destination = pending.datagrams := by
  rw [held, h, elim_some]

theorem held_of_none (h : s.pendingAt destination = none) : s.held destination = [] := by
  rw [held, h, elim_none]

theorem held_put_self :
    (s.put destination state).held destination =
      state.pending?.elim [] PendingQuicFlow.datagrams := by
  rw [held, pendingAt_of_lookup (AList.lookup_insert s.flows)]

theorem held_put_ne (hne : other ≠ destination) :
    (s.put destination state).held other = s.held other := by
  unfold held pendingAt UdpQuicSniffState.put
  rw [AList.lookup_insert_ne hne]

theorem held_without (hne : other ≠ destination) :
    (s.without destination).held other = s.held other := by
  unfold held pendingAt UdpQuicSniffState.without
  rw [AList.lookup_erase_ne hne]

theorem held_cleared {rest : Table SocketAddr (QuicFlowState S)} (factory : N)
    (hrest : Cleared s.flows destination rest) (hne : other ≠ destination) :
    ({ s with flows := rest, factory } : UdpQuicSniffState S N).held other = s.held other := by
  unfold held pendingAt
  rcases hrest.lookup hne with hsame | ⟨hnone, state, hstate, hpending⟩
  · rw [hsame]
  · rw [hnone, hstate, bind_none, bind_some, hpending]

variable {prepared : PreparedTunUdpDatagram}

variable {next : QuicIngressResult}

/-- The datagram that begins a flow is forwarded or held back. -/
theorem Begins.moves (h : Begins engine s cleared datagram now next t) :
    (∀ other ≠ datagram.destination, t.held other = cleared.held other) ∧
      (next.released ++ t.held datagram.destination).map (·.datagram) =
        [datagram] := by
  cases h with
  | settled _ hsettles =>
    refine ⟨fun other hne => held_put_ne hne, ?_⟩
    rw [held_put_self, hsettles.pending?, elim_none, append_nil]
    cases hsettles <;> rfl
  | held _ hholds _ =>
    refine ⟨fun other hne => held_put_ne hne, ?_⟩
    rw [held_put_self]
    show map _ (PendingQuicFlow.datagrams _) = _
    rw [hholds.datagrams]
    rfl

theorem prependQuicReplay_released (replay : List PreparedTunUdpDatagram)
    (next : QuicIngressResult) :
    (prependQuicReplay replay next).released = replay ++ next.released := by
  unfold prependQuicReplay
  split_ifs with hempty
  · rw [isEmpty_iff.mp hempty, nil_append]
  · cases next with
    | buffered => exact (append_nil replay).symm
    | forward prepared | replay datagrams => rfl

variable {result : QuicIngressResult}

/-- **Where a datagram goes**: behind what is held back for its
destination, or before it. -/
theorem Ingested.moves (h : Ingested engine s datagram now result t) :
    (∀ other ≠ datagram.destination, t.held other = s.held other) ∧
      ((result.released ++ t.held datagram.destination).map (·.datagram) =
          (s.held datagram.destination).map (·.datagram) ++ [datagram] ∨
        ∃ pending, Overtakes engine s datagram pending ∧
          result.released = [withoutDomain datagram none] ∧
          (t.held datagram.destination).map (·.datagram) =
            (s.held datagram.destination).map (·.datagram)) := by
  cases h with
  | @passed rest hnone hrest =>
    refine ⟨fun other hne => held_cleared s.factory hrest hne, .inl ?_⟩
    have hself : ({ s with flows := rest } : UdpQuicSniffState S N).held datagram.destination =
        [] := by
      unfold held pendingAt
      rw [hrest.lookup_self]
      rfl
    rw [hself, held_of_none hnone]
    rfl
  | started hnone hrest _ hbegins =>
    obtain ⟨hothers, hself⟩ := hbegins.moves
    refine ⟨fun other hne => (hothers other hne).trans (held_cleared _ hrest hne), .inl ?_⟩
    rw [hself, held_of_none hnone]
    rfl
  | @joined pending next _ hpending hreads _ =>
    refine ⟨fun other hne => (held_put_ne hne).trans (held_without hne), .inl ?_⟩
    rw [held_put_self, held_of_pendingAt hpending, ← hreads.datagrams.1]
    show map _ (next.datagrams ++ _) = _
    rw [map_append]
    rfl
  | @finished pending next replay state hpending hreads hfinishes =>
    refine ⟨fun other hne => (held_put_ne hne).trans (held_without hne), .inl ?_⟩
    rw [held_put_self, hfinishes.pending?, elim_none, append_nil,
      held_of_pendingAt hpending, ← hreads.datagrams.1]
    exact hfinishes.datagrams
  | @overtook pending sniffer factory hovertakes =>
    refine ⟨fun other hne => (held_put_ne hne).trans (held_without hne), .inr ⟨pending, hovertakes,
      rfl, ?_⟩⟩
    rw [held_put_self, held_of_pendingAt hovertakes.pendingAt]
    rfl
  | @replaced pending factory next t hpending hbegins =>
    obtain ⟨hothers, hself⟩ := hbegins.moves
    refine ⟨fun other hne => (hothers other hne).trans (held_without hne), .inl ?_⟩
    rw [prependQuicReplay_released, held_of_pendingAt hpending, append_assoc, map_append,
      hself]

theorem lookup_put_ne (hne : other ≠ destination) :
    (s.put destination state).flows.lookup other = s.flows.lookup other :=
  AList.lookup_insert_ne hne

theorem Begins.lookup (h : Begins engine s cleared datagram now next t)
    (hne : other ≠ datagram.destination) : t.flows.lookup other = cleared.flows.lookup other := by
  cases h with
  | settled | held => exact lookup_put_ne hne

/-- No flow to another destination comes up. -/
theorem Ingested.lookup_isSome
    (h : Ingested engine s datagram now result t) (hne : other ≠ datagram.destination)
    (hlookup : t.flows.lookup other = some state) : (s.flows.lookup other).isSome = true := by
  have hcleared : ∀ rest : Table SocketAddr (QuicFlowState S),
      Cleared s.flows datagram.destination rest → rest.lookup other = some state →
      (s.flows.lookup other).isSome = true := by
    intro rest hrest hfound
    rcases hrest.lookup hne with hsame | ⟨hnone, -⟩
    · rw [← hsame, hfound]
      rfl
    · rw [hnone] at hfound
      cases hfound
  cases h with
  | passed _ hrest => exact hcleared _ hrest hlookup
  | started _ hrest _ hbegins => exact hcleared _ hrest (hbegins.lookup hne ▸ hlookup)
  | joined | finished | overtook => exact hcleared _ .same ((lookup_put_ne hne).symm.trans hlookup)
  | replaced _ hbegins => exact hcleared _ .same (hbegins.lookup hne ▸ hlookup)

/-- **What expires leaves in its order**: the line of a destination is what
it was. -/
theorem expireOne_held (now : ℕ) (replay : List PreparedTunUdpDatagram)
    (hdestination : ∀ prepared ∈ s.held destination, prepared.datagram.destination = destination)
    (other : SocketAddr) :
    ((expireOne now (replay, s) destination).1.filter (·.datagram.destination = other)) ++
        (expireOne now (replay, s) destination).2.held other =
      replay.filter (·.datagram.destination = other) ++ s.held other := by
  unfold expireOne
  cases hpending : s.pendingAt destination with
  | none => rfl
  | some pending =>
    rw [held_of_pendingAt hpending] at hdestination
    simp only
    rw [filter_append, append_assoc]
    congr 1
    by_cases heq : other = destination
    · subst heq
      rw [held_put_self, held_of_pendingAt hpending]
      have hall : pending.datagrams.filter (·.datagram.destination = other) = pending.datagrams :=
        filter_eq_self.mpr fun prepared hmem =>
          decide_eq_true (hdestination prepared hmem)
      rw [hall]
      exact append_nil _
    · have hnone : pending.datagrams.filter (·.datagram.destination = other) = [] := by
        refine filter_eq_nil_iff.mpr fun prepared hmem htrue => heq ?_
        rw [← of_decide_eq_true htrue]
        exact hdestination prepared hmem
      rw [hnone, nil_append, held_put_ne heq]
      exact held_without heq

/-! ## Labels -/

/-- **What is known of the past**: what the sniffer of a flow to a
destination answered, which datagrams belong to a flow, and to which
destination a flow was started. -/
structure Account where
  answered : SocketAddr → ℕ → QuicSniffOutcome × Bool → Prop
  belongs : UdpDatagram → ℕ → Prop
  started : SocketAddr → ℕ → Prop

/-- More is known. -/
structure Account.Extends (K' K : Account) : Prop where
  answered : ∀ destination flow reply, K.answered destination flow reply →
    K'.answered destination flow reply
  belongs : ∀ datagram flow, K.belongs datagram flow → K'.belongs datagram flow
  started : ∀ destination flow, K.started destination flow → K'.started destination flow

variable {K K' : Account}

/-- **The labels of a datagram are earned**: a domain was returned by the
sniffer of its flow, a flow id is on the datagram that started the flow and
an Initial of the flow authenticated, and it belongs to its flow. -/
structure Labelled (K : Account) (prepared : PreparedTunUdpDatagram) : Prop where
  domain : ∀ domain, prepared.sniffedDomain = some domain → ∃ flow authenticated,
    prepared.flow = some flow ∧
      K.answered prepared.datagram.destination flow (.matched domain, authenticated)
  flowId : ∀ key, prepared.flowId = some key →
    prepared.flow = some prepared.datagram.number ∧ ∃ outcome,
      K.answered prepared.datagram.destination prepared.datagram.number (outcome, true)
  flow : ∀ flow, prepared.flow = some flow → K.belongs prepared.datagram flow

theorem Labelled.extend (h : Labelled K prepared) (hK : K'.Extends K) : Labelled K' prepared where
  domain := fun domain hdomain => by
    obtain ⟨flow, authenticated, hflow, hanswered⟩ := h.domain domain hdomain
    exact ⟨flow, authenticated, hflow, hK.answered _ _ _ hanswered⟩
  flowId := fun key hkey => by
    obtain ⟨hflow, outcome, hanswered⟩ := h.flowId key hkey
    exact ⟨hflow, outcome, hK.answered _ _ _ hanswered⟩
  flow := fun flow hflow => hK.belongs _ _ (h.flow flow hflow)

/-- A datagram without labels. -/
theorem Labelled.withoutDomain {flow : Option ℕ}
    (h : ∀ number, flow = some number → K.belongs datagram number) :
    Labelled K (withoutDomain datagram flow) :=
  ⟨nofun, nofun, h⟩

/-- What a pending flow holds back: its own datagrams, of which the first
one started it. -/
structure Holding (K : Account) (destination : SocketAddr) (pending : PendingQuicFlow S) :
    Prop where
  started : K.started destination pending.flow
  first : ∀ prepared ∈ pending.datagrams.head?, prepared.datagram.number = pending.flow
  destination : ∀ prepared ∈ pending.datagrams, prepared.datagram.destination = destination
  flow : ∀ prepared ∈ pending.datagrams, prepared.flow = some pending.flow
  labelled : ∀ prepared ∈ pending.datagrams, Labelled K prepared

/-- **The flows in the table have earned what they say.** -/
inductive Sound (K : Account) (destination : SocketAddr) : QuicFlowState S → Prop
  | pending {pending : PendingQuicFlow S} :
    Holding K destination pending → Sound K destination (.pending pending)
  | matched {domain : Bytes} {completed : CompletedQuicFlow} {flow : ℕ} {authenticated : Bool} :
    completed.flow = some flow → K.answered destination flow (.matched domain, authenticated) →
    K.started destination flow → Sound K destination (.matched domain completed)
  | noDomain {completed : CompletedQuicFlow} :
    (∀ flow, completed.flow = some flow → K.started destination flow) →
    Sound K destination (.noDomain completed)

theorem Holding.extend (h : Holding K destination pending)
    (hK : K'.Extends K) : Holding K' destination pending :=
  ⟨hK.started _ _ h.started, h.first, h.destination, h.flow,
    fun prepared hmem => (h.labelled prepared hmem).extend hK⟩

theorem Sound.extend (h : Sound K destination state) (hK : K'.Extends K) :
    Sound K' destination state := by
  cases h with
  | pending h => exact .pending (h.extend hK)
  | matched hflow hanswered hstarted =>
    exact .matched hflow (hK.answered _ _ _ hanswered) (hK.started _ _ hstarted)
  | noDomain h => exact .noDomain fun flow hflow => hK.started _ _ (h flow hflow)

/-- The flow of a state was started. -/
theorem Sound.started (h : Sound K destination state) {flow : ℕ} (hflow : state.flow? = some flow) :
    K.started destination flow := by
  cases h with
  | pending h =>
    cases hflow
    exact h.started
  | matched hcompleted _ hstarted =>
    cases hcompleted.symm.trans hflow
    exact hstarted
  | noDomain h => exact h flow hflow

/-- **What a datagram that arrives adds to the account**: what the sniffers
answer to it, and the flow it belongs to. -/
structure Learns (engine : QuicSniffEngine S N) (s : UdpQuicSniffState S N)
    (datagram : UdpDatagram) (now : ℕ) (K K' : Account) : Prop where
  extend : K'.Extends K
  answered : ∀ flow reply, Answers engine s datagram flow reply →
    K'.answered datagram.destination flow reply
  belongs : ∀ flow, flowOf engine s datagram now = some flow →
    flow = datagram.number ∨ K.started datagram.destination flow → K'.belongs datagram flow
  starts : K'.started datagram.destination datagram.number

theorem Learns.own (hK : Learns engine s datagram now K K')
    (hflow : flowOf engine s datagram now = some datagram.number) :
    ∀ flow, some datagram.number = some flow → K'.belongs datagram flow := by
  rintro flow ⟨⟩
  exact hK.belongs _ hflow (.inl rfl)

/-- The labels of a datagram that settles a flow. -/
theorem Settles.labelled
    (h : Settles engine s datagram now prepared state) (hK : Learns engine s datagram now K K')
    (hbelongs : flowOf engine s datagram now = prepared.flow)
    (hs : ∀ destination state, s.flows.lookup destination = some state → Sound K destination state) :
    Labelled K' prepared ∧ Sound K' datagram.destination state := by
  cases h with
  | unsupported =>
    exact ⟨.withoutDomain nofun, .noDomain nofun⟩
  | @matched domain completed hlookup =>
    have hsound := hs _ _ hlookup
    cases hsound with
    | @matched _ _ flow authenticated hflow hanswered hstarted =>
      have hanswered' := hK.extend.answered _ _ _ hanswered
      refine ⟨⟨fun name hname => ⟨flow, authenticated, hflow, ?_⟩, nofun,
        fun number hnumber => hK.belongs number (hbelongs.trans hnumber) (.inr ?_)⟩,
        .matched hflow hanswered' (hK.extend.started _ _ hstarted)⟩
      · rw [← some.inj hname]
        exact hanswered'
      · cases hflow.symm.trans hnumber
        exact hstarted
  | @noDomain completed hlookup =>
    have hsound := hs _ _ hlookup
    refine ⟨.withoutDomain fun number hnumber =>
      hK.belongs number (hbelongs.trans hnumber) (.inr (hsound.started hnumber)),
      .noDomain fun flow hflow => ?_⟩
    exact hK.extend.started _ _ (hsound.started hflow)
  | @startedMatched domain key authenticated hreply hkey =>
    have hanswered := hK.answered _ _ hreply
    refine ⟨⟨fun name hname => ⟨_, authenticated, rfl, ?_⟩, fun _ hid => ⟨rfl, ?_⟩,
      hK.own hbelongs⟩, .matched rfl hanswered hK.starts⟩
    · rw [← some.inj hname]
      exact hanswered
    · have htrue := hkey (by rw [show key = some _ from hid]; exact nofun)
      exact ⟨_, htrue ▸ hanswered⟩
  | @startedNoDomain outcome key authenticated hreply hkey =>
    have hanswered := hK.answered _ _ hreply
    refine ⟨⟨nofun, fun _ hid => ⟨rfl, ?_⟩, hK.own hbelongs⟩, .noDomain fun flow hflow => ?_⟩
    · have htrue := hkey (by rw [show key = some _ from hid]; exact nofun)
      exact ⟨_, htrue ▸ hanswered⟩
    · rw [← some.inj hflow]
      exact hK.starts

/-- A flow that begins holds its first datagram with its labels. -/
theorem Holds.holding (h : Holds engine s datagram pending) (hK : Learns engine s datagram now K K')
    (hflow : flowOf engine s datagram now = some datagram.number) :
    Holding K' datagram.destination pending := by
  have hmem : ∀ prepared ∈ pending.datagrams, prepared =
      (withoutDomain datagram (some datagram.number)).withFlowId
        pending.connectionKey := by
    rw [h.datagrams]
    exact fun prepared hmem => mem_singleton.mp hmem
  have hlabelled : Labelled K'
      ((withoutDomain datagram (some datagram.number)).withFlowId
        pending.connectionKey) := by
    refine ⟨nofun, fun key hkey => ⟨rfl, ?_⟩, hK.own hflow⟩
    obtain ⟨outcome, hreply⟩ := h.authenticated
      (by rw [show pending.connectionKey = some key from hkey]; exact nofun)
    exact ⟨outcome, hK.answered _ _ hreply⟩
  refine ⟨?_, fun prepared hhead => ?_, fun prepared hin => ?_, fun prepared hin => ?_,
    fun prepared hin => ?_⟩
  · rw [h.flow]
    exact hK.starts
  · rw [hmem prepared (mem_of_mem_head? hhead), h.flow]
    rfl
  · rw [hmem prepared hin]
    rfl
  · rw [hmem prepared hin, h.flow]
    rfl
  · rw [hmem prepared hin]
    exact hlabelled

/-- Reading on, a flow earns the identity it adopts. -/
theorem ReadsOn.holding {pending next : PendingQuicFlow S}
    (h : ReadsOn engine s datagram pending next) (hK : Learns engine s datagram now K K')
    (hpending : Holding K datagram.destination pending) : Holding K' datagram.destination next := by
  have hpending' := hpending.extend hK.extend
  cases h with
  | same => exact ⟨hpending'.started, hpending'.first, hpending'.destination, hpending'.flow,
      hpending'.labelled⟩
  | @adopted sniffer key _ hreply =>
    obtain ⟨outcome, hreply⟩ := hreply
    have hanswered := hK.answered _ _ hreply
    cases hdatagrams : pending.datagrams with
    | nil =>
      refine ⟨hpending'.started, ?_, ?_, ?_, ?_⟩ <;>
        simp only [modifyHead_nil] <;> intro prepared hmem <;> cases hmem
    | cons first rest =>
      have hmem : ∀ prepared ∈ first :: rest, prepared ∈ pending.datagrams := by
        rw [hdatagrams]
        exact fun _ h => h
      have hfirst := hmem first mem_cons_self
      have hnumber : first.datagram.number = pending.flow :=
        hpending'.first first (by rw [hdatagrams]; rfl)
      have hflow := hpending'.flow first hfirst
      have hlabelled : Labelled K' (first.withFlowId key) := by
        have hold := hpending'.labelled first hfirst
        refine ⟨hold.domain, fun _ _ => ⟨?_, outcome, ?_⟩, hold.flow⟩
        · show first.flow = some first.datagram.number
          rw [hnumber, hflow]
        · show K'.answered first.datagram.destination first.datagram.number _
          rw [hnumber, hpending'.destination first hfirst]
          exact hanswered
      refine ⟨hpending'.started, ?_, ?_, ?_, ?_⟩ <;>
        simp only [modifyHead_cons]
      · intro prepared hhead
        cases hhead
        exact hnumber
      all_goals
        intro prepared hin
        rcases mem_cons.mp hin with rfl | hin
      · exact hpending'.destination first hfirst
      · exact hpending'.destination _ (hmem _ (mem_cons_of_mem _ hin))
      · exact hflow
      · exact hpending'.flow _ (hmem _ (mem_cons_of_mem _ hin))
      · exact hlabelled
      · exact hpending'.labelled _ (hmem _ (mem_cons_of_mem _ hin))

/-- A datagram that joins a flow is one of its own. -/
theorem Holding.append {bufferedBytes : ℕ}
    (h : Holding K datagram.destination pending) (hne : pending.datagrams ≠ [])
    (hbelongs : K.belongs datagram pending.flow) :
    Holding K datagram.destination { pending with
      bufferedBytes
      datagrams := pending.datagrams ++
        [withoutDomain datagram (some pending.flow)] } := by
  refine ⟨h.started, fun prepared hhead => ?_, forall_mem_concat.mpr ⟨h.destination, rfl⟩,
    forall_mem_concat.mpr ⟨h.flow, rfl⟩, forall_mem_concat.mpr ⟨h.labelled, ?_⟩⟩
  · refine h.first prepared ?_
    simp only [head?_append] at hhead
    obtain ⟨first, hfirst⟩ := isSome_iff_exists.mp (isSome_head?.mpr hne)
    rw [hfirst] at hhead ⊢
    exact hhead
  · refine .withoutDomain fun number hnumber => ?_
    rw [← some.inj hnumber]
    exact hbelongs

/-- The labels of the datagrams of a flow that ends. -/
theorem Finishes.labelled {replay : List PreparedTunUdpDatagram}
    (h : Finishes engine s datagram now pending replay state)
    (hK : Learns engine s datagram now K K') (hpending : Holding K' datagram.destination pending)
    (hstarted : K.started datagram.destination pending.flow) :
    (∀ prepared ∈ replay, Labelled K' prepared) ∧ Sound K' datagram.destination state := by
  have hown : flowOf engine s datagram now = some pending.flow →
      Labelled K' (withoutDomain datagram (some pending.flow)) := by
    refine fun hflow => .withoutDomain ?_
    rintro number ⟨⟩
    exact hK.belongs _ hflow (.inr hstarted)
  cases h with
  | unsupported =>
    exact ⟨forall_mem_concat.mpr ⟨hpending.labelled, .withoutDomain nofun⟩, .noDomain nofun⟩
  | @matched domain authenticated hflow hreply =>
    have hanswered := hK.answered _ _ hreply
    refine ⟨fun prepared hmem => ?_, .matched rfl hanswered hpending.started⟩
    obtain ⟨buffered, hbuffered, rfl⟩ := mem_map.mp hmem
    have hfacts : Labelled K' buffered ∧ buffered.flow = some pending.flow ∧
        buffered.datagram.destination = datagram.destination := by
      rcases mem_concat.mp hbuffered with hmem | rfl
      · exact ⟨hpending.labelled _ hmem, hpending.flow _ hmem, hpending.destination _ hmem⟩
      · exact ⟨hown hflow, rfl, rfl⟩
    obtain ⟨hlabelled, hflow', hdestination⟩ := hfacts
    refine ⟨fun name hname => ⟨pending.flow, authenticated, hflow', ?_⟩, hlabelled.flowId,
      hlabelled.flow⟩
    rw [← some.inj hname, hdestination]
    exact hanswered
  | noDomain hflow =>
    refine ⟨forall_mem_concat.mpr ⟨hpending.labelled, hown hflow⟩, .noDomain fun flow hflow => ?_⟩
    rw [← some.inj hflow]
    exact hpending.started

theorem lookup_of_pendingAt (h : s.pendingAt destination = some pending) :
    s.flows.lookup destination = some (.pending pending) := by
  obtain ⟨state, hlookup, hstate⟩ := bind_eq_some_iff.mp h
  cases state with
  | pending flow =>
    cases hstate
    exact hlookup
  | matched domain completed | noDomain completed => cases hstate

/-- Every flow in the table is sound. -/
def AllSound (K : Account) (s : UdpQuicSniffState S N) : Prop :=
  ∀ destination state, s.flows.lookup destination = some state → Sound K destination state

theorem AllSound.holding (h : AllSound K s)
    (hpending : s.pendingAt destination = some pending) : Holding K destination pending := by
  cases h _ _ (lookup_of_pendingAt hpending) with
  | pending h => exact h

/-- What is held back for a destination goes there. -/
theorem AllSound.destination_of_held (h : AllSound K s)
    (hmem : prepared ∈ s.held destination) : prepared.datagram.destination = destination := by
  cases hpending : s.pendingAt destination with
  | none =>
    rw [held_of_none hpending] at hmem
    cases hmem
  | some pending =>
    rw [held_of_pendingAt hpending] at hmem
    exact (h.holding hpending).destination prepared hmem

theorem AllSound.extend (h : AllSound K s) (hK : K'.Extends K) : AllSound K' s :=
  fun destination state hlookup => (h destination state hlookup).extend hK

/-- A sound flow is put into the table. -/
theorem AllSound.put (hcleared : ∀ other ≠ destination, ∀ state,
      cleared.flows.lookup other = some state → Sound K other state)
    (hstate : Sound K destination state) : AllSound K (cleared.put destination state) := by
  intro other found hlookup
  rw [UdpQuicSniffState.put, Table.lookup_insert_apply] at hlookup
  split_ifs at hlookup with heq
  · cases hlookup
    exact heq ▸ hstate
  · exact hcleared other heq found hlookup

theorem AllSound.of_cleared {rest : Table SocketAddr (QuicFlowState S)} (h : AllSound K s)
    (hrest : Cleared s.flows destination rest) (other : SocketAddr) (hne : other ≠ destination)
    (state : QuicFlowState S) (hlookup : rest.lookup other = some state) : Sound K other state := by
  rcases hrest.lookup hne with hsame | ⟨hnone, -⟩
  · exact h other state (hsame ▸ hlookup)
  · rw [hnone] at hlookup
    cases hlookup

theorem Begins.labelled
    (h : Begins engine s cleared datagram now next t) (hK : Learns engine s datagram now K K')
    (hs : AllSound K s)
    (hcleared : ∀ other ≠ datagram.destination, ∀ state,
      cleared.flows.lookup other = some state → Sound K' other state) :
    AllSound K' t ∧ ∀ prepared ∈ next.released, Labelled K' prepared := by
  cases h with
  | settled hflow hsettles =>
    obtain ⟨hlabelled, hsound⟩ := hsettles.labelled hK hflow hs
    refine ⟨.put hcleared hsound, fun prepared hmem => ?_⟩
    rw [mem_singleton.mp hmem]
    exact hlabelled
  | held hflow hholds _ =>
    exact ⟨.put hcleared (.pending (hholds.holding hK hflow)), nofun⟩

/-- **A datagram that arrives leaves every label earned.** -/
theorem Ingested.labelled
    (h : Ingested engine s datagram now result t) (hK : Learns engine s datagram now K K')
    (hs : AllSound K s) (hbudget : s.Budgeted) :
    AllSound K' t ∧ ∀ prepared ∈ result.released, Labelled K' prepared := by
  have hs' := hs.extend hK.extend
  have hpassed : Labelled K' (withoutDomain datagram none) :=
    .withoutDomain nofun
  cases h with
  | @passed rest hnone hrest =>
    refine ⟨fun other state hlookup => ?_, fun prepared hmem => ?_⟩
    · have hne : other ≠ datagram.destination := by
        rintro rfl
        rw [show rest.lookup _ = none from hrest.lookup_self] at hlookup
        cases hlookup
      exact hs'.of_cleared hrest other hne state hlookup
    · rw [mem_singleton.mp hmem]
      exact hpassed
  | started hnone hrest _ hbegins =>
    exact hbegins.labelled hK hs (hs'.of_cleared hrest)
  | @joined pending next hflow hpending hreads _ =>
    have hnext := hreads.holding hK (hs.holding hpending)
    refine ⟨.put (hs'.of_cleared .same) (.pending (hnext.append ?_ ?_)),
      nofun⟩
    · exact (hreads.filled (hbudget.filled _ _ hpending)).datagrams
    · rw [hreads.flow]
      exact hK.belongs _ hflow (.inr (hs.holding hpending).started)
  | @finished pending next replay state hpending hreads hfinishes =>
    have hnext := hreads.holding hK (hs.holding hpending)
    obtain ⟨hreplay, hsound⟩ := hfinishes.labelled hK hnext
      (hreads.flow ▸ (hs.holding hpending).started)
    exact ⟨.put (hs'.of_cleared .same) hsound, hreplay⟩
  | @overtook pending sniffer factory hovertakes =>
    have hpending := hs'.holding hovertakes.pendingAt
    refine ⟨.put (hs'.of_cleared .same) (.pending ⟨hpending.started, hpending.first,
      hpending.destination, hpending.flow, hpending.labelled⟩), fun prepared hmem => ?_⟩
    rw [mem_singleton.mp hmem]
    exact hpassed
  | @replaced pending factory next t hpending hbegins =>
    obtain ⟨hsound, hnext⟩ := hbegins.labelled hK hs (hs'.of_cleared .same)
    rw [prependQuicReplay_released]
    exact ⟨hsound, forall_mem_append.mpr ⟨(hs'.holding hpending).labelled, hnext⟩⟩

end UdpQuicSniffState

end Vole.Tun
