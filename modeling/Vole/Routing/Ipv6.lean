import Vole.Routing.Model.Dispatcher
import Vole.Routing.Rules

/-!
# No IPv6 without IPv6

The check of a destination is made where a decision starts. What is
pinned, resolved or cached later on is bound by invariants instead: the
addresses of a lookup are allowed, a decision carries such addresses
only, and every pinned flow went through a decision. One routing decision
asks the resolver once at most: `spent` is what a decision already asked,
and the second place to ask reads the first one's answer.
-/

namespace Vole.Routing

open Function List Proc

variable {D : Type}

/-! ## What is handed over -/

/-- The destination a call hands to a dispatcher. -/
def Effect.handed : Effect D → Option Destination
  | .connectTcp _ session => some session.destination
  | .sendDatagram _ datagram => some datagram.remote
  | _ => none

/-- A call of `dns.resolve`. -/
def Effect.isResolve : Effect D → Bool
  | .resolve _ => true
  | _ => false

/-- A destination `ensure_destination_allowed` lets through. -/
def RoutingDispatcher.Allows (r : RoutingDispatcher D) (destination : Destination) : Prop :=
  r.ipv6 = false → destination.isIpv6 = false

/-- Addresses that `resolve_addresses` keeps. -/
abbrev RoutingDispatcher.AllowsAll (r : RoutingDispatcher D) (addresses : List IpAddr) : Prop :=
  ∀ address ∈ addresses, r.ipv6 = false → address.isIpv6 = false

/-- The call hands over allowed destinations only. -/
def Effect.Allowed (r : RoutingDispatcher D) (effect : Effect D) : Prop :=
  ∀ destination, effect.handed = some destination → r.Allows destination

/-- The calls made since `start` hand over allowed destinations only, and
`n` of them at most are lookups. -/
def Grown (r : RoutingDispatcher D) (start : History D) (n : ℕ) (history : History D) : Prop :=
  ∃ calls, history = calls ++ start ∧ (∀ effect ∈ calls, effect.Allowed r) ∧
    calls.countP Effect.isResolve ≤ n

variable {r : RoutingDispatcher D} {start : History D} {n : ℕ}

theorem Grown.refl (r : RoutingDispatcher D) (start : History D) : Grown r start 0 start :=
  ⟨[], rfl, by simp, by simp⟩

/-- The calls that the outbound half has made since `start`. -/
abbrev Outbound.Grown (r : RoutingDispatcher D) (start : History D) (n : ℕ) (out : Outbound D) :
    Prop :=
  Routing.Grown r start n out.history

/-- What `x` does where `n` lookups were made. It may stop after the one
that is allowed. -/
abbrev Spends {σ α : Type} (I : ℕ → σ → Prop) (n : ℕ) (x : Proc σ Stopped α) (Q : α → σ → Prop) :
    Prop :=
  Ensures (I n) x Q (I 1)

/-- After it, `m` lookups were made at most. -/
abbrev Costs {σ α : Type} (I : ℕ → σ → Prop) (n : ℕ) (x : Proc σ Stopped α) (m : ℕ) : Prop :=
  Spends I n x fun _ => I m

variable {history : History D}

theorem Grown.mono {m : ℕ} (h : Grown r start n history) (hle : n ≤ m) :
    Grown r start m history := by
  obtain ⟨calls, rfl, hclean, hcount⟩ := h
  exact ⟨calls, rfl, hclean, by omega⟩

variable {effect : Effect D}

theorem Grown.cons (h : Grown r start n history) (hclean : effect.Allowed r) :
    Grown r start (n + if effect.isResolve then 1 else 0) (effect :: history) := by
  obtain ⟨calls, rfl, hcalls, hcount⟩ := h
  refine ⟨effect :: calls, rfl, forall_mem_cons.mpr ⟨hclean, hcalls⟩, ?_⟩
  rw [countP_cons]
  omega

/-- Whatever the world answers, a call adds itself to the history. -/
theorem call_snd {α : Type} (effect : Effect D) (answer : History D → Option α)
    (history : History D) : (call effect answer history).2 = effect :: history := by
  unfold call
  split <;> rfl

/-- A call that is no lookup. -/
theorem call_grown {α : Type} {answer : History D → Option α}
    (hclean : effect.Allowed r) (hresolve : effect.isResolve = false) (hn : n ≤ 1) :
    Costs (Grown r start) n (call effect answer) n := by
  intro history h
  have hcons := h.cons hclean
  rw [hresolve] at hcons
  rw [call_snd]
  exact ⟨fun _ _ => hcons, fun _ _ => hcons.mono hn⟩

theorem tryCall_grown {α : Type} {answer : History D → Option (Except DispatchError α)}
    (hclean : effect.Allowed r) (hresolve : effect.isResolve = false) (hn : n ≤ 1) :
    Costs (Grown r start) n (tryCall effect answer) n := by
  refine (call_grown hclean hresolve hn).bind fun result => ?_
  cases result with
  | ok a => exact .pure fun _ h => h
  | error e => exact .fail fun _ h => h.mono hn

/-! ## The addresses of a decision -/

/-- A decision whose destination and addresses are allowed. -/
structure RouteDecision.Allowed (r : RoutingDispatcher D) (decision : RouteDecision) : Prop where
  destination : r.Allows decision.destination
  addresses : ∀ addresses, decision.resolvedAddresses = some addresses →
    ∀ address ∈ addresses, r.ipv6 = false → address.isIpv6 = false

/-- The lookups a decision has made. -/
def RouteDecision.spent (decision : RouteDecision) : ℕ :=
  if decision.resolvedAddresses.isSome then 1 else 0

theorem RouteDecision.spent_le (decision : RouteDecision) : decision.spent ≤ 1 := by
  unfold spent
  split_ifs <;> omega

theorem preferredAddress_mem {addresses : List IpAddr} {address : IpAddr}
    (h : preferredAddress addresses = some address) : address ∈ addresses := by
  rw [preferredAddress, Option.or_eq_some_iff] at h
  rcases h with h | ⟨-, h⟩ <;> exact mem_of_find?_eq_some h

/-- An address a rule selects is one of those it was offered. -/
theorem turnWithResolvedIps_selected {ctx : RoutingContext} {geo : GeoMatcher}
    {addresses : List IpAddr} {rule : RuleSpec} {matched : Bool} {address : IpAddr}
    (h : turnWithResolvedIps ctx geo addresses rule = (matched, some address)) :
    address ∈ addresses := by
  have hfind : ∀ p, (preferredAddresses addresses).find? p = some address →
      address ∈ addresses := by
    intro p hp
    have hmem := mem_of_find?_eq_some hp
    simp only [preferredAddresses, mem_append, mem_filter] at hmem
    rcases hmem with ⟨hmem, -⟩ | ⟨hmem, -⟩ <;> exact hmem
  unfold turnWithResolvedIps at h
  split at h
  case h_5 =>
    split_ifs at h
    · cases h
    · split at h
      · cases h
      · exact hfind _ (congrArg Prod.snd h)
  case h_6 =>
    split at h
    · cases h
    · exact hfind _ (congrArg Prod.snd h)
  all_goals cases h

/-- The second evaluation loop pins an address it was offered, or
leaves the context as it was. -/
theorem resolveFrom_pinnedIp (ctx : RoutingContext) (geo : GeoMatcher) (addresses : List IpAddr)
    (index : ℕ) (rules : List RuleSpec) :
    (resolveFrom ctx geo addresses index rules).2.pinnedIp = ctx.pinnedIp ∨
      ∃ address ∈ addresses,
        (resolveFrom ctx geo addresses index rules).2.pinnedIp = some address := by
  induction rules generalizing index with
  | nil => exact Or.inl rfl
  | cons rule rest ih =>
    rw [resolveFrom]
    rcases hturn : turnWithResolvedIps ctx geo addresses rule with ⟨matched, selected⟩
    cases matched with
    | false => exact ih (index + 1)
    | true =>
      cases selected with
      | none => exact Or.inl rfl
      | some address => exact Or.inr ⟨address, turnWithResolvedIps_selected hturn, rfl⟩

namespace RoutingDispatcher

variable {r : RoutingDispatcher D} {w : World D}

variable (session : DatagramSession) (destination : Destination)

theorem ensureDestinationAllowed_grown (hn : n ≤ 1) :
    Spends (Grown r start) n (r.ensureDestinationAllowed destination)
      fun _ history => r.Allows destination ∧ Grown r start n history := by
  unfold ensureDestinationAllowed
  split
  · exact .fail fun _ h => h.mono hn
  · rename_i hcheck
    refine .pure fun _ h => ⟨fun hipv6 => ?_, h⟩
    simpa [hipv6] using hcheck

/-- A lookup is one call, and keeps allowed addresses only. -/
theorem resolveAddresses_grown (dns : RoutingDns D) (host : Bytes) :
    Spends (Grown r start) 0 (r.resolveAddresses dns host) fun addresses history =>
      r.AllowsAll addresses ∧ Grown r start 1 history := by
  have hcall : Costs (Grown r start) 0
      (call (.resolve host) fun history => dns.resolve history host) 1 := by
    intro history h
    have hgrown : Grown r start 1 (.resolve host :: history) := h.cons nofun
    rw [call_snd]
    exact ⟨fun _ _ => hgrown, fun _ _ => hgrown⟩
  refine hcall.bind fun answer => .pure fun history h => ⟨?_, h⟩
  intro address hmem hipv6
  rw [hipv6] at hmem
  have hv4 := (mem_filter.mp hmem).2
  cases address with
  | v4 bits => rfl
  | v6 bits => cases hv4

theorem lookupAddresses_grown (context : RoutingContext) :
    Spends (Grown r start) 0 (r.lookupAddresses destination context) fun addresses history =>
      r.AllowsAll addresses ∧ Grown r start 1 history := by
  unfold lookupAddresses
  split
  · exact resolveAddresses_grown _ _
  · exact .pure fun _ h => ⟨nofun, h.mono (by omega)⟩

variable {decision : RouteDecision}

/-- The addresses of a direct decision are IPv4, and a decision that has
made its lookup makes no other. -/
theorem directAddresses_grown (hdecision : decision.Allowed r) (host : Bytes) :
    Spends (Grown r start) decision.spent (r.directAddresses decision host) fun addresses history =>
      r.AllowsAll addresses ∧ Grown r start 1 history := by
  unfold directAddresses
  split
  · rename_i addresses hresolved
    exact .pure fun _ h => ⟨hdecision.addresses addresses hresolved, h.mono decision.spent_le⟩
  · rename_i dns hresolved _
    have hspent : decision.spent = 0 := by simp [RouteDecision.spent, hresolved]
    rw [hspent]
    exact resolveAddresses_grown dns host
  · exact .pure fun _ h => ⟨nofun, h.mono decision.spent_le⟩

theorem resolveDirectDestination_grown (hdecision : decision.Allowed r) :
    Spends (Grown r start) decision.spent (r.resolveDirectDestination decision)
      fun resolved history => resolved.Allowed r ∧ Grown r start resolved.spent history := by
  unfold resolveDirectDestination
  split
  · exact .pure fun _ h => ⟨hdecision, h⟩
  rename_i host port _
  refine (directAddresses_grown hdecision host).bind fun addresses => .assume fun hv4 => ?_
  cases haddress : preferredAddress addresses with
  | none => exact .fail fun _ h => h
  | some address =>
    refine .pure fun _ h => ⟨⟨hv4 address (preferredAddress_mem haddress), ?_⟩, h⟩
    rintro l hl
    cases hl
    exact hv4

theorem resolveIfDirect_grown (hdecision : decision.Allowed r) (direct : Bool) :
    Spends (Grown r start) decision.spent (r.resolveIfDirect direct decision)
      fun resolved history => resolved.Allowed r ∧ Grown r start resolved.spent history := by
  cases direct with
  | true => exact resolveDirectDestination_grown hdecision
  | false => exact .pure fun _ h => ⟨hdecision, h⟩

/-- The rules pin nothing but an address of their lookup. -/
theorem evaluateRules_grown {context : RoutingContext} (hpinned : context.pinnedIp = none) :
    Spends (Grown r start) 0 (r.evaluateRules destination context) fun evaluated history =>
        (∀ address, evaluated.2.1.pinnedIp = some address →
          r.ipv6 = false → address.isIpv6 = false) ∧
        (∀ addresses, evaluated.2.2 = some addresses → r.AllowsAll addresses) ∧
        Grown r start (if evaluated.2.2.isSome then 1 else 0) history := by
  refine .read_bind fun geo => ?_
  split
  · rename_i index _
    refine (lookupAddresses_grown destination context).bind fun addresses =>
      .assume fun hv4 => .pure fun _ h => ⟨?_, ?_, h⟩
    · intro address hpin
      rcases resolveFrom_pinnedIp context geo addresses index (r.rules.rules.drop index) with
        hsame | ⟨a, ha, hsome⟩
      · rw [RuleSet.evaluateWithResolvedIps, hsame, hpinned] at hpin
        cases hpin
      · rw [RuleSet.evaluateWithResolvedIps, hsome] at hpin
        cases hpin
        exact hv4 _ ha
    · rintro l hl
      cases hl
      exact hv4
  · refine .pure fun _ h => ⟨?_, ?_, h⟩
    · intro address hpin
      rw [hpinned] at hpin
      cases hpin
    · rintro l hl
      cases hl

/-- **A routing decision** is without IPv6, as is the destination it was
made for, and it has made the lookups it carries. -/
theorem route_grown (network : Network) (inbound : InboundKind) (destination : Destination)
    (sniffedDomain : Option Bytes) :
    Spends (Grown r start) 0 (r.route network inbound destination sniffedDomain)
      fun decision history => r.Allows destination ∧ decision.Allowed r ∧
        Grown r start decision.spent history := by
  refine (ensureDestinationAllowed_grown destination (by omega)).bind fun _ =>
    .assume fun hdest => ?_
  refine Ensures.bind (M := fun _ => Grown r start 0) ?_ fun hint => ?_
  · unfold dnsDomainHint
    split
    · exact call_grown nofun rfl (by omega)
    · exact .pure fun _ h => h
  cases hcontext : RoutingContext.withDomainHint r.tables network destination _ with
  | error e => exact .fail fun _ h => h.mono (by omega)
  | ok context =>
    have hpinned : context.pinnedIp = none := by
      unfold RoutingContext.withDomainHint at hcontext
      split at hcontext
      · split at hcontext
        · cases hcontext
          rfl
        · cases hcontext
      · cases hcontext
        rfl
    refine (evaluateRules_grown destination hpinned).bind ?_
    rintro ⟨evaluation, context', resolved⟩
    refine .assume fun hpin => .assume fun haddresses => ?_
    cases evaluation with
    | noMatch | needsIpResolution _ => exact .fail fun _ h => h.mono (by split_ifs <;> omega)
    | matched rule =>
      have hrouted : r.Allows (routedDestination destination context') := by
        unfold routedDestination
        split
        · rename_i address hsome
          exact hpin address hsome
        · exact fun _ => rfl
        · exact hdest
      have hdecision : RouteDecision.Allowed r
          ⟨rule.action, routedDestination destination context', resolved⟩ := ⟨hrouted, haddresses⟩
      exact (resolveIfDirect_grown hdecision _).mono (fun _ _ h => ⟨hdest, h⟩) fun _ h => h

/-! ## TCP -/

theorem handTcp_grown {session : StreamSession} (hdest : r.Allows session.destination)
    (dispatcher : D) :
    Costs (Grown r start) 1 (handTcp w dispatcher session) 1 := by
  refine (tryCall_grown ?_ rfl le_rfl).bind fun _ => .pure fun _ h => h
  rintro destination hd
  cases hd
  exact hdest

variable (id : RouteTargetId)

theorem resolveTarget_grown (hn : n ≤ 1) :
    Costs (Grown r start) n (r.resolveTarget id) n := by
  refine .read_bind fun leaf => ?_
  cases leaf with
  | ok leaf => exact .pure fun _ h => h
  | error e => exact .fail fun _ h => h.mono hn

theorem connectTcp_grown (session : StreamSession) :
    Costs (Grown r start) 0 (r.connectTcp w session) 1 := by
  refine (ensureDestinationAllowed_grown session.destination (by omega)).bind fun _ =>
    .assume fun _ => ?_
  split
  · exact .pure fun _ h => h.mono (by omega)
  refine (route_grown _ _ _ _).bind fun decision => .assume fun _ => .assume fun hdecision => ?_
  split
  · refine (resolveTarget_grown _ decision.spent_le).bind fun target => ?_
    refine (resolveIfDirect_grown hdecision target.direct).bind fun resolved =>
      .assume fun hresolved => ?_
    exact (handTcp_grown hresolved.destination _).of_imp fun _ h => h.mono resolved.spent_le
  · exact (handTcp_grown hdecision.destination _).of_imp fun _ h => h.mono decision.spent_le
  · exact .fail fun _ h => h.mono decision.spent_le

/-! ## Datagrams -/

/-- The specification of a call, as one of the outbound half. -/
theorem outboundCall_ensures {α : Type} {x : Proc (History D) Stopped α} {P R : History D → Prop}
    {Q : α → History D → Prop} (h : Ensures P x Q R) :
    Ensures (fun out : Outbound D => P out.history) (outboundCall x)
      (fun a out => Q a out.history) (fun out => R out.history) :=
  ((Ensures.within (F := fun _ => True) (fun _ _ => rfl) (fun _ _ _ => trivial) h).of_imp
    fun _ hs => ⟨trivial, hs⟩).mono (fun _ _ hs => hs.2) fun _ hs => hs.2

theorem handDatagram_grown {datagram : Datagram} (hdest : r.Allows datagram.remote)
    (transport : D) :
    Costs (Outbound.Grown r start) 1 (handDatagram w transport datagram) 1 := by
  have hclean : (Effect.sendDatagram transport datagram : Effect D).Allowed r := by
    rintro destination hd
    cases hd
    exact hdest
  exact outboundCall_ensures (tryCall_grown hclean rfl le_rfl)

/-- Opening a transport hands over no destination. -/
theorem openDatagram_grown (dispatcher : D) (hn : n ≤ 1) :
    Costs (Outbound.Grown r start) n
      (outboundCall (tryCall (.openDatagram dispatcher session) fun history =>
        w.openDatagram history dispatcher session)) n :=
  outboundCall_ensures (tryCall_grown nofun rfl hn)

theorem routeTransport_grown (hdecision : decision.Allowed r) :
    Spends (Outbound.Grown r start) decision.spent (r.routeTransport w session id decision)
      fun found out => found.2.Allowed r ∧ Grown r start found.2.spent out.history := by
  refine .read_bind fun cached => ?_
  cases cached with
  | some cached => exact .pure fun _ h => ⟨hdecision, h⟩
  | none =>
    refine (outboundCall_ensures (resolveTarget_grown id decision.spent_le)).bind fun target => ?_
    refine (outboundCall_ensures (resolveIfDirect_grown hdecision target.direct)).bind
      fun resolved => .assume fun hresolved => ?_
    refine (openDatagram_grown session target.dispatcher resolved.spent_le).bind fun _ => ?_
    refine Ensures.bind
      (M := fun _ => Outbound.Grown r start resolved.spent)
      (.update fun _ h => h) fun _ => ?_
    exact .pure fun _ h => ⟨hresolved, h⟩

theorem sendRoute_grown (hdecision : decision.Allowed r) (datagram : Datagram) :
    Costs (Outbound.Grown r start) decision.spent (r.sendRoute w session id decision datagram) 1 := by
  refine (routeTransport_grown session id hdecision).bind ?_
  rintro ⟨cached, found⟩
  refine .assume fun hfound => ?_
  refine (outboundCall_ensures (resolveIfDirect_grown hfound _)).bind fun resolved =>
    .assume fun hresolved => ?_
  exact (handDatagram_grown hresolved.destination _).of_imp fun _ h => h.mono resolved.spent_le

theorem sendDirect_grown (datagram : Datagram) (hdest : r.Allows datagram.remote) :
    Costs (Outbound.Grown r start) 1 (r.sendDirect w session datagram) 1 := by
  refine .read_bind fun transport => ?_
  cases transport with
  | some transport => exact handDatagram_grown hdest transport
  | none =>
    refine (openDatagram_grown session r.direct le_rfl).bind fun _ => ?_
    refine Ensures.bind (M := fun _ => Outbound.Grown r start 1)
      (.update fun _ h => h) fun _ => ?_
    exact handDatagram_grown hdest r.direct

theorem sendDecided_grown (hdecision : decision.Allowed r) (datagram : Datagram) :
    Costs (Outbound.Grown r start) decision.spent (r.sendDecided w session decision datagram) 1 := by
  unfold sendDecided
  split
  · exact sendRoute_grown session _ hdecision datagram
  · exact (sendDirect_grown session _ hdecision.destination).of_imp
      fun _ h => Grown.mono h decision.spent_le
  · exact .pure fun _ h => Grown.mono h decision.spent_le

end RoutingDispatcher

/-! ## Pinned flows -/

/-- Every pinned flow goes to an allowed destination. -/
def DatagramRoutes.Allowed (r : RoutingDispatcher D) (routes : DatagramRoutes) : Prop :=
  ∀ destination, (routes.entries destination).isSome → r.Allows (.ip destination)

namespace DatagramRoutes.Allowed

variable {routes : DatagramRoutes}

variable (h : routes.Allowed r)

include h

theorem expire (now : ℕ) : (routes.expire now).Allowed r := by
  unfold DatagramRoutes.expire
  split_ifs
  · intro destination hsome
    refine h destination ?_
    cases hentry : routes.entries destination with
    | none => simp [hentry] at hsome
    | some route => rfl
  · exact h

theorem put {destination : SocketAddr} {route : Option DatagramRoute}
    (hroute : route.isSome → r.Allows (.ip destination)) :
    (routes.put destination route).Allowed r := by
  intro d hsome
  rcases eq_or_ne d destination with rfl | hne
  · simp only [DatagramRoutes.put, update_self] at hsome
    exact hroute hsome
  · simp only [DatagramRoutes.put, update_of_ne hne] at hsome
    exact h d hsome

/-- A pinned action belongs to an IPv4 flow. -/
theorem action (destination : SocketAddr) (now : ℕ) :
    (routes.action destination now).2.Allowed r ∧
      ((routes.action destination now).1.isSome → r.Allows (.ip destination)) := by
  have hexpire := h.expire now
  unfold DatagramRoutes.action
  cases hentry : (routes.expire now).entries destination with
  | none => exact ⟨by simpa [hentry] using hexpire, by simp [hentry]⟩
  | some route =>
    have hv4 := hexpire destination (by simp [hentry])
    simp only [hentry]
    split_ifs <;> exact ⟨hexpire.put fun _ => hv4, fun _ => hv4⟩

theorem observeResponse (destination : SocketAddr) (now : ℕ) :
    (routes.observeResponse destination now).Allowed r := by
  have hexpire := h.expire now
  unfold DatagramRoutes.observeResponse
  cases hentry : (routes.expire now).entries destination with
  | none => simpa [hentry] using hexpire
  | some route =>
    have hv4 := hexpire destination (by simp [hentry])
    simp only [hentry]
    split_ifs <;> exact hexpire.put fun _ => hv4

end DatagramRoutes.Allowed

namespace RoutingDispatcher

variable {r : RoutingDispatcher D} {w : World D} {owner : DatagramSession}

/-- The invariant of the association of a session. -/
def Invariant (r : RoutingDispatcher D) (owner : DatagramSession)
    (self : RoutedDatagramTransport D) : Prop :=
  self.session = owner ∧ self.flows.Allowed r

/-- The invariant, and the calls since `start`. -/
def Kept (r : RoutingDispatcher D) (owner : DatagramSession) (start : History D) (n : ℕ)
    (self : RoutedDatagramTransport D) : Prop :=
  Invariant r owner self ∧ Grown r start n self.outbound.history

theorem Kept.mono {m : ℕ} {self : RoutedDatagramTransport D} (h : Kept r owner start n self)
    (hle : n ≤ m) : Kept r owner start m self :=
  ⟨h.1, h.2.mono hle⟩

/-- The outbound half touches neither the session nor the pinned flows. -/
theorem onOutbound_ensures {α : Type} {x : Proc (Outbound D) Stopped α} {P R : Outbound D → Prop}
    {Q : α → Outbound D → Prop} (h : Ensures P x Q R) :
    Ensures (fun self => Invariant r owner self ∧ P self.outbound) (onOutbound x)
      (fun a self => Invariant r owner self ∧ Q a self.outbound)
      (fun self => Invariant r owner self ∧ R self.outbound) :=
  .within (fun _ _ => rfl) (fun _ _ hs => hs) h

theorem now_kept (hn : n ≤ 1) : Costs (Kept r owner start) n w.now n :=
  onOutbound_ensures (outboundCall_ensures (call_grown (fun _ h => by cases h) rfl hn))

theorem updateFlows_kept {f : DatagramRoutes → DatagramRoutes}
    (hf : ∀ flows, flows.Allowed r → (f flows).Allowed r) :
    Costs (Kept r owner start) n (updateFlows f : Proc (RoutedDatagramTransport D) Stopped Unit) n :=
  .update fun _ h => ⟨⟨h.1.1, hf _ h.1.2⟩, h.2⟩

theorem flowOf_eq_some {session : DatagramSession} {remote : Destination}
    {destination : SocketAddr} (h : flowOf session remote = some destination) :
    remote = .ip destination := by
  unfold flowOf at h
  split at h
  · cases h
    rfl
  · cases h

/-- A pinned action is found for an IPv4 flow only. -/
theorem pinnedAction_kept (flow : Option SocketAddr) (now : ℕ) :
    Spends (Kept r owner start) n (pinnedAction flow now : Proc (RoutedDatagramTransport D) Stopped
      _) fun action self =>
        (action.isSome → ∃ destination, flow = some destination ∧ r.Allows (.ip destination)) ∧
        Kept r owner start n self := by
  cases flow with
  | none => exact .pure fun _ h => ⟨by simp, h⟩
  | some destination =>
    refine Ensures.bind (M := fun found self => (found.2.Allowed r ∧
      (found.1.isSome → r.Allows (.ip destination))) ∧ Kept r owner start n self)
      (.read fun _ h => ⟨h.1.2.action destination now, h⟩) fun found => .assume fun hfound => ?_
    refine (updateFlows_kept fun _ _ => hfound.1).bind fun _ => .pure fun _ h => ⟨?_, h⟩
    exact fun hsome => ⟨destination, rfl, hfound.2 hsome⟩

variable (datagram : Datagram)

/-- **The decision of a datagram**, pinned or new, is without IPv6. -/
theorem sendDecision_kept :
    Spends (Kept r owner start) 0 (r.sendDecision w datagram) fun decided self => decided.2.Allowed
      r ∧ Kept r owner start decided.2.spent self := by
  refine (now_kept (by omega)).bind fun now => ?_
  refine .read_bind fun session => ?_
  refine Ensures.bind (M := fun _ => Kept r owner start 0)
    (.when (fun _ => updateFlows_kept fun _ h => h.expire now) fun _ _ h => h) fun _ => ?_
  refine (pinnedAction_kept (flowOf session datagram.remote) now).bind fun action =>
    .assume fun hpinned => ?_
  cases action with
  | some action =>
    obtain ⟨destination, hflow, hv4⟩ := hpinned rfl
    refine .pure fun _ h => ⟨⟨?_, nofun⟩, h⟩
    rw [flowOf_eq_some hflow]
    exact hv4
  | none =>
    have hroute : Ensures (Kept r owner start 0) _ _ _ :=
      onOutbound_ensures (outboundCall_ensures
        (route_grown .udp session.inbound datagram.remote datagram.sniffedDomain))
    refine Ensures.bind (M := fun decision self =>
        (r.Allows datagram.remote ∧ decision.Allowed r) ∧ Kept r owner start decision.spent self)
      (hroute.mono (fun _ _ h => ⟨⟨h.2.1, h.2.2.1⟩, h.1, h.2.2.2⟩) fun _ h => h) fun decision =>
      .assume fun hdecision => ?_
    cases hflow : flowOf session datagram.remote with
    | none => exact .pure fun _ h => ⟨hdecision.2, h⟩
    | some destination =>
      have hallowed : r.Allows (.ip destination) := by
        have hremote := hdecision.1
        rw [flowOf_eq_some hflow] at hremote
        exact hremote
      refine (now_kept decision.spent_le).bind fun pinnedAt => ?_
      refine (updateFlows_kept fun _ h => h.put fun _ => hallowed).bind fun _ => ?_
      exact .pure fun _ h => ⟨hdecision.2, h⟩

theorem send_kept :
    Costs (Kept r owner start) 0 (r.send w datagram) 1 := by
  refine .read_bind fun session => ?_
  refine (sendDecision_kept datagram).bind ?_
  rintro ⟨flowUse, decision⟩
  exact .assume fun hdecision =>
    onOutbound_ensures (sendDecided_grown session hdecision datagram)

theorem dropOtherFlow_kept (flow : Option SocketAddr) (flowId : Bytes) :
    Costs (Kept r owner start) 0 (dropOtherFlow w flow flowId) 0 := by
  unfold dropOtherFlow
  split
  · exact .pure fun _ h => h
  refine (now_kept (by omega)).bind fun now => ?_
  refine (updateFlows_kept fun _ h => h.expire now).bind fun _ =>
    updateFlows_kept fun flows h => ?_
  split_ifs
  · exact h.put nofun
  · exact h

theorem sendWithFlowId_kept (flowId : Bytes) :
    Costs (Kept r owner start) 0 (r.sendWithFlowId w datagram flowId) 1 := by
  unfold sendWithFlowId
  split_ifs
  · exact .fail fun _ h => h.mono (by omega)
  refine .read_bind fun session => ?_
  refine (dropOtherFlow_kept _ flowId).bind fun _ => (send_kept datagram).bind fun _ => ?_
  unfold tagFlow
  split
  · exact .pure fun _ h => h
  · refine updateFlows_kept fun flows h => h.put fun hsome => h _ ?_
    simpa using hsome

theorem receive_kept (answer : Except DispatchError Datagram) :
    Costs (Kept r owner start) 0 (receive w answer) 1 := by
  unfold receive
  split
  · exact .fail fun _ h => h.mono (by omega)
  refine .read_bind fun session => ?_
  refine .bind (M := fun _ => Kept r owner start 0) (.when (fun _ => ?_) fun _ _ h => h)
    fun _ => .pure fun _ h => h.mono (by omega)
  refine (now_kept (by omega)).bind fun now => ?_
  refine (updateFlows_kept fun _ h => h.expire now).bind fun _ => ?_
  split
  · exact updateFlows_kept fun _ h => h.observeResponse _ now
  · exact .pure fun _ h => h

theorem closeAll_grown (transports : List D) (firstError : Option DispatchError) :
    Costs (Outbound.Grown r start) 0 (closeAll w transports firstError) 0 := by
  induction transports generalizing firstError with
  | nil => exact .pure fun _ h => h
  | cons transport rest ih =>
    refine (outboundCall_ensures
      (call_grown (fun _ h => by cases h) rfl (by omega))).bind fun result => ?_
    cases result with
    | ok _ => exact ih firstError
    | error e => exact ih _

theorem close_kept : Costs (Kept r owner start) 0 (close w) 1 := by
  refine .read_bind fun out => ?_
  refine (onOutbound_ensures (closeAll_grown _ none)).bind fun firstError => ?_
  have hclear : Costs (Outbound.Grown r start) 0
      (update fun out => { out with routeTransports := [], directTransport := none }) 0 :=
    .update fun _ h => h
  refine (onOutbound_ensures hclear).bind fun _ => ?_
  refine (updateFlows_kept fun _ _ _ hsome => by cases hsome).bind fun _ => ?_
  split
  · exact .fail fun _ h => h.mono (by omega)
  · exact .pure fun _ h => h.mono (by omega)

/-- **One operation** keeps the invariant, hands over no IPv6 destination
and makes one lookup at most. -/
theorem perform_kept (operation : Operation) :
    Costs (Kept r owner start) 0 (r.perform w operation) 1 := by
  cases operation with
  | send datagram => exact send_kept datagram
  | sendWithFlowId datagram flowId => exact sendWithFlowId_kept datagram flowId
  | receive answer => exact (receive_kept answer).bind fun _ => .pure fun _ h => h
  | close => exact close_kept

/-- And so does a run of them. -/
theorem run_invariant (operations : List Operation) {self : RoutedDatagramTransport D}
    (h : Invariant r owner self) : Invariant r owner (r.run w operations self) := by
  induction operations generalizing self with
  | nil => exact h
  | cons operation rest ih =>
    exact ih ((perform_kept operation).always ⟨h, Grown.refl r self.outbound.history⟩).1

/-- **With `ipv6` off, no IPv6 destination leaves the dispatcher.** From
any history, `connect_tcp` adds calls that hand no IPv6 destination to
any dispatcher, with one lookup at most; and so does every operation on
the transport of any session, after any sequence of operations on it. -/
theorem no_ipv6_handed (r : RoutingDispatcher D) (w : World D) (hipv6 : r.ipv6 = false) :
    (∀ session history, ∃ calls, (r.connectTcp w session history).2 = calls ++ history ∧
      (∀ effect ∈ calls, ∀ destination, effect.handed = some destination →
        destination.isIpv6 = false) ∧ calls.countP Effect.isResolve ≤ 1) ∧
    ∀ session history operations operation,
      let self := r.run w operations (r.openDatagram w session history)
      ∃ calls, (r.perform w operation self).2.outbound.history = calls ++ self.outbound.history ∧
        (∀ effect ∈ calls, ∀ destination, effect.handed = some destination →
          destination.isIpv6 = false) ∧ calls.countP Effect.isResolve ≤ 1 := by
  refine ⟨fun session history => ?_, fun session history operations operation => ?_⟩
  · obtain ⟨calls, heq, hallowed, hcount⟩ :=
      (connectTcp_grown session).always (Grown.refl r history)
    exact ⟨calls, heq, fun e he d hd => hallowed e he d hd hipv6, hcount⟩
  · have hopen : Invariant r session (r.openDatagram w session history) :=
      ⟨rfl, nofun⟩
    obtain ⟨calls, heq, hallowed, hcount⟩ :=
      ((perform_kept operation).always ⟨run_invariant operations hopen, Grown.refl r _⟩).2
    exact ⟨calls, heq, fun e he d hd => hallowed e he d hd hipv6, hcount⟩

/-- A resolver that always answers with an IPv6 and an IPv4 address. -/
def sampleDns : RoutingDns String where
  resolve _ _ := some (.ok [.v6 1, .v4 0xC0000207])
  domainHint _ _ := some none

/-- A dispatcher without IPv6, whose one rule sends everything out
directly. -/
def sampleRouter : RoutingDispatcher String where
  routeTargets := ⟨["node"], none⟩
  direct := "direct"
  dns := some sampleDns
  ipv6 := false
  rules := ⟨[⟨.matchAll, .direct, false⟩], false, rfl⟩
  geoMatcher _ := emptyGeoMatcher
  tunConfig := ⟨[], 300⟩
  tables := ⟨some, fun text => .key text⟩

/-- Dispatchers that accept everything, and a clock that counts calls. -/
def sampleWorld : World String where
  clock history := history.length
  clock_mono _ _ := Nat.le_succ _
  connectTcp _ _ _ := some (.ok ())
  openDatagram _ _ _ := some (.ok ())
  sendDatagram _ _ _ := some (.ok ())
  closeDatagram _ _ := some (.ok ())

/-- A session to a domain. -/
def sampleSession : StreamSession :=
  ⟨.http, ⟨.v4 0x7F000001, 40000⟩, .domain (Bytes.ofString "example.com") 443, none⟩

theorem no_ipv6_handed_domain :
    (sampleRouter.connectTcp sampleWorld sampleSession []).2 =
        [.connectTcp "direct" { sampleSession with destination := .ip ⟨.v4 0xC0000207, 443⟩ },
          .resolve (Bytes.ofString "example.com")] ∧
      ∃ calls, (sampleRouter.connectTcp sampleWorld sampleSession []).2 = calls ++ [] ∧
        (∀ effect ∈ calls, ∀ destination, effect.handed = some destination →
          destination.isIpv6 = false) ∧ calls.countP Effect.isResolve ≤ 1 :=
  ⟨by decide, (no_ipv6_handed sampleRouter sampleWorld rfl).1 sampleSession []⟩

end RoutingDispatcher

end Vole.Routing
