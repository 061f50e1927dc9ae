import Vole.Common.Proc
import Vole.Model.Session
import Vole.Routing.Model.Groups

/-!
# The routing dispatcher

`RoutingDispatcher` decides each TCP session and each datagram by the
rules, and hands it to a proxy, to the leaf of a group or to `DIRECT`.
Everything it awaits is a call on the world: DNS, the dispatchers it
hands work to, the clock (in nanoseconds). The world answers from the history of the calls
made so far, so it may be in any state and change at any time; or it does
not answer, and then the caller has dropped the future at that call.
Tracing has no effect and is left out.
-/

namespace Vole.Routing

open Proc

/-! ## The world -/

/-- A call on the world. `D` is the type of dispatchers. -/
inductive Effect (D : Type) where
  | now
  | resolve (host : Bytes)
  | domainHint (address : IpAddr)
  | connectTcp (dispatcher : D) (session : StreamSession)
  | openDatagram (dispatcher : D) (session : DatagramSession)
  | sendDatagram (dispatcher : D) (datagram : Datagram)
  | closeDatagram (dispatcher : D)
  deriving DecidableEq, Repr

/-- The calls made so far, the last one first. -/
abbrev History (D : Type) := List (Effect D)

/-- Why an operation did not return. -/
inductive Stopped where
  | failed (error : DispatchError)
  | dropped
  deriving DecidableEq, Repr

variable {D : Type}

/-- Makes a call. -/
def call {α : Type} (effect : Effect D) (answer : History D → Option α) :
    Proc (History D) Stopped α := fun history =>
  match answer history with
  | some a => (.ok a, effect :: history)
  | none => (.error .dropped, effect :: history)

/-- Makes a call that can fail, as `call(..).await?` does. -/
def tryCall {α : Type} (effect : Effect D)
    (answer : History D → Option (Except DispatchError α)) :
    Proc (History D) Stopped α := do
  match ← call effect answer with
  | .ok a => pure a
  | .error e => fail (.failed e)

/-- The dispatchers and the clock. The clock does not run backwards. -/
structure World (D : Type) where
  clock : History D → ℕ
  clock_mono : ∀ history effect, clock history ≤ clock (effect :: history)
  connectTcp : History D → D → StreamSession → Option (Except DispatchError Unit)
  openDatagram : History D → D → DatagramSession → Option (Except DispatchError Unit)
  sendDatagram : History D → D → Datagram → Option (Except DispatchError Unit)
  closeDatagram : History D → D → Option (Except DispatchError Unit)

/-- `dispatcher::RoutingDns`, without the raw exchange. -/
structure RoutingDns (D : Type) where
  resolve : History D → Bytes → Option (Except DispatchError (List IpAddr))
  domainHint : History D → IpAddr → Option (Option Bytes)

/-- The groups a registry holds, with the indices a traversal starts from
and the `select` calls it meets. -/
structure LiveGroups (D : Type) where
  groups : ProxyGroups D
  selections : History D → groups.Selections
  schedule : History D → List (List (Bytes × Bytes))

/-- `dispatcher::ProxyDispatchers`. -/
structure ProxyDispatchers (D : Type) where
  proxies : List D
  proxyGroups : Option (LiveGroups D)

/-- `ProxyDispatchers::resolve`. -/
def ProxyDispatchers.resolve (targets : ProxyDispatchers D) (history : History D) :
    RouteTargetId → Except DispatchError (ResolvedProxyGroupLeaf D)
  | .proxy id =>
    match targets.proxies[id]? with
    | some dispatcher => .ok ⟨dispatcher, false⟩
    | none => .error (.other ("unknown proxy id " ++ toString id))
  | .group id =>
    match targets.proxyGroups with
    | some live => live.groups.resolveLeafAmong (live.schedule history) (live.selections history) id
    | none => .error (.other ("unknown proxy group id " ++ toString id))

/-- `config::TunConfig`, as the dispatcher reads it. -/
structure TunConfig where
  dnsHijack : List SocketAddr
  udpTimeout : ℕ
  deriving DecidableEq, Repr

/-- `IpAddr::is_unspecified`. -/
def isUnspecified : IpAddr → Bool
  | .v4 bits => bits == 0
  | .v6 bits => bits == 0

/-- `TunConfig::hijacks_dns`. -/
def TunConfig.hijacksDns (config : TunConfig) (destination : SocketAddr) : Bool :=
  config.dnsHijack.any fun target =>
    target == destination || (isUnspecified target.ip && destination.port == 53)

/-- `dispatcher::RoutingDispatcher`. A routing decision sees one view of
the GeoData. -/
structure RoutingDispatcher (D : Type) where
  routeTargets : ProxyDispatchers D
  direct : D
  dns : Option (RoutingDns D)
  ipv6 : Bool
  rules : RuleSet
  geoMatcher : History D → GeoMatcher
  tunConfig : TunConfig
  tables : TextTables

/-- `RoutingContext::with_domain_hint`. -/
def RoutingContext.withDomainHint (tables : TextTables) (network : Network)
    (destination : Destination) (domainHint : Option Bytes) :
    Except DomainNameError RoutingContext :=
  match destination with
  | .domain host port =>
    match normalizeDomainName tables host with
    | .ok domain => .ok ⟨network, port, some domain, none, none, false⟩
    | .error e => .error e
  | .ip address =>
    -- an unusable hint does not make a literal destination unreachable
    let domain := domainHint.bind fun hint => (normalizeDomainName tables hint).toOption
    .ok ⟨network, address.port, domain, some address.ip, none, false⟩

/-! ## One routing decision -/

/-- `dispatcher::RouteDecision`. -/
structure RouteDecision where
  action : RuleAction
  destination : Destination
  resolvedAddresses : Option (List IpAddr)
  deriving DecidableEq, Repr

/-- `dispatcher::preferred_address`. -/
def preferredAddress (addresses : List IpAddr) : Option IpAddr :=
  (addresses.find? IpAddr.isIpv4).or (addresses.find? IpAddr.isIpv6)

namespace RoutingDispatcher

variable (r : RoutingDispatcher D)

/-- `RoutingDispatcher::ensure_destination_allowed`. -/
def ensureDestinationAllowed (destination : Destination) : Proc (History D) Stopped Unit :=
  if !r.ipv6 && destination.isIpv6 then fail (.failed .networkUnreachable) else pure ()

/-- `RoutingDispatcher::resolve_addresses`. -/
def resolveAddresses (dns : RoutingDns D) (host : Bytes) :
    Proc (History D) Stopped (List IpAddr) := do
  let answer ← call (.resolve host) fun history => dns.resolve history host
  let addresses := answer.toOption.getD []
  pure (if r.ipv6 then addresses else addresses.filter IpAddr.isIpv4)

/-- The domain annotation of an IP destination. -/
def dnsDomainHint (acceptsDomainHint : Bool) (destination : Destination)
    (sniffedDomain : Option Bytes) : Proc (History D) Stopped (Option Bytes) :=
  match acceptsDomainHint, destination, r.dns, sniffedDomain with
  | true, .ip address, some dns, none =>
    call (.domainHint address.ip) fun history => dns.domainHint history address.ip
  | _, _, _, _ => pure none

/-- The lookup a paused evaluation asks for. -/
def lookupAddresses (destination : Destination) (context : RoutingContext) :
    Proc (History D) Stopped (List IpAddr) :=
  match destination, r.dns with
  | .domain host _, some dns => r.resolveAddresses dns (context.normalizedDomain.getD host)
  | _, _ => pure []

/-- The rule evaluation of `route`: the outcome, the context it leaves
and the addresses a lookup returned. -/
def evaluateRules (destination : Destination) (context : RoutingContext) :
    Proc (History D) Stopped (RuleEvaluation × RoutingContext × Option (List IpAddr)) := do
  let geo ← read r.geoMatcher
  match r.rules.evaluateWithGeo context geo with
  | .needsIpResolution index =>
    let addresses ← r.lookupAddresses destination context
    let evaluated := r.rules.evaluateWithResolvedIps context geo index addresses
    pure (evaluated.1, evaluated.2, some addresses)
  | evaluation => pure (evaluation, context, none)

/-- The addresses of a direct decision: those already looked up, or a
lookup of the host. -/
def directAddresses (decision : RouteDecision) (host : Bytes) :
    Proc (History D) Stopped (List IpAddr) :=
  match decision.resolvedAddresses, r.dns with
  | some addresses, _ => pure addresses
  | none, some dns => r.resolveAddresses dns host
  | none, none => pure []

/-- `RoutingDispatcher::resolve_direct_destination`. -/
def resolveDirectDestination (decision : RouteDecision) :
    Proc (History D) Stopped RouteDecision :=
  match decision.destination with
  | .ip _ => pure decision
  | .domain host port => do
    let addresses ← r.directAddresses decision host
    match preferredAddress addresses with
    | none => fail (.failed .hostUnreachable)
    | some address => pure ⟨decision.action, .ip ⟨address, port⟩, some addresses⟩

/-- Resolves the destination of a decision that goes out directly. -/
def resolveIfDirect (direct : Bool) (decision : RouteDecision) :
    Proc (History D) Stopped RouteDecision :=
  if direct then r.resolveDirectDestination decision else pure decision

/-- The destination a decision starts from: the normalised domain, or the
address a rule pinned. -/
def routedDestination (destination : Destination) (context : RoutingContext) : Destination :=
  match context.pinnedIp, destination with
  | some address, _ => .ip ⟨address, destination.port⟩
  | none, .domain host port => .domain (context.normalizedDomain.getD host) port
  | none, .ip address => .ip address

/-- `RoutingDispatcher::route`. -/
def route (network : Network) (inbound : InboundKind) (destination : Destination)
    (sniffedDomain : Option Bytes) : Proc (History D) Stopped RouteDecision := do
  r.ensureDestinationAllowed destination
  let acceptsDomainHint := inbound == .tun && r.rules.usesDomainRouting
  let sniffedDomain := if acceptsDomainHint then sniffedDomain else none
  let hint ← r.dnsDomainHint acceptsDomainHint destination sniffedDomain
  match RoutingContext.withDomainHint r.tables network destination (sniffedDomain.or hint) with
  | .error _ => fail (.failed .hostUnreachable)
  | .ok context =>
    let (evaluation, context, resolved) ← r.evaluateRules destination context
    match evaluation with
    | .matched rule =>
      r.resolveIfDirect (rule.action == .direct)
        ⟨rule.action, routedDestination destination context, resolved⟩
    | _ => fail (.failed (.other "routing rules produced no final action"))

/-! ## TCP -/

/-- What `connect_tcp` returns: the local DNS relay, or the stream of the
dispatcher the session went to. -/
inductive BoxStream where
  | dns
  | dispatched
  deriving DecidableEq, Repr

/-- Hands a session to a dispatcher. -/
def handTcp (w : World D) (dispatcher : D) (session : StreamSession) :
    Proc (History D) Stopped BoxStream := do
  tryCall (.connectTcp dispatcher session) fun history => w.connectTcp history dispatcher session
  pure .dispatched

/-- `ProxyDispatchers::resolve` in an operation. -/
def resolveTarget (id : RouteTargetId) : Proc (History D) Stopped (ResolvedProxyGroupLeaf D) := do
  match ← read fun history => r.routeTargets.resolve history id with
  | .ok leaf => pure leaf
  | .error e => fail (.failed e)

/-- The local DNS answers this destination. -/
def hijacks (session : StreamSession) : Bool :=
  session.inbound == .tun && r.dns.isSome &&
    match session.destination with
    | .ip address => r.tunConfig.hijacksDns address
    | .domain _ _ => false

/-- `RoutingDispatcher::connect_tcp`. -/
def connectTcp (w : World D) (session : StreamSession) : Proc (History D) Stopped BoxStream := do
  r.ensureDestinationAllowed session.destination
  if r.hijacks session then pure .dns
  else
    let decision ← r.route .tcp session.inbound session.destination session.sniffedDomain
    match decision.action with
    | .route id =>
      let target ← r.resolveTarget id
      let decision ← r.resolveIfDirect target.direct decision
      handTcp w target.dispatcher
        { session with destination := decision.destination, sniffedDomain := none }
    | .direct =>
      handTcp w r.direct
        { session with destination := decision.destination, sniffedDomain := none }
    | .reject => fail (.failed .notAllowed)

end RoutingDispatcher

/-! ## Pinned UDP routes -/

/-- `dispatcher::UDP_FLOW_CLEANUP_INTERVAL`, in nanoseconds. -/
def udpFlowCleanupInterval : ℕ := 10 * 1000000000

/-- `dispatcher::DatagramRoute`. -/
structure DatagramRoute where
  action : RuleAction
  lastUsed : ℕ
  flowId : Option Bytes
  deriving DecidableEq, Repr

/-- `dispatcher::DatagramRoutes`. `sweepDue now nextCleanup` is the test
that starts a sweep; in the source it is `cleanupDue`. -/
structure DatagramRoutes where
  entries : SocketAddr → Option DatagramRoute
  nextCleanup : ℕ
  idleTimeout : ℕ
  sweepDue : ℕ → ℕ → Bool

/-- The test of `DatagramRoutes::expire`. -/
def cleanupDue (now nextCleanup : ℕ) : Bool := decide (nextCleanup ≤ now)

namespace DatagramRoutes

/-- `DatagramRoutes::new`. -/
def new (sweepDue : ℕ → ℕ → Bool) (now idleTimeout : ℕ) : DatagramRoutes :=
  ⟨fun _ => none, now + udpFlowCleanupInterval, idleTimeout, sweepDue⟩

variable (routes : DatagramRoutes)

/-- Whether a route was used within the timeout. -/
def isLive (now : ℕ) (route : DatagramRoute) : Bool :=
  decide (now - route.lastUsed < routes.idleTimeout)

/-- `DatagramRoutes::expire`. The capacity of the map is not modelled. -/
def expire (now : ℕ) : DatagramRoutes :=
  if routes.sweepDue now routes.nextCleanup then
    { routes with
      nextCleanup := now + udpFlowCleanupInterval
      entries := fun destination => (routes.entries destination).filter (routes.isLive now) }
  else routes

/-- Replaces the entry of one destination. -/
def put (destination : SocketAddr) (route : Option DatagramRoute) : DatagramRoutes :=
  { routes with entries := Function.update routes.entries destination route }

/-- `DatagramRoutes::action`. -/
def action (destination : SocketAddr) (now : ℕ) : Option RuleAction × DatagramRoutes :=
  let routes := routes.expire now
  match routes.entries destination with
  | none => (none, routes)
  | some route =>
    if routes.idleTimeout ≤ now - route.lastUsed then (none, routes.put destination none)
    else (some route.action, routes.put destination (some { route with lastUsed := now }))

/-- `DatagramRoutes::observe_response`. -/
def observeResponse (destination : SocketAddr) (now : ℕ) : DatagramRoutes :=
  let routes := routes.expire now
  match routes.entries destination with
  | none => routes
  | some route =>
    if now - route.lastUsed < routes.idleTimeout then
      routes.put destination (some { route with lastUsed := now })
    else routes.put destination none

end DatagramRoutes

/-! ## Datagrams -/

/-- `dispatcher::CachedRouteTransport`, a transport as the dispatcher that
opened it. -/
structure CachedRouteTransport (D : Type) where
  transport : D
  direct : Bool
  deriving DecidableEq, Repr

/-- The outbound half of a `RoutedDatagramTransport`: its transports, and
the calls made. -/
structure Outbound (D : Type) where
  routeTransports : List (RouteTargetId × CachedRouteTransport D)
  directTransport : Option D
  history : History D

/-- `dispatcher::RoutedDatagramTransport`. -/
structure RoutedDatagramTransport (D : Type) where
  session : DatagramSession
  outbound : Outbound D
  flows : DatagramRoutes

/-- A call made by the outbound half. -/
def outboundCall {α : Type} (x : Proc (History D) Stopped α) : Proc (Outbound D) Stopped α :=
  within Outbound.history (fun out history => { out with history }) x

/-- What the whole transport leaves to its outbound half. -/
def onOutbound {α : Type} (x : Proc (Outbound D) Stopped α) :
    Proc (RoutedDatagramTransport D) Stopped α :=
  within RoutedDatagramTransport.outbound (fun self outbound => { self with outbound }) x

/-- `Instant::now`. -/
def World.now (w : World D) : Proc (RoutedDatagramTransport D) Stopped ℕ :=
  onOutbound (outboundCall (call .now fun history => some (w.clock history)))

/-- Changes the pinned routes. -/
def updateFlows (f : DatagramRoutes → DatagramRoutes) :
    Proc (RoutedDatagramTransport D) Stopped Unit :=
  update fun self => { self with flows := f self.flows }

namespace RoutingDispatcher

variable (r : RoutingDispatcher D) (w : World D)

/-- `RoutingDispatcher::open_datagram`, with the test that starts a sweep
of the pinned routes. -/
def openDatagramSweeping (sweepDue : ℕ → ℕ → Bool) (session : DatagramSession)
    (history : History D) : RoutedDatagramTransport D :=
  ⟨session, ⟨[], none, .now :: history⟩,
    .new sweepDue (w.clock history) r.tunConfig.udpTimeout⟩

/-- `RoutingDispatcher::open_datagram`. -/
def openDatagram (session : DatagramSession) (history : History D) : RoutedDatagramTransport D :=
  r.openDatagramSweeping w cleanupDue session history

/-- The transport of a route target, opened where there is none yet:
whether it is direct, and the decision, whose domain a new direct
transport resolves first. -/
def routeTransport (session : DatagramSession) (id : RouteTargetId) (decision : RouteDecision) :
    Proc (Outbound D) Stopped (CachedRouteTransport D × RouteDecision) := do
  match ← read fun out => out.routeTransports.lookup id with
  | some cached => pure (cached, decision)
  | none =>
    let target ← outboundCall (r.resolveTarget id)
    let decision ← outboundCall (r.resolveIfDirect target.direct decision)
    outboundCall (tryCall (.openDatagram target.dispatcher session) fun history =>
      w.openDatagram history target.dispatcher session)
    let cached : CachedRouteTransport D := ⟨target.dispatcher, target.direct⟩
    update fun out => { out with routeTransports := (id, cached) :: out.routeTransports }
    pure (cached, decision)

/-- Hands a datagram to a transport. -/
def handDatagram (transport : D) (datagram : Datagram) : Proc (Outbound D) Stopped Unit :=
  outboundCall (tryCall (.sendDatagram transport datagram) fun history =>
    w.sendDatagram history transport datagram)

/-- `RoutedDatagramTransport::send_route`. -/
def sendRoute (session : DatagramSession) (id : RouteTargetId) (decision : RouteDecision)
    (datagram : Datagram) : Proc (Outbound D) Stopped Unit := do
  let (cached, decision) ← r.routeTransport w session id decision
  -- a domain that met a direct transport already open is resolved here
  let decision ←
    outboundCall (r.resolveIfDirect (cached.direct && !decision.destination.isIp) decision)
  handDatagram w cached.transport
    { datagram with remote := decision.destination, sniffedDomain := none }

/-- `RoutedDatagramTransport::send_direct`. -/
def sendDirect (session : DatagramSession) (datagram : Datagram) :
    Proc (Outbound D) Stopped Unit := do
  match ← read Outbound.directTransport with
  | some transport => handDatagram w transport datagram
  | none =>
    outboundCall (tryCall (.openDatagram r.direct session) fun history =>
      w.openDatagram history r.direct session)
    update fun out => { out with directTransport := some r.direct }
    handDatagram w r.direct datagram

/-- How `send` came to its decision: by the pinned route, or by the rules,
with the moment it pinned the outcome. -/
inductive FlowUse where
  | pinned
  | evaluated (pinnedAt : Option ℕ)
  deriving DecidableEq, Repr

/-- The five-tuple flow of a datagram: that of a TUN session to an IP
destination. -/
def flowOf (session : DatagramSession) (remote : Destination) : Option SocketAddr :=
  match session.inbound, remote with
  | .tun, .ip address => some address
  | _, _ => none

/-- The pinned action of a flow. -/
def pinnedAction (flow : Option SocketAddr) (now : ℕ) :
    Proc (RoutedDatagramTransport D) Stopped (Option RuleAction) :=
  match flow with
  | none => pure none
  | some destination => do
    let found ← read fun self => self.flows.action destination now
    updateFlows fun _ => found.2
    pure found.1

/-- The first half of `RoutedDatagramTransport::send`: the decision. -/
def sendDecision (datagram : Datagram) :
    Proc (RoutedDatagramTransport D) Stopped (FlowUse × RouteDecision) := do
  let now ← w.now
  let session ← read RoutedDatagramTransport.session
  when (session.inbound == .tun) (updateFlows (·.expire now))
  let flow := flowOf session datagram.remote
  match ← pinnedAction flow now with
  | some action => pure (.pinned, ⟨action, datagram.remote, none⟩)
  | none =>
    let decision ← onOutbound (outboundCall
      (r.route .udp session.inbound datagram.remote datagram.sniffedDomain))
    match flow with
    | none => pure (.evaluated none, decision)
    | some destination =>
      let pinnedAt ← w.now
      updateFlows (·.put destination (some ⟨decision.action, pinnedAt, none⟩))
      pure (.evaluated (some pinnedAt), decision)

/-- The second half of `RoutedDatagramTransport::send`: the datagram goes
where the decision sends it. -/
def sendDecided (session : DatagramSession) (decision : RouteDecision) (datagram : Datagram) :
    Proc (Outbound D) Stopped Unit :=
  match decision.action with
  | .route id => r.sendRoute w session id decision datagram
  | .direct =>
    r.sendDirect w session
      { datagram with remote := decision.destination, sniffedDomain := none }
  | .reject => pure ()

/-- `RoutedDatagramTransport::send`. -/
def send (datagram : Datagram) : Proc (RoutedDatagramTransport D) Stopped Unit := do
  let session ← read RoutedDatagramTransport.session
  let (_, decision) ← r.sendDecision w datagram
  onOutbound (r.sendDecided w session decision datagram)

/-- The check of `send_with_flow_id`: an entry of another flow goes. -/
def dropOtherFlow (flow : Option SocketAddr) (flowId : Bytes) :
    Proc (RoutedDatagramTransport D) Stopped Unit :=
  match flow with
  | none => pure ()
  | some destination => do
    let now ← w.now
    updateFlows (·.expire now)
    updateFlows fun flows =>
      if (flows.entries destination).any fun route => route.flowId != some flowId then
        flows.put destination none
      else flows

/-- The end of `send_with_flow_id`: the entry takes the flow's identity. -/
def tagFlow (flow : Option SocketAddr) (flowId : Bytes) :
    Proc (RoutedDatagramTransport D) Stopped Unit :=
  match flow with
  | none => pure ()
  | some destination => updateFlows fun flows =>
    flows.put destination ((flows.entries destination).map fun route =>
      { route with flowId := some flowId })

/-- `RoutedDatagramTransport::send_with_flow_id`. -/
def sendWithFlowId (datagram : Datagram) (flowId : Bytes) :
    Proc (RoutedDatagramTransport D) Stopped Unit := do
  if flowId.isEmpty || 25 < flowId.length then fail (.failed .notAllowed)
  else
    let session ← read RoutedDatagramTransport.session
    let flow := flowOf session datagram.remote
    dropOtherFlow w flow flowId
    r.send w datagram
    tagFlow flow flowId

/-- What a response does to the pinned routes of a TUN session. -/
def observeResponse (datagram : Datagram) : Proc (RoutedDatagramTransport D) Stopped Unit := do
  let now ← w.now
  updateFlows (·.expire now)
  match datagram.remote with
  | .ip destination => updateFlows (·.observeResponse destination now)
  | .domain _ _ => pure ()

/-- `RoutedDatagramTransport::receive`, once one of its transports has
answered. -/
def receive (answer : Except DispatchError Datagram) :
    Proc (RoutedDatagramTransport D) Stopped Datagram :=
  match answer with
  | .error e => fail (.failed e)
  | .ok datagram => do
    let session ← read RoutedDatagramTransport.session
    when (session.inbound == .tun) (observeResponse w datagram)
    pure datagram

/-- Closes transports one after the other, and keeps the first error. -/
def closeAll : List D → Option DispatchError → Proc (Outbound D) Stopped (Option DispatchError)
  | [], firstError => pure firstError
  | transport :: rest, firstError => do
    match ← outboundCall (call (.closeDatagram transport) fun history =>
        w.closeDatagram history transport) with
    | .ok () => closeAll rest firstError
    | .error e => closeAll rest (firstError.or (some e))

/-- `RoutedDatagramTransport::close`. -/
def close : Proc (RoutedDatagramTransport D) Stopped Unit := do
  let out ← read RoutedDatagramTransport.outbound
  let transports := out.routeTransports.map (·.2.transport) ++ out.directTransport.toList
  let firstError ← onOutbound (closeAll w transports none)
  onOutbound (update fun out => { out with routeTransports := [], directTransport := none })
  updateFlows fun flows => { flows with entries := fun _ => none }
  match firstError with
  | some e => fail (.failed e)
  | none => pure ()

/-! ## Runs -/

/-- An operation on the transport of a session. -/
inductive Operation where
  | send (datagram : Datagram)
  | sendWithFlowId (datagram : Datagram) (flowId : Bytes)
  | receive (answer : Except DispatchError Datagram)
  | close

/-- One operation. -/
def perform : Operation → Proc (RoutedDatagramTransport D) Stopped Unit
  | .send datagram => r.send w datagram
  | .sendWithFlowId datagram flowId => r.sendWithFlowId w datagram flowId
  | .receive answer => do
    let _ ← receive w answer
    pure ()
  | .close => close w

/-- A sequence of operations, each of them carried out whether or not the
ones before it succeeded. -/
def run (operations : List Operation) (self : RoutedDatagramTransport D) :
    RoutedDatagramTransport D :=
  operations.foldl (fun self operation => (r.perform w operation self).2) self

end RoutingDispatcher

end Vole.Routing
