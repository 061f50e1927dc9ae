import Mathlib.Data.List.Chain
import Vole.Routing.Ipv6

/-!
# Pinned UDP routes

A TUN association pins the action of each IP flow. What the sweep removes
is what a lookup would not have returned any more, so of the table only
the live entries matter (`live`), and they are a function of what the
association has done: the trace of its sends, its observed responses and
its closing. `Agrees` ties the two together, and every operation keeps
it.
-/

namespace Vole.Routing

open List Option RoutingDispatcher Proc

variable {D : Type}

/-! ## What a run shows -/

/-- How a datagram came to its action: a pinned one, one the rules gave,
with the moment it was pinned, or none, since the rules gave none. -/
inductive Outcome where
  | reused (action : RuleAction)
  | evaluated (action : RuleAction) (pinnedAt : Option ℕ)
  | failed
  deriving DecidableEq, Repr

/-- An event of an association's flows. A send has returned, or it was
stopped after its outcome stood. -/
inductive FlowEvent where
  | sent (destination : SocketAddr) (flowId : Option Bytes) (time : ℕ) (outcome : Outcome)
      (returned : Bool)
  | observed (destination : SocketAddr) (time : ℕ)
  | closed
  deriving DecidableEq, Repr

namespace RoutingDispatcher

variable (r : RoutingDispatcher D) (w : World D)

/-- What a decision, or the lack of one, says. -/
def outcomeOf : Except Stopped (FlowUse × RouteDecision) → Outcome
  | .ok (.pinned, decision) => .reused decision.action
  | .ok (.evaluated pinnedAt, decision) => .evaluated decision.action pinnedAt
  | .error _ => .failed

/-- What `send` decides about a datagram. -/
def sendOutcome (datagram : Datagram) (self : RoutedDatagramTransport D) : Outcome :=
  outcomeOf (r.sendDecision w datagram self).1

/-- The event of a `send`. -/
def sentEvent (flowId : Option Bytes) (datagram : Datagram) (self : RoutedDatagramTransport D) :
    Option FlowEvent :=
  (flowOf self.session datagram.remote).map fun destination =>
    .sent destination flowId (w.clock self.outbound.history) (r.sendOutcome w datagram self)
      (r.send w datagram self).1.isOk

/-- The state in which `send_with_flow_id` sends. -/
def afterDrop (datagram : Datagram) (flowId : Bytes) (self : RoutedDatagramTransport D) :
    RoutedDatagramTransport D :=
  (dropOtherFlow w (flowOf self.session datagram.remote) flowId self).2

/-- The event of an operation. -/
def flowEvent (operation : Operation) (self : RoutedDatagramTransport D) : Option FlowEvent :=
  match operation with
  | .send datagram => r.sentEvent w none datagram self
  | .sendWithFlowId datagram flowId =>
    if flowId.isEmpty || 25 < flowId.length then none
    else r.sentEvent w (some flowId) datagram (afterDrop w datagram flowId self)
  | .receive (.ok datagram) =>
    (flowOf self.session datagram.remote).map (.observed · (w.clock self.outbound.history))
  | .receive (.error _) => none
  | .close =>
    match (close w self).1 with
    | .error .dropped => none
    | _ => some .closed

/-- The events of a run. Its operations are carried out whether or not the
ones before them returned. -/
def trace : List Operation → RoutedDatagramTransport D → List FlowEvent
  | [], _ => []
  | operation :: rest, self =>
    (r.flowEvent w operation self).toList ++ trace rest (r.perform w operation self).2

end RoutingDispatcher

/-! ## When an action is reused -/

/-- The moment an event uses a flow: a datagram to it, or a response. -/
def FlowEvent.use (destination : SocketAddr) : FlowEvent → Option ℕ
  | .sent d _ time _ _ => if d = destination then some time else none
  | .observed d time => if d = destination then some time else none
  | .closed => none

/-- The event leaves a flow pinned under this identity: it does not close
the association and carries no other identity for the flow. -/
def FlowEvent.Keeps (destination : SocketAddr) (pinnedId : Option Bytes) : FlowEvent → Prop
  | .sent d (some flowId) _ _ _ => d = destination → pinnedId = some flowId
  | .sent _ none _ _ _ => True
  | .observed _ _ => True
  | .closed => False

/-- The entry an outcome creates: the action the rules gave. -/
def Outcome.entry (flowId : Option Bytes) : Outcome → Option DatagramRoute
  | .evaluated action (some pinnedAt) => some ⟨action, pinnedAt, flowId⟩
  | _ => none

/-- The entry an event pins, under the identity of the datagram. A send
that was stopped leaves no identity. -/
def FlowEvent.pins (destination : SocketAddr) : FlowEvent → Option DatagramRoute
  | .sent d flowId _ outcome returned =>
    if d = destination then outcome.entry (if returned then flowId else none) else none
  | _ => none

/-- **A flow is pinned by a trace** to an action, under an identity, with
these moments of use: the rules gave the action and it was pinned at the
first moment; no event since closed the association or carried another
identity for the flow; and each gap between uses is below the timeout. -/
def Pinned (idle : ℕ) (trace : List FlowEvent) (destination : SocketAddr)
    (action : RuleAction) (pinnedId : Option Bytes) (uses : List ℕ) : Prop :=
  ∃ before event pinnedAt after, trace = before ++ event :: after ∧
    event.pins destination = some ⟨action, pinnedAt, pinnedId⟩ ∧
    (∀ later ∈ after, later.Keeps destination pinnedId) ∧
    uses = pinnedAt :: after.filterMap (FlowEvent.use destination) ∧
    uses.IsChain fun earlier later => later - earlier < idle

/-- **A datagram reuses an action** where its flow is pinned to it, under
the identity the datagram carries if it carries one, and the last use was
less than the timeout ago. -/
def Reuses (idle : ℕ) (trace : List FlowEvent) (destination : SocketAddr)
    (flowId : Option Bytes) (time : ℕ) (action : RuleAction) : Prop :=
  ∃ pinnedId uses, Pinned idle trace destination action pinnedId uses ∧
    (uses ++ [time]).IsChain (fun earlier later => later - earlier < idle) ∧
    ∀ id, flowId = some id → pinnedId = some id

/-! ## Live entries -/

namespace DatagramRoutes

variable (routes : DatagramRoutes)

/-- The entry of a destination, where it was used within the timeout. -/
def live (now : ℕ) (destination : SocketAddr) : Option DatagramRoute :=
  (routes.entries destination).filter (routes.isLive now)

variable {routes} {now later : ℕ} {destination : SocketAddr}

theorem isLive_iff {route : DatagramRoute} :
    routes.isLive now route = true ↔ now - route.lastUsed < routes.idleTimeout := by
  simp [isLive]

theorem isLive_congr {routes' : DatagramRoutes} (h : routes'.idleTimeout = routes.idleTimeout) :
    routes'.isLive = routes.isLive := by
  funext now route
  rw [isLive, isLive, h]

/-- What is live later was live before. -/
theorem live_later (h : now ≤ later) :
    routes.live later destination =
      (routes.live now destination).filter (routes.isLive later) := by
  unfold live
  rw [Option.filter_filter]
  congr 1
  funext route
  by_cases hlater : routes.isLive later route = true
  · have hnow : routes.isLive now route = true := by
      rw [isLive_iff] at hlater ⊢
      omega
    simp [hlater, hnow]
  · simp [hlater]

@[simp] theorem expire_idleTimeout : (routes.expire now).idleTimeout = routes.idleTimeout := by
  unfold expire
  split <;> rfl

@[simp] theorem put_idleTimeout {route : Option DatagramRoute} :
    (routes.put destination route).idleTimeout = routes.idleTimeout := rfl

/-- **The sweep removes nothing live.** -/
theorem live_expire (routes : DatagramRoutes) (destination : SocketAddr) (h : now ≤ later) :
    (routes.expire now).live later destination = routes.live later destination := by
  unfold expire
  split
  · show ((routes.entries destination).filter (routes.isLive now)).filter (routes.isLive later) = _
    rw [live_later h]
    rfl
  · rfl

theorem live_put (routes : DatagramRoutes) (destination : SocketAddr)
    (route : Option DatagramRoute) (now : ℕ) (d : SocketAddr) :
    (routes.put destination route).live now d =
      if d = destination then route.filter (routes.isLive now) else routes.live now d := by
  unfold put live isLive
  by_cases hd : d = destination
  · subst hd
    simp
  · simp [hd]

/-- A use of a live entry. -/
def touch (now : ℕ) (route : DatagramRoute) : DatagramRoute := { route with lastUsed := now }

/-- What a use does to an entry: a live one is used, another one goes. -/
def usedEntry (routes : DatagramRoutes) (now : ℕ) (route : DatagramRoute) : Option DatagramRoute :=
  if routes.isLive now route then some (touch now route) else none

theorem bind_usedEntry (entry : Option DatagramRoute) :
    entry.bind (routes.usedEntry now) = (entry.filter (routes.isLive now)).map (touch now) := by
  cases entry with
  | none => rfl
  | some route => by_cases hlive : routes.isLive now route = true <;> simp [usedEntry, hlive]

variable (destination : SocketAddr)

/-- `action` returns the action of a live entry, and uses it. -/
theorem action_eq (now : ℕ) :
    routes.action destination now =
      ((routes.live now destination).map (·.action),
        (routes.expire now).put destination ((routes.live now destination).map (touch now))) := by
  rw [← live_expire routes destination le_rfl, live, isLive_congr expire_idleTimeout,
    ← bind_usedEntry]
  unfold action
  cases hentry : (routes.expire now).entries destination with
  | none =>
    have hself : (routes.expire now).put destination none = routes.expire now := by
      rw [← hentry, put, Function.update_eq_self]
    simp [hentry, hself]
  | some route =>
    by_cases hlive : routes.isLive now route = true
    · have hgap := isLive_iff.mp hlive
      simp [hentry, usedEntry, touch, hlive, Nat.not_le.mpr hgap]
    · have hgap := Nat.not_lt.mp (mt isLive_iff.mpr hlive)
      simp [hentry, usedEntry, hlive, hgap]

/-- `observe_response` is a use too. -/
theorem observeResponse_eq (now : ℕ) :
    routes.observeResponse destination now = (routes.action destination now).2 := by
  unfold observeResponse action
  dsimp only
  split
  · rfl
  · split_ifs <;> first | rfl | omega

theorem action_fst (now : ℕ) :
    (routes.action destination now).1 = (routes.live now destination).map (·.action) := by
  rw [action_eq]

/-- **A use keeps what is live**, with the moment of the use. -/
theorem live_action (h : now ≤ later) (d : SocketAddr) :
    (routes.action destination now).2.live later d =
      if d = destination then
        ((routes.live now destination).map (touch now)).filter (routes.isLive later)
      else routes.live later d := by
  rw [action_eq, live_put, isLive_congr expire_idleTimeout, live_expire routes d h]

@[simp] theorem action_idleTimeout :
    (routes.action destination now).2.idleTimeout = routes.idleTimeout := by
  rw [action_eq, put_idleTimeout, expire_idleTimeout]

end DatagramRoutes

/-! ## Traces -/

open DatagramRoutes

section Trace

variable {idle : ℕ} {trace : List FlowEvent} {destination : SocketAddr}

/-- The entry a trace pins a flow to, its last use the last of its uses. -/
def PinnedEntry (idle : ℕ) (trace : List FlowEvent) (destination : SocketAddr)
    (route : DatagramRoute) : Prop :=
  ∃ uses, Pinned idle trace destination route.action route.flowId uses ∧
    uses.getLast? = some route.lastUsed

theorem isChain_concat {uses : List ℕ} {last time : ℕ} (hlast : uses.getLast? = some last) :
    (uses ++ [time]).IsChain (fun earlier later => later - earlier < idle) ↔
      uses.IsChain (fun earlier later => later - earlier < idle) ∧ time - last < idle := by
  simp [isChain_append, hlast]

/-- **One more event.** It pins the flow anew, or the flow was pinned, the
event keeps it, and a use of it comes in time. -/
theorem pinnedEntry_concat {event : FlowEvent} {route : DatagramRoute} :
    PinnedEntry idle (trace ++ [event]) destination route ↔
      event.pins destination = some route ∨
      ∃ earlier, PinnedEntry idle trace destination ⟨route.action, earlier, route.flowId⟩ ∧
        event.Keeps destination route.flowId ∧
        ((event.use destination = none ∧ route.lastUsed = earlier) ∨
          event.use destination = some route.lastUsed ∧ route.lastUsed - earlier < idle) := by
  constructor
  · rintro ⟨uses, ⟨before, first, pinnedAt, after, htrace, hpins, hkeeps, rfl, hchain⟩, hlast⟩
    rcases eq_nil_or_concat' after with rfl | ⟨after, last, rfl⟩
    · obtain ⟨-, rfl⟩ : trace = before ∧ event = first := by
        simpa using append_inj' htrace rfl
      have hpinnedAt : pinnedAt = route.lastUsed := by simpa using hlast
      exact Or.inl (by rw [hpins, hpinnedAt])
    obtain ⟨hbefore, rfl⟩ : trace = before ++ first :: after ∧ event = last := by
      rw [← cons_append, ← append_assoc] at htrace
      simpa using append_inj' htrace rfl
    have hkeeps' : ∀ e ∈ after, e.Keeps destination route.flowId :=
      fun e he => hkeeps e (by simp [he])
    have hevent : event.Keeps destination route.flowId := hkeeps event (by simp)
    rw [filterMap_append, ← cons_append] at hchain hlast
    have hfront := (isChain_append.mp hchain).1
    obtain ⟨earlier, hearlier⟩ := isSome_iff_exists.mp
      (getLast?_isSome.mpr (cons_ne_nil pinnedAt (after.filterMap (FlowEvent.use destination))))
    refine Or.inr ⟨earlier, ⟨_, ⟨before, first, pinnedAt, after, hbefore, hpins, hkeeps', rfl,
      hfront⟩, hearlier⟩, hevent, ?_⟩
    cases huse : event.use destination with
    | none =>
      rw [filterMap_cons_none huse, filterMap_nil, append_nil, hearlier] at hlast
      exact Or.inl ⟨rfl, (some.inj hlast).symm⟩
    | some t =>
      rw [filterMap_cons_some huse, filterMap_nil] at hlast hchain
      rw [getLast?_concat] at hlast
      obtain rfl : t = route.lastUsed := some.inj hlast
      exact Or.inr ⟨rfl, ((isChain_concat hearlier).mp hchain).2⟩
  · rintro (hpins | ⟨earlier, ⟨uses, ⟨before, first, pinnedAt, after, rfl, hpins, hkeeps, rfl,
      hchain⟩, hearlier⟩, hevent, huse⟩)
    · exact ⟨[route.lastUsed], ⟨trace, event, route.lastUsed, [], rfl, hpins, by simp, rfl,
        by simp⟩, rfl⟩
    have hkeeps' : ∀ e ∈ after ++ [event], e.Keeps destination route.flowId :=
      forall_mem_append.mpr ⟨hkeeps, forall_mem_singleton.mpr hevent⟩
    refine ⟨_, ⟨before, first, pinnedAt, after ++ [event], by simp, hpins, hkeeps', rfl, ?_⟩, ?_⟩
    · rw [filterMap_append, ← cons_append]
      rcases huse with ⟨hnone, -⟩ | ⟨hsome, hgap⟩
      · rw [filterMap_cons_none hnone, filterMap_nil, append_nil]
        exact hchain
      rw [filterMap_cons_some hsome, filterMap_nil]
      exact (isChain_concat hearlier).mpr ⟨hchain, hgap⟩
    · rw [filterMap_append, ← cons_append]
      rcases huse with ⟨hnone, hsame⟩ | ⟨hsome, -⟩
      · rw [filterMap_cons_none hnone, filterMap_nil, append_nil, hsame]
        exact hearlier
      · rw [filterMap_cons_some hsome, filterMap_nil, getLast?_concat]

/-- An event of other flows. -/
theorem pinnedEntry_other {event : FlowEvent} {route : DatagramRoute}
    (huse : event.use destination = none) (hpins : event.pins destination = none)
    (hkeeps : event.Keeps destination route.flowId) :
    PinnedEntry idle (trace ++ [event]) destination route ↔
      PinnedEntry idle trace destination route := by
  rw [pinnedEntry_concat, huse, hpins]
  constructor
  · rintro (hbad | ⟨earlier, hpinned, -, ⟨-, rfl⟩ | ⟨hsome, -⟩⟩)
    · cases hbad
    · exact hpinned
    · cases hsome
  · exact fun hpinned => Or.inr ⟨route.lastUsed, hpinned, hkeeps, Or.inl ⟨rfl, rfl⟩⟩

/-- A datagram reuses an action where a pinned entry is live and carries
the datagram's identity. -/
theorem reuses_iff {flowId : Option Bytes} {time : ℕ} {action : RuleAction} :
    Reuses idle trace destination flowId time action ↔
      ∃ route, PinnedEntry idle trace destination route ∧ time - route.lastUsed < idle ∧
        (∀ id, flowId = some id → route.flowId = some id) ∧ route.action = action := by
  constructor
  · rintro ⟨pinnedId, uses, hpinned, hchain, hid⟩
    obtain ⟨before, event, pinnedAt, after, htrace, hpins, hkeeps, rfl, hfront⟩ := hpinned
    obtain ⟨last, hlast⟩ := isSome_iff_exists.mp
      (getLast?_isSome.mpr (cons_ne_nil pinnedAt (after.filterMap (FlowEvent.use destination))))
    have hgap := ((isChain_concat hlast).mp hchain).2
    exact ⟨⟨action, last, pinnedId⟩,
      ⟨_, ⟨before, event, pinnedAt, after, htrace, hpins, hkeeps, rfl, hfront⟩, hlast⟩, hgap, hid,
      rfl⟩
  · rintro ⟨route, ⟨uses, hpinned, hlast⟩, hgap, hid, rfl⟩
    refine ⟨route.flowId, uses, hpinned, (isChain_concat hlast).mpr ⟨?_, hgap⟩, hid⟩
    obtain ⟨-, -, -, -, -, -, -, -, hchain⟩ := hpinned
    exact hchain

end Trace

/-! ## The table agrees with the trace -/

/-- **The live entries are the pinned ones.** -/
structure Agrees (idle now : ℕ) (trace : List FlowEvent) (routes : DatagramRoutes) : Prop where
  idle_eq : routes.idleTimeout = idle
  live_iff : ∀ destination route, routes.live now destination = some route ↔
    PinnedEntry idle trace destination route ∧ now - route.lastUsed < idle

namespace Agrees

variable {idle now : ℕ} {trace : List FlowEvent} {routes next : DatagramRoutes}

section

variable (h : Agrees idle now trace routes)

include h

theorem mono {later : ℕ} (hle : now ≤ later) : Agrees idle later trace routes := by
  refine ⟨h.idle_eq, fun destination route => ?_⟩
  rw [live_later hle, filter_eq_some_iff, isLive_iff,
    h.live_iff, h.idle_eq]
  constructor
  · rintro ⟨⟨hpinned, -⟩, hlive⟩
    exact ⟨hpinned, hlive⟩
  · rintro ⟨hpinned, hlive⟩
    exact ⟨⟨hpinned, by omega⟩, hlive⟩

theorem expire {time : ℕ} (hle : time ≤ now) : Agrees idle now trace (routes.expire time) :=
  ⟨by rw [expire_idleTimeout, h.idle_eq], fun d _ => by rw [live_expire routes d hle, h.live_iff]⟩

end

/-- **A use** keeps the agreement, where the event that records it keeps
the entry it uses. -/
theorem use {time later : ℕ} {event : FlowEvent} (destination : SocketAddr)
    (h : Agrees idle time trace routes) (hle : time ≤ later)
    (huse : ∀ d, event.use d = if d = destination then some time else none)
    (hkeeps : ∀ d route, (d = destination → routes.live time d = some route) →
      event.Keeps d route.flowId)
    (hpins : ∀ d, event.pins d = none) (hidle : next.idleTimeout = idle)
    (hnext : ∀ d, next.live later d =
      if d = destination then
        ((routes.live time destination).map (touch time)).filter
          (routes.isLive later)
      else routes.live later d) :
    Agrees idle later (trace ++ [event]) next := by
  refine ⟨hidle, fun d route => ?_⟩
  have hused := huse d
  rw [hnext]
  by_cases hd : d = destination
  · subst hd
    rw [if_pos rfl] at hused
    simp only [pinnedEntry_concat, hused, hpins, if_true, filter_eq_some_iff, map_eq_some_iff,
      isLive_iff, h.idle_eq, h.live_iff]
    constructor
    · rintro ⟨⟨old, ⟨hpinned, hgap⟩, rfl⟩, hlive⟩
      refine ⟨Or.inr ⟨old.lastUsed, hpinned, ?_, Or.inr ⟨rfl, hgap⟩⟩, hlive⟩
      exact hkeeps d old fun _ => (h.live_iff d old).mpr ⟨hpinned, hgap⟩
    rintro ⟨hnew | ⟨earlier, hpinned, -, ⟨hnone, -⟩ | ⟨hsome, hgap⟩⟩, hlive⟩
    · cases hnew
    · cases hnone
    · have htime : time = route.lastUsed := some.inj hsome
      refine ⟨⟨_, ⟨hpinned, by rw [htime]; exact hgap⟩, ?_⟩, hlive⟩
      rw [touch, htime]
  · rw [if_neg hd] at hused ⊢
    rw [(h.mono hle).live_iff, pinnedEntry_other hused (hpins d) (hkeeps d route (absurd · hd))]

/-- **A send that the rules decide** keeps the agreement, where no live
entry carries the datagram's identity and the table takes in what the
event pins. -/
theorem decide {time later : ℕ} {destination : SocketAddr} {flowId : Option Bytes}
    {outcome : Outcome} {returned : Bool} (h : Agrees idle time trace routes) (hle : time ≤ later)
    (hnone : ∀ route, routes.live time destination = some route →
      ∃ id, flowId = some id ∧ route.flowId ≠ some id)
    (hidle : next.idleTimeout = idle)
    (hnext : ∀ d, next.live later d =
      if d = destination then
        (FlowEvent.pins destination (.sent destination flowId time outcome returned)).filter
          (routes.isLive later)
      else routes.live later d) :
    Agrees idle later (trace ++ [.sent destination flowId time outcome returned]) next := by
  refine ⟨hidle, fun d route => ?_⟩
  rw [hnext]
  by_cases hd : d = destination
  · subst hd
    rw [pinnedEntry_concat, if_pos rfl, filter_eq_some_iff, isLive_iff, h.idle_eq]
    constructor
    · rintro ⟨hpins, hlive⟩
      exact ⟨Or.inl hpins, hlive⟩
    rintro ⟨hpins | ⟨earlier, hpinned, hkeeps, huse⟩, hlive⟩
    · exact ⟨hpins, hlive⟩
    -- the event would have reused the entry
    simp only [FlowEvent.use, if_true, some.injEq] at huse
    have hgap : time - earlier < idle := by
      rcases huse with ⟨hbad, -⟩ | ⟨htime, hgap⟩
      · cases hbad
      · rw [htime]
        exact hgap
    obtain ⟨id, rfl, hne⟩ := hnone _ ((h.live_iff d _).mpr ⟨hpinned, hgap⟩)
    exact absurd (hkeeps rfl) hne
  · have huse : FlowEvent.use d (.sent destination flowId time outcome returned) = none := by
      simp [FlowEvent.use, Ne.symm hd]
    have hpins : FlowEvent.pins d (.sent destination flowId time outcome returned) = none := by
      simp [FlowEvent.pins, Ne.symm hd]
    rw [if_neg hd, (h.mono hle).live_iff, pinnedEntry_other huse hpins]
    cases flowId with
    | none => trivial
    | some id => exact fun heq => absurd heq.symm hd

/-- Closing forgets everything. -/
theorem close (hidle : next.idleTimeout = idle) (hnext : ∀ d, next.live now d = none) :
    Agrees idle now (trace ++ [.closed]) next := by
  refine ⟨hidle, fun d route => ?_⟩
  rw [hnext, pinnedEntry_concat]
  constructor
  · intro hsome
    cases hsome
  · rintro ⟨hpins | ⟨earlier, -, hkeeps, -⟩, -⟩
    · cases hpins
    · exact hkeeps.elim

/-- A new table agrees with the empty trace. -/
theorem new (sweepDue : ℕ → ℕ → Bool) (idle opened now : ℕ) :
    Agrees idle now [] (.new sweepDue opened idle) := by
  refine ⟨rfl, fun d route => ⟨fun hsome => ?_, ?_⟩⟩
  · cases hsome
  · rintro ⟨⟨uses, ⟨before, event, pinnedAt, after, htrace, -⟩, -⟩, -⟩
    simp at htrace

end Agrees

/-! ## Identities -/

/-- The entry carries the identity of a datagram, if the datagram carries
one. -/
def Identified (flowId : Option Bytes) (route : DatagramRoute) : Bool :=
  flowId.all fun id => route.flowId == some id

theorem identified_iff {flowId : Option Bytes} {route : DatagramRoute} :
    Identified flowId route = true ↔ ∀ id, flowId = some id → route.flowId = some id := by
  cases flowId <;> simp [Identified]

namespace DatagramRoutes

section

variable (routes : DatagramRoutes) (destination : SocketAddr)

/-- The check of `send_with_flow_id`. -/
def dropOther (flowId : Bytes) (now : ℕ) : DatagramRoutes :=
  if ((routes.expire now).entries destination).any fun route => route.flowId != some flowId then
    (routes.expire now).put destination none
  else routes.expire now

@[simp] theorem dropOther_idleTimeout {routes : DatagramRoutes} {destination : SocketAddr}
    {flowId : Bytes} {now : ℕ} :
    (routes.dropOther destination flowId now).idleTimeout = routes.idleTimeout := by
  unfold dropOther
  split <;> simp

/-- The check keeps the entry that carries the identity. -/
theorem live_dropOther (flowId : Bytes) {now later : ℕ} (h : now ≤ later) (d : SocketAddr) :
    (routes.dropOther destination flowId now).live later d =
      if d = destination then (routes.live later d).filter (Identified (some flowId))
      else routes.live later d := by
  rw [← live_expire routes d h, dropOther]
  by_cases hd : d = destination
  · subst hd
    rw [if_pos rfl]
    cases hentry : (routes.expire now).entries d with
    | none => simp [live, hentry]
    | some route =>
      by_cases hid : route.flowId = some flowId
      · have hsame : ∀ o : Option DatagramRoute, (∀ x, o = some x → x = route) →
            o.filter (Identified (some flowId)) = o := by
          rintro (_ | x) hx
          · rfl
          · rw [hx x rfl]
            simp [Identified, hid]
        rw [if_neg (by simp [hid]), hsame]
        intro x hx
        rw [live, filter_eq_some_iff, hentry] at hx
        exact (some.inj hx.1).symm
      · rw [if_pos (by simp [hid]), live_put, if_pos rfl, live, hentry, filter_some]
        split <;> simp [filter_some, Identified, hid]
  · rw [if_neg hd]
    split
    · rw [live_put, if_neg hd]
    · rfl

/-- The end of `send_with_flow_id`. -/
def tag (flowId : Option Bytes) : DatagramRoutes :=
  match flowId with
  | none => routes
  | some id => routes.put destination ((routes.entries destination).map fun route =>
      { route with flowId := some id })

/-- The same for a flow, if there is one. -/
def tagFlow (flow : Option SocketAddr) (flowId : Option Bytes) : DatagramRoutes :=
  match flow with
  | none => routes
  | some destination => routes.tag destination flowId

@[simp] theorem tag_idleTimeout {routes : DatagramRoutes} {destination : SocketAddr}
    {flowId : Option Bytes} : (routes.tag destination flowId).idleTimeout = routes.idleTimeout := by
  unfold tag
  split <;> rfl

/-- The identity an entry has after the tagging. -/
def tagged (flowId : Option Bytes) (route : DatagramRoute) : DatagramRoute :=
  { route with flowId := flowId.or route.flowId }

theorem map_tagged_filter (now : ℕ) (flowId : Option Bytes) (route : Option DatagramRoute) :
    (route.filter (routes.isLive now)).map (tagged flowId) =
      (route.map (tagged flowId)).filter (routes.isLive now) := by
  cases route with
  | none => rfl
  | some route =>
    have hlive : routes.isLive now (tagged flowId route) = routes.isLive now route := rfl
    rw [map_some, filter_some, filter_some, hlive]
    split <;> rfl

theorem entry_tagged (outcome : Outcome) (flowId : Option Bytes) :
    (outcome.entry none).map (tagged flowId) = outcome.entry flowId := by
  rcases outcome with _ | ⟨action, _ | pinnedAt⟩ | _ <;> simp [Outcome.entry, tagged]

theorem live_tag (flowId : Option Bytes) (now : ℕ) (d : SocketAddr) :
    (routes.tag destination flowId).live now d =
      if d = destination then (routes.live now d).map (tagged flowId) else routes.live now d := by
  unfold tag
  cases flowId with
  | none =>
    have hsame : tagged none = id := by
      funext route
      simp [tagged]
    simp [hsame]
  | some id =>
    rw [live_put]
    by_cases hd : d = destination
    · subst hd
      rw [if_pos rfl, if_pos rfl, live, map_tagged_filter]
      rfl
    · rw [if_neg hd, if_neg hd]

end

end DatagramRoutes

/-- **The table a datagram meets**: that of the trace, without the entry
of another identity. -/
structure Meets (idle now : ℕ) (trace : List FlowEvent) (destination : SocketAddr)
    (flowId : Option Bytes) (routes : DatagramRoutes) : Prop where
  idle_eq : routes.idleTimeout = idle
  live_eq : ∃ base, Agrees idle now trace base ∧ ∀ later, now ≤ later → ∀ d,
    routes.live later d =
      if d = destination then (base.live later d).filter (Identified flowId)
      else base.live later d

section Meets

variable {idle now later : ℕ} {trace : List FlowEvent} {routes : DatagramRoutes}

/-- A datagram without an identity meets the table as it is. -/
theorem Agrees.meets (h : Agrees idle now trace routes) (destination : SocketAddr) :
    Meets idle now trace destination none routes := by
  refine ⟨h.idle_eq, routes, h, fun later _ d => ?_⟩
  have hall : (routes.live later d).filter (Identified none) = routes.live later d := by
    cases routes.live later d <;> simp [filter_some, Identified]
  rw [hall, ite_self]

end Meets

/-! ## The operations, as they act on the table -/

/-- What the table answers about a flow, and the table after it. -/
def DatagramRoutes.answer (routes : DatagramRoutes) (flow : Option SocketAddr) (now : ℕ) :
    Option RuleAction × DatagramRoutes :=
  match flow with
  | none => (none, routes)
  | some destination => routes.action destination now

namespace RoutingDispatcher

variable {r : RoutingDispatcher D} {w : World D} {self other : RoutedDatagramTransport D}

/-- The moment that the clock would show. -/
abbrev moment (w : World D) (self : RoutedDatagramTransport D) : ℕ := w.clock self.outbound.history

/-- The transport after a reading of the clock. -/
def tick (self : RoutedDatagramTransport D) : RoutedDatagramTransport D :=
  { self with outbound := { self.outbound with history := .now :: self.outbound.history } }

/-- The moment at which a rule's action is pinned, for a flow. -/
def pinMoment (w : World D) (flow : Option SocketAddr) : Proc (Outbound D) Stopped (Option ℕ) :=
  match flow with
  | none => pure none
  | some _ => outboundCall (call .now fun history => some (some (w.clock history)))

/-- The decision of `send`, once the table was asked. -/
def outboundDecision (r : RoutingDispatcher D) (w : World D) (flow : Option SocketAddr)
    (datagram : Datagram) (action : Option RuleAction) :
    Proc (Outbound D) Stopped (FlowUse × RouteDecision) :=
  match action with
  | some action => pure (.pinned, ⟨action, datagram.remote, none⟩)
  | none => do
    let decision ← outboundCall (r.route .udp .tun datagram.remote datagram.sniffedDomain)
    let pinnedAt ← pinMoment w flow
    pure (.evaluated pinnedAt, decision)

/-- All of `send` that is not the table's, once the table was asked. -/
def sendOutbound (r : RoutingDispatcher D) (w : World D) (session : DatagramSession)
    (datagram : Datagram) (action : Option RuleAction) : Proc (Outbound D) Stopped Unit := do
  let (_, decision) ← r.outboundDecision w (flowOf session datagram.remote) datagram action
  r.sendDecided w session decision datagram

section

variable (routes : DatagramRoutes)

/-- The table after the decision. -/
def pinDecided (flow : Option SocketAddr)
    (decided : Except Stopped (FlowUse × RouteDecision)) : DatagramRoutes :=
  match flow, decided with
  | some destination, .ok (.evaluated (some pinnedAt), decision) =>
    routes.put destination (some ⟨decision.action, pinnedAt, none⟩)
  | _, _ => routes

theorem pinDecided_idleTimeout (flow : Option SocketAddr)
    (decided : Except Stopped (FlowUse × RouteDecision)) :
    (pinDecided routes flow decided).idleTimeout = routes.idleTimeout := by
  unfold pinDecided
  split <;> rfl

/-- The decision's action is pinned as its outcome says. -/
theorem live_pinDecided (destination : SocketAddr)
    (decided : Except Stopped (FlowUse × RouteDecision)) (now : ℕ) (d : SocketAddr) :
    (pinDecided routes (some destination) decided).live now d =
      match (outcomeOf decided).entry none with
      | some route =>
        if d = destination then (some route).filter (routes.isLive now) else routes.live now d
      | none => routes.live now d := by
  rcases decided with e | ⟨_ | _ | pinnedAt, decision⟩
  · rfl
  · rfl
  · rfl
  · exact live_put routes destination _ now d

end

theorem now_apply : w.now self = (.ok (moment w self), tick self) := rfl

theorem updateFlows_apply (f : DatagramRoutes → DatagramRoutes) :
    updateFlows f self = (.ok (), { self with flows := f self.flows }) := rfl

theorem pinnedAction_apply (flow : Option SocketAddr) (now : ℕ) :
    pinnedAction flow now self =
      (.ok (self.flows.answer flow now).1,
        { self with flows := (self.flows.answer flow now).2 }) := by
  cases flow <;> rfl

variable {datagram : Datagram}

/-- **The decision**: the table is asked, and what it does not answer the
rules answer and the table takes in. -/
theorem sendDecision_eq (htun : self.session.inbound = .tun) :
    r.sendDecision w datagram self =
      let now := moment w self
      let flow := flowOf self.session datagram.remote
      let found := (self.flows.expire now).answer flow now
      let decided := r.outboundDecision w flow datagram found.1 (tick self).outbound
      (decided.1, ⟨self.session, decided.2, pinDecided found.2 flow decided.1⟩) := by
  have hwhen : (self.session.inbound == InboundKind.tun) = true := by simp [htun]
  rw [sendDecision, bind_of_ok now_apply, bind_of_ok (read_apply _ _)]
  simp only [tick, hwhen, when, if_true]
  rw [bind_of_ok (updateFlows_apply _), bind_of_ok (pinnedAction_apply _ _)]
  generalize (self.flows.expire (moment w self)).answer
    (flowOf self.session datagram.remote) (moment w self) = found
  rcases found with ⟨_ | action, routes⟩
  · simp only
    rw [htun]
    rcases hroute : r.route .udp .tun datagram.remote datagram.sniffedDomain
        (.now :: self.outbound.history) with ⟨e | decision, history⟩ <;>
      cases flowOf self.session datagram.remote <;>
        simp only [Proc.bind_apply, outboundDecision, onOutbound, outboundCall, Proc.within,
          hroute, pinDecided] <;> rfl
  · cases flowOf self.session datagram.remote <;> rfl

/-- **A `send`**, half by half. -/
theorem send_eq (htun : self.session.inbound = .tun) :
    r.send w datagram self =
      let now := moment w self
      let flow := flowOf self.session datagram.remote
      let found := (self.flows.expire now).answer flow now
      let decided := r.outboundDecision w flow datagram found.1 (tick self).outbound
      let sent := r.sendOutbound w self.session datagram found.1 (tick self).outbound
      (sent.1, ⟨self.session, sent.2, pinDecided found.2 flow decided.1⟩) := by
  rw [send, Proc.bind_of_ok (Proc.read_apply _ _), Proc.bind_apply, sendDecision_eq htun]
  simp only [sendOutbound, Proc.bind_apply]
  rcases r.outboundDecision w (flowOf self.session datagram.remote) datagram
      ((self.flows.expire (moment w self)).answer
        (flowOf self.session datagram.remote) (moment w self)).1
      (tick self).outbound with ⟨e | ⟨flowUse, decision⟩, out⟩ <;> rfl

/-- The clock is not behind a history that grew. -/
theorem clock_le_of_grown {start history : History D} {n : ℕ} (h : Grown r start n history) :
    w.clock start ≤ w.clock history := by
  obtain ⟨calls, rfl, -⟩ := h
  induction calls with
  | nil => exact le_rfl
  | cons effect rest ih => exact ih.trans (w.clock_mono _ effect)

section Send

variable {idle : ℕ} {trace : List FlowEvent} {datagram : Datagram} {destination : SocketAddr}
  {flowId : Option Bytes}

/-- **The outcome of a send** is the reuse of an action exactly where the
trace has pinned it. -/
theorem sendOutcome_reused_iff (htun : self.session.inbound = .tun)
    (hflow : flowOf self.session datagram.remote = some destination)
    (hmeets : Meets idle (moment w self) trace destination flowId self.flows)
    {action : RuleAction} :
    r.sendOutcome w datagram self = .reused action ↔
      Reuses idle trace destination flowId (moment w self) action := by
  obtain ⟨hidle, routes, hagrees, hlive⟩ := hmeets
  have houtcome : r.sendOutcome w datagram self = .reused action ↔
      (self.flows.live (moment w self) destination).map (·.action) =
        some action := by
    rw [sendOutcome, sendDecision_eq htun, hflow]
    simp only [DatagramRoutes.answer, action_fst]
    rw [live_expire self.flows destination le_rfl]
    cases self.flows.live (moment w self) destination with
    | some route => simp [outboundDecision, outcomeOf]
    | none =>
      rcases hroute : r.route .udp .tun datagram.remote datagram.sniffedDomain
        (tick self).outbound.history with ⟨e | decision, history⟩ <;>
        simp [outboundDecision, Proc.bind_apply, pinMoment, outboundCall, Proc.within, hroute,
          call, outcomeOf]
  rw [houtcome, hlive _ le_rfl, if_pos rfl, reuses_iff, map_eq_some_iff]
  constructor
  · rintro ⟨route, hroute, haction⟩
    obtain ⟨hroute, hid⟩ := filter_eq_some_iff.mp hroute
    obtain ⟨hpinned, hgap⟩ := (hagrees.live_iff destination route).mp hroute
    exact ⟨route, hpinned, hgap, identified_iff.mp hid, haction⟩
  · rintro ⟨route, hpinned, hgap, hid, haction⟩
    have hroute := (hagrees.live_iff destination route).mpr ⟨hpinned, hgap⟩
    exact ⟨route, filter_eq_some_iff.mpr ⟨hroute, identified_iff.mpr hid⟩, haction⟩

/-- **A send keeps the agreement**, once its identity is on the entry, where
it comes to that. -/
theorem agrees_send {later : ℕ} (htun : self.session.inbound = .tun)
    (hflow : flowOf self.session datagram.remote = some destination)
    (hmeets : Meets idle (moment w self) trace destination flowId self.flows)
    (hle : moment w self ≤ later) (returned : Bool) :
    Agrees idle later
      (trace ++ [.sent destination flowId (moment w self)
        (r.sendOutcome w datagram self) returned])
      ((r.send w datagram self).2.flows.tag destination (if returned then flowId else none)) := by
  obtain ⟨hidle, routes, hagrees, hlive⟩ := hmeets
  set written := if returned then flowId else none with hwritten
  rw [sendOutcome, sendDecision_eq htun, send_eq htun, hflow]
  simp only [DatagramRoutes.answer]
  set now := moment w self
  set found := (self.flows.expire now).action destination now with hfound
  have hisLive : self.flows.isLive = routes.isLive :=
    isLive_congr (by rw [hidle, hagrees.idle_eq])
  have hfoundIdle : found.2.idleTimeout = idle := by simp [hfound, hidle]
  have hanswer : found.1 = (self.flows.live now destination).map (·.action) := by
    rw [hfound, action_fst, live_expire self.flows destination le_rfl]
  have htable : ∀ d, found.2.live later d =
      if d = destination then
        ((self.flows.live now destination).map (touch now)).filter
          (routes.isLive later)
      else self.flows.live later d := by
    intro d
    have hswept : (self.flows.expire now).isLive = routes.isLive := by
      rw [isLive_congr expire_idleTimeout, hisLive]
    rw [hfound, live_action destination hle, live_expire _ _ le_rfl, live_expire _ _ hle, hswept]
  have hhere := hlive now le_rfl destination
  rw [if_pos rfl] at hhere
  cases hentry : self.flows.live now destination with
  | some route =>
    -- the entry is live and carries the identity: it is used
    rw [hentry] at hanswer htable hhere
    rw [hanswer, map_some]
    obtain ⟨hroute, hid⟩ := filter_eq_some_iff.mp hhere.symm
    refine hagrees.use destination hle (fun d => if_congr eq_comm rfl rfl) ?_ (fun d => ?_)
      (by simp [outboundDecision, pinDecided, hfoundIdle]) fun d => ?_
    · intro d used hused
      cases flowId with
      | none => trivial
      | some id =>
        intro heq
        have hsame := hused heq.symm
        rw [← heq, hroute] at hsame
        rw [← some.inj hsame]
        exact identified_iff.mp hid id rfl
    · simp [FlowEvent.pins, outboundDecision, outcomeOf, Outcome.entry]
    show (found.2.tag destination written).live later d = _
    rw [live_tag, htable, hlive later hle]
    by_cases hd : d = destination
    · have htagged : tagged written (touch now route) =
          touch now route := by
        cases flowId with
        | none => simp [tagged, hwritten]
        | some id =>
          have hsame := identified_iff.mp hid id rfl
          cases returned <;> simp [tagged, touch, hsame, hwritten]
      rw [if_pos hd, if_pos hd, if_pos hd, hroute, map_some, filter_some]
      split
      · rw [map_some, htagged]
      · rfl
    · simp only [if_neg hd]
  | none =>
    -- no entry serves the datagram: the rules decide, and the table takes their action in
    rw [hentry] at hanswer htable hhere
    refine hagrees.decide hle (fun route hlive' => ?_) ?_ fun d => ?_
    · rw [hlive', filter_some] at hhere
      cases flowId with
      | none => simp [Identified] at hhere
      | some id =>
        refine ⟨id, rfl, fun hsame => ?_⟩
        rw [if_pos (identified_iff.mpr fun id' hid' => by rw [hsame, ← hid'])] at hhere
        cases hhere
    · rw [tag_idleTimeout, pinDecided_idleTimeout, hfoundIdle]
    have hisLive' : found.2.isLive = routes.isLive :=
      isLive_congr (by rw [hfoundIdle, hagrees.idle_eq])
    rw [live_tag, live_pinDecided, htable, hlive later hle, hisLive']
    split_ifs with hd
    · simp only [FlowEvent.pins, if_true, ← hwritten]
      generalize outcomeOf _ = outcome
      rw [← entry_tagged outcome written, ← map_tagged_filter]
      cases outcome.entry none <;> rfl
    · split <;> rfl

end Send

/-- The check of `send_with_flow_id`, on the table. -/
theorem dropOtherFlow_some (destination : SocketAddr) (flowId : Bytes) :
    dropOtherFlow w (some destination) flowId self =
      (.ok (), { tick self with
        flows := self.flows.dropOther destination flowId (moment w self) }) := rfl

/-- What a response leaves of the table. -/
def observed (routes : DatagramRoutes) (now : ℕ) : Destination → DatagramRoutes
  | .ip destination => (routes.expire now).observeResponse destination now
  | .domain _ _ => routes.expire now

theorem receive_ok (htun : self.session.inbound = .tun) :
    receive w (.ok datagram) self =
      (.ok datagram, { tick self with
        flows := observed self.flows (moment w self) datagram.remote }) := by
  have hwhen : (self.session.inbound == InboundKind.tun) = true := by simp [htun]
  rw [receive, bind_of_ok (read_apply _ _), hwhen]
  simp only [Proc.when, if_true, Proc.bind_apply, observeResponse, now_apply, updateFlows_apply]
  cases datagram.remote <;> rfl

/-- Closing transports stops only where the caller does. -/
theorem closeAll_error (w : World D) (transports : List D) (firstError : Option DispatchError)
    (out : Outbound D) (e : Stopped) (h : (closeAll w transports firstError out).1 = .error e) :
    e = .dropped := by
  induction transports generalizing firstError out with
  | nil => cases h
  | cons transport rest ih =>
    rw [closeAll, Proc.bind_apply] at h
    simp only [outboundCall, within, call] at h
    rcases hclose : w.closeDatagram out.history transport with _ | _ | _ <;> rw [hclose] at h
    · exact (Except.error.inj h).symm
    · exact ih _ _ h
    · exact ih _ _ h

/-- Closing empties the table, once every transport has answered. -/
theorem close_flows (w : World D) (self : RoutedDatagramTransport D) :
    (close w self).2.flows =
      match (close w self).1 with
      | .error .dropped => self.flows
      | _ => { self.flows with entries := fun _ => none } := by
  simp only [close, Proc.bind_apply, Proc.read_apply, onOutbound, Proc.within, Proc.update_apply,
    updateFlows_apply]
  have hstopped := closeAll_error w (self.outbound.routeTransports.map (·.2.transport) ++
    self.outbound.directTransport.toList) none self.outbound
  rcases hclose : closeAll w (self.outbound.routeTransports.map (·.2.transport) ++
    self.outbound.directTransport.toList) none self.outbound with ⟨e | _ | e, out⟩
  · rw [hstopped e (by rw [hclose])]
  · rfl
  · rfl

/-! ## Runs -/

/-- The state of an association after a trace. -/
structure Tracks (r : RoutingDispatcher D) (w : World D) (trace : List FlowEvent)
    (transport : RoutedDatagramTransport D) : Prop where
  tun : transport.session.inbound = .tun
  allowed : transport.flows.Allowed r
  agrees : Agrees r.tunConfig.udpTimeout (w.clock transport.outbound.history) trace transport.flows

/-- A new association. -/
theorem tracks_open {session : DatagramSession} (htun : session.inbound = .tun)
    (sweepDue : ℕ → ℕ → Bool) (history : History D) :
    Tracks r w [] (r.openDatagramSweeping w sweepDue session history) :=
  ⟨htun, fun _ hsome => (by cases hsome), .new _ _ _ _⟩

section Step

variable {trace : List FlowEvent} {datagram : Datagram}

theorem Tracks.kept (h : Tracks r w trace self) (operation : Operation) :
    Kept r self.session self.outbound.history 1 (r.perform w operation self).2 :=
  (perform_kept operation).always ⟨⟨rfl, h.allowed⟩, Grown.refl r _⟩

/-- What an operation does to the table agrees with the event it shows. -/
def Shows (r : RoutingDispatcher D) (w : World D) (trace : List FlowEvent) (operation : Operation)
    (self : RoutedDatagramTransport D) : Prop :=
  Agrees r.tunConfig.udpTimeout (w.clock (r.perform w operation self).2.outbound.history)
    (trace ++ (r.flowEvent w operation self).toList) (r.perform w operation self).2.flows

/-- A send to no flow only sweeps. -/
theorem send_flows_of_none (htun : self.session.inbound = .tun)
    (hflow : flowOf self.session datagram.remote = none) :
    (r.send w datagram self).2.flows = self.flows.expire (moment w self) := by
  rw [send_eq htun, hflow]
  rfl

theorem Tracks.shows_send (h : Tracks r w trace self) : Shows r w trace (.send datagram) self := by
  have hle := clock_le_of_grown (w := w) (h.kept (.send datagram)).2
  simp only [Shows, flowEvent, sentEvent]
  cases hflow : flowOf self.session datagram.remote with
  | some destination =>
    have hagrees := agrees_send (r := r) h.tun hflow (h.agrees.meets destination) hle
      (r.send w datagram self).1.isOk
    rwa [ite_self] at hagrees
  | none =>
    rw [perform, send_flows_of_none h.tun hflow, map_none, toList_none,
      append_nil]
    exact (h.agrees.mono hle).expire hle

theorem dropOtherFlow_eq_ok (flowId : Bytes) :
    dropOtherFlow w (flowOf self.session datagram.remote) flowId self =
      (.ok (), afterDrop w datagram flowId self) := by
  unfold afterDrop
  cases flowOf self.session datagram.remote <;> rfl

theorem afterDrop_session (datagram : Datagram) (self : RoutedDatagramTransport D)
    (flowId : Bytes) : (afterDrop w datagram flowId self).session = self.session := by
  unfold afterDrop
  cases flowOf self.session datagram.remote <;> rfl

/-- What a datagram with an identity meets. -/
theorem Tracks.meets_afterDrop {destination : SocketAddr} (h : Tracks r w trace self)
    (hflow : flowOf self.session datagram.remote = some destination) (flowId : Bytes) :
    Meets r.tunConfig.udpTimeout (w.clock (afterDrop w datagram flowId self).outbound.history)
      trace destination (some flowId) (afterDrop w datagram flowId self).flows := by
  have hle := w.clock_mono self.outbound.history .now
  rw [afterDrop, hflow, dropOtherFlow_some]
  refine ⟨?_, self.flows, h.agrees.mono hle, fun t ht d => ?_⟩
  · rw [dropOther_idleTimeout, h.agrees.idle_eq]
  · exact live_dropOther _ destination flowId (hle.trans ht) d

/-- **`send_with_flow_id`** sends after its check, and leaves its identity
on the entry if that send returned. -/
theorem sendWithFlowId_eq {flowId : Bytes} (h : ¬ (flowId.isEmpty || 25 < flowId.length)) :
    r.sendWithFlowId w datagram flowId self =
      let sent := r.send w datagram (afterDrop w datagram flowId self)
      (sent.1, { sent.2 with
        flows := sent.2.flows.tagFlow (flowOf self.session datagram.remote)
          (if sent.1.isOk then some flowId else none) }) := by
  rw [sendWithFlowId, if_neg h, Proc.bind_of_ok (Proc.read_apply _ _),
    Proc.bind_of_ok (dropOtherFlow_eq_ok flowId), Proc.bind_apply]
  rcases r.send w datagram (afterDrop w datagram flowId self) with ⟨e | _, sent⟩ <;>
    cases flowOf self.session datagram.remote <;> rfl

section

variable (h : Tracks r w trace self)

include h

theorem Tracks.shows_sendWithFlowId {flowId : Bytes} :
    Shows r w trace (.sendWithFlowId datagram flowId) self := by
  unfold Shows
  by_cases hlength : flowId.isEmpty || 25 < flowId.length
  · simp only [perform, sendWithFlowId, flowEvent, if_pos hlength, Proc.fail_apply,
      toList_none, append_nil]
    exact h.agrees
  have hsession := afterDrop_session (w := w) datagram self flowId
  have htun : (afterDrop w datagram flowId self).session.inbound = .tun := by
    rw [hsession, h.tun]
  have hdropped :
      Kept r self.session self.outbound.history 0 (afterDrop w datagram flowId self) :=
    ((dropOtherFlow_kept _ flowId self ⟨⟨rfl, h.allowed⟩, Grown.refl r _⟩).1 ()
      (by rw [dropOtherFlow_eq_ok]))
  have hsent : Kept r _ (afterDrop w datagram flowId self).outbound.history 1 _ :=
    (send_kept (w := w) datagram).always ⟨⟨rfl, hdropped.1.2⟩, Grown.refl r _⟩
  have hle := clock_le_of_grown (w := w) hsent.2
  have hle' := (clock_le_of_grown (w := w) hdropped.2).trans hle
  simp only [perform, sendWithFlowId_eq hlength, flowEvent, if_neg hlength, sentEvent, hsession]
  cases hflow : flowOf self.session datagram.remote with
  | some destination =>
    exact agrees_send htun (by rw [hsession, hflow]) (h.meets_afterDrop hflow flowId) hle _
  | none =>
    have hsame : afterDrop w datagram flowId self = self := by
      rw [afterDrop, hflow]
      rfl
    simp only [map_none, toList_none, append_nil, hsame] at hle' ⊢
    rw [send_flows_of_none h.tun hflow]
    exact (h.agrees.mono hle').expire hle'

theorem Tracks.shows_receive {answer : Except DispatchError Datagram} :
    Shows r w trace (.receive answer) self := by
  unfold Shows
  cases answer with
  | error e =>
    rw [flowEvent, toList_none, append_nil]
    exact h.agrees
  | ok datagram =>
    have hle := w.clock_mono self.outbound.history .now
    simp only [perform, Proc.bind_apply, receive_ok h.tun, Proc.pure_apply, tick]
    cases hremote : datagram.remote with
    | domain host port =>
      have hevent : r.flowEvent w (.receive (.ok datagram)) self = none := by
        simp [flowEvent, flowOf, h.tun, hremote]
      rw [hevent, toList_none, append_nil]
      exact (h.agrees.mono hle).expire hle
    | ip destination =>
      have hevent : r.flowEvent w (.receive (.ok datagram)) self =
          some (.observed destination (moment w self)) := by
        simp [flowEvent, flowOf, h.tun, hremote]
      rw [hevent, toList_some]
      refine (h.agrees.expire le_rfl).use destination hle (fun d => if_congr eq_comm rfl rfl)
        (fun _ _ _ => trivial) (fun _ => rfl) ?_ fun d => ?_
      · simp [observed, observeResponse_eq, h.agrees.idle_eq]
      · simp only [observed, observeResponse_eq]
        exact live_action destination hle d

theorem Tracks.shows_close : Shows r w trace .close self := by
  have hle := clock_le_of_grown (w := w) (h.kept .close).2
  rw [Shows, perform, close_flows, flowEvent]
  split
  · rw [toList_none, append_nil]
    exact h.agrees.mono hle
  · exact .close h.agrees.idle_eq fun d => rfl

/-- **Every operation keeps the trace**, whether it returns or not. -/
theorem Tracks.step (operation : Operation) :
    Tracks r w (trace ++ (r.flowEvent w operation self).toList)
      (r.perform w operation self).2 := by
  have hkept := h.kept operation
  refine ⟨by rw [hkept.1.1, h.tun], hkept.1.2, ?_⟩
  cases operation with
  | send datagram => exact h.shows_send
  | sendWithFlowId datagram flowId => exact h.shows_sendWithFlowId
  | receive answer => exact h.shows_receive
  | close => exact h.shows_close

/-- **The outcome of every send** is as the trace before it says. -/
theorem Tracks.outcome {operation : Operation}
    {destination : SocketAddr} {flowId : Option Bytes} {time : ℕ} {outcome : Outcome}
    {returned : Bool}
    (hevent : r.flowEvent w operation self = some (.sent destination flowId time outcome returned))
    (action : RuleAction) :
    outcome = .reused action ↔
      Reuses r.tunConfig.udpTimeout trace destination flowId time action := by
  cases operation with
  | send datagram =>
    obtain ⟨d, hflow, hsent⟩ := map_eq_some_iff.mp hevent
    cases hsent
    exact sendOutcome_reused_iff h.tun hflow (h.agrees.meets destination)
  | sendWithFlowId datagram id =>
    rw [flowEvent] at hevent
    split_ifs at hevent
    obtain ⟨d, hflow, hsent⟩ := map_eq_some_iff.mp hevent
    cases hsent
    have hsession := afterDrop_session (w := w) datagram self id
    have htun : (afterDrop w datagram id self).session.inbound = .tun := by rw [hsession, h.tun]
    exact sendOutcome_reused_iff htun hflow (h.meets_afterDrop (by rw [← hflow, hsession]) id)
  | receive answer =>
    cases answer with
    | error e => cases hevent
    | ok datagram => simp [flowEvent] at hevent
  | close =>
    rw [flowEvent] at hevent
    split at hevent <;> cases hevent

end

end Step

/-! ## The sweep does not show -/

/-- Two transports that nobody can tell apart: they differ in entries that
are no longer live, and in when they sweep them. -/
structure Alike (w : World D) (transport other : RoutedDatagramTransport D) : Prop where
  session_eq : transport.session = other.session
  outbound_eq : transport.outbound = other.outbound
  live_eq : ∀ now, w.clock transport.outbound.history ≤ now → ∀ destination,
    transport.flows.live now destination = other.flows.live now destination

theorem Tracks.alike {trace : List FlowEvent} (h : Tracks r w trace self)
    (h' : Tracks r w trace other) (hsession : self.session = other.session)
    (houtbound : self.outbound = other.outbound) : Alike w self other := by
  refine ⟨hsession, houtbound, fun now hle destination => ?_⟩
  have hother := h'.agrees
  rw [← houtbound] at hother
  refine ext fun route => ?_
  rw [(h.agrees.mono hle).live_iff, (hother.mono hle).live_iff]

section Alike

theorem answer_fst (routes : DatagramRoutes) (flow : Option SocketAddr) (now : ℕ) :
    ((routes.expire now).answer flow now).1 =
      flow.bind fun destination => (routes.live now destination).map (·.action) := by
  cases flow with
  | none => rfl
  | some destination =>
    simp only [DatagramRoutes.answer, action_fst, bind_some]
    rw [live_expire routes destination le_rfl]

/-- Alike transports send alike. -/
theorem Alike.send (h : Alike w self other) (htun : self.session.inbound = .tun)
    (datagram : Datagram) :
    (r.send w datagram self).1 = (r.send w datagram other).1 ∧
      (r.send w datagram self).2.outbound = (r.send w datagram other).2.outbound ∧
      r.sendOutcome w datagram self = r.sendOutcome w datagram other := by
  have htun' : other.session.inbound = .tun := by rw [← h.session_eq, htun]
  have hanswer : ∀ flow,
      ((self.flows.expire (moment w self)).answer flow
        (moment w self)).1 =
      ((other.flows.expire (moment w self)).answer flow
        (moment w self)).1 := by
    intro flow
    simp only [answer_fst, h.live_eq _ le_rfl]
  rw [sendOutcome, sendOutcome, sendDecision_eq htun, sendDecision_eq htun', send_eq htun,
    send_eq htun']
  simp only [tick, moment, ← h.session_eq, ← h.outbound_eq] at hanswer ⊢
  simp only [hanswer, and_self]

/-- The check leaves alike transports alike. -/
theorem Alike.afterDrop (h : Alike w self other) (datagram : Datagram) (flowId : Bytes) :
    Alike w (afterDrop w datagram flowId self) (afterDrop w datagram flowId other) := by
  unfold RoutingDispatcher.afterDrop
  rw [← h.session_eq]
  cases flowOf self.session datagram.remote with
  | none => exact h
  | some destination =>
    rw [dropOtherFlow_some, dropOtherFlow_some]
    refine ⟨h.session_eq, ?_, fun now hle d => ?_⟩
    · simp only [tick, h.outbound_eq]
    · have hle' := (w.clock_mono self.outbound.history .now).trans hle
      have hother : w.clock other.outbound.history ≤ now := by rw [← h.outbound_eq]; exact hle'
      simp only
      rw [live_dropOther _ _ _ hle', live_dropOther _ _ _ hother,
        h.live_eq now hle']

/-- Closing does not look at the table. -/
theorem close_outbound (h : self.outbound = other.outbound) :
    (close w self).1 = (close w other).1 ∧
      (close w self).2.outbound = (close w other).2.outbound := by
  simp only [close, Proc.bind_apply, Proc.read_apply, onOutbound, Proc.within, Proc.update_apply,
    updateFlows_apply, ← h]
  rcases closeAll w (self.outbound.routeTransports.map (·.2.transport) ++
    self.outbound.directTransport.toList) none self.outbound with ⟨e | _ | e, out⟩ <;>
    exact ⟨rfl, rfl⟩

/-- **Alike transports act alike**: the same answer, the same calls and the
same event. -/
theorem Alike.perform (h : Alike w self other) (htun : self.session.inbound = .tun)
    (operation : Operation) :
    (r.perform w operation self).1 = (r.perform w operation other).1 ∧
      (r.perform w operation self).2.outbound = (r.perform w operation other).2.outbound ∧
      r.flowEvent w operation self = r.flowEvent w operation other := by
  have htun' : other.session.inbound = .tun := by rw [← h.session_eq, htun]
  cases operation with
  | send datagram =>
    obtain ⟨hresult, houtbound, houtcome⟩ := h.send (r := r) htun datagram
    refine ⟨hresult, houtbound, ?_⟩
    simp only [flowEvent, sentEvent, houtcome, hresult, h.session_eq, h.outbound_eq]
  | sendWithFlowId datagram flowId =>
    by_cases hlength : flowId.isEmpty || 25 < flowId.length
    · simp only [RoutingDispatcher.perform, sendWithFlowId, flowEvent, if_pos hlength,
        Proc.fail_apply, h.outbound_eq, and_self]
    have hafter := h.afterDrop datagram flowId
    have hsession := afterDrop_session (w := w) datagram self flowId
    obtain ⟨hresult, houtbound, houtcome⟩ :=
      hafter.send (r := r) (by rw [hsession, htun]) datagram
    simp only [RoutingDispatcher.perform, sendWithFlowId_eq hlength, flowEvent, if_neg hlength,
      sentEvent, houtcome, hresult, houtbound, hafter.session_eq, hafter.outbound_eq, and_self]
  | receive answer =>
    cases answer with
    | error e => exact ⟨rfl, h.outbound_eq, rfl⟩
    | ok datagram =>
      simp only [RoutingDispatcher.perform, Proc.bind_apply, receive_ok htun, receive_ok htun',
        Proc.pure_apply, flowEvent, tick, h.session_eq, h.outbound_eq, and_self]
  | close =>
    obtain ⟨hresult, houtbound⟩ := close_outbound (w := w) h.outbound_eq
    exact ⟨hresult, houtbound, by rw [flowEvent, flowEvent, hresult]⟩

end Alike

/-! ## Main results -/

/-- **The sends of a run** reuse an action exactly where the run before
them has pinned it. -/
theorem trace_outcome (operations : List Operation) {before : List FlowEvent}
    (h : Tracks r w before self) {front after : List FlowEvent} {destination : SocketAddr}
    {flowId : Option Bytes} {time : ℕ} {outcome : Outcome} {returned : Bool}
    (htrace : r.trace w operations self =
      front ++ .sent destination flowId time outcome returned :: after) (action : RuleAction) :
    outcome = .reused action ↔
      Reuses r.tunConfig.udpTimeout (before ++ front) destination flowId time action := by
  induction operations generalizing self before front with
  | nil => simp [trace] at htrace
  | cons operation rest ih =>
    have hstep := h.step operation
    rw [trace] at htrace
    cases hevent : r.flowEvent w operation self with
    | none =>
      rw [hevent, toList_none] at htrace hstep
      rw [append_nil] at hstep
      exact ih hstep htrace
    | some event =>
      rw [hevent, toList_some] at htrace hstep
      cases front with
      | nil =>
        obtain ⟨rfl, -⟩ := List.cons.inj htrace
        rw [append_nil]
        exact h.outcome hevent action
      | cons first front =>
        obtain ⟨rfl, htail⟩ := List.cons.inj htrace
        have hfront := ih hstep htail
        rwa [append_assoc] at hfront

/-- **Tables that agree with one trace** give the same run. -/
theorem trace_eq (operations : List Operation) {before : List FlowEvent}
    (h : Tracks r w before self) (h' : Tracks r w before other)
    (hsession : self.session = other.session) (houtbound : self.outbound = other.outbound) :
    r.trace w operations self = r.trace w operations other := by
  induction operations generalizing self other before with
  | nil => rfl
  | cons operation rest ih =>
    obtain ⟨-, hout, hevent⟩ :=
      (h.alike h' hsession houtbound).perform (r := r) h.tun operation
    have hstep' := h'.step operation
    rw [← hevent] at hstep'
    rw [trace, trace, hevent]
    congr 1
    refine ih (h.step operation) hstep' ?_ hout
    rw [(h.kept operation).1.1, (h'.kept operation).1.1, hsession]

/-- **Pinning is exact, and the sweep does not show.** In every run of a TUN
association, a datagram reuses an action exactly where the run before it
has pinned it and every gap between uses is below the timeout; otherwise
the rules are evaluated. And whenever the sweep is started, or if it never
is, the run shows the same. -/
theorem pinned_routes_exact (r : RoutingDispatcher D) (w : World D) (session : DatagramSession)
    (htun : session.inbound = .tun) (history : History D) (operations : List Operation) :
    (∀ before destination flowId time outcome returned after,
      r.trace w operations (r.openDatagram w session history) =
          before ++ .sent destination flowId time outcome returned :: after →
        ∀ action, outcome = .reused action ↔
          Reuses r.tunConfig.udpTimeout before destination flowId time action) ∧
    ∀ sweepDue, r.trace w operations (r.openDatagramSweeping w sweepDue session history) =
      r.trace w operations (r.openDatagram w session history) := by
  refine ⟨fun before destination flowId time outcome returned after htrace action => ?_,
    fun sweepDue => ?_⟩
  · have hexact := trace_outcome operations (tracks_open htun cleanupDue history) htrace action
    rwa [nil_append] at hexact
  · exact trace_eq operations (tracks_open htun sweepDue history)
      (tracks_open htun cleanupDue history) rfl rfl

/-- A TUN association. -/
def sampleAssociation : DatagramSession := ⟨.tun, ⟨.v4 0x0A000001, 40000⟩⟩

/-- A datagram of that association. -/
def sampleDatagram : Datagram := ⟨.ip ⟨.v4 0x0A000002, 53⟩, [], none⟩

theorem pinned_routes_exact_second :
    sampleRouter.trace sampleWorld [.send sampleDatagram, .send sampleDatagram]
        (sampleRouter.openDatagram sampleWorld sampleAssociation []) =
      [.sent ⟨.v4 0x0A000002, 53⟩ none 1 (.evaluated .direct (some 2)) true,
        .sent ⟨.v4 0x0A000002, 53⟩ none 5 (.reused .direct) true] ∧
    Reuses 300 [.sent ⟨.v4 0x0A000002, 53⟩ none 1 (.evaluated .direct (some 2)) true]
      ⟨.v4 0x0A000002, 53⟩ none 5 .direct :=
  ⟨by decide, ((pinned_routes_exact sampleRouter sampleWorld sampleAssociation rfl []
    [.send sampleDatagram, .send sampleDatagram]).1 [_] _ _ _ _ true [] (by decide) .direct).mp
      rfl⟩

end RoutingDispatcher

end Vole.Routing
