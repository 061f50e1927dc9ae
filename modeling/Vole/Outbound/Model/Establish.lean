import Vole.Common.Runs
import Vole.Common.Table
import Vole.Routing.Model.Groups

/-!
# Establishing an outbound

A logical outbound setup passes one context through its whole dialer chain.
Where a node of the chain dials through a select group, the context reads
the selection of the group once and keeps it.

`runtime::build_proxy_graph` makes one `SelectUpstream` for each group, with
the atomic the groups select in, and one connector for each proxy; so a
group and a connector are their indices here, and so is the address of an
atomic, which the context keys its selections by. A connector that is asked
for a stream or a datagram socket resolves its own upstream path any number
of times, or not at all where it has a session to reuse.
-/

namespace Vole.Outbound

open Routing ProxyGroups

variable {D : Type*}

/-- `connector::EstablishContext`, without its deadline and its resolver.
`root` is the context that the continuations go back to, and no function
reads it. -/
structure EstablishContext where
  selections : Table ℕ ℕ
  root : ℕ
  deriving DecidableEq

/-- `EstablishContext::selected_member`, where the group has selected
`current`. The mutex of the map is held throughout. -/
def EstablishContext.selectedMember (self : EstablishContext) (group current : ℕ) :
    ℕ × EstablishContext :=
  match self.selections.lookup group with
  | some member => (member, self)
  | none => (current, { self with selections := self.selections.insert group current })

/-- Where a call of `SelectUpstream::resolve` is: at a group, or at its
result. -/
inductive Position where
  | group (id : ℕ)
  | done (result : Except DispatchError Leaf)

/-- A call of `SelectUpstream::resolve` for the upstream path of a proxy.
`asked` are the groups it asked so far, and no function reads them. -/
structure Resolution where
  context : ℕ
  proxy : ℕ
  position : Position
  asked : List ℕ

/-- `connector::ResolvedUpstream`. -/
inductive ResolvedUpstream where
  | direct
  | proxy (id : ℕ)
  deriving DecidableEq, Repr

/-- The arm of `UpstreamPath::resolve` for a group. `prepared` is whether the
node has an endpoint. -/
def resolvedUpstream (prepared : Bool) : Leaf → Except DispatchError ResolvedUpstream
  | .proxy id => .ok (.proxy id)
  | .direct =>
    if prepared then .ok .direct else .error (.other "DIRECT upstream has no prepared endpoint")
  | .reject => .error .notAllowed

/-- Everything that is being established: the selections of the groups, the
contexts, the connectors that were called with a context, and the calls of
`resolve`. -/
structure Establishing (g : ProxyGroups D) where
  selected : g.Selections
  contexts : List EstablishContext
  active : List (ℕ × ℕ)
  resolutions : List Resolution

/-- What can happen next. -/
inductive EstablishEvent where
  | select (group member : Bytes)
  /-- `ConnectorDispatcher` calls its connector with a new context. -/
  | establish (proxy : ℕ)
  /-- `EstablishContext::authenticated_continuation`, for the connector that
  opens another path. -/
  | continuation (context proxy : ℕ)
  /-- The start of `UpstreamPath::resolve`. -/
  | resolve (context proxy : ℕ)
  /-- A turn of the loop of `SelectUpstream::resolve`. -/
  | hop (resolution : ℕ)
  deriving DecidableEq, Repr

namespace Establishing

variable {g : ProxyGroups D} (self : Establishing g)

/-- The start. -/
def init (g : ProxyGroups D) : Establishing g where
  selected := g.initialSelections
  contexts := []
  active := []
  resolutions := []

/-- A new context, which a connector is called with. -/
def launch (context : EstablishContext) (proxy : ℕ) : Establishing g :=
  { self with
    contexts := self.contexts ++ [context]
    active := self.active ++ [(self.contexts.length, proxy)] }

/-- A connector is called with a context. -/
def call (context proxy : ℕ) : Establishing g :=
  { self with active := self.active ++ [(context, proxy)] }

/-- What `group.members.get(selected)` comes to. -/
def arrive (members : List ProxyGroupMemberConfig) (selected : ℕ) : Position :=
  match members[selected]? with
  | none => .done (.error (.other "invalid upstream group selection"))
  | some member =>
    match member.target with
    | .route (.group next) => .group next
    | .route (.proxy id) => .done (.ok (.proxy id))
    | .direct => .done (.ok .direct)
    | .reject => .done (.ok .reject)

/-- The connector that a resolution leads to is called next. -/
def follow (context : ℕ) (prepared : Bool) : Position → Establishing g
  | .done (.ok leaf) =>
    match resolvedUpstream prepared leaf with
    | .ok (.proxy id) => self.call context id
    | _ => self
  | _ => self

/-- A turn of the loop of `SelectUpstream::resolve`, at this group. -/
def turn (prepared : ℕ → Bool) (index : ℕ) (resolution : Resolution)
    (context : EstablishContext) (id : Fin g.groups.length) : Establishing g :=
  let (selected, context) := context.selectedMember id (self.selected id)
  let position := arrive (g.groups.get id).members selected
  let self := { self with
    contexts := self.contexts.set resolution.context context
    resolutions := self.resolutions.set index
      { resolution with position, asked := resolution.asked ++ [id.val] } }
  self.follow resolution.context (prepared resolution.proxy) position

/-- **A step.** -/
def step (proxies : List ProxyConfig) (prepared : ℕ → Bool) :
    EstablishEvent → Option (Establishing g)
  | .select group member =>
    some { self with selected := (g.select self.selected group member).2 }
  | .establish proxy =>
    some (self.launch { selections := ∅, root := self.contexts.length } proxy)
  | .continuation context proxy =>
    if (context, proxy) ∈ self.active then
      -- the map is copied
      self.contexts[context]?.map fun found => self.launch found proxy
    else none
  | .resolve context proxy =>
    if (context, proxy) ∈ self.active then
      proxies[proxy]?.map fun config =>
        match config.dialerProxy with
        | none => self
        | some (.proxy id) => self.call context id
        | some (.group id) =>
          { self with
            resolutions := self.resolutions ++
              [{ context, proxy, position := .group id, asked := [] }] }
    else none
  | .hop index =>
    match self.resolutions[index]? with
    | none => none
    | some resolution =>
      match resolution.position with
      | .done _ => none
      | .group id =>
        if h : id < g.groups.length then
          self.contexts[resolution.context]?.map fun context =>
            self.turn prepared index resolution context ⟨id, h⟩
        else none

end Establishing

end Vole.Outbound
