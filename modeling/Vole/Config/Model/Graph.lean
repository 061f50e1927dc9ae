import Vole.Common.Kahn
import Vole.Routing.Model.Rules

/-!
# The proxy graph

`proxy_graph_order` validates the whole node and member graph, unselected
members included, and returns a dependency-first construction order. The
nodes are indices: the proxies first, the groups after them. Of a
`ProxyConfig` the function reads the dialer alone.
-/

namespace Vole

/-- `config::ProxyConfig`, as the graph reads it. -/
structure ProxyConfig where
  dialerProxy : Option RouteTargetId
  deriving DecidableEq, Repr

/-- `config::ProxyGroupMemberTarget`. -/
inductive ProxyGroupMemberTarget where
  | route (target : RouteTargetId)
  | direct
  | reject
  deriving DecidableEq, Repr

/-- `config::ProxyGroupMemberConfig`. -/
structure ProxyGroupMemberConfig where
  name : Bytes
  target : ProxyGroupMemberTarget
  deriving DecidableEq, Repr

/-- `config::SelectProxyGroupConfig`. -/
structure SelectProxyGroupConfig where
  name : Bytes
  members : List ProxyGroupMemberConfig
  initialMember : ℕ
  deriving DecidableEq, Repr

namespace Config

/-- What `proxy_graph_order` can end in besides an order. The last two
are no result of the source: a subtraction below zero and a loop that
does not end. -/
inductive GraphError where
  | invalidConfig (message : String)
  | underflow
  | unfinished
  deriving DecidableEq, Repr

variable (proxies : List ProxyConfig) (groups : List SelectProxyGroupConfig)

/-- The closure `index_of`. -/
def indexOf : RouteTargetId → Option ℕ
  | .proxy id => if id < proxies.length then some id else none
  | .group id => if id < groups.length then some (proxies.length + id) else none

/-- The target an index is pushed as. -/
def targetOf (index : ℕ) : RouteTargetId :=
  if index < proxies.length then .proxy index else .group (index - proxies.length)

/-- The closure `add_dependency`. -/
def addDependency (tables : (ℕ → ℕ) × (ℕ → List ℕ)) (edge : ℕ × RouteTargetId) :
    Except GraphError ((ℕ → ℕ) × (ℕ → List ℕ)) :=
  match indexOf proxies groups edge.2 with
  | some index => .ok (Kahn.addEdge tables.1 tables.2 edge.1 index)
  | none => .error (.invalidConfig "proxy graph references an unknown node or group")

/-- The dependency a group's member adds. -/
def memberEdge (groupIndex : ℕ) (member : ProxyGroupMemberConfig) : Option (ℕ × RouteTargetId) :=
  match member.target with
  | .route target => some (proxies.length + groupIndex, target)
  | _ => none

/-- The calls of `add_dependency`, in order: the dialer of each proxy,
then the members of each group. -/
def dependencyCalls : List (ℕ × RouteTargetId) :=
  (proxies.zipIdx.filterMap fun (proxy, index) => proxy.dialerProxy.map (index, ·)) ++
    groups.zipIdx.flatMap fun (group, groupIndex) =>
      group.members.filterMap (memberEdge proxies groupIndex)

/-- `config::proxy_graph_order`. -/
def proxyGraphOrder : Except GraphError (List RouteTargetId) :=
  let count := proxies.length + groups.length
  match (dependencyCalls proxies groups).foldlM (addDependency proxies groups)
      (fun _ => 0, fun _ => []) with
  | .error e => .error e
  | .ok (dependencyCounts, dependents) =>
    let ready := (List.range count).filter fun index => dependencyCounts index = 0
    match Kahn.run dependents count dependencyCounts ready [] with
    | .error .underflow => .error .underflow
    | .error .unfinished => .error .unfinished
    | .ok order =>
      if order.length ≠ count then
        .error (.invalidConfig
          "proxy graph contains a circular dialer-proxy or circular member dependency")
      else .ok (order.map (targetOf proxies))

/-! ## The graph the order is about -/

/-- A target that names a configured proxy or group. -/
def InRange : RouteTargetId → Prop
  | .proxy id => id < proxies.length
  | .group id => id < groups.length

/-- `source` dials through `target`, or has it as a member. -/
def DependsOn (source target : RouteTargetId) : Prop :=
  match source with
  | .proxy id => ∃ proxy, proxies[id]? = some proxy ∧ proxy.dialerProxy = some target
  | .group id => ∃ group, groups[id]? = some group ∧ ∃ member ∈ group.members,
      member.target = .route target

/-- Every proxy and every group. -/
def allTargets : List RouteTargetId :=
  (List.range proxies.length).map .proxy ++ (List.range groups.length).map .group

end Config

end Vole
