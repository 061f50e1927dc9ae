import Vole.Config.Model.Graph

/-!
# Select groups

The group graph is immutable; each group has one member index of its own,
which `select` replaces atomically. The indices are therefore the state,
and the rest of `ProxyGroups` is a parameter. A traversal loads one index
a hop, and another thread may call `select` between two of its loads:
`resolveHops` takes the calls that do as a schedule. The dispatchers are
values of an arbitrary type, since the groups only hand them out.
-/

namespace Vole

/-- `dispatch::DispatchError`. -/
inductive DispatchError where
  | notAllowed
  | networkUnreachable
  | hostUnreachable
  | connectionRefused
  | timedOut
  | other (message : String)
  deriving DecidableEq, Repr

namespace Routing

/-- `proxy_group::ProxyGroupState`. -/
structure ProxyGroupState where
  name : Bytes
  all : List Bytes
  now : Bytes
  deriving DecidableEq, Repr

/-- `proxy_group::ProxyGroupError`. -/
inductive ProxyGroupError where
  | unknownGroup
  | unknownMember
  deriving DecidableEq, Repr

/-- `proxy_group::ResolvedProxyGroupLeaf`. -/
structure ResolvedProxyGroupLeaf (D : Type*) where
  dispatcher : D
  direct : Bool
  deriving DecidableEq, Repr

/-- `proxy_group::ProxyGroups`. A `SelectProxyGroup` keeps the name and
the members of its configuration; its index is state. The table of names
holds indices of groups and no others. -/
structure ProxyGroups (D : Type*) where
  proxies : List D
  direct : D
  reject : D
  groups : List SelectProxyGroupConfig
  idsByName : List (Bytes × Fin groups.length)

variable {D : Type*}

/-! ## Construction -/

/-- The member loop of `with_selections`. -/
def checkMembers (proxyCount groupCount index : ℕ) :
    List ProxyGroupMemberConfig → Except DispatchError Unit
  | [] => .ok ()
  | member :: rest =>
    match member.target with
    | .route (.proxy id) =>
      if proxyCount ≤ id then
        .error (.other ("proxy group " ++ toString index ++ " references unknown proxy id " ++
          toString id))
      else checkMembers proxyCount groupCount index rest
    | .route (.group id) =>
      if groupCount ≤ id then
        .error (.other ("proxy group " ++ toString index ++ " references unknown group id " ++
          toString id))
      else checkMembers proxyCount groupCount index rest
    | _ => checkMembers proxyCount groupCount index rest

/-- One turn of the group loop: the group's checks, and its name into the
table. -/
def insertGroup (configs : List SelectProxyGroupConfig) (proxyCount : ℕ)
    (ids : List (Bytes × Fin configs.length)) (index : Fin configs.length) :
    Except DispatchError (List (Bytes × Fin configs.length)) :=
  let config := configs.get index
  if config.members.isEmpty ∨ config.members.length ≤ config.initialMember then
    .error (.other ("proxy group " ++ toString index.val ++
      " has invalid members or initial selection"))
  else if (ids.lookup config.name).isSome then
    .error (.other ("duplicate proxy group at index " ++ toString index.val))
  else
    match checkMembers proxyCount configs.length index config.members with
    | .error e => .error e
    | .ok () => .ok ((config.name, index) :: ids)

/-- `ProxyGroups::with_selections`. -/
def ProxyGroups.withSelections (configs : List SelectProxyGroupConfig) (proxies : List D)
    (direct reject : D) (selections : List ℕ) : Except DispatchError (ProxyGroups D) :=
  if selections.length ≠ configs.length then
    .error (.other "proxy group selection registry length mismatch")
  else
    match (List.finRange configs.length).foldlM (insertGroup configs proxies.length) [] with
    | .error e => .error e
    | .ok idsByName => .ok ⟨proxies, direct, reject, configs, idsByName⟩

namespace ProxyGroups

variable (g : ProxyGroups D)

/-- The indices, one atomic a group. -/
abbrev Selections := Fin g.groups.length → ℕ

/-- The registry `runtime::build_proxy_graph` creates: every group at its
`initial_member`. -/
def initialSelections : g.Selections := fun id => (g.groups.get id).initialMember

/-! ## State and selection -/

section

variable (sel : g.Selections)

/-- `SelectProxyGroup::state`. The source indexes the members, so there
is no answer on an index out of range: that is a panic. -/
def stateAt (id : Fin g.groups.length) : Option ProxyGroupState :=
  let group := g.groups.get id
  group.members[sel id]?.map fun member =>
    ⟨group.name, group.members.map (·.name), member.name⟩

/-- `ProxyGroups::select`: the outcome, and the indices after it. -/
def select (group member : Bytes) : Except ProxyGroupError Unit × g.Selections :=
  match g.idsByName.lookup group with
  | none => (.error .unknownGroup, sel)
  | some id =>
    match (g.groups.get id).members.findIdx? fun candidate => candidate.name == member with
    | none => (.error .unknownMember, sel)
    | some selected => (.ok (), Function.update sel id selected)

/-- A run of `select` calls, whatever each of them answers. -/
def selectAll (calls : List (Bytes × Bytes)) : g.Selections :=
  calls.foldl (fun sel call => (g.select sel call.1 call.2).2) sel

end

/-! ## Resolution -/

/-- The loop of `resolve_leaf`, with the turns it has left. The head of
the schedule is what other threads select before this turn's load. -/
def resolveHops : ℕ → List (List (Bytes × Bytes)) → g.Selections → ℕ →
      Except DispatchError (ResolvedProxyGroupLeaf D)
  | 0, _, _, _ => .error (.other "proxy group nesting exceeded the runtime hop ceiling")
  | hops + 1, schedule, sel, groupId =>
    let sel := g.selectAll sel (schedule.headD [])
    if h : groupId < g.groups.length then
      let group := g.groups.get ⟨groupId, h⟩
      let selected := sel ⟨groupId, h⟩
      match group.members[selected]? with
      | none => .error (.other ("proxy group " ++ toString groupId ++
          " has invalid selected index " ++ toString selected))
      | some member =>
        match member.target with
        | .route (.proxy id) =>
          match g.proxies[id]? with
          | some dispatcher => .ok ⟨dispatcher, false⟩
          | none => .error (.other ("unknown proxy id " ++ toString id))
        | .route (.group id) => resolveHops hops schedule.tail sel id
        | .direct => .ok ⟨g.direct, true⟩
        | .reject => .ok ⟨g.reject, false⟩
    else .error (.other ("unknown proxy group id " ++ toString groupId))

/-- `ProxyGroups::resolve_leaf`, among the `select` calls of a schedule. -/
def resolveLeafAmong (schedule : List (List (Bytes × Bytes))) (sel : g.Selections)
    (groupId : ℕ) : Except DispatchError (ResolvedProxyGroupLeaf D) :=
  g.resolveHops (g.groups.length + 1) schedule sel groupId

/-- `ProxyGroups::resolve_leaf`, with no other thread selecting. -/
def resolveLeaf (sel : g.Selections) (groupId : ℕ) :
    Except DispatchError (ResolvedProxyGroupLeaf D) :=
  g.resolveLeafAmong [] sel groupId

/-! ## What a traversal is for -/

/-- The ends of a traversal. -/
inductive Leaf where
  | proxy (id : ℕ)
  | direct
  | reject
  deriving DecidableEq, Repr

/-- The dispatcher of a leaf, where there is one. -/
def resolved : Leaf → Option (ResolvedProxyGroupLeaf D)
  | .proxy id => g.proxies[id]?.map (⟨·, false⟩)
  | .direct => some ⟨g.direct, true⟩
  | .reject => some ⟨g.reject, false⟩

/-- The target of the member a group has selected, and whose name it
reports as `now`. -/
def SelectedTarget (sel : g.Selections) (id : ℕ) (target : ProxyGroupMemberTarget) : Prop :=
  ∃ (h : id < g.groups.length) (member : ProxyGroupMemberConfig) (state : ProxyGroupState),
    (g.groups.get ⟨id, h⟩).members[sel ⟨id, h⟩]? = some member ∧
      g.stateAt sel ⟨id, h⟩ = some state ∧ state.now = member.name ∧ member.target = target

/-- The target of a member a group reports as `now`, by its name alone. -/
def NowTarget (sel : g.Selections) (id : ℕ) (target : ProxyGroupMemberTarget) : Prop :=
  ∃ (h : id < g.groups.length) (state : ProxyGroupState),
    g.stateAt sel ⟨id, h⟩ = some state ∧ ∃ member ∈ (g.groups.get ⟨id, h⟩).members,
      member.name = state.now ∧ member.target = target

/-- The leaf reached from a group by following `next`. -/
inductive Reaches (next : ℕ → ProxyGroupMemberTarget → Prop) : ℕ → Leaf → Prop
  | proxy {id proxy : ℕ} (h : next id (.route (.proxy proxy))) : Reaches next id (.proxy proxy)
  | direct {id : ℕ} (h : next id .direct) : Reaches next id .direct
  | reject {id : ℕ} (h : next id .reject) : Reaches next id .reject
  | group {id inner : ℕ} {leaf : Leaf} (h : next id (.route (.group inner)))
      (hrest : Reaches next inner leaf) : Reaches next id leaf

/-- In each group, members of one name have one target. Configuration
parsing resolves members by name, so it builds no other groups. -/
def NamesDetermineTargets : Prop :=
  ∀ group ∈ g.groups, ∀ m ∈ group.members, ∀ m' ∈ group.members,
    m.name = m'.name → m.target = m'.target

end ProxyGroups

end Routing

end Vole
