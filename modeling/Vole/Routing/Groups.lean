import Vole.Config.Graph
import Vole.Routing.Model.Groups

/-!
# Select groups always resolve

Every index points at a member, in every state that `select` calls lead
to (`Valid`), and every hop goes down in the rank the accepted graph
gives its groups. So a traversal ends at a leaf before its turns do, even
where the selection changes under it.
-/

namespace Vole.Routing

open List Function Nat

variable {D : Type*}

/-! ## What construction checks -/

/-- A member target the groups can hand out. -/
def TargetInRange (proxyCount groupCount : ℕ) : ProxyGroupMemberTarget → Prop
  | .route (.proxy id) => id < proxyCount
  | .route (.group id) => id < groupCount
  | _ => True

theorem checkMembers_ok {proxyCount groupCount index : ℕ} {members : List ProxyGroupMemberConfig}
    (h : checkMembers proxyCount groupCount index members = .ok ()) :
    ∀ member ∈ members, TargetInRange proxyCount groupCount member.target := by
  induction members with
  | nil => simp
  | cons member rest ih =>
    -- each target that is no error goes on to the rest
    rcases htarget : member.target with (id | id) | _ | _ <;>
      simp only [checkMembers, htarget] at h
    case route.proxy | route.group =>
      split_ifs at h with hlt
      exact forall_mem_cons.mpr ⟨by rw [htarget]; exact Nat.lt_of_not_le hlt, ih h⟩
    all_goals exact forall_mem_cons.mpr ⟨by rw [htarget]; trivial, ih h⟩

section

variable {configs : List SelectProxyGroupConfig} {proxyCount : ℕ}
variable {ids ids' : List (Bytes × Fin configs.length)}

/-- What a group has passed once it is in the table. -/
theorem insertGroup_ok {index : Fin configs.length}
    (h : insertGroup configs proxyCount ids index = .ok ids') :
    (configs.get index).initialMember < (configs.get index).members.length ∧
      ∀ member ∈ (configs.get index).members,
        TargetInRange proxyCount configs.length member.target := by
  unfold insertGroup at h
  extract_lets config at h
  split_ifs at h with hinit hdup
  split at h
  · cases h
  · rename_i hmembers
    exact ⟨Nat.lt_of_not_le fun hle => hinit (Or.inr hle), checkMembers_ok hmembers⟩

/-- Every group is put into the table. -/
theorem foldlM_insertGroup_ok {indices : List (Fin configs.length)}
    (h : indices.foldlM (insertGroup configs proxyCount) ids = .ok ids') :
    ∀ index ∈ indices, ∃ before after,
      insertGroup configs proxyCount before index = .ok after := by
  induction indices generalizing ids with
  | nil => simp
  | cons index rest ih =>
    rw [foldlM_cons] at h
    cases hstep : insertGroup configs proxyCount ids index with
    | error e =>
      rw [hstep] at h
      cases h
    | ok next =>
      rw [hstep] at h
      exact forall_mem_cons.mpr ⟨⟨ids, next, hstep⟩, ih h⟩

end

namespace ProxyGroups

/-- What `with_selections` guarantees of the groups it returns. -/
structure WellFormed (g : ProxyGroups D) : Prop where
  initial_lt : ∀ id, g.initialSelections id < (g.groups.get id).members.length
  target_inRange : ∀ id, ∀ member ∈ (g.groups.get id).members,
    TargetInRange g.proxies.length g.groups.length member.target

/-- The groups that `with_selections` returns are the configured ones,
well formed. -/
theorem withSelections_ok {configs : List SelectProxyGroupConfig} {proxies : List D}
    {direct reject : D} {selections : List ℕ} {g : ProxyGroups D}
    (h : withSelections configs proxies direct reject selections = .ok g) :
    g.groups = configs ∧ g.WellFormed := by
  unfold withSelections at h
  split_ifs at h with hlen
  split at h
  · cases h
  · rename_i ids hfold
    cases h
    refine ⟨rfl, fun id => ?_, fun id => ?_⟩ <;>
      obtain ⟨_, _, hinsert⟩ := foldlM_insertGroup_ok hfold id (mem_finRange id)
    · exact (insertGroup_ok hinsert).1
    · exact (insertGroup_ok hinsert).2

variable {g : ProxyGroups D} {sel : g.Selections}

/-! ## Every index points at a member -/

/-- Every index points at a member of its group. -/
def Valid (g : ProxyGroups D) (sel : g.Selections) : Prop :=
  ∀ id, sel id < (g.groups.get id).members.length

/-- What a `select` call can do: leave everything as it was and fail, or
move one index to a member. -/
theorem select_cases (sel : g.Selections) (group member : Bytes) :
    (∃ e, g.select sel group member = (.error e, sel)) ∨
      ∃ id selected, selected < (g.groups.get id).members.length ∧
        g.select sel group member = (.ok (), update sel id selected) := by
  unfold select
  cases g.idsByName.lookup group with
  | none => exact Or.inl ⟨.unknownGroup, rfl⟩
  | some id =>
    cases hfind : (g.groups.get id).members.findIdx? fun candidate => candidate.name == member with
    | none => exact Or.inl ⟨.unknownMember, by simp only [hfind]⟩
    | some selected =>
      obtain ⟨hlt, -⟩ := findIdx?_eq_some_iff_getElem.mp hfind
      exact Or.inr ⟨id, selected, hlt, by simp only [hfind]⟩

theorem Valid.select (h : g.Valid sel) (group member : Bytes) :
    g.Valid (g.select sel group member).2 := by
  rcases select_cases sel group member with ⟨e, heq⟩ | ⟨id, selected, hlt, heq⟩
  · rw [heq]
    exact h
  rw [heq]
  intro id'
  show update sel id selected id' < _
  rcases eq_or_ne id' id with rfl | hne
  · rw [update_self]
    exact hlt
  · rw [update_of_ne hne]
    exact h id'

/-- A run of `select` calls keeps every index at a member. -/
theorem Valid.selectAll (h : g.Valid sel) (calls : List (Bytes × Bytes)) :
    g.Valid (g.selectAll sel calls) := by
  induction calls generalizing sel with
  | nil => exact h
  | cons call rest ih => exact ih (h.select call.1 call.2)

/-! ## The walk -/

/-- In a valid state every group has a selected member, and reports its
name. -/
theorem Valid.selectedTarget (h : g.Valid sel) (id : Fin g.groups.length) :
    ∃ member ∈ (g.groups.get id).members,
      (g.groups.get id).members[sel id]? = some member ∧ g.SelectedTarget sel id member.target := by
  obtain ⟨member, hget⟩ : ∃ member, (g.groups.get id).members[sel id]? = some member :=
    ⟨_, getElem?_eq_getElem (h id)⟩
  have hstate : g.stateAt sel id = some ⟨(g.groups.get id).name,
      (g.groups.get id).members.map (·.name), member.name⟩ := by
    simp only [stateAt, hget, Option.map_some]
  exact ⟨member, mem_of_getElem? hget, hget, id.isLt, member, _, hget, hstate, rfl, rfl⟩

section Walk

variable {rank : ℕ → ℕ} (hwf : g.WellFormed)
  (hrank : ∀ id, ∀ member ∈ (g.groups.get id).members, ∀ inner,
    member.target = .route (.group inner) → rank inner < rank id)

include hwf hrank

/-- **A traversal with more turns than its group's rank ends at a leaf.**
The induction is on the turns left: a hop to another group loses one turn
and at least one rank. Where the schedule is empty, the leaf is the one
the selected members lead to. -/
theorem resolveHops_leaf {hops : ℕ} (schedule : List (List (Bytes × Bytes)))
    (hvalid : g.Valid sel) {id : ℕ} (hid : id < g.groups.length) (hhops : rank id < hops) :
    ∃ leaf r, g.resolved leaf = some r ∧ g.resolveHops hops schedule sel id = .ok r ∧
      (schedule = [] → Reaches (g.SelectedTarget sel) id leaf) := by
  induction hops generalizing schedule sel id with
  | zero => omega
  | succ hops ih =>
    have hvalid' := hvalid.selectAll (schedule.headD [])
    obtain ⟨member, hmem, hget, hnext⟩ := hvalid'.selectedTarget ⟨id, hid⟩
    -- with nobody selecting, the state the hop reads is the one it started in
    have hsame : schedule = [] → g.SelectedTarget sel id member.target := by
      rintro rfl
      exact hnext
    have hrange := hwf.target_inRange ⟨id, hid⟩ member hmem
    rw [resolveHops, dif_pos hid]
    simp only [hget]
    cases htarget : member.target with
    | direct => exact ⟨.direct, _, rfl, rfl, fun hs => .direct (htarget ▸ hsame hs)⟩
    | reject => exact ⟨.reject, _, rfl, rfl, fun hs => .reject (htarget ▸ hsame hs)⟩
    | route target =>
      rw [htarget] at hrange
      cases target with
      | proxy proxy =>
        have hproxy : g.proxies[proxy]? = some _ := getElem?_eq_getElem hrange
        refine ⟨.proxy proxy, _, by rw [resolved, hproxy]; rfl, by simp only [hproxy], fun hs => ?_⟩
        exact .proxy (htarget ▸ hsame hs)
      | group inner =>
        have hdown : rank inner < rank id := hrank ⟨id, hid⟩ member hmem inner htarget
        obtain ⟨leaf, r, hleaf, hrun, hreach⟩ := ih schedule.tail hvalid' hrange (by omega)
        refine ⟨leaf, r, hleaf, hrun, ?_⟩
        rintro rfl
        exact .group (htarget ▸ hsame rfl) (hreach rfl)

end Walk

/-! ## Following names -/

/-- Following a relation with one target a group leads to one leaf. -/
theorem Reaches.unique {next : ℕ → ProxyGroupMemberTarget → Prop}
    (hnext : ∀ id t t', next id t → next id t' → t = t') {id : ℕ} {leaf leaf' : Leaf}
    (h : Reaches next id leaf) (h' : Reaches next id leaf') : leaf = leaf' := by
  induction h with
  | proxy h =>
    cases h' with
    | proxy h' => simpa using hnext _ _ _ h h'
    | direct h' | reject h' | group h' _ => cases hnext _ _ _ h h'
  | direct h =>
    cases h' with
    | direct h' => rfl
    | proxy h' | reject h' | group h' _ => cases hnext _ _ _ h h'
  | reject h =>
    cases h' with
    | reject h' => rfl
    | proxy h' | direct h' | group h' _ => cases hnext _ _ _ h h'
  | group h _ ih =>
    cases h' with
    | proxy h' | direct h' | reject h' => cases hnext _ _ _ h h'
    | group h' hrest =>
      cases hnext _ _ _ h h'
      exact ih hrest

/-- A path along one relation is a path along a wider one. -/
theorem Reaches.mono {next next' : ℕ → ProxyGroupMemberTarget → Prop}
    (hle : ∀ id t, next id t → next' id t) {id : ℕ} {leaf : Leaf} (h : Reaches next id leaf) :
    Reaches next' id leaf := by
  induction h with
  | proxy h => exact .proxy (hle _ _ h)
  | direct h => exact .direct (hle _ _ h)
  | reject h => exact .reject (hle _ _ h)
  | group h _ ih => exact .group (hle _ _ h) ih

/-- Where names determine targets, a group's `now` names one target. -/
theorem nowTarget_unique (hnames : g.NamesDetermineTargets) (id : ℕ)
    (t t' : ProxyGroupMemberTarget) (h : g.NowTarget sel id t) (h' : g.NowTarget sel id t') :
    t = t' := by
  obtain ⟨hid, state, hstate, member, hmem, hname, rfl⟩ := h
  obtain ⟨_, state', hstate', member', hmem', hname', rfl⟩ := h'
  rw [hstate] at hstate'
  cases hstate'
  exact hnames _ (get_mem _ _) member hmem member' hmem' (hname.trans hname'.symm)

/-! ## The result -/

/-- **Select groups always resolve.** Take groups whose graph
`proxy_graph_order` accepts and which `with_selections` builds, and the
state any run of `select` calls leads to from the initial selections.
From every group, `resolve_leaf` returns the dispatcher of a proxy,
`DIRECT` or `REJECT`, whatever is selected between its hops. With nothing
selected in between, the leaf is the one the reported `now` members lead
to, and the only such leaf where names determine targets. A `select` that
fails changes nothing. -/
theorem resolveLeaf_leaf {proxyConfigs : List ProxyConfig} {configs : List SelectProxyGroupConfig}
    {order : List RouteTargetId} {proxies : List D} {direct reject : D} {g : ProxyGroups D}
    (hgraph : Config.proxyGraphOrder proxyConfigs configs = .ok order)
    (hbuild : withSelections configs proxies direct reject (configs.map (·.initialMember)) = .ok g)
    (calls : List (Bytes × Bytes)) :
    (∀ schedule id, id < configs.length → ∃ leaf r, g.resolved leaf = some r ∧
        g.resolveLeafAmong schedule (g.selectAll g.initialSelections calls) id = .ok r) ∧
      (∀ id, id < configs.length → ∃ leaf r, g.resolved leaf = some r ∧
        g.resolveLeaf (g.selectAll g.initialSelections calls) id = .ok r ∧
        Reaches (g.SelectedTarget (g.selectAll g.initialSelections calls)) id leaf ∧
        (g.NamesDetermineTargets → ∀ leaf',
          Reaches (g.NowTarget (g.selectAll g.initialSelections calls)) id leaf' ↔ leaf' = leaf)) ∧
      ∀ group member e,
        (g.select (g.selectAll g.initialSelections calls) group member).1 = .error e →
          (g.select (g.selectAll g.initialSelections calls) group member).2 =
            g.selectAll g.initialSelections calls := by
  obtain ⟨hgroups, hwf⟩ := withSelections_ok hbuild
  subst hgroups
  obtain ⟨rank, hlt, hrank⟩ := Config.exists_groupRank hgraph
  have hvalid : g.Valid (g.selectAll g.initialSelections calls) :=
    Valid.selectAll hwf.initial_lt calls
  refine ⟨fun schedule id hid => ?_, fun id hid => ?_, fun group member e herr => ?_⟩
  · have hid' := hlt id hid
    obtain ⟨leaf, r, hleaf, hrun, -⟩ :=
      resolveHops_leaf hwf hrank schedule hvalid hid (lt_succ_of_lt hid')
    exact ⟨leaf, r, hleaf, hrun⟩
  · have hid' := hlt id hid
    obtain ⟨leaf, r, hleaf, hrun, hreach⟩ :=
      resolveHops_leaf hwf hrank [] hvalid hid (lt_succ_of_lt hid')
    have hnow : Reaches (g.NowTarget _) id leaf := (hreach rfl).mono
      fun _ _ ⟨hid, member, state, hget, hstate, hnow, htarget⟩ =>
        ⟨hid, state, hstate, member, mem_of_getElem? hget, hnow.symm, htarget⟩
    refine ⟨leaf, r, hleaf, hrun, hreach rfl, fun hnames leaf' => ⟨fun h => ?_, ?_⟩⟩
    · exact Reaches.unique (nowTarget_unique hnames) h hnow
    · rintro rfl
      exact hnow
  · rcases select_cases (g.selectAll g.initialSelections calls) group member with
      ⟨e', heq⟩ | ⟨id, selected, -, heq⟩
    · rw [heq]
    · rw [heq] at herr
      cases herr

/-- A group that holds another one. -/
def sampleConfigs : List SelectProxyGroupConfig :=
  [⟨Bytes.ofString "outer", [⟨Bytes.ofString "inner", .route (.group 1)⟩,
      ⟨Bytes.ofString "DIRECT", .direct⟩], 0⟩,
    ⟨Bytes.ofString "inner", [⟨Bytes.ofString "node", .route (.proxy 0)⟩,
      ⟨Bytes.ofString "REJECT", .reject⟩], 0⟩]

/-- Two calls, the second for a member that is not there. -/
def sampleCalls : List (Bytes × Bytes) :=
  [(Bytes.ofString "inner", Bytes.ofString "REJECT"),
    (Bytes.ofString "outer", Bytes.ofString "node")]

theorem resolveLeaf_leaf_nested :
    ∃ g : ProxyGroups String,
      Config.proxyGraphOrder [⟨none⟩] sampleConfigs = .ok [.proxy 0, .group 1, .group 0] ∧
      withSelections sampleConfigs ["node"] "direct" "reject"
        (sampleConfigs.map (·.initialMember)) = .ok g ∧
      ∃ leaf r, g.resolved leaf = some r ∧
        g.resolveLeaf (g.selectAll g.initialSelections sampleCalls) 0 = .ok r ∧
        Reaches (g.SelectedTarget (g.selectAll g.initialSelections sampleCalls)) 0 leaf := by
  have hgraph : Config.proxyGraphOrder [⟨none⟩] sampleConfigs =
      .ok [.proxy 0, .group 1, .group 0] := by decide
  obtain ⟨g, hbuild⟩ : ∃ g : ProxyGroups String, withSelections sampleConfigs ["node"] "direct"
      "reject" (sampleConfigs.map (·.initialMember)) = .ok g := ⟨_, rfl⟩
  obtain ⟨leaf, r, hleaf, hrun, hreach, -⟩ :=
    (resolveLeaf_leaf hgraph hbuild sampleCalls).2.1 0 (by decide)
  exact ⟨g, hgraph, hbuild, leaf, r, hleaf, hrun, hreach⟩

end ProxyGroups

end Vole.Routing
