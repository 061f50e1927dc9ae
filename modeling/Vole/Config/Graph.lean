import Vole.Config.Model.Graph

/-!
# The proxy graph order is a topological order

The index space and the targets are two names for the same nodes
(`indexOf_eq_some_iff`), so the recorded edges are the dependencies of
the configuration, and the counting order of the indices carries over.
-/

namespace Vole.Config

open List Function RouteTargetId

variable {proxies : List ProxyConfig} {groups : List SelectProxyGroupConfig}

/-! ## Indices and targets -/

variable {target : RouteTargetId}

/-- An index names a target, and a target in range has one index. -/
theorem indexOf_eq_some_iff {index : ℕ} :
    indexOf proxies groups target = some index ↔
      index < proxies.length + groups.length ∧ targetOf proxies index = target := by
  cases target with
  | proxy id =>
    simp only [indexOf, targetOf]
    split_ifs with h1 h2 h2
    · simp only [Option.some.injEq, proxy.injEq]
      omega
    · simp only [Option.some.injEq, and_false, iff_false]
      omega
    · simp only [proxy.injEq, false_iff]
      omega
    · simp
  | group id =>
    simp only [indexOf, targetOf]
    split_ifs with h1 h2 h2
    · simp only [Option.some.injEq, and_false, iff_false]
      omega
    · simp only [Option.some.injEq, group.injEq]
      omega
    · simp
    · simp only [group.injEq, false_iff]
      omega

/-- The targets in range are the ones with an index. -/
theorem inRange_iff :
    InRange proxies groups target ↔ ∃ index, indexOf proxies groups target = some index := by
  cases target with
  | proxy id => by_cases h : id < proxies.length <;> simp [InRange, indexOf, h]
  | group id => by_cases h : id < groups.length <;> simp [InRange, indexOf, h]

/-- A source that depends on something is itself configured. -/
theorem DependsOn.source_inRange {source target : RouteTargetId}
    (h : DependsOn proxies groups source target) : InRange proxies groups source := by
  rcases source with id | id <;> obtain ⟨x, hx, -⟩ := h <;>
    exact (List.getElem?_eq_some_iff.mp hx).1

/-- The targets of all indices are all targets. -/
theorem map_targetOf_range :
    (range (proxies.length + groups.length)).map (targetOf proxies) =
      allTargets proxies groups := by
  rw [range_add, map_append, map_map, allTargets]
  congr 1
  · refine map_congr_left fun i hi => ?_
    rw [targetOf, if_pos (mem_range.mp hi)]
  · refine map_congr_left fun i _ => ?_
    simp [targetOf]

/-! ## The recorded edges -/

/-- A call of `add_dependency` is a dependency of the configuration. -/
theorem mem_dependencyCalls {index : ℕ} :
    (index, target) ∈ dependencyCalls proxies groups ↔
      index < proxies.length + groups.length ∧
        DependsOn proxies groups (targetOf proxies index) target := by
  simp only [dependencyCalls, mem_append, mem_filterMap, mem_flatMap, Prod.exists,
    mem_zipIdx_iff_getElem?, Option.map_eq_some_iff, Prod.mk.injEq]
  constructor
  · rintro (⟨proxy, i, hp, t, ht, rfl, rfl⟩ | ⟨group, g, hg, member, hm, hedge⟩)
    · have hi := (List.getElem?_eq_some_iff.mp hp).1
      refine ⟨by omega, ?_⟩
      rw [targetOf, if_pos hi]
      exact ⟨proxy, hp, ht⟩
    have hi := (List.getElem?_eq_some_iff.mp hg).1
    rw [memberEdge] at hedge
    split at hedge
    · rename_i t ht
      obtain ⟨rfl, rfl⟩ := hedge
      refine ⟨by omega, ?_⟩
      rw [targetOf, if_neg (by omega), Nat.add_sub_cancel_left]
      exact ⟨group, hg, member, hm, ht⟩
    · cases hedge
  · rintro ⟨hindex, hdep⟩
    rw [targetOf] at hdep
    split_ifs at hdep with hlt
    · obtain ⟨proxy, hp, ht⟩ := hdep
      exact Or.inl ⟨proxy, index, hp, target, ht, rfl, rfl⟩
    · obtain ⟨group, hg, member, hm, ht⟩ := hdep
      refine Or.inr ⟨group, index - proxies.length, hg, member, hm, ?_⟩
      simp only [memberEdge, ht, Option.some.injEq, Prod.mk.injEq, and_true]
      omega

/-- The edges a list of calls records, over the ones already there. -/
structure Recorded (proxies : List ProxyConfig) (groups : List SelectProxyGroupConfig)
    (old : ℕ → List ℕ) (calls : List (ℕ × RouteTargetId)) (counts : ℕ → ℕ)
    (dependents : ℕ → List ℕ) : Prop where
  counts_eq : ∀ v,
    counts v = Kahn.pending dependents (range (proxies.length + groups.length)) [] v
  mem_iff : ∀ v u, v ∈ dependents u ↔
    v ∈ old u ∨ ∃ target, (v, target) ∈ calls ∧ indexOf proxies groups target = some u

/-- A list of calls whose targets are in range records their edges. -/
theorem foldlM_addDependency_ok {calls : List (ℕ × RouteTargetId)} (counts : ℕ → ℕ)
    (dependents : ℕ → List ℕ)
    (hcounts : ∀ v, counts v =
      Kahn.pending dependents (range (proxies.length + groups.length)) [] v)
    (hrange : ∀ call ∈ calls, InRange proxies groups call.2) :
    ∃ counts' dependents',
      calls.foldlM (addDependency proxies groups) (counts, dependents) =
        .ok (counts', dependents') ∧
      Recorded proxies groups dependents calls counts' dependents' := by
  induction calls generalizing counts dependents with
  | nil => exact ⟨counts, dependents, rfl, hcounts, by simp⟩
  | cons call rest ih =>
    obtain ⟨index, hindex⟩ := inRange_iff.mp (hrange call (by simp))
    have hlt := (indexOf_eq_some_iff.mp hindex).1
    obtain ⟨counts', dependents', hfold, hrec⟩ :=
      ih _ _ (Kahn.counts_addEdge (w := call.1) nodup_range (mem_range.mpr hlt) hcounts)
        (fun c hc => hrange c (by simp [hc]))
    refine ⟨counts', dependents', ?_, hrec.counts_eq, fun v u => ?_⟩
    · rw [foldlM_cons, addDependency, hindex]
      exact hfold
    rw [hrec.mem_iff v u]
    simp only [Kahn.addEdge, mem_cons]
    rcases eq_or_ne u index with rfl | hne
    · rw [update_self, mem_append, mem_singleton]
      constructor
      · rintro ((hold | rfl) | ⟨t, ht, hu⟩)
        · exact Or.inl hold
        · exact Or.inr ⟨call.2, Or.inl rfl, hindex⟩
        · exact Or.inr ⟨t, Or.inr ht, hu⟩
      · rintro (hold | ⟨t, rfl | ht, hu⟩)
        · exact Or.inl (Or.inl hold)
        · exact Or.inl (Or.inr rfl)
        · exact Or.inr ⟨t, ht, hu⟩
    · rw [update_of_ne hne]
      constructor
      · rintro (hold | ⟨t, ht, hu⟩)
        · exact Or.inl hold
        · exact Or.inr ⟨t, Or.inr ht, hu⟩
      · rintro (hold | ⟨t, rfl | ht, hu⟩)
        · exact Or.inl hold
        · rw [hindex] at hu
          exact absurd (Option.some.inj hu).symm hne
        · exact Or.inr ⟨t, ht, hu⟩

/-- A call whose target is out of range stops the recording. -/
theorem foldlM_addDependency_error {calls : List (ℕ × RouteTargetId)}
    (tables : (ℕ → ℕ) × (ℕ → List ℕ)) (h : ∃ call ∈ calls, ¬ InRange proxies groups call.2) :
    ∃ message, calls.foldlM (addDependency proxies groups) tables =
      .error (.invalidConfig message) := by
  induction calls generalizing tables with
  | nil =>
    obtain ⟨call, hcall, -⟩ := h
    cases hcall
  | cons call rest ih =>
    rw [foldlM_cons, addDependency]
    cases hindex : indexOf proxies groups call.2 with
    | none => exact ⟨_, rfl⟩
    | some index =>
      obtain ⟨bad, hbad, hout⟩ := h
      rcases mem_cons.mp hbad with rfl | hbad
      · exact absurd (inRange_iff.mpr ⟨index, hindex⟩) hout
      · exact ih _ ⟨bad, hbad, hout⟩

/-! ## The order -/

section Order

variable {counts : ℕ → ℕ} {dependents : ℕ → List ℕ}
variable (hrange : ∀ s t, DependsOn proxies groups s t → InRange proxies groups t)
variable (hrec : Recorded proxies groups (fun _ => []) (dependencyCalls proxies groups) counts
  dependents)

include hrec

/-- A recorded edge is a dependency of the configuration. -/
theorem dependsOn_of_edge {v u : ℕ}
    (h : Kahn.DependsOn dependents (range (proxies.length + groups.length)) v u) :
    DependsOn proxies groups (targetOf proxies v) (targetOf proxies u) := by
  obtain ⟨t, hcall, hindex⟩ := ((hrec.mem_iff v u).mp h.2).resolve_left (by simp)
  rw [(indexOf_eq_some_iff.mp hindex).2]
  exact (mem_dependencyCalls.mp hcall).2

include hrange

/-- And a dependency of the configuration is a recorded edge between the
indices of its ends. -/
theorem edge_of_dependsOn {s t : RouteTargetId} (h : DependsOn proxies groups s t) :
    ∃ v u, indexOf proxies groups s = some v ∧ indexOf proxies groups t = some u ∧
      Kahn.DependsOn dependents (range (proxies.length + groups.length)) v u := by
  obtain ⟨v, hv⟩ := inRange_iff.mp h.source_inRange
  obtain ⟨u, hu⟩ := inRange_iff.mp (hrange s t h)
  obtain ⟨hvlt, hvs⟩ := indexOf_eq_some_iff.mp hv
  refine ⟨v, u, hv, hu, mem_range.mpr (indexOf_eq_some_iff.mp hu).1, ?_⟩
  exact (hrec.mem_iff v u).mpr
    (Or.inr ⟨t, mem_dependencyCalls.mpr ⟨hvlt, by rw [hvs]; exact h⟩, hu⟩)

/-- Cycles of targets are cycles of indices. -/
theorem acyclic_iff :
    (∀ v, ¬ Relation.TransGen
        (Kahn.DependsOn dependents (range (proxies.length + groups.length))) v v) ↔
      ∀ target, ¬ Relation.TransGen (DependsOn proxies groups) target target := by
  constructor
  · intro h target hcycle
    refine h _ (Relation.TransGen.lift (fun t => (indexOf proxies groups t).getD 0)
      (fun s t hst => ?_) _ _ hcycle)
    obtain ⟨v, u, hv, hu, hedge⟩ := edge_of_dependsOn hrange hrec hst
    rw [onFun_apply, hv, hu]
    exact hedge
  · exact fun h v hcycle => h _ (Relation.TransGen.lift (targetOf proxies)
      (fun _ _ => dependsOn_of_edge hrec) _ _ hcycle)

end Order

/-- What a run on references in range ends in: an order exactly where no
target depends on itself. -/
theorem proxyGraphOrder_of_inRange
    (hrange : ∀ s t, DependsOn proxies groups s t → InRange proxies groups t) :
    (∃ message, proxyGraphOrder proxies groups = .error (.invalidConfig message) ∧
        ∃ target, Relation.TransGen (DependsOn proxies groups) target target) ∨
      ∃ order, proxyGraphOrder proxies groups = .ok order ∧
        (∀ target, ¬ Relation.TransGen (DependsOn proxies groups) target target) ∧
        order.Perm (allTargets proxies groups) ∧
        ∀ s t, DependsOn proxies groups s t → List.Sublist [t, s] order := by
  have hcalls : ∀ call ∈ dependencyCalls proxies groups, InRange proxies groups call.2 :=
    fun call hc => hrange _ _ (mem_dependencyCalls.mp hc).2
  obtain ⟨counts, dependents, hfold, hrec⟩ :=
    foldlM_addDependency_ok (fun _ => 0) (fun _ => [])
      (fun v => by simp [Kahn.pending]) hcalls
  have hnodup : (range (proxies.length + groups.length)).Nodup := nodup_range
  have hclosed : ∀ u ∈ range (proxies.length + groups.length), ∀ v ∈ dependents u,
      v ∈ range (proxies.length + groups.length) := by
    intro u _ v hv
    obtain ⟨t, hcall, -⟩ := ((hrec.mem_iff v u).mp hv).resolve_left (by simp)
    exact mem_range.mpr (mem_dependencyCalls.mp hcall).1
  obtain ⟨order, counts', hrun, hinv⟩ :=
    Kahn.run_spec hnodup hclosed (proxies.length + groups.length) (by simp)
      (Kahn.Inv.init hnodup hrec.counts_eq)
  have hlength := hinv.length_eq_iff hnodup hclosed
  rw [length_range, acyclic_iff hrange hrec] at hlength
  by_cases hlen : order.length = proxies.length + groups.length
  · have hperm := ((show order.Nodup by simpa using hinv.nodup).subperm fun v hv =>
      hinv.subset v (by simpa using hv)).perm_of_length_le (by simp [hlen])
    refine Or.inr ⟨order.map (targetOf proxies), ?_, hlength.mp hlen, ?_, ?_⟩
    · simp only [proxyGraphOrder, hfold, hrun]
      rw [if_neg (by simp [hlen])]
    · rw [← map_targetOf_range]
      exact hperm.map _
    · intro s t hst
      obtain ⟨v, u, hv, hu, hu', hd⟩ := edge_of_dependsOn hrange hrec hst
      obtain ⟨hvlt, rfl⟩ := indexOf_eq_some_iff.mp hv
      obtain ⟨-, rfl⟩ := indexOf_eq_some_iff.mp hu
      exact (hinv.sorted v (hperm.mem_iff.mpr (mem_range.mpr hvlt)) u hu' hd).map _
  · refine Or.inl
      ⟨"proxy graph contains a circular dialer-proxy or circular member dependency", ?_, ?_⟩
    · simp only [proxyGraphOrder, hfold, hrun]
      rw [if_pos hlen]
    · by_contra hacyclic
      push Not at hacyclic
      exact hlen (hlength.mpr hacyclic)

/-- A reference out of range stops the recording, whatever the rest
holds. -/
theorem proxyGraphOrder_of_not_inRange
    (hrange : ¬ ∀ s t, DependsOn proxies groups s t → InRange proxies groups t) :
    ∃ message, proxyGraphOrder proxies groups = .error (.invalidConfig message) := by
  have hbad : ∃ call ∈ dependencyCalls proxies groups, ¬ InRange proxies groups call.2 := by
    push Not at hrange
    obtain ⟨s, t, hst, hout⟩ := hrange
    obtain ⟨v, hv⟩ := inRange_iff.mp hst.source_inRange
    obtain ⟨hvlt, hvs⟩ := indexOf_eq_some_iff.mp hv
    exact ⟨(v, t), mem_dependencyCalls.mpr ⟨hvlt, by rw [hvs]; exact hst⟩, hout⟩
  obtain ⟨message, herr⟩ :=
    foldlM_addDependency_error (fun _ => 0, fun _ => []) hbad
  exact ⟨message, by simp only [proxyGraphOrder, herr]⟩

/-- The two outcomes of `proxy_graph_order`. -/
theorem proxyGraphOrder_cases (proxies : List ProxyConfig) (groups : List SelectProxyGroupConfig) :
    (∃ message, proxyGraphOrder proxies groups = .error (.invalidConfig message) ∧
        ¬ ((∀ s t, DependsOn proxies groups s t → InRange proxies groups t) ∧
          ∀ target, ¬ Relation.TransGen (DependsOn proxies groups) target target)) ∨
      ∃ order, proxyGraphOrder proxies groups = .ok order ∧
        (∀ s t, DependsOn proxies groups s t → InRange proxies groups t) ∧
        (∀ target, ¬ Relation.TransGen (DependsOn proxies groups) target target) ∧
        order.Perm (allTargets proxies groups) ∧
        ∀ s t, DependsOn proxies groups s t → List.Sublist [t, s] order := by
  by_cases hrange : ∀ s t, DependsOn proxies groups s t → InRange proxies groups t
  · rcases proxyGraphOrder_of_inRange hrange with ⟨message, herr, target, hcycle⟩ | ⟨order, hok, h⟩
    · exact Or.inl ⟨message, herr, fun h => h.2 target hcycle⟩
    · exact Or.inr ⟨order, hok, hrange, h⟩
  · obtain ⟨message, herr⟩ := proxyGraphOrder_of_not_inRange hrange
    exact Or.inl ⟨message, herr, fun h => hrange h.1⟩

/-- A target that is a group. -/
def isGroup : RouteTargetId → Bool
  | .group _ => true
  | .proxy _ => false

/-- **The groups of an accepted graph have a rank** below their number,
and a group outranks its members: the rank is the group's place among
the groups of the order. -/
theorem exists_groupRank {order : List RouteTargetId}
    (h : proxyGraphOrder proxies groups = .ok order) :
    ∃ rank : ℕ → ℕ, (∀ id, id < groups.length → rank id < groups.length) ∧
      ∀ id, ∀ member ∈ (groups.get id).members, ∀ inner,
        member.target = .route (.group inner) → rank inner < rank id := by
  rcases proxyGraphOrder_cases proxies groups with
    ⟨message, herr, -⟩ | ⟨order', hok, -, -, hperm, hsorted⟩
  · rw [herr] at h
    cases h
  rw [hok] at h
  cases h
  have hgroups : (order.filter isGroup).Perm ((range groups.length).map .group) := by
    have hfilter := hperm.filter isGroup
    have hleft : ((range proxies.length).map proxy).filter isGroup = [] := by
      simp [filter_eq_nil_iff, isGroup]
    have hright : ((range groups.length).map group).filter isGroup =
        (range groups.length).map .group := by
      simp [filter_eq_self, isGroup]
    rwa [allTargets, filter_append, hleft, hright, nil_append] at hfilter
  have hnodup : (order.filter isGroup).Nodup := by
    refine hgroups.nodup_iff.mpr (nodup_range.map fun a b hab => ?_)
    simpa using hab
  refine ⟨fun id => (order.filter isGroup).idxOf (.group id), fun id hid => ?_,
    fun id member hmem inner htarget => ?_⟩
  · have hmem : group id ∈ order.filter isGroup :=
      hgroups.mem_iff.mpr (mem_map.mpr ⟨id, mem_range.mpr hid, rfl⟩)
    have hlt := idxOf_lt_length_of_mem hmem
    have hlen := hgroups.length_eq
    rw [length_map, length_range] at hlen
    exact hlt.trans_eq hlen
  · have hdep : DependsOn proxies groups (.group id) (.group inner) :=
      ⟨_, getElem?_eq_getElem id.isLt, member, hmem, htarget⟩
    have hsub := (hsorted _ _ hdep).filter isGroup
    exact Kahn.idxOf_lt_of_sublist hnodup hsub

/-- **`proxy_graph_order` decides acyclicity and orders the graph.** It
succeeds exactly on the configurations whose references are in range and
whose dialer and member edges have no cycle; the order it returns lists
every proxy and group once, dependencies first; and no count is ever
decremented below zero, nor does the loop run on. -/
theorem proxyGraphOrder_correct (proxies : List ProxyConfig)
    (groups : List SelectProxyGroupConfig) :
    ((∃ order, proxyGraphOrder proxies groups = .ok order) ↔
        (∀ s t, DependsOn proxies groups s t → InRange proxies groups t) ∧
          ∀ target, ¬ Relation.TransGen (DependsOn proxies groups) target target) ∧
      (∀ order, proxyGraphOrder proxies groups = .ok order →
        order.Perm (allTargets proxies groups) ∧
          ∀ s t, DependsOn proxies groups s t → List.Sublist [t, s] order) ∧
      proxyGraphOrder proxies groups ≠ .error .underflow ∧
      proxyGraphOrder proxies groups ≠ .error .unfinished := by
  rcases proxyGraphOrder_cases proxies groups with
    ⟨message, herr, hnot⟩ | ⟨order, hok, hrange, hacyclic, hperm, hsorted⟩
  · refine ⟨⟨?_, fun h => absurd h hnot⟩, ?_, by simp [herr], by simp [herr]⟩
    · rintro ⟨order, hok⟩
      rw [herr] at hok
      cases hok
    · intro order hok
      rw [herr] at hok
      cases hok
  · refine ⟨⟨fun _ => ⟨hrange, hacyclic⟩, fun _ => ⟨order, hok⟩⟩, ?_, by simp [hok], by simp [hok]⟩
    intro order' hok'
    rw [hok] at hok'
    cases hok'
    exact ⟨hperm, hsorted⟩

end Vole.Config
