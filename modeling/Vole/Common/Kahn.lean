import Mathlib.Algebra.GroupWithZero.Nat
import Mathlib.Data.Fintype.Card
import Mathlib.Data.Set.Finite.Basic
import Mathlib.Logic.Relation
import Mathlib.Order.WellFounded

/-!
# Dependency-first order by counting

Kahn's algorithm on any node type, with parallel edges. A node is ready
once its remaining dependency count is zero; emitting one releases its
dependents, and each release subtracts one. The subtraction is checked
and the loop runs on fuel, so `run` can report both failures; `run_spec`
says neither happens. The counts are the edges from the nodes not yet
emitted (`pending`), with multiplicity, which is what links the counts,
the queue and the emitted order in `Inv`.
-/

namespace Vole.Kahn

open List Function

variable {V : Type*} [DecidableEq V]

/-- What the checked loop can report. -/
inductive Failure where
  /-- A count of zero was decremented. -/
  | underflow
  /-- The fuel ran out with nodes still ready. -/
  | unfinished
  deriving DecidableEq, Repr

/-- Subtracts one from the count of each node of the list in turn, and
queues the nodes whose count reaches zero. -/
def release : List V → (V → ℕ) → List V → Option ((V → ℕ) × List V)
  | [], counts, ready => some (counts, ready)
  | v :: rest, counts, ready =>
    match counts v with
    | 0 => none
    | n + 1 =>
      release rest (update counts v n) (if n = 0 then ready ++ [v] else ready)

/-- The loop: take the first ready node, emit it, release its dependents. -/
def run (dependents : V → List V) : ℕ → (V → ℕ) → List V → List V → Except Failure (List V)
  | _, _, [], order => .ok order
  | 0, _, _ :: _, _ => .error .unfinished
  | fuel + 1, counts, u :: ready, order =>
    match release (dependents u) counts ready with
    | none => .error .underflow
    | some (counts, ready) => run dependents fuel counts ready (order ++ [u])

/-- Records that `w` depends on `u`: the count of `w` grows by one and `w`
joins the dependents of `u`. -/
def addEdge (counts : V → ℕ) (dependents : V → List V) (w u : V) : (V → ℕ) × (V → List V) :=
  (update counts w (counts w + 1), update dependents u (dependents u ++ [w]))

/-- The edges into `v` from the nodes that are not yet emitted. -/
def pending (dependents : V → List V) (nodes order : List V) (v : V) : ℕ :=
  ((nodes.filter fun u => u ∉ order).map fun u => (dependents u).count v).sum

/-- `v` depends on `u`. -/
def DependsOn (dependents : V → List V) (nodes : List V) (v u : V) : Prop :=
  u ∈ nodes ∧ v ∈ dependents u

variable {dependents : V → List V} {nodes : List V} {counts : V → ℕ} {ready order : List V}

/-! ## Releasing -/

/-- **Releasing a list subtracts its multiplicities** and queues, once
each, the nodes of the list left without dependencies. -/
theorem release_spec {base : V → ℕ} {ds : List V} (ready : List V)
    (h : ∀ v, counts v = base v + ds.count v) :
    ∃ added, release ds counts ready = some (base, ready ++ added) ∧ added.Nodup ∧
      ∀ v, v ∈ added ↔ v ∈ ds ∧ base v = 0 := by
  induction ds generalizing counts ready with
  | nil =>
    have : counts = base := by
      funext v
      simpa using h v
    exact ⟨[], by simp [release, this], nodup_nil, by simp⟩
  | cons v rest ih =>
    have hv : counts v = base v + rest.count v + 1 := by
      rw [h v, count_cons_self, Nat.add_assoc]
    have hrest :
        ∀ w, update counts v (base v + rest.count v) w = base w + rest.count w := by
      intro w
      rcases eq_or_ne w v with rfl | hne
      · rw [update_self]
      · rw [update_of_ne hne, h w, count_cons_of_ne hne.symm]
    obtain ⟨added, hrun, hnodup, hmem⟩ :=
      ih (if base v + rest.count v = 0 then ready ++ [v] else ready) hrest
    by_cases hzero : base v + rest.count v = 0
    · have hvrest : v ∉ rest := count_eq_zero.mp (by omega)
      refine ⟨v :: added, ?_,
        nodup_cons.mpr ⟨fun hin => hvrest ((hmem v).mp hin).1, hnodup⟩, ?_⟩
      · rw [release, hv]
        simp only
        rw [hrun, if_pos hzero, append_assoc]
        rfl
      · intro w
        rw [mem_cons, mem_cons, hmem w]
        constructor
        · rintro (rfl | ⟨hw, h0⟩)
          · exact ⟨Or.inl rfl, by omega⟩
          · exact ⟨Or.inr hw, h0⟩
        · rintro ⟨rfl | hw, h0⟩
          · exact Or.inl rfl
          · exact Or.inr ⟨hw, h0⟩
    · refine ⟨added, ?_, hnodup, ?_⟩
      · rw [release, hv]
        simp only
        rw [hrun, if_neg hzero]
      intro w
      rw [hmem w, mem_cons]
      constructor
      · rintro ⟨hw, h0⟩
        exact ⟨Or.inr hw, h0⟩
      · rintro ⟨rfl | hw, h0⟩
        · exact ⟨count_pos_iff.mp (by omega), h0⟩
        · exact ⟨hw, h0⟩

/-! ## Pending edges -/

/-- Emitting a node removes its edges from the pending ones. -/
theorem pending_append (dependents : V → List V) (hnodes : nodes.Nodup) {u : V} (hu : u ∈ nodes)
    (hnew : u ∉ order) (v : V) :
    pending dependents nodes order v =
      pending dependents nodes (order ++ [u]) v + (dependents u).count v := by
  have hmem : u ∈ nodes.filter fun w => w ∉ order := by simp [hu, hnew]
  have hperm := perm_cons_erase hmem
  have herase : (nodes.filter fun w => w ∉ order).erase u =
      nodes.filter fun w => w ∉ order ++ [u] := by
    rw [(hnodes.filter _).erase_eq_filter, filter_filter]
    refine filter_congr fun w _ => ?_
    by_cases hw : w = u <;> simp [hw]
  rw [herase] at hperm
  have hsum := (hperm.map fun w => (dependents w).count v).sum_nat
  rw [map_cons, sum_cons] at hsum
  unfold pending
  omega

/-- A node without pending edges has all its dependencies emitted. -/
theorem mem_order_of_pending_eq_zero {u v : V} (h : pending dependents nodes order v = 0)
    (hu : u ∈ nodes) (hv : v ∈ dependents u) : u ∈ order := by
  by_contra hnew
  have hzero := List.sum_eq_zero_iff_forall_eq_nat.mp h _
    (List.mem_map.mpr ⟨u, by simp [hu, hnew], rfl⟩)
  exact count_eq_zero.mp hzero hv

/-- And a node with one depends on a node not yet emitted. -/
theorem exists_of_pending_ne_zero {v : V} (h : pending dependents nodes order v ≠ 0) :
    ∃ u ∈ nodes, u ∉ order ∧ v ∈ dependents u := by
  by_contra hcon
  push Not at hcon
  refine h (List.sum_eq_zero_iff_forall_eq_nat.mpr fun c hc => ?_)
  obtain ⟨u, hu, rfl⟩ := List.mem_map.mp hc
  simp only [List.mem_filter, decide_eq_true_eq] at hu
  exact count_eq_zero.mpr (hcon u hu.1 hu.2)

/-- Recording an edge from a node keeps the counts equal to the pending
edges. -/
theorem counts_addEdge (hnodes : nodes.Nodup) {u w : V} (hu : u ∈ nodes)
    (h : ∀ v, counts v = pending dependents nodes [] v) (v : V) :
    (addEdge counts dependents w u).1 v =
      pending (addEdge counts dependents w u).2 nodes [] v := by
  have hsplit := perm_cons_erase hu
  have hnotin : u ∉ nodes.erase u := hnodes.not_mem_erase
  have hall : ∀ d : V → List V,
      pending d nodes [] v = (d u).count v + ((nodes.erase u).map fun x => (d x).count v).sum := by
    intro d
    have := (hsplit.map fun x => (d x).count v).sum_nat
    rw [map_cons, sum_cons] at this
    rw [← this, pending]
    simp
  have hrest : ((nodes.erase u).map fun x =>
        ((addEdge counts dependents w u).2 x).count v).sum =
      ((nodes.erase u).map fun x => (dependents x).count v).sum := by
    congr 1
    refine map_congr_left fun x hx => ?_
    have hne : x ≠ u := by
      rintro rfl
      exact hnotin hx
    simp only [addEdge, update_of_ne hne]
  rw [hall, hrest]
  have hv := h v
  rw [hall] at hv
  simp only [addEdge, update_self, count_append]
  rcases eq_or_ne v w with rfl | hne
  · rw [update_self, hv, count_singleton_self]
    omega
  · rw [update_of_ne hne, hv, count_singleton, if_neg (by simpa using hne.symm)]
    omega

/-! ## The loop -/

/-- What holds between two turns: the emitted and the ready nodes are
distinct, they are the ones without pending edges, the counts are the
pending edges, and the emitted order puts dependencies first. -/
structure Inv (dependents : V → List V) (nodes : List V) (counts : V → ℕ)
    (ready order : List V) : Prop where
  nodup : (order ++ ready).Nodup
  subset : ∀ v ∈ order ++ ready, v ∈ nodes
  counts_eq : ∀ v, counts v = pending dependents nodes order v
  mem_iff : ∀ v ∈ nodes, pending dependents nodes order v = 0 ↔ v ∈ order ++ ready
  sorted : ∀ v ∈ order, ∀ u ∈ nodes, v ∈ dependents u → List.Sublist [u, v] order

/-- The initial queue: the nodes no edge enters. -/
theorem Inv.init (hnodes : nodes.Nodup) (hcounts : ∀ v, counts v = pending dependents nodes [] v) :
    Inv dependents nodes counts (nodes.filter fun v => counts v = 0) [] where
  nodup := hnodes.filter _
  subset v hv := (mem_filter.mp hv).1
  counts_eq := hcounts
  mem_iff v hv := by simp [hv, hcounts v]
  sorted v hv := by cases hv

/-- Emitting a node keeps the emitted order dependency-first: the node
was ready, so its dependencies are all out. -/
theorem Inv.sorted_append {u : V} (h : Inv dependents nodes counts (u :: ready) order) :
    ∀ v ∈ order ++ [u], ∀ w ∈ nodes, v ∈ dependents w → List.Sublist [w, v] (order ++ [u]) := by
  intro v hv w hw hd
  rcases mem_append.mp hv with hv | hv
  · exact (h.sorted v hv w hw hd).trans (sublist_append_left _ _)
  · obtain rfl : v = u := by simpa using hv
    have hzero := (h.mem_iff v (h.subset v (by simp))).mpr (by simp)
    have hwo := mem_order_of_pending_eq_zero hzero hw hd
    exact (singleton_sublist.mpr hwo).append (List.Sublist.refl [v])

/-- **One turn keeps the invariant**, and the checked subtraction
succeeds. -/
theorem Inv.step (hnodes : nodes.Nodup) (hclosed : ∀ u ∈ nodes, ∀ v ∈ dependents u, v ∈ nodes)
    {u : V} (h : Inv dependents nodes counts (u :: ready) order) :
    ∃ counts' ready', release (dependents u) counts ready = some (counts', ready') ∧
      Inv dependents nodes counts' ready' (order ++ [u]) := by
  have hu : u ∈ nodes := h.subset u (by simp)
  have hnew : u ∉ order := by
    have := h.nodup
    rw [nodup_append'] at this
    exact fun ho => this.2.2 ho (by simp)
  have hbase : ∀ v, counts v =
      pending dependents nodes (order ++ [u]) v + (dependents u).count v := by
    intro v
    rw [h.counts_eq v, pending_append dependents hnodes hu hnew]
  obtain ⟨added, hrel, hnodup, hmem⟩ := release_spec ready hbase
  -- a released node had an edge from `u`, so it was neither emitted nor ready
  have hfresh : ∀ v ∈ added, v ∉ order ++ u :: ready := by
    intro v hv hin
    obtain ⟨hvd, h0⟩ := (hmem v).mp hv
    have hzero := (h.mem_iff v (hclosed u hu v hvd)).mpr hin
    have hpos : 0 < (dependents u).count v := count_pos_iff.mpr hvd
    have := pending_append dependents hnodes hu hnew v
    omega
  have happ : order ++ [u] ++ (ready ++ added) = (order ++ u :: ready) ++ added := by simp
  refine ⟨_, _, hrel, ?_, ?_, fun v => rfl, ?_, h.sorted_append⟩
  · rw [happ, nodup_append']
    exact ⟨h.nodup, hnodup, fun v hv hv' => hfresh v hv' hv⟩
  · rw [happ]
    exact forall_mem_append.mpr ⟨h.subset, fun v hv => hclosed u hu v ((hmem v).mp hv).1⟩
  intro v hv
  rw [happ, mem_append, hmem v, ← h.mem_iff v hv,
    pending_append dependents hnodes hu hnew v]
  constructor
  · intro h0
    by_cases hvd : v ∈ dependents u
    · exact Or.inr ⟨hvd, h0⟩
    · exact Or.inl (by rw [h0, count_eq_zero.mpr hvd])
  · rintro (h0 | ⟨-, h0⟩)
    · omega
    · exact h0

/-- **The loop finishes**: with fuel for every node not yet emitted it
ends in an order whose queue is empty, and never in a failure. -/
theorem run_spec (hnodes : nodes.Nodup) (hclosed : ∀ u ∈ nodes, ∀ v ∈ dependents u, v ∈ nodes)
    (fuel : ℕ) (hfuel : nodes.length ≤ order.length + fuel)
    (h : Inv dependents nodes counts ready order) :
    ∃ order' counts', run dependents fuel counts ready order = .ok order' ∧
      Inv dependents nodes counts' [] order' := by
  induction fuel generalizing counts ready order with
  | zero =>
    cases ready with
    | nil => exact ⟨order, counts, by simp [run], h⟩
    | cons u rest =>
      have hle := (h.nodup.subperm h.subset).length_le
      simp only [length_append, length_cons] at hle
      omega
  | succ fuel ih =>
    cases ready with
    | nil => exact ⟨order, counts, by simp [run], h⟩
    | cons u rest =>
      obtain ⟨counts', ready', hrel, hinv⟩ := h.step hnodes hclosed
      obtain ⟨order', counts'', hrun, hinv'⟩ := ih (by simp; omega) hinv
      exact ⟨order', counts'', by rw [run, hrel]; exact hrun, hinv'⟩

/-! ## What an empty queue means -/

/-- In a list without repetition, one element stands before another
exactly as their positions do. -/
theorem idxOf_lt_of_sublist {u v : V} (hnodup : order.Nodup) (h : List.Sublist [u, v] order) :
    order.idxOf u < order.idxOf v := by
  obtain ⟨front, back, rfl, hu, hv⟩ := cons_sublist_iff.mp h
  have hvb : v ∈ back := singleton_sublist.mp hv
  have hvf : v ∉ front := fun hf => (nodup_append'.mp hnodup).2.2 hf hvb
  rw [idxOf_append_of_mem hu, idxOf_append_of_notMem hvf]
  have := idxOf_lt_length_of_mem hu
  omega

/-- In a dependency-first order nothing depends on itself, however
indirectly: every step of a chain goes back in the order. -/
theorem not_transGen_of_sorted (hnodup : order.Nodup)
    (hsorted : ∀ v u, DependsOn dependents nodes v u → List.Sublist [u, v] order) (v : V) :
    ¬ Relation.TransGen (DependsOn dependents nodes) v v := by
  have hlt : ∀ v u, Relation.TransGen (DependsOn dependents nodes) v u →
      order.idxOf u < order.idxOf v := by
    intro v u hvu
    induction hvu with
    | single hd => exact idxOf_lt_of_sublist hnodup (hsorted _ _ hd)
    | tail _ hd ih => exact (idxOf_lt_of_sublist hnodup (hsorted _ _ hd)).trans ih
  intro hcycle
  exact lt_irrefl _ (hlt v v hcycle)

omit [DecidableEq V] in
/-- A finite set in which every node depends on another node of the set
holds a cycle. -/
theorem exists_transGen_self {S : Set V} (hfin : S.Finite) (hne : S.Nonempty)
    (hstep : ∀ v ∈ S, ∃ u ∈ S, DependsOn dependents nodes v u) :
    ∃ v, Relation.TransGen (DependsOn dependents nodes) v v := by
  by_contra hacyclic
  push Not at hacyclic
  have : Finite S := hfin
  -- on a finite set a transitive irreflexive relation has a minimal element
  let r : S → S → Prop := fun u v => Relation.TransGen (DependsOn dependents nodes) v u
  have : Std.Irrefl r := ⟨fun v hv => hacyclic v hv⟩
  have hwf := Finite.wellFounded_of_trans_of_irrefl r
  obtain ⟨v₀, hv₀⟩ := hne
  obtain ⟨v, -, hmin⟩ := hwf.has_min Set.univ ⟨⟨v₀, hv₀⟩, trivial⟩
  obtain ⟨u, hu, hd⟩ := hstep v v.2
  exact hmin ⟨u, hu⟩ trivial (Relation.TransGen.single hd)

/-- **The length test is the cycle test.** With the queue empty, every
node has been emitted exactly where no node depends on itself. -/
theorem Inv.length_eq_iff (hnodes : nodes.Nodup)
    (hclosed : ∀ u ∈ nodes, ∀ v ∈ dependents u, v ∈ nodes)
    (h : Inv dependents nodes counts [] order) :
    order.length = nodes.length ↔
      ∀ v, ¬ Relation.TransGen (DependsOn dependents nodes) v v := by
  have hnodup : order.Nodup := by simpa using h.nodup
  have hsubset : order ⊆ nodes := fun v hv => h.subset v (by simpa using hv)
  constructor
  · intro hlen
    have hperm := (hnodup.subperm hsubset).perm_of_length_le hlen.ge
    refine not_transGen_of_sorted hnodup fun v u hd => ?_
    exact h.sorted v (hperm.mem_iff.mpr (hclosed u hd.1 v hd.2)) u hd.1 hd.2
  intro hacyclic
  by_contra hlen
  have hle := (hnodup.subperm hsubset).length_le
  -- a node is left over, and a left-over node waits for a left-over node
  have hleft : ∃ v ∈ nodes, v ∉ order := by
    by_contra hall
    push Not at hall
    have := (hnodes.subperm hall).length_le
    omega
  obtain ⟨v₀, hv₀, hv₀'⟩ := hleft
  let left : Set V := {v | v ∈ nodes ∧ v ∉ order}
  have hfin : left.Finite := (finite_toSet nodes).subset fun v hv => hv.1
  have hwaits : ∀ v ∈ left, ∃ u ∈ left, DependsOn dependents nodes v u := by
    rintro v ⟨hv, hvo⟩
    have hne : pending dependents nodes order v ≠ 0 := fun h0 =>
      hvo (by simpa using (h.mem_iff v hv).mp h0)
    obtain ⟨u, hu, huo, hd⟩ := exists_of_pending_ne_zero hne
    exact ⟨u, ⟨hu, huo⟩, hu, hd⟩
  obtain ⟨v, hv⟩ := exists_transGen_self hfin ⟨v₀, hv₀, hv₀'⟩ hwaits
  exact hacyclic v hv

end Vole.Kahn
