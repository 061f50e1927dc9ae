import Vole.Common.Count
import Vole.Outbound.Model.Establish
import Vole.Routing.Groups

/-!
# One establishment sees one selection

A context reads the selection of a group when it first resolves it, and
answers from its map afterwards. A continuation copies the map, and so
agrees with the context it was made from on every group that was resolved
by then. On another group it reads the live selection by itself
(`selections_differ`): the nodes that reuse a session resolve nothing while
a connection is established, and their groups are not in the map yet.
-/

namespace Vole.Outbound

open Routing ProxyGroups List Option Nat EstablishContext

variable {D : Type*} {g : ProxyGroups D}

/-! ## Reads -/

/-- What a context answers for a group, the context its continuations go
back to, and what the group has selected at that moment. -/
structure Read where
  context : ℕ
  root : ℕ
  group : ℕ
  member : ℕ
  current : ℕ
  deriving DecidableEq

namespace Establishing

/-- The read that a turn makes. -/
def readOf : Establishing g × EstablishEvent → Option Read
  | (s, .hop index) =>
    (s.resolutions[index]?).bind fun resolution =>
      match resolution.position with
      | .done _ => none
      | .group id =>
        if h : id < g.groups.length then
          (s.contexts[resolution.context]?).map fun context =>
            { context := resolution.context
              root := context.root
              group := id
              member := (context.selectedMember id (s.selected ⟨id, h⟩)).1
              current := s.selected ⟨id, h⟩ }
        else none
  | _ => none

section

variable (history : List (Establishing g × EstablishEvent))

/-- The reads of a run, the oldest first. -/
def reads : List Read :=
  history.filterMap readOf

/-- The reads of a group in a context and its continuations. -/
def family (root group : ℕ) : List Read :=
  (reads history).filter fun read => read.root = root ∧ read.group = group

/-- What the group had selected at the first of them. -/
def first (root group : ℕ) : Option ℕ :=
  (family history root group).head?.map Read.current

/-- Whatever a continuation resolves of this group, the context it was made
from had resolved by then. -/
def Frozen (root group : ℕ) : Prop :=
  ∀ u context proxy, (u, EstablishEvent.continuation context proxy) ∈ history →
    ∀ read ∈ family history root group, read.context = u.contexts.length →
      ∃ made, u.contexts[context]? = some made ∧ (made.selections.lookup group).isSome = true

end

variable {s t : Establishing g} {event : EstablishEvent}
  {history : List (Establishing g × EstablishEvent)} {root group : ℕ}

theorem mem_family {read : Read} :
    read ∈ family history root group ↔
      read ∈ reads history ∧ read.root = root ∧ read.group = group := by
  simp [family]

theorem family_append (last : Establishing g × EstablishEvent) :
    family (history ++ [last]) root group = family history root group ++
      (readOf last).toList.filter fun read => read.root = root ∧ read.group = group := by
  unfold family reads
  cases hread : readOf last <;> simp [hread]

variable {last : Establishing g × EstablishEvent}

/-- A condition on a run is one on what was before. -/
theorem Frozen.before (h : Frozen (history ++ [last]) root group) : Frozen history root group := by
  intro u context proxy hmem read hread hcontext
  refine h u context proxy (mem_append_left _ hmem) read ?_ hcontext
  rw [family_append]
  exact mem_append_left _ hread

/-! ## What a step does -/

variable (context : EstablishContext)

/-- The members a context keeps. -/
theorem lookup_selectedMember (group current other : ℕ) :
    (context.selectedMember group current).2.selections.lookup other =
      if other = group then some (context.selectedMember group current).1
      else context.selections.lookup other := by
  unfold selectedMember
  split
  next member hmember =>
    split_ifs with h
    · rw [h]
      exact hmember
    · rfl
  next => exact Table.lookup_insert_apply

theorem root_selectedMember (group current : ℕ) :
    (context.selectedMember group current).2.root = context.root := by
  unfold selectedMember
  split <;> rfl

/-- **What a step can do** to the contexts and the resolutions. -/
inductive Change (proxies : List ProxyConfig) (s : Establishing g) :
    EstablishEvent → Establishing g → Prop
  | selected {name member : Bytes} :
    Change proxies s (.select name member)
      { s with selected := (g.select s.selected name member).2 }
  | established {proxy : ℕ} :
    Change proxies s (.establish proxy)
      (s.launch { selections := ∅, root := s.contexts.length } proxy)
  | continued {context proxy : ℕ} {made : EstablishContext} :
    s.contexts[context]? = some made → Change proxies s (.continuation context proxy)
      (s.launch made proxy)
  | called {context proxy id : ℕ} :
    (context, proxy) ∈ s.active → Change proxies s (.resolve context proxy) (s.call context id)
  | answered {context proxy : ℕ} : Change proxies s (.resolve context proxy) s
  | began {context proxy id : ℕ} {config : ProxyConfig} :
    (context, proxy) ∈ s.active → proxies[proxy]? = some config →
    config.dialerProxy = some (.group id) →
    Change proxies s (.resolve context proxy)
      { s with
        resolutions := s.resolutions ++ [{ context, proxy, position := .group id, asked := [] }] }
  | turned {index : ℕ} {resolution : Resolution} {context : EstablishContext}
    {id : Fin g.groups.length} {read : Read} {active : List (ℕ × ℕ)} :
    s.resolutions[index]? = some resolution → resolution.position = .group id →
    s.contexts[resolution.context]? = some context →
    read.member = (context.selectedMember id (s.selected id)).1 →
    read.context = resolution.context → read.root = context.root → read.group = id →
    read.current = s.selected id → readOf (s, .hop index) = some read →
    (∀ call ∈ active, call ∈ s.active ∨ call.1 = resolution.context) →
    Change proxies s (.hop index)
      { s with
        contexts := s.contexts.set resolution.context
          (context.selectedMember id (s.selected id)).2
        active
        resolutions := s.resolutions.set index
          { resolution with
            position := arrive (g.groups.get id).members read.member
            asked := resolution.asked ++ [id.val] } }

/-- A connector that is called next has the context of the resolution. -/
theorem follow_of {P : Establishing g → Prop} {context : ℕ} {prepared : Bool} {position : Position}
    (h : ∀ active, (∀ call ∈ active, call ∈ s.active ∨ call.1 = context) → P { s with active }) :
    P (s.follow context prepared position) := by
  unfold follow
  split
  next leaf =>
    split
    next id _ =>
      exact h _ (forall_mem_concat.mpr ⟨fun _ => .inl, .inr rfl⟩)
    next => exact h _ fun _ => .inl
  next => exact h _ fun _ => .inl

theorem change_of_step {proxies : List ProxyConfig} {prepared : ℕ → Bool}
    (h : s.step proxies prepared event = some t) : Change proxies s event t := by
  cases event with
  | select name member =>
    cases h
    exact .selected
  | establish proxy =>
    cases h
    exact .established
  | continuation context proxy =>
    rw [step] at h
    split_ifs at h
    obtain ⟨made, hmade, rfl⟩ := map_eq_some_iff.mp h
    exact .continued hmade
  | resolve context proxy =>
    rw [step] at h
    split_ifs at h with hactive
    obtain ⟨config, hconfig, rfl⟩ := map_eq_some_iff.mp h
    cases hdialer : config.dialerProxy with
    | none => exact .answered
    | some target =>
      cases target with
      | proxy id => exact .called hactive
      | group id => exact .began hactive hconfig hdialer
  | hop index =>
    rw [step] at h
    split at h
    next => cases h
    next resolution hresolution =>
      split at h
      next => cases h
      next id hposition =>
        split_ifs at h with hid
        obtain ⟨context, hcontext, rfl⟩ := map_eq_some_iff.mp h
        refine follow_of fun active hactive => ?_
        have hread : readOf (s, .hop index) = some
            { context := resolution.context
              root := context.root
              group := id
              member := (context.selectedMember id (s.selected ⟨id, hid⟩)).1
              current := s.selected ⟨id, hid⟩ } := by
          simp only [readOf, hresolution, bind_some, hposition, dif_pos hid, hcontext,
            map_some]
        exact .turned hresolution hposition hcontext rfl rfl rfl rfl rfl hread hactive

variable {proxies : List ProxyConfig}

/-- A context keeps what it has. -/
structure Grows (before after : EstablishContext) : Prop where
  root : after.root = before.root
  lookup : ∀ group member, before.selections.lookup group = some member →
    after.selections.lookup group = some member

theorem Grows.refl : Grows context context :=
  ⟨rfl, fun _ _ h => h⟩

theorem grows_selectedMember (group current : ℕ) :
    Grows context (context.selectedMember group current).2 := by
  refine ⟨root_selectedMember context group current, fun other member h => ?_⟩
  rw [lookup_selectedMember]
  split_ifs with hother
  · subst hother
    unfold selectedMember
    rw [h]
  · exact h

variable {context : EstablishContext}

/-- A context after a launch was there, or is the new one. -/
theorem contexts_launch {fresh after : EstablishContext} {proxy index : ℕ}
    (h : (s.launch fresh proxy).contexts[index]? = some after) :
    s.contexts[index]? = some after ∨ (index = s.contexts.length ∧ fresh = after) := by
  have hfound : (s.contexts ++ [fresh])[index]? = some after := h
  rcases lt_or_ge index s.contexts.length with hlt | hge
  · exact .inl ((getElem?_append_left hlt).symm.trans hfound)
  · rw [getElem?_append_right hge, getElem?_singleton] at hfound
    split_ifs at hfound with hzero
    exact .inr ⟨by omega, some.inj hfound⟩

section

variable (h : Change proxies s event t)

include h

/-- Contexts stay and grow. -/
theorem Change.grows {index : ℕ}
    (hcontext : s.contexts[index]? = some context) :
    ∃ after, t.contexts[index]? = some after ∧ Grows context after := by
  have hlaunch : ∀ fresh proxy, ∃ after,
      (s.launch fresh proxy).contexts[index]? = some after ∧ Grows context after := by
    intro fresh proxy
    have hlt : index < s.contexts.length := (List.getElem?_eq_some_iff.mp hcontext).1
    exact ⟨context, (getElem?_append_left hlt).trans hcontext, .refl _⟩
  cases h with
  | established | continued => exact hlaunch _ _
  | selected | called | answered | began => exact ⟨context, hcontext, .refl _⟩
  | @turned place resolution found id read active _ _ hfound =>
    by_cases hindex : resolution.context = index
    · subst hindex
      cases hfound.symm.trans hcontext
      have hlt := (List.getElem?_eq_some_iff.mp hcontext).1
      exact ⟨_, getElem?_set_self hlt, grows_selectedMember _ _ _⟩
    · exact ⟨context, (getElem?_set_ne hindex).trans hcontext, .refl _⟩

theorem Change.root_eq {index : ℕ} {after : EstablishContext}
    (hcontext : s.contexts[index]? = some context) (hafter : t.contexts[index]? = some after) :
    after.root = context.root := by
  obtain ⟨found, hfound, hgrows⟩ := h.grows hcontext
  cases hfound.symm.trans hafter
  exact hgrows.root

/-- The context has this member of the group. -/
abbrev Has (s : Establishing g) (index group member : ℕ) : Prop :=
  ∃ context, s.contexts[index]? = some context ∧ context.selections.lookup group = some member

theorem Change.kept {index member : ℕ}
    (hkept : Has s index group member) : Has t index group member := by
  obtain ⟨context, hcontext, hlookup⟩ := hkept
  obtain ⟨after, hafter, hgrows⟩ := h.grows hcontext
  exact ⟨after, hafter, hgrows.lookup _ _ hlookup⟩

/-- **Where a context has a member from**: from a context of the same root,
or from a read of its own. -/
theorem Change.gained {index id member : ℕ}
    {after : EstablishContext} (hafter : t.contexts[index]? = some after)
    (hmember : after.selections.lookup id = some member) :
    (∃ (other : ℕ) (context : EstablishContext), s.contexts[other]? = some context ∧
      context.root = after.root ∧ context.selections.lookup id = some member) ∨
    ∃ read, readOf (s, event) = some read ∧ read.context = index ∧ read.root = after.root ∧
      read.group = id ∧ read.member = member := by
  cases h with
  | established =>
    rcases contexts_launch hafter with hbefore | ⟨-, rfl⟩
    · exact .inl ⟨index, after, hbefore, rfl, hmember⟩
    · cases hmember
  | continued hmade =>
    rcases contexts_launch hafter with hbefore | ⟨-, rfl⟩
    · exact .inl ⟨index, after, hbefore, rfl, hmember⟩
    · exact .inl ⟨_, _, hmade, rfl, hmember⟩
  | selected | called | answered | began => exact .inl ⟨index, after, hafter, rfl, hmember⟩
  | @turned place resolution context own read active _ _ hcontext hanswer hplace hroot hgroup _
      hread =>
    rcases of_getElem?_set hafter with ⟨rfl, rfl⟩ | ⟨-, hbefore⟩
    · rw [lookup_selectedMember] at hmember
      rw [root_selectedMember]
      split_ifs at hmember with hid
      · exact .inr ⟨read, hread, hplace, hroot, hgroup.trans hid.symm,
          hanswer.trans (some.inj hmember)⟩
      · exact .inl ⟨_, context, hcontext, rfl, hmember⟩
    · exact .inl ⟨index, after, hbefore, rfl, hmember⟩

end

/-! ## Continuations and the contexts they are made from -/

/-- Every context is the root of its family or was made by a continuation,
which still has what it was made with. -/
structure Traced (history : List (Establishing g × EstablishEvent)) (s : Establishing g) :
    Prop where
  made : ∀ index context, s.contexts[index]? = some context → context.root = index ∨
    ∃ u from' proxy, (u, EstablishEvent.continuation from' proxy) ∈ history ∧
      u.contexts.length = index
  copied : ∀ u from' proxy, (u, EstablishEvent.continuation from' proxy) ∈ history →
    ∃ context made, s.contexts[u.contexts.length]? = some context ∧
      u.contexts[from']? = some made ∧ Grows made context

theorem Traced.init : Traced [] (init g) :=
  ⟨nofun, nofun⟩

theorem Traced.next (hs : Traced history s) (h : Change proxies s event t) :
    Traced (history ++ [(s, event)]) t := by
  refine ⟨fun index after hafter => ?_, fun u from' proxy hmem => ?_⟩
  · by_cases hlt : index < s.contexts.length
    · -- a context that was there keeps its root
      obtain ⟨context, hcontext⟩ : ∃ context, s.contexts[index]? = some context :=
        ⟨_, getElem?_eq_getElem hlt⟩
      rw [h.root_eq hcontext hafter]
      refine (hs.made index context hcontext).imp_right ?_
      rintro ⟨u, from', proxy, hmem, hlength⟩
      exact ⟨u, from', proxy, mem_append_left _ hmem, hlength⟩
    · have hle : t.contexts.length ≤ s.contexts.length → False := fun hle =>
        hlt ((List.getElem?_eq_some_iff.mp hafter).1.trans_le hle)
      have hnew : s.contexts[index]? ≠ some after := fun hold =>
        hlt (List.getElem?_eq_some_iff.mp hold).1
      cases h with
      | established =>
        obtain ⟨hsame, rfl⟩ := (contexts_launch hafter).resolve_left hnew
        exact .inl hsame.symm
      | @continued from' proxy made hmade =>
        obtain ⟨hsame, rfl⟩ := (contexts_launch hafter).resolve_left hnew
        exact .inr ⟨s, from', proxy, mem_concat_self, hsame.symm⟩
      | selected | called | answered | began => exact (hle le_rfl).elim
      | turned => exact (hle (length_set).le).elim
  · rcases mem_append.mp hmem with hmem | hmem
    · obtain ⟨context, made, hcontext, hmade, hgrows⟩ := hs.copied u from' proxy hmem
      obtain ⟨after, hafter, hmore⟩ := h.grows hcontext
      exact ⟨after, made, hafter, hmade, hmore.root.trans hgrows.root,
        fun group member hlookup => hmore.lookup _ _ (hgrows.lookup _ _ hlookup)⟩
    · obtain ⟨rfl, rfl⟩ := Prod.mk.inj (mem_singleton.mp hmem)
      cases h with
      | continued hmade => exact ⟨_, _, getElem?_concat_length, hmade, .refl _⟩

/-! ## The reads of a family -/

/-- The reads of a group in a family agree: they are what the group had
selected at the first, the maps of the family hold nothing else, and the
map of the root holds it. -/
structure Agreed (history : List (Establishing g × EstablishEvent)) (s : Establishing g)
    (root group : ℕ) : Prop where
  reads : ∀ read ∈ family history root group, first history root group = some read.member
  contexts : ∀ (index : ℕ) (context : EstablishContext) (member : ℕ),
    s.contexts[index]? = some context → context.root = root →
    context.selections.lookup group = some member → first history root group = some member
  top : ∀ member, first history root group = some member → ∃ context,
    s.contexts[root]? = some context ∧ context.selections.lookup group = some member

theorem Agreed.init : Agreed [] (init g) root group :=
  ⟨nofun, nofun, nofun⟩

/-- The first read stays the first. -/
theorem first_append : first (history ++ [last]) root group = (first history root group).or
    (((readOf last).filter fun read => read.root = root ∧ read.group = group).map (·.current)) := by
  unfold first
  rw [family_append, head?_append, map_or]
  congr 2
  cases readOf last with
  | none => rfl
  | some read => simp [filter_cons, Option.filter_some, apply_ite head?]

theorem first_append_of_some {member : ℕ} (h : first history root group = some member) :
    first (history ++ [last]) root group = some member := by
  rw [first_append, h, some_or]

/-- **A read of a frozen group agrees with the first.** A context without
the group is the root, before any read of its family. -/
theorem Agreed.read (hs : Agreed history s root group) (htraced : Traced history s)
    (hfrozen : Frozen (history ++ [(s, event)]) root group)
    (h : Change proxies s event t) {read : Read} (hread : readOf (s, event) = some read)
    (hroot : read.root = root) (hgroup : read.group = group) :
    first (history ++ [(s, event)]) root group = some read.member ∧
      Has t root group read.member := by
  have hfamily : read ∈ family (history ++ [(s, event)]) root group :=
    mem_family.mpr ⟨mem_filterMap.mpr ⟨_, mem_concat_self, hread⟩, hroot, hgroup⟩
  have hchange := h
  cases h with
  | @turned index resolution context id found active _ _ hcontext hanswer hplace hfroot hfgroup
      hcurrent hfound =>
    obtain rfl := some.inj (hfound.symm.trans hread)
    have hid : (id : ℕ) = group := hfgroup.symm.trans hgroup
    cases hlookup : context.selections.lookup group with
    | some member =>
      -- the map answers
      have hfirst := hs.contexts _ context member hcontext (hfroot.symm.trans hroot) hlookup
      have hmember : found.member = member := by
        rw [hanswer, selectedMember, hid, hlookup]
      rw [hmember]
      exact ⟨first_append_of_some hfirst, hchange.kept (hs.top _ hfirst)⟩
    | none =>
      have hmember : found.member = found.current := by
        rw [hanswer, hcurrent, selectedMember, hid, hlookup]
      -- a continuation would have the group already
      have hplaced : resolution.context = root := by
        rcases htraced.made _ context hcontext with hown | ⟨u, from', proxy, hmem, hlength⟩
        · rw [← hown, ← hfroot, hroot]
        obtain ⟨made, hmade, hsome⟩ := hfrozen u from' proxy (mem_append_left _ hmem) found
          hfamily (hplace.trans hlength.symm)
        obtain ⟨member, hkept⟩ := isSome_iff_exists.mp hsome
        obtain ⟨copy, origin, hcopy, horigin, hgrows⟩ := htraced.copied u from' proxy hmem
        obtain rfl := some.inj (horigin.symm.trans hmade)
        rw [hlength] at hcopy
        obtain rfl := some.inj (hcopy.symm.trans hcontext)
        rw [hgrows.lookup _ _ hkept] at hlookup
        cases hlookup
      have hnone : first history root group = none := by
        cases hfirst : first history root group with
        | none => rfl
        | some member =>
          obtain ⟨top, htop, hkept⟩ := hs.top _ hfirst
          rw [← hplaced] at htop
          obtain rfl := some.inj (htop.symm.trans hcontext)
          rw [hkept] at hlookup
          cases hlookup
      rw [hmember]
      refine ⟨by simp [first_append, hnone, hread, hroot, hgroup],
        (context.selectedMember id (s.selected id)).2, ?_, ?_⟩
      · have hlt := (List.getElem?_eq_some_iff.mp hcontext).1
        rw [← hplaced]
        exact getElem?_set_self hlt
      · rw [lookup_selectedMember, if_pos hid.symm, ← hanswer, hmember]
  | _ => cases hread

/-- **Every step keeps the agreement** on a frozen group. -/
theorem Agreed.next (hs : Agreed history s root group) (htraced : Traced history s)
    (hfrozen : Frozen (history ++ [(s, event)]) root group) (h : Change proxies s event t) :
    Agreed (history ++ [(s, event)]) t root group := by
  refine ⟨fun read hread => ?_, fun index after member hafter hroot hlookup => ?_,
    fun member hfirst => ?_⟩
  · rw [family_append, mem_append] at hread
    rcases hread with hread | hread
    · exact first_append_of_some (hs.reads read hread)
    · obtain ⟨hmem, hprops⟩ := mem_filter.mp hread
      obtain ⟨hroot, hgroup⟩ := of_decide_eq_true hprops
      exact (hs.read htraced hfrozen h (mem_toList.mp hmem) hroot hgroup).1
  · rcases h.gained hafter hlookup with ⟨other, context, hcontext, hsame, hkept⟩ |
      ⟨read, hread, -, hsame, hgroup, hmember⟩
    · exact first_append_of_some (hs.contexts _ _ _ hcontext (hsame.trans hroot) hkept)
    · rw [← hmember]
      exact (hs.read htraced hfrozen h hread (hsame.trans hroot) hgroup).1
  cases hbefore : first history root group with
  | some before =>
    rw [first_append_of_some hbefore] at hfirst
    cases hfirst
    exact h.kept (hs.top _ hbefore)
  | none =>
    -- the first read is the one of this step
    have hnow := hfirst
    rw [first_append, hbefore, none_or] at hnow
    obtain ⟨read, hread, -⟩ := map_eq_some_iff.mp hnow
    obtain ⟨hread, hprops⟩ := filter_eq_some_iff.mp hread
    obtain ⟨hroot, hgroup⟩ := of_decide_eq_true hprops
    obtain ⟨hthis, htop⟩ := hs.read htraced hfrozen h hread hroot hgroup
    cases hthis.symm.trans hfirst
    exact htop

/-! ## Resolutions end -/

/-- Where a resolution is: at a group with fewer groups below it than there
are left to ask, or at a leaf. -/
def Placed (g : ProxyGroups D) (rank : ℕ → ℕ) (resolution : Resolution) : Prop :=
  match resolution.position with
  | .group id => id < g.groups.length ∧ resolution.asked.length + rank id < g.groups.length
  | .done result => ∃ leaf, result = .ok leaf ∧ resolution.asked.length ≤ g.groups.length

/-- Every index points at a member, in the groups and in the contexts, and
every resolution is placed. -/
structure Sound (rank : ℕ → ℕ) (s : Establishing g) : Prop where
  valid : g.Valid s.selected
  members : ∀ (index : ℕ) (context : EstablishContext), s.contexts[index]? = some context →
    ∀ (id : Fin g.groups.length) (member : ℕ), context.selections.lookup id.val = some member →
      member < (g.groups.get id).members.length
  active : ∀ call ∈ s.active, call.1 < s.contexts.length
  contexts : ∀ resolution ∈ s.resolutions, resolution.context < s.contexts.length
  placed : ∀ resolution ∈ s.resolutions, Placed g rank resolution

variable {rank : ℕ → ℕ}

theorem Sound.init (hwf : g.WellFormed) : Sound rank (init g) :=
  ⟨hwf.initial_lt, nofun, nofun, nofun,
    nofun⟩

/-- What a member leads to: another group, or a leaf that is reached. -/
theorem arrive_cases {members : List ProxyGroupMemberConfig} {selected : ℕ}
    {member : ProxyGroupMemberConfig} (h : members[selected]? = some member) :
    (∃ next, member.target = .route (.group next) ∧ arrive members selected = .group next) ∨
    ∃ leaf, arrive members selected = .done (.ok leaf) ∧
      ∀ next id, next id member.target → Reaches next id leaf := by
  unfold arrive
  rw [h]
  dsimp only
  cases htarget : member.target with
  | direct => exact .inr ⟨.direct, rfl, fun _ _ => .direct⟩
  | reject => exact .inr ⟨.reject, rfl, fun _ _ => .reject⟩
  | route target =>
    cases target with
    | proxy id => exact .inr ⟨.proxy id, rfl, fun _ _ => .proxy⟩
    | group next => exact .inl ⟨next, rfl, rfl⟩

/-- The answer of a context points at a member. -/
theorem Sound.answer (hs : Sound rank s) {index : ℕ}
    (hcontext : s.contexts[index]? = some context) (id : Fin g.groups.length) :
    (context.selectedMember id (s.selected id)).1 < (g.groups.get id).members.length := by
  unfold selectedMember
  split
  next member hmember => exact hs.members index context hcontext id member hmember
  next => exact hs.valid id

section Rank

variable {rank : ℕ → ℕ} (hwf : g.WellFormed)
  (hbound : ∀ id, id < g.groups.length → rank id < g.groups.length)
  (hrank : ∀ id, ∀ member ∈ (g.groups.get id).members, ∀ inner,
    member.target = .route (.group inner) → rank inner < rank id)
  (hdialers : ∀ (proxy : ℕ) (config : ProxyConfig) (id : ℕ), proxies[proxy]? = some config →
    config.dialerProxy = some (.group id) → id < g.groups.length)

include hwf hrank in
/-- A turn asks one group more, and goes down in rank. -/
theorem Placed.turn {resolution : Resolution} {id : Fin g.groups.length} {selected : ℕ}
    (h : Placed g rank resolution) (hposition : resolution.position = .group id)
    (hselected : selected < (g.groups.get id).members.length) :
    Placed g rank { resolution with
      position := arrive (g.groups.get id).members selected
      asked := resolution.asked ++ [id.val] } := by
  have hroom : resolution.asked.length + rank id < g.groups.length := by
    unfold Placed at h
    rw [hposition] at h
    exact h.2
  have hget := getElem?_eq_getElem hselected
  have hmem := mem_of_getElem? hget
  unfold Placed
  rcases arrive_cases hget with ⟨next, htarget, harrive⟩ | ⟨leaf, harrive, -⟩
  · have hdown := hrank id _ hmem next htarget
    have hrange := hwf.target_inRange id _ hmem
    rw [htarget] at hrange
    rw [harrive]
    refine ⟨hrange, ?_⟩
    rw [length_append, length_singleton]
    omega
  · rw [harrive]
    refine ⟨leaf, rfl, ?_⟩
    rw [length_append, length_singleton]
    omega

/-- Contexts are only added. -/
theorem Change.length_le (h : Change proxies s event t) : s.contexts.length ≤ t.contexts.length := by
  by_contra hlt
  have hcontext := getElem?_eq_getElem (Nat.lt_of_not_le hlt)
  obtain ⟨after, hafter, -⟩ := h.grows hcontext
  exact absurd (List.getElem?_eq_some_iff.mp hafter).1 (lt_irrefl _)

include hwf hbound hrank hdialers in
/-- **Every step keeps the resolutions placed.** -/
theorem Sound.next (hs : Sound rank s) (h : Change proxies s event t) : Sound rank t := by
  have hle := h.length_le
  have hmembers : ∀ (index : ℕ) (context : EstablishContext), t.contexts[index]? = some context →
      ∀ (id : Fin g.groups.length) (member : ℕ), context.selections.lookup id.val = some member →
        member < (g.groups.get id).members.length := by
    intro index after hafter id member hlookup
    rcases h.gained hafter hlookup with ⟨other, context, hcontext, -, hkept⟩ |
      ⟨read, hread, -, -, hgroup, hmember⟩
    · exact hs.members other context hcontext id member hkept
    cases h with
    | @turned place resolution context own found active _ _ hcontext hanswer _ _ hown _ hfound =>
      cases hfound.symm.trans hread
      obtain rfl : own = id := Fin.ext (hown.symm.trans hgroup)
      rw [← hmember, hanswer]
      exact hs.answer hcontext own
    | _ => cases hread
  have hlaunch : ∀ fresh proxy, ∀ call ∈ (s.launch fresh proxy).active,
      call.1 < (s.launch fresh proxy).contexts.length := by
    intro fresh proxy
    show ∀ call ∈ s.active ++ [(s.contexts.length, proxy)], call.1 < (s.contexts ++ [fresh]).length
    rw [length_append, length_singleton]
    exact forall_mem_concat.mpr ⟨fun call hcall => (hs.active call hcall).trans (lt_succ_self _),
      lt_succ_self _⟩
  have hcontexts : ∀ resolution ∈ s.resolutions, resolution.context < t.contexts.length :=
    fun resolution hmem => (hs.contexts resolution hmem).trans_le hle
  cases h with
  | @selected name member =>
    exact ⟨hs.valid.select name member, hmembers, hs.active, hs.contexts, hs.placed⟩
  | established | continued => exact ⟨hs.valid, hmembers, hlaunch _ _, hcontexts, hs.placed⟩
  | called hactive =>
    have hcontext := hs.active _ hactive
    exact ⟨hs.valid, hmembers, forall_mem_concat.mpr ⟨hs.active, hcontext⟩, hs.contexts, hs.placed⟩
  | answered => exact hs
  | @began context proxy id config hactive hconfig hdialer =>
    have hid := hdialers proxy config id hconfig hdialer
    have hcontext := hs.active _ hactive
    refine ⟨hs.valid, hmembers, hs.active, forall_mem_concat.mpr ⟨hs.contexts, hcontext⟩,
      forall_mem_concat.mpr ⟨hs.placed, hid, ?_⟩⟩
    rw [length_nil, zero_add]
    exact hbound id hid
  | @turned index resolution context id read active hresolution hposition hcontext hanswer _ _ _ _ _
      hactive =>
    have hmem := mem_of_getElem? hresolution
    refine ⟨hs.valid, hmembers, fun call hcall => ?_, fun other hother => ?_, fun other hother => ?_⟩
    · show call.1 < (s.contexts.set _ _).length
      rw [length_set]
      rcases hactive call hcall with hcall | hcall
      · exact hs.active call hcall
      · rw [hcall]
        exact hs.contexts _ hmem
    · rcases mem_or_eq_of_mem_set hother with hother | rfl
      · exact hcontexts _ hother
      · exact hcontexts resolution hmem
    · rcases mem_or_eq_of_mem_set hother with hother | rfl
      · exact hs.placed _ hother
      · exact (hs.placed _ hmem).turn hwf hrank hposition (hanswer ▸ hs.answer hcontext id)

end Rank

/-! ## The leaf of a group -/

/-- The target of a member that was read of a group in a family. -/
def Chosen (history : List (Establishing g × EstablishEvent)) (root id : ℕ)
    (target : ProxyGroupMemberTarget) : Prop :=
  ∃ read ∈ family history root id, ∃ (h : id < g.groups.length) (member : ProxyGroupMemberConfig),
    (g.groups.get ⟨id, h⟩).members[read.member]? = some member ∧ member.target = target

theorem Chosen.append {id : ℕ}
    {target : ProxyGroupMemberTarget} (h : Chosen history root id target) :
    Chosen (history ++ [last]) root id target := by
  obtain ⟨read, hread, hmember⟩ := h
  refine ⟨read, ?_, hmember⟩
  rw [family_append]
  exact mem_append_left _ hread

/-- The groups a resolution asked lead to where it is, along the members
that were read. -/
def Leads (history : List (Establishing g × EstablishEvent)) (root : ℕ)
    (resolution : Resolution) : Prop :=
  match resolution.position with
  | .group id => ∀ asked ∈ resolution.asked, ∀ next : ℕ → ProxyGroupMemberTarget → Prop,
    (∀ a target, Chosen history root a target → next a target) →
      ∀ leaf, Reaches next id leaf → Reaches next asked leaf
  | .done result => ∀ asked ∈ resolution.asked, ∀ leaf, result = .ok leaf →
    Reaches (Chosen history root) asked leaf

theorem Leads.append {resolution : Resolution}
    (h : Leads history root resolution) : Leads (history ++ [last]) root resolution := by
  unfold Leads at h ⊢
  split at h
  next id _ =>
    intro asked hasked next hnext
    exact h asked hasked next fun a target hchosen => hnext a target hchosen.append
  next result _ =>
    intro asked hasked leaf hleaf
    exact (h asked hasked leaf hleaf).mono fun _ _ => Chosen.append

/-- Every resolution follows the members that were read in its family. -/
def Followed (history : List (Establishing g × EstablishEvent)) (s : Establishing g) : Prop :=
  ∀ resolution ∈ s.resolutions, ∀ context, s.contexts[resolution.context]? = some context →
    Leads history context.root resolution

theorem Followed.next (hs : Followed history s) (hsound : Sound rank s)
    (h : Change proxies s event t) : Followed (history ++ [(s, event)]) t := by
  -- a resolution that was there stays in its family
  have hstays : ∀ resolution ∈ s.resolutions, ∀ after,
      t.contexts[resolution.context]? = some after →
      Leads (history ++ [(s, event)]) after.root resolution := by
    intro resolution hmem after hafter
    have hcontext := getElem?_eq_getElem (hsound.contexts resolution hmem)
    rw [h.root_eq hcontext hafter]
    exact (hs resolution hmem _ hcontext).append
  intro resolution hmem after hafter
  have hchange := h
  cases h with
  | selected | established | continued | called | answered => exact hstays _ hmem _ hafter
  | began =>
    rcases mem_concat.mp hmem with hmem | rfl
    · exact hstays _ hmem _ hafter
    · exact nofun
  | @turned index turning context id read active hturning hposition hcontext hanswer hplace hroot
      hgroup _ hread =>
    rcases mem_or_eq_of_mem_set hmem with hmem | rfl
    · exact hstays _ hmem _ hafter
    -- the member that is read is chosen from now on
    have hturned := mem_of_getElem? hturning
    have hafterRoot := hchange.root_eq hcontext hafter
    have hselected : read.member < (g.groups.get id).members.length :=
      hanswer ▸ hsound.answer hcontext id
    have hget := getElem?_eq_getElem hselected
    have hchosen : ∀ member, (g.groups.get id).members[read.member]? = some member →
        Chosen (history ++ [(s, .hop index)]) after.root id member.target := by
      intro member hmember
      refine ⟨read, mem_family.mpr ⟨mem_filterMap.mpr ⟨_, mem_concat_self, hread⟩, ?_, hgroup⟩,
        id.isLt, member, hmember, rfl⟩
      rw [hroot, hafterRoot]
    have hbefore := hstays _ hturned after hafter
    unfold Leads at hbefore ⊢
    rw [hposition] at hbefore
    rcases arrive_cases hget with ⟨inner, htarget, harrive⟩ | ⟨leaf, harrive, hreaches⟩
    · rw [harrive]
      intro asked hasked next hnext leaf hleaf
      have hhere : Reaches next id leaf :=
        .group (htarget ▸ hnext _ _ (hchosen _ hget)) hleaf
      rcases mem_concat.mp hasked with hasked | rfl
      · exact hbefore asked hasked next hnext leaf hhere
      · exact hhere
    · rw [harrive]
      intro asked hasked found hfound
      cases hfound
      have hhere := hreaches _ id.val (hchosen _ hget)
      rcases mem_concat.mp hasked with hasked | rfl
      · exact hbefore asked hasked _ (fun _ _ h => h) leaf hhere
      · exact hhere

/-! ## Runs -/

/-- The runs of what is established from a state, over these dialers. -/
def RunsFrom (proxies : List ProxyConfig) (prepared : ℕ → Bool) :
    Establishing g → List (Establishing g × EstablishEvent) → Establishing g → Prop :=
  Run fun s event t => s.step proxies prepared event = some t

variable {prepared : ℕ → Bool}

theorem RunsFrom.traced (h : RunsFrom proxies prepared (init g) history t) : Traced history t := by
  induction h with
  | start => exact .init
  | next _ hstep ih => exact ih.next (change_of_step hstep)

theorem RunsFrom.agreed (h : RunsFrom proxies prepared (init g) history t)
    (hfrozen : Frozen history root group) : Agreed history t root group := by
  induction h with
  | start => exact .init
  | next hrun hstep ih =>
    exact (ih hfrozen.before).next (RunsFrom.traced hrun) hfrozen (change_of_step hstep)

/-- A context answers what it has. -/
theorem RunsFrom.answers (h : RunsFrom proxies prepared s history t) {index member : ℕ}
    (hhas : Has s index group member) {read : Read} (hread : read ∈ reads history)
    (hindex : read.context = index) (hgroup : read.group = group) : read.member = member := by
  obtain ⟨⟨u, event⟩, hmem, hof⟩ := mem_filterMap.mp hread
  obtain ⟨past, -, v, -, hpast, hstep⟩ := Run.of_mem h hmem
  obtain ⟨after, hafter, hkept⟩ := Run.invariant (I := (Has · index group member)) hpast hhas
    fun _ _ _ hkept hstep => (change_of_step hstep).kept hkept
  cases change_of_step hstep with
  | @turned place resolution found id own active _ _ hfound hanswer hplace _ hown _ hself =>
    cases hself.symm.trans hof
    have hsame : resolution.context = index := hplace.symm.trans hindex
    have hid : (id : ℕ) = group := hown.symm.trans hgroup
    rw [hsame] at hfound
    cases hfound.symm.trans hafter
    rw [hanswer, selectedMember, hid, hkept]
  | _ => cases hof

/-- **One establishment sees one selection.** Take dialers and groups whose
graph is accepted, and any run. All reads of a group in a context and its
continuations answer what the group had selected at the first of them,
where the continuations only resolve it if the context they were made from
had; and all resolutions through such groups that share a group come to the
same leaf. A context that has resolved a group answers the same ever after,
whatever is selected. And every resolution asks each group on its way and
ends at a leaf. -/
theorem one_selection {dialers : List ProxyConfig} {configs : List SelectProxyGroupConfig}
    {order : List RouteTargetId} {nodes : List D} {direct reject : D} {g : ProxyGroups D}
    {history : List (Establishing g × EstablishEvent)} {t : Establishing g}
    (hgraph : Config.proxyGraphOrder dialers configs = .ok order)
    (hbuild : withSelections configs nodes direct reject (configs.map (·.initialMember)) = .ok g)
    (h : RunsFrom dialers prepared (init g) history t) :
    (∀ root group, Frozen history root group → ∀ read ∈ family history root group,
      first history root group = some read.member) ∧
    (∀ root, (∀ group, Frozen history root group) → ∀ a ∈ t.resolutions, ∀ b ∈ t.resolutions,
      ∀ context context' group leaf leaf',
        t.contexts[a.context]? = some context → context.root = root →
        t.contexts[b.context]? = some context' → context'.root = root →
        group ∈ a.asked → group ∈ b.asked → a.position = .done (.ok leaf) →
        b.position = .done (.ok leaf') → leaf = leaf') ∧
    (∀ (index : ℕ) (context : EstablishContext) (group member : ℕ),
      t.contexts[index]? = some context → context.selections.lookup group = some member →
      ∀ later u, RunsFrom dialers prepared t later u → ∀ read ∈ reads later,
        read.context = index → read.group = group → read.member = member) ∧
    (∀ (index : ℕ) (resolution : Resolution), t.resolutions[index]? = some resolution →
      resolution.asked.length ≤ configs.length ∧
      ((∃ leaf, resolution.position = .done (.ok leaf)) ∨
        ∃ u, t.step dialers prepared (.hop index) = some u)) := by
  obtain ⟨hgroups, hwf⟩ := withSelections_ok hbuild
  subst hgroups
  obtain ⟨rank, hbound, hrank⟩ := Config.exists_groupRank hgraph
  have hdialers : ∀ (proxy : ℕ) (config : ProxyConfig) (id : ℕ), dialers[proxy]? = some config →
      config.dialerProxy = some (.group id) → id < g.groups.length := by
    intro proxy config id hconfig hdialer
    rcases Config.proxyGraphOrder_cases dialers g.groups with ⟨message, herr, -⟩ | ⟨-, -, hrange, -⟩
    · rw [herr] at hgraph
      cases hgraph
    · exact hrange (.proxy proxy) (.group id) ⟨config, hconfig, hdialer⟩
  have hsound : ∀ {history : List (Establishing g × EstablishEvent)} {t : Establishing g},
      RunsFrom dialers prepared (init g) history t → Sound rank t := by
    intro history t h
    exact Run.invariant h (.init hwf) fun _ _ _ hs hstep =>
      hs.next hwf hbound hrank hdialers (change_of_step hstep)
  have hfollowed : Followed history t := by
    induction h with
    | start => exact nofun
    | next hrun hstep ih => exact ih.next (hsound hrun) (change_of_step hstep)
  refine ⟨fun root group hfrozen => (h.agreed hfrozen).reads, ?_,
    fun index context group member hcontext hlookup later u hlater read hread hindex hgroup =>
      hlater.answers ⟨context, hcontext, hlookup⟩ hread hindex hgroup, ?_⟩
  · intro root hfrozen a ha b hb context context' group leaf leaf' hcontext hroot hcontext' hroot'
      hasked hasked' hleaf hleaf'
    -- a frozen group has one member in the family
    have hunique : ∀ id target target', Chosen history root id target →
        Chosen history root id target' → target = target' := by
      rintro id target target' ⟨read, hread, hid, member, hmember, rfl⟩
        ⟨read', hread', _, member', hmember', rfl⟩
      have hreads := (h.agreed (hfrozen id)).reads
      have hsame := some.inj ((hreads read hread).symm.trans (hreads read' hread'))
      rw [hsame] at hmember
      rw [some.inj (hmember.symm.trans hmember')]
    have hfirst := hfollowed a ha context hcontext
    have hsecond := hfollowed b hb context' hcontext'
    unfold Leads at hfirst hsecond
    rw [hleaf, hroot] at hfirst
    rw [hleaf', hroot'] at hsecond
    exact (hfirst group hasked leaf rfl).unique hunique (hsecond group hasked' leaf' rfl)
  · intro index resolution hresolution
    have hmem := mem_of_getElem? hresolution
    have hplaced := (hsound h).placed resolution hmem
    have hcontext := getElem?_eq_getElem ((hsound h).contexts resolution hmem)
    unfold Placed at hplaced
    cases hposition : resolution.position with
    | group id =>
      rw [hposition] at hplaced
      refine ⟨(le_add_right _ _).trans hplaced.2.le, .inr ?_⟩
      simp only [step, hresolution, hposition, dif_pos hplaced.1, hcontext, map_some]
      exact ⟨_, rfl⟩
    | done result =>
      rw [hposition] at hplaced
      obtain ⟨leaf, rfl, hle⟩ := hplaced
      exact ⟨hle, .inl ⟨leaf, rfl⟩⟩

/-! ## Samples -/

/-- A node that dials through another, which dials through a group of two. -/
def sampleDialers : List ProxyConfig :=
  [⟨some (.proxy 1)⟩, ⟨some (.group 0)⟩, ⟨none⟩, ⟨none⟩]

def sampleConfigs : List SelectProxyGroupConfig :=
  [⟨Bytes.ofString "group", [⟨Bytes.ofString "first", .route (.proxy 2)⟩,
    ⟨Bytes.ofString "second", .route (.proxy 3)⟩], 0⟩]

/-- The groups that `with_selections` makes of them. -/
def sampleGroups : ProxyGroups ℕ where
  proxies := [0, 1, 2, 3]
  direct := 4
  reject := 5
  groups := sampleConfigs
  idsByName := [(Bytes.ofString "group", ⟨0, by decide⟩)]

theorem sampleGroups_build :
    Config.proxyGraphOrder sampleDialers sampleConfigs =
      .ok [.proxy 2, .proxy 3, .group 0, .proxy 1, .proxy 0] ∧
    withSelections sampleConfigs [0, 1, 2, 3] 4 5 (sampleConfigs.map (·.initialMember)) =
      .ok sampleGroups := by
  constructor
  · decide
  · rfl

/-- A connection through the first node. The second reuses a session, so
nothing asks the group. Then two more paths are opened, each with a
continuation and a new session of the second node; and the selection
changes in between. -/
def sampleHops : List EstablishEvent :=
  [.establish 0, .resolve 0 0, .continuation 0 0,
    .continuation 1 0, .resolve 2 0, .resolve 2 1, .hop 0,
    .select (Bytes.ofString "group") (Bytes.ofString "second"),
    .continuation 1 0, .resolve 3 0, .resolve 3 1, .hop 1]

/-- **Two continuations of one context answer differently.** -/
theorem selections_differ :
    (∃ order, Config.proxyGraphOrder sampleDialers sampleConfigs = .ok order) ∧
    withSelections sampleConfigs [0, 1, 2, 3] 4 5 (sampleConfigs.map (·.initialMember)) =
      .ok sampleGroups ∧
    ∃ history t, RunsFrom sampleDialers (fun _ => true) (init sampleGroups) history t ∧
      ∃ a ∈ reads history, ∃ b ∈ reads history,
        a.root = b.root ∧ a.group = b.group ∧ a.member ≠ b.member := by
  refine ⟨⟨_, sampleGroups_build.1⟩, sampleGroups_build.2, ?_⟩
  have hexec : (exec (fun s => step s sampleDialers fun _ => true) (init sampleGroups)
      sampleHops).isSome = true := by decide +kernel
  obtain ⟨t, ht⟩ := isSome_iff_exists.mp hexec
  have hreads : reads (trail (fun s => step s sampleDialers fun _ => true) (init sampleGroups)
      sampleHops) = [⟨2, 0, 0, 0, 0⟩, ⟨3, 0, 0, 1, 1⟩] := by decide +kernel
  refine ⟨_, t, exec_run ht, ⟨2, 0, 0, 0, 0⟩, ?_, ⟨3, 0, 0, 1, 1⟩, ?_, rfl, rfl, by decide⟩ <;>
    rw [hreads] <;> simp

/-- A connection that asks the group, and another path after the selection
has changed. -/
def sampleFrozen : List EstablishEvent :=
  [.establish 0, .resolve 0 0, .resolve 0 1, .hop 0,
    .select (Bytes.ofString "group") (Bytes.ofString "second"),
    .continuation 0 0, .resolve 1 0, .resolve 1 1, .hop 1]

/-- The check of `Frozen` at one step. -/
def frozenAt (history : List (Establishing g × EstablishEvent)) (root group : ℕ) :
    Establishing g × EstablishEvent → Bool
  | (u, .continuation context _) => (family history root group).all fun read =>
    read.context != u.contexts.length ||
      (u.contexts[context]?).any fun made => (made.selections.lookup group).isSome
  | _ => true

theorem frozen_of_all (h : history.all (frozenAt history root group) = true) :
    Frozen history root group := by
  intro u context proxy hmem read hread hcontext
  have hcheck := all_eq_true.mp (all_eq_true.mp h _ hmem) read hread
  rw [hcontext, bne_self_eq_false, Bool.false_or] at hcheck
  obtain ⟨made, hmade, hsome⟩ := (any_eq_true _ _).mp hcheck
  exact ⟨made, hmade, hsome⟩

/-- Both paths read the first member. -/
theorem one_selection_sample :
    ∃ history t, RunsFrom sampleDialers (fun _ => true) (init sampleGroups) history t ∧
      reads history = [⟨0, 0, 0, 0, 0⟩, ⟨1, 0, 0, 0, 1⟩] ∧
      first history 0 0 = some 0 := by
  have hexec : (exec (fun s => step s sampleDialers fun _ => true) (init sampleGroups)
      sampleFrozen).isSome = true := by decide +kernel
  obtain ⟨t, ht⟩ := isSome_iff_exists.mp hexec
  have hreads : reads (trail (fun s => step s sampleDialers fun _ => true) (init sampleGroups)
      sampleFrozen) = [⟨0, 0, 0, 0, 0⟩, ⟨1, 0, 0, 0, 1⟩] := by decide +kernel
  have hfrozen : Frozen (trail (fun s => step s sampleDialers fun _ => true) (init sampleGroups)
      sampleFrozen) 0 0 := frozen_of_all (by decide +kernel)
  have hrun := exec_run ht
  refine ⟨_, t, hrun, hreads, ?_⟩
  refine (one_selection sampleGroups_build.1 sampleGroups_build.2 hrun).1 0 0 hfrozen
    ⟨1, 0, 0, 0, 1⟩ (mem_family.mpr ⟨?_, rfl, rfl⟩)
  rw [hreads]
  simp

end Establishing

end Vole.Outbound
