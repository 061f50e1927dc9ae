import Vole.Socks5.Model.Association

/-!
# Isolation of SOCKS5 UDP associations

An entry moves to another key when its source is learned, and its lease
finds it by the source they share. So the registry keeps that the key of an
entry is that source: two entries of one lease would be one, and a lease
finds its own entry or none. What a step can do is said once (`Change`);
the claims on sources, replies and lifetimes are read off it.
-/

namespace Vole.Socks5

open Option List Function Bool

namespace Associations

variable {s t : Associations} {event : AssociationEvent}

/-! ## What a step does -/

/-- What an association shares only wears out: its source stays, its token
and its channel do not come back, and its queue gains nothing. -/
structure Worn (before after : Shared) : Prop where
  source : after.source = before.source
  cancelled : before.cancelled = true → after.cancelled = true
  closed : before.closed = true → after.closed = true
  queue : after.queue <:+ before.queue

theorem Worn.refl (shared : Shared) : Worn shared shared :=
  ⟨rfl, id, id, suffix_rfl⟩

/-- A step that brings nothing new: entries go, and only their own lease or
their age takes them. -/
structure Fades (s : Associations) (event : AssociationEvent) (t : Associations) : Prop where
  kept : ∀ key entry, t.entries.lookup key = some entry → s.entries.lookup key = some entry
  lost : ∀ key entry, s.entries.lookup key = some entry → t.entries.lookup key = some entry ∨
    event = .drop entry.lease ∨ ∃ now, event.now? = some now ∧ s.expired entry now = true
  shared : ∀ lease, Worn (s.shared lease) (t.shared lease)
  registered : t.registered = s.registered
  replies : t.replies = s.replies

/-- **What a step can do.** -/
inductive Change (s : Associations) : AssociationEvent → Associations → Prop
  | fades {event : AssociationEvent} {t : Associations} : Fades s event t → Change s event t
  | entered {base : Associations} {peer : PeerAddr} {port : UInt16} {now : ℕ} :
    Fades s (.register peer port now) base → base.entries.lookup (peer.setPort port) = none →
    Change s (.register peer port now) (base.enter (peer.setPort port) now)
  | delivered {source : PeerAddr} {remote : Destination} {payload : Bytes} {now : ℕ}
    {entry : Entry} :
    s.entries.lookup (s.keyFor source) = some entry → s.expired entry now = false →
    Change s (.enqueue source (some (remote, payload)) false now)
      (s.deliver (s.keyFor source) source entry remote payload now)
  | replied {lease count now : ℕ} {packet : Bytes} {entry : Entry}
    {entries : Table PeerAddr Entry} :
    s.entries.lookup (s.shared lease).source = some entry → entry.lease = lease →
    s.expired entry now = false → (s.shared lease).source.port ≠ 0 →
    (entries = s.entries ∨
      entries = s.entries.insert (s.shared lease).source { entry with lastActivity := now }) →
    Change s (.tryReply lease packet (.ok count) now)
      { s with
        entries
        replies := s.replies ++ [{ lease, target := (s.shared lease).source, packet }] }

section Fading

theorem Fades.refl : Fades s event s :=
  ⟨fun _ _ h => h, fun _ _ h => .inl h, fun _ => .refl _, rfl, rfl⟩

/-- A change of what is shared, that only wears it out. -/
theorem Fades.share {lease : ℕ} {f : Shared → Shared}
    (hf : Worn (s.shared lease) (f (s.shared lease))) : Fades s event (s.share lease f) := by
  refine ⟨fun _ _ h => h, fun _ _ h => .inl h, fun other => ?_, rfl, rfl⟩
  by_cases hother : other = lease
  · subst hother
    simpa [Associations.share] using hf
  · simpa [Associations.share, hother] using Worn.refl _

theorem Fades.cancel (lease : ℕ) : Fades s event (s.cancel lease) :=
  .share ⟨rfl, fun _ => rfl, id, suffix_rfl⟩

theorem Fades.close (lease : ℕ) : Fades s event (s.close lease) :=
  .share ⟨rfl, id, fun _ => rfl, suffix_rfl⟩

theorem lookup_remove {key other : PeerAddr} :
    (s.remove key).entries.lookup other = if other = key then none else s.entries.lookup other :=
  Table.lookup_erase_apply

/-- The removal of an entry that its lease drops or that has expired. -/
theorem Fades.remove (h : Fades s event t) {key : PeerAddr} {entry : Entry}
    (hentry : s.entries.lookup key = some entry)
    (hlost : event = .drop entry.lease ∨
      ∃ now, event.now? = some now ∧ s.expired entry now = true) :
    Fades s event (t.remove key) := by
  refine ⟨fun other found hfound => ?_, fun other found hfound => ?_, h.shared, h.registered,
    h.replies⟩
  · rw [lookup_remove] at hfound
    split_ifs at hfound
    exact h.kept _ _ hfound
  rw [lookup_remove]
  split_ifs with hother
  · -- this is the entry that goes
    obtain rfl : entry = found := some.inj (hentry.symm.trans (hother ▸ hfound))
    exact .inr hlost
  · exact h.lost _ _ hfound

theorem cleanup_fades (now : ℕ) : Fades s (.cleanup now) (s.cleanup now) := by
  refine ⟨fun key entry h => ?_, fun key entry h => ?_, fun lease => ?_, rfl, rfl⟩
  · have hretain := h
    rw [cleanup, Table.lookup_retain, filter_eq_some_iff] at hretain
    exact hretain.1
  · cases hexpired : s.expired entry now with
    | true => exact .inr (.inr ⟨now, rfl, hexpired⟩)
    | false =>
      refine .inl ?_
      rw [cleanup, Table.lookup_retain, filter_eq_some_iff]
      exact ⟨h, by rw [hexpired]; rfl⟩
  · unfold cleanup
    dsimp only
    split_ifs
    · exact ⟨rfl, fun _ => rfl, id, suffix_rfl⟩
    · exact .refl _

theorem drop_fades (lease : ℕ) : Fades s (.drop lease) (s.drop lease) := by
  unfold drop
  dsimp only
  split_ifs with h
  · obtain ⟨entry, hentry, hlease⟩ := (any_eq_true _ _).mp h
    have hdrop : AssociationEvent.drop lease = .drop entry.lease := by
      rw [eq_of_beq hlease]
    -- the token is another object than the map
    have hcancel : Fades s (.drop lease) ((s.cancel lease).remove (s.shared lease).source) :=
      (Fades.cancel lease).remove hentry (.inl hdrop)
    exact hcancel
  · exact .cancel lease

end Fading

theorem register_change (peer : PeerAddr) (port : UInt16) (now : ℕ) :
    Change s (.register peer port now) (s.register peer port now).2 := by
  unfold register
  dsimp only
  split
  next hnone => exact .entered .refl hnone
  next entry hentry =>
    split_ifs with hexpired
    · exact .fades .refl
    · have hgone : s.expired entry now = true := by simpa using hexpired
      refine .entered ((Fades.cancel entry.lease).remove hentry (.inr ⟨now, rfl, hgone⟩)) ?_
      rw [lookup_remove, if_pos rfl]

theorem enqueue_change (source : PeerAddr) (decoded : Option (Destination × Bytes))
    (closes : Bool) (now : ℕ) :
    Change s (.enqueue source decoded closes now) (s.enqueue source decoded closes now) := by
  unfold enqueue
  split
  next => exact .fades .refl
  next remote payload =>
    dsimp only
    split
    next => exact .fades .refl
    next entry hentry =>
      split_ifs with hexpired hcloses hfull hfull
      · exact .fades ((Fades.cancel entry.lease).remove hentry (.inr ⟨now, rfl, hexpired⟩))
      · exact .fades (.close entry.lease)
      · -- a channel that is closed has no permit
        simp [close, share] at hfull
      · exact .fades .refl
      · have hopen : closes = false := by simpa using hcloses
        rw [hopen]
        exact .delivered hentry (by simpa using hexpired)

theorem tryReply_change (lease : ℕ) (packet : Bytes) (written : Except String ℕ) (now : ℕ) :
    Change s (.tryReply lease packet written now) (s.tryReply lease packet written now).2 := by
  unfold tryReply
  dsimp only
  split
  next => exact .fades .refl
  next entry hfound =>
    obtain ⟨hentry, hvalid⟩ := filter_eq_some_iff.mp hfound
    obtain ⟨hlease, hexpired⟩ := and_eq_true_iff.mp hvalid
    have hlive : s.expired entry now = false := by simpa using hexpired
    split_ifs with hport
    · exact .fades .refl
    cases written with
    | error text => exact .fades .refl
    | ok count =>
      dsimp only
      split_ifs
      · exact .replied hentry (eq_of_beq hlease) hlive hport (.inl rfl)
      · exact .replied hentry (eq_of_beq hlease) hlive hport (.inr rfl)

/-- **Every step is one of these changes**, at a time that is not before the
last. -/
theorem change_of_step (h : s.step event = some t) :
    s.clock ≤ t.clock ∧ event.now?.getD s.clock = t.clock ∧
    event.lease?.all (· < s.registered) = true ∧
    ∃ u, Change s event u ∧ t = { u with clock := t.clock } := by
  unfold step at h
  dsimp only at h
  split_ifs at h with hguard
  cases h
  refine ⟨hguard.1, rfl, hguard.2, s.perform event, ?_, rfl⟩
  cases event with
  | register peer port now => exact register_change peer port now
  | enqueue source decoded closes now => exact enqueue_change source decoded closes now
  | cleanup now => exact .fades (cleanup_fades now)
  | tryReply lease packet written now => exact tryReply_change lease packet written now
  | drop lease => exact .fades (drop_fades lease)
  | cancelled lease => exact .fades (.cancel lease)
  | received lease =>
    have hworn : Worn (s.shared lease)
        { s.shared lease with queue := (s.shared lease).queue.drop 1 } :=
      ⟨rfl, id, id, drop_suffix _ _⟩
    exact .fades (Fades.share (f := fun shared => { shared with queue := shared.queue.drop 1 })
      hworn)
  | closed lease => exact .fades (.close lease)

/-! ## The key of an entry is its source -/

/-- The key of every entry is the source it shares with its lease, which was
registered. -/
structure Keyed (s : Associations) : Prop where
  source : ∀ key entry, s.entries.lookup key = some entry → (s.shared entry.lease).source = key
  issued : ∀ key entry, s.entries.lookup key = some entry → entry.lease < s.registered

theorem Keyed.empty (shared : ℕ → Shared) : Keyed (empty shared) :=
  ⟨nofun, nofun⟩

/-- A lease has one entry. -/
theorem Keyed.unique (h : Keyed s) {key other : PeerAddr} {entry found : Entry}
    (hentry : s.entries.lookup key = some entry) (hfound : s.entries.lookup other = some found)
    (hlease : found.lease = entry.lease) : other = key := by
  rw [← h.source _ _ hentry, ← h.source _ _ hfound, hlease]

theorem Keyed.fades (hs : Keyed s) (h : Fades s event t) : Keyed t := by
  refine ⟨fun key entry hentry => ?_, fun key entry hentry => ?_⟩
  · rw [(h.shared entry.lease).source]
    exact hs.source _ _ (h.kept _ _ hentry)
  · rw [h.registered]
    exact hs.issued _ _ (h.kept _ _ hentry)

theorem lookup_enter {source key : PeerAddr} {now : ℕ} :
    (s.enter source now).entries.lookup key =
      if key = source then some ⟨s.registered, now⟩ else s.entries.lookup key :=
  Table.lookup_insert_apply

theorem shared_enter {source : PeerAddr} {now lease : ℕ} :
    (s.enter source now).shared lease =
      if lease = s.registered then ⟨source, false, false, []⟩ else s.shared lease := by
  show update s.shared s.registered _ lease = _
  rw [update_apply]

theorem Keyed.enter (hs : Keyed s) (source : PeerAddr) (now : ℕ) : Keyed (s.enter source now) := by
  refine ⟨fun key entry hentry => ?_, fun key entry hentry => ?_⟩ <;> rw [lookup_enter] at hentry
  · rw [shared_enter]
    split_ifs at hentry with hkey
    · cases hentry
      rw [if_pos rfl, hkey]
    · rw [if_neg (hs.issued _ _ hentry).ne]
      exact hs.source _ _ hentry
  · show entry.lease < s.registered + 1
    split_ifs at hentry with hkey
    · cases hentry
      exact Nat.lt_succ_self _
    · exact (hs.issued _ _ hentry).trans (Nat.lt_succ_self _)

section Deliver

variable {key source : PeerAddr} {entry : Entry} {remote : Destination} {payload : Bytes} {now : ℕ}

/-- A delivery leaves the entry at the source, and the others where they
were. -/
theorem lookup_deliver {other : PeerAddr} :
    (s.deliver key source entry remote payload now).entries.lookup other =
      if other = source then some { entry with lastActivity := now }
      else if other = key then none
      else s.entries.lookup other := by
  unfold deliver
  by_cases hkey : key = source
  · rw [if_neg (not_not_intro hkey), hkey]
    refine Table.lookup_insert_apply.trans ?_
    split_ifs <;> rfl
  · rw [if_pos hkey, ← lookup_remove]
    exact Table.lookup_insert_apply

theorem shared_deliver {lease : ℕ} :
    (s.deliver key source entry remote payload now).shared lease =
      if lease = entry.lease then
        { s.shared lease with
          source
          queue := (s.shared lease).queue ++ [⟨remote, payload, none⟩] }
      else s.shared lease := by
  unfold deliver share insert remove
  by_cases h : lease = entry.lease
  · subst h
    rw [if_pos rfl]
    split_ifs <;> simp
  · rw [if_neg h]
    split_ifs <;> simp [h]

theorem registered_deliver :
    (s.deliver key source entry remote payload now).registered = s.registered := by
  unfold deliver
  split_ifs <;> rfl

theorem replies_deliver : (s.deliver key source entry remote payload now).replies = s.replies := by
  unfold deliver
  split_ifs <;> rfl

theorem Keyed.deliver (hs : Keyed s) (hentry : s.entries.lookup key = some entry) :
    Keyed (s.deliver key source entry remote payload now) := by
  have hcases : ∀ other found,
      (s.deliver key source entry remote payload now).entries.lookup other = some found →
      (other = source ∧ found.lease = entry.lease) ∨
      (found.lease ≠ entry.lease ∧ s.entries.lookup other = some found) := by
    intro other found hfound
    rw [lookup_deliver] at hfound
    split_ifs at hfound with hother hkey
    · cases hfound
      exact .inl ⟨hother, rfl⟩
    · exact .inr ⟨fun hlease => hkey (hs.unique hentry hfound hlease), hfound⟩
  refine ⟨fun other found hfound => ?_, fun other found hfound => ?_⟩
  · rw [shared_deliver]
    rcases hcases _ _ hfound with ⟨hother, hlease⟩ | ⟨hlease, hbefore⟩
    · rw [if_pos hlease, hother]
    · rw [if_neg hlease]
      exact hs.source _ _ hbefore
  · rw [registered_deliver]
    rcases hcases _ _ hfound with ⟨-, hlease⟩ | ⟨-, hbefore⟩
    · rw [hlease]
      exact hs.issued _ _ hentry
    · exact hs.issued _ _ hbefore

end Deliver

/-- What a reply leaves of the entries: the one of its lease may be younger. -/
theorem lookup_replied {lease now : ℕ} {entry : Entry} {entries : Table PeerAddr Entry}
    {key : PeerAddr} {found : Entry}
    (hentries : entries = s.entries ∨
      entries = s.entries.insert (s.shared lease).source { entry with lastActivity := now })
    (hfound : entries.lookup key = some found) :
    s.entries.lookup key = some found ∨
      (key = (s.shared lease).source ∧ found.lease = entry.lease) := by
  rcases hentries with rfl | rfl
  · exact .inl hfound
  rw [Table.lookup_insert_apply] at hfound
  split_ifs at hfound with hkey
  · cases hfound
    exact .inr ⟨hkey, rfl⟩
  · exact .inl hfound

/-- **Every step keeps entries at their sources.** -/
theorem Change.keyed (h : Change s event t) (hs : Keyed s) : Keyed t := by
  cases h with
  | fades hfades => exact hs.fades hfades
  | entered hfades => exact (hs.fades hfades).enter _ _
  | delivered hentry => exact hs.deliver hentry
  | replied hentry hlease _ _ hentries =>
    -- a reply moves no entry, and changes nothing that is shared
    refine ⟨fun key found hfound => ?_, fun key found hfound => ?_⟩ <;>
      rcases lookup_replied hentries hfound with hbefore | ⟨rfl, hsame⟩
    · exact hs.source _ _ hbefore
    · show (s.shared found.lease).source = _
      rw [hsame, hlease]
    · exact hs.issued _ _ hbefore
    · show found.lease < s.registered
      rw [hsame]
      exact hs.issued _ _ hentry

theorem keyed_of_step (hs : Keyed s) (h : s.step event = some t) : Keyed t := by
  obtain ⟨-, -, -, u, hchange, hclock⟩ := change_of_step h
  have hu := hchange.keyed hs
  rw [hclock]
  exact ⟨hu.source, hu.issued⟩

/-! ## Sources -/

theorem keyFor_cases (source : PeerAddr) :
    s.keyFor source = source ∨
      (s.keyFor source = source.setPort 0 ∧ s.entries.lookup source = none) := by
  unfold keyFor
  split_ifs with h
  · exact .inl rfl
  · exact .inr ⟨rfl, by simpa using h⟩

theorem Change.registered_le (h : Change s event t) : s.registered ≤ t.registered := by
  cases h with
  | fades hfades => exact hfades.registered.ge
  | entered hfades => exact hfades.registered.ge.trans (Nat.le_succ _)
  | delivered => exact registered_deliver.ge
  | replied => exact le_rfl

variable {lease : ℕ}

/-- A step changes a source only from port zero. -/
theorem Change.source (h : Change s event t) (hs : Keyed s)
    (hlease : lease < s.registered) (hport : (s.shared lease).source.port ≠ 0) :
    (t.shared lease).source = (s.shared lease).source := by
  cases h with
  | fades hfades => exact (hfades.shared lease).source
  | entered hfades =>
    rw [shared_enter, if_neg (by rw [hfades.registered]; exact hlease.ne)]
    exact (hfades.shared lease).source
  | @delivered source remote payload now entry hentry =>
    rw [shared_deliver]
    split_ifs with hsame
    · have hkey : (s.shared lease).source = s.keyFor source := by
        rw [hsame]
        exact hs.source _ _ hentry
      rcases keyFor_cases (s := s) source with hexact | ⟨hzero, -⟩
      · exact (hkey.trans hexact).symm
      · -- the unbound slot has port zero
        exact absurd (by rw [hkey, hzero]; rfl) hport
    · rfl
  | replied => rfl

/-- **A datagram that is queued nowhere changes no source**, and every entry
that is left is as it was. -/
theorem Change.rejected {source : PeerAddr} {decoded : Option (Destination × Bytes)}
    {closes : Bool} {now : ℕ} (h : Change s (.enqueue source decoded closes now) t)
    (hqueues : ∀ lease, (t.shared lease).queue = (s.shared lease).queue) :
    (∀ lease, (t.shared lease).source = (s.shared lease).source) ∧
    ∀ key entry, t.entries.lookup key = some entry → s.entries.lookup key = some entry := by
  generalize hevent : AssociationEvent.enqueue source decoded closes now = event at h
  cases h with
  | fades hfades => exact ⟨fun lease => (hfades.shared lease).source, hfades.kept⟩
  | entered | replied => cases hevent
  | @delivered _ _ _ _ entry =>
    have hqueue := congrArg length (hqueues entry.lease)
    rw [shared_deliver, if_pos rfl, length_append, length_singleton] at hqueue
    omega

/-! ## Entries that go -/

/-- A lease has no live entry: it was dropped or replaced, or it expired. -/
def Ended (s : Associations) (lease : ℕ) : Prop :=
  ∀ key entry, s.entries.lookup key = some entry → entry.lease = lease →
    s.expired entry s.clock = true

/-- What has expired stays so. -/
theorem expired_mono {entry : Entry} {now later : ℕ}
    (hworn : Worn (s.shared entry.lease) (t.shared entry.lease)) (hle : now ≤ later)
    (h : s.expired entry now = true) : t.expired entry later = true := by
  simp only [expired, or_eq_true, decide_eq_true_eq] at h ⊢
  rcases h with (h | h) | h
  · exact .inl (.inl (hworn.cancelled h))
  · exact .inl (.inr (hworn.closed h))
  · exact .inr (by omega)

/-- An entry of a registered lease that is found after a step was there
before, or has just been found live. -/
theorem Change.found (h : Change s event t) {key : PeerAddr} {found : Entry}
    (hfound : t.entries.lookup key = some found) (hissued : found.lease < s.registered) :
    (s.entries.lookup key = some found ∧
      Worn (s.shared found.lease) (t.shared found.lease)) ∨
    ∃ other entry now, s.entries.lookup other = some entry ∧ entry.lease = found.lease ∧
      event.now? = some now ∧ s.expired entry now = false := by
  cases h with
  | fades hfades => exact .inl ⟨hfades.kept _ _ hfound, hfades.shared _⟩
  | entered hfades =>
    rw [lookup_enter] at hfound
    split_ifs at hfound
    · cases hfound
      exact absurd hfades.registered hissued.ne
    · refine .inl ⟨hfades.kept _ _ hfound, ?_⟩
      rw [shared_enter, if_neg (by rw [hfades.registered]; exact hissued.ne)]
      exact hfades.shared _
  | @delivered source remote payload now entry hentry hlive =>
    by_cases hlease : entry.lease = found.lease
    · exact .inr ⟨_, entry, now, hentry, hlease, rfl, hlive⟩
    refine .inl ?_
    rw [shared_deliver, if_neg (Ne.symm hlease)]
    rw [lookup_deliver] at hfound
    split_ifs at hfound
    · cases hfound
      exact absurd rfl hlease
    · exact ⟨hfound, .refl _⟩
  | @replied lease count now packet entry entries hentry hlease hlive hport hentries =>
    rcases lookup_replied hentries hfound with hbefore | ⟨-, hsame⟩
    · exact .inl ⟨hbefore, .refl _⟩
    · exact .inr ⟨_, entry, now, hentry, hsame.symm, rfl, hlive⟩

/-- **A lease that has ended stays so**, and sends no reply. -/
theorem ended_of_step (hlease : lease < s.registered)
    (hended : s.Ended lease) (h : s.step event = some t) :
    t.Ended lease ∧
    t.replies.filter (·.lease == lease) = s.replies.filter (·.lease == lease) := by
  obtain ⟨hclock, hnow, -, u, hchange, ht⟩ := change_of_step h
  -- a step that finds an entry live does so at a time that is not before
  have hdead : ∀ key entry now, s.entries.lookup key = some entry → entry.lease = lease →
      event.now? = some now → s.expired entry now ≠ false := by
    intro key entry now hentry hsame htime hlive
    have hle : s.clock ≤ now := by
      rw [htime, getD_some] at hnow
      omega
    have hexpired := expired_mono (.refl _) hle (hended key entry hentry hsame)
    rw [hlive] at hexpired
    cases hexpired
  rw [ht]
  constructor
  · intro key found hfound hsame
    rcases hchange.found hfound (hsame ▸ hlease) with
      ⟨hbefore, hworn⟩ | ⟨other, entry, now, hentry, hown, htime, hlive⟩
    · exact expired_mono hworn hclock (hended key found hbefore hsame)
    · exact absurd hlive (hdead other entry now hentry (hown.trans hsame) htime)
  cases hchange with
  | fades hfades => rw [hfades.replies]
  | entered hfades => exact congrArg _ hfades.replies
  | delivered => rw [replies_deliver]
  | @replied other count now packet entry entries hentry hown hlive =>
    have hother : other ≠ lease := fun hsame =>
      hdead _ entry now hentry (hown.trans hsame) rfl hlive
    have hdrop : [(⟨other, (s.shared other).source, packet⟩ : Reply)].filter
        (·.lease == lease) = [] := by
      simpa using hother
    rw [filter_append, hdrop, append_nil]

/-- A reply is the step of its own lease, which has a live entry. -/
theorem Change.reply (h : Change s event t) (hreplies : t.replies ≠ s.replies) :
    ∃ lease packet count now entry, event = .tryReply lease packet (.ok count) now ∧
      t.replies = s.replies ++ [⟨lease, (s.shared lease).source, packet⟩] ∧
      s.entries.lookup (s.shared lease).source = some entry ∧ entry.lease = lease ∧
      s.expired entry now = false ∧ (s.shared lease).source.port ≠ 0 := by
  cases h with
  | fades hfades | entered hfades => exact absurd hfades.replies hreplies
  | delivered => exact absurd replies_deliver hreplies
  | @replied lease count now packet entry entries hentry hlease hlive hport =>
    exact ⟨lease, packet, count, now, entry, rfl, rfl, hentry, hlease, hlive, hport⟩

/-! ## Runs -/

/-- The runs of the registry from a state. -/
def RunsFrom : Associations → List (Associations × AssociationEvent) → Associations → Prop :=
  Run fun s event t => s.step event = some t

variable {shared : ℕ → Shared} {history later : List (Associations × AssociationEvent)}

theorem registered_of_step (h : s.step event = some t) : s.registered ≤ t.registered := by
  obtain ⟨-, -, -, u, hchange, ht⟩ := change_of_step h
  rw [ht]
  exact hchange.registered_le

/-- A learned source stays in every run. -/
theorem RunsFrom.source (h : RunsFrom s history t) (hs : Keyed s)
    (hlease : lease < s.registered) (hport : (s.shared lease).source.port ≠ 0) :
    (t.shared lease).source = (s.shared lease).source := by
  have hstays := Run.invariant (I := fun t => Keyed t ∧ lease < t.registered ∧
    (t.shared lease).source = (s.shared lease).source) h ⟨hs, hlease, rfl⟩ ?_
  · exact hstays.2.2
  · rintro a event b ⟨ha, hissued, hsource⟩ hstep
    refine ⟨keyed_of_step ha hstep, hissued.trans_le (registered_of_step hstep), ?_⟩
    obtain ⟨-, -, -, u, hchange, hb⟩ := change_of_step hstep
    rw [hb, ← hsource]
    exact hchange.source ha hissued (hsource ▸ hport)

/-- A lease that has ended sends no reply in any run. -/
theorem RunsFrom.ended (h : RunsFrom s history t)
    (hlease : lease < s.registered) (hended : s.Ended lease) :
    t.replies.filter (·.lease == lease) = s.replies.filter (·.lease == lease) := by
  have hstays := Run.invariant (I := fun t => lease < t.registered ∧ t.Ended lease ∧
    t.replies.filter (·.lease == lease) = s.replies.filter (·.lease == lease)) h
    ⟨hlease, hended, rfl⟩ ?_
  · exact hstays.2.2
  · rintro a event b ⟨hissued, hover, hreplies⟩ hstep
    obtain ⟨hb, hsame⟩ := ended_of_step hissued hover hstep
    exact ⟨hissued.trans_le (registered_of_step hstep), hb, hsame.trans hreplies⟩

/-- A client of one address. -/
def samplePeer (port : UInt16) : PeerAddr where
  ip := .v4 1
  port
  flowInfo := 0
  scopeId := 0

/-- An association learns its source and replies. Then it is dropped, and
another one takes the source. -/
def sampleEvents : List AssociationEvent :=
  [.register (samplePeer 4000) 0 0,
    .enqueue (samplePeer 1000) (some (.ip ⟨.v4 2, 53⟩, [7])) false 1,
    .enqueue (samplePeer 1001) (some (.ip ⟨.v4 2, 53⟩, [8])) false 2,
    .tryReply 0 [9] (.ok 1) 3,
    .drop 0,
    .register (samplePeer 4001) 1000 4,
    .tryReply 0 [9] (.ok 1) 5,
    .drop 0]

end Associations

end Vole.Socks5
