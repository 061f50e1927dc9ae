import Mathlib.Data.List.Range
import Vole.Tun.Labels

/-!
# The delivery of TUN datagrams

Every datagram that arrives is handed on once, in order with the others to
its destination but where it overtakes a pending flow, and with no label
that its own flow did not earn.

What is on its way to a destination is its line (`line`): the datagrams
handed on, those ready, and those a pending flow holds back. A datagram
that arrives goes to the end of the line, or before what is held back; and
nothing else changes a line. The labels are traced to the answers of the
sniffers, which are read off the past of a run (`account`).
-/

namespace Vole.Tun

open List Option PreparedTunUdpDatagram

variable {S N : Type} {engine : QuicSniffEngine S N} {config : Option (UInt16 → Bool)}

namespace Association

open UdpQuicSniffState

variable {a b : Association S N} {event : AssociationEvent}
  {history : List (Association S N × AssociationEvent)} {datagram : UdpDatagram}
  {destination : SocketAddr}

/-! ## The past of a run -/

/-- The datagram that an event receives. -/
def received? (a : Association S N) : AssociationEvent → Option UdpDatagram
  | .inbound _ datagram _ => some { datagram with number := a.received }
  | .cancelled => none
  | .sniffDeadline _ _ => none
  | .readySend _ => none
  | .inboundClosed => none
  | .outbound _ _ => none
  | .outboundFailed _ => none

section

variable (engine config history)

/-- **The datagrams that arrived**, the first one first. -/
def arrivals : List UdpDatagram :=
  history.filterMap fun past => past.1.received? past.2

/-- The datagram arrived at this time, when the loop was in this state. -/
def Arrived (a : Association S N) (now : ℕ) (datagram : UdpDatagram) : Prop :=
  ∃ order given, (a, .inbound order given now) ∈ history ∧
    { given with number := a.received } = datagram

/-- **The account of a run**: what the sniffers answered to the datagrams
that arrived, and the flow to which each of these belonged as it came. That
flow was started by a datagram to the same destination, itself or an earlier
one. -/
def account : Account where
  answered destination flow reply := ∃ a now datagram, Arrived history a now datagram ∧
    datagram.destination = destination ∧
    configuredQuicSniffing config destination.port = true ∧
    Answers engine a.quicSniff datagram flow reply
  belongs datagram flow := flow ≤ datagram.number ∧
    (∃ a now, Arrived history a now datagram ∧
      flowOf engine a.quicSniff datagram now = some flow) ∧
    ∃ a now starter, Arrived history a now starter ∧ starter.number = flow ∧
      starter.destination = datagram.destination
  started destination flow := ∃ a now starter, Arrived history a now starter ∧
    starter.number = flow ∧ starter.destination = destination

/-- **One datagram overtook another**: when it arrived, the other was held
back by a pending flow to its destination with another connection key, and
it authenticated neither under the flow's sniffer nor under a fresh one. -/
def Overtook (first second : UdpDatagram) : Prop :=
  ∃ a now pending, Arrived history a now first ∧
    configuredQuicSniffing config first.destination.port = true ∧
    Overtakes engine a.quicSniff first pending ∧
    second ∈ pending.datagrams.map PreparedTunUdpDatagram.datagram

end

theorem Arrived.extend {now : ℕ} (h : Arrived history a now datagram)
    (more : List (Association S N × AssociationEvent)) :
    Arrived (history ++ more) a now datagram := by
  obtain ⟨order, given, hmem, hgiven⟩ := h
  exact ⟨order, given, mem_append_left _ hmem, hgiven⟩

theorem account_extends (more : List (Association S N × AssociationEvent)) :
    (account engine config (history ++ more)).Extends (account engine config history) where
  answered := by
    rintro destination flow reply ⟨a, now, datagram, harrived, hrest⟩
    exact ⟨a, now, datagram, harrived.extend more, hrest⟩
  belongs := by
    rintro datagram flow ⟨hle, ⟨a, now, harrived, hflow⟩, b, past, starter, hstarter, hrest⟩
    exact ⟨hle, ⟨a, now, harrived.extend more, hflow⟩, b, past, starter, hstarter.extend more,
      hrest⟩
  started := by
    rintro destination flow ⟨a, now, starter, harrived, hrest⟩
    exact ⟨a, now, starter, harrived.extend more, hrest⟩

theorem Overtook.extend {first second : UdpDatagram}
    (h : Overtook engine config history first second)
    (more : List (Association S N × AssociationEvent)) :
    Overtook engine config (history ++ more) first second := by
  obtain ⟨a, now, pending, harrived, hrest⟩ := h
  exact ⟨a, now, pending, harrived.extend more, hrest⟩

theorem arrivals_append (event : AssociationEvent) :
    arrivals (history ++ [(a, event)]) = arrivals history ++ (a.received? event).toList := by
  cases hreceived : a.received? event <;> simp [hreceived, arrivals]

/-! ## Lines -/

/-- The datagrams that are handed on or ready. -/
def queue (a : Association S N) : List PreparedTunUdpDatagram :=
  a.handed ++ a.pendingSend.toList ++ a.ready

/-- **The line of a destination**: what was handed on, what is ready and
what is held back, in the order in which it leaves. -/
def line (a : Association S N) (destination : SocketAddr) : List PreparedTunUdpDatagram :=
  a.queue.filter (·.datagram.destination = destination) ++ a.quicSniff.held destination

/-- What was taken from the queue as the association was cancelled. -/
def lost (a : Association S N) (destination : SocketAddr) : List PreparedTunUdpDatagram :=
  a.abandoned.toList.filter (·.datagram.destination = destination)

/-- **What is known of every run**: nothing is lost or duplicated, every
line is in order, and every label is earned. -/
structure Tracked (engine : QuicSniffEngine S N) (config : Option (UInt16 → Bool))
    (history : List (Association S N × AssociationEvent)) (a : Association S N) : Prop where
  balanced : a.Balanced
  numbers : (arrivals history).map UdpDatagram.number = range a.received
  conserved : ∀ destination, ((a.line destination ++ a.lost destination).map
      PreparedTunUdpDatagram.datagram).Perm
    ((arrivals history).filter (·.destination = destination))
  ordered : ∀ destination, ((a.line destination).map PreparedTunUdpDatagram.datagram).Pairwise
    fun first second => first.number < second.number ∨ Overtook engine config history first second
  labelled : ∀ prepared ∈ a.queue ++ a.abandoned.toList,
    Labelled (account engine config history) prepared
  sound : AllSound (account engine config history) a.quicSniff
  sniffed : ∀ destination state, a.quicSniff.flows.lookup destination = some state →
    configuredQuicSniffing config destination.port = true
  abandoned : a.ended = none → a.abandoned = none

theorem Tracked.new (engine : QuicSniffEngine S N) (config : Option (UInt16 → Bool)) (factory : N)
    (idleTimeout : ℕ) : Tracked engine config [] (new factory idleTimeout) where
  balanced := .new factory idleTimeout
  numbers := rfl
  conserved := fun _ => List.Perm.refl _
  ordered := fun _ => List.Pairwise.nil
  labelled := nofun
  sound := nofun
  sniffed := nofun
  abandoned := fun _ => rfl

theorem number_lt (hnumbers : (arrivals history).map UdpDatagram.number = range a.received)
    (hmem : datagram ∈ arrivals history) : datagram.number < a.received :=
  mem_range.mp (hnumbers ▸ mem_map_of_mem hmem)

section

variable (h : Tracked engine config history a)

include h

theorem Tracked.still_ordered (more : List (Association S N × AssociationEvent))
    (destination : SocketAddr) :
    ((a.line destination).map (·.datagram)).Pairwise fun first second =>
      first.number < second.number ∨ Overtook engine config (history ++ more) first second :=
  (h.ordered destination).imp fun hlt => hlt.imp id fun hovertook => hovertook.extend more

/-- A turn that receives nothing, leaves the flows as they are and takes
nothing into the lines that was not there. -/
theorem Tracked.of_same (hreceived : a.received? event = none)
    (hcount : b.received = a.received) (hbalanced : b.Balanced)
    (hline : ∀ destination, (b.line destination ++ b.lost destination).Perm
      (a.line destination ++ a.lost destination))
    (hordered : ∀ destination, (b.line destination).Sublist (a.line destination))
    (hlabelled : ∀ prepared ∈ b.queue ++ b.abandoned.toList,
      Labelled (account engine config history) prepared)
    (hsound : AllSound (account engine config history) b.quicSniff)
    (hsniffed : ∀ destination state, b.quicSniff.flows.lookup destination = some state →
      configuredQuicSniffing config destination.port = true)
    (habandoned : b.ended = none → b.abandoned = none) :
    Tracked engine config (history ++ [(a, event)]) b := by
  have harrivals : arrivals (history ++ [(a, event)]) = arrivals history := by
    rw [arrivals_append, hreceived]
    exact append_nil _
  refine ⟨hbalanced, ?_, fun destination => ?_, fun destination => ?_, fun prepared hmem => ?_,
    hsound.extend (account_extends _), hsniffed, habandoned⟩
  · rw [harrivals, hcount]
    exact h.numbers
  · rw [harrivals]
    exact ((hline destination).map _).trans (h.conserved destination)
  · exact (h.still_ordered _ destination).sublist ((hordered destination).map _)
  · exact (hlabelled prepared hmem).extend (account_extends _)

omit h

/-! ## Turns -/

theorem received?_eq_none (h : ∀ order datagram now, event ≠ .inbound order datagram now) :
    a.received? event = none := by
  cases event with
  | inbound order datagram now => exact absurd rfl (h order datagram now)
  | _ => rfl

theorem number_of_received (h : a.received? event = some datagram) :
    datagram.number = a.received := by
  cases event with
  | inbound order given now =>
    cases h
    rfl
  | _ => cases h

/-- What has expired, and the state then. -/
structure Expired (K : Account) (s : UdpQuicSniffState S N) (replay : List PreparedTunUdpDatagram)
    (t : UdpQuicSniffState S N) : Prop where
  line : ∀ destination, replay.filter (·.datagram.destination = destination) ++ t.held destination =
    s.held destination
  labelled : ∀ prepared ∈ replay, Labelled K prepared
  sound : AllSound K t
  lookup : ∀ destination state, t.flows.lookup destination = some state →
    (s.flows.lookup destination).isSome = true

theorem Expired.next {K : Account} {s t : UdpQuicSniffState S N}
    {replay : List PreparedTunUdpDatagram} (h : Expired K s replay t) (now : ℕ)
    (destination : SocketAddr) :
    Expired K s (expireOne now (replay, t) destination).1
      (expireOne now (replay, t) destination).2 := by
  have hdestination : ∀ prepared ∈ t.held destination,
      prepared.datagram.destination = destination := fun _ hmem => h.sound.destination_of_held hmem
  have hline := expireOne_held now replay hdestination
  refine ⟨fun other => (hline other).trans (h.line other), ?_, ?_, ?_⟩ <;>
    unfold expireOne <;> cases hpending : t.pendingAt destination with
    | none => first | exact h.labelled | exact h.sound | exact h.lookup
    | some pending => ?_
  · exact forall_mem_append.mpr ⟨h.labelled, (h.sound.holding hpending).labelled⟩
  · refine .put (h.sound.of_cleared .same) (.noDomain fun flow hflow => ?_)
    cases hflow
    exact (h.sound.holding hpending).started
  intro other state hlookup
  by_cases heq : other = destination
  · subst heq
    exact h.lookup other _ (lookup_of_pendingAt hpending)
  · refine h.lookup other state ?_
    rw [← hlookup]
    exact ((AList.lookup_insert_ne heq).trans (AList.lookup_erase_ne heq)).symm

theorem expire_expired {K : Account} {s : UdpQuicSniffState S N} (hs : AllSound K s)
    (order : List SocketAddr) (now : ℕ) :
    Expired K s (s.expire order now).1 (s.expire order now).2 := by
  unfold expire
  have hstart : Expired K s [] s :=
    ⟨fun _ => rfl, nofun, hs, fun _ _ h => by rw [h]; rfl⟩
  exact foldlRecOn _ _ (motive := fun (reached : _ × _) => Expired K s reached.1 reached.2) hstart
    fun _ h destination _ => h.next now destination

/-- What is sent leaves from the front of what is ready. -/
theorem takeReady_queue {prepared : PreparedTunUdpDatagram} {c : Association S N}
    (h : a.takeReady = some (prepared, c)) :
    a.pendingSend.toList ++ a.ready = prepared :: (c.pendingSend.toList ++ c.ready) ∧
      c.handed = a.handed ∧ c.quicSniff = a.quicSniff ∧ c.abandoned = a.abandoned ∧
      c.received = a.received := by
  unfold takeReady at h
  split at h <;> cases h
  next hsend => exact ⟨by simp [hsend], rfl, rfl, rfl, rfl⟩
  next hsend hready => exact ⟨by simp [hsend, hready], rfl, rfl, rfl, rfl⟩

/-- What the sniffing passes on is ready then. -/
theorem accept_queue (result : QuicIngressResult) (hsend : a.canSend = false)
    (hcount : result.count ≤ quicSniffReadyDatagramMax) :
    (a.accept result).queue = a.handed ++ result.released ∧
      (a.accept result).quicSniff = a.quicSniff ∧ (a.accept result).abandoned = a.abandoned ∧
      (a.accept result).received = a.received := by
  obtain ⟨hnone, hready⟩ := canSend_eq_false.mp hsend
  cases result with
  | buffered =>
    refine ⟨?_, rfl, rfl, rfl⟩
    simp [accept, queue, hnone, hready, QuicIngressResult.released]
  | forward prepared =>
    refine ⟨?_, rfl, rfl, rfl⟩
    simp [accept, queue, hready, QuicIngressResult.released]
  | replay datagrams =>
    have hroom : a.ready.length + datagrams.length ≤ quicSniffReadyDatagramMax := by
      rw [hready, length_nil, Nat.zero_add]
      exact hcount
    rw [accept, append_eq hroom]
    refine ⟨?_, rfl, rfl, rfl⟩
    simp [queue, hnone, hready, QuicIngressResult.released]

include h

theorem Tracked.expired (order : List SocketAddr) (now : ℕ) :
    Tracked engine config (history ++ [(a, .sniffDeadline order now)])
      (a.sniffDeadline order now) := by
  have hexpired := expire_expired h.sound order now
  have hbalanced := sniffDeadline_balanced h.balanced order now
  rw [sniffDeadline_eq h.balanced] at hbalanced ⊢
  have hline : ∀ destination,
      ({ a with
        quicSniff := (a.quicSniff.expire order now).2
        ready := a.ready ++ (a.quicSniff.expire order now).1 } : Association S N).line destination =
      a.line destination := by
    intro destination
    unfold line queue
    simp only
    rw [← append_assoc, filter_append, append_assoc, hexpired.line]
  refine h.of_same rfl rfl hbalanced (fun destination => ?_) (fun destination => ?_)
    (fun prepared hmem => ?_) hexpired.sound (fun destination state hlookup => ?_) h.abandoned
  · rw [hline]
    exact List.Perm.refl _
  · rw [hline]
  · unfold queue at hmem
    simp only [mem_append] at hmem
    rcases hmem with ((hmem | hmem) | hmem | hmem) | hmem
    · exact h.labelled prepared (by simp [queue, hmem])
    · exact h.labelled prepared (by simp [queue, mem_append, hmem])
    · exact h.labelled prepared (by simp [queue, hmem])
    · exact hexpired.labelled prepared hmem
    · exact h.labelled prepared (mem_append_right _ hmem)
  · obtain ⟨found, hfound⟩ := isSome_iff_exists.mp (hexpired.lookup destination state hlookup)
    exact h.sniffed destination found hfound

theorem Tracked.sent (hended : a.ended = none)
    {prepared : PreparedTunUdpDatagram} {c : Association S N}
    (htake : a.takeReady = some (prepared, c)) (result : SendResult) :
    Tracked engine config (history ++ [(a, .readySend result)]) (c.send prepared result) := by
  obtain ⟨hfront, hhanded, hsniff, habandoned, hreceived⟩ := takeReady_queue htake
  have hbalanced := send_balanced h.balanced htake result
  have hqueue : a.queue = a.handed ++ [prepared] ++ (c.pendingSend.toList ++ c.ready) := by
    rw [queue, append_assoc, hfront, append_assoc]
    rfl
  have hnone : a.abandoned = none := h.abandoned hended
  have hlost : ∀ destination, a.lost destination = [] := fun destination => by
    rw [lost, hnone]
    rfl
  by_cases hcancelled : result = .cancelled false
  · -- the datagram is given up as the association ends
    subst hcancelled
    have hleft : (c.send prepared (.cancelled false)).queue =
        a.handed ++ (c.pendingSend.toList ++ c.ready) := by
      rw [← hhanded, ← append_assoc]
      rfl
    have hsublist : (c.send prepared (.cancelled false)).queue.Sublist a.queue := by
      rw [hleft, hqueue, append_assoc]
      exact List.Sublist.append_left (sublist_append_right _ _) _
    refine h.of_same rfl hreceived hbalanced (fun destination => ?_) (fun destination => ?_)
      (fun other hmem => ?_) (hsniff ▸ h.sound) (hsniff ▸ h.sniffed) nofun
    · rw [hlost, append_nil]
      unfold line
      rw [hleft, hqueue, show (c.send prepared (.cancelled false)).quicSniff = a.quicSniff from hsniff,
        filter_append a.handed, filter_append (_ ++ _), filter_append a.handed]
      simp only [append_assoc]
      refine List.Perm.append_left _ ?_
      rw [← append_assoc]
      exact perm_append_comm
    · unfold line
      rw [show (c.send prepared (.cancelled false)).quicSniff = a.quicSniff from hsniff]
      exact (hsublist.filter _).append_right _
    rcases mem_append.mp hmem with hmem | hmem
    · exact h.labelled other (mem_append_left _ (hsublist.subset hmem))
    · obtain rfl : other = prepared := mem_singleton.mp hmem
      refine h.labelled other (mem_append_left _ ?_)
      rw [hqueue]
      simp
  · have hsame : (c.send prepared result).queue = a.queue ∧
        (c.send prepared result).quicSniff = a.quicSniff ∧
        (c.send prepared result).abandoned = a.abandoned ∧
        (c.send prepared result).received = a.received := by
      have hsent : (c.handed ++ [prepared]) ++ c.pendingSend.toList ++ c.ready = a.queue := by
        rw [hqueue, hhanded, append_assoc]
      cases result with
      | sent | failed message => exact ⟨hsent, hsniff, habandoned, hreceived⟩
      | cancelled asked =>
        cases asked with
        | false => exact absurd rfl hcancelled
        | true => exact ⟨hsent, hsniff, habandoned, hreceived⟩
    obtain ⟨hq, hs, hab, hr⟩ := hsame
    have hline : ∀ destination, (c.send prepared result).line destination = a.line destination :=
      fun destination => by rw [line, hq, hs, line]
    refine h.of_same rfl hr hbalanced (fun destination => ?_) (fun destination => ?_)
      (fun other hmem => ?_) (hs ▸ h.sound) (hs ▸ h.sniffed) (fun _ => hab ▸ hnone)
    · rw [hline, lost, hab]
      exact List.Perm.refl _
    · rw [hline]
    · rw [hq, hab] at hmem
      exact h.labelled other hmem

/-- **What a datagram that arrives adds to a run**: it goes to the end of
the line of its destination, or it overtakes what is held back there. -/
theorem Tracked.of_received (hended : a.ended = none)
    (hsend : a.canSend = false) (hreceived : a.received? event = some datagram)
    {released : List PreparedTunUdpDatagram} (hbalanced : b.Balanced)
    (hqueue : b.queue = a.handed ++ released) (habandoned : b.abandoned = a.abandoned)
    (hcount : b.received = a.received + 1)
    (hothers : ∀ other ≠ datagram.destination, b.quicSniff.held other = a.quicSniff.held other)
    (hmoves : (released ++ b.quicSniff.held datagram.destination).map (·.datagram) =
          (a.quicSniff.held datagram.destination).map (·.datagram) ++
            [datagram] ∨
      (∀ second ∈ (a.quicSniff.held datagram.destination).map (·.datagram),
        Overtook engine config (history ++ [(a, event)]) datagram second) ∧
      released.map (·.datagram) = [datagram] ∧
      (b.quicSniff.held datagram.destination).map (·.datagram) =
        (a.quicSniff.held datagram.destination).map (·.datagram))
    (hlabelled : ∀ prepared ∈ released,
      Labelled (account engine config (history ++ [(a, event)])) prepared)
    (hsound : AllSound (account engine config (history ++ [(a, event)])) b.quicSniff)
    (hsniffed : ∀ destination state, b.quicSniff.flows.lookup destination = some state →
      configuredQuicSniffing config destination.port = true) :
    Tracked engine config (history ++ [(a, event)]) b := by
  obtain ⟨hnone, hready⟩ := canSend_eq_false.mp hsend
  have hnumber := number_of_received hreceived
  have hfront : a.queue = a.handed := by simp [queue, hnone, hready]
  have hlost : ∀ destination, a.lost destination = [] ∧ b.lost destination = [] := by
    intro destination
    rw [lost, lost, habandoned, h.abandoned hended]
    exact ⟨rfl, rfl⟩
  have hconserved := h.conserved
  simp only [(hlost _).1, append_nil] at hconserved
  have harrivals : arrivals (history ++ [(a, event)]) = arrivals history ++ [datagram] := by
    rw [arrivals_append, hreceived]
    rfl
  -- whatever is released goes to the destination
  have hdestination : ∀ prepared ∈ released,
      prepared.datagram.destination = datagram.destination := by
    intro prepared hmem
    have hheld : ∀ other ∈ (a.quicSniff.held datagram.destination).map (·.datagram),
        other.destination = datagram.destination := by
      intro other hother
      obtain ⟨held, hheld, rfl⟩ := mem_map.mp hother
      exact h.sound.destination_of_held hheld
    have hin := mem_map_of_mem (f := PreparedTunUdpDatagram.datagram) hmem
    rcases hmoves with hmoves | ⟨-, hmoves, -⟩
    · have hin' : prepared.datagram ∈
          (a.quicSniff.held datagram.destination).map (·.datagram) ++ [datagram] := by
        rw [← hmoves, map_append]
        exact mem_append_left _ hin
      rcases mem_append.mp hin' with hin' | hin'
      · exact hheld _ hin'
      · rw [mem_singleton.mp hin']
    · rw [hmoves] at hin
      rw [mem_singleton.mp hin]
  have hline_ne : ∀ other ≠ datagram.destination, b.line other = a.line other := by
    intro other hne
    have hfilter : released.filter (·.datagram.destination = other) = [] := by
      refine filter_eq_nil_iff.mpr fun prepared hmem htrue => hne ?_
      rw [← of_decide_eq_true htrue]
      exact hdestination prepared hmem
    rw [line, hqueue, filter_append, hfilter, append_nil, hothers other hne, line, hfront]
  have hline : b.line datagram.destination =
      a.handed.filter (·.datagram.destination = datagram.destination) ++
        (released ++ b.quicSniff.held datagram.destination) := by
    have hfilter : released.filter (·.datagram.destination = datagram.destination) = released :=
      filter_eq_self.mpr fun prepared hmem => decide_eq_true (hdestination prepared hmem)
    rw [line, hqueue, filter_append, hfilter, append_assoc]
  have hold : a.line datagram.destination =
      a.handed.filter (·.datagram.destination = datagram.destination) ++
        a.quicSniff.held datagram.destination := by
    rw [line, hfront]
  have hearlier : ∀ first ∈ (a.line datagram.destination).map (·.datagram),
      first.number < datagram.number := by
    intro first hmem
    rw [hnumber]
    exact number_lt h.numbers (mem_of_mem_filter ((hconserved _).mem_iff.mp hmem))
  have hordered := h.still_ordered [(a, event)] datagram.destination
  refine ⟨hbalanced, ?_, fun destination => ?_, fun destination => ?_, fun prepared hmem => ?_,
    hsound, hsniffed, fun _ => habandoned.trans (h.abandoned hended)⟩
  · rw [harrivals, map_append, h.numbers, hcount, range_succ]
    exact congrArg (fun n => range a.received ++ [n]) hnumber
  · rw [(hlost destination).2, append_nil, harrivals, filter_append]
    by_cases heq : destination = datagram.destination
    · subst heq
      rw [filter_singleton, decide_eq_true rfl, cond_true]
      refine List.Perm.trans ?_ ((hconserved _).append_right [datagram])
      rw [hold, map_append, append_assoc, hline, map_append]
      refine List.Perm.append_left _ ?_
      rcases hmoves with hmoves | ⟨-, hfirst, hheld⟩
      · rw [hmoves]
      · rw [map_append, hfirst, hheld]
        exact perm_append_comm
    · rw [hline_ne destination heq, filter_singleton,
        decide_eq_false (fun h => heq h.symm), cond_false, append_nil]
      exact hconserved destination
  · by_cases heq : destination = datagram.destination
    · subst heq
      rcases hmoves with hmoves | ⟨hovertook, hfirst, hheld⟩
      · have hmap : (b.line datagram.destination).map (·.datagram) =
            (a.line datagram.destination).map (·.datagram) ++ [datagram] := by
          rw [hline, hold, map_append, hmoves, map_append, append_assoc]
        rw [hmap, pairwise_append]
        refine ⟨hordered, pairwise_singleton _ _, fun first hmem second hsecond => .inl ?_⟩
        rw [mem_singleton.mp hsecond]
        exact hearlier first hmem
      · rw [hold, map_append] at hordered hearlier
        rw [hline, map_append, map_append, hfirst, hheld]
        obtain ⟨hhanded, hrest, hcross⟩ := pairwise_append.mp hordered
        refine pairwise_append.mpr ⟨hhanded, pairwise_cons.mpr
          ⟨fun second hsecond => .inr (hovertook second hsecond), hrest⟩,
          fun first hmem second hsecond => ?_⟩
        rcases mem_cons.mp hsecond with rfl | hsecond
        · exact .inl (hearlier first (mem_append_left _ hmem))
        · exact hcross first hmem second hsecond
    · rw [hline_ne destination heq]
      exact h.still_ordered _ destination
  · rw [hqueue, habandoned] at hmem
    rcases mem_append.mp hmem with hmem | hmem
    · rcases mem_append.mp hmem with hmem | hmem
      · refine (h.labelled prepared (mem_append_left _ ?_)).extend (account_extends _)
        rw [hfront]
        exact hmem
      · exact hlabelled prepared hmem
    · exact (h.labelled prepared (mem_append_right _ hmem)).extend (account_extends _)

/-- What the account learns from a datagram that is sniffed. -/
theorem learns (order : List SocketAddr) (given : UdpDatagram) (now : ℕ)
    (hconfigured : configuredQuicSniffing config given.destination.port = true) :
    Learns engine a.quicSniff { given with number := a.received } now
      (account engine config history)
      (account engine config (history ++ [(a, .inbound order given now)])) := by
  have harrived : Arrived (history ++ [(a, .inbound order given now)]) a now
      { given with number := a.received } :=
    ⟨order, given, mem_append_right _ (mem_singleton.mpr rfl), rfl⟩
  refine ⟨account_extends _,
    fun flow reply hreply => ⟨a, now, _, harrived, rfl, hconfigured, hreply⟩,
    fun flow hflow hstarted => ?_, ⟨a, now, _, harrived, rfl, rfl⟩⟩
  rcases hstarted with rfl | ⟨c, past, starter, hstarter, rfl, hdestination⟩
  · exact ⟨Nat.le_refl _, ⟨a, now, harrived, hflow⟩, a, now, _, harrived, rfl, rfl⟩
  · obtain ⟨order', given', hmem, hgiven⟩ := hstarter
    have hlt := number_lt h.numbers (mem_filterMap.mpr ⟨_, hmem, congrArg some hgiven⟩)
    exact ⟨hlt.le, ⟨a, now, harrived, hflow⟩, c, past, starter,
      ⟨order', given', mem_append_left _ hmem, hgiven⟩, rfl, hdestination⟩

theorem Tracked.received (hended : a.ended = none)
    (hsend : a.canSend = false) (order : List SocketAddr) (given : UdpDatagram) (now : ℕ) :
    Tracked engine config (history ++ [(a, .inbound order given now)])
      (a.inbound engine config order given now) := by
  have hbalanced := inbound_balanced engine config h.balanced hsend order given now
  have hle := h.balanced.budget.datagrams_le
  unfold inbound at hbalanced ⊢
  by_cases hconfigured : configuredQuicSniffing config given.destination.port = true
  · rw [if_pos hconfigured] at hbalanced ⊢
    have hingested := ingestDatagram_spec engine order { given with number := a.received } now
      h.balanced.budget.flows_le
    have hlearns := learns h order given now hconfigured
    obtain ⟨-, hcount⟩ := hingested.budgeted h.balanced.budget
    obtain ⟨hothers, hmoves⟩ := hingested.moves
    obtain ⟨hsound, hlabelled⟩ := hingested.labelled hlearns h.sound h.balanced.budget
    have hlookup : ∀ other ≠ given.destination, ∀ state,
        (a.quicSniff.ingestDatagram engine order { given with number := a.received } now).2.flows.lookup
          other = some state → (a.quicSniff.flows.lookup other).isSome = true :=
      fun other hne state => hingested.lookup_isSome hne
    generalize a.quicSniff.ingestDatagram engine order { given with number := a.received } now = r
      at hbalanced hcount hothers hmoves hsound hlabelled hlookup ⊢
    have hcount' : r.1.count ≤ quicSniffReadyDatagramMax := by
      have : quicSniffReadyDatagramMax = quicSniffPendingDatagramMax + 1 := rfl
      omega
    obtain ⟨hqueue, hsniff, habandoned, hreceived⟩ := accept_queue
      (a := { a with received := a.received + 1, quicSniff := r.2 }) r.1 hsend hcount'
    dsimp only at hsniff
    refine h.of_received hended hsend rfl hbalanced hqueue habandoned hreceived
      (fun other hne => ?_) ?_ hlabelled ?_ fun destination state hfound => ?_
    · rw [hsniff]
      exact hothers other hne
    · rw [hsniff]
      refine hmoves.imp id ?_
      rintro ⟨pending, hovertakes, hreleased, hheld⟩
      refine ⟨fun second hsecond => ⟨a, now, pending, ⟨_, _, mem_append_right _
        (mem_singleton.mpr rfl), rfl⟩, hconfigured, hovertakes, ?_⟩, ?_, hheld⟩
      · rwa [held_of_pendingAt hovertakes.pendingAt] at hsecond
      · rw [hreleased]
        rfl
    · rw [hsniff]
      exact hsound
    rw [hsniff] at hfound
    by_cases heq : destination = given.destination
    · rw [heq]
      exact hconfigured
    · obtain ⟨found, hold⟩ := isSome_iff_exists.mp (hlookup destination heq state hfound)
      exact h.sniffed destination found hold
  · rw [if_neg hconfigured] at hbalanced ⊢
    -- the destination has no flow, so nothing is held back for it
    have hheld : a.quicSniff.held given.destination = [] := by
      refine held_of_none ?_
      unfold pendingAt
      cases hlookup : a.quicSniff.flows.lookup given.destination with
      | none => rfl
      | some state => exact absurd (h.sniffed _ _ hlookup) hconfigured
    obtain ⟨hqueue, hsniff, habandoned, hreceived⟩ := accept_queue
      (a := { a with received := a.received + 1 })
      (.forward (.withoutDomain { given with number := a.received } none)) hsend
      (show 1 ≤ quicSniffReadyDatagramMax by decide)
    refine h.of_received hended hsend rfl hbalanced hqueue habandoned hreceived
      (fun other hne => rfl) (.inl ?_) (fun prepared hmem => ?_)
      (h.sound.extend (account_extends _)) h.sniffed
    · show map _ (_ ++ a.quicSniff.held given.destination) =
        (a.quicSniff.held given.destination).map _ ++ _
      rw [hheld]
      rfl
    · rw [mem_singleton.mp hmem]
      exact .withoutDomain nofun

/-- **Every turn keeps the account of a run.** -/
theorem Tracked.next (hturn : Turn engine config a event b) :
    Tracked engine config (history ++ [(a, event)]) b := by
  cases hturn with
  | quiet hended hintact hinbound =>
    exact h.of_same (received?_eq_none hinbound) rfl ⟨h.balanced.budget, h.balanced.load_le, hintact⟩
      (fun _ => List.Perm.refl _) (fun _ => List.Sublist.refl _) h.labelled h.sound h.sniffed
      fun _ => h.abandoned hended
  | expired => exact h.expired _ _
  | sent hended htake => exact h.sent hended htake _
  | received hended hsend => exact h.received hended hsend _ _ _

end

variable {factory : N} {idleTimeout : ℕ}

theorem Runs.tracked (h : Runs engine config factory idleTimeout history a) :
    Tracked engine config history a := by
  induction h with
  | start => exact .new engine config factory idleTimeout
  | next _ hstep ih => exact ih.next (turn_of_step hstep)

/-! ## Delivery -/

/-- What has one image among distinct ones is one. -/
theorem eq_of_filterMap_nodup {α β γ : Type} {f : α → Option β} {g : β → γ} {l : List α}
    (h : ((l.filterMap f).map g).Nodup) {p q : α} (hp : p ∈ l) (hq : q ∈ l) {x y : β}
    (hx : f p = some x) (hy : f q = some y) (hxy : g x = g y) : p = q := by
  by_contra hne
  have hpairs := pairwise_filterMap.mp (pairwise_map.mp h)
  have : Std.Symm fun p q => ∀ x, f p = some x → ∀ y, f q = some y → g x ≠ g y :=
    ⟨fun _ _ hapart y hy x hx => (hapart x hx y hy).symm⟩
  exact hpairs.forall hp hq hne x hx y hy hxy

/-- **A datagram arrives once.** -/
theorem Tracked.arrived_unique (h : Tracked engine config history a) {b c : Association S N}
    {now later : ℕ} {first second : UdpDatagram} (hfirst : Arrived history b now first)
    (hsecond : Arrived history c later second) (hnumber : first.number = second.number) :
    b = c ∧ first = second := by
  obtain ⟨order, given, hmem, rfl⟩ := hfirst
  obtain ⟨order', given', hmem', rfl⟩ := hsecond
  have hnodup : ((arrivals history).map UdpDatagram.number).Nodup := by
    rw [h.numbers]
    exact nodup_range
  cases eq_of_filterMap_nodup hnodup hmem hmem' rfl rfl hnumber
  exact ⟨rfl, rfl⟩

/-- Of the datagrams of a flow, the one with a flow id leaves first. -/
theorem Tracked.flow_ne (h : Tracked engine config history a)
    {first second : PreparedTunUdpDatagram}
    (hfirst : Labelled (account engine config history) first)
    (hsecond : Labelled (account engine config history) second)
    (hordered : first.datagram.destination = second.datagram.destination →
      first.datagram.number < second.datagram.number ∨
        Overtook engine config history first.datagram second.datagram)
    (hid : second.flowId ≠ none) : first.flow ≠ second.flow := by
  intro hflow
  obtain ⟨key, hkey⟩ := ne_none_iff_exists'.mp hid
  obtain ⟨hown, -⟩ := hsecond.flowId key hkey
  obtain ⟨hle, ⟨b, now, harrived, hbelongs⟩, c, _, starter, hstarter, hnumber, hdestination⟩ :=
    hfirst.flow _ (hflow.trans hown)
  obtain ⟨-, -, d, _, starter', hstarter', hnumber', hdestination'⟩ := hsecond.flow _ hown
  obtain ⟨-, rfl⟩ := h.arrived_unique hstarter hstarter' (hnumber.trans hnumber'.symm)
  rcases hordered (hdestination.symm.trans hdestination') with hlt | hovertook
  · omega
  · obtain ⟨e, _, pending, harrived', -, hovertakes, -⟩ := hovertook
    obtain ⟨rfl, -⟩ := h.arrived_unique harrived harrived' rfl
    cases hbelongs.symm.trans (hovertakes.flowOf_eq now)

/-- **TUN datagrams are delivered as they came**, in every run and whatever
the sniffers answer.

The datagrams that arrived are numbered from 0, and each is, unchanged,
exactly one of: handed to the transport, waiting, ready, held back by a
pending flow to its destination, or given up as the association ended. Two
that were handed on to one destination left in the order of their arrival,
or the one overtook the other. A domain was returned by the sniffer of the
flow to the same destination to which the datagram belongs, which is the one
it starts where it is the first of a new connection. A flow id is on a
datagram before which none of its flow was handed on, and an Initial of that
flow authenticated. -/
theorem delivered_in_order (h : Runs engine config factory idleTimeout history a) :
    (arrivals history).map UdpDatagram.number = range a.received ∧
    (∀ destination,
      (((a.handed ++ a.pendingSend.toList ++ a.ready).filter
            (·.datagram.destination = destination) ++
          a.quicSniff.held destination ++
          a.abandoned.toList.filter (·.datagram.destination = destination)).map
        PreparedTunUdpDatagram.datagram).Perm
        ((arrivals history).filter (·.destination = destination))) ∧
    (a.abandoned ≠ none → a.ended ≠ none) ∧
    a.handed.Pairwise (fun first second =>
      first.datagram.destination = second.datagram.destination →
        first.datagram.number < second.datagram.number ∨
          Overtook engine config history first.datagram second.datagram) ∧
    (∀ prepared ∈ a.handed, ∀ domain, prepared.sniffedDomain = some domain →
      ∃ flow authenticated, prepared.flow = some flow ∧
        (account engine config history).belongs prepared.datagram flow ∧
        (account engine config history).answered prepared.datagram.destination flow
          (.matched domain, authenticated)) ∧
    (∀ prepared ∈ a.handed, prepared.flowId ≠ none → ∃ flow outcome, prepared.flow = some flow ∧
      (account engine config history).belongs prepared.datagram flow ∧
      (account engine config history).answered prepared.datagram.destination flow
        (outcome, true)) ∧
    a.handed.Pairwise (fun first second => second.flowId ≠ none → first.flow ≠ second.flow) := by
  have ha := h.tracked
  have hlabelled : ∀ prepared ∈ a.handed, Labelled (account engine config history) prepared :=
    fun prepared hmem => ha.labelled prepared (by simp [queue, hmem])
  have hordered : a.handed.Pairwise fun first second =>
      first.datagram.destination = second.datagram.destination →
        first.datagram.number < second.datagram.number ∨
          Overtook engine config history first.datagram second.datagram := by
    refine pairwise_iff_forall_sublist.mpr fun {first second} hsub hdestination => ?_
    have hpair := pairwise_map.mp (ha.ordered second.datagram.destination)
    refine (pairwise_iff_forall_sublist.mp hpair) ?_
    unfold line queue
    refine List.Sublist.trans ?_ (sublist_append_left _ _)
    have hfilter := hsub.filter (·.datagram.destination = second.datagram.destination)
    have hboth : [first, second].filter
        (·.datagram.destination = second.datagram.destination) = [first, second] :=
      filter_eq_self.mpr (by simp [hdestination])
    rw [hboth] at hfilter
    refine hfilter.trans (List.Sublist.filter _ ?_)
    rw [append_assoc]
    exact sublist_append_left _ _
  refine ⟨ha.numbers, ha.conserved, fun hsome hnone => hsome (ha.abandoned hnone), hordered,
    fun prepared hmem domain hdomain => ?_, fun prepared hmem hid => ?_, ?_⟩
  · obtain ⟨flow, authenticated, hflow, hanswered⟩ := (hlabelled prepared hmem).domain domain hdomain
    exact ⟨flow, authenticated, hflow, (hlabelled prepared hmem).flow flow hflow, hanswered⟩
  · obtain ⟨key, hkey⟩ := ne_none_iff_exists'.mp hid
    obtain ⟨hflow, outcome, hanswered⟩ := (hlabelled prepared hmem).flowId key hkey
    exact ⟨_, outcome, hflow, (hlabelled prepared hmem).flow _ hflow, hanswered⟩
  · refine hordered.imp_of_mem fun hfirst hsecond horder hid => ?_
    exact ha.flow_ne (hlabelled _ hfirst) (hlabelled _ hsecond) horder hid

end Association

/-! ## A sample -/

/-- A sniffer that finds a name in the second payload and another in the
third, which is of another connection, and authenticates all. -/
def namingEngine : QuicSniffEngine Unit Unit where
  ingest := fun _ payload =>
    (if payload = [2] then .matched (Bytes.ofString "example.com")
      else if payload = [3] then .matched (Bytes.ofString "example.org") else .needMoreData, ())
  authenticatedInitialInLastIngest := fun _ => true
  newSniffer := fun _ => ((), ())
  observation := fun payload => .initial ⟨1, if payload = [3] then [8] else [7]⟩

/-- Two datagrams make up a flow, and one of a new connection replaces it. -/
def namingEvents : List AssociationEvent :=
  [.inbound [] (sampleDatagram 2 [1]) 0,
    .inbound [⟨.v4 2, 443⟩] (sampleDatagram 2 [2]) 100,
    .readySend .sent,
    .readySend .sent,
    .inbound [⟨.v4 2, 443⟩] (sampleDatagram 2 [3]) 200,
    .readySend .sent]

theorem Association.delivered_in_order_sample :
    ∃ history a, Association.Runs namingEngine (some (· == 443)) () 60000 history a ∧
      a.handed.map (fun prepared => (prepared.flow, prepared.flowId.isSome)) =
        [(some 0, true), (some 0, false), (some 2, true)] ∧
      a.handed.map sniffedDomain = [some (Bytes.ofString "example.com"),
        some (Bytes.ofString "example.com"), some (Bytes.ofString "example.org")] ∧
      a.handed.Pairwise fun first second => second.flowId ≠ none → first.flow ≠ second.flow := by
  obtain ⟨a, hrun, hhanded, hdomains⟩ := run_of_exec_any
    (fun a event => a.step namingEngine (some (· == 443)) event)
    (s := Association.new () 60000) namingEvents
    (fun a => a.handed.map (fun prepared => (prepared.flow, prepared.flowId.isSome)) =
        [(some 0, true), (some 0, false), (some 2, true)] ∧
      a.handed.map sniffedDomain = [some (Bytes.ofString "example.com"),
        some (Bytes.ofString "example.com"), some (Bytes.ofString "example.org")])
    (by decide +kernel)
  exact ⟨_, a, hrun, hhanded, hdomains, (Association.delivered_in_order hrun).2.2.2.2.2.2⟩

end Vole.Tun
