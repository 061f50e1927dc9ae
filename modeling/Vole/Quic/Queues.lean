import Vole.Quic.Adapter

/-!
# The queues of the QUIC datagram adapter

Both queues are bounded (`Bounded`), and both keep the order: what was put in
is what was taken out and what is left, until `finish` clears them
(`Ordered`). No datagram is dropped for a full queue: the task receives only
where it has seen room, and nobody else fills the queue.
-/

namespace Vole.Quic

open List Bool Nat

/-- The task has seen room in the incoming queue, and has not filled it. -/
def Driver.sawRoom : Driver → Bool
  | .selecting canReceive => canReceive
  | .waiting canReceive => canReceive
  | .notified canReceive => canReceive
  | .received _ => true
  | _ => false

theorem Driver.sawRoom_of_select {driver : Driver} (h : driver.select = some true) :
    driver.sawRoom = true := by
  cases driver <;> first | exact Option.some.inj h | cases h

namespace Adapter

variable {attachment : Attachment} {s t : Adapter} {e : Event}
  {history : List (Adapter × Event)}

/-! ## Bounds -/

/-- **The queues are bounded**, and no datagram was dropped for a full
queue. -/
structure Bounded (s : Adapter) : Prop where
  incoming : s.state.incoming.length ≤ queueLimit
  outgoing : s.state.outgoing.length ≤ queueLimit
  room : s.driver.sawRoom = true → s.state.incoming.length < queueLimit
  dropped : s.state.stats.droppedFull = 0

namespace Bounded

theorem init : Bounded attached where
  incoming := zero_le _
  outgoing := zero_le _
  room h := by cases h
  dropped := rfl

/-- The queues get no longer. -/
theorem of_le (h : Bounded s) (hincoming : t.state.incoming.length ≤ s.state.incoming.length)
    (houtgoing : t.state.outgoing.length ≤ s.state.outgoing.length)
    (hdropped : t.state.stats.droppedFull = s.state.stats.droppedFull)
    (hdriver : t.driver.sawRoom = true → s.driver.sawRoom = true) : Bounded t where
  incoming := le_trans hincoming h.incoming
  outgoing := le_trans houtgoing h.outgoing
  room hroom := lt_of_le_of_lt hincoming (h.room (hdriver hroom))
  dropped := hdropped.trans h.dropped

theorem finishes (h : Bounded s) {stage : Finish} (hfinishes : Finishes s stage t) : Bounded t := by
  cases hfinishes with
  | closes _ => exact h.of_le (zero_le _) (zero_le _) rfl id
  | wakesReader | wakesWriter => exact { h with }

theorem advances (h : Bounded s) {i : ℕ} {place : Place}
    (hadvances : Advances attachment s i place t) : Bounded t := by
  cases hadvances with
  | returns _ | readerRegistered | readPending _ _ _ | writerRegistered | writeReady
  | writePending _ _ _ =>
    exact { h with }
  | @pushed transmit stats hlock hrefuses hclosed hroom hstats =>
    have houtgoing := h.outgoing
    refine ⟨h.incoming, ?_, h.room, hstats.trans h.dropped⟩
    change (s.state.outgoing ++ [transmit.contents]).length ≤ queueLimit
    rw [length_append, length_singleton]
    omega
  | sent | delivered =>
    exact { h with room := fun hroom => h.room (hroom ▸ by cases s.driver <;> rfl) }
  | popped hlock hclosed hincoming _ =>
    refine h.of_le ?_ (le_refl _) rfl id
    rw [hincoming]
    exact le_succ _

/-- **One step.** -/
theorem turn (h : Bounded s) (hturn : Turn attachment s e t) : Bounded t := by
  cases hturn with
  | started _ | spent _ _ | woken _ | readerWoken _ | emptied _ _ _ | writerWoken _ | left _ _
  | sent _ | aborted _ _ =>
    exact { h with room := nofun }
  | looped _ _ => exact ⟨h.incoming, h.outgoing, of_decide_eq_true, h.dropped⟩
  | suspended hdriver _ => exact { h with room := fun hroom => h.room (hdriver ▸ hroom) }
  | rejected _ _ _ hstats | counted _ _ _ hstats =>
    exact h.of_le (le_refl _) (le_refl _) hstats nofun
  | overflowed hdriver _ hfull =>
    -- the task receives only where it has seen room
    have hroom := h.room (by rw [hdriver]; rfl)
    omega
  | @stored datagram stats hdriver _ _ _ hstats =>
    have hroom := h.room (by rw [hdriver]; rfl)
    refine ⟨?_, h.outgoing, nofun, hstats.trans h.dropped⟩
    rw [length_append, length_singleton]
    omega
  | popped _ _ houtgoing =>
    refine h.of_le (le_refl _) ?_ rfl nofun
    rw [houtgoing]
    exact le_succ _
  | @finished stage u _ hfinishes =>
    have hfinished := h.finishes hfinishes
    refine { hfinished with room := fun hroom => ?_ }
    cases stage <;> cases hroom
  | received hselect _ => 
    exact { h with room := fun _ => h.room (Driver.sawRoom_of_select hselect) }
  | joined _ | dropped _ | aborting _ | called => exact { h with }
  | closed _ hfinishes =>
    have hfinished := h.finishes hfinishes
    exact { hfinished with }
  | advanced _ hadvances => exact h.advances hadvances

end Bounded

/-! ## Order -/

/-- **The queues keep the order.** What is put in is what is taken out and what
is left; after `finish`, what was taken out came first. -/
structure Ordered (attachment : Attachment) (s : Adapter) : Prop where
  cleared : s.state.closed = true → s.state.outgoing = []
  accepted : s.state.closed = false → s.accepted = s.taken ++ s.state.outgoing
  taken : s.taken <+: s.accepted
  admitted : s.state.closed = false → s.admitted = s.delivered ++ s.state.incoming
  delivered : s.delivered <+: s.admitted
  filtered : s.admitted = (s.received.filter attachment.admits).map (·.payload)

namespace Ordered

theorem init : Ordered attachment attached where
  cleared _ := rfl
  accepted _ := rfl
  taken := prefix_refl _
  admitted _ := rfl
  delivered := prefix_refl _
  filtered := rfl

variable (h : Ordered attachment s)

include h

theorem finishes {stage : Finish} (hfinishes : Finishes s stage t) :
    Ordered attachment t := by
  cases hfinishes with
  | closes _ => exact ⟨fun _ => rfl, nofun, h.taken, nofun, h.delivered, h.filtered⟩
  | wakesReader | wakesWriter => exact { h with }

theorem advances {i : ℕ} {place : Place}
    (hadvances : Advances attachment s i place t) : Ordered attachment t := by
  cases hadvances with
  | @pushed transmit stats hlock hrefuses hclosed hroom hstats =>
    have haccepted : s.accepted ++ [transmit.contents] =
        s.taken ++ (s.state.outgoing ++ [transmit.contents]) := by
      rw [h.accepted hclosed, append_assoc]
    refine ⟨fun hclosed' => ?_, fun _ => haccepted, ?_, h.admitted, h.delivered, h.filtered⟩
    · exact absurd (hclosed.symm.trans hclosed') false_ne_true
    · exact h.taken.trans (prefix_append _ _)
  | @popped buffers slots payload buffer rest info hlock hclosed hincoming _ =>
    have hadmitted : s.admitted = (s.delivered ++ [payload]) ++ rest := by
      rw [h.admitted hclosed, hincoming, append_assoc]
      rfl
    exact ⟨h.cleared, h.accepted, h.taken, fun _ => hadmitted, ⟨rest, hadmitted.symm⟩, h.filtered⟩
  | _ => exact { h with }

/-- **One step.** -/
theorem turn (hbounded : Bounded s) (hturn : Turn attachment s e t) :
    Ordered attachment t := by
  cases hturn with
  | @rejected datagram stats _ _ hadmits _ =>
    refine ⟨h.cleared, h.accepted, h.taken, h.admitted, h.delivered, ?_⟩
    rw [filter_append, filter_cons_of_neg (by simp [hadmits]), filter_nil,
      append_nil]
    exact h.filtered
  | overflowed hdriver _ hfull =>
    have hroom := hbounded.room (by rw [hdriver]; rfl)
    omega
  | @stored datagram stats _ _ hadmits _ _ =>
    refine ⟨h.cleared, h.accepted, h.taken, fun hclosed => ?_,
      h.delivered.trans (prefix_append _ _), ?_⟩
    · change s.admitted ++ [datagram.payload] =
        s.delivered ++ (s.state.incoming ++ [datagram.payload])
      rw [h.admitted hclosed, append_assoc]
    · change s.admitted ++ [datagram.payload] = _
      rw [filter_append, filter_cons_of_pos hadmits, map_append, h.filtered]
      rfl
  | @popped payload rest _ _ houtgoing =>
    have hopen : s.state.closed = false := by
      refine eq_false_of_ne_true fun hclosed => ?_
      rw [h.cleared hclosed] at houtgoing
      cases houtgoing
    have haccepted : s.accepted = (s.taken ++ [payload]) ++ rest := by
      rw [h.accepted hopen, houtgoing, append_assoc]
      rfl
    refine ⟨fun hclosed => ?_, fun _ => haccepted, ⟨rest, haccepted.symm⟩, h.admitted,
      h.delivered, h.filtered⟩
    exact absurd (hopen.symm.trans hclosed) false_ne_true
  | finished _ hfinishes | closed _ hfinishes =>
    have hfinished := h.finishes hfinishes
    exact { hfinished with }
  | advanced _ hadvances => exact h.advances hadvances
  | _ => exact { h with }

end Ordered

/-! ## The runs -/

/-- The runs of the adapter, with any transport and any endpoint. -/
def Runs (attachment : Attachment) (history : List (Adapter × Event)) (t : Adapter) : Prop :=
  Run (fun s e t => s.step attachment e = some t) attached history t

theorem Runs.bounded (h : Runs attachment history t) : Bounded t :=
  h.invariant .init fun _ _ _ hbounded hstep => hbounded.turn (turn_of_step hstep)

theorem Runs.ordered (h : Runs attachment history t) : Ordered attachment t := by
  have hboth : Bounded t ∧ Ordered attachment t :=
    h.invariant (I := fun t => Bounded t ∧ Ordered attachment t) ⟨.init, .init⟩
      fun _ _ _ hboth hstep =>
        ⟨hboth.1.turn (turn_of_step hstep), hboth.2.turn hboth.1 (turn_of_step hstep)⟩
  exact hboth.2

end Adapter

end Vole.Quic
