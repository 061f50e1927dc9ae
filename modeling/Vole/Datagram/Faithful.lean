import Mathlib.Data.List.Forall2
import Vole.Common.Runs
import Vole.Datagram.Frames

/-!
# Associations over a stream

What UoT, Trojan and sing-mux are for, without how they do it: datagrams go onto a
stream and come off it again. `Faithful` says what that takes of each side. A
sender and a receiver that are faithful carry datagrams (`Faithful.round_trip`).
-/

namespace Vole.UdpStream

open List

/-- **What can be seen of an association.** -/
structure Observed where
  /-- what is on the stream -/
  written : Bytes
  /-- what is left of the datagram that was begun last -/
  left : Bytes
  /-- the datagrams that were begun, as the caller gave them -/
  asked : List Packet
  /-- and as they go onto the stream -/
  sends : List Packet
  /-- what came from the stream -/
  consumed : Bytes
  /-- the datagrams that the caller has -/
  returned : List Packet
  /-- those that it has not fetched yet -/
  queued : List Packet
  ready : Bool
  sending : Bool
  /-- the receiver waits for the stream -/
  waiting : Bool
  /-- the receiver has given up for what it read -/
  rejected : Bool

/-- **A kind of association**: how it starts for a budget, what happens to it and
what is seen of it. `reaches` is where on the stream a datagram for a destination
goes, `request` what comes before the first one, and `finishes` tells the event
with which a send ends well. With `read` the stream has these bytes, and with an
event of `ends` it ends or fails, or the caller wants no more. -/
structure Association (σ ε : Type) where
  format : Format
  transmit : UInt16 → ℕ
  receive : UInt16 → ℕ
  reaches : Destination → Destination → Prop
  request : List Packet → Bytes
  start : UInt16 → UInt16 → σ
  step : σ → ε → Option σ
  observe : σ → Observed
  finishes : ε → Bool
  read : Bytes → ε
  ends : ε → Bool

variable {σ ε : Type}

/-- What can happen to an association. -/
def Association.Runs (a : Association σ ε) (s : σ) (history : List (σ × ε)) (t : σ) : Prop :=
  Run (fun s e t => a.step s e = some t) s history t

/-- The association is cut: for what `ends` tells, or in a send that does not end well. -/
def Association.Cuts (a : Association σ ε) (past : σ × ε) : Prop :=
  a.ends past.2 = true ∨ (a.observe past.1).sending = true ∧ a.finishes past.2 = false ∧
    ∃ t, a.step past.1 past.2 = some t ∧ (a.observe t).sending = false

/-- **What every step keeps that does not cut the association**, a run keeps until it is
cut. -/
theorem Association.Runs.until_cut {a : Association σ ε} {s t : σ} {history : List (σ × ε)}
    {I : σ → Prop} (h : a.Runs s history t) (hs : I s)
    (hstep : ∀ {past u e v}, a.Runs s past u → I u → a.step u e = some v → ¬ a.Cuts (u, e) → I v) :
    I t ∨ ∃ past ∈ history, a.Cuts past := by
  induction h with
  | start => exact .inl hs
  | @next past u v e hrun htake ih =>
    rcases ih with hu | ⟨entry, hmem, hcut⟩
    · by_cases hcut : a.Cuts (u, e)
      · exact .inr ⟨_, mem_concat_self, hcut⟩
      · exact .inl (hstep hrun hu htake hcut)
    · exact .inr ⟨entry, mem_append_left _ hmem, hcut⟩

/-- What leaves the outbox as it is, and holds after it, does so for a run. -/
theorem Association.Runs.kept {a : Association σ ε} {s t : σ} {history : List (σ × ε)}
    {given : σ → Prop} {outbox : σ → Outbox} (h : a.Runs s history t) (hs : given s)
    (hstep : ∀ u e v, given u → a.step u e = some v → given v ∧ outbox v = outbox u) :
    outbox t = outbox s := by
  have hkept := h.invariant (I := fun u => given u ∧ outbox u = outbox s) ⟨hs, rfl⟩
    fun u e v hu hv => by
      have hnext := hstep u e v hu.1 hv
      exact ⟨hnext.1, hnext.2.trans hu.2⟩
  exact hkept.2

/-- **An association is faithful**, whatever happens to it. -/
structure Association.Faithful (a : Association σ ε) : Prop where
  /-- The stream is taken apart: into all its datagrams where the receiver waits for
  more, and into those before one that is none, where it has given up. -/
  received : ∀ {transmit receive : UInt16} {history : List (σ × ε)} {s : σ},
    a.Runs (a.start transmit receive) history s →
      ∃ rest, TakenApart a.format (a.receive receive) (a.observe s).consumed
          ((a.observe s).returned ++ (a.observe s).queued) rest ∧
        ((a.observe s).waiting = true →
          (a.observe s).queued = [] ∧ Unfinished a.format.Valid a.format.frame rest) ∧
        ((a.observe s).rejected = true → Hopeless a.format.Valid a.format.frame rest)
  /-- A receiver that waits takes what the stream has. -/
  takes : ∀ {transmit receive : UInt16} {history : List (σ × ε)} {s : σ},
    a.Runs (a.start transmit receive) history s → (a.observe s).waiting = true →
      ∀ {bytes : Bytes}, bytes ≠ [] → ∃ got t, got ≠ [] ∧ got <+: bytes ∧
        a.step s (a.read bytes) = some t ∧ (a.observe t).consumed = (a.observe s).consumed ++ got
  /-- A receiver can come to wait for more, unless it has a reason not to: what it read
  is no datagram, or the association was cut. -/
  settles : ∀ {transmit receive : UInt16} {history : List (σ × ε)} {s : σ},
    a.Runs (a.start transmit receive) history s → (a.observe s).sending = false →
      (∃ past ∈ history, a.Cuts past) ∨ ∃ events t, exec a.step s events = some t ∧
        (a.observe t).consumed = (a.observe s).consumed ∧
        ((a.observe t).waiting = true ∨ (a.observe t).rejected = true)
  /-- A datagram can be sent, as long as none was given up. -/
  accepted : ∀ {transmit receive : UInt16} {history : List (σ × ε)} {s : σ},
    a.Runs (a.start transmit receive) history s → (a.observe s).ready = true →
      ∀ {packet : Packet} {peer : Destination}, a.format.Valid packet →
        packet.2.length ≤ a.transmit transmit → a.reaches packet.1 peer →
          ∃ events t, exec a.step s events = some t ∧
            (a.observe t).sends = (a.observe s).sends ++ [(peer, packet.2)] ∧
            (a.observe t).left = [] ∧ (a.observe t).ready = true
  /-- The datagrams that were begun are on the stream, but for what is left of the
  last. -/
  written : ∀ {transmit receive : UInt16} {history : List (σ × ε)} {s : σ},
    a.Runs (a.start transmit receive) history s →
      (a.observe s).written ++ (a.observe s).left =
        a.request (a.observe s).sends ++ codeStream a.format.frame (a.observe s).sends
  /-- They are those of the caller. -/
  addressed : ∀ {transmit receive : UInt16} {history : List (σ × ε)} {s : σ},
    a.Runs (a.start transmit receive) history s →
      List.Forall₂ (fun asked sent => a.reaches asked.1 sent.1 ∧ asked.2 = sent.2)
        (a.observe s).asked (a.observe s).sends
  valid : ∀ {transmit receive : UInt16} {history : List (σ × ε)} {s : σ},
    a.Runs (a.start transmit receive) history s →
      (∀ packet ∈ (a.observe s).asked, Sendable packet.1) →
        ∀ packet ∈ (a.observe s).sends, a.format.Valid packet
  /-- Nothing is left of a datagram whose send has ended well. -/
  finished : ∀ {transmit receive : UInt16} {history : List (σ × ε)} {s t : σ} {e : ε},
    a.Runs (a.start transmit receive) history s → (a.observe s).sending = true →
      a.step s e = some t → a.finishes e = true → (a.observe t).left = []
  /-- Nothing is written after a send that ended otherwise. -/
  stopped : ∀ {transmit receive : UInt16} {history later : List (σ × ε)} {s t u : σ} {e : ε},
    a.Runs (a.start transmit receive) history s → (a.observe s).sending = true →
      a.step s e = some t → (a.observe t).sending = false → a.finishes e = false →
        a.Runs t later u → (a.observe u).written = (a.observe s).written

end Vole.UdpStream
