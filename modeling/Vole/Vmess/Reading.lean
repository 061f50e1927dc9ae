import Vole.Vmess.Model.Stream

/-!
# What reading leaves alone

The calls that read change what was read and where it is kept, and they may cost
the stream its carrier. An invariant that is blind to that (`Blind`) holds after
them. Each rule takes what the first poll does as a hypothesis, so that it also
serves for what holds only once that poll is made.
-/

namespace Vole.Vmess

open Proc VmessStream

variable {K : Type} {crypto : Crypto K} {I P : VmessStream K → Prop} {s : VmessStream K}

/-- **An invariant that reading does not touch.** -/
structure Blind (I : VmessStream K → Prop) : Prop where
  got : ∀ {s reads got}, I s → I { s with
    carrier := { s.carrier with reads, consumed := s.carrier.consumed ++ got } }
  waited : ∀ {s reads}, I s → I { s with carrier := { s.carrier with reads } }
  kept : ∀ {s read input stage plain decoded handshake}, I s →
    I { s with read, input, stage, plain, decoded, handshake }
  gave : ∀ {s plain got}, I s → I { s with plain, returned := s.returned ++ got }
  lost : ∀ {s}, I s → I { s with io := false }

namespace Blind

variable (h : Blind I)

include h

theorem pollCarrier (amount : ℕ) : Preserves I (onCarrier (Carrier.pollRead amount)) :=
  Ensures.pollRead (fun _ _ _ hs _ => h.got hs) fun _ _ hs => h.waited hs

theorem onRead {α : Type} (x : Proc (BodyCodec K) IoError α) : Preserves I (onRead x) :=
  fun _ hs => ⟨fun _ _ => h.kept hs, fun _ _ => h.kept hs⟩

theorem fillGo (length : ℕ) (eofAllowed : Bool) (rounds : ℕ) :
    Preserves I (fill.go length eofAllowed rounds) := by
  induction rounds with
  | zero => exact .fail _
  | succ rounds ih =>
    intro s hs
    unfold fill.go
    split
    · split
      · exact ⟨nofun, fun _ _ => hs⟩
      refine Preserves.bind (h.pollCarrier _) (fun got => ?_) s hs
      split_ifs
      · exact .pure _
      · exact .fail _
      · exact (Preserves.update fun _ hs => h.kept hs).bind fun _ => ih
    · exact ⟨fun _ _ => hs, nofun⟩

theorem fill (length : ℕ) (eofAllowed : Bool) : Preserves I (fill length eofAllowed) :=
  fun s hs => h.fillGo length eofAllowed _ s hs

theorem pollBody {length : ℕ}
    (hfill : Ensures P (VmessStream.fill length false) (fun _ => I) I) (padding : ℕ) :
    Ensures P (pollBody crypto length padding) (fun _ => I) I := by
  refine hfill.bind fun _ => (Preserves.read _).bind fun input =>
    (Preserves.update fun _ hs => h.kept hs).bind fun _ => (h.onRead _).bind fun data => ?_
  split_ifs <;> exact (Preserves.update fun _ hs => h.kept hs).bind fun _ => .pure _

theorem pollLength (hread : Ensures P (onCarrier (Carrier.pollRead writeChunk)) (fun _ => I) I)
    (hfill : ∀ s, P s → s.read.framed = true →
      Ensures (· = s) (VmessStream.fill s.read.lengthSize true) (fun _ => I) I) :
    Ensures P (pollLength crypto) (fun _ => I) I := by
  intro s hs
  unfold VmessStream.pollLength
  split_ifs with hframed
  · refine Ensures.bind hread (fun got => ?_) s hs
    split_ifs <;> exact (Preserves.update fun _ hs => h.kept hs).bind fun _ => .pure _
  · refine Ensures.bind (hfill s hs (by simpa using hframed)) (fun full => ?_) s rfl
    split_ifs
    · exact (Preserves.update fun _ hs => h.kept hs).bind fun _ => .pure _
    · exact (Preserves.read _).bind fun input => (h.onRead _).bind fun sizes =>
        (Preserves.update fun _ hs => h.kept hs).bind fun _ => h.pollBody (h.fill _ _) _

theorem keeps_pollLength : Preserves I (VmessStream.pollLength crypto) :=
  h.pollLength (h.pollCarrier _) fun _ hs _ => (h.fill _ _).of_imp fun _ heq => heq ▸ hs

theorem pollResponse (length : ℕ) : Preserves I (pollResponse crypto length) := by
  refine (h.fill _ _).bind fun _ => (Preserves.read _).bind fun before => ?_
  split
  · exact .fail _
  · exact (Preserves.update fun _ hs => h.kept hs).bind fun _ => h.keeps_pollLength

theorem pollResponseLength : Preserves I (pollResponseLength crypto) := by
  refine (h.fill _ _).bind fun _ => (Preserves.read _).bind fun before => ?_
  split
  · exact .fail _
  · exact (Preserves.update fun _ hs => h.kept hs).bind fun _ => h.pollResponse _

theorem check (expired : Bool) : Preserves I (check expired) := by
  intro s hs
  unfold VmessStream.check
  split_ifs
  · exact ⟨nofun, fun _ _ => hs⟩
  · exact ⟨nofun, fun _ _ => h.lost hs⟩
  · exact ⟨fun _ _ => hs, nofun⟩

theorem pollPacketInner (expired : Bool) : Preserves I (pollPacketInner crypto expired) := by
  refine (Preserves.read _).bind fun closed => ?_
  split_ifs
  · exact .pure _
  refine (h.check expired).bind fun _ => (Preserves.read _).bind fun stage => ?_
  cases stage with
  | responseLength => exact h.pollResponseLength
  | response length => exact h.pollResponse length
  | length => exact h.keeps_pollLength
  | body length padding => exact h.pollBody (h.fill _ _) padding
  | eof => exact .pure _

theorem pollPacket {expired : Bool}
    (hinner : Ensures P (VmessStream.pollPacketInner crypto expired) (fun _ => I) I) :
    Ensures P (pollPacket crypto expired) (fun _ => I) I :=
  hinner.onFail (fun _ hs => hs) fun _ hs => h.lost hs

/-- A packet goes to the buffer. -/
theorem refilled {expired : Bool}
    (hpacket : Ensures P (VmessStream.pollPacket crypto expired) (fun _ => I) I) :
    Ensures P (do
      match ← VmessStream.pollPacket crypto expired with
      | some data =>
        Proc.update fun self => { self with plain := data }
        return true
      | none => return false : Poll K Bool) (fun _ => I) I := by
  refine hpacket.bind fun packet => ?_
  cases packet with
  | none => exact Preserves.pure _
  | some data => exact (Preserves.update fun _ hs => h.kept hs).bind fun _ => .pure _

/-- And is returned from there. -/
theorem pollRead {size : ℕ} {expired : Bool} (hsize : size = 0 → ∀ s, P s → I s)
    (hrefill : Ensures P (refill crypto expired) (fun _ => I) I) :
    Ensures P (pollRead crypto size expired) (fun _ => I) I := by
  unfold VmessStream.pollRead
  split_ifs with hzero
  · exact Ensures.pure (hsize hzero)
  refine hrefill.bind fun full => ?_
  split_ifs
  · exact (Preserves.read _).bind fun got =>
      (Preserves.update fun _ hs => h.gave hs).bind fun _ => .pure _
  · exact Preserves.pure _

/-- **A read.** -/
theorem keeps_pollRead (size : ℕ) (expired : Bool) :
    Preserves I (VmessStream.pollRead crypto size expired) := by
  refine h.pollRead (fun _ _ hs => hs) ((Preserves.read _).bind fun plain => ?_)
  split_ifs
  · exact h.refilled (h.pollPacket (h.pollPacketInner expired))
  · exact .pure _

end Blind

end Vole.Vmess
