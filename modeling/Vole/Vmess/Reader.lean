import Vole.Vmess.Frames
import Vole.Vmess.Reading

/-!
# What a VMess stream reads

A receiver starts at a frame with a codec. Whatever the carrier answers and
however often a poll is pending, what it has decoded are the chunks of all that
it has consumed (`Decoded`), and what it has returned comes first among them. It
ends in one of three places (`Position`): inside a frame, at the end of the
stream, or, without frames, anywhere. `φ` stands for what may be wrong with the
carrier: a receiver fails for a frame that does not decode, or for that. Until the
end, a read that finds nothing in the buffer takes what the carrier has
(`pollRead_fetches`).
-/

namespace Vole.Vmess

open Proc VmessStream List

variable {K : Type} {crypto : Crypto K} {first : BodyCodec K} {φ : Prop} {s : VmessStream K}

/-- The part of a frame that a stage waits for. -/
def ReadStage.part : ReadStage → Option Part
  | .length => some .length
  | .body n padding => some (.body n padding)
  | _ => none

section

variable (crypto first s)

/-- **What is decoded is what was consumed.** -/
def Decoded : Prop :=
  if first.framed then
    ((framing crypto).parse (first, .length) s.carrier.consumed).1 = s.decoded
  else s.decoded.flatten = s.carrier.consumed

/-- A body has room for its padding and the tag. -/
def Room : BodyCodec K × Part → Prop
  | (_, .length) => True
  | (codec, .body length padding) => padding + codec.overhead ≤ length

/-- **Where a receiver is.** -/
inductive Position (φ : Prop) (s : VmessStream K) : Prop
  | raw (hframed : first.framed = false) (hstage : s.stage = .length ∨ s.stage = .eof ∧ φ)
    (hdecoded : s.decoded.flatten = s.carrier.consumed)
  | inside (part : Part) (hframed : first.framed = true) (hstage : s.stage.part = some part)
    (hreads : (framing crypto).Reads (first, .length) s.carrier.consumed s.decoded (s.read, part)
      s.input)
    (hshort : s.input.length < (framing crypto).need (s.read, part))
    (hroom : Room (s.read, part))
  | ended (r : BodyCodec K) (hframed : first.framed = true) (hstage : s.stage = .eof)
    (hparse : φ ∧ (framing crypto).parse (first, .length) s.carrier.consumed =
        (s.decoded, .waiting (r, .length) []) ∨
      (framing crypto).parse (first, .length) s.carrier.consumed = (s.decoded, .failed .ended))

end

theorem Position.decoded (h : Position crypto first φ s) : Decoded crypto first s := by
  unfold Decoded
  cases h with
  | raw hframed _ hdecoded => rw [hframed, if_neg (by decide), hdecoded]
  | inside part hframed _ hreads hshort _ => rw [hframed, if_pos rfl, hreads.waiting hshort]
  | ended r hframed _ hparse =>
    rw [hframed, if_pos rfl]
    rcases hparse with ⟨-, hparse⟩ | hparse <;> rw [hparse]

/-- Where a receiver is does not depend on what it has returned. -/
theorem Position.returns (h : Position crypto first φ s) (plain returned : Bytes) :
    Position crypto first φ { s with plain, returned } := by
  cases h with
  | raw hframed hstage hdecoded => exact .raw hframed hstage hdecoded
  | inside part hframed hstage hreads hshort hroom =>
    exact .inside part hframed hstage hreads hshort hroom
  | ended r hframed hstage hparse => exact .ended r hframed hstage hparse

section

variable (crypto first φ s)

/-- A receiver that goes on. -/
structure Live : Prop where
  io : s.io = true
  handshake : s.handshake = none
  closed : s.closed = false
  framed : s.read.framed = first.framed
  quiet : φ ∨ Flows s.carrier.reads
  position : Position crypto first φ s

/-- A receiver that has failed, and why. -/
structure Dead : Prop where
  io : s.io = false
  closed : s.closed = false
  decoded : Decoded crypto first s
  cause : φ ∨ first.framed = true ∧
    ∃ error, ((framing crypto).parse (first, .length) s.carrier.consumed).2 = .failed (.failed error)

/-- **A receiver between two calls.** -/
structure Receiver : Prop where
  state : Live crypto first φ s ∨ Dead crypto first φ s
  given : s.returned ++ s.plain = s.decoded.flatten

end

/-! ## Inside a frame -/

/-- A receiver that is reading a part. -/
structure Reading (crypto : Crypto K) (first : BodyCodec K) (φ : Prop) (q : BodyCodec K × Part)
    (s : VmessStream K) : Prop where
  io : s.io = true
  handshake : s.handshake = none
  closed : s.closed = false
  framed : s.read.framed = first.framed
  quiet : φ ∨ Flows s.carrier.reads
  inFrames : first.framed = true
  read : s.read = q.1
  stage : s.stage.part = some q.2
  reads : (framing crypto).Reads (first, .length) s.carrier.consumed s.decoded q s.input
  atMost : s.input.length ≤ (framing crypto).need q
  room : Room q
  plain : s.plain = []
  given : s.returned = s.decoded.flatten

namespace Reading

variable {q : BodyCodec K × Part}

theorem live (h : Reading crypto first φ q s)
    (hshort : s.input.length < (framing crypto).need q) : Live crypto first φ s := by
  refine ⟨h.io, h.handshake, h.closed, h.framed, h.quiet, .inside q.2 h.inFrames h.stage ?_ ?_ ?_⟩
  · rw [h.read]
    exact h.reads
  · rw [h.read]
    exact hshort
  · rw [h.read]
    exact h.room

end Reading

section

variable (crypto first φ) (q : BodyCodec K × Part)

/-- What a poll for a packet leaves: a packet that is not in `plain` yet, the
end, a receiver that waits, or one about to fail. -/
def Polled : Except (Stop IoError) (Option Bytes) → VmessStream K → Prop
  | .ok (some data), s => Live crypto first φ s ∧ s.plain = [] ∧ data ≠ [] ∧
    s.returned ++ data = s.decoded.flatten
  | .ok none, s => Live crypto first φ s ∧ s.plain = [] ∧ s.stage = .eof ∧
    s.returned = s.decoded.flatten
  | .error .pending, s => Live crypto first φ s ∧ s.plain = [] ∧ s.returned = s.decoded.flatten
  | .error (.failed _), s => Dead crypto first φ { s with io := false } ∧ s.plain = [] ∧
    s.returned = s.decoded.flatten

/-- What `fill` leaves. -/
def Filled (length : ℕ) (eofAllowed : Bool) : Except (Stop IoError) Bool → VmessStream K → Prop
  | .ok true, s => Reading crypto first φ q s ∧ s.input.length = length
  | .ok false, s => Reading crypto first φ q s ∧ s.input = [] ∧ 0 < length ∧ eofAllowed = true ∧ φ
  | .error .pending, s => Reading crypto first φ q s ∧ s.input.length < length
  | .error (.failed _), s => Reading crypto first φ q s ∧ s.input.length < length ∧ φ

/-- What a read of the carrier leaves, inside a part. -/
def Got (length rounds : ℕ) (s : VmessStream K) : Except (Stop IoError) Bytes → VmessStream K → Prop
  | .ok got, t => (got = [] → φ ∧ Reading crypto first φ q t ∧ t.input = s.input) ∧
    Reading crypto first φ q { t with input := s.input ++ got } ∧ t.input = s.input ∧
    t.carrier.reads.length < rounds
  | .error .pending, t => Reading crypto first φ q t ∧ t.input.length < length
  | .error (.failed _), t => Reading crypto first φ q t ∧ t.input.length < length ∧ φ

end

variable {q : BodyCodec K × Part}

theorem pollRead_got {length rounds : ℕ} (hs : Reading crypto first φ q s)
    (hneed : (framing crypto).need q = length) (hshort : s.input.length < length)
    (hrounds : s.carrier.reads.length < rounds + 1) :
    Yields (fun t => t = s)
      (onCarrier (Carrier.pollRead (min (length - s.input.length) 2048)))
      (Got crypto first φ q length rounds s) := by
  refine Yields.pollRead ?_ ?_ ?_
  · rintro t bytes reads rfl hreads
    have htail : φ ∨ Flows reads := hs.quiet.imp_right fun h => (Flows.ready (hreads ▸ h)).2
    have hamount : (bytes.take (min (length - t.input.length) 2048)).length ≤
        length - t.input.length := by
      rw [length_take]
      omega
    have hread : (framing crypto).Reads (first, .length)
        (t.carrier.consumed ++ bytes.take (min (length - t.input.length) 2048)) t.decoded
        q (t.input ++ bytes.take (min (length - t.input.length) 2048)) :=
      hs.reads.read _
    refine ⟨fun hnil => ⟨?_, ?_, rfl⟩, ?_, rfl, ?_⟩
    · -- a stream that flows has no empty read
      refine hs.quiet.resolve_right fun h => ?_
      rcases take_eq_nil_iff.mp hnil with hzero | hbytes
      · omega
      · exact (Flows.ready (hreads ▸ h)).1 hbytes
    · rw [hnil, append_nil] at hread
      rw [hnil]
      exact { hs with quiet := htail, reads := by simpa using hread }
    · refine { hs with quiet := htail, reads := hread, atMost := ?_ }
      rw [length_append]
      omega
    · rw [hreads, length_cons] at hrounds
      exact Nat.lt_of_succ_lt_succ hrounds
  · rintro t reads rfl rfl
    exact ⟨{ hs with quiet := hs.quiet.imp_right Flows.tail }, hshort⟩
  · rintro t error reads rfl hreads
    have hφ : φ := hs.quiet.resolve_right fun h => Flows.not_failed (hreads ▸ h)
    exact ⟨{ hs with quiet := .inl hφ }, hshort, hφ⟩

/-- **`fill`** reads what the part needs, and no more. -/
theorem fill_yields {length : ℕ} (eofAllowed : Bool) (hneed : (framing crypto).need q = length) :
    Yields (Reading crypto first φ q) (fill length eofAllowed)
      (Filled crypto first φ q length eofAllowed) := by
  -- every round has an answer, so the rounds do not run out
  have hgo : ∀ rounds, Yields
      (fun s => Reading crypto first φ q s ∧ s.carrier.reads.length < rounds)
      (fill.go length eofAllowed rounds)
      (Filled crypto first φ q length eofAllowed) := by
    intro rounds
    induction rounds with
    | zero => exact fun s hs => absurd hs.2 (Nat.not_lt_zero _)
    | succ rounds ih =>
      rintro s ⟨hs, hrounds⟩
      unfold fill.go
      by_cases hshort : s.input.length < length
      · rw [if_pos hshort, if_neg (by rw [hs.io]; decide)]
        refine Yields.bind (pollRead_got hs hneed hshort hrounds) (fun stop t ht => ?_)
          (fun got => ?_) s rfl
        · cases stop <;> exact ht
        by_cases hnil : got = []
        · rw [if_pos hnil]
          split_ifs with heof
          · refine .pure fun t ht => ?_
            obtain ⟨hφ, hreading, hinput⟩ := ht.1 hnil
            simp only [Bool.and_eq_true, decide_eq_true_eq] at heof
            refine ⟨hreading, hinput.trans heof.2, ?_, heof.1, hφ⟩
            omega
          · refine .fail fun t ht => ?_
            obtain ⟨hφ, hreading, hinput⟩ := ht.1 hnil
            exact ⟨hreading, by rw [hinput]; exact hshort, hφ⟩
        · rw [if_neg hnil]
          refine .update_bind (fun t ht => ⟨?_, ht.2.2.2⟩) ih
          rw [ht.2.2.1]
          exact ht.2.1
      · rw [if_neg hshort]
        have hle := hs.atMost
        rw [hneed] at hle
        exact ⟨hs, Nat.le_antisymm hle (Nat.not_lt.mp hshort)⟩
  exact fun s hs => hgo _ s ⟨hs, Nat.lt_succ_self _⟩

/-! ## Polling for a packet -/

/-- What `fill` stops with is what the poll stops with. -/
theorem Filled.polled {eofAllowed : Bool} {stop : Stop IoError}
    (h : Filled crypto first φ q ((framing crypto).need q) eofAllowed (.error stop) s) :
    Polled crypto first φ (.error stop) s := by
  cases stop with
  | pending => exact ⟨h.1.live h.2, h.1.plain, h.1.given⟩
  | failed error =>
    have hlive := h.1.live h.2.1
    exact ⟨⟨rfl, hlive.closed, hlive.position.decoded, .inl h.2.2⟩, h.1.plain, h.1.given⟩

/-- A part that does not decode. -/
theorem Reading.dead {error : IoError} {t : VmessStream K} (h : Reading crypto first φ q s)
    (hparse : (framing crypto).parse (first, .length) s.carrier.consumed =
      (s.decoded, .failed (.failed error)))
    (hsame : t.carrier = s.carrier ∧ t.decoded = s.decoded ∧ t.closed = s.closed) :
    Dead crypto first φ { t with io := false } where
  io := rfl
  closed := hsame.2.2.trans h.closed
  decoded := by
    unfold Decoded
    rw [if_pos h.inFrames]
    simp only [hsame.1, hsame.2.1, hparse]
  cause := .inr ⟨h.inFrames, error, by simp only [hsame.1, hparse]⟩

/-- **A body**: a chunk, or the end. -/
theorem pollBody_yields (r : BodyCodec K) (length padding : ℕ) :
    Yields (Reading crypto first φ (r, .body length padding))
      (pollBody crypto length padding) (Polled crypto first φ) := by
  refine .bind (fill_yields false rfl) (fun _ _ hs => hs.polled) fun full => ?_
  cases full with
  | false => exact fun s hs => absurd hs.2.2.2.1 (by decide)
  | true =>
    refine .read_bind fun input => .update_bind (M := fun t => ∃ s,
      Reading crypto first φ (r, .body length padding) s ∧ s.input.length = length ∧
        s.input = input ∧ t = { s with input := [] }) (fun s hs => ⟨s, hs.1.1, hs.1.2, hs.2, rfl⟩) ?_
    rintro t ⟨s, hs, hlength, rfl, rfl⟩
    have hframed := BodyCodec.decodeBody_framed crypto s.read s.input padding
    rw [bind_apply]
    unfold onRead
    rw [hs.read] at hframed ⊢
    rcases hrun : BodyCodec.decodeBody crypto s.input padding r with ⟨outcome, r'⟩
    rw [hrun] at hframed
    cases outcome with
    | error error =>
      have hparse := hs.reads.stopped hlength (take_body_error hrun)
      exact ⟨hs.dead hparse ⟨rfl, rfl, rfl⟩, hs.plain, hs.given⟩
    | ok data =>
      by_cases hdata : data = []
      · subst hdata
        have hparse := hs.reads.stopped hlength (take_end hrun)
        refine ⟨⟨hs.io, hs.handshake, hs.closed, ?_, hs.quiet, ?_⟩, hs.plain, rfl, hs.given⟩
        · exact hframed.trans (hs.read ▸ hs.framed)
        · exact .ended r hs.inFrames rfl (.inr hparse)
      · have hreads := hs.reads.complete hlength (take_body hdata hrun)
        simp only [Except.mapError, if_neg hdata]
        refine ⟨⟨hs.io, hs.handshake, hs.closed, ?_, hs.quiet, ?_⟩, hs.plain, hdata, ?_⟩
        · exact hframed.trans (hs.read ▸ hs.framed)
        · exact .inside .length hs.inFrames rfl hreads (lengthSize_pos r') trivial
        · change s.returned ++ data = (s.decoded ++ [data]).flatten
          rw [hs.given, flatten_concat]

/-- **A length, and the body after it.** -/
theorem pollLength_framed (r : BodyCodec K) :
    Yields (Reading crypto first φ (r, .length)) (pollLength crypto)
      (Polled crypto first φ) := by
  intro s hs
  unfold pollLength
  rw [if_neg (by rw [hs.framed, hs.inFrames]; decide), hs.read]
  refine Yields.bind (fill_yields true rfl) (fun _ _ hs => hs.polled) (fun full => ?_) s hs
  cases full with
  | false =>
    -- nothing came where a frame would start
    refine .update_bind (M := Polled crypto first φ (.ok none)) (fun s hs => ?_) (.pure fun _ h => h)
    obtain ⟨hs, hinput, hpos, -, hφ⟩ := hs
    have hparse := hs.reads.waiting (by rw [hinput]; exact hpos)
    rw [hinput] at hparse
    exact ⟨⟨hs.io, hs.handshake, hs.closed, hs.framed, hs.quiet,
      .ended r hs.inFrames rfl (.inl ⟨hφ, hparse⟩)⟩, hs.plain, rfl, hs.given⟩
  | true =>
    refine .read_bind fun input => ?_
    rintro s ⟨⟨hs, hlength⟩, rfl⟩
    have hframed := BodyCodec.decodeLength_framed crypto s.read s.input
    rw [bind_apply]
    unfold onRead
    rw [hs.read] at hframed ⊢
    rcases hrun : BodyCodec.decodeLength crypto s.input r with ⟨outcome, r'⟩
    rw [hrun] at hframed
    cases outcome with
    | error error =>
      have hparse := hs.reads.stopped hlength (take_length_error hrun)
      exact ⟨hs.dead hparse ⟨rfl, rfl, rfl⟩, hs.plain, hs.given⟩
    | ok sizes =>
      obtain ⟨length, padding⟩ := sizes
      have hreads := hs.reads.complete hlength (take_length hrun)
      refine pollBody_yields r' length padding _ { hs with
        framed := hframed.trans (hs.read ▸ hs.framed)
        read := rfl
        stage := rfl
        reads := by simpa using hreads
        atMost := Nat.zero_le _
        room := (BodyCodec.decodeLength_room hrun).1 }

/-- Without frames, what comes is what was sent. -/
theorem pollLength_raw (hraw : first.framed = false) :
    Yields (fun s => Live crypto first φ s ∧ s.stage = .length ∧ s.plain = [] ∧
        s.returned = s.decoded.flatten)
      (pollLength crypto) (Polled crypto first φ) := by
  rintro s ⟨hs, hstage, hplain, hgiven⟩
  have hdecoded : s.decoded.flatten = s.carrier.consumed := by
    have hdecoded := hs.position.decoded
    rwa [Decoded, if_neg (by rw [hraw]; decide)] at hdecoded
  unfold pollLength
  rw [if_pos (by rw [hs.framed, hraw]; decide)]
  refine Yields.bind (P := fun t => t = s) (M := fun out t => match out with
    | .ok got =>
      (got = [] → Live crypto first φ { t with stage := .eof, decoded := t.decoded ++ [got] } ∧ φ) ∧
      Live crypto first φ { t with decoded := t.decoded ++ [got] } ∧ t.plain = [] ∧
      t.returned = t.decoded.flatten
    | .error stop => Polled crypto first φ (.error stop) t) ?_ (fun _ _ h => h) (fun got => ?_) s rfl
  · refine Yields.pollRead ?_ ?_ ?_
    · rintro t bytes reads rfl hreads
      have htail : φ ∨ Flows reads := hs.quiet.imp_right fun h => (Flows.ready (hreads ▸ h)).2
      have hmore : (t.decoded ++ [bytes.take writeChunk]).flatten =
          t.carrier.consumed ++ bytes.take writeChunk := by
        rw [flatten_concat, hdecoded]
      refine ⟨fun hnil => ?_, { hs with
        quiet := htail, position := .raw hraw (.inl hstage) hmore }, hplain, hgiven⟩
      have hφ : φ := hs.quiet.resolve_right fun h =>
        (Flows.ready (hreads ▸ h)).1 ((take_eq_nil_iff.mp hnil).resolve_left (by decide))
      exact ⟨{ hs with quiet := htail, position := .raw hraw (.inr ⟨rfl, hφ⟩) hmore }, hφ⟩
    · rintro t reads rfl rfl
      exact ⟨{ hs with
        quiet := hs.quiet.imp_right Flows.tail
        position := .raw hraw (.inl hstage) hdecoded }, hplain, hgiven⟩
    · rintro t error reads rfl hreads
      have hφ : φ := hs.quiet.resolve_right fun h => Flows.not_failed (hreads ▸ h)
      exact ⟨⟨rfl, hs.closed, hs.position.decoded, .inl hφ⟩, hplain, hgiven⟩
  · split_ifs with hnil
    · refine .update_bind (M := Polled crypto first φ (.ok none)) (fun t ht => ?_)
        (.pure fun _ h => h)
      obtain ⟨hends, -, hplain, hgiven⟩ := ht
      obtain ⟨hlive, hφ⟩ := hends hnil
      refine ⟨{ hlive with position := .raw hraw (.inr ⟨rfl, hφ⟩) ?_ }, hplain, rfl, hgiven⟩
      have hposition := hlive.position.decoded
      rw [Decoded, if_neg (by rw [hraw]; decide), hnil, flatten_append] at hposition
      simpa using hposition
    · refine .update_bind (M := Polled crypto first φ (.ok (some got))) (fun t ht => ?_)
        (.pure fun _ h => h)
      obtain ⟨-, hlive, hplain, hgiven⟩ := ht
      refine ⟨hlive, hplain, hnil, ?_⟩
      rw [hgiven, flatten_concat]

/-- A poll goes by the stage. The deadline is over with the handshake. -/
theorem pollPacketInner_live (h : Live crypto first φ s) (expired : Bool) :
    pollPacketInner crypto expired s =
      (match s.stage with
        | .responseLength => pollResponseLength crypto
        | .response length => pollResponse crypto length
        | .length => pollLength crypto
        | .body length padding => pollBody crypto length padding
        | .eof => return none) s := by
  have hcheck : check expired s = (.ok (), s) := by
    unfold check
    rw [h.io, h.handshake]
    rfl
  unfold pollPacketInner
  rw [bind_of_ok (read_apply _ _), h.closed, if_neg (by decide), bind_of_ok hcheck]
  refine (bind_of_ok (read_apply _ _)).trans ?_
  cases s.stage <;> rfl

/-- **A poll for a packet.** -/
theorem pollPacketInner_yields (expired : Bool) :
    Yields (fun s => Live crypto first φ s ∧ s.plain = [] ∧ s.returned = s.decoded.flatten)
      (pollPacketInner crypto expired) (Polled crypto first φ) := by
  rintro s ⟨hs, hplain, hgiven⟩
  rw [pollPacketInner_live hs]
  cases hs.position with
  | raw hframed hstage _ =>
    rcases hstage with hstage | ⟨hstage, -⟩
    · rw [hstage]
      exact pollLength_raw hframed s ⟨hs, hstage, hplain, hgiven⟩
    · rw [hstage]
      exact ⟨hs, hplain, hstage, hgiven⟩
  | inside part hframed hstage hreads hshort hroom =>
    have hreading : Reading crypto first φ (s.read, part) s :=
      ⟨hs.io, hs.handshake, hs.closed, hs.framed, hs.quiet, hframed, rfl, hstage, hreads,
        Nat.le_of_lt hshort, hroom, hplain, hgiven⟩
    cases hat : s.stage with
    | length =>
      rw [hat] at hstage
      cases hstage
      exact pollLength_framed s.read s hreading
    | body length padding =>
      rw [hat] at hstage
      cases hstage
      exact pollBody_yields s.read length padding s hreading
    | responseLength | response | eof =>
      rw [hat] at hstage
      cases hstage
  | ended r hframed hstage _ =>
    rw [hstage]
    exact ⟨hs, hplain, hstage, hgiven⟩

/-! ## Reading -/

/-- What `poll_read` leaves. It returns nothing only at the end. -/
def Delivered (crypto : Crypto K) (first : BodyCodec K) (φ : Prop) :
    Except (Stop IoError) Bytes → VmessStream K → Prop
  | .ok got, s => Receiver crypto first φ s ∧
    (got = [] → Live crypto first φ s ∧ s.stage = .eof)
  | .error _, s => Receiver crypto first φ s

/-- A receiver that has returned all it has decoded. -/
theorem Receiver.of_polled (hstate : Live crypto first φ s ∨ Dead crypto first φ s)
    (hplain : s.plain = []) (hgiven : s.returned = s.decoded.flatten) : Receiver crypto first φ s :=
  ⟨hstate, by rw [hplain, append_nil, hgiven]⟩

/-- What `poll_packet` leaves. -/
def Answered (crypto : Crypto K) (first : BodyCodec K) (φ : Prop) :
    Except (Stop IoError) (Option Bytes) → VmessStream K → Prop
  | .ok packet, s => Polled crypto first φ (.ok packet) s
  | .error _, s => Receiver crypto first φ s

/-- **`poll_packet`**: a stream that has lost its carrier only says so. -/
theorem pollPacket_yields (expired : Bool) :
    Yields (fun s => Receiver crypto first φ s ∧ s.plain = [])
      (pollPacket crypto expired) (Answered crypto first φ) := by
  rintro s ⟨hs, hplain⟩
  have hgiven : s.returned = s.decoded.flatten := by
    have hgiven := hs.given
    rwa [hplain, append_nil] at hgiven
  rcases hs.state with hlive | hdead
  · have hpoll : Yields
        (fun s => Live crypto first φ s ∧ s.plain = [] ∧ s.returned = s.decoded.flatten)
        (pollPacket crypto expired) (Answered crypto first φ) :=
      (pollPacketInner_yields expired).onFail (fun _ _ h => h)
        (fun _ ht => .of_polled (.inl ht.1) ht.2.1 ht.2.2)
        fun _ _ ht => .of_polled (.inr ht.1) ht.2.1 ht.2.2
    exact hpoll s ⟨hlive, hplain, hgiven⟩
  · have hinner : pollPacketInner crypto expired s =
        (.error (.failed ⟨.brokenPipe, ""⟩), s) := by
      unfold pollPacketInner
      rw [bind_of_ok (read_apply _ _), hdead.closed, if_neg (by decide), bind_apply]
      unfold check
      rw [hdead.io]
      rfl
    unfold pollPacket VmessStream.fail onFail
    rw [hinner]
    exact .of_polled (.inr { hdead with io := rfl }) hplain hgiven

/-- What `refill` leaves. -/
def Refilled (crypto : Crypto K) (first : BodyCodec K) (φ : Prop) :
    Except (Stop IoError) Bool → VmessStream K → Prop
  | .ok true, s => Receiver crypto first φ s ∧ s.plain ≠ []
  | .ok false, s => Receiver crypto first φ s ∧ Live crypto first φ s ∧ s.stage = .eof
  | .error _, s => Receiver crypto first φ s

theorem refill_yields (expired : Bool) :
    Yields (Receiver crypto first φ) (refill crypto expired)
      (Refilled crypto first φ) := by
  refine .read_bind fun plain => ?_
  split_ifs with hplain
  · refine .bind ((pollPacket_yields expired).of_imp fun s hs => ⟨hs.1, hs.2.trans hplain⟩)
      (fun _ _ h => h) fun packet => ?_
    cases packet with
    | none =>
      exact .pure fun s hs => ⟨.of_polled (.inl hs.1) hs.2.1 hs.2.2.2, hs.1, hs.2.2.1⟩
    | some data =>
      refine .update_bind (M := Refilled crypto first φ (.ok true)) (fun s hs => ?_)
        (.pure fun _ hs => hs)
      obtain ⟨hlive, -, hdata, hgiven⟩ := hs
      exact ⟨⟨.inl { hlive with position := hlive.position.returns data s.returned }, hgiven⟩, hdata⟩
  · exact .pure fun s hs => ⟨hs.1, hs.2 ▸ hplain⟩

/-- A receiver returns from what it has decoded. -/
theorem Receiver.returns (h : Receiver crypto first φ s) (size : ℕ) :
    Receiver crypto first φ
      { s with plain := s.plain.drop size, returned := s.returned ++ s.plain.take size } := by
  refine ⟨?_, ?_⟩
  · rcases h.state with hlive | hdead
    · exact .inl { hlive with position := hlive.position.returns _ _ }
    · exact .inr { hdead with }
  · change (s.returned ++ s.plain.take size) ++ s.plain.drop size = s.decoded.flatten
    rw [append_assoc, take_append_drop]
    exact h.given

/-- **Reading.** -/
theorem pollRead_yields {size : ℕ} (hsize : size ≠ 0) (expired : Bool) :
    Yields (Receiver crypto first φ) (pollRead crypto size expired)
      (Delivered crypto first φ) := by
  unfold pollRead
  rw [if_neg hsize]
  refine .bind (refill_yields expired) (fun _ _ h => h) fun full => ?_
  cases full with
  | false => exact .pure fun s hs => ⟨hs.1, fun _ => hs.2⟩
  | true =>
    refine .read_bind fun got => ?_
    rintro s ⟨⟨hs, hplain⟩, rfl⟩
    refine ⟨hs.returns size, fun hnil => ?_⟩
    rcases take_eq_nil_iff.mp hnil with hzero | hempty
    · exact absurd hzero hsize
    · exact absurd hempty hplain

/-! ## The end of the carrier -/

/-- A read that the carrier answers. -/
theorem onCarrier_ready {bytes : Bytes} {rest : List (Answer IoError Bytes)}
    (hreads : s.carrier.reads = .ready bytes :: rest) (amount : ℕ) :
    onCarrier (Carrier.pollRead amount) s = (.ok (bytes.take amount), { s with
      carrier := { s.carrier with
        reads := rest, consumed := s.carrier.consumed ++ bytes.take amount } }) := by
  unfold onCarrier within Carrier.pollRead
  rw [hreads]
  rfl

/-- Nothing more comes, and something is missing. -/
theorem fill_eof {length : ℕ} {eofAllowed : Bool} {rest : List (Answer IoError Bytes)}
    (hio : s.io = true) (hshort : s.input.length < length)
    (hreads : s.carrier.reads = .ready [] :: rest) (hcut : eofAllowed = true → s.input ≠ []) :
    (fill length eofAllowed s).1 = .error (.failed ⟨.unexpectedEof, ""⟩) := by
  have hread := onCarrier_ready hreads (min (length - s.input.length) 2048)
  have hstop : (eofAllowed && decide (s.input = [])) = false := by
    cases eofAllowed with
    | false => rfl
    | true => exact decide_eq_false (hcut rfl)
  unfold fill fill.go
  rw [if_pos hshort, if_neg (by rw [hio]; decide), bind_of_ok hread, take_nil, if_pos rfl,
    append_nil, hstop]
  rfl

/-- **A stream that ends inside a frame is an error.** -/
theorem pollRead_eof {size : ℕ} {rest : List (Answer IoError Bytes)} {part : Part}
    (hs : Live crypto first φ s) (hplain : s.plain = []) (hsize : size ≠ 0)
    (hframed : first.framed = true) (hstage : s.stage.part = some part)
    (hshort : s.input.length < (framing crypto).need (s.read, part))
    (hcut : part = .length → s.input ≠ [])
    (hreads : s.carrier.reads = .ready [] :: rest) (expired : Bool) :
    (pollRead crypto size expired s).1 = .error (.failed ⟨.unexpectedEof, ""⟩) := by
  have hinner : (pollPacketInner crypto expired s).1 =
      .error (.failed ⟨.unexpectedEof, ""⟩) := by
    rw [pollPacketInner_live hs]
    cases hat : s.stage with
    | length =>
      rw [hat] at hstage
      cases hstage
      change (pollLength crypto s).1 = _
      unfold pollLength
      rw [if_neg (by rw [hs.framed, hframed]; decide)]
      exact bind_of_error (fill_eof hs.io hshort hreads fun _ => hcut rfl)
    | body length padding =>
      rw [hat] at hstage
      cases hstage
      exact bind_of_error (fill_eof hs.io hshort hreads nofun)
    | responseLength | response | eof =>
      rw [hat] at hstage
      cases hstage
  unfold pollRead refill
  rw [if_neg hsize]
  refine bind_of_error ?_
  rw [bind_of_ok (read_apply _ _), if_pos hplain]
  exact bind_of_error ((onFail_fst _ _ _).trans hinner)

/-! ## Progress -/

/-- What was consumed and returned is so still. -/
def Moved (consumed returned : Bytes) (s : VmessStream K) : Prop :=
  consumed <+: s.carrier.consumed ∧ returned <+: s.returned

theorem Moved.blind (consumed returned : Bytes) : Blind (Moved (K := K) consumed returned) where
  got h := ⟨h.1.trans (prefix_append _ _), h.2⟩
  waited h := h
  kept h := h
  gave h := ⟨h.1, h.2.trans (prefix_append _ _)⟩
  lost h := h

/-- And one byte more was consumed. -/
def Fetched (s t : VmessStream K) : Prop :=
  ∃ byte, Moved (s.carrier.consumed ++ [byte]) s.returned t

theorem Fetched.blind (s : VmessStream K) : Blind (Fetched s) where
  got := fun ⟨byte, h⟩ => ⟨byte, (Moved.blind _ _).got h⟩
  waited := fun ⟨byte, h⟩ => ⟨byte, h⟩
  kept := fun ⟨byte, h⟩ => ⟨byte, h⟩
  gave := fun ⟨byte, h⟩ => ⟨byte, (Moved.blind _ _).gave h⟩
  lost := fun ⟨byte, h⟩ => ⟨byte, h⟩

section Fetching

variable {bytes : Bytes} {rest : List (Answer IoError Bytes)}
  (hreads : s.carrier.reads = .ready bytes :: rest) (hbytes : bytes ≠ [])

include hreads hbytes

/-- The first read takes something. -/
theorem onCarrier_fetches {amount : ℕ} (hamount : amount ≠ 0) :
    ∃ got t, onCarrier (Carrier.pollRead amount) s = (.ok got, t) ∧ got ≠ [] ∧ Fetched s t := by
  refine ⟨_, _, onCarrier_ready hreads amount, fun hnil => ?_, ?_⟩
  · exact (take_eq_nil_iff.mp hnil).elim hamount hbytes
  · obtain ⟨byte, more, rfl⟩ := exists_cons_of_ne_nil hbytes
    obtain ⟨amount, rfl⟩ := Nat.exists_eq_succ_of_ne_zero hamount
    exact ⟨byte, ⟨more.take amount, by rw [append_assoc]; rfl⟩, prefix_refl _⟩

theorem fill_fetches {length : ℕ} (hio : s.io = true) (hshort : s.input.length < length)
    (eofAllowed : Bool) :
    Ensures (· = s) (fill length eofAllowed) (fun _ => Fetched s) (Fetched s) := by
  intro t ht
  rw [ht]
  obtain ⟨got, t, hread, hgot, hfetched⟩ := onCarrier_fetches hreads hbytes
    (show min (length - s.input.length) 2048 ≠ 0 by omega)
  unfold fill fill.go
  rw [if_pos hshort, if_neg (by rw [hio]; decide), bind_of_ok hread, if_neg hgot]
  exact ((Preserves.update fun _ h => (Fetched.blind s).kept h).bind fun _ =>
    (Fetched.blind s).fillGo length eofAllowed _) t hfetched

/-- **A read that finds nothing in the buffer takes something from the carrier**, until
the end. -/
theorem pollRead_fetches (hs : Live crypto first φ s) (hplain : s.plain = [])
    (hstage : s.stage ≠ .eof) {size : ℕ} (hsize : size ≠ 0) (expired : Bool) :
    Fetched s (pollRead crypto size expired s).2 := by
  have hblind := Fetched.blind s
  have hread : Ensures (· = s) (onCarrier (Carrier.pollRead writeChunk)) (fun _ => Fetched s)
      (Fetched s) := by
    intro t ht
    rw [ht]
    obtain ⟨got, t, hread, -, hfetched⟩ := onCarrier_fetches hreads hbytes
      (show writeChunk ≠ 0 by decide)
    rw [hread]
    exact ⟨fun _ _ => hfetched, nofun⟩
  have hinner : Ensures (· = s) (pollPacketInner crypto expired) (fun _ => Fetched s)
      (Fetched s) := by
    intro t ht
    rw [ht, pollPacketInner_live hs]
    cases hs.position with
    | raw hraw hat _ =>
      rw [hat.resolve_right fun h => hstage h.1]
      refine hblind.pollLength hread (fun t ht hframed => ?_) s rfl
      rw [ht, hs.framed, hraw] at hframed
      cases hframed
    | inside part _ hpart _ hshort _ =>
      cases hat : s.stage with
      | length =>
        rw [hat] at hpart
        cases hpart
        refine hblind.pollLength hread (fun t ht _ => ?_) s rfl
        rw [ht]
        exact fill_fetches hreads hbytes hs.io hshort true
      | body length padding =>
        rw [hat] at hpart
        cases hpart
        exact hblind.pollBody (fill_fetches hreads hbytes hs.io hshort false) padding s rfl
      | responseLength | response | eof =>
        rw [hat] at hpart
        cases hpart
    | ended _ _ hended _ => exact absurd hended hstage
  have hrefill : Ensures (· = s) (refill crypto expired) (fun _ => Fetched s) (Fetched s) := by
    intro t ht
    rw [ht]
    unfold refill
    rw [bind_of_ok (read_apply _ _), if_pos hplain]
    exact hblind.refilled (hblind.pollPacket hinner) s rfl
  exact (hblind.pollRead (fun h => absurd h hsize) hrefill).always rfl

end Fetching

/-- **A read that finds something in the buffer returns of it.** -/
theorem pollRead_buffered (hplain : s.plain ≠ []) {size : ℕ} (hsize : size ≠ 0) (expired : Bool) :
    (pollRead crypto size expired s).2 =
      { s with plain := s.plain.drop size, returned := s.returned ++ s.plain.take size } := by
  have hrefill : refill crypto expired s = (.ok true, s) := by
    unfold refill
    rw [bind_of_ok (read_apply _ _), if_neg hplain]
    rfl
  unfold pollRead
  rw [if_neg hsize, bind_of_ok hrefill]
  rfl

/-! ## Runs -/

/-- The stream after reads. -/
def readAll (crypto : Crypto K) (s : VmessStream K) (reads : List (ℕ × Surroundings)) :
    VmessStream K :=
  reads.foldl (fun s read => s.after crypto (.read read.1, read.2)) s

section

variable (h : Receiver crypto first φ s)

include h

theorem Receiver.around (surroundings : Surroundings)
    (hquiet : φ ∨ Flows surroundings.reads) : Receiver crypto first φ (s.around surroundings) := by
  refine ⟨?_, h.given⟩
  rcases h.state with hlive | hdead
  · refine .inl { hlive with quiet := hquiet, position := ?_ }
    cases hlive.position with
    | raw hframed hstage hdecoded => exact .raw hframed hstage hdecoded
    | inside part hframed hstage hreads hshort hroom =>
      exact .inside part hframed hstage hreads hshort hroom
    | ended r hframed hstage hparse => exact .ended r hframed hstage hparse
  · exact .inr { hdead with }

/-- **A read.** -/
theorem Receiver.read (size : ℕ) (surroundings : Surroundings)
    (hquiet : φ ∨ Flows surroundings.reads) :
    Receiver crypto first φ (s.after crypto (.read size, surroundings)) := by
  have hstart := h.around surroundings hquiet
  have hcall : Preserves (Receiver crypto first φ)
      (call crypto (.read size) surroundings) := by
    refine Preserves.bind ?_ fun _ => .pure _
    by_cases hsize : size = 0
    · unfold pollRead
      rw [if_pos hsize]
      exact .pure _
    intro s hs
    have hread := pollRead_yields hsize surroundings.expired s hs
    refine ⟨fun got hgot => ?_, fun stop hstop => ?_⟩
    · rw [hgot] at hread
      exact hread.1
    · rw [hstop] at hread
      exact hread
  exact hcall.always hstart

/-- **Any reads.** -/
theorem Receiver.readAll (reads : List (ℕ × Surroundings))
    (hquiet : φ ∨ ∀ read ∈ reads, Flows read.2.reads) :
    Receiver crypto first φ (readAll crypto s reads) :=
  foldlRecOn reads _ h fun _ h read hmem =>
    h.read read.1 read.2 (hquiet.imp_right fun hall => hall read hmem)

end

/-- The receive state that matches what a handshake writes. -/
def receiver (crypto : Crypto K) (carrier : Carrier IoError) (handshake : ClientHandshake) :
    VmessStream K :=
  { new crypto carrier handshake with
    handshake := none
    read := (new crypto carrier handshake).write
    stage := .length }

theorem Receiver.start {carrier : Carrier IoError} (handshake : ClientHandshake)
    (hconsumed : carrier.consumed = []) (hquiet : φ ∨ Flows carrier.reads) :
    Receiver crypto (new crypto carrier handshake).write φ
      (receiver crypto carrier handshake) := by
  refine ⟨.inl ⟨rfl, rfl, rfl, rfl, hquiet, ?_⟩, rfl⟩
  cases hframed : (new crypto carrier handshake).write.framed with
  | false => exact .raw hframed (.inl rfl) hconsumed.symm
  | true =>
    refine .inside .length hframed rfl ?_ (lengthSize_pos _) trivial
    change (framing crypto).Reads _ carrier.consumed [] _ []
    rw [hconsumed]
    exact Framing.Reads.start _

end Vole.Vmess
