import Vole.Common.Runs
import Vole.Vmess.Frames
import Vole.Vmess.Reading

/-!
# What a VMess stream writes

The carrier has taken the frames of the chunks, in order, but for the output
that is left (`Writer`). A call may stop anywhere: a pending carrier leaves the
rest in the output, and a failure leaves the stream without a carrier, so that
no later call encodes with a codec that was stopped in the middle of a frame.
What is encoded is what the calls' answers accept (`Accounted`), but for a packet
whose send failed.
-/

namespace Vole.Vmess

open Proc VmessStream BodyCodec List

variable {K : Type} {crypto : Crypto K} {first : BodyCodec K} {s : VmessStream K}

/-- A frame with a chunk, from one length to the next. -/
def Chunk (crypto : Crypto K) (s : BodyCodec K × Part) (frame : Bytes) (chunks : List Bytes)
    (t : BodyCodec K × Part) : Prop :=
  ∃ plain, chunks = [plain] ∧ plain ≠ [] ∧ s.2 = .length ∧ t.2 = .length ∧
    IsFrame crypto s.1 plain frame t.1

theorem Chunk.reads {s t : BodyCodec K × Part} {frame : Bytes} {chunks : List Bytes}
    (h : Chunk crypto s frame chunks t) : (framing crypto).Reads s frame chunks t [] := by
  obtain ⟨r, part⟩ := s
  obtain ⟨r', part'⟩ := t
  obtain ⟨plain, rfl, hne, rfl, rfl, hframe⟩ := h
  exact hframe.reads hne

/-- The frames of a stream as a chain of them. -/
def wireFrames (frames : List (Bytes × Bytes)) : List (Bytes × List Bytes) :=
  frames.map fun frame => (frame.2, [frame.1])

variable (frames : List (Bytes × Bytes))

theorem wireFrames_fst : (wireFrames frames).map Prod.fst = frames.map Prod.snd := by
  rw [wireFrames, map_map]
  rfl

theorem wireFrames_snd : ((wireFrames frames).map Prod.snd).flatten = frames.map Prod.fst := by
  induction frames with
  | nil => rfl
  | cons frame frames ih => exact congrArg (frame.1 :: ·) ih

/-- What was encoded. -/
def VmessStream.encoded (s : VmessStream K) : Bytes := (s.frames.map Prod.fst).flatten

/-- **What a stream has written**, from a codec on. -/
structure Writer (crypto : Crypto K) (first : BodyCodec K) (s : VmessStream K) : Prop where
  options : s.write.options = first.options
  framed : s.write.framed = first.framed
  keys : s.write.keyOf = first.keyOf
  limit : s.write.writeLimit ≤ maxPacketBytes
  wire : s.carrier.wire ++ s.output = (s.frames.map Prod.snd).flatten ++ s.last.getD []
  chunks : ∀ frame ∈ s.frames, frame.1 ≠ []
  raw : first.framed = false → (∀ frame ∈ s.frames, frame.2 = frame.1) ∧ s.last.getD [] = []
  sized : first.framed = true → ∀ frame ∈ s.frames.map Prod.snd ++ s.last.toList,
    BodyCodec.Sized first frame
  chain : first.framed = true → ∃ r,
    Framing.Chain (Chunk crypto) (first, .length) (wireFrames s.frames) (r, .length) ∧
      (s.io = true → s.last = none → BodyCodec.Agrees s.write r) ∧
      ∀ frame, s.last = some frame → ∃ r', IsFrame crypto r [] frame r'
  last : s.shutdown = false → s.last = none
  nodup : s.write.seals.Nodup
  fresh : s.io = true → BodyCodec.Fresh s.write
  gone : s.closed = true → s.io = false ∧ s.output = []

/-- And its chunks, each with its frame. -/
structure Wrote (crypto : Crypto K) (first : BodyCodec K) (frames : List (Bytes × Bytes))
    (s : VmessStream K) : Prop extends Writer crypto first s where
  same : s.frames = frames

variable {frames}

theorem Wrote.encoded_append {t : VmessStream K} {more : List (Bytes × Bytes)}
    (h : Wrote crypto first (s.frames ++ more) t) :
    t.encoded = s.encoded ++ (more.map Prod.fst).flatten := by
  rw [encoded, encoded, h.same, map_append, flatten_append]

namespace Writer

section

variable (h : Writer crypto first s)

include h

/-- A stream that has lost its carrier, perhaps in the middle of a frame. -/
theorem kin {c' : BodyCodec K} (hkin : BodyCodec.Kin s.write c')
    (hnodup : c'.seals.Nodup) : Writer crypto first { s with write := c', io := false } :=
  { h with
    options := hkin.options.trans h.options
    framed := hkin.framed.trans h.framed
    keys := hkin.keyOf.trans h.keys
    limit := hkin.writeLimit ▸ h.limit
    chain := fun hframed => by
      obtain ⟨r, hchain, -, hlast⟩ := h.chain hframed
      exact ⟨r, hchain, nofun, hlast⟩
    nodup := hnodup
    fresh := nofun
    gone := fun hclosed => ⟨rfl, (h.gone hclosed).2⟩ }

theorem broken : Writer crypto first { s with io := false } :=
  h.kin ⟨rfl, rfl, rfl, rfl⟩ h.nodup

/-- A stream with a carrier is not closed. -/
theorem not_gone (hio : s.io = true) {p : Prop} (hclosed : s.closed = true) : p := by
  rw [(h.gone hclosed).1] at hio
  cases hio

/-! ## Encoding -/

/-- A frame of the next chunk, or of the end. -/
theorem frame_of_encode (hio : s.io = true) (hlast : s.last = none)
    {plain frame : Bytes} {random : Option (ℕ → UInt8)} {c' : BodyCodec K}
    (hplain : plain.length ≤ s.write.writeLimit) (hframed : first.framed = true)
    (hrun : encodeFrame crypto plain random s.write = (.ok frame, c')) :
    BodyCodec.Sized first frame ∧ ∃ r r',
      Framing.Chain (Chunk crypto) (first, .length) (wireFrames s.frames) (r, .length) ∧
        IsFrame crypto r plain frame r' ∧ BodyCodec.Agrees c' r' := by
  obtain ⟨r, hchain, hagrees, -⟩ := h.chain hframed
  have hsmall : plain.length ≤ maxPacketBytes := Nat.le_trans hplain h.limit
  obtain ⟨r', hframe, hagrees'⟩ := isFrame_encodeFrame (hagrees hio hlast) hsmall hrun
  obtain ⟨head, rest, _, _, rfl, hhead, hroom, hfits, -⟩ :=
    decodes_encodeFrame (hagrees hio hlast) hsmall hrun
  refine ⟨⟨head, rest, rfl, ?_, ?_, hfits⟩, r, r', hchain, hframe, hagrees'⟩
  · rw [hhead, lengthSize, lengthSize, h.options]
  · have hsame : s.write.overhead = first.overhead := by
      rw [overhead, overhead, h.options]
    omega

/-- What `encode` does to the codec of a stream. Where it fails, it has stopped
in the middle of a frame. -/
theorem onWrite_encode (hio : s.io = true) (plain : Bytes)
    (random : Option (ℕ → UInt8)) :
    Ensures (fun t => t = s) (onWrite (encode crypto plain random))
      (fun frame t => ∃ c', t = { s with write := c' } ∧ BodyCodec.Kin s.write c' ∧
        BodyCodec.Fresh c' ∧ plain.length ≤ s.write.writeLimit ∧
        (s.write.framed = false → frame = plain) ∧
        (s.write.framed = true →
          encodeFrame crypto plain random s.write = (.ok frame, c')))
      (fun t => Wrote crypto first s.frames { t with io := false }) := by
  intro t ht
  subst ht
  obtain ⟨hok, herror⟩ := encode_spec crypto (h.fresh hio) plain random t.write rfl
  unfold onWrite
  rcases hrun : encode crypto plain random t.write with ⟨outcome, c'⟩
  rw [hrun] at hok herror
  cases outcome with
  | ok frame =>
    refine ⟨fun frame' hframe => ?_, nofun⟩
    cases hframe
    exact ⟨c', rfl, hok frame rfl⟩
  | error error =>
    obtain ⟨hkin, hnodup⟩ := herror error rfl
    exact ⟨nofun, fun _ _ => ⟨h.kin hkin hnodup, rfl⟩⟩

end

/-- A stream that may encode. -/
structure Ready (crypto : Crypto K) (first : BodyCodec K) (frames : List (Bytes × Bytes))
    (s : VmessStream K) : Prop extends Wrote crypto first frames s where
  io : s.io = true
  drained : s.output = []
  unended : s.last = none

/-- The chunks, and one more. -/
def Sent (crypto : Crypto K) (first : BodyCodec K) (frames : List (Bytes × Bytes)) (chunk : Bytes)
    (s : VmessStream K) : Prop :=
  ∃ frame, Wrote crypto first (frames ++ [(chunk, frame)]) s

/-- **A chunk goes to the output.** -/
theorem encodeChunk {chunk : Bytes} (hchunk : chunk ≠ []) (random : Option (ℕ → UInt8)) :
    Ensures (Ready crypto first frames) (VmessStream.encodeChunk crypto chunk random)
      (fun _ => Sent crypto first frames chunk)
      (fun s => Wrote crypto first frames { s with io := false }) := by
  intro s hs
  obtain rfl := hs.same
  refine Ensures.bind (hs.onWrite_encode hs.io chunk random) (fun frame => .update ?_) s rfl
  rintro t ⟨c', rfl, hkin, hfresh, hfits, hraw, hframe⟩
  have hlast := hs.unended
  have hencoded := fun hframed : first.framed = true =>
    hs.frame_of_encode hs.io hlast hfits hframed (hframe (hs.framed.trans hframed))
  exact ⟨frame, { hs.kin hkin hfresh.nodup with
    wire := by
      have hwire := hs.wire
      simp only [hs.drained, hlast, Option.getD_none, append_nil, map_append,
        flatten_append, map_cons, map_nil, flatten_cons,
        flatten_nil] at hwire ⊢
      rw [hwire]
    chunks := forall_mem_concat.mpr ⟨hs.chunks, hchunk⟩
    raw := fun hplain => ⟨forall_mem_concat.mpr ⟨(hs.raw hplain).1, hraw (hs.framed.trans hplain)⟩,
      (hs.raw hplain).2⟩
    sized := fun hframed entry hentry => by
      obtain ⟨hsized, -⟩ := hencoded hframed
      simp only [hlast, Option.toList_none, append_nil, map_append,
        map_cons, map_nil] at hentry
      exact forall_mem_concat.mpr ⟨fun _ hold => hs.sized hframed _ (mem_append_left _ hold), hsized⟩
        entry hentry
    chain := fun hframed => by
      obtain ⟨-, r, r', hchain, hisFrame, hagrees⟩ := hencoded hframed
      refine ⟨r', ?_, fun _ _ => hagrees, fun _ hsome => ?_⟩
      · simp only [wireFrames, map_append]
        exact hchain.concat ⟨chunk, rfl, hchunk, rfl, rfl, hisFrame⟩
      · cases hlast.symm.trans hsome
    fresh := fun _ => hfresh
    gone := hs.not_gone hs.io
    same := rfl }⟩

/-- **The end goes to the output**, after `shutdown` is set. -/
theorem encodeEnd (random : Option (ℕ → UInt8)) :
    Ensures (fun s => Ready crypto first frames s ∧ s.shutdown = true)
      (VmessStream.encodeEnd crypto random) (fun _ => Wrote crypto first frames)
      (fun s => Wrote crypto first frames { s with io := false }) := by
  rintro s ⟨hs, hshutdown⟩
  obtain rfl := hs.same
  refine Ensures.bind (hs.onWrite_encode hs.io [] random) (fun frame => .update ?_) s rfl
  rintro t ⟨c', rfl, hkin, hfresh, hfits, hraw, hframe⟩
  have hlast := hs.unended
  have hencoded := fun hframed : first.framed = true =>
    hs.frame_of_encode hs.io hlast hfits hframed (hframe (hs.framed.trans hframed))
  exact { hs.kin hkin hfresh.nodup with
    wire := by
      have hwire := hs.wire
      simp only [hs.drained, hlast, Option.getD_none, Option.getD_some, append_nil] at hwire ⊢
      rw [hwire]
    raw := fun hplain => ⟨(hs.raw hplain).1, hraw (hs.framed.trans hplain)⟩
    sized := fun hframed entry hentry => by
      obtain ⟨hsized, -⟩ := hencoded hframed
      exact forall_mem_concat.mpr ⟨fun _ hold => hs.sized hframed _ (mem_append_left _ hold), hsized⟩
        entry hentry
    chain := fun hframed => by
      obtain ⟨-, r, r', hchain, hisFrame, -⟩ := hencoded hframed
      refine ⟨r, hchain, nofun, fun frame' hsome => ?_⟩
      cases hsome
      exact ⟨r', hisFrame⟩
    last := fun hfalse => by
      rw [hshutdown] at hfalse
      cases hfalse
    fresh := fun _ => hfresh
    gone := hs.not_gone hs.io
    same := rfl }

/-! ## The calls that write -/

/-- A writer that was shut down, or was not. -/
structure Held (crypto : Crypto K) (first : BodyCodec K) (frames : List (Bytes × Bytes))
    (closed : Bool) (s : VmessStream K) : Prop extends Wrote crypto first frames s where
  closed : s.shutdown = closed

/-- And that has its carrier, with nothing left in the output. -/
structure Drained (crypto : Crypto K) (first : BodyCodec K) (frames : List (Bytes × Bytes))
    (closed : Bool) (s : VmessStream K) : Prop extends Held crypto first frames closed s where
  io : s.io = true
  drained : s.output = []

variable {closed : Bool}

theorem Drained.ready (h : Drained crypto first frames false s) : Ready crypto first frames s :=
  ⟨h.toWrote, h.io, h.drained, h.last h.closed⟩

theorem Held.broken (h : Held crypto first frames closed s) :
    Held crypto first frames closed { s with io := false } :=
  { h.toWriter.broken with same := h.same, closed := h.closed }

variable {P : VmessStream K → Prop}

/-- Failing costs the stream its carrier. -/
theorem fail {α : Type} {x : Poll K α}
    {Q : α → VmessStream K → Prop} (h : Ensures P x Q (Held crypto first frames closed)) :
    Ensures P (VmessStream.fail x) Q (Held crypto first frames closed) :=
  h.onFail (fun _ hs => hs) fun _ hs => hs.broken

theorem check (expired : Bool) :
    Ensures (Held crypto first frames closed) (VmessStream.check expired)
      (fun _ s => Held crypto first frames closed s ∧ s.io = true)
      (Held crypto first frames closed) := by
  intro s hs
  unfold VmessStream.check
  cases hio : s.io with
  | false => exact ⟨nofun, fun _ _ => hs⟩
  | true =>
    rw [if_neg (by decide)]
    split_ifs
    · exact ⟨nofun, fun _ _ => hs.broken⟩
    · exact ⟨fun _ _ => ⟨hs, hio⟩, nofun⟩

/-- **The output goes to the carrier**, as far as it is taken. -/
theorem drain (closed expired : Bool) :
    Ensures (Held crypto first frames closed) (VmessStream.fail (VmessStream.drain expired))
      (fun _ => Drained crypto first frames closed) (Held crypto first frames closed) := by
  refine fail (.bind (check expired) fun _ => ?_)
  refine .bind (M := fun _ s => Held crypto first frames closed s ∧ s.io = true)
    (.read fun _ hs => hs) fun rounds => ?_
  refine (Ensures.repeatWhile rounds ?_ fun _ hs => hs.1).mono
    (fun _ s hs => ⟨hs.1.1, hs.1.2, of_not_not (of_decide_eq_false hs.2)⟩) fun _ hs => hs
  refine .bind (M := fun output s =>
      s.output = output ∧ Held crypto first frames closed s ∧ s.io = true)
    (.read fun s hs => ⟨rfl, hs.1⟩) fun output => ?_
  -- what the carrier took is on the wire and still in the output
  refine .bind (M := fun count s =>
    Held crypto first frames closed { s with output := output.drop count } ∧
      s.output = output ∧ s.io = true) ?_ fun count => ?_
  · refine Ensures.pollWrite (fun s count writes hs _ => ⟨?_, hs.1, hs.2.2⟩) fun s writes hs => ?_
    · refine { hs.2.1 with wire := ?_, gone := hs.2.1.not_gone hs.2.2 }
      have hwire := hs.2.1.wire
      simp only [hs.1] at hwire
      simp only [append_assoc, take_append_drop]
      exact hwire
    · exact { hs.2.1 with }
  · split_ifs with hzero
    · refine Ensures.fail fun s hs => ?_
      obtain ⟨hheld, houtput, -⟩ := hs
      rw [hzero, drop_zero, ← houtput] at hheld
      exact hheld
    · exact .update fun s hs => ⟨hs.1, hs.2.2⟩

theorem pollFlush (closed expired : Bool) :
    Ensures (Held crypto first frames closed) (VmessStream.pollFlush expired)
      (fun _ => Drained crypto first frames closed) (Held crypto first frames closed) := by
  refine .bind (drain closed expired) fun _ => fail ?_
  exact Ensures.pollFlush (fun s _ hs => { hs with }) fun s _ hs => { hs with }

/-- What was encoded only in part is the end of the stream. -/
theorem failEncode {x : Poll K Unit} {Q : Unit → VmessStream K → Prop}
    (hnever : ∀ s, (x s).1 ≠ .error .pending)
    (h : Ensures P x Q fun s => Wrote crypto first frames { s with io := false }) :
    Ensures P (VmessStream.fail x) Q (Wrote crypto first frames) :=
  h.onFail_of_ne_pending hnever fun _ hs => hs

theorem encodeChunk_ne_pending (chunk : Bytes) (random : Option (ℕ → UInt8)) (s : VmessStream K) :
    (VmessStream.encodeChunk crypto chunk random s).1 ≠ .error .pending := by
  rw [VmessStream.encodeChunk, bind_apply]
  unfold onWrite
  rcases encode crypto chunk random s.write with ⟨_ | _, c'⟩ <;> nofun

theorem encodeEnd_ne_pending (random : Option (ℕ → UInt8)) (s : VmessStream K) :
    (VmessStream.encodeEnd crypto random s).1 ≠ .error .pending := by
  rw [VmessStream.encodeEnd, bind_apply]
  unfold onWrite
  rcases encode crypto [] random s.write with ⟨_ | _, c'⟩ <;> nofun

/-- What holds whether or not the stream was shut down. -/
theorem of_held {α : Type} {x : Poll K α} {Q : α → VmessStream K → Prop} {R : VmessStream K → Prop}
    (h : ∀ closed, Ensures (Held crypto first frames closed) x Q R) :
    Ensures (Wrote crypto first frames) x Q R :=
  fun s hs => h s.shutdown s ⟨hs, rfl⟩

/-- **The bytes that `poll_write` counts** are the chunk it encodes. -/
theorem pollWrite (data : Bytes) (expired : Bool) (random : Option (ℕ → UInt8)) :
    Ensures (Wrote crypto first frames) (VmessStream.pollWrite crypto data expired random)
      (fun count s => ∃ more, Wrote crypto first (frames ++ more) s ∧
        (more.map Prod.fst).flatten = data.take count)
      (Wrote crypto first frames) := by
  refine of_held fun closed => .bind ((drain closed expired).mono (fun _ _ hs => hs)
    fun _ hs => hs.toWrote) fun _ => ?_
  refine .bind (M := fun shut s => Drained crypto first frames shut s)
    (.read fun _ hs => { hs with closed := rfl }) fun shut => ?_
  split_ifs with hclosed hdata
  · exact .fail fun _ hs => hs.toWrote
  · refine .pure fun _ hs => ⟨[], ?_, rfl⟩
    rw [append_nil]
    exact hs.toWrote
  have hchunk : data.take writeChunk ≠ [] := by
    rw [Ne, take_eq_nil_iff]
    exact fun h => h.elim (by decide) hdata
  refine .bind (M := fun _ => Sent crypto first frames (data.take writeChunk)) ?_
    fun _ => .pure fun s hs => ?_
  · refine failEncode (encodeChunk_ne_pending _ random) ((encodeChunk hchunk random).of_imp ?_)
    intro s hs
    rw [eq_false_of_ne_true hclosed] at hs
    exact hs.ready
  · obtain ⟨frame, hs⟩ := hs
    refine ⟨[_], hs, ?_⟩
    rw [map_singleton, flatten_singleton, length_take, ← take_eq_take_min]

theorem flush (expired : Bool) :
    Ensures (Wrote crypto first frames) (VmessStream.pollFlush expired)
      (fun _ s => Wrote crypto first frames s ∧ s.output = []) (Wrote crypto first frames) :=
  of_held fun closed => (pollFlush closed expired).mono (fun _ _ hs => ⟨hs.toWrote, hs.drained⟩)
    fun _ hs => hs.toWrote

theorem pollShutdown (expired : Bool) (random : Option (ℕ → UInt8)) :
    Ensures (Wrote crypto first frames) (VmessStream.pollShutdown crypto expired random)
      (fun _ s => Wrote crypto first frames s ∧ s.output = []) (Wrote crypto first frames) := by
  -- both ways end with a flush
  have hrest : Ensures (Wrote crypto first frames)
      (do VmessStream.pollFlush expired
          VmessStream.fail (onCarrier Carrier.pollShutdown))
      (fun _ s => Wrote crypto first frames s ∧ s.output = []) (Wrote crypto first frames) := by
    refine .bind (flush expired) fun _ => Ensures.onFail (R := Wrote crypto first frames) ?_
      (fun _ hs => hs) fun _ hs => ⟨hs.toWriter.broken, hs.same⟩
    exact Ensures.pollShutdown (fun s _ hs => ⟨{ hs.1 with }, hs.2⟩) fun s _ hs => { hs.1 with }
  refine .bind (M := fun before s => Wrote crypto first frames s ∧ before.closed = s.closed)
    (.read fun _ hs => ⟨hs, rfl⟩) fun before => ?_
  split_ifs with hclosed hwhole
  · exact .pure fun _ hs => ⟨hs.1, (hs.1.gone (hs.2 ▸ hclosed)).2⟩
  · refine .bind ((flush expired).of_imp fun _ hs => hs.1) fun _ => .update fun s hs => ⟨?_, hs.2⟩
    exact { hs.1.toWriter.broken with
      last := nofun, gone := fun _ => ⟨rfl, hs.2⟩, same := hs.1.same }
  refine .bind (M := fun _ s => Drained crypto first frames s.shutdown s) ?_ fun _ => ?_
  · intro s hs
    obtain ⟨hok, herror⟩ := drain s.shutdown expired s ⟨hs.1, rfl⟩
    exact ⟨fun _ hdone => { hok () hdone with closed := rfl },
      fun stop hstop => (herror stop hstop).toWrote⟩
  refine .bind (M := fun shut s => Drained crypto first frames shut s)
    (.read fun _ hs => hs) fun shut => ?_
  cases shut with
  | true => exact hrest.of_imp fun _ hs => hs.toWrote
  | false =>
    refine .bind (M := fun _ s => Ready crypto first frames s ∧ s.shutdown = true) (.update ?_)
      fun _ => .bind (failEncode (encodeEnd_ne_pending random) (encodeEnd random)) fun _ => hrest
    intro s hs
    exact ⟨{ hs.ready with last := nofun }, rfl⟩

/-- A future that is polled until it is done, or dropped. -/
theorem await {α : Type} {Q : α → VmessStream K → Prop} {x : Poll K α}
    (h : Ensures P x Q P) (polls : ℕ) : Ensures P (VmessStream.await x polls) Q P := by
  induction polls with
  | zero => exact .fail fun _ hs => hs
  | succ polls ih =>
    intro s hs
    obtain ⟨hok, herror⟩ := h s hs
    unfold VmessStream.await
    rcases hrun : x s with ⟨outcome, t⟩
    rw [hrun] at hok herror
    rcases outcome with (_ | error) | value
    · exact ih t (herror _ rfl)
    · exact ⟨nofun, fun _ _ => herror _ rfl⟩
    · exact ⟨fun value' hvalue => hok value' hvalue, nofun⟩

/-- A packet that is not sent costs the stream its carrier. -/
theorem datagramSend_of {packet : Bytes} {expired : Bool} {random : Option (ℕ → UInt8)} {polls : ℕ}
    {Q : Unit → VmessStream K → Prop} {R : VmessStream K → Prop}
    (h : Ensures P (VmessStream.sendPacket crypto packet expired random polls) Q
      fun s => R { s with io := false }) :
    Ensures P (VmessStream.datagramSend crypto packet expired random polls) Q R := by
  intro s hs
  obtain ⟨hok, herror⟩ := h s hs
  unfold VmessStream.datagramSend
  rcases hrun : VmessStream.sendPacket crypto packet expired random polls s with ⟨outcome, t⟩
  rw [hrun] at hok herror
  cases outcome with
  | error stop => exact ⟨nofun, fun _ _ => herror stop rfl⟩
  | ok value => exact ⟨fun _ _ => hok value rfl, nofun⟩

theorem sendPacket (packet : Bytes) (expired : Bool) (random : Option (ℕ → UInt8)) (polls : ℕ) :
    Ensures (Wrote crypto first frames)
      (VmessStream.sendPacket crypto packet expired random polls)
      (fun _ => Sent crypto first frames packet)
      (fun s => Wrote crypto first frames { s with io := false } ∨
        Sent crypto first frames packet { s with io := false }) := by
  refine .bind (M := fun before s => Held crypto first frames before.shutdown s)
    (.read fun _ hs => ⟨hs, rfl⟩) fun before => ?_
  split_ifs with hclosed hpacket
  · exact .fail fun _ hs => .inl hs.broken.toWrote
  · exact .fail fun _ hs => .inl hs.broken.toWrote
  have hchunk : packet ≠ [] := fun hnil => hpacket (.inl hnil)
  rw [eq_false_of_ne_true hclosed]
  refine .bind ((await (pollFlush false expired) polls).mono (fun _ _ hs => hs)
      fun _ hs => .inl hs.broken.toWrote)
    fun _ => .bind (((encodeChunk hchunk random).of_imp fun _ hs => hs.ready).mono
      (fun _ _ hs => hs) fun _ hs => .inl hs) fun _ => ?_
  rintro s ⟨frame, hs⟩
  obtain ⟨hok, herror⟩ := await (flush expired) polls s hs
  refine ⟨fun _ hdone => ⟨frame, (hok () hdone).1⟩, fun stop hstop => .inr ⟨frame, ?_⟩⟩
  exact ⟨(herror stop hstop).toWriter.broken, (herror stop hstop).same⟩

/-- **A packet takes the stream with it where it is not sent.** -/
theorem datagramSend (packet : Bytes) (expired : Bool) (random : Option (ℕ → UInt8)) (polls : ℕ) :
    Ensures (Wrote crypto first frames)
      (VmessStream.datagramSend crypto packet expired random polls)
      (fun _ => Sent crypto first frames packet)
      (fun s => s.io = false ∧
        (Wrote crypto first frames s ∨ Sent crypto first frames packet s)) :=
  datagramSend_of ((sendPacket packet expired random polls).mono (fun _ _ hs => hs)
    fun _ hs => ⟨rfl, hs⟩)

/-! ## Calls -/

/-- What a call has accepted, by what it ensures. -/
theorem took_of_call {taken : Call} {around : Surroundings} {Q : ℕ → VmessStream K → Prop}
    {R : VmessStream K → Prop} (h : Ensures P (VmessStream.call crypto taken around) Q R)
    (hs : P (s.around around)) :
    (∃ count, s.took crypto (taken, around) = taken.accepts count ∧
        Q count (s.after crypto (taken, around))) ∨
      s.took crypto (taken, around) = [] ∧ R (s.after crypto (taken, around)) := by
  obtain ⟨hok, herror⟩ := h _ hs
  unfold VmessStream.after took answer
  rcases hrun : VmessStream.call crypto taken around (s.around around) with ⟨outcome, t⟩
  rw [hrun] at hok herror
  cases outcome with
  | ok count => exact .inl ⟨count, rfl, hok count rfl⟩
  | error stop => exact .inr ⟨rfl, herror stop rfl⟩

/-- The calls that read leave what is written alone. -/
theorem blind : Blind (Wrote crypto first frames) where
  got hs := { hs with }
  waited hs := { hs with }
  kept hs := { hs with }
  gave hs := { hs with }
  lost hs := ⟨hs.toWriter.broken, hs.same⟩

/-- What a call adds to the chunks, by its answer. -/
theorem call (taken : Call) (around : Surroundings) :
    Ensures (Wrote crypto first frames) (VmessStream.call crypto taken around)
      (fun count s => ∃ more, Wrote crypto first (frames ++ more) s ∧
        (more.map Prod.fst).flatten = taken.accepts count)
      (fun s => Wrote crypto first frames s ∨ s.io = false ∧
        ∃ packet polls, taken = .send packet polls ∧ Sent crypto first frames packet s) := by
  -- most calls add nothing
  have hnothing : ∀ {x : Poll K ℕ}, (∀ count, taken.accepts count = []) →
      Preserves (Wrote crypto first frames) x →
      Ensures (Wrote crypto first frames) x
        (fun count s => ∃ more, Wrote crypto first (frames ++ more) s ∧
          (more.map Prod.fst).flatten = taken.accepts count)
        (fun s => Wrote crypto first frames s ∨ s.io = false ∧
          ∃ packet polls, taken = .send packet polls ∧ Sent crypto first frames packet s) := by
    intro x haccepts hx
    refine hx.mono (fun count _ hs => ⟨[], ?_, (haccepts count).symm⟩) fun _ hs => .inl hs
    rw [append_nil]
    exact hs
  cases taken with
  | read size => exact hnothing (fun _ => rfl) ((blind.keeps_pollRead _ _).bind fun _ => .pure _)
  | write data => exact (pollWrite data _ _).mono (fun _ _ hs => hs) fun _ hs => .inl hs
  | flush =>
    exact hnothing (fun _ => rfl) (Preserves.bind ((flush _).mono (fun _ _ hs => hs.1)
      fun _ hs => hs) fun _ => .pure _)
  | shutdown =>
    exact hnothing (fun _ => rfl) (Preserves.bind ((pollShutdown _ _).mono (fun _ _ hs => hs.1)
      fun _ hs => hs) fun _ => .pure _)
  | send packet polls =>
    refine .bind ((datagramSend packet _ _ polls).mono (fun _ _ hs => hs) ?_) fun _ => .pure ?_
    · rintro s ⟨hio, hs | hs⟩
      · exact .inl hs
      · exact .inr ⟨hio, packet, polls, rfl, hs⟩
    · rintro s ⟨frame, hs⟩
      exact ⟨[_], hs, append_nil packet⟩

theorem after (h : Writer crypto first s) (taken : Call × Surroundings) :
    Writer crypto first (s.after crypto taken) := by
  have hstart : Wrote crypto first s.frames (s.around taken.2) := { h with same := rfl }
  refine Ensures.always ((call taken.1 taken.2).mono ?_ ?_) hstart
  · rintro _ t ⟨_, hwrote, -⟩
    exact hwrote.toWriter
  · rintro t (hwrote | ⟨-, _, _, -, _, hwrote⟩)
    · exact hwrote.toWriter
    · exact hwrote.toWriter

/-- **After a flush or a shutdown** that is answered, nothing is left in the output. -/
theorem drained (h : Writer crypto first s) {taken : Call}
    (htaken : taken = .flush ∨ taken = .shutdown) {around : Surroundings} {count : ℕ}
    (hanswer : s.answer crypto (taken, around) = .ok count) :
    (s.after crypto (taken, around)).output = [] := by
  have hstart : Wrote crypto first s.frames (s.around around) := { h with same := rfl }
  have hcall : Ensures (Wrote crypto first s.frames) (VmessStream.call crypto taken around)
      (fun _ t => t.output = []) (Wrote crypto first s.frames) := by
    rcases htaken with rfl | rfl
    · exact .bind (flush _) fun _ => .pure fun _ hs => hs.2
    · exact .bind (pollShutdown _ _) fun _ => .pure fun _ hs => hs.2
  exact (hcall _ hstart).1 count hanswer

end Writer

/-! ## A flush that is answered -/

section Answered

variable (hio : s.io = true) {count : ℕ} {rest : List (Answer IoError ℕ)}
  (hwrites : s.carrier.writes = .ready count :: rest) (hroom : s.output.length ≤ count)

include hio hwrites hroom

/-- A carrier that takes the output takes all of it at once. -/
theorem drain_answered : ∃ t, VmessStream.fail (drain false) s = (.ok (), t) ∧
    t.carrier.flushes = s.carrier.flushes := by
  have hcheck : check false s = (.ok (), s) := by
    unfold check
    rw [hio, if_neg (by decide), Bool.and_false, if_neg (by decide)]
  have hwrite : onCarrier (Carrier.pollWrite s.output) s =
      (.ok s.output.length, { s with
        carrier := { s.carrier with writes := rest, wire := s.carrier.wire ++ s.output } }) := by
    unfold onCarrier within Carrier.pollWrite
    simp only [hwrites, Carrier.next, Nat.min_eq_right hroom]
    rw [List.take_length]
  have hdrain : ∃ t, drain false s = (.ok (), t) ∧ t.carrier.flushes = s.carrier.flushes := by
    unfold drain
    rw [bind_of_ok hcheck, bind_of_ok (read_apply _ _), hwrites]
    unfold repeatWhile
    rw [bind_of_ok (read_apply _ _)]
    by_cases houtput : s.output = []
    · rw [if_neg (by simpa using houtput)]
      exact ⟨s, rfl, rfl⟩
    · have hround : (do
          let output ← Proc.read output
          let count ← onCarrier (Carrier.pollWrite output)
          if count = 0 then failKind .writeZero
          else Proc.update fun self => { self with output := output.drop count } : Poll K Unit) s =
          (.ok (), { s with
            carrier := { s.carrier with writes := rest, wire := s.carrier.wire ++ s.output }
            output := [] }) := by
        rw [bind_of_ok (read_apply _ _), bind_of_ok hwrite, if_neg (by simpa using houtput),
          drop_length]
        rfl
      rw [if_pos (decide_eq_true houtput), bind_of_ok hround]
      exact ⟨_, rfl, rfl⟩
  obtain ⟨t, hdrain, hflushes⟩ := hdrain
  refine ⟨t, ?_, hflushes⟩
  unfold VmessStream.fail onFail
  rw [hdrain]

theorem flush_answered {later : List (Answer IoError Unit)}
    (hflushes : s.carrier.flushes = .ready () :: later) : (pollFlush false s).1 = .ok () := by
  obtain ⟨t, hdrain, ht⟩ := drain_answered hio hwrites hroom
  unfold pollFlush
  rw [bind_of_ok hdrain]
  unfold VmessStream.fail
  rw [onFail_fst]
  change (Carrier.next t.carrier.flushes).1 = _
  rw [ht, hflushes]
  rfl

end Answered

/-- **A carrier that takes the output** is enough for a flush. -/
theorem answer_flush (hio : s.io = true) {around : Surroundings}
    (hexpired : around.expired = false) {count : ℕ} {rest : List (Answer IoError ℕ)}
    {later : List (Answer IoError Unit)}
    (hwrites : around.writes = .ready count :: rest) (hroom : s.output.length ≤ count)
    (hflushes : around.flushes = .ready () :: later) :
    s.answer crypto (.flush, around) = .ok 0 := by
  have hflush := flush_answered (s := s.around around) hio hwrites hroom hflushes
  change ((pollFlush around.expired >>= fun _ => pure 0) (s.around around)).1 = _
  rw [hexpired, bind_apply]
  rcases hrun : pollFlush false (s.around around) with ⟨_ | _, t⟩
  · rw [hrun] at hflush
    cases hflush
  · rfl

/-! ## A stream without a carrier -/

/-- It has lost its carrier, after these chunks. -/
def Gone (frames : List (Bytes × Bytes)) (s : VmessStream K) : Prop :=
  s.io = false ∧ s.frames = frames

namespace Gone

theorem blind : Blind (Gone (K := K) frames) where
  got hs := hs
  waited hs := hs
  kept hs := hs
  gave hs := hs
  lost hs := ⟨rfl, hs.2⟩

theorem drain (expired : Bool) :
    Ensures (Gone (K := K) frames) (VmessStream.fail (VmessStream.drain expired))
      (fun _ _ => False) (Gone frames) := by
  refine Ensures.onFail (R := Gone frames) (.bind (M := fun _ _ => False) ?_ fun _ _ hs => hs.elim)
    (fun _ hs => hs) fun _ hs => ⟨rfl, hs.2⟩
  intro s hs
  unfold check
  rw [hs.1, if_pos (by decide)]
  exact ⟨nofun, fun _ _ => hs⟩

theorem flush (expired : Bool) :
    Ensures (Gone (K := K) frames) (pollFlush expired) (fun _ _ => False) (Gone frames) :=
  .bind (drain expired) fun _ _ hs => hs.elim

theorem send (packet : Bytes) (expired : Bool) (random : Option (ℕ → UInt8)) (polls : ℕ) :
    Ensures (Gone frames) (datagramSend crypto packet expired random polls) (fun _ _ => False)
      (Gone frames) := by
  have hsend : Ensures (Gone frames) (sendPacket crypto packet expired random polls)
      (fun _ _ => False) (Gone frames) := by
    refine Ensures.read_bind fun before => ?_
    split_ifs
    · exact .fail fun _ hs => hs
    · exact .fail fun _ hs => hs
    · exact .bind (Writer.await (flush expired) polls) fun _ _ hs => hs.elim
  exact Writer.datagramSend_of (hsend.mono (fun _ _ hs => hs) fun _ hs => ⟨rfl, hs.2⟩)

/-- **No call adds to it.** -/
theorem call (taken : Call) (around : Surroundings) :
    Ensures (Gone frames) (VmessStream.call crypto taken around)
      (fun count s => Gone frames s ∧ taken.accepts count = []) (Gone frames) := by
  cases taken with
  | read size => exact .bind (blind.keeps_pollRead _ _) fun _ => .pure fun _ hs => ⟨hs, rfl⟩
  | write data => exact .bind (drain _) fun _ _ hs => hs.elim
  | flush => exact .bind (flush _) fun _ _ hs => hs.elim
  | shutdown =>
    refine .bind (M := fun _ => Gone frames) (Ensures.read_bind fun before => ?_)
      fun _ => .pure fun _ hs => ⟨hs, rfl⟩
    split_ifs
    · exact .pure fun _ hs => hs
    · exact .bind (flush _) fun _ _ hs => hs.elim
    · exact .bind (drain _) fun _ _ hs => hs.elim
  | send packet polls => exact .bind (send packet _ _ polls) fun _ _ hs => hs.elim

theorem after (hio : s.io = false) (taken : Call × Surroundings) :
    Gone s.frames (s.after crypto taken) ∧ s.took crypto taken = [] := by
  have hstart : Gone s.frames (s.around taken.2) := ⟨hio, rfl⟩
  rcases Writer.took_of_call (call taken.1 taken.2) hstart with
    ⟨_, htook, hgone, hnothing⟩ | ⟨htook, hgone⟩
  · exact ⟨hgone, htook.trans hnothing⟩
  · exact ⟨hgone, htook⟩

end Gone

/-! ## Runs -/

/-- **What was encoded is what the calls accepted**, but for the packet of a send
that took the stream with it. -/
structure Accounted (crypto : Crypto K) (first : BodyCodec K) (calls : List (Call × Surroundings))
    (writer : VmessStream K) (accepted : Bytes) : Prop extends Writer crypto first writer where
  account : ∃ lost, writer.encoded = accepted ++ lost ∧
    (lost = [] ∨ writer.io = false ∧ ∃ polls around, (.send lost polls, around) ∈ calls)

variable {calls : List (Call × Surroundings)} {accepted : Bytes}

/-- **A call.** -/
theorem Accounted.call (h : Accounted crypto first calls s accepted) {taken : Call × Surroundings}
    (hmem : taken ∈ calls) :
    Accounted crypto first calls (s.after crypto taken) (accepted ++ s.took crypto taken) := by
  obtain ⟨call, around⟩ := taken
  refine ⟨h.toWriter.after _, ?_⟩
  obtain ⟨lost, hencoded, hlost⟩ := h.account
  rcases hlost with rfl | ⟨hio, hsent⟩
  · have hstart : Wrote crypto first s.frames (s.around around) := { h with same := rfl }
    rw [append_nil] at hencoded
    rcases Writer.took_of_call (Writer.call call around) hstart with
      ⟨_, htook, more, hwrote, hmore⟩ | ⟨htook, hwrote | ⟨hio, packet, polls, rfl, frame, hwrote⟩⟩
    · refine ⟨[], ?_, .inl rfl⟩
      rw [append_nil, hwrote.encoded_append, hencoded, hmore, htook]
    · refine ⟨[], ?_, .inl rfl⟩
      rw [append_nil, htook, append_nil, encoded, hwrote.same, ← hencoded, encoded]
    · refine ⟨packet, ?_, .inr ⟨hio, polls, around, hmem⟩⟩
      rw [hwrote.encoded_append, hencoded, htook, append_nil]
      exact congrArg (accepted ++ ·) (append_nil packet)
  · -- the stream is lost, and so is what was not accepted
    obtain ⟨hgone, hnothing⟩ : Gone s.frames (s.after crypto (call, around)) ∧ _ :=
      Gone.after hio _
    refine ⟨lost, ?_, .inr ⟨hgone.1, hsent⟩⟩
    rw [hnothing, append_nil, encoded, hgone.2, ← hencoded, encoded]

/-- **Any calls.** -/
theorem Accounted.run (h : Accounted crypto first calls s []) :
    Accounted crypto first calls (run crypto s calls).1 (run crypto s calls).2 :=
  foldlRecOn (motive := fun reached : VmessStream K × Bytes =>
    Accounted crypto first calls reached.1 reached.2) calls _ h fun _ h _ hmem => h.call hmem

/-- A stream that has not written yet. -/
theorem Writer.start {carrier : Carrier IoError} (handshake : ClientHandshake)
    (hwire : carrier.wire = []) :
    Writer crypto (new crypto carrier handshake).write
      (new crypto carrier handshake) where
  options := rfl
  framed := rfl
  keys := rfl
  limit := by
    change (if handshake.command = .udp then maxPacketBytes else writeChunk) ≤ maxPacketBytes
    split_ifs <;> decide
  wire := by rw [show (new crypto carrier handshake).carrier = carrier from rfl, hwire]; rfl
  chunks := nofun
  raw := fun _ => ⟨nofun, rfl⟩
  sized := fun _ => nofun
  chain := fun _ => ⟨_, .nil, fun _ _ => ⟨rfl, rfl, rfl, rfl, rfl, rfl, rfl, rfl⟩, nofun⟩
  last := fun _ => rfl
  nodup := nodup_nil
  fresh := fun _ => ⟨nodup_nil, nofun⟩
  gone := nofun

end Vole.Vmess
