import Vole.Vmess.Reader
import Vole.Vmess.Writer

/-!
# From one VMess stream to another

A writer and a receiver with the same keys, each driven by any calls, over
carriers that answer anything. What the receiver returns comes first among what
the writer accepted. Every read for which the carrier has something moves it on
(`fed`), so that after enough of them it has returned all of it; a wire that is
cut inside a frame never looks like its end.
-/

namespace Vole.Vmess

open List VmessStream Option Prod

section

variable {K : Type} {crypto : Crypto K} {first : BodyCodec K} {φ : Prop}
variable {writer reader : VmessStream K} {cut : Bytes}

/-- A cut between two frames, or after the last one. -/
def Boundary (writer : VmessStream K) (cut : Bytes) : Prop :=
  (∃ n, cut = ((writer.frames.take n).map snd).flatten) ∨
    writer.last ≠ none ∧ cut = (writer.frames.map snd).flatten ++ writer.last.getD []

/-- What a cut of the wire decodes to: the first chunks, and where that leaves
the reader. -/
inductive Cut (crypto : Crypto K) (first : BodyCodec K) (writer : VmessStream K) (cut : Bytes) : Prop
  | waiting (n : ℕ) (s : BodyCodec K × Part) (held : Bytes)
    (hparse : (framing crypto).parse (first, .length) cut =
      ((writer.frames.take n).map fst, .waiting s held))
    (hwhere : s.2 = .length → held = [] →
      cut = ((writer.frames.take n).map snd).flatten)
  | ended (hparse : (framing crypto).parse (first, .length) cut =
      (writer.frames.map fst, .failed .ended))
    (hlast : writer.last ≠ none)
    (hall : cut = (writer.frames.map snd).flatten ++ writer.last.getD [])

variable {frames : List (Bytes × Bytes)}

/-- The frames of a chain, from those before a cut. -/
theorem frames_of_wireFrames
    {before : List (Bytes × List Bytes)} {after : List (Bytes × List Bytes)}
    (h : wireFrames frames = before ++ after) :
    before = wireFrames (frames.take before.length) := by
  have htake := congrArg (take before.length) h
  rw [take_left] at htake
  rw [← htake, wireFrames, wireFrames, map_take]
  congr 1
  rw [length_take]
  have := congrArg length h
  rw [wireFrames, length_map, length_append] at this
  rw [length_map]
  omega

section Parse

variable {r r' : BodyCodec K} {plain frame part : Bytes}
  (hchain : Framing.Chain (Chunk crypto) (first, .length) (wireFrames frames) (r, .length))
include hchain

/-- A part of a frame after whole ones. -/
theorem parse_torn (hframe : IsFrame crypto r plain frame r') (hpart : part <+: frame)
    (hne : part ≠ frame) :
    ∃ s held, (framing crypto).parse (first, .length) ((frames.map snd).flatten ++ part) =
        (frames.map fst, .waiting s held) ∧ (s.2 = .length → held = part) := by
  obtain ⟨s, held, hparse, hheld⟩ := hframe.torn hpart hne
  have hreads := hchain.reads (m := framing crypto) Chunk.reads part
  rw [wireFrames_fst, wireFrames_snd, nil_append, hparse] at hreads
  refine ⟨s, held, hreads.trans ?_, hheld⟩
  rw [Framing.before, append_nil]

/-- Whole frames decode to their chunks. -/
theorem parse_whole :
    (framing crypto).parse (first, .length) (frames.map snd).flatten =
      (frames.map fst, .waiting (r, .length) []) := by
  have hparse := (hchain.reads (m := framing crypto) Chunk.reads).waiting (lengthSize_pos r)
  rwa [wireFrames_snd, wireFrames_fst] at hparse

/-- And so they do before the last frame, which ends the stream. -/
theorem parse_ended (hframe : IsFrame crypto r [] frame r') :
    (framing crypto).parse (first, .length) ((frames.map snd).flatten ++ frame) =
      (frames.map fst, .failed .ended) := by
  have hreads := hchain.reads (m := framing crypto) Chunk.reads frame
  rw [wireFrames_fst, wireFrames_snd, nil_append, hframe.ended] at hreads
  rw [hreads, Framing.before, append_nil]

end Parse

section

variable (h : Writer crypto first writer)

include h

/-- **Every cut of the wire.** -/
theorem Writer.cuts (hframed : first.framed = true)
    (hcut : cut <+: writer.carrier.wire ++ writer.output) : Cut crypto first writer cut := by
  obtain ⟨r, hchain, -, hlast⟩ := h.chain hframed
  rw [h.wire] at hcut
  rcases prefix_or_prefix_of_prefix hcut (prefix_append _ (writer.last.getD [])) with
    hearly | hlate
  · -- the cut is among the chunks
    rw [← wireFrames_fst] at hearly
    rcases hchain.cut hearly with
      ⟨before, after, piece, values, u, v, hframes, hbefore, ⟨plain, -, -, hu, -, hframe⟩, part,
        hpart, hne, hitems⟩ | hall
    · have hfirst := frames_of_wireFrames hframes
      rw [hfirst, show u = (u.1, .length) from Prod.ext rfl hu] at hbefore
      obtain ⟨s, held, hparse, hheld⟩ := parse_torn hbefore hframe hpart hne
      rw [hfirst, wireFrames_fst] at hitems
      rw [← hitems] at hparse
      refine .waiting before.length s held hparse fun hs hnil => ?_
      rw [hitems, ← hheld hs, hnil, append_nil]
    · rw [wireFrames_fst] at hall
      refine .waiting writer.frames.length (r, .length) [] ?_ fun _ _ => ?_
      · rw [List.take_length, hall]
        exact parse_whole hchain
      · rw [List.take_length, hall]
  · -- it is in the last frame, if there is one
    obtain ⟨part, rfl⟩ := hlate
    have hpart : part <+: writer.last.getD [] := (prefix_append_right_inj _).mp hcut
    rcases hend : writer.last with _ | frame
    · rw [hend] at hpart
      obtain rfl := prefix_nil.mp hpart
      rw [append_nil]
      refine .waiting writer.frames.length (r, .length) [] ?_ fun _ _ => ?_
      · rw [List.take_length]
        exact parse_whole hchain
      · rw [List.take_length]
    · rw [hend] at hpart
      obtain ⟨r', hframe⟩ := hlast frame hend
      by_cases hall : part = frame
      · subst hall
        exact .ended (parse_ended hchain hframe) (by rw [hend]; exact nofun) (by rw [hend]; rfl)
      · obtain ⟨s, held, hparse, hheld⟩ := parse_torn hchain hframe hpart hall
        refine .waiting writer.frames.length s held ?_ fun hs hnil => ?_
        · rw [List.take_length]
          exact hparse
        · rw [List.take_length, ← hheld hs, hnil, List.append_nil]

/-- **The whole wire** decodes to every chunk. -/
theorem Writer.decodes (hframed : first.framed = true)
    (hdrained : writer.output = []) :
    ((framing crypto).parse (first, .length) writer.carrier.wire).1 = writer.frames.map fst := by
  obtain ⟨r, hchain, -, hlast⟩ := h.chain hframed
  have hwire := h.wire
  rw [hdrained, append_nil] at hwire
  rw [hwire]
  rcases hend : writer.last with _ | frame
  · rw [getD_none, append_nil, parse_whole hchain]
  · obtain ⟨r', hframe⟩ := hlast frame hend
    rw [getD_some, parse_ended hchain hframe]

/-! ## A writer and a receiver -/

/-- Without frames, the wire is what was encoded. -/
theorem Writer.raw_wire (hframed : first.framed = false) :
    writer.carrier.wire ++ writer.output = writer.encoded := by
  obtain ⟨hsame, hnone⟩ := h.raw hframed
  rw [h.wire, hnone, append_nil, encoded, map_congr_left hsame]

end

/-- A receiver that has the whole wire has decoded all of it. -/
theorem decoded_all (hwriter : Writer crypto first writer) (hdecoded : Decoded crypto first reader)
    (hwire : reader.carrier.consumed = writer.carrier.wire) (hdrained : writer.output = []) :
    reader.decoded.flatten = writer.encoded := by
  unfold Decoded at hdecoded
  cases hframed : first.framed with
  | false =>
    have hraw := hwriter.raw_wire hframed
    rw [hdrained, append_nil] at hraw
    rw [hframed, if_neg (by decide)] at hdecoded
    rw [hdecoded, hwire, hraw]
  | true =>
    rw [hframed, if_pos rfl, hwire, hwriter.decodes hframed hdrained] at hdecoded
    rw [← hdecoded]
    rfl

theorem Receiver.decoded (h : Receiver crypto first φ reader) : Decoded crypto first reader := by
  rcases h.state with hlive | hdead
  · exact hlive.position.decoded
  · exact hdead.decoded

section Consumed

variable (hwriter : Writer crypto first writer)
  (hwire : reader.carrier.consumed <+: writer.carrier.wire)
include hwriter hwire

theorem consumed_cut (hframed : first.framed = true) :
    Cut crypto first writer reader.carrier.consumed :=
  hwriter.cuts hframed (hwire.trans (prefix_append _ writer.output))

/-- What was decoded comes first among what was encoded. -/
theorem decoded_prefix (hdecoded : Decoded crypto first reader) :
    reader.decoded.flatten <+: writer.encoded := by
  unfold Decoded at hdecoded
  cases hframed : first.framed with
  | false =>
    rw [hframed, if_neg (by decide)] at hdecoded
    rw [hdecoded, ← hwriter.raw_wire hframed]
    exact hwire.trans (prefix_append _ writer.output)
  | true =>
    rw [hframed, if_pos rfl] at hdecoded
    cases consumed_cut hwriter hwire hframed with
    | waiting n s held hparse _ =>
      rw [hparse] at hdecoded
      rw [← hdecoded, encoded, map_take]
      refine ⟨((writer.frames.map fst).drop n).flatten, ?_⟩
      rw [← flatten_append, take_append_drop]
    | ended hparse _ _ =>
      rw [hparse] at hdecoded
      rw [← hdecoded]
      exact prefix_refl _

/-- No frame of a writer fails to decode. -/
theorem Receiver.alive (h : Receiver crypto first φ reader) (hquiet : ¬ φ) : reader.io = true := by
  rcases h.state with hlive | hdead
  · exact hlive.io
  · obtain ⟨hframed, error, hfailed⟩ := hdead.cause.resolve_left hquiet
    cases consumed_cut hwriter hwire hframed with
    | waiting n s held hparse _ | ended hparse _ _ =>
      rw [hparse] at hfailed
      cases hfailed

/-- **The end of a stream is between two frames.** -/
theorem boundary_of_eof (hlive : Live crypto first φ reader) (hframed : first.framed = true)
    (hstage : reader.stage = .eof) : Boundary writer reader.carrier.consumed := by
  cases hlive.position with
  | raw hraw _ _ =>
    rw [hframed] at hraw
    cases hraw
  | inside part _ hpart _ _ _ =>
    rw [hstage] at hpart
    cases hpart
  | ended r _ _ hends =>
    cases consumed_cut hwriter hwire hframed with
    | waiting n s held hparse hwhere =>
      rw [hparse] at hends
      rcases hends with ⟨-, hends⟩ | hends
      · obtain ⟨rfl, rfl⟩ := Framing.End.waiting.inj (mk.inj hends).2
        exact .inl ⟨n, hwhere rfl rfl⟩
      · cases (mk.inj hends).2
    | ended _ hlast hall => exact .inr ⟨hlast, hall⟩

/-- **A wire that ends inside a frame is an error.** -/
theorem error_of_cut (hlive : Live crypto first φ reader) (hframed : first.framed = true)
    (hcut : ¬ Boundary writer reader.carrier.consumed) (hplain : reader.plain = []) {size : ℕ}
    (hsize : size ≠ 0) {rest : List (Answer IoError Bytes)}
    (hreads : reader.carrier.reads = .ready [] :: rest) (expired : Bool) :
    (pollRead crypto size expired reader).1 =
      .error (.failed ⟨.unexpectedEof, ""⟩) := by
  cases hlive.position with
  | raw hraw _ _ =>
    rw [hframed] at hraw
    cases hraw
  | ended r _ hstage _ => exact absurd (boundary_of_eof hwriter hwire hlive hframed hstage) hcut
  | inside part _ hstage hreading hshort _ =>
    refine pollRead_eof hlive hplain hsize hframed hstage hshort (fun hlength hempty => ?_) hreads
      expired
    -- a length of which nothing is there yet is a boundary
    subst hlength
    have hparse := hreading.waiting hshort
    rw [hempty] at hparse
    cases consumed_cut hwriter hwire hframed with
    | waiting n s held hother hwhere =>
      rw [hparse] at hother
      obtain ⟨rfl, rfl⟩ := Framing.End.waiting.inj (mk.inj hother).2
      exact hcut (.inl ⟨n, hwhere rfl rfl⟩)
    | ended hother _ _ =>
      rw [hparse] at hother
      cases (mk.inj hother).2

/-- **The end of a carrier that flows is the end of the stream.** -/
theorem decoded_all_of_eof (hlive : Live crypto first False reader) (hstage : reader.stage = .eof) :
    reader.decoded.flatten = writer.encoded := by
  cases hlive.position with
  | raw _ hraw _ =>
    rw [hstage] at hraw
    rcases hraw with hraw | ⟨-, hfalse⟩
    · cases hraw
    · exact hfalse.elim
  | inside part _ hpart _ _ _ =>
    rw [hstage] at hpart
    cases hpart
  | ended r hframed _ hends =>
    have hended := hends.resolve_left fun h => h.1
    cases consumed_cut hwriter hwire hframed with
    | waiting n s held hparse _ =>
      rw [hparse] at hended
      cases (mk.inj hended).2
    | ended hparse _ _ =>
      rw [hparse] at hended
      rw [← (mk.inj hended).1]
      rfl

end Consumed

/-! ## Progress -/

/-- A read, as a call. -/
theorem after_read (s : VmessStream K) (size : ℕ) (surroundings : Surroundings) :
    s.after crypto (.read size, surroundings) =
      (pollRead crypto size surroundings.expired (s.around surroundings)).2 := by
  change ((pollRead crypto size surroundings.expired >>= fun got => pure got.length)
    (s.around surroundings)).2 = _
  rw [Proc.bind_apply]
  rcases pollRead crypto size surroundings.expired (s.around surroundings) with
    ⟨_ | _, t⟩ <;> rfl

theorem Receiver.live (h : Receiver crypto first φ reader) (hio : reader.io = true) :
    Live crypto first φ reader := by
  refine h.state.resolve_right fun hdead => ?_
  rw [hdead.io] at hio
  cases hio

/-- How far a receiver has come. -/
def VmessStream.extent (s : VmessStream K) : ℕ := s.returned.length + s.carrier.consumed.length

theorem Moved.extent_le {s t : VmessStream K} (h : Moved s.carrier.consumed s.returned t) :
    s.extent ≤ t.extent :=
  Nat.add_le_add h.2.length_le h.1.length_le

theorem Moved.after {consumed returned : Bytes} {s : VmessStream K} (h : Moved consumed returned s)
    (read : ℕ × Surroundings) :
    Moved consumed returned (s.after crypto (.read read.1, read.2)) := by
  rw [after_read]
  exact ((Moved.blind _ _).keeps_pollRead _ _).always h

theorem Moved.readAll {consumed returned : Bytes} {s : VmessStream K}
    (h : Moved consumed returned s) (reads : List (ℕ × Surroundings)) :
    Moved consumed returned (readAll crypto s reads) :=
  foldlRecOn reads _ h fun _ h read _ => h.after read

/-- Whether the carrier has something for the first poll of a call. -/
def Surroundings.feeds (around : Surroundings) : Bool :=
  match around.reads with
  | .ready _ :: _ => true
  | _ => false

/-- **How many reads had something to read**, or had the whole wire behind them. -/
def fed (crypto : Crypto K) (wire : Bytes) : VmessStream K → List (ℕ × Surroundings) → ℕ
  | _, [] => 0
  | s, (size, around) :: rest =>
    (if size ≠ 0 ∧ (s.carrier.consumed = wire ∨ around.feeds = true) then 1 else 0) +
      fed crypto wire (s.after crypto (.read size, around)) rest

section Progress

variable {s : VmessStream K} (hwriter : Writer crypto first writer) (hdrained : writer.output = [])

include hwriter hdrained

/-- **Such a read moves a receiver on**, unless it has returned everything. -/
theorem Receiver.moves (h : Receiver crypto first False s) {size : ℕ} {around : Surroundings}
    (hflows : Flows around.reads) (hwire : s.carrier.consumed <+: writer.carrier.wire)
    (hsize : size ≠ 0) (hfeeds : s.carrier.consumed = writer.carrier.wire ∨ around.feeds = true) :
    s.returned = writer.encoded ∨ s.extent < (s.after crypto (.read size, around)).extent := by
  have hnext := h.around around (.inr hflows)
  have hlive := hnext.live (Receiver.alive hwriter hwire hnext id)
  rw [after_read]
  by_cases hplain : s.plain = []
  · have hgiven : s.returned = s.decoded.flatten := by
      rw [← h.given, hplain, append_nil]
    by_cases hstage : s.stage = .eof
    · have hall : (s.around around).decoded.flatten = writer.encoded :=
        decoded_all_of_eof hwriter hwire hlive hstage
      exact .inl (hgiven.trans hall)
    rcases hfeeds with hall | hfeeds
    · exact .inl (hgiven.trans (decoded_all hwriter h.decoded hall hdrained))
    · obtain ⟨bytes, rest, hreads⟩ : ∃ bytes rest, around.reads = .ready bytes :: rest := by
        unfold Surroundings.feeds at hfeeds
        split at hfeeds
        · exact ⟨_, _, ‹_›⟩
        · cases hfeeds
      have hbytes : bytes ≠ [] := (Flows.ready (hreads ▸ hflows)).1
      obtain ⟨byte, hconsumed, hreturned⟩ :=
        pollRead_fetches hreads hbytes hlive hplain hstage hsize around.expired
      have hlonger := hconsumed.length_le
      rw [length_append] at hlonger
      exact .inr (Nat.add_lt_add_of_le_of_lt hreturned.length_le hlonger)
  · have hbuffered : (s.around around).plain ≠ [] := hplain
    rw [pollRead_buffered hbuffered hsize]
    have hsome : 0 < (s.plain.take size).length := by
      rw [length_take]
      have := length_pos_iff.mpr hplain
      omega
    refine .inr (Nat.add_lt_add_right ?_ _)
    change s.returned.length < (s.returned ++ s.plain.take size).length
    rw [length_append]
    omega

/-- **So a receiver that is fed returns everything.** -/
theorem returns_all_of_fed (reads : List (ℕ × Surroundings)) (h : Receiver crypto first False s)
    (hflows : ∀ read ∈ reads, Flows read.2.reads)
    (hwire : (readAll crypto s reads).carrier.consumed <+: writer.carrier.wire) :
    (readAll crypto s reads).returned = writer.encoded ∨
      s.extent + fed crypto writer.carrier.wire s reads ≤ (readAll crypto s reads).extent := by
  induction reads generalizing s with
  | nil => exact .inr (Nat.le_refl _)
  | cons read rest ih =>
    have hread := hflows read mem_cons_self
    have hnext := h.read read.1 read.2 (.inr hread)
    have hrest := ih hnext (fun later hlater => hflows later (mem_cons_of_mem _ hlater)) hwire
    refine hrest.elim .inl fun hrest => ?_
    have hmoved : Moved s.carrier.consumed s.returned (readAll crypto s (read :: rest)) :=
      Moved.readAll ⟨prefix_refl _, prefix_refl _⟩ _
    have hstep : s.extent ≤ (s.after crypto (.read read.1, read.2)).extent :=
      (Moved.after ⟨prefix_refl _, prefix_refl _⟩ read).extent_le
    change _ ∨ s.extent + ((if _ then 1 else 0) + fed crypto _ (s.after crypto _) rest) ≤ _
    split_ifs with hfeeds
    · rcases h.moves hwriter hdrained hread (hmoved.1.trans hwire) hfeeds.1 hfeeds.2 with hall | hlt
      · -- what was returned stays, and more than all of it does not come
        have hend := h.readAll (read :: rest) (.inr hflows)
        have hbound := decoded_prefix hwriter hwire hend.decoded
        rw [← hend.given] at hbound
        exact .inl (((prefix_append _ _).trans hbound).eq_of_length_le
          (hall ▸ hmoved.2.length_le))
      · refine .inr (Nat.le_trans ?_ hrest)
        omega
    · refine .inr (Nat.le_trans ?_ hrest)
      omega

end Progress

/-! ## The round trip -/

/-- The keys and nonces of the seals, where the keys differ. -/
theorem nodup_keys {c : BodyCodec K} (h : c.seals.Nodup) (hkeys : c.body ≠ c.length) :
    (c.seals.map fun used => (c.keyOf used.1, used.2)).Nodup := by
  refine List.Nodup.map ?_ h
  rintro ⟨name, nonce⟩ ⟨name', nonce'⟩ hsame
  obtain ⟨hkey, rfl⟩ := mk.inj hsame
  cases name <;> cases name'
  · rfl
  · exact absurd hkey hkeys
  · exact absurd hkey.symm hkeys
  · rfl

/-- The padding and the tag of a body that is waited for fit into it. -/
theorem Live.room (h : Live crypto first φ reader) {length padding : ℕ}
    (hstage : reader.stage = .body length padding) : padding + reader.read.overhead ≤ length := by
  cases h.position with
  | raw _ hraw _ =>
    rw [hstage] at hraw
    rcases hraw with hraw | ⟨hraw, -⟩ <;> cases hraw
  | inside part _ hpart _ _ hroom =>
    rw [hstage] at hpart
    cases hpart
    exact hroom
  | ended _ _ hended _ =>
    rw [hstage] at hended
    cases hended

/-- **The body stream round trip.** A stream of a handshake after any calls, and a
receive state that matches it after any reads of what the first one wrote. Here
`accepted` is what the answers of the calls say, and `lost` is nothing, or a packet
whose send failed and took the stream with it.

* What is returned comes first among these, once and in order. Where the output is
  drained, it is all of them with what is still in the buffer, if the whole wire
  was consumed; and after enough reads that the carrier has something for, nothing
  is left in the buffer either.
* A flush or a shutdown that is answered has drained the output, and a carrier that
  takes it is enough for a flush.
* No read fails but for the carrier.
* No key is used twice with one nonce, and no length is too small or too large.
* Where there are frames, a read that returns nothing has consumed whole frames,
  and inside a frame the end of the carrier is an error. -/
theorem body_stream_round_trip (crypto : Crypto K) (handshake : ClientHandshake)
    (calls : List (Call × Surroundings)) (reads : List (ℕ × Surroundings))
    {start writer reader : VmessStream K} {accepted : Bytes}
    (hstart : start = .new crypto .new handshake ∨
      start = (VmessStream.new crypto .new handshake).withWholeClose)
    (hwriter : run crypto start calls = (writer, accepted))
    (hreader : reader = readAll crypto (receiver crypto .new handshake) reads)
    (hwire : reader.carrier.consumed <+: writer.carrier.wire) :
    (∃ lost, (lost = [] ∨ writer.io = false ∧ ∃ polls around, (.send lost polls, around) ∈ calls) ∧
      reader.returned <+: accepted ++ lost ∧
      (writer.output = [] →
        (reader.carrier.consumed = writer.carrier.wire →
          reader.returned ++ reader.plain = accepted ++ lost) ∧
        ((∀ read ∈ reads, Flows read.2.reads) →
          (accepted ++ lost).length + writer.carrier.wire.length ≤
            fed crypto writer.carrier.wire (receiver crypto .new handshake) reads →
          reader.returned = accepted ++ lost))) ∧
      ((∀ call around count, call = .flush ∨ call = .shutdown →
          writer.answer crypto (call, around) = .ok count →
          (writer.after crypto (call, around)).output = []) ∧
        ∀ around count rest later, writer.io = true → around.expired = false →
          around.writes = .ready count :: rest → writer.output.length ≤ count →
          around.flushes = .ready () :: later →
          writer.answer crypto (.flush, around) = .ok 0) ∧
      ((∀ read ∈ reads, Flows read.2.reads) → reader.io = true) ∧
      (writer.write.seals.Nodup ∧ (writer.write.body ≠ writer.write.length →
        (writer.write.seals.map fun used => (writer.write.keyOf used.1, used.2)).Nodup)) ∧
      ((writer.write.framed = true → ∀ frame ∈ writer.frames.map snd ++ writer.last.toList,
          BodyCodec.Sized writer.write frame) ∧
        ∀ length padding, reader.io = true → reader.stage = .body length padding →
          padding + reader.read.overhead ≤ length) ∧
      (writer.write.framed = true → ∀ size surroundings, size ≠ 0 →
        ((VmessStream.pollRead crypto size surroundings.expired (reader.around surroundings)).1 =
            .ok [] →
          (reader.after crypto (.read size, surroundings)).carrier.consumed <+:
            writer.carrier.wire →
          Boundary writer (reader.after crypto (.read size, surroundings)).carrier.consumed) ∧
        (¬ Boundary writer reader.carrier.consumed → reader.io = true → reader.plain = [] →
          ∀ rest, surroundings.reads = .ready [] :: rest →
            (VmessStream.pollRead crypto size surroundings.expired
              (reader.around surroundings)).1 = .error (.failed ⟨.unexpectedEof, ""⟩))) := by
  have hrun : Accounted crypto (new crypto .new handshake).write calls
      (run crypto start calls).1 (run crypto start calls).2 := by
    rcases hstart with rfl | rfl
    · exact .run ⟨.start handshake rfl, [], rfl, .inl rfl⟩
    · exact .run ⟨{ Writer.start handshake rfl with }, [], rfl, .inl rfl⟩
  rw [hwriter] at hrun
  have hw : Writer crypto (new crypto .new handshake).write writer := hrun.toWriter
  obtain ⟨lost, haccount, hlost⟩ : ∃ lost, writer.encoded = accepted ++ lost ∧ _ := hrun.account
  have hbegin : ∀ φ, Receiver crypto (new crypto .new handshake).write φ
      (receiver crypto .new handshake) := fun φ =>
    Receiver.start handshake rfl (.inr fun _ hmem => absurd hmem not_mem_nil)
  have hr : ∀ φ, (φ ∨ ∀ read ∈ reads, Flows read.2.reads) →
      Receiver crypto (new crypto .new handshake).write φ reader := by
    intro φ hquiet
    rw [hreader]
    exact (hbegin φ).readAll reads hquiet
  have hany := hr True (.inl trivial)
  have hbound := decoded_prefix hw hwire hany.decoded
  rw [← hany.given] at hbound
  have hprefix : reader.returned <+: writer.encoded := (prefix_append _ _).trans hbound
  have hframed : ∀ h : writer.write.framed = true,
      (new crypto .new handshake).write.framed = true := fun h => hw.framed ▸ h
  refine ⟨⟨lost, hlost, haccount ▸ hprefix,
      fun hdrained => ⟨fun hall => ?_, fun hflows henough => ?_⟩⟩,
    ⟨fun _ _ _ hcall hanswer => hw.drained hcall hanswer,
      fun _ _ _ _ hio hexpired hwrites hroom hflushes =>
        answer_flush hio hexpired hwrites hroom hflushes⟩,
    fun hflows => ?_, ⟨hw.nodup, nodup_keys hw.nodup⟩,
    ⟨fun hf frame hmem => ?_, fun _ _ hio hstage => (hany.live hio).room hstage⟩,
    fun hf size surroundings hsize =>
      ⟨fun hnothing hnext => ?_, fun hcut hio hplain rest hreads => ?_⟩⟩
  · rw [hany.given, decoded_all hw hany.decoded hall hdrained, haccount]
  · rw [← haccount] at henough ⊢
    rw [hreader] at hwire hprefix ⊢
    rcases returns_all_of_fed hw hdrained reads (hbegin False) hflows hwire with hall | hfed
    · exact hall
    · have hmost := hwire.length_le
      exact hprefix.eq_of_length_le (by unfold extent at hfed; omega)
  · exact Receiver.alive hw hwire (hr False (.inr hflows)) id
  · obtain ⟨head, rest, hsplit, hhead, hroom, hfits⟩ := hw.sized (hframed hf) frame hmem
    refine ⟨head, rest, hsplit, ?_, ?_, hfits⟩
    · rw [hhead, BodyCodec.lengthSize, BodyCodec.lengthSize, hw.options]
    · rw [BodyCodec.overhead, hw.options]
      exact hroom
  · have hread := pollRead_yields hsize surroundings.expired _
      (hany.around surroundings (.inl trivial))
    rw [hnothing, ← after_read] at hread
    obtain ⟨hlive, hstage⟩ := hread.2 rfl
    exact boundary_of_eof hw hnext hlive (hframed hf) hstage
  · have hlive := (hany.around surroundings (.inl trivial)).live hio
    exact error_of_cut hw (by exact hwire) hlive (hframed hf) hcut hplain hsize hreads
      surroundings.expired

end

/-! ## A run -/

namespace Sample

/-- A cipher that adds a tag of zeros. -/
def crypto : Crypto Unit where
  aeadKey := fun _ _ => ()
  kdf := fun _ _ => []
  aeadSeal := fun _ _ plain => plain ++ replicate 16 0
  aeadOpen := fun _ _ wire => some (wire.take (wire.length - 16))
  shake := fun _ n => UInt8.ofNat n
  length_aeadSeal := fun _ _ plain => by rw [length_append, length_replicate]
  aeadOpen_aeadSeal := fun _ _ plain => by
    rw [length_append, length_replicate, Nat.add_sub_cancel, take_left]

/-- Padding and authenticated lengths. -/
def handshake : ClientHandshake where
  key := []
  iv := []
  responseKey := []
  responseIv := []
  responseTag := 0
  options := ⟨.aes128Gcm, true, true, nofun⟩
  command := .tcp

/-- The carrier takes ten bytes, is pending, and takes the rest and the end. -/
def calls : List (Call × Surroundings) :=
  [(.write [1, 2, 3], ⟨[], [], [], [], false, some fun _ => 9⟩),
    (.flush, ⟨[], [.ready 10, .pending], [], [], false, none⟩),
    (.flush, ⟨[], [.ready 90], [.ready ()], [], false, none⟩),
    (.shutdown, ⟨[], [.ready 90], [.ready ()], [.ready ()], false, some fun _ => 9⟩)]

def writer : VmessStream Unit := (run crypto (.new crypto .new handshake) calls).1

/-- Reads of two bytes. -/
def read (answers : List (Answer IoError Bytes)) : ℕ × Surroundings :=
  (2, ⟨answers, [], [], [], false, none⟩)

/-- The wire comes in parts, with a pending read between them. The third read finds
the last byte in the buffer, and nothing comes after the fourth. -/
def reads : List (ℕ × Surroundings) :=
  let wire := writer.carrier.wire
  [read [.ready (wire.take 7), .pending],
    read [.ready ((wire.drop 7).take 11), .ready (wire.drop 18)],
    read [.pending],
    read [.ready ((wire.drop 38).take 18), .ready (wire.drop 56)]] ++
    replicate 80 (read [])

def reader : VmessStream Unit := readAll crypto (receiver crypto .new handshake) reads

end Sample

theorem body_stream_round_trip_sample :
    BodyOptions.new true .auto true true = .ok Sample.handshake.options ∧
      (run Sample.crypto (.new Sample.crypto .new Sample.handshake) Sample.calls).2 = [1, 2, 3] ∧
      Sample.writer.output = [] ∧ Sample.reader.returned = [1, 2, 3] := by
  have hrun : run Sample.crypto (.new Sample.crypto .new Sample.handshake) Sample.calls =
      (Sample.writer, [1, 2, 3]) := by
    refine Prod.ext rfl ?_
    decide +kernel
  have hdrained : Sample.writer.output = [] := by decide +kernel
  have hreader : Sample.reader =
      readAll Sample.crypto (receiver Sample.crypto .new Sample.handshake) Sample.reads := rfl
  have hwire : Sample.reader.carrier.consumed <+: Sample.writer.carrier.wire := by decide +kernel
  obtain ⟨lost, hlost, -, hreturned⟩ := (body_stream_round_trip Sample.crypto Sample.handshake
    Sample.calls Sample.reads (.inl rfl) hrun hreader hwire).1
  have hnone : lost = [] := by
    rcases hlost with hnil | ⟨hgone, -⟩
    · exact hnil
    · exact absurd hgone (by decide +kernel)
  subst hnone
  refine ⟨rfl, congrArg Prod.snd hrun, hdrained, (hreturned hdrained).2 ?_ ?_⟩
  · decide +kernel
  · decide +kernel

end Vole.Vmess
