import Vole.Common.Bytes
import Vole.Common.Poll
import Vole.Model.IoError

/-!
# The Shadowsocks stream

The codec keeps the frame of a write that it has left pending, so that write must
come again, with the same bytes, until it is accepted. `SsStream` keeps those bytes
itself and tells its caller that they are accepted. What happened is a list of
events, the last one first, and each of them fits those before it (`Fits`).
-/

namespace Vole.Shadowsocks

open Proc

/-- `stream::WRITE_CHUNK`. -/
def writeChunk : ℕ := 16384

/-- `stream::Start`. -/
inductive Start where
  | fresh
  | emptyPending
  | emptyFlushing
  | started
  deriving DecidableEq, Repr

/-- What happens: a write to the codec, of the adapter's own or of the caller's
bytes; the caller is told that these bytes are accepted; the codec is shut down. -/
inductive Event where
  | write (own : Bool) (bytes : Bytes) (outcome : Except (Stop IoError) ℕ)
  | accept (bytes : Bytes)
  | shutdown

/-- The write that the codec has left pending. -/
def inFlight : List Event → Option Bytes
  | [] => none
  | .write _ bytes (.error .pending) :: _ => some bytes
  | .write _ _ (.ok _) :: _ => none
  | _ :: log => inFlight log

/-- What the codec has accepted. -/
def sent : List Event → Bytes
  | [] => []
  | .write _ bytes (.ok count) :: log => sent log ++ bytes.take count
  | _ :: log => sent log

/-- What the caller was told is accepted. -/
def taken : List Event → Bytes
  | [] => []
  | .accept bytes :: log => taken log ++ bytes
  | _ :: log => taken log

/-- `stream::SsStream`, with what the codec will answer and what has happened. -/
structure SsStream where
  codec : Carrier IoError
  start : Start
  pending : Option Bytes
  log : List Event

/-- A function of the stream that polls. -/
abbrev Poll := Proc SsStream (Stop IoError)

inductive Call where
  | read (remaining : ℕ)
  | write (buf : Bytes)
  | flush
  | shutdown

namespace SsStream

/-- `SsStream::new`. -/
def new (codec : Carrier IoError) : SsStream := ⟨codec, .fresh, none, []⟩

/-- An error of the codec, after `safe_io`. -/
def safeIo : Stop IoError → Stop IoError
  | .failed error => .failed ⟨error.kind, "Shadowsocks stream operation failed"⟩
  | .pending => .pending

/-- `poll_write` of the codec. A write that was pending is accepted as a whole. -/
def codecWrite (own : Bool) (bytes : Bytes) : Poll ℕ := fun s =>
  let (answer, writes) := Carrier.next s.codec.writes
  let outcome := answer.map fun count =>
    if inFlight s.log = none then min count bytes.length else bytes.length
  (outcome.mapError safeIo,
    { s with codec := { s.codec with writes }, log := .write own bytes outcome :: s.log })

/-- The other polls of the codec. -/
def onCodec {α : Type} (x : Proc (Carrier IoError) (Stop IoError) α) : Poll α := fun s =>
  ((x s.codec).1.mapError safeIo, { s with codec := (x s.codec).2 })

/-- `SsStream::finish_empty`. -/
def finishEmpty : Poll Unit := do
  when ((← read start) = .emptyPending) do
    let _ ← codecWrite true []
    update ({ · with start := .emptyFlushing })
  when ((← read start) = .emptyFlushing) do
    onCodec Carrier.pollFlush
    update ({ · with start := .started })

/-- `SsStream::finish_write`. -/
def finishWrite : Poll Unit := do
  match ← read pending with
  | none => pure ()
  | some bytes =>
    let written ← codecWrite false bytes
    if written ≠ bytes.length then
      fail (.failed ⟨.other, "Shadowsocks buffered write was incomplete"⟩)
    else update ({ · with pending := none })

/-- A stream that is read or shut down before it is written sends an empty
handshake. -/
def begin : Poll Unit := do
  when ((← read start) = .fresh) (update ({ · with start := .emptyPending }))
  finishEmpty

/-- Go on where a poll is pending. -/
def tolerate (x : Poll Unit) : Poll Unit := fun s =>
  match x s with
  | (.error .pending, t) => (.ok (), t)
  | outcome => outcome

/-- `SsStream::poll_read`. -/
def pollRead (remaining : ℕ) : Poll Bytes :=
  if remaining = 0 then return []
  else do
    begin
    tolerate finishWrite
    onCodec (Carrier.pollRead remaining)

/-- A chunk that the codec leaves pending is kept and accepted. -/
def offer (buf : Bytes) : Poll ℕ := fun s =>
  match codecWrite false buf s with
  | (.error .pending, t) => (.ok buf.length, { t with pending := some buf })
  | outcome => outcome

/-- `SsStream::poll_write`. -/
def pollWrite (buf : Bytes) : Poll ℕ := do
  finishEmpty
  finishWrite
  update ({ · with start := .started })
  offer (buf.take writeChunk)

/-- `SsStream::poll_flush`. -/
def pollFlush : Poll Unit := do
  finishEmpty
  finishWrite
  onCodec Carrier.pollFlush

/-- `SsStream::poll_shutdown`. -/
def pollShutdown : Poll Unit := do
  begin
  finishWrite
  update fun s => { s with log := .shutdown :: s.log }
  onCodec Carrier.pollShutdown

/-- The caller is told that so many of its bytes are accepted. -/
def told (s : SsStream) (buf : Bytes) (count : ℕ) : SsStream :=
  { s with log := .accept (buf.take count) :: s.log }

def call (s : SsStream) : Call → SsStream
  | .read remaining => (pollRead remaining s).2
  | .write buf =>
    match pollWrite buf s with
    | (.ok count, t) => t.told buf count
    | (.error _, t) => t
  | .flush => (pollFlush s).2
  | .shutdown => (pollShutdown s).2

end SsStream

/-! ## What fits -/

/-- The only writes are those of the empty handshake, and none was accepted. -/
def Unstarted (log : List Event) : Prop := ∀ {own bytes outcome}, .write own bytes outcome ∈ log →
  own = true ∧ bytes = [] ∧ ∃ stop, outcome = .error stop

/-- **What may happen next.** A write repeats the one that is pending. The adapter's
own is empty and comes before all others, and not after one that was accepted. The
codec is shut down when it has accepted what the caller was told is accepted. -/
def Fits (log : List Event) : Event → Prop
  | .write own bytes _ => (∀ held, inFlight log = some held → bytes = held) ∧
    (own = true → bytes = [] ∧ Unstarted log)
  | .accept _ => True
  | .shutdown => taken log = sent log

/-- Everything has fitted. -/
def Sound : List Event → Prop
  | [] => True
  | event :: log => Fits log event ∧ Sound log

namespace SsStream

variable {s : SsStream}

/-- **The invariant.** But in its empty handshake, the stream keeps the write that is
pending; and it keeps none before its first write. -/
structure Kept (s : SsStream) : Prop where
  sound : Sound s.log
  given : taken s.log = sent s.log ++ s.pending.getD []
  flight : s.start ≠ .emptyPending → inFlight s.log = s.pending
  early : s.start = .fresh ∨ s.start = .emptyPending → s.pending = none ∧ Unstarted s.log

/-- The empty handshake is not pending. -/
structure Past (s : SsStream) : Prop extends Kept s where
  past : s.start ≠ .emptyPending

theorem inFlight_unstarted {log : List Event} (h : Unstarted log) {held : Bytes}
    (hheld : inFlight log = some held) : [] = held := by
  induction log with
  | nil => cases hheld
  | cons event log ih =>
    have hlog := ih fun hmem => h (List.mem_cons_of_mem _ hmem)
    cases event with
    | write own bytes outcome =>
      obtain ⟨-, rfl, _ | _, rfl⟩ := h List.mem_cons_self
      · exact Option.some.inj hheld
      · exact hlog hheld
    | accept _ | shutdown => exact hlog hheld

theorem codecWrite_eq (own : Bool) (bytes : Bytes) (s : SsStream) : ∃ codec,
    (∃ stop, codecWrite own bytes s = (.error (safeIo stop),
      { s with codec, log := .write own bytes (.error stop) :: s.log })) ∨
    ∃ count, codecWrite own bytes s = (.ok count,
      { s with codec, log := .write own bytes (.ok count) :: s.log }) ∧
      count ≤ bytes.length ∧ (inFlight s.log ≠ none → count = bytes.length) := by
  unfold codecWrite
  rcases Carrier.next s.codec.writes with ⟨stop | count, writes⟩
  · exact ⟨_, .inl ⟨stop, rfl⟩⟩
  · refine ⟨_, .inr ⟨_, rfl, ?_, fun hheld => if_neg hheld⟩⟩
    split_ifs
    · exact Nat.min_le_right _ _
    · exact Nat.le_refl _

theorem keeps_onCodec {α : Type} {P : SsStream → Prop} (hP : ∀ s codec, P s → P { s with codec })
    (x : Proc (Carrier IoError) (Stop IoError) α) : Preserves P (onCodec x) :=
  fun s hs => ⟨fun _ _ => hP s _ hs, fun _ _ => hP s _ hs⟩

/-- **The empty handshake.** -/
theorem keeps_writeEmpty : Ensures (fun s => Kept s ∧ s.start = .emptyPending)
    (do let _ ← codecWrite true []; update ({ · with start := .emptyFlushing }))
    (fun _ => Past) Kept := by
  rintro s ⟨hs, hstart⟩
  obtain ⟨hpending, hunstarted⟩ := hs.early (.inr hstart)
  have hfits : ∀ outcome, Sound (.write true [] outcome :: s.log) := fun _ =>
    ⟨⟨fun _ => inFlight_unstarted hunstarted, fun _ => ⟨rfl, hunstarted⟩⟩, hs.sound⟩
  obtain ⟨codec, ⟨stop, hrun⟩ | ⟨count, hrun, -⟩⟩ := codecWrite_eq true [] s
  · rw [bind_apply, hrun]
    refine ⟨nofun, fun _ _ => ⟨hfits _, hs.given, fun h => absurd hstart h,
      fun _ => ⟨hpending, fun hmem => ?_⟩⟩⟩
    rcases List.mem_cons.mp hmem with hnew | hold
    · cases hnew
      exact ⟨rfl, rfl, stop, rfl⟩
    · exact hunstarted hold
  · rw [bind_of_ok hrun]
    refine ⟨fun _ _ => ⟨⟨hfits _, ?_, fun _ => hpending.symm, nofun⟩, nofun⟩, nofun⟩
    simpa [taken, sent] using hs.given

theorem keeps_finishEmpty : Ensures Kept finishEmpty (fun _ => Past) Kept := by
  intro s hs
  rw [finishEmpty, bind_of_ok (read_apply _ _)]
  refine Ensures.bind (P := fun t => t = s) (M := fun _ => Past) ?_ (fun _ t ht => ?_) s rfl
  · refine .when (fun hempty => ?_) fun hother => ?_
    · rintro t rfl
      exact keeps_writeEmpty t ⟨hs, of_decide_eq_true hempty⟩
    · rintro t rfl
      exact ⟨hs, of_decide_eq_false hother⟩
  · rw [bind_of_ok (read_apply _ _)]
    refine Ensures.when (fun _ => ?_) (fun _ _ hu => hu) t ht
    refine .bind ((keeps_onCodec (fun _ _ hu => { hu with }) _).mono (fun _ _ hu => hu)
      fun _ hu => hu.1) fun _ => .update ?_
    exact fun u hu => ⟨⟨hu.sound, hu.given, fun _ => hu.flight hu.past, nofun⟩, nofun⟩

/-- **A pending write comes again.** -/
theorem keeps_finishWrite :
    Ensures Past finishWrite (fun _ s => Past s ∧ s.pending = none) Past := by
  intro s hs
  have hflight := hs.flight hs.past
  rw [finishWrite, bind_of_ok (read_apply _ _)]
  cases hpending : s.pending with
  | none => exact ⟨fun _ _ => ⟨hs, hpending⟩, nofun⟩
  | some bytes =>
    rw [hpending] at hflight
    have hearly (h : s.start = .fresh ∨ s.start = .emptyPending) : False := by
      cases (hs.early h).1.symm.trans hpending
    have hfits : ∀ outcome, Sound (.write false bytes outcome :: s.log) := fun _ =>
      ⟨⟨fun held hheld => Option.some.inj (hflight.symm.trans hheld), nofun⟩, hs.sound⟩
    dsimp only
    obtain ⟨codec, ⟨stop, hrun⟩ | ⟨count, hrun, -, hwhole⟩⟩ := codecWrite_eq false bytes s
    · rw [bind_apply, hrun]
      refine ⟨nofun, fun _ _ =>
        ⟨⟨hfits _, hs.given, fun _ => ?_, fun h => (hearly h).elim⟩, hs.past⟩⟩
      cases stop with
      | pending => exact hpending.symm
      | failed error => exact hflight.trans hpending.symm
    · obtain rfl := hwhole (by rw [hflight]; nofun)
      rw [bind_of_ok hrun, if_neg (not_not.mpr rfl)]
      refine ⟨fun _ _ =>
        ⟨⟨⟨hfits _, ?_, fun _ => rfl, fun h => (hearly h).elim⟩, hs.past⟩, rfl⟩, nofun⟩
      simpa [taken, sent, hpending] using hs.given

theorem finishWrite_done : Ensures Past finishWrite (fun _ s => Past s ∧ s.pending = none) Kept :=
  keeps_finishWrite.mono (fun _ _ h => h) fun _ h => h.1

/-- **A write of the caller**: what it is told is accepted, or is kept. -/
theorem keeps_offer (buf : Bytes) :
    Ensures (fun s => Kept s ∧ s.start = .started ∧ s.pending = none)
      (offer (buf.take writeChunk)) (fun count s => Kept (s.told buf count)) Kept := by
  rintro s ⟨hs, hstart, hpending⟩
  have htaken : ∀ count ≤ (buf.take writeChunk).length,
      buf.take count = (buf.take writeChunk).take count := by
    intro count hle
    rw [List.length_take] at hle
    rw [List.take_take, Nat.min_eq_left (Nat.le_trans hle (Nat.min_le_left _ _))]
  have hgiven := hs.given
  have hflight := hs.flight (by simp [hstart])
  have hearly (h : s.start = .fresh ∨ s.start = .emptyPending) : False := by simp [hstart] at h
  generalize buf.take writeChunk = chunk at htaken ⊢
  have hfits : ∀ outcome, Sound (.write false chunk outcome :: s.log) := fun _ =>
    ⟨⟨fun _ hheld => (by cases (hflight.trans hpending).symm.trans hheld), nofun⟩, hs.sound⟩
  unfold offer
  obtain ⟨codec, ⟨_ | _, hrun⟩ | ⟨count, hrun, hle, -⟩⟩ := codecWrite_eq false chunk s <;>
    simp only [hrun, safeIo]
  · refine ⟨?_, nofun⟩
    rintro _ ⟨⟩
    refine ⟨⟨trivial, hfits _⟩, ?_, fun _ => rfl, fun h => (hearly h).elim⟩
    simpa [told, htaken, taken, sent, hpending] using hgiven
  · exact ⟨nofun, fun _ _ => ⟨hfits _, hgiven, fun _ => hflight, fun h => (hearly h).elim⟩⟩
  · refine ⟨?_, nofun⟩
    rintro _ ⟨⟩
    refine ⟨⟨trivial, hfits _⟩, ?_, fun _ => hpending.symm, fun h => (hearly h).elim⟩
    simpa [told, htaken _ hle, taken, sent, hpending] using hgiven

theorem keeps_begin : Ensures Kept begin (fun _ => Past) Kept := by
  intro s hs
  rw [begin, bind_of_ok (read_apply _ _)]
  refine Ensures.bind (P := fun t => t = s) (M := fun _ => Kept) ?_
    (fun _ => keeps_finishEmpty) s rfl
  refine .when (fun hfresh => .update ?_) ?_
  · rintro t rfl
    exact ⟨hs.sound, hs.given, nofun, fun _ => hs.early (.inl (of_decide_eq_true hfresh))⟩
  · rintro _ t rfl
    exact hs

/-- **A call keeps the stream.** -/
theorem Kept.call (h : Kept s) (call : Call) : Kept (s.call call) := by
  have hcodec {α : Type} (x : Proc (Carrier IoError) (Stop IoError) α) :
      Preserves Kept (onCodec x) := keeps_onCodec (fun _ _ ht => { ht with }) x
  cases call with
  | read remaining =>
    change Kept (pollRead remaining s).2
    unfold pollRead
    split_ifs
    · exact h
    refine Ensures.always
      (.bind keeps_begin fun _ => .bind (M := fun _ => Kept) ?_ fun _ => hcodec _) h
    intro t ht
    have hleft := (finishWrite_done.mono (fun _ _ h => h.1.1) fun _ h => h).always ht
    unfold tolerate
    rcases hrun : finishWrite t with ⟨(_ | _) | _, u⟩ <;> rw [hrun] at hleft <;>
      exact ⟨fun _ _ => hleft, fun _ _ => hleft⟩
  | write buf =>
    have hwrite : Ensures Kept (pollWrite buf) (fun count t => Kept (t.told buf count)) Kept := by
      refine .bind keeps_finishEmpty fun _ => .bind finishWrite_done fun _ =>
        .bind (.update fun t ht => ?_) fun _ => keeps_offer buf
      obtain ⟨ht, hpending⟩ := ht
      exact ⟨⟨ht.sound, ht.given, fun _ => ht.flight ht.past, nofun⟩, rfl, hpending⟩
    have hdone := hwrite s h
    rw [SsStream.call]
    rcases hrun : pollWrite buf s with ⟨stop | count, t⟩ <;> rw [hrun] at hdone
    · exact hdone.2 stop rfl
    · exact hdone.1 count rfl
  | flush =>
    refine Ensures.always (.bind keeps_finishEmpty fun _ => .bind finishWrite_done fun _ => ?_) h
    exact (hcodec _).of_imp fun _ ht => ht.1.1
  | shutdown =>
    refine Ensures.always (.bind keeps_begin fun _ => .bind finishWrite_done fun _ =>
      .bind (M := fun _ => Kept) (.update fun t ht => ?_) fun _ => hcodec _) h
    obtain ⟨ht, hpending⟩ := ht
    refine { ht with
      sound := ⟨by simpa [Fits, hpending] using ht.given, ht.sound⟩
      early := fun h => ⟨hpending, fun hmem => ?_⟩ }
    exact (ht.early h).2 (by simpa using hmem)

/-- A flush offers the pending write to the codec again. -/
theorem Kept.flush (h : Kept s) (hstart : s.start = .started) {count : ℕ}
    {rest : List (Answer IoError ℕ)} (hwrites : s.codec.writes = .ready count :: rest) :
    (s.call .flush).pending = none := by
  have hempty : finishEmpty s = (.ok (), s) := by
    cases s
    cases hstart
    rfl
  have hdone : ∃ t, finishWrite s = (.ok (), t) ∧ t.pending = none := by
    have hflight := h.flight (by rw [hstart]; nofun)
    rw [finishWrite, bind_of_ok (read_apply _ _)]
    cases hpending : s.pending with
    | none => exact ⟨s, rfl, hpending⟩
    | some bytes =>
      have hheld : inFlight s.log ≠ none := by rw [hflight, hpending]; nofun
      refine ⟨{ s with
        codec := { s.codec with writes := rest }
        log := .write false bytes (.ok bytes.length) :: s.log
        pending := none }, ?_, rfl⟩
      have hrun : codecWrite false bytes s = (.ok bytes.length, { s with
          codec := { s.codec with writes := rest }
          log := .write false bytes (.ok bytes.length) :: s.log }) := by
        simp [codecWrite, hwrites, Carrier.next, hheld, Except.map, Except.mapError]
      dsimp only
      rw [bind_of_ok hrun, if_neg (not_not.mpr rfl)]
      rfl
  obtain ⟨t, hrun, hnone⟩ := hdone
  change (pollFlush s).2.pending = none
  rw [pollFlush, bind_of_ok hempty, bind_of_ok hrun]
  exact hnone

end SsStream

end Vole.Shadowsocks
