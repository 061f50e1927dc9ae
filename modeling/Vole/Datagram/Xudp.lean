import Mathlib.Data.List.Forall2
import Vole.Common.Runs
import Vole.Datagram.XudpFrames

/-!
# An XUDP association

What `receive` returns are the data frames of all that was read from the stream,
wherever the calls before were dropped (`Live`): a future that was dropped is
started over and comes to wait at the same place. What is written is one data
frame after the other and the end, and nothing after a frame that was given up
(`Written`).
-/

namespace Vole.Xudp

open Transport Option Bool

/-! ## Steps -/

/-- A transport that is closed for good. -/
def Shut (s : Transport) : Prop := s.closed = true ∧ s.call = none

/-- **What a step can do.** -/
inductive Turn (s : Transport) : Event → Transport → Prop
  /-- a call is refused, or the stream is not ready -/
  | rests {e : Event} : Turn s e s
  | sends {datagram : Datagram} {frame : Bytes} (hopen : s.closed = false) (hcall : s.call = none)
    (hframe : encodeDataFrame datagram s.firstWrite s.frameId = .ok frame) :
    Turn s (.send datagram)
      { s with
        closed := true, stream := false, outbox := s.outbox.start frame,
        call := some (.send datagram.remote) }
  | closes (hopen : s.closed = false) (hcall : s.call = none) :
    Turn s .close
      { s with
        closed := true, stream := false, outbox := s.outbox.start endFrame, call := some .close }
  | receives (hopen : s.closed = false) (hcall : s.call = none) :
    Turn s .receive (s.settle s.view.readFrame)
  | reads {stage : Stage} {answer : Answer IoError Bytes}
    (hcall : s.call = some (.receive stage)) : Turn s (.read answer) (s.resumeReceive stage answer)
  | writes {e : Event} {count : ℕ}
    (hcall : (∃ remote, s.call = some (.send remote)) ∨ s.call = some .close) :
    Turn s e { s with outbox := s.outbox.took count }
  /-- a call fails or ends, or its future is dropped -/
  | stops {e : Event} (hcall : s.call ≠ none) : Turn s e { s with call := none }
  | sent {remote : Destination} (hcall : s.call = some (.send remote))
    (hrest : s.outbox.rest = []) :
    Turn s (.flush (.ready ()))
      { s with
        stream := true, closed := false, firstWrite := false, lastRemote := some remote,
        call := none, sent := s.sent ++ [remote] }

section

variable {s t : Transport} {e : Event}

theorem turn_write (hcall : (∃ remote, s.call = some (.send remote)) ∨ s.call = some .close)
    (answer : Answer IoError ℕ) : Turn s e (s.resumeWrite answer) := by
  have hsome : s.call ≠ none := by
    rcases hcall with ⟨_, hcall⟩ | hcall <;> (rw [hcall]; exact nofun)
  cases answer with
  | pending => exact .rests
  | failed error => exact .stops hsome
  | ready count =>
    rw [resumeWrite]
    split_ifs with hzero
    · exact .stops hsome
    · exact .writes hcall

theorem turn_startSend (hcall : s.call = none) (datagram : Datagram) :
    Turn s (.send datagram) (s.startSend datagram) := by
  unfold startSend
  split_ifs with hclosed
  · exact .rests
  · exact .rests
  rcases hframe : encodeDataFrame datagram s.firstWrite s.frameId with error | frame
  · exact .rests
  · exact .sends (not_eq_true _ ▸ hclosed) hcall hframe

/-- **The inversion of a step.** -/
theorem Turn.of_step (h : s.step e = some t) : Turn s e t := by
  unfold step at h
  split at h
  next datagram hcall =>
    cases h
    exact turn_startSend hcall datagram
  next hcall =>
    cases h
    unfold startReceive
    split_ifs with hclosed
    · exact .rests
    · exact .receives (not_eq_true _ ▸ hclosed) hcall
  next hcall =>
    cases h
    unfold startClose
    split_ifs with hclosed
    · exact .rests
    · exact .closes (not_eq_true _ ▸ hclosed) hcall
  next answer stage hcall =>
    cases h
    exact .reads hcall
  next answer remote hcall =>
    simp only [ite_none_left_eq_some, some.injEq] at h
    obtain ⟨-, rfl⟩ := h
    exact turn_write (.inl ⟨remote, hcall⟩) answer
  next answer hcall =>
    simp only [ite_none_left_eq_some, some.injEq] at h
    obtain ⟨-, rfl⟩ := h
    exact turn_write (.inr hcall) answer
  next answer remote hcall =>
    obtain ⟨hrest, rfl⟩ := ite_some_none_eq_some.mp h
    cases answer with
    | pending => exact .rests
    | failed error => exact .stops (by simp [hcall])
    | ready done => exact .sent hcall hrest
  next answer hcall =>
    obtain ⟨-, rfl⟩ := ite_some_none_eq_some.mp h
    cases answer with
    | pending => exact .rests
    | failed error | ready done => exact .stops (by simp [hcall])
  next hcall =>
    cases h
    exact .stops (by simp [hcall])
  next => cases h

/-- **No call gets past the first check of a closed transport.** -/
theorem Turn.shut (h : Turn s e t) (hshut : Shut s) : t = s := by
  obtain ⟨hclosed, hcall⟩ := hshut
  cases h with
  | rests => rfl
  | sends hopen _ _ | closes hopen _ | receives hopen _ => rw [hopen] at hclosed; cases hclosed
  | reads hother | sent hother _ => rw [hcall] at hother; cases hother
  | writes hother => rw [hcall] at hother; rcases hother with ⟨_, hother⟩ | hother <;> cases hother
  | stops hsome => exact absurd hcall hsome

end

/-! ## Receiving -/

variable {max : UInt16} {φ : Prop} {s t : Transport} {e : Event}

/-- A datagram is what a frame says: where that tells no destination, it is the
last one that was sent to by then. -/
def Matches (frame : Option Destination × Bytes) (got : Datagram × List Destination) : Prop :=
  got.1.payload = frame.2 ∧ some got.1.remote = frame.1.or got.2.getLast?

/-- What was read and what was returned. -/
structure Core (max : UInt16) (s : Transport) : Prop where
  limit : s.maxResponse = max
  bounded : s.view.Bounded
  last : s.lastRemote = s.sent.getLast?
  frames : ∃ frames, (framing max).Reads .length s.consumed frames .length s.buffer ∧
    List.Forall₂ Matches frames s.returned
  taken : ∀ got ∈ s.returned, got.2 <+: s.sent
  quiet : s.failures = []

/-- **A transport that receives.** The next future waits at this stage, and so does
the one under way. -/
structure Live (max : UInt16) (s : Transport) : Prop extends Core max s where
  standing : ∃ stage part, Standing s.view stage part ∧ s.buffer.length < stage.required ∧
    ∀ other, s.call = some (.receive other) → other = stage

/-- The frame that is read has left its destination out, before any request. -/
def Omitted (s : Transport) (ending : Framing.End Part UInt8 IoError) : Prop :=
  s.sent = [] ∧ ∃ held, ending = .waiting (.payloadLength (some none)) held

/-- **A transport that has reported an error**, and why: the stream says so, it has
ended or failed (`φ`), or a destination was left out before any request. -/
structure Dead (max : UInt16) (φ : Prop) (s : Transport) : Prop where
  closed : s.closed = true
  call : s.call = none
  frames : List.Forall₂ Matches ((framing max).parse .length s.consumed).1 s.returned
  taken : ∀ got ∈ s.returned, got.2 <+: s.sent
  small : s.buffer.length ≤ 2 + maxMetadataLength + 2 + max.toNat
  cause : ∃ error, s.failures = [error] ∧
    (((framing max).parse .length s.consumed).2 = .failed error ∨
      (∀ other, ((framing max).parse .length s.consumed).2 ≠ .failed other) ∧
        (φ ∨ Omitted s ((framing max).parse .length s.consumed).2))

def Receiver (max : UInt16) (φ : Prop) (s : Transport) : Prop := Live max s ∨ Dead max φ s

theorem Live.start (globalId : Vector UInt8 8) (transmit receive : UInt16) :
    Live receive (.withBudget globalId transmit receive) where
  limit := rfl
  bounded := rfl
  last := rfl
  frames := ⟨[], .start _, .nil⟩
  taken := nofun
  quiet := rfl
  standing := ⟨.length, .length, .length, Nat.two_pos, nofun⟩

/-- It reports an error, and has read what it has then. -/
theorem Core.dies (h : Core max s) {error : IoError} {ending : Framing.End Part UInt8 IoError}
    (hparse : (framing max).parse .length s.buffer = ([], ending))
    (hsmall : s.buffer.length ≤ 2 + maxMetadataLength + 2 + max.toNat)
    (hcause : ending = .failed error ∨
      (∀ other, ending ≠ .failed other) ∧ (φ ∨ Omitted s ending)) :
    Receiver max φ (s.settle (.error error)) := by
  obtain ⟨frames, hreads, hmatches⟩ := h.frames
  have hall : (framing max).parse .length s.consumed = (frames, ending) := by
    rw [hreads.parse, hparse, Framing.before, List.append_nil]
  refine .inr ⟨rfl, rfl, ?_, h.taken, hsmall, error, ?_, ?_⟩
  · change List.Forall₂ Matches ((framing max).parse .length s.consumed).1 s.returned
    rw [hall]
    exact hmatches
  · change s.failures ++ [error] = [error]
    rw [h.quiet]
    rfl
  · change ((framing max).parse .length s.consumed).2 = _ ∨
      (∀ other, ((framing max).parse .length s.consumed).2 ≠ _) ∧
        (φ ∨ Omitted s ((framing max).parse .length s.consumed).2)
    rw [hall]
    exact hcause

/-- **What `receive` makes of where its future came.** -/
theorem Core.settle (h : Core max s) {outcome : Except IoError Progress}
    (hsmall : s.buffer.length ≤ s.maxBuffer) (hcomes : Comes s.view outcome) :
    Receiver max φ (s.settle outcome) := by
  obtain ⟨frames, hreads, hmatches⟩ := h.frames
  have hmax : s.view.maxResponse = max := h.limit
  have hbound : s.maxBuffer = 2 + maxMetadataLength + 2 + max.toNat := by
    rw [← h.limit]
    exact h.bounded
  cases outcome with
  | error error =>
    unfold Comes at hcomes
    rw [hmax] at hcomes
    rcases hcomes with hfailed | ⟨hlast, held, hwaits⟩
    · exact h.dies hfailed (hbound ▸ hsmall) (.inl rfl)
    have hnone := List.getLast?_eq_none_iff.mp (h.last.symm.trans hlast)
    exact h.dies hwaits (hbound ▸ hsmall) (.inr ⟨nofun, .inr ⟨hnone, held, rfl⟩⟩)
  | ok progress =>
    cases progress with
    | waits stage =>
      obtain ⟨⟨part, hstanding⟩, hshort⟩ := hcomes
      refine .inl { h with standing := ⟨stage, part, hstanding, hshort, fun other hother => ?_⟩ }
      cases hother
      rfl
    | clears =>
      unfold Comes at hcomes
      rw [hmax] at hcomes
      have hempty := hreads.through hcomes
      rw [List.append_nil] at hempty
      refine .inl { h with
        frames := ⟨frames, hempty, hmatches⟩
        standing := ⟨.length, .length, .length, Nat.two_pos, fun other hother => ?_⟩ }
      cases hother
      rfl
    | gives datagram =>
      obtain ⟨told, hframe, hremote⟩ := hcomes
      rw [hmax] at hframe
      have hmatch : Matches (told, datagram.payload) (datagram, s.sent) :=
        ⟨rfl, hremote.trans (congrArg told.or h.last)⟩
      exact .inl { h with
        frames := ⟨_, hreads.through hframe, List.rel_append hmatches (.cons hmatch .nil)⟩
        taken := forall_mem_concat.mpr ⟨h.taken, List.prefix_refl _⟩
        standing := ⟨.length, .length, .length, Nat.two_pos, nofun⟩ }

/-- The stream ends, or fails. -/
theorem Live.fails (h : Live max s) (hφ : φ) (error : IoError) :
    Receiver max φ (s.settle (.error error)) := by
  obtain ⟨stage, part, hstanding, hshort, -⟩ := h.standing
  have hfits := hstanding.required_le
  have hwaits := hstanding.resumes.1.waiting (hstanding.resumes.2 ▸ hshort)
  have hmax : s.view.maxResponse = max := h.limit
  rw [hmax] at hfits hwaits
  exact h.dies hwaits (Nat.le_of_lt (Nat.lt_of_lt_of_le hshort hfits)) (.inr ⟨nofun, .inl hφ⟩)

/-- The stream ends or fails with this event. -/
def Event.Faulty : Event → Prop
  | .read (.failed _) => True
  | .read (.ready bytes) => bytes = []
  | _ => False

/-- The answer to a read. -/
theorem Live.resumeReceive (h : Live max s) {stage : Stage} (hcall : s.call = some (.receive stage))
    {answer : Answer IoError Bytes} (hquiet : (Event.read answer).Faulty → φ) :
    Receiver max φ (s.resumeReceive stage answer) := by
  obtain ⟨frames, hreads, hmatches⟩ := h.frames
  obtain ⟨at', part, hstanding, hshort, hsame⟩ := h.standing
  obtain rfl := hsame stage hcall
  cases answer with
  | pending => exact .inl h
  | failed error => exact h.fails (hquiet trivial) error
  | ready bytes =>
    have hlength : (bytes.take (min (stage.required - s.buffer.length) 1024)).length ≤
        stage.required - s.buffer.length := by
      rw [List.length_take]
      omega
    have hend : bytes.take (min (stage.required - s.buffer.length) 1024) = [] → bytes = [] := by
      intro hend
      rcases List.take_eq_nil_iff.mp hend with hzero | hbytes
      · omega
      · exact hbytes
    change Receiver max φ
      (s.received stage (bytes.take (min (stage.required - s.buffer.length) 1024)))
    generalize bytes.take (min (stage.required - s.buffer.length) 1024) = got at hlength hend ⊢
    unfold received
    split_ifs with hgot
    · exact h.fails (hquiet (hend hgot)) _
    have hfits := hstanding.required_le
    have hmost : (s.buffer ++ got).length ≤ stage.required := by
      rw [List.length_append]
      omega
    have hbound : s.maxBuffer = 2 + maxMetadataLength + 2 + s.maxResponse.toNat := h.bounded
    have hcore : Core max { s with buffer := s.buffer ++ got, consumed := s.consumed ++ got } :=
      { h with frames := ⟨frames, hreads.read got, hmatches⟩ }
    refine hcore.settle ?_ (resume_comes h.bounded (hstanding.read got) hmost)
    rw [hbound]
    exact Nat.le_trans hmost hfits

/-- A request was sent: the next future starts over with its destination. -/
theorem Live.sent (h : Live max s) (remote : Destination) :
    Live max { s with
      stream := true, closed := false, firstWrite := false, lastRemote := some remote,
      call := none, sent := s.sent ++ [remote] } := by
  obtain ⟨stage, part, hstanding, hshort, -⟩ := h.standing
  obtain ⟨again, hagain, hrequired⟩ := hstanding.renew remote
  exact { h with
    last := List.getLast?_concat.symm
    taken := fun got hmem => (h.taken got hmem).trans (List.prefix_append _ _)
    standing := ⟨again, part, hagain, hrequired ▸ hshort, nofun⟩ }

/-- **A step of a transport that receives.** -/
theorem Live.turn (h : Live max s) (hquiet : e.Faulty → φ) (hturn : Turn s e t) :
    Receiver max φ t := by
  cases hturn with
  | rests => exact .inl h
  | sends _ _ _ | closes _ _ | stops _ =>
    obtain ⟨stage, part, hstanding, hshort, -⟩ := h.standing
    exact .inl { h with standing := ⟨stage, part, hstanding, hshort, nofun⟩ }
  | receives _ _ =>
    obtain ⟨stage, part, hstanding, hshort, -⟩ := h.standing
    have hfits := hstanding.required_le
    have hbound : s.maxBuffer = 2 + maxMetadataLength + 2 + s.maxResponse.toNat := h.bounded
    rw [readFrame_waits h.bounded hstanding hshort]
    refine h.toCore.settle ?_ ⟨⟨part, hstanding⟩, hshort⟩
    rw [hbound]
    exact Nat.le_of_lt (Nat.lt_of_lt_of_le hshort hfits)
  | reads hcall => exact h.resumeReceive hcall hquiet
  | writes hcall => exact .inl { h with }
  | sent _ _ => exact .inl (h.sent _)

theorem Receiver.turn (h : Receiver max φ s) (hquiet : e.Faulty → φ) (hturn : Turn s e t) :
    Receiver max φ t := by
  rcases h with hlive | hdead
  · exact hlive.turn hquiet hturn
  · rw [hturn.shut ⟨hdead.closed, hdead.call⟩]
    exact .inr hdead

/-! ## Sending -/

/-- **Data frames**: the first one is new, the others keep on. -/
inductive DataFrames (globalId : Vector UInt8 8) : List Bytes → Prop
  | none : DataFrames globalId []
  | new {datagram : Datagram} {frame : Bytes}
    (hframe : encodeDataFrame datagram true
      (if globalId ≠ Vector.replicate 8 0 then some globalId else none) = .ok frame) :
    DataFrames globalId [frame]
  | keep {frames : List Bytes} {datagram : Datagram} {frame : Bytes}
    (hframes : DataFrames globalId frames) (hsome : frames ≠ [])
    (hframe : encodeDataFrame datagram false none = .ok frame) :
    DataFrames globalId (frames ++ [frame])

/-- **What was written**: data frames, and the end after them. -/
structure Written (globalId : Vector UInt8 8) (s : Transport) : Prop where
  sameId : s.globalId = globalId
  sound : s.outbox.Sound
  frames : ∃ data, DataFrames globalId data ∧
    (s.outbox.frames = data ∨ s.outbox.frames = data ++ [endFrame])
  ready : s.closed = false → s.outbox.rest = [] ∧ DataFrames globalId s.outbox.frames ∧
    (s.firstWrite = true ↔ s.outbox.frames = [])
  sending : ∀ remote, s.call = some (.send remote) →
    DataFrames globalId s.outbox.frames ∧ s.outbox.frames ≠ []
  receiving : ∀ stage, s.call = some (.receive stage) → s.closed = false
  writing : (∃ remote, s.call = some (.send remote)) ∨ s.call = some .close → s.closed = true

theorem Written.start (globalId : Vector UInt8 8) (transmit receive : UInt16) :
    Written globalId (.withBudget globalId transmit receive) where
  sameId := rfl
  sound := .new
  frames := ⟨[], .none, .inl rfl⟩
  ready := fun _ => ⟨rfl, .none, ⟨fun _ => rfl, fun _ => rfl⟩⟩
  sending := nofun
  receiving := nofun
  writing := nofun

section

variable {globalId : Vector UInt8 8}

variable (h : Written globalId s)

include h

/-- What `receive` does leaves what was written alone. -/
theorem Written.settle (hopen : s.closed = false)
    (outcome : Except IoError Progress) : Written globalId (s.settle outcome) := by
  rcases outcome with error | stage | _ | datagram
  · exact { h with ready := nofun, sending := nofun, receiving := nofun, writing := fun _ => rfl }
  · exact { h with sending := nofun, receiving := fun _ _ => hopen, writing := nofun }
  · exact { h with sending := nofun, receiving := fun _ _ => hopen, writing := nofun }
  · exact { h with sending := nofun, receiving := nofun, writing := nofun }

theorem Written.resumeReceive (hopen : s.closed = false) (stage : Stage)
    (answer : Answer IoError Bytes) : Written globalId (s.resumeReceive stage answer) := by
  cases answer with
  | pending => exact h
  | failed error => exact h.settle hopen (.error error)
  | ready bytes =>
    change Written globalId (s.received stage (bytes.take _))
    generalize bytes.take (min (stage.required - s.buffer.length) 1024) = got
    unfold received
    split_ifs with hend
    · exact h.settle hopen _
    · have hnext : Written globalId
          { s with buffer := s.buffer ++ got, consumed := s.consumed ++ got } := { h with }
      exact hnext.settle hopen _

theorem Written.turn (hturn : Turn s e t) : Written globalId t := by
  cases hturn with
  | rests => exact h
  | @sends datagram frame hopen hcall hframe =>
    obtain ⟨hrest, hdata, hfirst⟩ := h.ready hopen
    have hmore : DataFrames globalId (s.outbox.frames ++ [frame]) := by
      unfold frameId at hframe
      cases hnew : s.firstWrite with
      | true =>
        rw [hnew, h.sameId] at hframe
        have hnewFrame : encodeDataFrame datagram true
            (if globalId ≠ Vector.replicate 8 0 then some globalId else none) = .ok frame := by
          simpa using hframe
        rw [hfirst.mp hnew]
        exact .new hnewFrame
      | false =>
        rw [hnew] at hframe
        refine .keep hdata (fun hnil => ?_) hframe
        rw [hfirst.mpr hnil] at hnew
        cases hnew
    exact {
      sameId := h.sameId
      sound := h.sound.start hrest
      frames := ⟨_, hmore, .inl rfl⟩
      ready := nofun
      sending := fun _ _ => ⟨hmore, by simp [Outbox.start]⟩
      receiving := nofun
      writing := fun _ => rfl }
  | closes hopen hcall =>
    obtain ⟨hrest, hdata, -⟩ := h.ready hopen
    exact {
      sameId := h.sameId
      sound := h.sound.start hrest
      frames := ⟨_, hdata, .inr rfl⟩
      ready := nofun
      sending := nofun
      receiving := nofun
      writing := fun _ => rfl }
  | receives hopen _ => exact h.settle hopen _
  | reads hcall => exact h.resumeReceive (h.receiving _ hcall) _ _
  | @writes _ count hcall =>
    exact { h with
      sound := h.sound.took count
      ready := fun hopen => by
        have hclosed := h.writing hcall
        rw [show s.closed = false from hopen] at hclosed
        cases hclosed }
  | stops _ => exact { h with sending := nofun, receiving := nofun, writing := nofun }
  | @sent remote hcall hrest =>
    obtain ⟨hdata, hsome⟩ := h.sending remote hcall
    exact { h with
      ready := fun _ => ⟨hrest, hdata, ⟨nofun, fun hnil => absurd hnil hsome⟩⟩
      sending := nofun
      receiving := nofun
      writing := nofun }

end

/-! ## Runs -/

theorem Live.parse (h : Live max s) :
    List.Forall₂ Matches ((framing max).parse .length s.consumed).1 s.returned ∧
      ∀ error, ((framing max).parse .length s.consumed).2 ≠ .failed error := by
  obtain ⟨frames, hreads, hmatches⟩ := h.frames
  obtain ⟨stage, part, hstanding, hshort, -⟩ := h.standing
  have hwaits := hstanding.resumes.1.waiting (hstanding.resumes.2 ▸ hshort)
  have hmax : s.view.maxResponse = max := h.limit
  rw [hmax] at hwaits
  rw [hreads.parse, show (framing max).parse .length s.buffer = _ from hwaits, Framing.before,
    List.append_nil]
  refine ⟨hmatches, fun error herror => ?_⟩
  cases herror

theorem Receiver.frames (h : Receiver max φ s) :
    List.Forall₂ Matches ((framing max).parse .length s.consumed).1 s.returned ∧
      ∀ got ∈ s.returned, got.2 <+: s.sent := by
  rcases h with hlive | hdead
  · exact ⟨hlive.parse.1, hlive.taken⟩
  · exact ⟨hdead.frames, hdead.taken⟩

theorem Receiver.small (h : Receiver max φ s) :
    s.buffer.length ≤ 2 + maxMetadataLength + 2 + max.toNat := by
  rcases h with hlive | hdead
  · obtain ⟨stage, part, hstanding, hshort, -⟩ := hlive.standing
    have hfits := hstanding.required_le
    rw [show s.view.maxResponse = max from hlive.limit] at hfits
    exact Nat.le_of_lt (Nat.lt_of_lt_of_le hshort hfits)
  · exact hdead.small

abbrev Steps (s : Transport) (history : List (Transport × Event)) (t : Transport) : Prop :=
  Run (fun s e t => s.step e = some t) s history t

theorem Receiver.run {history : List (Transport × Event)} (h : Receiver max φ s)
    (hrun : Steps s history t) (hquiet : φ ∨ ∀ entry ∈ history, ¬ entry.2.Faulty) :
    Receiver max φ t := by
  induction hrun with
  | start => exact h
  | @next history u t e _ hstep ih =>
    have hbefore := ih (hquiet.imp_right fun hall entry hmem =>
      hall entry (List.mem_append_left _ hmem))
    refine hbefore.turn (fun hfaulty => ?_) (.of_step hstep)
    exact hquiet.resolve_right fun hall =>
      hall (u, e) (List.mem_append_right _ List.mem_cons_self) hfaulty

/-- **Nothing happens to a closed transport.** -/
theorem Shut.run {history : List (Transport × Event)} (h : Shut s) (hrun : Steps s history t) :
    t = s :=
  hrun.invariant (I := fun u => u = s) rfl fun _ _ _ hu hstep => by
    subst hu
    exact (Turn.of_step hstep).shut h

namespace Sample

def datagram : Datagram := ⟨.ip ⟨.v4 0x01020304, 53⟩, [9], none⟩

/-- A request, and a response without a destination, whose first call is dropped
after the metadata. -/
def events : List Event :=
  [.send datagram, .write (.ready 3), .write (.ready 90), .flush (.ready ()),
    .receive, .read (.ready [0, 4]), .read (.ready [0, 0, 2, 1]), .drop,
    .receive, .read (.ready [0]), .read (.ready [1]), .read (.ready [7])]

/-- The association is closed before any request. -/
def closing : List Event := [.close, .write (.ready 6), .shutdown (.ready ())]

def start : Transport := .withBudget (Vector.replicate 8 0) 100 100

end Sample

end Vole.Xudp
