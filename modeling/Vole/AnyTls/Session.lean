import Vole.AnyTls.Model.Session

/-!
# What an AnyTLS session does by itself

What the loops and the streams of a session can do is said once (`Access`),
and every invariant of a session is read off that.
-/

namespace Vole.AnyTls

open Option

namespace Stream

/-- The answer to a stream that waits to be closed. -/
def settle (waited : Bool) (result : Except IoError Unit) (stream : Stream) : Stream :=
  if waited then
    { stream with pendingShutdown := stream.pendingShutdown.map fun _ => some result }
  else stream

/-- The sender of the acknowledgement goes away. -/
def lose (synAck : Bool) (stream : Stream) : Stream :=
  if synAck then { stream with acknowledgement := .dropped } else stream

/-- The sender of the acknowledgement is used. -/
def answer (synAck : Bool) (result : Except IoError Unit) (stream : Stream) : Stream :=
  if synAck then { stream with acknowledgement := .sent result } else stream

/-- The stream of a session that fails. -/
def broken (config : Config) (synAck : Bool) (error : IoError) (stream : Stream) : Stream :=
  ((stream.fail error).answer synAck
    (.error ⟨error.kind, boundedMessage error.text⟩)).trySend config (.failed error)

end Stream

namespace Session

variable {config : Config} {s t : Session} {e : SessionEvent} {calls : List Call}

@[simp] theorem withStream_stream (k j : ℕ) (f : Stream → Stream) :
    (s.withStream k f).stream j = if j = k then f (s.stream k) else s.stream j :=
  Function.update_apply ..

/-- What a change of a stream leaves, it leaves of every stream. -/
theorem withStream_proj {α : Type} (p : Stream → α) {j : ℕ} {f : Stream → Stream}
    (hf : p (f (s.stream j)) = p (s.stream j)) (k : ℕ) :
    p ((s.withStream j f).stream k) = p (s.stream k) := by
  rw [withStream_stream]
  split_ifs with hk
  · rw [hf, hk]
  · rfl

section Fields

variable (k : ℕ) (f : Stream → Stream)

@[simp] theorem withStream_active : (s.withStream k f).active = s.active := rfl

@[simp] theorem withStream_queue : (s.withStream k f).queue = s.queue := rfl

@[simp] theorem withStream_writer : (s.withStream k f).writer = s.writer := rfl

@[simp] theorem withStream_reader : (s.withStream k f).reader = s.reader := rfl

end Fields

theorem withStream_withStream (k : ℕ) (f g : Stream → Stream) :
    (s.withStream k f).withStream k g = s.withStream k fun stream => g (f stream) := by
  simp [withStream]

theorem withStream_id (k : ℕ) : s.withStream k (fun stream => stream) = s := by
  simp [withStream]

/-! ## Answers as changes of a stream -/

theorem answerClose_eq (k : ℕ) (waited : Bool) (result : Except IoError Unit) :
    s.answerClose k waited result = s.withStream k (Stream.settle waited result) := by
  cases waited
  · exact (withStream_id k).symm
  · rfl

theorem dropActive_eq (a : ActiveStream) :
    s.dropActive a = s.withStream a.streamId (Stream.lose a.synAck) := by
  unfold dropActive
  cases a.synAck
  · exact (withStream_id _).symm
  · rfl

variable {a : ActiveStream}

theorem acknowledge_eq (result : Except IoError Unit) (h : s.active = some a) :
    s.acknowledge a result =
      ({ s with active := some { a with synAck := false } } : Session).withStream a.streamId
        (Stream.answer a.synAck result) := by
  obtain ⟨k, synAck⟩ := a
  cases synAck
  · rw [← h]
    exact (withStream_id k).symm
  · rfl

theorem acknowledge_withStream_eq (result : Except IoError Unit)
    (f : Stream → Stream) (h : s.active = some a) :
    (s.withStream a.streamId f).acknowledge a result =
      ({ s with active := some { a with synAck := false } } : Session).withStream a.streamId
        fun stream => (f stream).answer a.synAck result := by
  rw [acknowledge_eq (s := s.withStream a.streamId f) result h]
  exact withStream_withStream (s := { s with active := some { a with synAck := false } }) _ _ _

/-- A failure breaks the active stream, if there is one. -/
theorem failActive_cases {P : Session → Prop} (error : IoError) (hnone : P s)
    (hsome : ∀ a, s.active = some a → P (({ s with active := none } : Session).withStream a.streamId
      (Stream.broken config a.synAck error))) : P (s.failActive config error) := by
  unfold failActive
  split
  · exact hnone
  · exact hsome _ ‹_›

/-! ## Accesses -/

/-- The part of a payload that the reader loop holds for a stream. -/
def inFlight (s : Session) (k : ℕ) : Bytes :=
  match s.reader with
  | .targeting j payload => if j = k then payload else []
  | .pushing j rest => if j = k then rest else []
  | _ => []

/-- The reader loop is there, and holds no part of a payload. -/
def Unburdened (s : Session) : Prop := s.reader ≠ .stopped ∧ ∀ k, s.inFlight k = []

/-- The stream that a command is to close. -/
def closeOf : WriterCommand → Option ℕ
  | .closeStream k _ _ => some k
  | _ => none

/-- The stream that the writer is about to release. -/
def closesOf : Writer → List ℕ
  | .received command => (closeOf command).toList
  | .writing command => (closeOf command).toList
  | .closing k _ => [k]
  | _ => []

/-- The streams that are to be closed, by a command that is queued or
begun. -/
def closes (s : Session) : List ℕ := closesOf s.writer ++ s.queue.filterMap closeOf

theorem closes_enqueue (command : WriterCommand) :
    (s.enqueue command).closes = s.closes ++ (closeOf command).toList := by
  cases command <;> simp [closes, enqueue, closeOf]

/-- Where the writer is in `release_stream`, until it has handed the session
back. -/
def placeOf : Writer → Option Place
  | .releasing _ _ .returned _ => none
  | .releasing _ _ place _ => some place
  | _ => none

/-- The writer is not in `release_stream`. -/
def Unreleasing (w : Writer) : Prop := ∀ k waited place a, w ≠ .releasing k waited place a

/-- The failure of a stream that the server rejects. -/
def rejection : IoError := ⟨.connectionRefused, "AnyTLS stream rejected by server"⟩

section

variable (config s)

/-- **What an access does.** -/
inductive Access : SessionEvent → Session → List Call → Prop
  /-- The reader goes on or stops, and no stream is touched. -/
  | turned {e : SessionEvent} {r : Reader} {peerVersion : ℕ} {queue : List WriterCommand}
      {calls : List Call} :
    s.reader ≠ .unstarted → s.Unburdened ∨ r = .stopped →
    r = .reading ∨ r = .answering ∨ r = .stopped →
    queue.filterMap closeOf = s.queue.filterMap closeOf →
    (∀ c ∈ calls, c.caller = .reader ∨
      ∃ k rest, c.caller = .pushing k ∧ s.reader = .pushing k rest) → e ≠ .release →
    Access e { s with reader := r, peerVersion, queue } calls
  /-- A frame with data comes for the active stream. -/
  | routed {frame : Frame} {a : ActiveStream} :
    s.reader = .reading → s.active = some a → frame.command = .push →
    a.streamId = frame.streamId →
    Access (.frame frame)
      (({ s with reader := .targeting frame.streamId frame.payload } : Session).withStream
        frame.streamId fun stream => { stream with pushed := stream.pushed ++ frame.payload }) []
  /-- The end of the active stream comes. -/
  | ended {frame : Frame} {a : ActiveStream} :
    s.reader = .reading → s.active = some a → frame.command ≠ .push →
    a.streamId = frame.streamId →
    Access (.frame frame)
      (({ s with reader := .finishing frame.streamId } : Session).withStream frame.streamId
        ({ · with remoteFinished := true })) []
  /-- The server accepts or rejects the active stream. -/
  | accepted {frame : Frame} {a : ActiveStream} :
    s.reader = .reading → s.active = some a → frame.command ≠ .push →
    Access (.frame frame)
      (({ s with active := some { a with synAck := false }, reader := .reading } : Session).withStream
        a.streamId (Stream.answer a.synAck (.ok ()))) []
  | refused {frame : Frame} {a : ActiveStream} :
    s.reader = .reading → s.active = some a → frame.command ≠ .push →
    Access (.frame frame)
      (({ s with active := some { a with synAck := false }, reader := .stopped } : Session).withStream
        a.streamId fun stream =>
          ((stream.fail rejection).trySend config (.failed rejection)).answer a.synAck
            (.error rejection)) [⟨.reader, rejection⟩]
  /-- The payload is sent on, part by part. -/
  | checked {k : ℕ} {payload : Bytes} :
    s.reader = .targeting k payload →
    Access .check { s with reader := .pushing k payload } []
  | chunk {k : ℕ} {rest : Bytes} :
    s.reader = .pushing k rest →
    Access .send
      (({ s with
        reader :=
          if rest.drop config.maxStreamChunk = [] then .reading
          else .pushing k (rest.drop config.maxStreamChunk) } : Session).withStream k fun stream =>
        { stream with events := stream.events ++ [.data (rest.take config.maxStreamChunk)] }) []
  | finished {k : ℕ} :
    s.reader = .finishing k →
    Access .send
      (({ s with reader := .reading } : Session).withStream k fun stream =>
        { stream with events := stream.events ++ [.finished] }) []
  /-- The rest of a payload is for a stream that was released. -/
  | passed {k : ℕ} {rest : Bytes} :
    s.reader = .pushing k rest → (s.stream k).localFinished = true →
    Access .sendCancelled { s with reader := .reading } []
  /-- The writer goes on or stops, and releases nothing. -/
  | wrote {e : SessionEvent} {w : Writer} {queue : List WriterCommand}
      {openDone : Option (Except IoError Unit)} {calls : List Call} :
    (closesOf w ++ queue.filterMap closeOf).Sublist s.closes → Unreleasing s.writer →
    Unreleasing w → s.writer ≠ .stopped → s.writer ≠ .unstarted →
    (∀ c ∈ calls, c.caller = .writer) → e ≠ .release →
    Access e { s with writer := w, queue, openDone } calls
  /-- A stream cannot be closed. -/
  | broke {e : SessionEvent} {k : ℕ} {waited : Bool} {error : IoError} :
    k ∈ closesOf s.writer → (e = .release → s.active = none) →
    Access e
      (({ s with writer := .stopped, queue := [] } : Session).withStream k
        (Stream.settle waited (.error error))) [⟨.writer, error⟩]
  | misreleased {k : ℕ} {waited : Bool} {place : Place} {a : ActiveStream} {error : IoError} :
    s.writer = .releasing k waited place a →
    Access .release
      ((({ s with writer := .stopped, queue := [] } : Session).withStream a.streamId
        (Stream.lose a.synAck)).withStream k (Stream.settle waited (.error error)))
      [⟨.writer, error⟩, ⟨.writer, error⟩]
  /-- A stream is released. -/
  | taken {k : ℕ} {waited : Bool} {a : ActiveStream} :
    s.writer = .closing k waited → s.active = some a →
    Access .release { s with active := none, writer := .releasing k waited .taken a } []
  | marked {k : ℕ} {waited : Bool} {a : ActiveStream} :
    s.writer = .releasing k waited .taken a → a.streamId = k →
    Access .release
      (({ s with writer := .releasing k waited .marked a } : Session).withStream k
        ({ · with localFinished := true })) []
  | unclosed {k : ℕ} {waited : Bool} {a : ActiveStream} :
    s.writer = .releasing k waited .marked a → s.closed = false →
    Access .release { s with writer := .releasing k waited .unclosed a } []
  | freed {k : ℕ} {waited : Bool} {a : ActiveStream} :
    s.writer = .releasing k waited .unclosed a → s.state = .active →
    Access .release { s with state := .idle, writer := .releasing k waited .freed a } []
  | done {k : ℕ} {waited : Bool} {place : Place} {a : ActiveStream} :
    s.writer = .releasing k waited place a →
    Access .release
      ((({ s with writer := .waiting } : Session).withStream a.streamId
        (Stream.lose a.synAck)).withStream k (Stream.settle waited (.ok ()))) []
  /-- A stream is used. -/
  | polled {k room : ℕ} :
    (s.stream k).handle = true →
    Access (.read k room) (s.withStream k (Stream.pollRead · room)) []
  | sent {e : SessionEvent} {k : ℕ} {command : WriterCommand} :
    (s.stream k).handle = true → closeOf command = none → e ≠ .release →
    Access e (s.enqueue command) []
  | shut {k : ℕ} {finish : Bool} :
    (s.stream k).handle = true → (s.stream k).closed = false →
    (s.stream k).pendingShutdown = none → s.writer ≠ .stopped →
    Access (.shutdown k)
      ((s.enqueue (.closeStream k finish true)).withStream k
        ({ · with closeQueued := true, pendingShutdown := some none })) []
  | settled {k : ℕ} {result : Except IoError Unit} :
    (s.stream k).handle = true →
    (s.stream k).pendingShutdown = some (some result) ∨
      s.writer = .stopped ∧ (s.stream k).pendingShutdown = some none ∧
        (∃ error, result = .error error) →
    Access (.shutdownAnswered k)
      (s.withStream k ({ · with closed := result.isOk, pendingShutdown := none })) []
  /-- The handle of a stream goes away. -/
  | forgot {k : ℕ} :
    (s.stream k).handle = true →
    (s.stream k).closed = true ∨ (s.stream k).closeQueued = true →
    Access (.dropHandle k) (s.withStream k ({ · with handle := false })) []
  | dropped {k : ℕ} {finish : Bool} :
    (s.stream k).handle = true → (s.stream k).closed = false →
    (s.stream k).closeQueued = false → s.writer ≠ .stopped →
    Access (.dropHandle k)
      ((s.enqueue (.closeStream k finish false)).withStream k
        ({ · with closeQueued := true, handle := false })) []
  | abandoned {k : ℕ} {calls : List Call} :
    (s.stream k).handle = true → (s.stream k).closeQueued = false →
    (∀ c ∈ calls, c.caller = .abandoned k ∧ s.activeMatches k = true) →
    Access (.dropHandle k) (s.withStream k ({ · with closeQueued := true, handle := false })) calls
  | deafened {k : ℕ} :
    (s.stream k).handle = false → (s.stream k).closeQueued = true →
    Access (.dropReceiver k) (s.withStream k ({ · with receiver := false })) []

end

section Inversion

variable {frame : Frame}

theorem unburdened_of_reading (h : s.reader = .reading) : s.Unburdened := by
  simp [Unburdened, inFlight, h]

theorem Access.readOn (he : e ≠ .release) (hreader : s.reader ≠ .unstarted) (h : s.Unburdened) :
    Access config s e s.readOn.1 s.readOn.2 :=
  .turned hreader (.inl h) (.inl rfl) rfl (by simp [Session.readOn]) he

theorem Access.readerError (error : IoError) (he : e ≠ .release) (hreader : s.reader ≠ .unstarted) :
    Access config s e (s.readerError error).1 (s.readerError error).2 :=
  .turned hreader (.inr rfl) (.inr (.inr rfl)) rfl (by simp [Session.readerError]) he

theorem Access.of_finishing (he : e ≠ .release) {k : ℕ} (h : s.reader = .finishing k) :
    Access config s e s.readOn.1 s.readOn.2 :=
  .readOn he (by simp [h]) (by simp [Unburdened, inFlight, h])

/-- The new state and the calls of an access, as a pair. -/
theorem Access.of_pair {r : Session × List Call} (hr : Access config s e r.1 r.2)
    (h : r = (t, calls)) : Access config s e t calls := by
  cases h
  exact hr

/-- What `active_target` finds is the active stream. -/
theorem activeTarget_some {k j : ℕ} (h : s.activeTarget k = .ok (some j)) :
    ∃ a, s.active = some a ∧ a.streamId = k ∧ j = k := by
  unfold activeTarget at h
  cases hactive : s.active with
  | none =>
    simp only [hactive] at h
    split_ifs at h
    cases h
  | some a =>
    simp only [hactive] at h
    split_ifs at h with _ hk <;> cases h
    exact ⟨a, rfl, hk, rfl⟩

section Frames

variable (hreading : s.reader = .reading)
include hreading

theorem frame_readOn (config : Config) (frame : Frame) :
    Access config s (.frame frame) s.readOn.1 s.readOn.2 :=
  .readOn (by simp) (by simp [hreading]) (unburdened_of_reading hreading)

theorem frame_error (config : Config) (frame : Frame) (error : IoError) :
    Access config s (.frame frame) (s.readerError error).1 (s.readerError error).2 :=
  .readerError error (by simp) (by simp [hreading])

theorem handleSynAck_access (hframe : frame.command = .synAck) :
    Access config s (.frame frame) (s.handleSynAck config frame).1
      (s.handleSynAck config frame).2 := by
  have hpush : frame.command ≠ .push := by simp [hframe]
  have hon := frame_readOn hreading config frame
  have herror := frame_error hreading config frame
  unfold handleSynAck
  cases hactive : s.active with
  | none => dsimp only; split_ifs; exacts [herror _, hon, herror _]
  | some a =>
    dsimp only
    split_ifs
    · exact herror _
    · exact hon
    · exact herror _
    · rw [acknowledge_eq _ hactive]
      exact .accepted hreading hactive hpush
    · rw [acknowledge_withStream_eq _ _ hactive]
      exact .refused hreading hactive hpush

/-- What `handle_server_frame` does. -/
theorem handleServerFrame_access :
    Access config s (.frame frame) (s.handleServerFrame config frame).1
      (s.handleServerFrame config frame).2 := by
  have hon := frame_readOn hreading config frame
  have herror := frame_error hreading config frame
  unfold handleServerFrame
  split
  case h_2 hcommand =>
    split_ifs
    · exact herror _
    cases htarget : s.activeTarget frame.streamId with
    | error error => exact herror _
    | ok target =>
      cases target with
      | none => exact hon
      | some k =>
        obtain ⟨a, hactive, ha, rfl⟩ := activeTarget_some htarget
        exact .routed hreading hactive hcommand ha
  case h_3 hcommand =>
    have hpush : frame.command ≠ .push := by simp [hcommand]
    split_ifs
    · exact herror _
    cases htarget : s.activeTarget frame.streamId with
    | error error => exact herror _
    | ok target =>
      cases target with
      | none => exact hon
      | some k =>
        obtain ⟨a, hactive, ha, rfl⟩ := activeTarget_some htarget
        exact .ended hreading hactive hpush ha
  case h_4 hcommand => exact handleSynAck_access hreading hcommand
  case h_7 =>
    split_ifs
    · exact herror _
    · exact herror _
    · exact .turned (by simp [hreading]) (.inl (unburdened_of_reading hreading)) (by simp) rfl
        (by simp) (by simp)
  case h_9 =>
    split_ifs
    · exact herror _
    · cases config.parseServerVersion frame.payload with
      | error error => exact herror _
      | ok version =>
        exact .turned (by simp [hreading]) (.inl (unburdened_of_reading hreading)) (.inl rfl) rfl
          (by simp [Session.readOn]) (by simp)
  all_goals first | exact herror _ | (split_ifs <;> first | exact herror _ | exact hon)

end Frames

variable {command : WriterCommand}

theorem sublist_closes {w : Writer}
    (hw : s.writer = .received command ∨ s.writer = .writing command)
    (h : closesOf w = [] ∨ closesOf w = (closeOf command).toList) :
    (closesOf w ++ s.queue.filterMap closeOf).Sublist s.closes := by
  refine List.Sublist.append ?_ (List.Sublist.refl _)
  have hcommand : closesOf s.writer = (closeOf command).toList := by
    rcases hw with hw | hw <;> rw [hw] <;> rfl
  rw [hcommand]
  rcases h with h | h
  · rw [h]; exact List.nil_sublist _
  · rw [h]

theorem startCommand_access (hw : s.writer = .received command) :
    Access config s .start (s.startCommand command).1 (s.startCommand command).2 := by
  have hs : Unreleasing s.writer := by simp [Unreleasing, hw]
  have hgo (w : Writer) (hw' : Unreleasing w)
      (hcloses : closesOf w = [] ∨ closesOf w = (closeOf command).toList) :
      Access config s .start { s with writer := w } [] :=
    .wrote (sublist_closes (.inl hw) hcloses) hs hw' (by simp [hw]) (by simp [hw])
      (by simp) (by simp)
  unfold startCommand
  cases command with
  | openStream k | flush | control => exact hgo _ (by simp [Unreleasing]) (.inr rfl)
  | data k payload =>
    dsimp only
    split_ifs
    · exact hgo _ (by simp [Unreleasing]) (.inr rfl)
    · exact .wrote (by simp [closesOf]) hs (by simp [Unreleasing]) (by simp [hw])
        (by simp [hw]) (by simp [writerError]) (by simp)
  | closeStream k finish waited =>
    dsimp only
    split_ifs <;> exact hgo _ (by simp [Unreleasing]) (.inr rfl)

theorem finishCommand_access {result : Except IoError Unit} (hw : s.writer = .writing command) :
    Access config s (.written result) (s.finishCommand command result).1
      (s.finishCommand command result).2 := by
  have hs : Unreleasing s.writer := by simp [Unreleasing, hw]
  have hgo (w : Writer) (openDone : Option (Except IoError Unit)) (hw' : Unreleasing w)
      (hcloses : closesOf w = [] ∨ closesOf w = (closeOf command).toList) :
      Access config s (.written result) { s with writer := w, openDone } [] :=
    .wrote (sublist_closes (.inr hw) hcloses) hs hw' (by simp [hw]) (by simp [hw])
      (by simp) (by simp)
  have hstop (error : IoError) (openDone : Option (Except IoError Unit)) :
      Access config s (.written result)
        { s with writer := .stopped, queue := [], openDone } [⟨.writer, error⟩] :=
    .wrote (by simp [closesOf]) hs (by simp [Unreleasing]) (by simp [hw]) (by simp [hw])
      (by simp) (by simp)
  unfold finishCommand
  cases result with
  | ok _ =>
    cases command with
    | closeStream k finish waited => exact hgo _ _ (by simp [Unreleasing]) (.inr rfl)
    | _ => exact hgo _ _ (by simp [Unreleasing]) (.inl rfl)
  | error error =>
    cases command with
    | closeStream k finish waited =>
      dsimp only
      rw [answerClose_eq]
      exact .broke (by simp [hw, closesOf, closeOf]) (by simp)
    | _ => exact hstop _ _

theorem release_access {k : ℕ} {waited : Bool} {place : Place} {a : ActiveStream}
    (hw : s.writer = .releasing k waited place a)
    (h : s.release k waited place a = some (t, calls)) : Access config s .release t calls := by
  cases place <;> dsimp only [release] at h
  case taken =>
    split_ifs at h with hid
    · rw [releaseError, answerClose_eq, dropActive_eq] at h
      cases h
      exact .misreleased hw
    · cases h
      exact .marked hw (by simpa using hid)
  case marked =>
    split_ifs at h with hclosed
    · rw [answerClose_eq, dropActive_eq] at h
      cases h
      exact .done hw
    · cases h
      exact .unclosed hw (by simpa using hclosed)
  case unclosed =>
    split_ifs at h with hstate
    · cases h
      exact .freed hw hstate
    · rw [releaseError, answerClose_eq, dropActive_eq] at h
      cases h
      exact .misreleased hw
  case freed => cases h
  case returned =>
    rw [answerClose_eq, dropActive_eq] at h
    cases h
    exact .done hw

/-- **Every access is one of these.** -/
theorem access_of_step (h : s.step config e = some (t, calls)) : Access config s e t calls := by
  cases e <;> dsimp only [step] at h
  case frame frame =>
    obtain ⟨hreading, h⟩ := ite_some_none_eq_some.mp h
    exact (handleServerFrame_access hreading).of_pair h
  case readFailed error =>
    obtain ⟨hreading, h⟩ := ite_some_none_eq_some.mp h
    exact (Access.readerError _ (by simp) (by simp [hreading])).of_pair h
  case readerCancelled =>
    have hstop (calls : List Call) (hreader : s.reader ≠ .unstarted)
        (hcalls : ∀ c ∈ calls, c.caller = .reader) :
        Access config s .readerCancelled { s with reader := .stopped } calls :=
      .turned hreader (.inr rfl) (.inr (.inr rfl)) rfl (fun c hc => .inl (hcalls c hc)) (by simp)
    split_ifs at h
    split at h <;> simp only [some.injEq, reduceCtorEq] at h <;>
      obtain ⟨rfl, rfl⟩ := Prod.mk.inj h <;> exact hstop _ (by simp [*]) (by simp)
  case check =>
    split at h
    case h_2 => cases h
    case h_1 k payload htargeting =>
      simp only [some.injEq, checkTarget] at h
      split_ifs at h with hfinished hempty
      · exact (Access.readerError _ (by simp) (by simp [htargeting])).of_pair h
      · have hunburdened : s.Unburdened := by simp [Unburdened, inFlight, htargeting, hempty]
        exact (Access.readOn (by simp) (by simp [htargeting]) hunburdened).of_pair h
      · cases h
        exact .checked htargeting
  case send =>
    split at h
    case h_3 => cases h
    case h_1 k rest hpushing =>
      unfold pushChunk at h
      dsimp only at h
      split at h
      · cases h
        exact .turned (by simp [hpushing]) (.inr rfl) (.inr (.inr rfl)) rfl (by simp [hpushing])
          (by simp)
      · obtain ⟨-, ⟨⟩⟩ := ite_some_none_eq_some.mp h
        exact .chunk hpushing
    case h_2 k hfinishing =>
      unfold pushFinished at h
      dsimp only at h
      split_ifs at h
      · exact (Access.of_finishing (by simp) hfinishing).of_pair (some.inj h)
      · cases h
        exact .finished hfinishing
  case sendCancelled =>
    split at h
    case h_3 => cases h
    case h_1 k rest hpushing =>
      obtain ⟨hif, ⟨⟩⟩ := ite_some_none_eq_some.mp h
      exact .passed hpushing hif
    case h_2 k hfinishing =>
      obtain ⟨-, h⟩ := ite_some_none_eq_some.mp h
      exact (Access.of_finishing (by simp) hfinishing).of_pair h
  case respond =>
    split_ifs at h with hanswering
    all_goals have hreader : s.reader = .answering := by simpa using hanswering
    · exact (Access.readerError _ (by simp) (by simp [hreader])).of_pair (some.inj h)
    · cases h
      exact .turned (by simp [hreader]) (.inl (by simp [Unburdened, inFlight, hreader])) (.inl rfl)
        (by simp [enqueue, closeOf]) (by simp) (by simp)
  case receive =>
    split_ifs at h with hwaiting
    split at h
    case h_1 => cases h
    case h_2 command rest hqueue =>
      cases h
      have hw : s.writer = .waiting := by simpa using hwaiting
      refine .wrote ?_ (by simp [Unreleasing, hw])
        (by simp [Unreleasing]) (by simp [hw]) (by simp [hw]) (by simp) (by simp)
      cases command <;> simp [closes, hqueue, hw, closesOf, closeOf, List.filterMap_cons]
  case start =>
    split at h
    case h_2 => cases h
    case h_1 command hw =>
      exact (startCommand_access hw).of_pair (some.inj h)
  case written result =>
    split at h
    case h_2 => cases h
    case h_1 command hw =>
      exact (finishCommand_access hw).of_pair (some.inj h)
  case writerCancelled =>
    split_ifs at h
    have hstop (hs : Unreleasing s.writer) (hw : s.writer ≠ .stopped)
        (hstarted : s.writer ≠ .unstarted) :
        Access config s .writerCancelled { s with writer := .stopped, queue := [] } [] :=
      .wrote (by simp [closesOf]) hs (by simp [Unreleasing]) hw hstarted (by simp) (by simp)
    split at h <;> simp only [some.injEq, reduceCtorEq] at h <;>
      obtain ⟨rfl, rfl⟩ := Prod.mk.inj h <;> 
        exact hstop (by simp [Unreleasing, *]) (by simp [*]) (by simp [*])
  case release =>
    split at h
    case h_3 => cases h
    case h_1 k waited hw =>
      simp only [some.injEq, takeForRelease] at h
      cases hactive : s.active with
      | none =>
        simp only [hactive, releaseError, answerClose_eq] at h
        cases h
        exact .broke (by simp [hw, closesOf]) fun _ => hactive
      | some a =>
        simp only [hactive] at h
        cases h
        exact .taken hw hactive
    case h_2 k waited place a hw => exact release_access hw h
  case read k room =>
    obtain ⟨hif, ⟨⟩⟩ := ite_some_none_eq_some.mp h
    exact .polled hif
  case write k payload | flush k =>
    obtain ⟨hif, ⟨⟩⟩ := ite_some_none_eq_some.mp h
    exact .sent hif.1 rfl (by simp)
  case shutdown k =>
    obtain ⟨⟨hhandle, hclosed, hpending, hroom⟩, ⟨⟩⟩ := ite_some_none_eq_some.mp h
    refine .shut hhandle (by simpa using hclosed) (by simpa using hpending) ?_
    simp only [hasRoom, ne_eq, decide_eq_true_eq] at hroom
    exact hroom.1
  case shutdownAnswered k =>
    split at h
    case isTrue => cases h
    case isFalse hhandle =>
    have hhandle : (s.stream k).handle = true := by simpa using hhandle
    split at h
    case h_1 => cases h
    case h_2 result hpending =>
      cases h
      exact .settled hhandle (.inl hpending)
    case h_3 hpending =>
      obtain ⟨hw, ⟨⟩⟩ := ite_some_none_eq_some.mp h
      exact .settled hhandle (.inr ⟨hw, hpending, _, rfl⟩)
  case dropHandle k =>
    obtain ⟨hhandle, h⟩ := ite_some_none_eq_some.mp h
    unfold dropStream at h
    dsimp only at h
    split_ifs at h with hover hroom hmatches <;> cases h
    · exact .forgot hhandle hover
    · simp only [not_or, Bool.not_eq_true] at hover
      simp only [hasRoom, ne_eq, decide_eq_true_eq] at hroom
      rw [withStream_withStream]
      exact .dropped hhandle hover.1 hover.2 hroom.1
    · simp only [not_or, Bool.not_eq_true] at hover
      rw [withStream_withStream]
      exact .abandoned hhandle hover.2 (by simp [hmatches])
    · simp only [not_or, Bool.not_eq_true] at hover
      rw [withStream_withStream]
      exact .abandoned hhandle hover.2 (by simp)
  case dropReceiver k =>
    obtain ⟨⟨hhandle, hqueued⟩, ⟨⟩⟩ := ite_some_none_eq_some.mp h
    exact .deafened (by simpa using hhandle) hqueued

end Inversion

end Session

end Vole.AnyTls
