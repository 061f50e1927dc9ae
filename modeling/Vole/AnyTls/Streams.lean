import Vole.AnyTls.Session

/-!
# The streams of an AnyTLS session

What a session keeps whatever the other tasks do. The numbers of its
streams are below the next one (`Below`). A stream reads what the frames
for it carried, in their order (`Faithful`). A stream asks to be closed
once (`Orderly`). `Moves` says what all of this means for who has the
session.
-/

namespace Vole.AnyTls

open List

namespace Session

variable {config : Config} {s t : Session} {e : SessionEvent} {calls : List Call}

/-! ## Numbers -/

/-- The stream that the reader loop has in hand. -/
def readerTarget : Reader → Option ℕ
  | .targeting k _ => some k
  | .pushing k _ => some k
  | .finishing k => some k
  | _ => none

/-- **Every stream that the session knows has a number below `n`.** -/
structure Below (n : ℕ) (s : Session) : Prop where
  active : ∀ a, s.active = some a → a.streamId < n
  reader : ∀ k, readerTarget s.reader = some k → k < n
  closes : ∀ k ∈ s.closes, k < n
  releasing : ∀ k waited place a, s.writer = .releasing k waited place a → k < n ∧ a.streamId < n
  pristine : ∀ k, n ≤ k → s.stream k = {}

namespace Below

variable {n k : ℕ}

section

variable (h : Below n s)

include h

theorem mono {m : ℕ} (hm : n ≤ m) : Below m s where
  active a ha := Nat.lt_of_lt_of_le (h.active a ha) hm
  reader k hk := Nat.lt_of_lt_of_le (h.reader k hk) hm
  closes k hk := Nat.lt_of_lt_of_le (h.closes k hk) hm
  releasing k waited place a ha := by
    have hlt := h.releasing k waited place a ha
    omega
  pristine k hk := h.pristine k (Nat.le_trans hm hk)

theorem of_handle (hk : (s.stream k).handle = true) : k < n := by
  by_contra hlt
  simp [h.pristine k (by omega)] at hk

theorem of_closeQueued (hk : (s.stream k).closeQueued = true) : k < n := by
  by_contra hlt
  simp [h.pristine k (by omega)] at hk

theorem withStream (hk : k < n) (f : Stream → Stream) : Below n (s.withStream k f) where
  active := h.active
  reader := h.reader
  closes := h.closes
  releasing := h.releasing
  pristine j hj := by
    rw [withStream_stream, if_neg (by omega)]
    exact h.pristine j hj

/-- The reader goes to a stream that the session knows. -/
theorem withReader {r : Reader} (hr : ∀ k, readerTarget r = some k → k < n) :
    Below n { s with reader := r } :=
  ⟨h.active, hr, h.closes, h.releasing, h.pristine⟩

/-- The writer goes on with what is queued. -/
theorem withWriter {w : Writer} {queue : List WriterCommand}
    (hcloses : ∀ k ∈ closesOf w ++ queue.filterMap closeOf, k < n)
    (hw : ∀ k waited place a, w = .releasing k waited place a → k < n ∧ a.streamId < n) :
    Below n { s with writer := w, queue } :=
  ⟨h.active, h.reader, hcloses, hw, h.pristine⟩

theorem enqueue {command : WriterCommand}
    (hcommand : ∀ k, closeOf command = some k → k < n) : Below n (s.enqueue command) := by
  refine ⟨h.active, h.reader, ?_, h.releasing, h.pristine⟩
  intro k hk
  rw [closes_enqueue, mem_append, Option.mem_toList] at hk
  exact hk.elim (h.closes k) (hcommand k)

/-- **An access brings no new number.** -/
theorem access (haccess : Access config s e t calls) : Below n t := by
  have hclose {w : Writer} (hw : closesOf w = []) :
      ∀ k ∈ closesOf w ++ s.queue.filterMap closeOf, k < n := by
    intro k hk
    rw [hw, nil_append] at hk
    exact h.closes k (mem_append_right _ hk)
  cases haccess with
  | turned _ _ hr hqueue _ _ =>
    refine ⟨h.active, ?_, ?_, h.releasing, h.pristine⟩
    · rcases hr with rfl | rfl | rfl <;> simp [readerTarget]
    · simpa only [Session.closes, hqueue] using h.closes
  | routed _ hactive _ hid | ended _ hactive _ hid =>
    have ha := hid ▸ h.active _ hactive
    exact (h.withReader (by simpa [readerTarget] using ha)).withStream ha _
  | accepted _ hactive _ | refused _ hactive _ =>
    have ha := h.active _ hactive
    refine Below.withStream ?_ ha _
    exact ⟨by simpa using ha, by simp [readerTarget], h.closes, h.releasing, h.pristine⟩
  | checked hreader =>
    exact h.withReader (by simpa [readerTarget] using h.reader _ (by rw [hreader]; rfl))
  | @chunk k rest hreader =>
    have hk : k < n := h.reader _ (by rw [hreader]; rfl)
    exact (h.withReader (by split_ifs <;> simp [readerTarget, hk])).withStream hk _
  | @finished k hreader =>
    have hk : k < n := h.reader _ (by rw [hreader]; rfl)
    exact (h.withReader (by simp [readerTarget])).withStream hk _
  | passed _ _ => exact h.withReader (by simp [readerTarget])
  | wrote hcloses _ hw _ _ _ _ =>
    exact ⟨h.active, h.reader, fun k hk => h.closes k (hcloses.subset hk),
      fun k waited place a ha => absurd ha (hw k waited place a), h.pristine⟩
  | @broke _ k _ _ hk _ =>
    have hlt : k < n := h.closes k (mem_append_left _ hk)
    exact (h.withWriter (by simp [closesOf]) (by simp)).withStream hlt _
  | misreleased hw =>
    obtain ⟨hk, ha⟩ := h.releasing _ _ _ _ hw
    exact ((h.withWriter (by simp [closesOf]) (by simp)).withStream ha _).withStream hk _
  | @taken k waited a hw hactive =>
    have hk : k < n := h.closes k (by simp [Session.closes, hw, closesOf])
    have ha := h.active _ hactive
    exact ⟨by simp, h.reader, hclose rfl, by rintro _ _ _ _ ⟨⟩; exact ⟨hk, ha⟩, h.pristine⟩
  | marked hw _ =>
    obtain ⟨hk, ha⟩ := h.releasing _ _ _ _ hw
    exact (h.withWriter (hclose rfl) (by rintro _ _ _ _ ⟨⟩; exact ⟨hk, ha⟩)).withStream hk _
  | unclosed hw _ =>
    have hlt := h.releasing _ _ _ _ hw
    exact h.withWriter (hclose rfl) (by rintro _ _ _ _ ⟨⟩; exact hlt)
  | freed hw _ =>
    have hlt := h.releasing _ _ _ _ hw
    exact ⟨h.active, h.reader, hclose rfl, by rintro _ _ _ _ ⟨⟩; exact hlt, h.pristine⟩
  | done hw =>
    obtain ⟨hk, ha⟩ := h.releasing _ _ _ _ hw
    exact ((h.withWriter (hclose rfl) (by simp)).withStream ha _).withStream hk _
  | polled hhandle | settled hhandle _ | forgot hhandle _ | abandoned hhandle _ _ =>
    exact h.withStream (h.of_handle hhandle) _
  | sent _ hcommand _ => exact h.enqueue (by simp [hcommand])
  | shut hhandle _ _ _ | dropped hhandle _ _ _ =>
    have hk := h.of_handle hhandle
    exact (h.enqueue (by simpa [closeOf] using hk)).withStream hk _
  | deafened _ hqueued => exact h.withStream (h.of_closeQueued hqueued) _

end

end Below

/-! ## Closing -/

/-- A stream that may still ask to be closed. -/
def closable (s : Session) (k : ℕ) : Bool := (s.stream k).handle && !(s.stream k).closeQueued

/-- **A stream asks to be closed once.** -/
structure Orderly (s : Session) : Prop where
  queued : ∀ k ∈ s.closes, (s.stream k).closeQueued = true
  /-- Who asked waits for an answer, unless there is nobody to give one. -/
  waits : ∀ k, (s.stream k).handle = true → (s.stream k).closeQueued = true →
    (s.stream k).closed = false → (s.stream k).pendingShutdown ≠ none ∨ s.writer = .stopped
  answered : ∀ k error, (s.stream k).pendingShutdown = some (some (.error error)) →
    s.writer = .stopped

namespace Orderly

/-- What the closing of a stream depends on. -/
def standing (stream : Stream) : Bool × Bool × Bool × Option (Option (Except IoError Unit)) :=
  (stream.handle, stream.closeQueued, stream.closed, stream.pendingShutdown)

/-- The loops go on, and no stream changes. -/
theorem quiet (h : Orderly s) (hcloses : ∀ k ∈ t.closes, k ∈ s.closes)
    (hwriter : s.writer = .stopped → t.writer = .stopped) (hstream : t.stream = s.stream) :
    Orderly t where
  queued k hk := hstream ▸ h.queued k (hcloses k hk)
  waits k hhandle hqueued hclosed := by
    rw [hstream] at hhandle hqueued hclosed ⊢
    exact (h.waits k hhandle hqueued hclosed).imp_right hwriter
  answered k error herror := hwriter (h.answered k error (hstream ▸ herror))

/-- The writer has stopped. -/
theorem halted (hwriter : t.writer = .stopped) (hcloses : t.closes = []) : Orderly t where
  queued := by simp [hcloses]
  waits _ _ _ _ := .inr hwriter
  answered _ _ _ := hwriter

variable {f : Stream → Stream}

/-- One stream changes. -/
theorem withStream (h : Orderly s) {k : ℕ}
    (hqueued : (s.stream k).closeQueued = true → (f (s.stream k)).closeQueued = true)
    (hwaits : (f (s.stream k)).handle = true → (f (s.stream k)).closeQueued = true →
      (f (s.stream k)).closed = false →
      (f (s.stream k)).pendingShutdown ≠ none ∨ s.writer = .stopped)
    (hanswered : ∀ error, (f (s.stream k)).pendingShutdown = some (some (.error error)) →
      s.writer = .stopped) : Orderly (s.withStream k f) := by
  constructor
  · intro j hj
    rw [withStream_stream]
    split_ifs with hk
    · exact hqueued (h.queued k (hk ▸ hj))
    · exact h.queued j hj
  · intro j
    rw [withStream_stream]
    split_ifs with hk
    · exact hwaits
    · exact h.waits j
  · intro j
    rw [withStream_stream]
    split_ifs with hk
    · exact hanswered
    · exact h.answered j

/-- One stream changes in what has nothing to do with its closing. -/
theorem touch (h : Orderly s) {k : ℕ}
    (hf : standing (f (s.stream k)) = standing (s.stream k)) : Orderly (s.withStream k f) := by
  simp only [standing, Prod.mk.injEq] at hf
  obtain ⟨hhandle, hqueued, hclosed, hpending⟩ := hf
  refine h.withStream (by rw [hqueued]; exact id) ?_ ?_
  · rw [hhandle, hqueued, hclosed, hpending]
    exact h.waits k
  · rw [hpending]
    exact h.answered k

theorem standing_answer (synAck : Bool) (result : Except IoError Unit) (stream : Stream) :
    standing (stream.answer synAck result) = standing stream := by
  cases synAck <;> rfl

theorem standing_lose (synAck : Bool) (stream : Stream) :
    standing (stream.lose synAck) = standing stream := by
  cases synAck <;> rfl

theorem standing_trySend (event : StreamEvent) (stream : Stream) :
    standing (stream.trySend config event) = standing stream := by
  unfold Stream.trySend
  split_ifs <;> rfl

theorem standing_pollRead (room : ℕ) (stream : Stream) :
    standing (stream.pollRead room) = standing stream := by
  unfold Stream.pollRead
  split_ifs
  · rfl
  · rfl
  · split <;> rfl

/-- A stream asks to be closed. -/
theorem ask (h : Orderly s) {k : ℕ} {finish waited : Bool}
    (hqueued : (f (s.stream k)).closeQueued = true)
    (hwaits : (f (s.stream k)).handle = false ∨ (f (s.stream k)).pendingShutdown = some none)
    (hanswered : ∀ error, (f (s.stream k)).pendingShutdown = some (some (.error error)) →
      s.writer = .stopped) :
    Orderly ((s.enqueue (.closeStream k finish waited)).withStream k f) := by
  have hstream (j : ℕ) : ((s.enqueue (.closeStream k finish waited)).withStream k f).stream j =
      if j = k then f (s.stream k) else s.stream j := withStream_stream _ _ _
  constructor
  · intro j hj
    replace hj : j ∈ (s.enqueue (.closeStream k finish waited)).closes := hj
    rw [closes_enqueue, mem_append] at hj
    rw [hstream]
    split_ifs with hk
    · exact hqueued
    · exact h.queued j (hj.resolve_right (by simpa [closeOf] using hk))
  · intro j
    rw [hstream]
    split_ifs with hk
    · intro hhandle _ _
      exact .inl (by simp_all)
    · exact h.waits j
  · intro j
    rw [hstream]
    split_ifs with hk
    · exact hanswered
    · exact h.answered j

/-- **An access keeps that.** -/
theorem access (h : Orderly s) (haccess : Access config s e t calls) : Orderly t := by
  -- the reader does not meet the writer
  have hread {r : Reader} {a : Option ActiveStream} :
      Orderly { s with active := a, reader := r } := h.quiet (by simp [closes]) id rfl
  cases haccess with
  | turned _ _ _ hqueue _ _ => exact h.quiet (by simp [closes, hqueue]) id rfl
  | routed _ _ _ _ | ended _ _ _ _ | chunk _ | finished _ => exact hread.touch rfl
  | accepted _ _ _ => exact hread.touch (standing_answer _ _ _)
  | refused _ _ _ => exact hread.touch ((standing_answer _ _ _).trans (standing_trySend _ _))
  | checked _ | passed _ _ => exact hread
  | wrote hcloses _ _ hw _ _ _ =>
    exact h.quiet (fun k hk => hcloses.subset hk) (fun hs => absurd hs hw) rfl
  | broke _ _ | misreleased _ => exact halted rfl (by simp [closes, closesOf])
  | taken hw _ => exact h.quiet (fun k hk => mem_append_right _ hk) (by simp [hw]) rfl
  | @marked k waited a hw _ =>
    have hquiet := h.quiet (t := { s with writer := .releasing k waited .marked a })
      (by simp [closes, closesOf, hw]) (by simp [hw]) rfl
    exact hquiet.touch rfl
  | unclosed hw _ | freed hw _ => exact h.quiet (by simp [closes, closesOf, hw]) (by simp [hw]) rfl
  | @done k waited _ a hw =>
    have hquiet := h.quiet (t := { s with writer := .waiting })
      (by simp [closes, closesOf, hw]) (by simp [hw]) rfl
    have hlost := hquiet.touch (k := a.streamId) (standing_lose a.synAck _)
    refine hlost.withStream ?_ ?_ ?_ <;> cases waited
    · exact id
    · exact id
    · exact hlost.waits k
    · intro hhandle hqueued hclosed
      refine (hlost.waits k hhandle hqueued hclosed).imp_left fun hpending => ?_
      simpa [Stream.settle] using hpending
    · exact hlost.answered k
    · intro error herror
      simp [Stream.settle] at herror
  | polled _ => exact h.touch (standing_pollRead _ _)
  | sent _ hcommand _ => exact h.quiet (by simp [closes_enqueue, hcommand]) id rfl
  | shut _ _ _ _ => exact h.ask rfl (.inr rfl) (by simp)
  | @settled k result _ hresult =>
    refine h.withStream id (fun _ _ hclosed => ?_) (by simp)
    cases result with
    | ok _ => simp [Except.isOk, Except.toBool] at hclosed
    | error error => exact .inr (hresult.elim (h.answered k error) And.left)
  | forgot _ _ => exact h.withStream id (by simp) fun error => h.answered _ error
  | dropped _ _ _ _ => exact h.ask rfl (.inl rfl) fun error => h.answered _ error
  | abandoned _ _ _ => exact h.withStream (fun _ => rfl) (by simp) fun error => h.answered _ error
  | deafened _ _ => exact h.touch rfl

end Orderly

/-! ## Data -/

/-- What an event carries. -/
def payloadOf : StreamEvent → Bytes
  | .data payload => payload
  | _ => []

/-- What a stream has to give to its reader. -/
def unread (stream : Stream) : Bytes := stream.current ++ stream.events.flatMap payloadOf

/-- The reader loop has a payload for a stream. -/
def Holds (s : Session) (k : ℕ) : Prop :=
  ∃ payload, s.reader = .targeting k payload ∨ s.reader = .pushing k payload

/-- Nothing that comes for a stream is lost now. -/
def Attends (s : Session) (k : ℕ) : Prop :=
  (∃ a, s.active = some a ∧ a.streamId = k ∧ s.reader ≠ .stopped) ∨ s.Holds k

/-- **A stream reads what the frames for it carried.** -/
structure Faithful (s : Session) : Prop where
  read : ∀ k, (s.stream k).read <+: (s.stream k).pushed
  kept : ∀ k, (s.stream k).readFinished = false →
    (s.stream k).read ++ unread (s.stream k) ++ s.inFlight k <+: (s.stream k).pushed
  whole : ∀ k, (s.stream k).readFinished = false → s.Attends k →
    (s.stream k).read ++ unread (s.stream k) ++ s.inFlight k = (s.stream k).pushed
  unreleased : ∀ a, s.active = some a → (s.stream a.streamId).localFinished = false
  vacant : placeOf s.writer ≠ none → s.active = none

namespace Faithful

/-- What the reading of a stream depends on. -/
def traffic (stream : Stream) : Bytes × Bytes × Bool × Bytes :=
  (stream.read, unread stream, stream.readFinished, stream.pushed)

/-- The active stream is still the same, or none. -/
def Remains (s t : Session) : Prop :=
  ∀ a, t.active = some a → ∃ b, s.active = some b ∧ b.streamId = a.streamId

theorem Remains.of_eq (h : t.active = s.active) : Remains s t := by
  intro a ha
  exact ⟨a, h ▸ ha, rfl⟩

theorem holds_of_inFlight {k : ℕ} (h : s.inFlight k ≠ []) : s.Holds k := by
  unfold inFlight at h
  split at h
  case h_1 j payload hreader =>
    obtain rfl : j = k := by by_contra hj; simp [hj] at h
    exact ⟨payload, .inl hreader⟩
  case h_2 j rest hreader =>
    obtain rfl : j = k := by by_contra hj; simp [hj] at h
    exact ⟨rest, .inr hreader⟩
  case h_3 => simp at h

/-- A change that has nothing to do with data. -/
def Untouched (f : Stream → Stream) : Prop :=
  ∀ stream, traffic (f stream) = traffic stream ∧ (f stream).localFinished = stream.localFinished

theorem untouched_answer (synAck : Bool) (result : Except IoError Unit) :
    Untouched (Stream.answer synAck result) := by
  intro stream
  cases synAck <;> exact ⟨rfl, rfl⟩

theorem untouched_lose (synAck : Bool) : Untouched (Stream.lose synAck) := by
  intro stream
  cases synAck <;> exact ⟨rfl, rfl⟩

theorem untouched_settle (waited : Bool) (result : Except IoError Unit) :
    Untouched (Stream.settle waited result) := by
  intro stream
  cases waited <;> exact ⟨rfl, rfl⟩

theorem untouched_trySend (config : Config) (failure : IoError) :
    Untouched fun stream => stream.trySend config (.failed failure) := by
  intro stream
  dsimp only [Stream.trySend]
  split_ifs
  · simp [traffic, unread, payloadOf]
  · exact ⟨rfl, rfl⟩

theorem untouched_broken (config : Config) (synAck : Bool) (error : IoError) :
    Untouched (Stream.broken config synAck error) := by
  intro stream
  have hanswer := untouched_answer synAck (.error ⟨error.kind, boundedMessage error.text⟩)
    (stream.fail error)
  have hsend := untouched_trySend config error
    ((stream.fail error).answer synAck (.error ⟨error.kind, boundedMessage error.text⟩))
  exact ⟨hsend.1.trans hanswer.1, hsend.2.trans hanswer.2⟩

/-- What a turn of `poll_read` does to what is read and what is left. -/
theorem pollRead_cases (stream : Stream) (room : ℕ) :
    (stream.pollRead room).pushed = stream.pushed ∧
    (stream.pollRead room).localFinished = stream.localFinished ∧
    ((stream.pollRead room).readFinished = true ∧ (stream.pollRead room).read = stream.read ∨
      stream.readFinished = false ∧
      (stream.pollRead room).read ++ unread (stream.pollRead room) =
        stream.read ++ unread stream) := by
  unfold Stream.pollRead
  split_ifs with hover hcurrent
  · exact ⟨rfl, rfl, .inl ⟨rfl, rfl⟩⟩
  · refine ⟨rfl, rfl, .inr ⟨by simp_all, ?_⟩⟩
    simp only [unread, append_assoc]
    rw [← append_assoc (stream.current.take room), take_append_drop]
  have hempty : stream.current = [] := by simpa using hcurrent
  split
  case h_1 => exact ⟨rfl, rfl, .inr ⟨by simp_all, rfl⟩⟩
  case h_2 payload rest hevents =>
    refine ⟨rfl, rfl, .inr ⟨by simp_all, ?_⟩⟩
    simp [unread, hempty, hevents, payloadOf]
  case h_3 => exact ⟨rfl, rfl, .inl ⟨rfl, rfl⟩⟩
  case h_4 failure rest hevents =>
    refine ⟨rfl, rfl, .inr ⟨by simp_all, ?_⟩⟩
    simp [unread, Stream.fail, hempty, hevents, payloadOf]

variable (h : Faithful s)

include h

/-- The reader keeps what it has. -/
theorem quiet (hflight : ∀ k, t.inFlight k = s.inFlight k)
    (hholds : ∀ k, t.Holds k → s.Holds k) (hreader : s.reader = .stopped → t.reader = .stopped)
    (hstream : t.stream = s.stream) (hremains : Remains s t)
    (hvacant : placeOf t.writer ≠ none → t.active = none) : Faithful t where
  read k := hstream ▸ h.read k
  kept k := by
    rw [hstream, hflight]
    exact h.kept k
  whole k hover hattends := by
    rw [hstream] at hover ⊢
    rw [hflight]
    refine h.whole k hover ?_
    rcases hattends with ⟨a, ha, rfl, ht⟩ | hk
    · obtain ⟨b, hb, hid⟩ := hremains a ha
      exact .inl ⟨b, hb, hid, fun hs => ht (hreader hs)⟩
    · exact .inr (hholds k hk)
  unreleased a ha := by
    obtain ⟨b, hb, hid⟩ := hremains a ha
    rw [hstream, ← hid]
    exact h.unreleased b hb
  vacant := hvacant

/-- The reader takes no part. -/
theorem aside (hreader : t.reader = s.reader) (hstream : t.stream = s.stream)
    (hremains : Remains s t) (hvacant : placeOf t.writer ≠ none → t.active = none) :
    Faithful t := by
  refine h.quiet (fun k => ?_) (fun k hk => ?_) (fun hs => hreader ▸ hs) hstream hremains hvacant
  · simp only [inFlight, hreader]
  · simpa only [Holds, hreader] using hk

/-- The reader goes on with nothing in hand. -/
theorem move (hs : s.Unburdened) (ht : ∀ k, ¬ t.Holds k)
    (hstream : t.stream = s.stream) (hremains : Remains s t) (hwriter : t.writer = s.writer)
    (hactive : s.active = none → t.active = none) : Faithful t := by
  refine h.quiet (fun k => ?_) (fun k hk => absurd hk (ht k)) (fun hstop => absurd hstop hs.1)
    hstream hremains fun hplace => hactive (h.vacant (hwriter ▸ hplace))
  rw [hs.2 k]
  by_contra hflight
  exact ht k (holds_of_inFlight hflight)

/-- The reader stops. -/
theorem stop (hreader : t.reader = .stopped) (hstream : t.stream = s.stream)
    (hremains : Remains s t) (hvacant : placeOf t.writer ≠ none → t.active = none) :
    Faithful t where
  read k := hstream ▸ h.read k
  kept k hover := by
    rw [hstream] at hover ⊢
    have hflight : t.inFlight k = [] := by simp [inFlight, hreader]
    rw [hflight, append_nil]
    exact (prefix_append _ _).trans (h.kept k hover)
  whole k _ hattends := by
    simp [Attends, Holds, hreader] at hattends
  unreleased a ha := by
    obtain ⟨b, hb, hid⟩ := hremains a ha
    rw [hstream, ← hid]
    exact h.unreleased b hb
  vacant := hvacant

/-- The reader and one stream change. -/
theorem deliver {k : ℕ} {x : Stream}
    (hstream : ∀ j, t.stream j = if j = k then x else s.stream j) (hactive : t.active = s.active)
    (hwriter : t.writer = s.writer) (hflight : ∀ j, j ≠ k → t.inFlight j = s.inFlight j)
    (hholds : ∀ j, j ≠ k → t.Holds j → s.Holds j)
    (hreader : s.reader = .stopped → t.reader = .stopped) (hread : x.read <+: x.pushed)
    (hkept : x.readFinished = false → x.read ++ unread x ++ t.inFlight k <+: x.pushed)
    (hwhole : x.readFinished = false → t.Attends k →
      x.read ++ unread x ++ t.inFlight k = x.pushed)
    (hlocal : ∀ a, s.active = some a → a.streamId = k → x.localFinished = false) :
    Faithful t := by
  constructor
  · intro j
    rw [hstream]
    split_ifs with hj
    · exact hread
    · exact h.read j
  · intro j
    rw [hstream]
    split_ifs with hj
    · exact hj ▸ hkept
    · rw [hflight j hj]
      exact h.kept j
  · intro j
    rw [hstream]
    split_ifs with hj
    · exact hj ▸ hwhole
    intro hover hattends
    rw [hflight j hj]
    refine h.whole j hover ?_
    rcases hattends with ⟨a, ha, hid, ht⟩ | hheld
    · exact .inl ⟨a, hactive ▸ ha, hid, fun hstop => ht (hreader hstop)⟩
    · exact .inr (hholds j hj hheld)
  · intro a ha
    rw [hactive] at ha
    rw [hstream]
    split_ifs with hj
    · exact hlocal a ha hj
    · exact h.unreleased a ha
  · rw [hwriter, hactive]
    exact h.vacant

/-- One stream changes, and keeps what it has and what it is to get. -/
theorem touch {k : ℕ} {f : Stream → Stream}
    (hf : traffic (f (s.stream k)) = traffic (s.stream k))
    (hlocal : ∀ a, s.active = some a → a.streamId = k → (f (s.stream k)).localFinished = false) :
    Faithful (s.withStream k f) := by
  simp only [traffic, Prod.mk.injEq] at hf
  obtain ⟨hread, hunread, hover, hpushed⟩ := hf
  refine h.deliver (withStream_stream _ · _) rfl rfl (fun _ _ => rfl) (fun _ _ => id) id ?_ ?_ ?_
    hlocal
  · rw [hread, hpushed]
    exact h.read k
  · rw [hread, hunread, hover, hpushed]
    exact h.kept k
  · rw [hread, hunread, hover, hpushed]
    exact h.whole k

theorem untouched {k : ℕ} {f : Stream → Stream} (hf : Untouched f) :
    Faithful (s.withStream k f) := by
  refine h.touch (hf _).1 fun a ha hk => ?_
  rw [(hf _).2, ← hk]
  exact h.unreleased a ha

/-- A turn of `poll_read` reads what is there. -/
theorem poll (k room : ℕ) : Faithful (s.withStream k (Stream.pollRead · room)) := by
  obtain ⟨hpushed, hlocal, hcases⟩ := pollRead_cases (s.stream k) room
  refine h.deliver (withStream_stream _ · _) rfl rfl (fun _ _ => rfl) (fun _ _ => id) id ?_ ?_ ?_
    fun a ha hk => hlocal.trans (hk ▸ h.unreleased a ha)
  · rw [hpushed]
    rcases hcases with ⟨_, hread⟩ | ⟨hover, hread⟩
    · rw [hread]
      exact h.read k
    · have hkept := h.kept k hover
      rw [← hread] at hkept
      exact ((prefix_append _ _).trans (prefix_append _ _)).trans hkept
  · intro hnew
    rw [hpushed]
    rcases hcases with ⟨hover, _⟩ | ⟨hover, hread⟩
    · simp [hover] at hnew
    · rw [hread]
      exact h.kept k hover
  · intro hnew hattends
    rw [hpushed]
    rcases hcases with ⟨hover, _⟩ | ⟨hover, hread⟩
    · simp [hover] at hnew
    · rw [hread]
      exact h.whole k hover hattends

/-- The reader routes a payload to the active stream. -/
theorem route {a : ActiveStream} {payload : Bytes} (hreading : s.reader = .reading)
    (hactive : s.active = some a) :
    Faithful (({ s with reader := .targeting a.streamId payload } : Session).withStream a.streamId
      fun stream => { stream with pushed := stream.pushed ++ payload }) := by
  have hwhole (hover : (s.stream a.streamId).readFinished = false) :
      (s.stream a.streamId).read ++ unread (s.stream a.streamId) = (s.stream a.streamId).pushed := by
    have hwhole := h.whole a.streamId hover (.inl ⟨a, hactive, rfl, by simp [hreading]⟩)
    simpa [inFlight, hreading] using hwhole
  have hall (hover : (s.stream a.streamId).readFinished = false) :
      (s.stream a.streamId).read ++ unread (s.stream a.streamId) ++ payload =
        (s.stream a.streamId).pushed ++ payload := by rw [hwhole hover]
  refine h.deliver (withStream_stream _ · _) rfl rfl ?_ ?_ (by simp [hreading]) ?_
    (fun hover => ?_) (fun hover _ => ?_) fun a ha hk => hk ▸ h.unreleased a ha
  · intro j hj
    simp [inFlight, hreading, Ne.symm hj]
  · rintro j hj ⟨p, hp⟩
    simp [Ne.symm hj] at hp
  · exact (h.read a.streamId).trans (prefix_append _ _)
  · have hkept : (s.stream a.streamId).read ++ unread (s.stream a.streamId) ++ payload <+:
        (s.stream a.streamId).pushed ++ payload := hall hover ▸ prefix_rfl
    simpa [inFlight, unread] using hkept
  · simpa [inFlight, unread] using hall hover

/-- The reader sends a part of a payload. -/
theorem push {k : ℕ} {rest : Bytes} (n : ℕ) (hreader : s.reader = .pushing k rest) :
    Faithful (({ s with
      reader := if rest.drop n = [] then .reading else .pushing k (rest.drop n) } :
        Session).withStream k fun stream =>
      { stream with events := stream.events ++ [.data (rest.take n)] }) := by
  have hflight (j : ℕ) : ({ s with
      reader := if rest.drop n = [] then .reading else .pushing k (rest.drop n) } :
        Session).inFlight j = if k = j then rest.drop n else [] := by
    split_ifs with hrest hj <;> simp_all [inFlight]
  have hsum : (s.stream k).read ++ (unread (s.stream k) ++ rest.take n) ++ rest.drop n =
      (s.stream k).read ++ unread (s.stream k) ++ rest := by
    simp [append_assoc]
  have hunread : unread { s.stream k with
      events := (s.stream k).events ++ [.data (rest.take n)] } =
      unread (s.stream k) ++ rest.take n := by
    simp [unread, payloadOf]
  have hs : s.inFlight k = rest := by simp [inFlight, hreader]
  have hrest := (hflight k).trans (if_pos rfl)
  refine h.deliver (withStream_stream _ · _) rfl rfl ?_ ?_ (by simp [hreader]) (h.read k)
    (fun hover => ?_) (fun hover _ => ?_) fun a ha hk => hk ▸ h.unreleased a ha
  · intro j hj
    refine (hflight j).trans ?_
    rw [if_neg (Ne.symm hj)]
    simp [inFlight, hreader, Ne.symm hj]
  · rintro j hj ⟨p, hp⟩
    split_ifs at hp <;> simp_all
  · have hkept := h.kept k hover
    rw [hs, ← hsum, ← hrest, ← hunread] at hkept
    exact hkept
  · have hwhole := h.whole k hover (.inr ⟨rest, .inr hreader⟩)
    rw [hs, ← hsum, ← hrest, ← hunread] at hwhole
    exact hwhole

/-- The reader lets go of what is for a stream that was released. -/
theorem pass {k : ℕ} {rest : Bytes} (hreader : s.reader = .pushing k rest)
    (hlocal : (s.stream k).localFinished = true) : Faithful { s with reader := .reading } := by
  have hstream (j : ℕ) : s.stream j = if j = k then s.stream k else s.stream j := by
    split_ifs with hj <;> simp [hj]
  refine h.deliver hstream rfl rfl ?_ (by simp [Holds]) (by simp [hreader]) (h.read k)
    (fun hover => ?_) (fun _ hattends => ?_) fun a ha hk => hk ▸ h.unreleased a ha
  · intro j hj
    simp [inFlight, hreader, Ne.symm hj]
  · simp only [inFlight, append_nil]
    exact (prefix_append _ _).trans (h.kept k hover)
  · rcases hattends with ⟨a, ha, rfl, _⟩ | ⟨p, hp⟩
    · exact absurd (h.unreleased a ha) (by simp [hlocal])
    · simp at hp

/-- **An access keeps that.** -/
theorem access (haccess : Access config s e t calls) : Faithful t := by
  have hsame : Remains s s := .of_eq rfl
  have hqueue (command : WriterCommand) : Faithful (s.enqueue command) :=
    h.aside rfl rfl hsame h.vacant
  cases haccess with
  | @turned _ r _ _ _ _ hturn hr _ _ _ =>
    rcases hturn with hturn | rfl
    · refine h.move hturn ?_ rfl hsame rfl id
      rcases hr with rfl | rfl | rfl <;> simp [Holds]
    · exact h.stop rfl rfl hsame h.vacant
  | routed hreading hactive _ hid => exact hid ▸ h.route hreading hactive
  | @ended frame _ hreading _ _ _ =>
    have hmove := h.move (t := { s with reader := .finishing frame.streamId })
      (unburdened_of_reading hreading) (by simp [Holds]) rfl hsame rfl id
    exact hmove.untouched fun _ => ⟨rfl, rfl⟩
  | @accepted _ a hreading hactive _ =>
    have hremains : Remains s { s with active := some { a with synAck := false } } := by
      rintro b ⟨⟩
      exact ⟨a, hactive, rfl⟩
    have hmove := h.move
      (t := { s with active := some { a with synAck := false }, reader := .reading })
      (unburdened_of_reading hreading) (by simp [Holds]) rfl hremains rfl (by simp [hactive])
    exact hmove.untouched (untouched_answer _ _)
  | @refused _ a hreading hactive _ =>
    have hremains : Remains s { s with active := some { a with synAck := false } } := by
      rintro b ⟨⟩
      exact ⟨a, hactive, rfl⟩
    have hvacant : placeOf s.writer = none := by
      by_contra hplace
      simp [h.vacant hplace] at hactive
    have hstop := h.stop
      (t := { s with active := some { a with synAck := false }, reader := .stopped })
      rfl rfl hremains (fun hplace => absurd hvacant hplace)
    refine hstop.untouched fun stream => ?_
    have hfail := untouched_trySend config rejection (stream.fail rejection)
    have hanswer := untouched_answer a.synAck (.error rejection)
      ((stream.fail rejection).trySend config (.failed rejection))
    exact ⟨hanswer.1.trans hfail.1, hanswer.2.trans hfail.2⟩
  | @checked k payload hreader =>
    refine h.quiet ?_ ?_ (by simp [hreader]) rfl hsame h.vacant
    · simp [inFlight, hreader]
    · rintro j ⟨p, hp⟩
      simp only [reduceCtorEq, Reader.pushing.injEq, false_or] at hp
      exact ⟨payload, .inl (hp.1 ▸ hreader)⟩
  | chunk hreader => exact h.push _ hreader
  | @finished k hreader =>
    have hs : s.Unburdened := by simp [Unburdened, inFlight, hreader]
    have hmove := h.move (t := { s with reader := .reading }) hs (by simp [Holds]) rfl hsame rfl id
    exact hmove.untouched fun stream => ⟨by simp [traffic, unread, payloadOf], rfl⟩
  | passed hreader hlocal => exact h.pass hreader hlocal
  | @wrote _ w _ _ _ _ _ hw _ _ _ _ =>
    refine h.aside rfl rfl hsame fun hplace => absurd ?_ hplace
    cases w with
    | releasing k waited place a => exact absurd rfl (hw k waited place a)
    | _ => rfl
  | broke _ _ =>
    have haside := h.aside (t := { s with writer := .stopped, queue := [] }) rfl rfl hsame
      (by simp [placeOf])
    exact haside.untouched (untouched_settle _ _)
  | misreleased _ =>
    have haside := h.aside (t := { s with writer := .stopped, queue := [] }) rfl rfl hsame
      (by simp [placeOf])
    exact (haside.untouched (untouched_lose _)).untouched (untouched_settle _ _)
  | taken _ _ => exact h.aside rfl rfl (by simp [Remains]) fun _ => rfl
  | @marked k waited a hw _ =>
    have hactive : s.active = none := h.vacant (by simp [hw, placeOf])
    have haside := h.aside (t := { s with writer := .releasing k waited .marked a }) rfl rfl hsame
      fun _ => hactive
    exact haside.touch rfl (by simp [hactive])
  | unclosed hw _ | freed hw _ =>
    exact h.aside rfl rfl hsame fun _ => h.vacant (by simp [hw, placeOf])
  | done _ =>
    have haside := h.aside (t := { s with writer := .waiting }) rfl rfl hsame (by simp [placeOf])
    exact (haside.untouched (untouched_lose _)).untouched (untouched_settle _ _)
  | polled _ => exact h.poll _ _
  | sent _ _ _ => exact hqueue _
  | shut _ _ _ _ | dropped _ _ _ _ =>
    exact (hqueue _).untouched fun _ => ⟨rfl, rfl⟩
  | _ => exact h.untouched fun _ => ⟨rfl, rfl⟩

end Faithful

end Session

end Vole.AnyTls
