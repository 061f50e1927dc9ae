import Vole.Quic.Model.Adapter

/-!
# What the QUIC datagram adapter does

The steps of the adapter, each with what it finds (`Turn`).
-/

namespace Vole.Quic

open Option Bool

namespace Driver

def isWaiting : Driver → Bool
  | .waiting _ => true
  | _ => false

def isNotified : Driver → Bool
  | .notified _ => true
  | _ => false

/-- The task is given a notification, if it waits for one. -/
def notify : Driver → Driver
  | .waiting canReceive => .notified canReceive
  | driver => driver

end Driver

/-- The datagram is one that `poll_recv` may see. -/
def Attachment.admits (attachment : Attachment) (datagram : Datagram) : Bool :=
  attachment.fromPeer datagram && attachment.fits datagram

namespace Adapter

variable {attachment : Attachment} {s t : Adapter} {e : Event}

theorem notifyOne_eq (s : Adapter) :
    s.notifyOne =
      { s with permit := s.permit || !s.driver.isWaiting, driver := s.driver.notify } := by
  obtain ⟨state, lock, permit, reader, writer, driver, _⟩ := s
  cases driver <;> simp [notifyOne, Driver.isWaiting, Driver.notify]

theorem leave_eq (s : Adapter) (driver : Driver) :
    s.leave driver = { s with permit := s.permit || s.driver.isNotified, driver } := by
  obtain ⟨state, lock, permit, reader, writer, place, _⟩ := s
  cases place <;> simp [leave, Driver.isNotified]

/-- A step of `Shared::finish`. -/
inductive Finishes (s : Adapter) : Finish → Adapter → Prop
  | closes {error : Option ErrorKind} :
    s.lock = none → Finishes s (.enter error) { s with state := s.state.finish error }
  | wakesReader : Finishes s .reader { s with reader := none }
  | wakesWriter : Finishes s .writer { s with writer := none }

section

variable (attachment s) (i : ℕ)

/-- A call of the endpoint goes on. -/
inductive Advances : Place → Adapter → Prop
  /-- The call returns, and nothing is changed. -/
  | returns {place result : Place} :
    (∃ transmit kind, place = .trySend transmit ∧ result = .sent (.error kind)) ∨
      (∃ buffers slots kind, place = .reading buffers slots ∧
        result = .received (some (.error kind))) →
    Advances place (s.withCall i result)
  /-- `try_send`. -/
  | pushed {transmit : Transmit} {stats : Stats} :
    s.lock = none → attachment.refuses transmit = false → s.state.closed = false →
    s.state.outgoing.length ≠ queueLimit → stats.droppedFull = s.state.stats.droppedFull →
    Advances (.trySend transmit)
      ({ s with
        state := { s.state with outgoing := s.state.outgoing ++ [transmit.contents], stats }
        accepted := s.accepted ++ [transmit.contents] }.withCall i .pushed)
  | sent :
    Advances .pushed
      ({ s with
        permit := s.permit || !s.driver.isWaiting
        driver := s.driver.notify }.withCall i (.sent (.ok ())))
  /-- `poll_recv`. -/
  | readerRegistered {buffers : List Bytes} {slots : ℕ} :
    Advances (.pollRecv buffers slots)
      ({ s with reader := some i }.withCall i (.reading buffers slots))
  | readPending {buffers : List Bytes} {slots : ℕ} :
    s.lock = none → s.state.closed = false → s.state.incoming = [] →
    Advances (.reading buffers slots) (s.withCall i (.received none))
  | popped {buffers : List Bytes} {slots : ℕ} {payload buffer : Bytes} {rest : List Bytes}
      {info : RecvMeta} :
    s.lock = none → s.state.closed = false → s.state.incoming = payload :: rest →
    buffer.take info.len = payload →
    Advances (.reading buffers slots)
      ({ s with
        state := { s.state with incoming := rest }
        lock := some i
        delivered := s.delivered ++ [payload] }.withCall i (.popped buffer info))
  | delivered {buffer : Bytes} {info : RecvMeta} :
    Advances (.popped buffer info)
      ({ s with
        permit := s.permit || !s.driver.isWaiting
        driver := s.driver.notify
        lock := none }.withCall i (.received (some (.ok (buffer, info)))))
  /-- `poll_writable`. -/
  | writerRegistered :
    Advances .pollWritable ({ s with writer := some i }.withCall i .writing)
  | writeReady {result : Except ErrorKind Unit} :
    Advances .writing (s.withCall i (.writable (some result)))
  | writePending :
    s.lock = none → s.state.closed = false → queueLimit ≤ s.state.outgoing.length →
    Advances .writing (s.withCall i (.writable none))

/-- **What a step does.** -/
inductive Turn : Event → Adapter → Prop
  /-- The loop of `drive`. -/
  | started : s.driver = .spawned → Turn .run { s with driver := .looping }
  | looped :
    s.driver = .looping → s.lock = none →
    Turn .run { s with driver := .selecting (s.state.incoming.length < queueLimit) }
  | spent {canReceive : Bool} :
    s.driver = .selecting canReceive → s.permit = true →
    Turn .run { s with permit := false, driver := .popping }
  | suspended {canReceive : Bool} :
    s.driver = .selecting canReceive → s.permit = false →
    Turn .run { s with driver := .waiting canReceive }
  | woken {canReceive : Bool} :
    s.driver = .notified canReceive → Turn .run { s with driver := .popping }
  /-- A datagram that was received. -/
  | rejected {datagram : Datagram} {stats : Stats} :
    s.driver = .received datagram → s.lock = none → attachment.admits datagram = false →
    stats.droppedFull = s.state.stats.droppedFull →
    Turn .run
      { s with
        state := { s.state with stats }
        driver := .popping
        received := s.received ++ [datagram] }
  | overflowed {datagram : Datagram} {stats : Stats} :
    s.driver = .received datagram → s.lock = none → s.state.incoming.length = queueLimit →
    Turn .run
      { s with
        state := { s.state with stats }
        driver := .popping
        received := s.received ++ [datagram] }
  | stored {datagram : Datagram} {stats : Stats} :
    s.driver = .received datagram → s.lock = none → attachment.admits datagram = true →
    s.state.incoming.length ≠ queueLimit → stats.droppedFull = s.state.stats.droppedFull →
    Turn .run
      { s with
        state := { s.state with incoming := s.state.incoming ++ [datagram.payload], stats }
        driver := .wakingReader
        received := s.received ++ [datagram]
        admitted := s.admitted ++ [datagram.payload] }
  | readerWoken :
    s.driver = .wakingReader →
    Turn .run { s with reader := none, driver := .popping }
  /-- A datagram that is sent. -/
  | emptied :
    s.driver = .popping → s.lock = none → s.state.outgoing = [] →
    Turn .run { s with driver := .looping }
  | popped {payload : Bytes} {rest : List Bytes} :
    s.driver = .popping → s.lock = none → s.state.outgoing = payload :: rest →
    Turn .run
      { s with
        state := { s.state with outgoing := rest }
        driver := .wakingWriter payload
        taken := s.taken ++ [payload] }
  | writerWoken {payload : Bytes} :
    s.driver = .wakingWriter payload →
    Turn .run { s with writer := none, driver := .sending payload }
  | counted {stats : Stats} {permit : Bool} :
    s.driver = .sent → s.lock = none → (s.state.outgoing ≠ [] → permit = true) →
    stats.droppedFull = s.state.stats.droppedFull →
    Turn .run
      { s with state := { s.state with stats }, permit, hasSent := true, driver := .looping }
  | finished {stage : Finish} {u : Adapter} :
    s.driver = .finishing stage → Finishes s stage u →
    Turn .run { u with driver := stage.next.elim .done .finishing }
  /-- The branches of the `select!`s. -/
  | received {datagram : Datagram} :
    s.driver.select = some true → s.hasSent = true →
    Turn (.receive (.ok datagram))
      { s with permit := s.permit || s.driver.isNotified, driver := .received datagram }
  | left {e : Event} {error : Option ErrorKind} :
    s.driver.select.isSome = true ∨ s.driver.isSending = true → (∀ i, e ≠ .goOn i) →
    Turn e { s with permit := s.permit || s.driver.isNotified, driver := .finishing (.enter error) }
  | sent {payload : Bytes} :
    s.driver = .sending payload → Turn (.sent (.ok ())) { s with driver := .sent }
  /-- The owner. -/
  | aborted :
    s.owner = .dropped → s.driver.isYielded = true →
    Turn .abort { s with permit := s.permit || s.driver.isNotified, driver := .done }
  | joined : s.owner = .held → Turn .join { s with cancelled := true }
  | dropped :
    s.owner = .held →
    Turn .drop { s with cancelled := true, owner := .finishing (.enter none) }
  | closed {stage : Finish} {u : Adapter} :
    s.owner = .finishing stage → Finishes s stage u →
    Turn .owner { u with owner := stage.next.elim .aborting .finishing }
  | aborting : s.owner = .aborting → Turn .owner { s with owner := .dropped }
  /-- The endpoint. -/
  | called {request : Request} :
    Turn (.call request) { s with calls := s.calls ++ [request.enter] }
  | advanced {i : ℕ} {place : Place} {t : Adapter} :
    s.calls[i]? = some place → Advances attachment s i place t → Turn (.goOn i) t

end

theorem locked_eq_some {next : Adapter} (h : s.locked next = some t) : s.lock = none ∧ next = t := by
  unfold locked at h
  split_ifs at h with hlock
  exact ⟨hlock, some.inj h⟩

theorem finishes_of_eq {stage : Finish} (h : s.finish stage = some t) : Finishes s stage t := by
  cases stage with
  | enter error =>
    obtain ⟨hlock, rfl⟩ := locked_eq_some h
    exact .closes hlock
  | reader =>
    cases h
    exact .wakesReader
  | writer =>
    cases h
    exact .wakesWriter

variable {state : State}

theorem pollRecv_none {peer : SocketAddr} {buffers : List Bytes} {slots : ℕ}
    (h : state.pollRecv peer buffers slots = none) :
    state.closed = false ∧ state.incoming = [] := by
  unfold State.pollRecv at h
  split_ifs at h with hclosed
  cases hincoming : state.incoming with
  | nil => exact ⟨eq_false_of_ne_true hclosed, rfl⟩
  | cons payload rest =>
    rw [hincoming] at h
    cases buffers with
    | nil => cases h
    | cons buffer others =>
      dsimp only at h
      split_ifs at h

theorem pollRecv_ok {peer : SocketAddr} {buffers : List Bytes} {slots : ℕ}
    {taken : State.Taken} (h : state.pollRecv peer buffers slots = some (.ok taken)) :
    state.closed = false ∧ taken.buffer.take taken.info.len = taken.payload ∧
      ∃ rest, state.incoming = taken.payload :: rest ∧
        taken.state = { state with incoming := rest } := by
  unfold State.pollRecv at h
  split_ifs at h with hclosed
  · cases h
  cases hincoming : state.incoming with
  | nil => rw [hincoming] at h; cases h
  | cons payload rest =>
    rw [hincoming] at h
    cases buffers with
    | nil => cases h
    | cons buffer others =>
      dsimp only at h
      split_ifs at h
      · cases h
      · cases some.inj h
        exact ⟨eq_false_of_ne_true hclosed, List.take_left, rest, rfl, rfl⟩

theorem pollWritable_none (h : state.pollWritable = none) :
    state.closed = false ∧ queueLimit ≤ state.outgoing.length := by
  unfold State.pollWritable at h
  split_ifs at h with hclosed hroom
  exact ⟨eq_false_of_ne_true hclosed, Nat.le_of_not_lt hroom⟩

/-- A call that goes on. -/
theorem advances_of_eq {i : ℕ} {place : Place} (h : s.advance attachment i place = some t) :
    Advances attachment s i place t := by
  cases place with
  | trySend transmit =>
    simp only [advance] at h
    split_ifs at h with hrefuses
    · cases h
      exact .returns (.inl ⟨_, _, rfl, rfl⟩)
    obtain ⟨hlock, rfl⟩ := locked_eq_some h
    cases hsend : s.state.trySend transmit.contents with
    | error kind => exact .returns (.inl ⟨_, _, rfl, rfl⟩)
    | ok next =>
      unfold State.trySend at hsend
      split_ifs at hsend with hclosed hroom
      cases hsend
      exact .pushed hlock (eq_false_of_ne_true hrefuses) (eq_false_of_ne_true hclosed) hroom rfl
  | pushed =>
    cases h
    rw [notifyOne_eq]
    exact .sent
  | pollRecv buffers slots =>
    cases h
    exact .readerRegistered
  | reading buffers slots =>
    obtain ⟨hlock, rfl⟩ := locked_eq_some h
    cases hpoll : s.state.pollRecv attachment.peer buffers slots with
    | none =>
      obtain ⟨hclosed, hempty⟩ := pollRecv_none hpoll
      exact .readPending hlock hclosed hempty
    | some answer =>
      cases answer with
      | error kind => exact .returns (.inr ⟨_, _, _, rfl, rfl⟩)
      | ok taken =>
        obtain ⟨hclosed, hbuffer, rest, hincoming, hstate⟩ := pollRecv_ok hpoll
        dsimp only
        rw [hstate]
        exact .popped hlock hclosed hincoming hbuffer
  | popped buffer info =>
    cases h
    rw [notifyOne_eq]
    exact .delivered
  | pollWritable =>
    cases h
    exact .writerRegistered
  | writing =>
    obtain ⟨hlock, rfl⟩ := locked_eq_some h
    cases hpoll : s.state.pollWritable with
    | none =>
      obtain ⟨hclosed, hfull⟩ := pollWritable_none hpoll
      exact .writePending hlock hclosed hfull
    | some result => exact .writeReady
  | _ => cases h

/-- The task looks at a datagram that it has received. -/
theorem store_turn {datagram : Datagram} (hdriver : s.driver = .received datagram)
    (hlock : s.lock = none) : Turn attachment s .run (s.store attachment datagram) := by
  unfold store State.receive
  split_ifs with hsource hsize hfull
  · refine .rejected hdriver hlock ?_ rfl
    simpa [Attachment.admits] using fun hpeer => absurd hpeer (by simpa using hsource)
  · refine .rejected hdriver hlock ?_ rfl
    simpa [Attachment.admits] using fun _ => by simpa using hsize
  · exact .overflowed hdriver hlock hfull
  · refine .stored hdriver hlock ?_ hfull rfl
    simp only [not_eq_true', not_eq_false] at hsource hsize
    rw [Attachment.admits, hsource, hsize]
    rfl

/-- The task goes on. -/
theorem run_turn (h : s.run attachment = some t) : Turn attachment s .run t := by
  unfold run at h
  split at h
  case h_1 hdriver =>
    cases h
    exact .started hdriver
  case h_2 hdriver =>
    obtain ⟨hlock, rfl⟩ := locked_eq_some h
    exact .looped hdriver hlock
  case h_3 hdriver =>
    split_ifs at h with hpermit
    · cases h
      exact .spent hdriver hpermit
    · cases h
      exact .suspended hdriver (eq_false_of_ne_true hpermit)
  case h_4 => cases h
  case h_5 hdriver =>
    cases h
    exact .woken hdriver
  case h_6 hdriver =>
    obtain ⟨hlock, rfl⟩ := locked_eq_some h
    exact store_turn hdriver hlock
  case h_7 hdriver =>
    cases h
    exact .readerWoken hdriver
  case h_8 hdriver =>
    obtain ⟨hlock, rfl⟩ := locked_eq_some h
    unfold pop
    split
    case h_1 hempty => exact .emptied hdriver hlock hempty
    case h_2 houtgoing => exact .popped hdriver hlock houtgoing
  case h_9 hdriver =>
    cases h
    exact .writerWoken hdriver
  case h_10 => cases h
  case h_11 hdriver =>
    obtain ⟨hlock, rfl⟩ := locked_eq_some h
    unfold count
    split_ifs with hempty
    · exact .counted hdriver hlock (fun hne => absurd hempty hne) rfl
    · exact .counted hdriver hlock (fun _ => rfl) rfl
  case h_12 hdriver =>
    obtain ⟨u, hfinish, rfl⟩ := map_eq_some_iff.mp h
    exact .finished hdriver (finishes_of_eq hfinish)
  case h_13 => cases h

/-- **Every step is one of these.** -/
theorem turn_of_step (h : s.step attachment e = some t) : Turn attachment s e t := by
  cases e <;> dsimp only [step] at h
  case run => exact run_turn h
  case receive answer =>
    split_ifs at h with hselect
    cases answer with
    | ok datagram =>
      cases h
      rw [leave_eq]
      exact .received hselect.1 hselect.2
    | error error =>
      cases h
      rw [leave_eq]
      exact .left (.inl (by rw [hselect.1]; rfl)) nofun
  case cancelled =>
    split_ifs at h with hselect
    cases h
    rw [leave_eq]
    exact .left hselect.2 nofun
  case sent answer =>
    split at h
    case h_1 hdriver =>
      cases h
      exact .sent hdriver
    case h_2 hdriver =>
      cases h
      have hpermit : s.permit = (s.permit || s.driver.isNotified) := by
        rw [hdriver]
        exact (Bool.or_false _).symm
      rw [hpermit]
      exact .left (.inr (by rw [hdriver]; rfl)) nofun
    case h_3 => cases h
  case abort =>
    split_ifs at h with hdropped
    cases h
    rw [leave_eq]
    exact .aborted hdropped.1 hdropped.2
  case join =>
    split_ifs at h with hheld
    cases h
    exact .joined hheld
  case drop =>
    split_ifs at h with hheld
    cases h
    exact .dropped hheld
  case owner =>
    split at h
    case h_1 howner =>
      obtain ⟨u, hfinish, rfl⟩ := map_eq_some_iff.mp h
      exact .closed howner (finishes_of_eq hfinish)
    case h_2 howner =>
      cases h
      exact .aborting howner
    case h_3 => cases h
  case call request =>
    cases h
    exact .called
  case goOn i =>
    obtain ⟨place, hi, hadvance⟩ := bind_eq_some_iff.mp h
    exact .advanced hi (advances_of_eq hadvance)

end Adapter

end Vole.Quic
