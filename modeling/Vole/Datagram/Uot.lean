import Vole.Datagram.Faithful
import Vole.Datagram.UotFrames

/-!
# A UoT association

The datagrams that were read are with the caller, in the queue or in the task's
hand, in their order (`Transport.flow`), whatever becomes of the calls. The task
drops a datagram that is too long to its end, so it stays in step with the stream.
-/

namespace Vole.Uot

open UdpStream Transport List Option Bool Nat

/-! ## Steps -/

/-- A send ends well with this event. -/
def Event.finishes : Event → Bool
  | .flush (.ready ()) => true
  | _ => false

/-- The stream ends or fails, or the caller wants no more. -/
def Event.ends : Event → Bool
  | .cancel | .close | .read (.failed _) | .read (.ready []) => true
  | _ => false

/-- The task has not given up. -/
def Reader.going : Reader → Bool
  | .reading _ _ | .delivering (.datagram _) => true
  | .delivering (.failed _) | .ended => false

/-- **An association without a fault.** -/
structure Healthy (s : Transport) : Prop where
  closed : s.closed = false
  live : s.cancelled = false
  reader : s.reader.going = true
  responses : ∀ event ∈ s.responses, ∃ datagram, event = .datagram datagram
  call : s.call ≠ some .join ∧ s.call ≠ some .shutdown

/-- **What a step can do.** -/
inductive Turn (s : Transport) : Event → Transport → Prop
  /-- the task does something -/
  | works {e : Event} {t : Transport} (hreader : s.stepReader e = some t) : Turn s e t
  /-- the stream is not ready, or there is nothing to close -/
  | rests {e : Event} : Turn s e s
  | cancels : Turn s .cancel { s with cancelled := true }
  /-- a call that is no send begins, goes on, fails or ends, or its future is dropped -/
  | moves {e : Event} {cancelled readerTask closed : Bool} {failures : List Failure}
    {call : Option Call} (hcall : s.call ≠ some .send) (hnext : call ≠ some .send)
    (hcancelled : s.cancelled = true → cancelled = true)
    (hgoes : Healthy s → e.ends = true ∨ closed = false ∧ cancelled = false ∧
      call ≠ some .join ∧ call ≠ some .shutdown) :
    Turn s e
      { s with
        cancelled := cancelled, readerTask := readerTask, closed := closed,
        failures := failures, call := call }
  | fetches {e : Event} {datagram : Datagram} {rest : List ReceiveEvent}
    (hcall : s.call = some .receive) (hresponses : s.responses = .datagram datagram :: rest) :
    Turn s e
      { s with
        responses := rest, call := none,
        returned := s.returned ++ [(datagram.remote, datagram.payload)] }
  | fails {e : Event} {error : IoError} {rest : List ReceiveEvent} {failures : List Failure}
    (hcall : s.call = some .receive) (hresponses : s.responses = .failed error :: rest) :
    Turn s e { s with responses := rest, closed := true, failures := failures, call := none }
  | sends {datagram : Datagram} {packet : Bytes} (hcall : s.call = none)
    (hlive : s.cancelled = false) (hpacket : s.encode datagram = .ok packet) :
    Turn s (.send datagram)
      { s with
        outbox := s.outbox.start packet
        sends := s.sends ++ [(datagram.remote, datagram.payload)]
        call := some .send }
  | writes {answer : Answer IoError ℕ} {count : ℕ} (hcall : s.call = some .send) :
    Turn s (.write answer) { s with outbox := s.outbox.took count }
  /-- a send fails, or its future is dropped -/
  | givesUp {e : Event} {cancelled : Bool} {failures : List Failure} (hcall : s.call = some .send)
    (hcancelled : cancelled = true) (hfinishes : e.finishes = false) :
    Turn s e { s with cancelled := cancelled, failures := failures, call := none }
  | sent (hcall : s.call = some .send) (hrest : s.outbox.rest = []) :
    Turn s (.flush (.ready ())) { s with firstWrite := false, call := none }

section

variable {s t : Transport} {e : Event}

theorem turn_startSend (hcall : s.call = none) (datagram : Datagram) :
    Turn s (.send datagram) (s.startSend datagram) := by
  have hother : s.call ≠ some .send := by simp [hcall]
  unfold startSend
  split_ifs with hclosed
  · exact .moves hother nofun id fun h => .inr ⟨h.closed, h.live, nofun, nofun⟩
  cases hpacket : s.encode datagram with
  | error error => exact .moves hother nofun id fun h => .inr ⟨h.closed, h.live, nofun, nofun⟩
  | ok packet =>
    have hlive : s.cancelled = false := by
      rw [not_eq_true, or_eq_false_iff] at hclosed
      exact hclosed.2
    exact .sends hcall hlive hpacket

theorem turn_startReceive (hcall : s.call = none) : Turn s .receive s.startReceive := by
  have hother : s.call ≠ some .send := by simp [hcall]
  unfold startReceive
  split_ifs <;> exact .moves hother nofun id fun h => .inr ⟨h.closed, h.live, nofun, nofun⟩

theorem turn_startClose (hcall : s.call = none) : Turn s .close s.startClose := by
  have hother : s.call ≠ some .send := by simp [hcall]
  unfold startClose
  split_ifs
  · exact .rests
  · exact .moves hother nofun (fun _ => rfl) fun _ => .inl rfl
  · exact .moves hother nofun (fun _ => rfl) fun _ => .inl rfl

theorem turn_recv (hcall : s.call = some .receive) (h : s.resumeReceive = some t) :
    Turn s .recv t := by
  have hother : s.call ≠ some .send := by simp [hcall]
  unfold resumeReceive at h
  split at h
  · next hresponses =>
    cases h
    exact .fetches hcall hresponses
  · next hresponses =>
    cases h
    exact .fails hcall hresponses
  · next hreader =>
    cases h
    exact .moves hother nofun id fun h => absurd h.reader (by rw [hreader]; exact nofun)
  · cases h

/-- A step of the caller's future. -/
theorem turn_call (h : s.stepCall e = some t) : Turn s e t := by
  unfold stepCall at h
  split at h
  next datagram hcall =>
    cases h
    exact turn_startSend hcall datagram
  next hcall =>
    cases h
    exact turn_startReceive hcall
  next hcall =>
    cases h
    exact turn_startClose hcall
  next answer hcall =>
    simp only [ite_none_left_eq_some, some.injEq] at h
    obtain ⟨-, rfl⟩ := h
    cases answer with
    | pending => exact .rests
    | failed _ => exact .givesUp hcall rfl rfl
    | ready count =>
      rw [resumeWrite]
      split_ifs with hzero
      · exact .givesUp hcall rfl rfl
      · exact .writes hcall
  next answer hcall =>
    obtain ⟨hrest, rfl⟩ := ite_some_none_eq_some.mp h
    cases answer with
    | pending => exact .rests
    | failed _ => exact .givesUp hcall rfl rfl
    | ready done => exact .sent hcall hrest
  next hcall =>
    obtain ⟨hcancelled, rfl⟩ := ite_some_none_eq_some.mp h
    exact .givesUp hcall hcancelled rfl
  next hcall => exact turn_recv hcall h
  next hcall =>
    split at h <;> cases h
    exact .moves (by simp [hcall]) nofun id fun h => absurd hcall h.call.1
  next answer hcall =>
    cases h
    cases answer with
    | pending => exact .rests
    | failed _ | ready done =>
      exact .moves (by simp [hcall]) nofun id fun h => absurd hcall h.call.2
  next call hcall =>
    cases h
    cases call with
    | send => exact .givesUp hcall rfl rfl
    | _ =>
      exact .moves (by simp [hcall]) nofun id fun h => .inr ⟨h.closed, h.live, nofun, nofun⟩
  next => cases h

/-- **The inversion of a step.** -/
theorem Turn.of_step (h : s.step e = some t) : Turn s e t := by
  cases e with
  | cancel =>
    cases h
    exact .cancels
  | read _ | deliver | stop => exact .works h
  | _ => exact turn_call h

end

/-! ## Receiving -/

/-- The datagrams of some events. -/
def packetsOf (events : List ReceiveEvent) : List Packet :=
  events.filterMap fun
    | .datagram datagram => some (datagram.remote, datagram.payload)
    | .failed _ => none

namespace Transport

/-- The datagrams that the caller has not fetched. -/
def queued (s : Transport) : List Packet :=
  packetsOf s.responses ++ (inHand s.reader ++ s.lost)

/-- **All datagrams that the task has decoded**, but for those that were too long. -/
def flow (s : Transport) : List Packet := s.returned ++ s.queued

end Transport

/-- **Where the task is** in what it has not decoded yet. -/
inductive Task (max : ℕ) (malformed : Bool) : Reader → Bytes → Prop
  | reading {stage : Stage} {seen held : Bytes} (hseen : Seen max stage seen)
    (hshort : held.length < stage.need) (hsound : malformed = false) :
    Task max malformed (.reading stage held) (seen ++ held)
  | delivering (datagram : Datagram) (hsound : malformed = false) :
    Task max malformed (.delivering (.datagram datagram)) []
  | failed {rest : Bytes} (error : IoError)
    (hhopeless : malformed = true → Hopeless format.Valid format.frame rest) :
    Task max malformed (.delivering (.failed error)) rest
  | ended {rest : Bytes} (hhopeless : malformed = true → Hopeless format.Valid format.frame rest) :
    Task max malformed .ended rest

/-- **What was read and what became of it.** -/
structure Receiver (max : ℕ) (s : Transport) : Prop where
  budget : s.max = max
  apart : ∃ rest, TakenApart format max s.consumed s.flow rest ∧ Task max s.malformed s.reader rest
  lost : s.reader ≠ .ended → s.lost = []

variable {max : ℕ} {s t : Transport} {e : Event}

theorem Task.start (max : ℕ) : Task max false (.reading .kind []) ([] ++ []) :=
  .reading .kind one_pos rfl

/-- A datagram that was refused can become none. -/
theorem Task.hopeless {malformed : Bool} {reader : Reader} {rest : Bytes}
    (h : Task max malformed reader rest) (hmalformed : malformed = true) :
    Hopeless format.Valid format.frame rest := by
  cases h with
  | reading _ _ hsound | delivering _ hsound => cases hsound.symm.trans hmalformed
  | failed _ hhopeless | ended hhopeless => exact hhopeless hmalformed

theorem flow_reader {reader : Reader} (h : inHand reader = inHand s.reader) :
    flow { s with reader := reader } = s.flow := by
  change s.returned ++ (packetsOf s.responses ++ (inHand reader ++ s.lost)) = _
  rw [h]
  rfl

/-- **The task has read an item.** -/
theorem Receiver.afterItem {stage : Stage} {seen item : Bytes} (hbudget : s.max = max)
    (hlost : s.lost = []) (hhand : inHand s.reader = []) (hsound : s.malformed = false)
    (hseen : Seen max stage seen) (hitem : item.length = stage.need)
    (hapart : TakenApart format max s.consumed s.flow (seen ++ item)) :
    Receiver max (s.afterItem (take max stage item)) := by
  -- a task without a datagram in its hand leaves the flow as it is
  have hkeeps : ∀ {reader : Reader}, inHand reader = [] →
      flow { s with reader := reader } = s.flow :=
    fun hnone => flow_reader (hnone.trans hhand.symm)
  cases htake : take max stage item with
  | error error =>
    refine ⟨hbudget, ⟨seen ++ item, ?_, .failed error fun _ => hseen.hopeless hitem htake⟩,
      fun _ => hlost⟩
    have hflow : flow { s with reader := .delivering (.failed error) } = s.flow :=
      hkeeps rfl
    exact hflow.symm ▸ hapart
  | ok next =>
    have hleads := hseen.take hitem htake
    cases next with
    | goes stage' =>
      have hflow : flow { s with reader := .reading stage' [] } = s.flow := hkeeps rfl
      have htask : Task max s.malformed (.reading stage' []) ((seen ++ item) ++ []) :=
        .reading hleads (Seen.need_pos hleads) hsound
      rw [append_nil] at htask
      exact ⟨hbudget, ⟨seen ++ item, hflow.symm ▸ hapart, htask⟩, fun _ => hlost⟩
    | gives datagram =>
      obtain ⟨hvalid, hframe, hfits⟩ := hleads
      have hnext := hapart.next hvalid (hframe.trans (append_nil _).symm)
      have hflow : flow { s with reader := .delivering (.datagram datagram) } =
          s.flow ++ [(datagram.remote, datagram.payload)] := by
        rw [flow, queued, flow, queued, hlost, hhand]
        simp only [inHand, append_nil, append_assoc]
      rw [if_pos hfits, ← hflow] at hnext
      exact ⟨hbudget, ⟨[], hnext, .delivering datagram hsound⟩, fun _ => hlost⟩
    | skips =>
      obtain ⟨packet, hvalid, hframe, hlong⟩ := hleads
      have hnext := hapart.next hvalid (hframe.trans (append_nil _).symm)
      have hflow : flow { s with reader := .reading .kind [] } = s.flow := hkeeps rfl
      rw [if_neg (not_le.mpr hlong), ← hflow] at hnext
      have htask : Task max s.malformed (.reading .kind []) [] := by
        rw [hsound]
        exact .start max
      exact ⟨hbudget, ⟨[], hnext, htask⟩, fun _ => hlost⟩

/-- The answer to a read of the task. -/
theorem Receiver.resumeRead (h : Receiver max s) {stage : Stage} {held : Bytes}
    (hreader : s.reader = .reading stage held) (answer : Answer IoError Bytes) :
    Receiver max (s.resumeRead stage held answer) := by
  have hlost : s.lost = [] := h.lost (by rw [hreader]; exact nofun)
  have hhand : inHand s.reader = [] := by
    rw [hreader]
    rfl
  have hstop : ∀ error, Receiver max { s with reader := .delivering (.failed error) } := by
    intro error
    obtain ⟨rest, hapart, htask⟩ := h.apart
    have hflow : flow { s with reader := .delivering (.failed error) } = s.flow :=
      flow_reader hhand.symm
    refine ⟨h.budget, ⟨rest, hflow.symm ▸ hapart, .failed error fun hmalformed => ?_⟩,
      fun _ => hlost⟩
    rw [hreader] at htask
    cases htask with
    | reading _ _ hsound => cases hsound.symm.trans hmalformed
  cases answer with
  | pending => exact h
  | failed error => exact hstop error
  | ready bytes =>
    rw [Uot.Transport.resumeRead]
    split_ifs with hnone
    · exact hstop stage.eof
    obtain ⟨rest, hapart, htask⟩ := h.apart
    rw [hreader] at htask
    have hcount := length_take_le (stage.need - held.length) bytes
    generalize bytes.take (stage.need - held.length) = got at hcount ⊢
    cases htask with
    | @reading _ seen _ hseen hshort hsound =>
      have hread := hapart.read got
      rw [append_assoc] at hread
      let read : Transport := { s with consumed := s.consumed ++ got }
      have hapart' : TakenApart format max read.consumed read.flow (seen ++ (held ++ got)) := hread
      change Receiver max (read.arrived stage (held ++ got))
      unfold arrived
      split_ifs with hmore
      · have hflow : flow { read with reader := .reading stage (held ++ got) } =
            read.flow := flow_reader hhand.symm
        exact ⟨h.budget, ⟨_, hflow.symm ▸ hapart', .reading hseen hmore hsound⟩, fun _ => hlost⟩
      have hitem : (held ++ got).length = stage.need := by
        rw [length_append] at hmore ⊢
        omega
      have hbudget : read.max = max := h.budget
      rw [hbudget]
      exact .afterItem hbudget hlost hhand hsound hseen hitem hapart'

theorem packetsOf_concat (events : List ReceiveEvent) (event : ReceiveEvent) :
    packetsOf (events ++ [event]) = packetsOf events ++ inHand (.delivering event) := by
  rw [packetsOf, filterMap_append]
  cases event <;> rfl

/-- The queue takes what the task has. -/
theorem Receiver.deliver (h : Receiver max s) {event : ReceiveEvent}
    (hreader : s.reader = .delivering event) : Receiver max (s.deliver event) := by
  have hlost : s.lost = [] := h.lost (by rw [hreader]; exact nofun)
  obtain ⟨rest, hapart, htask⟩ := h.apart
  have hflow : (s.deliver event).flow = s.flow := by
    rw [flow, queued, flow, queued, hreader]
    change s.returned ++ (packetsOf (s.responses ++ [event]) ++ (_ ++ s.lost)) = _
    rw [packetsOf_concat, hlost]
    cases event <;> simp only [Transport.deliver, inHand, append_nil]
  rw [hreader] at htask
  refine ⟨h.budget, ⟨rest, hflow.symm ▸ hapart, ?_⟩, fun _ => hlost⟩
  cases htask with
  | delivering datagram hsound =>
    change Task max s.malformed (.reading .kind []) []
    rw [hsound]
    exact .start max
  | failed error hhopeless => exact .ended hhopeless

/-- The task is stopped. -/
theorem Receiver.stop (h : Receiver max s) : Receiver max s.stop := by
  obtain ⟨rest, hapart, htask⟩ := h.apart
  have hflow : s.stop.flow = s.flow := by
    change s.returned ++ (packetsOf s.responses ++ ([] ++ (s.lost ++ inHand s.reader))) =
      s.returned ++ (packetsOf s.responses ++ (inHand s.reader ++ s.lost))
    cases hreader : s.reader with
    | ended => simp only [inHand, append_nil, nil_append]
    | reading _ _ | delivering _ =>
      have hlost : s.lost = [] := h.lost (by rw [hreader]; exact nofun)
      simp only [hlost, append_nil, nil_append]
  exact ⟨h.budget, ⟨rest, hflow.symm ▸ hapart, .ended htask.hopeless⟩, fun hother => absurd rfl hother⟩

/-- What the task can do. -/
inductive Works (s : Transport) : Event → Transport → Prop
  | read {stage : Stage} {held : Bytes} (answer : Answer IoError Bytes)
      (hreader : s.reader = .reading stage held) :
    Works s (.read answer) (s.resumeRead stage held answer)
  | deliver {event : ReceiveEvent} (hreader : s.reader = .delivering event) :
    Works s .deliver (s.deliver event)
  | stop (hcancelled : s.cancelled = true) : Works s .stop s.stop

theorem works_of_stepReader (h : s.stepReader e = some t) : Works s e t := by
  unfold stepReader at h
  split at h
  · split at h
    · cases h
      exact .read _ ‹_›
    all_goals cases h
  · split at h
    · obtain ⟨-, rfl⟩ := ite_some_none_eq_some.mp h
      exact .deliver ‹_›
    all_goals cases h
  · obtain ⟨hcancelled, rfl⟩ := ite_some_none_eq_some.mp h
    exact .stop hcancelled
  · cases h

/-- **What the task does to the receiver.** -/
theorem Receiver.works (h : Receiver max s) (hstep : s.stepReader e = some t) : Receiver max t := by
  cases works_of_stepReader hstep with
  | read answer hreader => exact h.resumeRead hreader answer
  | deliver hreader => exact h.deliver hreader
  | stop => exact h.stop

/-- **What a step does to the receiver.** -/
theorem Receiver.turn (h : Receiver max s) (hturn : Turn s e t) : Receiver max t := by
  cases hturn with
  | works hreader => exact h.works hreader
  | rests => exact h
  | cancels | moves | sends | writes | givesUp | sent => exact { h with }
  | @fetches _ datagram rest hcall hresponses =>
    obtain ⟨left, hapart, htask⟩ := h.apart
    refine { h with apart := ⟨left, ?_, htask⟩ }
    rw [flow, queued, hresponses] at hapart
    simpa only [flow, queued, packetsOf, filterMap_cons, append_assoc, cons_append,
      nil_append] using hapart
  | fails hcall hresponses =>
    obtain ⟨left, hapart, htask⟩ := h.apart
    rw [flow, queued, hresponses] at hapart
    exact { h with apart := ⟨left, hapart, htask⟩ }

/-! ## Sending -/

/-- What is written for these datagrams: the request comes with the first. -/
def packets : List Packet → List Bytes
  | [] => []
  | packet :: rest => (request [packet] ++ format.frame packet) :: rest.map format.frame

theorem packets_concat {sends : List Packet} (h : sends ≠ []) (packet : Packet) :
    packets (sends ++ [packet]) = packets sends ++ [format.frame packet] := by
  cases sends with
  | nil => exact absurd rfl h
  | cons first rest =>
    simp only [packets, cons_append, map_append, map_cons, map_nil]

theorem flatten_packets (sends : List Packet) :
    (packets sends).flatten = request sends ++ codeStream format.frame sends := by
  cases sends with
  | nil => rfl
  | cons first rest =>
    simp only [packets, flatten_cons, codeStream_cons, append_assoc]
    rfl

/-- **What is written are the datagrams**, the last one perhaps not to its end; then
the association is cancelled. -/
structure Sender (s : Transport) : Prop where
  outbox : s.outbox.Sound
  frames : s.outbox.frames = packets s.sends
  fits : ∀ packet ∈ s.sends, packet.2.length ≤ 65535
  clean : s.cancelled = false → s.call ≠ some .send →
    s.outbox.rest = [] ∧ (s.firstWrite = true ↔ s.sends = [])
  busy : s.call = some .send → s.sends ≠ []

/-- A send was given up, or the association is closed. -/
def GivenUp (s : Transport) : Prop := s.cancelled = true ∧ s.call ≠ some .send

/-- What the task leaves as it is. -/
structure SameCaller (s t : Transport) : Prop where
  outbox : t.outbox = s.outbox
  sends : t.sends = s.sends
  cancelled : t.cancelled = s.cancelled
  firstWrite : t.firstWrite = s.firstWrite
  call : t.call = s.call

theorem sameCaller_afterItem (s : Transport) (next : Except IoError Next) :
    SameCaller s (s.afterItem next) := by
  cases next with
  | error error => exact ⟨rfl, rfl, rfl, rfl, rfl⟩
  | ok next => cases next <;> exact ⟨rfl, rfl, rfl, rfl, rfl⟩

theorem consumed_arrived (s : Transport) (stage : Stage) (held : Bytes) :
    (s.arrived stage held).consumed = s.consumed := by
  unfold arrived
  split_ifs
  · rfl
  · rcases take s.max stage held with _ | _ | _ | _ <;> rfl

theorem sameCaller_read (stage : Stage) (held : Bytes) (answer : Answer IoError Bytes) :
    SameCaller s (s.resumeRead stage held answer) := by
  cases answer with
  | pending | failed error => exact ⟨rfl, rfl, rfl, rfl, rfl⟩
  | ready bytes =>
    rw [resumeRead]
    split_ifs
    · exact ⟨rfl, rfl, rfl, rfl, rfl⟩
    · rw [arrived]
      split_ifs
      · exact ⟨rfl, rfl, rfl, rfl, rfl⟩
      · exact { sameCaller_afterItem _ _ with }

theorem sameCaller_works (h : s.stepReader e = some t) : SameCaller s t := by
  cases works_of_stepReader h with
  | @read stage held answer _ => exact sameCaller_read stage held answer
  | deliver _ | stop => exact ⟨rfl, rfl, rfl, rfl, rfl⟩

theorem Sender.same (h : Sender s) (hsame : SameCaller s t) : Sender t := by
  refine ⟨?_, ?_, ?_, ?_, ?_⟩
  · rw [hsame.outbox]
    exact h.outbox
  · rw [hsame.outbox, hsame.sends]
    exact h.frames
  · rw [hsame.sends]
    exact h.fits
  · rw [hsame.cancelled, hsame.call, hsame.outbox, hsame.firstWrite, hsame.sends]
    exact h.clean
  · rw [hsame.call, hsame.sends]
    exact h.busy

/-- A send begins. -/
theorem Sender.sends (h : Sender s) {datagram : Datagram} {packet : Bytes} (hcall : s.call = none)
    (hlive : s.cancelled = false) (hpacket : s.encode datagram = .ok packet) :
    Sender { s with
      outbox := s.outbox.start packet
      sends := s.sends ++ [(datagram.remote, datagram.payload)]
      call := some .send } := by
  obtain ⟨hdone, hfirst⟩ := h.clean hlive (by rw [hcall]; exact nofun)
  have hwritten : s.outbox.frames ++ [packet] =
      packets (s.sends ++ [(datagram.remote, datagram.payload)]) ∧
      datagram.payload.length ≤ 65535 := by
    unfold encode at hpacket
    split_ifs at hpacket with hone
    · obtain ⟨hform, hshort⟩ := encodeFirstPacket_ok hpacket
      refine ⟨?_, hshort⟩
      rw [h.frames, hfirst.mp hone, hform]
      rfl
    · obtain ⟨hform, hshort⟩ := encodeDatagram_ok hpacket
      refine ⟨?_, hshort⟩
      rw [packets_concat fun hnone => hone (hfirst.mpr hnone), h.frames, hform]
  refine ⟨h.outbox.start hdone, hwritten.1, ?_, fun _ hother => absurd rfl hother, fun _ => ?_⟩
  · exact forall_mem_concat.mpr ⟨h.fits, hwritten.2⟩
  · exact append_ne_nil_of_right_ne_nil _ (cons_ne_nil _ _)

/-- **What a step does to the sender.** -/
theorem Sender.turn (h : Sender s) (hturn : Turn s e t) : Sender t := by
  cases hturn with
  | works hreader => exact h.same (sameCaller_works hreader)
  | rests => exact h
  | cancels => exact { h with clean := nofun }
  | moves hcall hnext hcancelled =>
    refine { h with
      clean := fun hlive _ => h.clean ?_ hcall, busy := fun hsend => absurd hsend hnext }
    cases hs : s.cancelled with
    | false => rfl
    | true => exact absurd ((hcancelled hs).symm.trans hlive) nofun
  | fetches hcall hresponses | fails hcall hresponses =>
    have hother : s.call ≠ some .send := by simp [hcall]
    exact { h with clean := fun hlive _ => h.clean hlive hother, busy := nofun }
  | sends hcall hlive hpacket => exact h.sends hcall hlive hpacket
  | writes hcall =>
    exact { h with outbox := h.outbox.took _, clean := fun _ hother => absurd hcall hother }
  | givesUp hcall hcancelled _ =>
    exact { h with
      clean := fun hlive _ => absurd (hcancelled.symm.trans hlive) nofun, busy := nofun }
  | sent hcall hrest =>
    refine { h with clean := fun _ _ => ⟨hrest, nofun, fun hnone => ?_⟩, busy := nofun }
    exact absurd hnone (h.busy hcall)

/-- **Nothing is written once a send was given up.** -/
theorem GivenUp.turn (h : GivenUp s) (hturn : Turn s e t) : GivenUp t ∧ t.outbox = s.outbox := by
  obtain ⟨hcancelled, hidle⟩ := h
  cases hturn with
  | works hreader =>
    have hsame := sameCaller_works hreader
    refine ⟨⟨hsame.cancelled.trans hcancelled, ?_⟩, hsame.outbox⟩
    rw [hsame.call]
    exact hidle
  | rests => exact ⟨⟨hcancelled, hidle⟩, rfl⟩
  | cancels => exact ⟨⟨rfl, hidle⟩, rfl⟩
  | moves _ hnext hkept _ => exact ⟨⟨hkept hcancelled, hnext⟩, rfl⟩
  | fetches | fails => exact ⟨⟨hcancelled, nofun⟩, rfl⟩
  | sends _ hlive _ => cases hcancelled.symm.trans hlive
  | writes hcall | givesUp hcall | sent hcall => exact absurd hcall hidle

/-! ## Runs -/

namespace Transport

/-- `receive` waits, and the task for the stream. -/
def waiting (s : Transport) : Bool :=
  match s.call, s.responses, s.reader with
  | some .receive, [], .reading _ _ => true
  | _, _, _ => false

def observe (s : Transport) : Observed where
  written := s.outbox.wire
  left := s.outbox.rest
  asked := s.sends
  sends := s.sends
  consumed := s.consumed
  returned := s.returned
  queued := s.queued
  ready := decide (s.call = none) && !(s.closed || s.cancelled)
  sending := decide (s.call = some .send)
  waiting := s.waiting
  rejected := s.malformed

end Transport

/-- **A UoT association**, as one over a stream. -/
def association : Association Transport Event where
  format := format
  transmit := fun _ => 65535
  receive := UInt16.toNat
  reaches := Eq
  request := request
  start := fun _ => .new
  step := Transport.step
  observe := Transport.observe
  finishes := Event.finishes
  read := fun bytes => .read (.ready bytes)
  ends := Event.ends

variable {budget budget' : UInt16} {history : List (Transport × Event)}

/-- **What a run keeps.** -/
theorem runs (h : association.Runs (association.start budget budget') history s) :
    Receiver budget'.toNat s ∧ Sender s := by
  refine h.invariant (I := fun s => Receiver budget'.toNat s ∧ Sender s) ⟨?_, ?_⟩ ?_
  · exact ⟨rfl, ⟨[], .start _ _, Task.start _⟩, fun _ => rfl⟩
  · exact ⟨.new, rfl, nofun, fun _ _ => ⟨rfl, fun _ => rfl, fun _ => rfl⟩, nofun⟩
  · intro t e u ⟨hreceiver, hsender⟩ hstep
    have hturn := Turn.of_step hstep
    exact ⟨hreceiver.turn hturn, hsender.turn hturn⟩

theorem GivenUp.run (h : GivenUp s) (hrun : association.Runs s history t) : t.outbox = s.outbox :=
  hrun.kept h fun _ _ _ hu hstep => hu.turn (Turn.of_step hstep)

/-- A send was given up if its call is gone and it has not ended well. -/
theorem givenUp_of_turn (hcall : s.call = some .send) (hturn : Turn s e t)
    (hgone : t.call ≠ some .send) (hfinishes : e.finishes = false) :
    GivenUp t ∧ t.outbox = s.outbox := by
  cases hturn with
  | works hreader => exact absurd ((sameCaller_works hreader).call.trans hcall) hgone
  | rests | cancels | writes => exact absurd hcall hgone
  | moves hother => exact absurd hcall hother
  | fetches hother | fails hother => cases hother.symm.trans hcall
  | sends hidle => cases hidle.symm.trans hcall
  | givesUp _ hcancelled => exact ⟨⟨hcancelled, nofun⟩, rfl⟩
  | sent => exact absurd hfinishes nofun

theorem going_arrived (h : s.malformed = true ∨ Healthy s) (stage : Stage) (held : Bytes) :
    (s.arrived stage held).malformed = true ∨ Healthy (s.arrived stage held) := by
  unfold arrived
  split_ifs
  · exact h.imp_right fun hgoes => { hgoes with reader := rfl }
  · rcases take s.max stage held with _ | _ | _ | _
    · exact .inl rfl
    all_goals exact h.imp_right fun hgoes => { hgoes with reader := rfl }

/-- **An association goes on until it is cut.** -/
theorem going_step (h : s.malformed = true ∨ Healthy s) (hreceiver : Receiver max s)
    (hstep : s.step e = some t) (huncut : ¬ association.Cuts (s, e)) :
    t.malformed = true ∨ Healthy t := by
  cases Turn.of_step hstep with
  | works hworks =>
    cases works_of_stepReader hworks with
    | @read stage held answer hreader =>
      cases answer with
      | pending => exact h
      | failed _ => exact absurd (.inl rfl) huncut
      | ready bytes =>
        rw [resumeRead]
        split_ifs with hnone
        · obtain ⟨_, -, htask⟩ := hreceiver.apart
          rw [hreader] at htask
          cases htask with
          | reading _ hshort _ =>
            rcases take_eq_nil_iff.mp hnone with hzero | rfl
            · omega
            · exact absurd (.inl rfl) huncut
        · have hread : s.malformed = true ∨ Healthy { s with
              consumed := s.consumed ++ bytes.take (stage.need - held.length) } :=
            h.imp_right fun hgoes => { hgoes with }
          exact going_arrived hread _ _
    | @deliver event hreader =>
      refine h.imp_right fun hgoes => ?_
      have hgoing := hgoes.reader
      rw [hreader] at hgoing
      cases event with
      | datagram datagram =>
        exact { hgoes with
          reader := rfl, responses := forall_mem_concat.mpr ⟨hgoes.responses, datagram, rfl⟩ }
      | failed _ => cases hgoing
    | stop hcancelled => exact h.imp_right fun hgoes => absurd hcancelled (by simp [hgoes.live])
  | rests => exact h
  | cancels => exact absurd (.inl rfl) huncut
  | moves _ _ _ hkept =>
    refine h.imp_right fun hgoes => ?_
    rcases hkept hgoes with hends | ⟨hclosed, hlive, hcall⟩
    · exact absurd (.inl hends) huncut
    · exact { hgoes with closed := hclosed, live := hlive, call := hcall }
  | fetches _ hresponses =>
    refine h.imp_right fun hgoes => { hgoes with
      responses := fun event hmem => hgoes.responses event ?_, call := ⟨nofun, nofun⟩ }
    rw [hresponses]
    exact mem_cons_of_mem _ hmem
  | fails _ hresponses =>
    refine h.imp_right fun hgoes => ?_
    obtain ⟨_, hother⟩ := hgoes.responses _ (by rw [hresponses]; exact mem_cons_self)
    cases hother
  | sends | sent => exact h.imp_right fun hgoes => { hgoes with call := ⟨nofun, nofun⟩ }
  | writes => exact h.imp_right fun hgoes => { hgoes with }
  | givesUp hcall _ hfinishes =>
    exact absurd (.inr ⟨decide_eq_true hcall, hfinishes, _, hstep, rfl⟩) huncut

/-- **It can come to wait**: the queue is fetched, and what the task has. -/
theorem exec_receive (h : Healthy s) (hcall : s.call = none) :
    ∃ events t, exec Transport.step s events = some t ∧ t.consumed = s.consumed ∧
      t.waiting = true := by
  obtain ⟨max, responses, reader, cancelled, readerTask, firstWrite, closed, call, outbox,
    consumed, returned, lost, sends, failures, malformed⟩ := s
  obtain ⟨rfl, rfl, hreader, hresponses, -⟩ := h
  obtain rfl : call = none := hcall
  induction responses generalizing returned with
  | nil =>
    match reader, hreader with
    | .reading stage held, _ => exact ⟨[.receive], _, rfl, rfl, rfl⟩
    | .delivering (.datagram datagram), _ =>
      exact ⟨[.deliver, .receive, .recv, .receive], _, rfl, rfl, rfl⟩
  | cons event rest ih =>
    obtain ⟨⟨datagram, rfl⟩, hrest⟩ := forall_mem_cons.mp hresponses
    obtain ⟨events, t, hexec, hdone⟩ := ih _ hreader hrest
    exact ⟨.receive :: .recv :: events, t, hexec, hdone⟩

theorem step_send (hcall : s.call = none) (hopen : (s.closed || s.cancelled) = false)
    {datagram : Datagram} {packet : Bytes} (hpacket : s.encode datagram = .ok packet) :
    s.step (.send datagram) =
      some { s with
        outbox := s.outbox.start packet
        sends := s.sends ++ [(datagram.remote, datagram.payload)]
        call := some .send } := by
  have hstep : s.step (.send datagram) = some (s.startSend datagram) := by
    change s.stepCall (.send datagram) = _
    unfold stepCall
    rw [hcall]
  rw [hstep, startSend, if_neg (by rw [hopen]; decide), hpacket]

theorem step_flush (hcall : s.call = some .send) (answer : Answer IoError Unit) :
    s.step (.flush answer) =
      if s.outbox.rest = [] then some (s.resumeFlush answer) else none := by
  change s.stepCall _ = _
  unfold stepCall
  rw [hcall]

/-- The stream takes the rest of a frame. -/
theorem exec_drain (hcall : s.call = some .send) (hrest : s.outbox.rest ≠ []) :
    exec Transport.step s [.write (.ready s.outbox.rest.length), .flush (.ready ())] =
      some (resumeFlush { s with outbox := s.outbox.took s.outbox.rest.length } (.ready ())) := by
  have hsome : s.outbox.rest.length ≠ 0 := mt length_eq_zero_iff.mp hrest
  have hwrite : s.step (.write (.ready s.outbox.rest.length)) =
      some { s with outbox := s.outbox.took s.outbox.rest.length } := by
    change s.stepCall _ = _
    unfold stepCall
    rw [hcall]
    refine (if_neg hrest).trans ?_
    rw [resumeWrite, min_self, if_neg hsome, hcall]
  refine (exec_cons hwrite).trans (exec_cons ?_)
  rw [step_flush (by exact hcall), if_pos s.outbox.rest_took_all]

theorem encode_valid {packet : Packet} (h : format.Valid packet) :
    ∃ bytes, s.encode ⟨packet.1, packet.2, none⟩ = .ok bytes ∧ bytes ≠ [] := by
  unfold encode
  split_ifs with hone
  · rw [encodeFirstPacket, encodeRequest, encodeAddress_sendable h.1, encodeDatagram_valid h]
    exact ⟨_, rfl, nofun⟩
  · exact ⟨_, encodeDatagram_valid h, format.frame_ne_nil _⟩

/-- A valid datagram is sent where the stream takes it. -/
theorem send_accepted (hready : s.observe.ready = true) {packet : Packet}
    (hvalid : format.Valid packet) :
    ∃ events t, exec Transport.step s events = some t ∧ t.sends = s.sends ++ [packet] ∧
      t.outbox.rest = [] ∧ t.observe.ready = true := by
  simp only [Transport.observe, and_eq_true, decide_eq_true_eq, not_eq_true'] at hready
  obtain ⟨hcall, hopen⟩ := hready
  obtain ⟨bytes, hbytes, hsome⟩ := encode_valid (s := s) hvalid
  refine ⟨[.send ⟨packet.1, packet.2, none⟩, .write (.ready bytes.length), .flush (.ready ())], _,
    (exec_cons (step_send hcall hopen hbytes)).trans (exec_drain rfl hsome), rfl,
    Outbox.rest_took_all _, ?_⟩
  change (true && !(s.closed || s.cancelled)) = true
  rw [hopen]
  rfl

/-- A receiver that waits has nothing in the queue, and no datagram before it. -/
theorem Receiver.waits (h : Receiver max s) (hwaiting : s.waiting = true) :
    s.queued = [] ∧ ∃ stage held, s.reader = .reading stage held := by
  unfold Transport.waiting at hwaiting
  split at hwaiting
  · next hcall hresponses hreader =>
    have hlost : s.lost = [] := h.lost (by rw [hreader]; exact nofun)
    refine ⟨?_, _, _, hreader⟩
    rw [queued, hresponses, hreader, hlost]
    rfl
  · cases hwaiting

/-- **A UoT association is faithful.** -/
theorem faithful : association.Faithful where
  received := fun hrun => by
    obtain ⟨hreceiver, -⟩ := runs hrun
    obtain ⟨rest, hapart, htask⟩ := hreceiver.apart
    refine ⟨rest, hapart, fun hwaiting => ?_, fun hrejected => ?_⟩
    · obtain ⟨hqueued, stage, held, hreader⟩ := hreceiver.waits hwaiting
      refine ⟨hqueued, ?_⟩
      rw [hreader] at htask
      cases htask with
      | reading hseen hshort _ => exact hseen.unfinished hshort
    · exact htask.hopeless hrejected
  takes := by
    intro _ _ _ s hrun hwaiting bytes hbytes
    obtain ⟨hreceiver, -⟩ := runs hrun
    obtain ⟨-, stage, held, hreader⟩ := hreceiver.waits hwaiting
    obtain ⟨_, -, htask⟩ := hreceiver.apart
    rw [hreader] at htask
    cases htask with
    | reading _ hshort _ =>
      have hgot : bytes.take (stage.need - held.length) ≠ [] := by
        have hroom : stage.need - held.length ≠ 0 := by omega
        simp [take_eq_nil_iff, hroom, hbytes]
      refine ⟨_, s.resumeRead stage held (.ready bytes), hgot, take_prefix _ _, ?_, ?_⟩
      · change s.stepReader (.read (.ready bytes)) = _
        rw [stepReader, hreader]
      · rw [resumeRead, if_neg hgot]
        exact consumed_arrived _ _ _
  settles := by
    intro _ _ _ s hrun hsending
    have hidle : s.call ≠ some .send := of_decide_eq_false hsending
    have hgoes := hrun.until_cut (I := fun s => s.malformed = true ∨ Healthy s)
      (.inr ⟨rfl, rfl, rfl, nofun, nofun, nofun⟩)
      fun hpast hu hstep huncut => going_step hu (runs hpast).1 hstep huncut
    rcases hgoes with (hmalformed | hhealthy) | hcut
    · exact .inr ⟨[], s, rfl, rfl, .inr hmalformed⟩
    · have hdropped : Healthy { s with call := none } := { hhealthy with call := ⟨nofun, nofun⟩ }
      obtain ⟨events, t, hexec, hconsumed, hwaits⟩ := exec_receive hdropped rfl
      cases hcall : s.call with
      | none =>
        rw [show s = { s with call := none } by rw [← hcall]]
        exact .inr ⟨events, t, hexec, hconsumed, .inl hwaits⟩
      | some call =>
        have hdrop : s.step .drop = some { s with call := none } := by
          change s.stepCall .drop = _
          unfold stepCall
          rw [hcall]
          cases call with
          | send => exact absurd hcall hidle
          | _ => rfl
        exact .inr ⟨.drop :: events, t, (exec_cons hdrop).trans hexec, hconsumed, .inl hwaits⟩
    · exact .inl hcut
  accepted := fun hrun hready packet peer hvalid hfits hpeer => by
    have hsame : packet.1 = peer := hpeer
    subst hsame
    exact send_accepted hready hvalid
  written := fun hrun => by
    obtain ⟨-, hsender⟩ := runs hrun
    have hall := hsender.outbox.all
    rw [hsender.frames, flatten_packets] at hall
    exact hall
  addressed := fun hrun => by
    exact forall₂_same.mpr fun _ _ => ⟨rfl, rfl⟩
  valid := fun hrun hasked packet hmem => by
    obtain ⟨-, hsender⟩ := runs hrun
    exact ⟨hasked packet hmem, zero_le _, hsender.fits packet hmem⟩
  finished := by
    intro _ _ _ s t e hrun hsending hstep hfinishes
    have hcall : s.call = some .send := of_decide_eq_true hsending
    match e, hfinishes with
    | .flush (.ready ()), _ =>
      obtain ⟨hrest, rfl⟩ := ite_some_none_eq_some.mp ((step_flush hcall _).symm.trans hstep)
      exact hrest
  stopped := fun hrun hsending hstep hgone hfinishes hlater => by
    obtain ⟨hgiven, hsame⟩ := givenUp_of_turn (of_decide_eq_true hsending) (Turn.of_step hstep)
      (of_decide_eq_false hgone) hfinishes
    exact congrArg Outbox.wire ((hgiven.run hlater).trans hsame)

end Vole.Uot
