import Vole.Quic.Queues

/-!
# No wakeup of the QUIC datagram adapter is lost

While a datagram waits to be sent, the task is on its way to the queue or has
been notified, or the call that queued it is about to notify it. While the
task waits without its receive branch, the queue is full, or the call that
made room is about to notify it (`Attended`). What was taken from a queue is
handed over before anything else is taken (`Handed`).

The task does not receive before it has sent once, nor while it sends:
`suspended_without_receive` is a run that waits so, and `adapter_sound` says
what holds in every run.
-/

namespace Vole.Quic

open List Bool Option

namespace Driver

/-- The task looks at the outgoing queue before it waits again. -/
def attends : Driver → Bool
  | .notified _ => true
  | .received _ => true
  | .wakingReader => true
  | .popping => true
  | .wakingWriter _ => true
  | .sending _ => true
  | .sent => true
  | .finishing (.enter _) => true
  | _ => false

/-- The task has seen no room in the incoming queue, and waits or is about
to. -/
def sawFull : Driver → Bool
  | .selecting canReceive => !canReceive
  | .waiting canReceive => !canReceive
  | _ => false

/-- The task has closed the adapter. -/
def hasClosed : Driver → Bool
  | .finishing .reader => true
  | .finishing .writer => true
  | _ => false

/-- The datagram that the task has taken and not yet sent. -/
def holds : Driver → Option Bytes
  | .wakingWriter payload => some payload
  | _ => none

end Driver

namespace Owner

/-- The owner has closed the adapter. -/
def hasClosed : Owner → Bool
  | .finishing (.enter _) => false
  | .held => false
  | _ => true

end Owner

/-- The call has still to notify the task. -/
def Place.notifies : Place → Bool
  | .pushed => true
  | .popped _ _ => true
  | _ => false

/-- The datagram that `poll_recv` has taken and not yet returned, as much of the
buffer as it will say. -/
def Place.holds : Place → Option Bytes
  | .popped buffer info => some (buffer.take info.len)
  | _ => none

/-- The datagram that it has returned. -/
def Place.returns : Place → Option Bytes
  | .received (some (.ok (buffer, info))) => some (buffer.take info.len)
  | _ => none

namespace Adapter

variable {attachment : Attachment} {s t : Adapter} {e : Event}
  {history : List (Adapter × Event)}

/-- A notification is stored, or a call is about to give one. -/
def pending (s : Adapter) : Bool := s.permit || s.calls.any Place.notifies

/-- The task waits for a datagram of the transport. -/
def receives (s : Adapter) : Bool := s.driver.select == some true && s.hasSent

/-! ## The task -/

/-- **The task attends to the queues.** -/
structure Attended (s : Adapter) : Prop where
  idle : s.driver.isWaiting = true → s.permit = false
  task : s.driver.hasClosed = true → s.state.closed = true
  owner : s.owner.hasClosed = true → s.state.closed = true
  held : ∀ i, s.lock = some i → ∃ buffer info, s.calls[i]? = some (.popped buffer info)
  outgoing : s.state.outgoing ≠ [] →
    s.permit = true ∨ s.driver.attends = true ∨ ∃ i : ℕ, s.calls[i]? = some .pushed
  incoming : s.driver.sawFull = true →
    s.state.closed = true ∨ queueLimit ≤ s.state.incoming.length ∨ s.permit = true ∨
      s.lock.isSome = true

namespace Attended

theorem init : Attended attached where
  idle h := by cases h
  task h := by cases h
  owner h := by cases h
  held _ h := by cases h
  outgoing h := absurd rfl h
  incoming h := by cases h

/-- A call of the adapter that was about to notify still is, after another
went on. -/
theorem pushed_of_set {i : ℕ} {old new : Place} (hi : s.calls[i]? = some old)
    (hold : old ≠ .pushed) (h : ∃ j : ℕ, s.calls[j]? = some .pushed) :
    ∃ j : ℕ, (s.calls.set i new)[j]? = some .pushed := by
  obtain ⟨j, hj⟩ := h
  refine ⟨j, ?_⟩
  have hne : i ≠ j := by
    rintro rfl
    exact hold (some.inj (hi.symm.trans hj))
  rw [getElem?_set_ne hne]
  exact hj

/-- A call goes on that has not to notify. -/
theorem call (h : Attended s) {i : ℕ} {old : Place} (new : Place) (hi : s.calls[i]? = some old)
    (hold : old.notifies = false) : Attended (s.withCall i new) := by
  refine { h with held := fun j hj => ?_, outgoing := fun hne => ?_ }
  · obtain ⟨buffer, info, hplace⟩ := h.held j hj
    have hne : i ≠ j := by
      rintro rfl
      cases hi.symm.trans hplace
      cases hold
    exact ⟨buffer, info, (getElem?_set_ne hne).trans hplace⟩
  · have hne' : old ≠ .pushed := by
      rintro rfl
      cases hold
    exact (h.outgoing hne).imp_right (Or.imp_right (pushed_of_set hi hne'))

/-- The task is notified, or finds the permit. -/
theorem attends_notify (driver : Driver) :
    (driver.isWaiting = false) ∨ driver.notify.attends = true := by
  cases driver <;> first | exact .inl rfl | exact .inr rfl

theorem notify_fields (driver : Driver) :
    driver.notify.isWaiting = false ∧ driver.notify.hasClosed = driver.hasClosed ∧
      (driver.notify.sawFull = true → driver.isWaiting = false) := by
  cases driver <;> exact ⟨rfl, rfl, by first | exact fun _ => rfl | nofun⟩

/-- **A call notifies the task.** -/
theorem notify (h : Attended s) {i : ℕ} {new : Place} {lock : Option ℕ}
    (hlock : ∀ j, lock = some j → s.lock = some j ∧ j ≠ i) :
    Attended (({ s with
      permit := s.permit || !s.driver.isWaiting
      driver := s.driver.notify
      lock } : Adapter).withCall i new) := by
  obtain ⟨hwaiting, hclosed, hfull⟩ := notify_fields s.driver
  refine ⟨fun hidle => ?_, fun htask => h.task (hclosed ▸ htask), h.owner, fun j hj => ?_,
    fun _ => ?_, fun hsaw => ?_⟩
  · exact absurd (hwaiting.symm.trans hidle) false_ne_true
  · obtain ⟨hheld, hne⟩ := hlock j hj
    obtain ⟨buffer, info, hplace⟩ := h.held j hheld
    exact ⟨buffer, info, (getElem?_set_ne (Ne.symm hne)).trans hplace⟩
  · rcases attends_notify s.driver with hpermit | hattends
    · left
      rw [hpermit]
      exact or_true _
    · exact .inr (.inl hattends)
  · have hpermit : (s.permit || !s.driver.isWaiting) = true := by
      rw [hfull hsaw]
      exact or_true _
    exact .inr (.inr (.inl hpermit))

theorem advances (h : Attended s) {i : ℕ} {place : Place} (hi : s.calls[i]? = some place)
    (hadvances : Advances attachment s i place t) : Attended t := by
  have hlt := (List.getElem?_eq_some_iff.mp hi).1
  cases hadvances with
  | returns hplace =>
    refine h.call _ hi ?_
    rcases hplace with ⟨_, _, rfl, _⟩ | ⟨_, _, _, rfl, _⟩ <;> rfl
  | @pushed transmit stats hlock hrefuses hclosed hroom hstats =>
    have hcall := h.call .pushed hi rfl
    exact { hcall with outgoing := fun _ => .inr (.inr ⟨i, getElem?_set_self hlt⟩) }
  | sent =>
    refine h.notify fun j hj => ⟨hj, ?_⟩
    rintro rfl
    obtain ⟨buffer, info, hplace⟩ := h.held j hj
    cases hi.symm.trans hplace
  | @readerRegistered buffers slots =>
    have hcall := h.call (.reading buffers slots) hi rfl
    exact { hcall with }
  | readPending _ _ _ | writeReady | writePending _ _ _ => exact h.call _ hi rfl
  | @popped _ _ payload buffer rest info hlock hclosed hincoming _ =>
    have hcall := h.call (.popped buffer info) hi rfl
    refine { hcall with held := fun j hj => ?_, incoming := fun _ => .inr (.inr (.inr rfl)) }
    obtain rfl : i = j := some.inj hj
    exact ⟨buffer, info, getElem?_set_self hlt⟩
  | delivered => exact h.notify nofun
  | writerRegistered =>
    have hcall := h.call .writing hi rfl
    exact { hcall with }

theorem finishes (h : Attended s) {stage : Finish} (hfinishes : Finishes s stage t) :
    Attended t := by
  cases hfinishes with
  | closes _ =>
    exact ⟨h.idle, fun _ => rfl, fun _ => rfl, h.held, fun hne => absurd rfl hne, fun _ => .inl rfl⟩
  | wakesReader | wakesWriter => exact { h with }

/-- The task looks at the outgoing queue before it waits again. -/
theorem busy (h : Attended s) (driver : Driver) (permit : Bool) (hattends : driver.attends = true) :
    Attended { s with driver, permit } := by
  have hfields : driver.isWaiting = false ∧ driver.hasClosed = false ∧ driver.sawFull = false := by
    cases driver with
    | finishing stage => cases stage <;> first | exact ⟨rfl, rfl, rfl⟩ | cases hattends
    | _ => first | exact ⟨rfl, rfl, rfl⟩ | cases hattends
  obtain ⟨hwaiting, hclosed, hfull⟩ := hfields
  refine { h with
    idle := fun hidle => ?_, task := fun htask => ?_
    outgoing := fun _ => .inr (.inl hattends), incoming := fun hsaw => ?_ }
  · exact absurd (hwaiting.symm.trans hidle) false_ne_true
  · exact absurd (hclosed.symm.trans htask) false_ne_true
  · exact absurd (hfull.symm.trans hsaw) false_ne_true

/-- After the first step of `finish` the adapter is closed. -/
theorem closed_of_finishes {stage : Finish} (hfinishes : Finishes s stage t)
    (h : (∀ error, stage ≠ .enter error) → s.state.closed = true) : t.state.closed = true := by
  cases hfinishes with
  | closes _ => rfl
  | wakesReader | wakesWriter => exact h nofun

/-- **One step.** -/
theorem turn (h : Attended s) (hordered : Ordered attachment s) (hturn : Turn attachment s e t) :
    Attended t := by
  cases hturn with
  | started hdriver =>
    have houtgoing := h.outgoing
    rw [hdriver] at houtgoing
    exact { h with idle := nofun, task := nofun, outgoing := houtgoing, incoming := nofun }
  | looped hdriver _ =>
    have houtgoing := h.outgoing
    rw [hdriver] at houtgoing
    refine { h with
      idle := nofun, task := nofun, outgoing := houtgoing, incoming := fun hfull => ?_ }
    have hlength : ¬ s.state.incoming.length < queueLimit := by
      simpa [Driver.sawFull] using hfull
    exact .inr (.inl (Nat.le_of_not_lt hlength))
  | suspended hdriver hpermit =>
    have houtgoing := h.outgoing
    have hincoming := h.incoming
    rw [hdriver] at houtgoing hincoming
    exact { h with
      idle := fun _ => hpermit, task := nofun, outgoing := houtgoing, incoming := hincoming }
  | spent _ _ => exact h.busy .popping false rfl
  | woken _ => exact h.busy .popping s.permit rfl
  | rejected _ _ _ _ | overflowed _ _ _ | readerWoken _ =>
    exact { h.busy .popping s.permit rfl with }
  | stored _ _ _ _ _ => exact { h.busy .wakingReader s.permit rfl with incoming := nofun }
  | emptied _ _ hempty =>
    exact { h with
      idle := nofun, task := nofun, outgoing := fun hne => absurd hempty hne, incoming := nofun }
  | @popped payload _ _ _ _ =>
    have hbusy := h.busy (.wakingWriter payload) s.permit rfl
    exact { hbusy with outgoing := fun _ => .inr (.inl rfl) }
  | writerWoken _ => exact { h.busy (.sending _) s.permit rfl with }
  | counted _ _ hpermit _ =>
    exact { h with
      idle := nofun, task := nofun, outgoing := fun hne => .inl (hpermit hne), incoming := nofun }
  | @finished stage u hdriver hfinishes =>
    have hfinished := h.finishes hfinishes
    have hclosed : u.state.closed = true := by
      refine closed_of_finishes hfinishes fun hentered => h.task ?_
      rw [hdriver]
      cases stage with
      | enter error => exact absurd rfl (hentered error)
      | reader | writer => rfl
    refine { hfinished with
      idle := fun hidle => ?_, task := fun _ => hclosed, outgoing := fun hne => ?_
      incoming := fun _ => .inl hclosed }
    · cases stage <;> cases hidle
    · exact absurd ((hordered.finishes hfinishes).cleared hclosed) hne
  | received _ _ | left _ _ => exact h.busy _ _ rfl
  | sent _ => exact h.busy .sent s.permit rfl
  | aborted hdropped _ =>
    have hclosed : s.state.closed = true := h.owner (by rw [hdropped]; rfl)
    refine { h with idle := nofun, task := nofun, outgoing := fun hne => ?_, incoming := nofun }
    exact absurd (hordered.cleared hclosed) hne
  | joined _ => exact { h with }
  | dropped _ => exact { h with owner := nofun }
  | @closed stage u howner hfinishes =>
    have hfinished := h.finishes hfinishes
    have hclosed : u.state.closed = true := by
      refine closed_of_finishes hfinishes fun hentered => h.owner ?_
      rw [howner]
      cases stage with
      | enter error => exact absurd rfl (hentered error)
      | reader | writer => rfl
    exact { hfinished with owner := fun _ => hclosed }
  | aborting howner => exact { h with owner := fun _ => h.owner (by rw [howner]; rfl) }
  | @called request =>
    refine { h with held := fun j hj => ?_, outgoing := fun hne => ?_ }
    · obtain ⟨buffer, info, hplace⟩ := h.held j hj
      have hlt := (List.getElem?_eq_some_iff.mp hplace).1
      exact ⟨buffer, info, (getElem?_append_left hlt).trans hplace⟩
    · refine (h.outgoing hne).imp_right (Or.imp_right ?_)
      rintro ⟨j, hj⟩
      have hlt := (List.getElem?_eq_some_iff.mp hj).1
      exact ⟨j, (getElem?_append_left hlt).trans hj⟩
  | advanced hi hadvances => exact h.advances hi hadvances

end Attended

/-! ## What is handed over -/

/-- The datagram that a call has taken and not yet returned. -/
def holds (s : Adapter) : Option Bytes := s.lock.bind fun i => s.calls[i]?.bind Place.holds

/-- What `transport.send` is given in a step that leads here. -/
def sends (e : Event) (t : Adapter) : Option Bytes :=
  match e, t.driver with
  | .run, .sending payload => some payload
  | _, _ => none

/-- What `poll_recv` returns in a step that leads here. -/
def returns (e : Event) (t : Adapter) : Option Bytes :=
  match e with
  | .goOn i => t.calls[i]?.bind Place.returns
  | _ => none

/-- What the steps of a run hand over, in order. -/
def handed (attachment : Attachment) (f : Event → Adapter → Option Bytes)
    (history : List (Adapter × Event)) : List Bytes :=
  history.filterMap fun taken => (taken.1.step attachment taken.2).bind (f taken.2)

theorem handed_concat {f : Event → Adapter → Option Bytes} (h : s.step attachment e = some t) :
    handed attachment f (history ++ [(s, e)]) = handed attachment f history ++ (f e t).toList := by
  unfold handed
  rw [filterMap_append, filterMap_cons, h, filterMap_nil]
  cases hf : f e t <;> simp [hf]

/-- **What the task takes from the queue it sends**, before it takes more. -/
theorem Turn.taken (h : Turn attachment s e t) :
    ∃ popped, t.taken = s.taken ++ popped ∧
      s.driver.holds.toList ++ popped = (sends e t).toList ++ t.driver.holds.toList := by
  cases h with
  | @popped payload rest hdriver =>
    refine ⟨[payload], rfl, ?_⟩
    rw [hdriver]
    rfl
  | writerWoken hdriver =>
    refine ⟨[], (append_nil _).symm, ?_⟩
    rw [hdriver]
    rfl
  | started hdriver | looped hdriver _ | spent hdriver _ | suspended hdriver _ | woken hdriver
  | rejected hdriver _ _ _ | overflowed hdriver _ _ | stored hdriver _ _ _ _
  | readerWoken hdriver | emptied hdriver _ _ | counted hdriver _ _ _ | sent hdriver =>
    refine ⟨[], (append_nil _).symm, ?_⟩
    rw [hdriver]
    rfl
  | @finished stage u hdriver hfinishes =>
    refine ⟨[], ?_, ?_⟩
    · cases hfinishes <;> exact (append_nil _).symm
    · rw [hdriver]
      cases stage <;> rfl
  | received hselect _ =>
    refine ⟨[], (append_nil _).symm, ?_⟩
    cases hdriver : s.driver <;> first | rfl | (rw [hdriver] at hselect; cases hselect)
  | @left e error hselect _ =>
    refine ⟨[], (append_nil _).symm, ?_⟩
    cases hdriver : s.driver <;> cases e <;>
      first | rfl | (rw [hdriver] at hselect; rcases hselect with h | h <;> cases h)
  | aborted _ hyielded =>
    refine ⟨[], (append_nil _).symm, ?_⟩
    cases hdriver : s.driver <;> first | rfl | (rw [hdriver] at hyielded; cases hyielded)
  | joined _ | dropped _ | aborting _ | called =>
    exact ⟨[], (append_nil _).symm, append_nil _⟩
  | closed _ hfinishes => cases hfinishes <;> exact ⟨[], (append_nil _).symm, append_nil _⟩
  | advanced _ hadvances =>
    cases hadvances with
    | sent | delivered =>
      refine ⟨[], (append_nil _).symm, ?_⟩
      change s.driver.holds.toList ++ [] = [] ++ s.driver.notify.holds.toList
      cases s.driver <;> rfl
    | _ => exact ⟨[], (append_nil _).symm, append_nil _⟩

/-- What a step does to the calls. -/
theorem Turn.calls (h : Turn attachment s e t) :
    (t.calls = s.calls ∧ t.lock = s.lock ∧ t.delivered = s.delivered ∧ ∀ i, e ≠ .goOn i) ∨
      (∃ request, e = .call request ∧ t = { s with calls := s.calls ++ [request.enter] }) ∨
      ∃ i place, e = .goOn i ∧ s.calls[i]? = some place ∧ Advances attachment s i place t := by
  cases h with
  | called => exact .inr (.inl ⟨_, rfl, rfl⟩)
  | advanced hi hadvances => exact .inr (.inr ⟨_, _, rfl, hi, hadvances⟩)
  | left _ hother => exact .inl ⟨rfl, rfl, rfl, hother⟩
  | finished _ hfinishes | closed _ hfinishes =>
    cases hfinishes <;> exact .inl ⟨rfl, rfl, rfl, nofun⟩
  | _ => exact .inl ⟨rfl, rfl, rfl, nofun⟩

theorem Advances.calls {i : ℕ} {place : Place} (h : Advances attachment s i place t) :
    ∃ new, t.calls = s.calls.set i new ∧
      ((place.holds = none ∧ new.holds = none ∧ new.returns = none ∧ t.lock = s.lock ∧
          t.delivered = s.delivered) ∨
        (∃ payload, s.lock = none ∧ t.lock = some i ∧ new.holds = some payload ∧
          new.returns = none ∧ t.delivered = s.delivered ++ [payload]) ∨
        (place.holds ≠ none ∧ t.lock = none ∧ new.holds = none ∧ new.returns = place.holds ∧
          t.delivered = s.delivered)) := by
  cases h with
  | returns hplace =>
    refine ⟨_, rfl, .inl ?_⟩
    rcases hplace with ⟨_, _, rfl, rfl⟩ | ⟨_, _, _, rfl, rfl⟩ <;> exact ⟨rfl, rfl, rfl, rfl, rfl⟩
  | popped hlock _ _ hbuffer =>
    exact ⟨_, rfl, .inr (.inl ⟨_, hlock, rfl, congrArg some hbuffer, rfl, rfl⟩)⟩
  | delivered => exact ⟨_, rfl, .inr (.inr ⟨nofun, rfl, rfl, rfl, rfl⟩)⟩
  | _ => exact ⟨_, rfl, .inl ⟨rfl, rfl, rfl, rfl, rfl⟩⟩

/-- **What was taken from the queues is handed over.** -/
structure Handed (attachment : Attachment) (history : List (Adapter × Event)) (t : Adapter) :
    Prop where
  sole : ∀ i place, t.calls[i]? = some place → place.holds ≠ none → t.lock = some i
  taken : t.taken = handed attachment sends history ++ t.driver.holds.toList
  delivered : t.delivered = handed attachment returns history ++ t.holds.toList

theorem holds_of_free (hlock : s.lock = none) : s.holds = none := by
  rw [holds, hlock, Option.bind_none]

theorem holds_of_locked {i : ℕ} {place : Place} (hlock : s.lock = some i)
    (hi : s.calls[i]? = some place) : s.holds = place.holds := by
  rw [holds, hlock, Option.bind_some, hi, Option.bind_some]

/-- The datagram of the call that has the mutex stays in its hands, while another
call begins or goes on. -/
theorem holds_of_calls (hattended : Attended s) (hlock : t.lock = s.lock)
    (hcalls : ∀ (j : ℕ) (place : Place), s.calls[j]? = some place → place.holds ≠ none →
      t.calls[j]? = some place) : t.holds = s.holds := by
  cases hheld : s.lock with
  | none => rw [holds_of_free hheld, holds_of_free (hlock.trans hheld)]
  | some j =>
    obtain ⟨buffer, info, hj⟩ := hattended.held j hheld
    rw [holds_of_locked hheld hj, holds_of_locked (hlock.trans hheld) (hcalls j _ hj nofun)]

namespace Handed

theorem init : Handed attachment [] attached := ⟨nofun, rfl, rfl⟩

variable (h : Handed attachment history s)

include h

/-- One call alone has a datagram, after another went on. -/
theorem sole_set {i : ℕ} {new : Place} (hcalls : t.calls = s.calls.set i new)
    (hlt : i < s.calls.length) (hnew : new.holds ≠ none → t.lock = some i)
    (hkeep : ∀ j, j ≠ i → s.lock = some j → t.lock = some j) (j : ℕ) (later : Place)
    (hj : t.calls[j]? = some later) (hlater : later.holds ≠ none) : t.lock = some j := by
  rw [hcalls] at hj
  by_cases hne : j = i
  · subst hne
    rw [getElem?_set_self hlt] at hj
    cases hj
    exact hnew hlater
  · rw [getElem?_set_ne (Ne.symm hne)] at hj
    exact hkeep j hne (h.sole j later hj hlater)

/-- **A call goes on.** -/
theorem advances {i : ℕ} {place : Place} (hattended : Attended s) (hi : s.calls[i]? = some place)
    (hadvances : Advances attachment s i place t) :
    (∀ j later, t.calls[j]? = some later → later.holds ≠ none → t.lock = some j) ∧
      t.delivered = handed attachment returns history ++ (returns (.goOn i) t).toList ++
        t.holds.toList := by
  obtain ⟨new, hcalls, hcases⟩ := hadvances.calls
  have hlt := (List.getElem?_eq_some_iff.mp hi).1
  have hnew : t.calls[i]? = some new := by rw [hcalls, getElem?_set_self hlt]
  have hreturns : returns (.goOn i) t = new.returns := by
    rw [returns, hnew, Option.bind_some]
  rw [hreturns]
  rcases hcases with ⟨hplace, hholds, hnone, hlock, hdelivered⟩ |
    ⟨payload, hfree, hlock, hholds, hnone, hdelivered⟩ |
    ⟨hplace, hlock, hholds, hsame, hdelivered⟩
  · have hkept : t.holds = s.holds := by
      refine holds_of_calls hattended hlock fun j other hj hother => ?_
      have hne : i ≠ j := by
        rintro rfl
        cases hi.symm.trans hj
        exact hother hplace
      rw [hcalls, getElem?_set_ne hne]
      exact hj
    refine ⟨h.sole_set hcalls hlt (absurd hholds) fun _ _ hj => hlock.trans hj, ?_⟩
    rw [hdelivered, h.delivered, hnone, hkept, Option.toList_none, append_nil]
  · refine ⟨h.sole_set hcalls hlt (fun _ => hlock) fun j _ hj => ?_, ?_⟩
    · cases hfree.symm.trans hj
    · rw [hdelivered, h.delivered, holds_of_free hfree, holds_of_locked hlock hnew, hholds, hnone]
      rfl
  · have hmine : s.lock = some i := h.sole i place hi hplace
    refine ⟨h.sole_set hcalls hlt (absurd hholds) fun j hne hj => ?_, ?_⟩
    · exact absurd (some.inj (hj.symm.trans hmine)) hne
    · rw [hdelivered, h.delivered, holds_of_locked hmine hi, holds_of_free hlock, hsame,
        Option.toList_none, append_nil]

/-- **One step.** -/
theorem turn (hattended : Attended s) (hstep : s.step attachment e = some t) :
    Handed attachment (history ++ [(s, e)]) t := by
  have hturn := turn_of_step hstep
  have htaken : t.taken =
      handed attachment sends (history ++ [(s, e)]) ++ t.driver.holds.toList := by
    obtain ⟨popped, htaken, hpopped⟩ := hturn.taken
    rw [htaken, h.taken, append_assoc, hpopped, handed_concat hstep, append_assoc]
  suffices hcalls : (∀ j later, t.calls[j]? = some later → later.holds ≠ none → t.lock = some j) ∧
      t.delivered = handed attachment returns history ++ (returns e t).toList ++ t.holds.toList by
    refine ⟨hcalls.1, htaken, ?_⟩
    rw [handed_concat hstep]
    exact hcalls.2
  rcases hturn.calls with ⟨hcalls, hlock, hdelivered, hother⟩ | ⟨request, rfl, rfl⟩ |
    ⟨i, place, rfl, hi, hadvances⟩
  · have hnone : returns e t = none := by
      cases e with
      | goOn i => exact absurd rfl (hother i)
      | _ => rfl
    have hkept : t.holds = s.holds :=
      holds_of_calls hattended hlock fun j place hj _ => hcalls ▸ hj
    rw [hcalls, hlock, hdelivered, h.delivered, hnone, hkept, Option.toList_none, append_nil]
    exact ⟨h.sole, rfl⟩
  · refine ⟨fun j later hj hlater => ?_, ?_⟩
    · rcases Nat.lt_or_ge j s.calls.length with hlt | hge
      · exact h.sole j later ((getElem?_append_left hlt).symm.trans hj) hlater
      · have hnew := mem_of_getElem? ((getElem?_append_right hge).symm.trans hj)
        rw [mem_singleton.mp hnew] at hlater
        cases request <;> exact absurd rfl hlater
    · have hkept : ({ s with calls := s.calls ++ [request.enter] } : Adapter).holds = s.holds :=
        holds_of_calls hattended rfl fun j place hj _ =>
          (getElem?_append_left (List.getElem?_eq_some_iff.mp hj).1).trans hj
      change s.delivered = handed attachment returns history ++ [] ++ _
      rw [append_nil, hkept]
      exact h.delivered
  · exact h.advances hattended hi hadvances

end Handed

/-! ## Every run -/

theorem Runs.attended (h : Runs attachment history t) : Attended t := by
  induction h with
  | start => exact .init
  | next hrun htake ih => exact ih.turn (Runs.ordered hrun) (turn_of_step htake)

theorem Runs.handed (h : Runs attachment history t) : Handed attachment history t := by
  induction h with
  | start => exact .init
  | next hrun htake ih => exact ih.turn (Runs.attended hrun) htake

/-- A task that waits with nothing pending has nothing to send, and does not
receive only where the queue is full, or it was closed. -/
theorem Attended.waits (h : Attended t) {canReceive : Bool} (hdriver : t.driver = .waiting canReceive)
    (hpending : t.pending = false) :
    t.state.outgoing = [] ∧
      (canReceive = false → t.state.closed = true ∨ queueLimit ≤ t.state.incoming.length) := by
  obtain ⟨hpermit, hcalls⟩ := or_eq_false_iff.mp hpending
  have hnobody (i : ℕ) (place : Place) (hi : t.calls[i]? = some place) :
      place.notifies = false :=
    eq_false_of_ne_true (any_eq_false.mp hcalls place (mem_of_getElem? hi))
  constructor
  · by_contra hne
    rcases h.outgoing hne with hstored | hattends | ⟨i, hi⟩
    · exact false_ne_true (hpermit.symm.trans hstored)
    · rw [hdriver] at hattends
      cases hattends
    · cases hnobody i _ hi
  · rintro rfl
    rcases h.incoming (by rw [hdriver]; rfl) with hclosed | hfull | hstored | hlock
    · exact .inl hclosed
    · exact .inr hfull
    · exact absurd (hpermit.symm.trans hstored) false_ne_true
    · obtain ⟨i, hi⟩ := isSome_iff_exists.mp hlock
      obtain ⟨buffer, info, hplace⟩ := h.held i hi
      cases hnobody i _ hplace

section Sample

def samplePeer : SocketAddr := ⟨.v4 0x7F000001#32, 443⟩

def sampleTransmit (byte : UInt8) : Transmit := ⟨samplePeer, [byte], none, none⟩

/-- Two datagrams are sent, and one is received and taken. -/
def sampleEvents : List Event :=
  [.run, .run, .run, .call (.trySend (sampleTransmit 1)), .goOn 0, .goOn 0,
    .call (.trySend (sampleTransmit 2)), .goOn 1, .goOn 1, .run, .run, .run, .sent (.ok ()), .run,
    .run, .run, .run, .run, .sent (.ok ()), .run, .run, .run,
    .receive (.ok ⟨.ip samplePeer, [9], none⟩), .run, .run, .run, .run, .run,
    .call (.pollRecv [[0, 0]] 1), .goOn 2, .goOn 2, .goOn 2, .run, .run, .run, .run]

end Sample

end Adapter

end Vole.Quic
