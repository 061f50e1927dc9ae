import Vole.AnyTls.Model.Client
import Vole.AnyTls.Streams

/-!
# What the AnyTLS client does

The steps of the client, each with what it finds (`Turn`).
-/

namespace Vole.AnyTls

open Option List

namespace Client

variable {config : Config} {s t : Client} {e : ClientEvent}

@[simp] theorem withSession_session (S R : ℕ) (f : Session → Session) :
    (s.withSession S f).session R = if R = S then f (s.session S) else s.session R :=
  Function.update_apply ..

section

variable (config s)

/-- **What a step does.** -/
inductive Turn : ClientEvent → Client → Prop
  | began : s.alive = true → Turn .begin { s with opens := s.opens ++ [.taking] }
  /-- A task looks for a session. -/
  | reused {i S : ℕ} {idle : Table ℕ ℕ} :
    s.opens[i]? = some .taking → s.takeIdle = (some S, idle) →
    Turn (.advance i) ({ s with idle }.goOn i (.found S))
  | missed {i : ℕ} {idle : Table ℕ ℕ} :
    s.opens[i]? = some .taking → s.takeIdle = (none, idle) →
    Turn (.advance i) ({ s with idle }.goOn i .fresh)
  /-- It opens a stream on the session it found. -/
  | looked {i S : ℕ} :
    s.opens[i]? = some (.found S) →
    Turn (.advance i) (s.goOn i (.unclosed S))
  | forwent {i S : ℕ} :
    s.opens[i]? = some (.found S) ∨ s.opens[i]? = some (.unclosed S) →
    Turn (.advance i) (s.goOn i .fresh)
  | woke {i S : ℕ} :
    s.opens[i]? = some (.unclosed S) → (s.session S).state = .idle →
    Turn (.advance i) ((s.withSession S ({ · with state := .active })).goOn i (.marked S))
  | numbered {i S : ℕ} :
    s.opens[i]? = some (.marked S) →
    Turn (.advance i)
      ((s.withSession S ({ · with nextStreamId := (s.session S).nextStreamId + 1 })).goOn i
        (.numbered S ((s.session S).nextStreamId + 1)))
  | exhausted {i S : ℕ} {error : IoError} :
    s.opens[i]? = some (.marked S) →
    Turn (.advance i) ((s.callFail S [⟨.opening 0, error⟩]).goOn i .fresh)
  | retained {i S k : ℕ} {error : IoError} :
    s.opens[i]? = some (.numbered S k) → (s.session S).active.isSome = true →
    Turn (.advance i) ((s.callFail S [⟨.opening k, error⟩]).goOn i .fresh)
  | filled {i S k : ℕ} :
    s.opens[i]? = some (.numbered S k) → (s.session S).active = none →
    Turn (.advance i)
      ((s.withSession S fun session =>
        ({ session with active := some ⟨k, true⟩, openDone := none } : Session).withStream k
          fun _ => .fresh).goOn i (.sending S k))
  | sent {i S k : ℕ} :
    s.opens[i]? = some (.sending S k) →
    Turn (.advance i) ((s.withSession S (·.enqueue (.openStream k))).goOn i (.waiting S k))
  | answered {i S k : ℕ} :
    s.opens[i]? = some (.waiting S k) →
    Turn (.advance i) (s.goOn i (.written S k))
  | failed {e : ClientEvent} {i S k : ℕ} {calls : List Call} {place : Opening} :
    e = .advance i ∨ (∃ timedOut, e = .abort i timedOut) →
    s.opens[i]? = some (.sending S k) ∨ s.opens[i]? = some (.waiting S k) →
    (∀ c ∈ calls, c.caller = .opening k) → place = .fresh ∨ place = .ended →
    Turn e
      (((s.withSession S (·.withStream k ({ · with receiver := false }))).callFail S calls).goOn i
        place)
  | opened {i S k : ℕ} {waiters : List Waiter} :
    s.opens[i]? = some (.written S k) →
    waiters = s.waiters ++ [⟨S, k, false⟩] ∨ waiters = s.waiters →
    Turn (.advance i)
      ({ s.withSession S (·.withStream k ({ · with handle := true })) with waiters }.goOn i .ended)
  /-- It makes a session. -/
  | dialing {i : ℕ} :
    s.opens[i]? = some .fresh →
    Turn (.advance i)
      ({ s with nextSequence := s.nextSequence + 1 }.goOn i (.dialing (s.nextSequence + 1)))
  | undialed {e : ClientEvent} {i : ℕ} :
    e = .advance i ∨ e = .dialed i false ∨ (∃ timedOut, e = .abort i timedOut) →
    s.opens[i]? = some .fresh ∨ (∃ S, s.opens[i]? = some (.dialing S)) →
    Turn e (s.goOn i .ended)
  | dialed {i S : ℕ} :
    s.opens[i]? = some (.dialing S) →
    Turn (.dialed i true) ((s.withSession S fun _ => .prepared s.cancelled).goOn i (.prepared S))
  | barred {i S : ℕ} :
    s.opens[i]? = some (.prepared S) →
    Turn (.advance i)
      (((s.withSession S fun session =>
        ({ session with writer := .stopped } : Session).withStream 1
          ({ · with receiver := false, closeQueued := true })).callFail S
            [beginShutdown .shutdown]).goOn i .ended)
  | registered {i S : ℕ} :
    s.opens[i]? = some (.prepared S) →
    Turn (.advance i)
      ({ s.withSession S ({ · with writer := .waiting, reader := .reading }) with
        sessions := s.sessions ++ [S] }.goOn i (.registered S))
  | started {i S : ℕ} {place : Opening} :
    s.opens[i]? = some (.registered S) → place = .unregistering S ∨ place = .ended →
    Turn (.advance i) ((s.withSession S (·.withStream 1 ({ · with handle := true }))).goOn i place)
  | unregistered {i S : ℕ} :
    s.opens[i]? = some (.unregistering S) →
    Turn (.advance i) ((s.sessionClosed S).goOn i .ended)
  /-- A session is failed. -/
  | skipped {j : ℕ} {f : Failing} :
    s.fails[j]? = some f → f.place = .swap →
    Turn (.fail j) (s.failOn j f .skipped)
  | swapped {j : ℕ} {f : Failing} :
    s.fails[j]? = some f → f.place = .swap → (s.session f.sequence).closed = false →
    Turn (.fail j) ((s.withSession f.sequence ({ · with closed := true })).failOn j f .store)
  | stored {j : ℕ} {f : Failing} :
    s.fails[j]? = some f → f.place = .store →
    Turn (.fail j) ((s.withSession f.sequence ({ · with state := .closed })).failOn j f .cancel)
  | cancelled {j : ℕ} {f : Failing} :
    s.fails[j]? = some f → f.place = .cancel →
    Turn (.fail j) ((s.withSession f.sequence ({ · with cancelled := true })).failOn j f .take)
  | took {j : ℕ} {f : Failing} :
    s.fails[j]? = some f → f.place = .take →
    Turn (.fail j)
      ((s.withSession f.sequence (·.failActive config f.call.error)).failOn j f .remove)
  | removed {j : ℕ} {f : Failing} :
    s.fails[j]? = some f → f.place = .remove → s.alive = true →
    Turn (.fail j) ((s.sessionClosed f.sequence).failOn j f .returned)
  | outlived {j : ℕ} {f : Failing} :
    s.fails[j]? = some f → f.place = .remove → s.alive = false →
    Turn (.fail j) (s.failOn j f .returned)
  /-- A waiter ends. -/
  | ceased {e : ClientEvent} {j : ℕ} {w : Waiter} {calls : List Call} :
    e = .acknowledged j ∨ e = .waiterTimedOut j ∨ e = .waiterCancelled j →
    s.waiters[j]? = some w → w.done = false →
    (∀ c ∈ calls, ∃ cause, c.caller = .waiter w.streamId cause ∧
      match cause with
      | .answered => ∃ error,
        ((s.session w.sequence).stream w.streamId).acknowledgement = .sent (.error error)
      | .stopped => ((s.session w.sequence).stream w.streamId).acknowledgement = .dropped
      | .timedOut => ((s.session w.sequence).stream w.streamId).acknowledgement = .pending) →
    Turn e (s.endWaiter j w calls)
  /-- A loop or a stream of a session accesses it. -/
  | accessed {S : ℕ} {event : SessionEvent} {session : Session} {calls : List Call} :
    Session.Access config (s.session S) event session calls →
    Turn (.session S event) ((s.withSession S fun _ => session).callFail S calls)
  /-- A session is handed back. -/
  | returned {S now k : ℕ} {waited : Bool} {a : ActiveStream} {idle : Table ℕ ℕ}
      {calls : List Call} :
    (s.session S).writer = .releasing k waited .freed a →
    idle = s.idle ∨
      idle = s.idle.insert S now ∧ (s.session S).closed = false ∧ S ∈ s.sessions →
    (∀ c ∈ calls, c.caller = .shutdown) →
    Turn (.returnIdle S now)
      (({ s with idle }.callFail S calls).withSession S
        ({ · with writer := .releasing k waited .returned a }))
  /-- The pool and the client end. -/
  | expired {now : ℕ} {idle : Table ℕ ℕ} {fails : List Failing} :
    (∀ S, S ∈ idle → S ∈ s.idle) →
    (∀ f ∈ fails, f.call.caller = .expiry ∧ f.place = .swap ∧ f.sequence ∈ s.idle ∧
      f.sequence ∉ idle ∧ f.sequence ∈ s.sessions) →
    Turn (.expire now) { s with idle, fails := s.fails ++ fails }
  | shutdown :
    Turn .shutdown { s with closed := true, idle := ∅, fails := s.fails ++ s.shutdownSessions }
  | stopped : Turn .cancel s.cancelSessions
  | dropped :
    (∀ place ∈ s.opens, place = .ended) →
    Turn .drop
      { s.cancelSessions with
        alive := false
        sessions := []
        idle := ∅
        fails := s.fails ++ s.shutdownSessions }

end

section Inversion

theorem advance_turn {i : ℕ} {place : Opening} (hplace : s.opens[i]? = some place)
    (h : s.advance i place = some t) : Turn config s (.advance i) t := by
  cases place <;> dsimp only [advance] at h
  case taking =>
    split at h <;> cases h
    case h_1 S idle htake => exact .reused hplace htake
    case h_2 idle htake => exact .missed hplace htake
  case found S =>
    split_ifs at h <;> cases h
    · exact .forwent (.inl hplace)
    · exact .looked hplace
  case unclosed S =>
    split_ifs at h with hstate <;> cases h
    · exact .woke hplace hstate
    · exact .forwent (.inr hplace)
  case marked S =>
    split_ifs at h <;> cases h
    · exact .numbered hplace
    · exact .exhausted hplace
  case numbered S k =>
    split_ifs at h with hactive <;> cases h
    · exact .retained hplace hactive
    · exact .filled hplace (by simpa using hactive)
  case sending S k =>
    split_ifs at h <;> cases h
    · exact .failed (.inl rfl) (.inl hplace) (by simp [openErrors]) (.inl rfl)
    · exact .sent hplace
  case waiting S k =>
    split at h
    case h_1 =>
      cases h
      exact .answered hplace
    case h_2 =>
      cases h
      exact .failed (.inl rfl) (.inr hplace) (by simp [openErrors]) (.inl rfl)
    case h_3 =>
      split_ifs at h
      cases h
      exact .failed (.inl rfl) (.inr hplace) (by simp [openErrors]) (.inl rfl)
  case written S k =>
    split_ifs at h <;> cases h
    · exact .opened hplace (.inl rfl)
    · exact .opened hplace (.inr rfl)
  case fresh =>
    split_ifs at h <;> cases h
    · exact .dialing hplace
    · exact .undialed (.inl rfl) (.inl hplace)
  case dialing S | ended => cases h
  case prepared S =>
    split_ifs at h <;> cases h
    · exact .barred hplace
    · exact .registered hplace
  case registered S =>
    split_ifs at h <;> cases h
    · exact .started hplace (.inl rfl)
    · exact .started hplace (.inr rfl)
  case unregistering S =>
    cases h
    exact .unregistered hplace

theorem abort_turn {i : ℕ} {timedOut : Bool} {place : Opening} (hplace : s.opens[i]? = some place)
    (h : s.abort i timedOut place = some t) : Turn config s (.abort i timedOut) t := by
  have hstop (S k : ℕ) (hplace : s.opens[i]? = some (.sending S k) ∨
      s.opens[i]? = some (.waiting S k)) :
      Turn config s (.abort i timedOut) (abort.stop s i timedOut S k) := by
    unfold abort.stop
    split_ifs
    · exact .failed (.inr ⟨_, rfl⟩) hplace (by simp [openErrors]) (.inl rfl)
    · exact .failed (.inr ⟨_, rfl⟩) hplace (by simp) (.inr rfl)
  cases place <;> simp only [abort, some.injEq, reduceCtorEq] at h <;> subst h
  case sending S k => exact hstop S k (.inl hplace)
  case waiting S k => exact hstop S k (.inr hplace)
  case dialing S => exact .undialed (.inr (.inr ⟨_, rfl⟩)) (.inr ⟨S, hplace⟩)

theorem fail_turn {j : ℕ} {f : Failing} (hf : s.fails[j]? = some f)
    (h : s.fail config j f = some t) : Turn config s (.fail j) t := by
  dsimp only [fail] at h
  split at h
  next hplace =>
    split_ifs at h with hclosed <;> cases h
    · exact .skipped hf hplace
    · exact .swapped hf hplace (by simpa using hclosed)
  next hplace =>
    cases h
    exact .stored hf hplace
  next hplace =>
    cases h
    exact .cancelled hf hplace
  next hplace =>
    cases h
    exact .took hf hplace
  next hplace =>
    split_ifs at h with halive <;> cases h
    · exact .removed hf hplace halive
    · exact .outlived hf hplace (by simpa using halive)
  all_goals cases h

theorem returnIdle_turn {S now k : ℕ} {waited : Bool} {a : ActiveStream}
    (hw : (s.session S).writer = .releasing k waited .freed a) :
    Turn config s (.returnIdle S now)
      ((s.returnIdle S now).withSession S
        ({ · with writer := .releasing k waited .returned a })) := by
  unfold returnIdle
  split_ifs with hclosed hmem
  · exact .returned hw (.inl rfl) (by simp [beginShutdown])
  · have h : Turn config s (.returnIdle S now)
        (({ s with idle := s.idle.insert S now }.callFail S []).withSession S
          ({ · with writer := .releasing k waited .returned a })) :=
      .returned hw (.inr ⟨rfl, by simp_all, hmem⟩) (by simp)
    simpa [callFail] using h
  · exact .returned hw (.inl rfl) (by simp [beginShutdown])

theorem expireIdle_turn (now : ℕ) : Turn config s (.expire now) (s.expireIdle now) := by
  refine .expired (fun S hS => ?_) ?_
  · obtain ⟨since, hsince⟩ := Table.exists_lookup hS
    rw [Table.lookup_retain, filter_eq_some_iff] at hsince
    exact Table.mem_keys_of_lookup hsince.1
  intro f hf
  simp only [List.mem_map, mem_filter, decide_eq_true_eq] at hf
  obtain ⟨S, ⟨⟨⟨_, since⟩, ⟨hentry, hold⟩, rfl⟩, hS⟩, rfl⟩ := hf
  have hlookup : s.idle.lookup _ = some since := AList.mem_lookup_iff.mpr hentry
  refine ⟨rfl, rfl, Table.mem_keys_of_lookup hlookup, fun hmem => ?_, hS⟩
  obtain ⟨other, hother⟩ := Table.exists_lookup hmem
  rw [Table.lookup_retain, filter_eq_some_iff, hlookup] at hother
  obtain ⟨hsince, hyoung⟩ := hother
  obtain rfl : since = other := some.inj hsince
  simp only [decide_eq_true_eq] at hyoung
  exact hyoung hold

theorem waiting_eq {j : ℕ} {w : Waiter} (h : s.waiting j = some w) :
    s.waiters[j]? = some w ∧ w.done = false := by
  simpa [waiting, filter_eq_some_iff] using h

/-- **Every step is one of these.** -/
theorem turn_of_step (h : s.step config e = some t) : Turn config s e t := by
  cases e with
  | begin =>
    simp only [step] at h
    split_ifs at h with hnot
    cases h
    exact .began (by simp_all)
  | advance i =>
    obtain ⟨place, hplace, h⟩ := bind_eq_some_iff.mp h
    exact advance_turn hplace h
  | dialed i ok =>
    simp only [step] at h
    split at h
    case h_2 => cases h
    case h_1 S hplace =>
      cases ok with
      | true =>
        cases h
        exact .dialed hplace
      | false =>
        cases h
        exact .undialed (.inr (.inl rfl)) (.inr ⟨S, hplace⟩)
  | abort i timedOut =>
    obtain ⟨place, hplace, h⟩ := bind_eq_some_iff.mp h
    exact abort_turn hplace h
  | fail j =>
    obtain ⟨f, hf, h⟩ := bind_eq_some_iff.mp h
    exact fail_turn hf h
  | acknowledged j =>
    obtain ⟨w, hw, h⟩ := bind_eq_some_iff.mp h
    obtain ⟨hw, hdone⟩ := waiting_eq hw
    unfold acknowledged at h
    split at h <;> simp only [some.injEq, reduceCtorEq] at h <;> subst h
    case h_2 => exact .ceased (.inl rfl) hw hdone (by simp)
    case h_3 error hack => exact .ceased (.inl rfl) hw hdone (by simp [hack])
    case h_4 hack => exact .ceased (.inl rfl) hw hdone (by simp [hack])
  | waiterTimedOut j =>
    obtain ⟨w, hw, h⟩ := bind_eq_some_iff.mp h
    obtain ⟨hw, hdone⟩ := waiting_eq hw
    split at h <;> simp only [some.injEq, reduceCtorEq] at h
    subst h
    case h_1 hack => exact .ceased (.inr (.inl rfl)) hw hdone (by simp [hack])
  | waiterCancelled j =>
    obtain ⟨w, hw, h⟩ := bind_eq_some_iff.mp h
    obtain ⟨hw, hdone⟩ := waiting_eq hw
    obtain ⟨_, rfl⟩ := ite_some_none_eq_some.mp h
    exact .ceased (.inr (.inr rfl)) hw hdone (by simp)
  | session S event =>
    obtain ⟨⟨session, calls⟩, hstep, rfl⟩ := map_eq_some_iff.mp h
    exact .accessed (Session.access_of_step hstep)
  | returnIdle S now =>
    simp only [step] at h
    split at h
    case h_2 => cases h
    case h_1 k waited a hw =>
      cases h
      split_ifs
      · exact returnIdle_turn hw
      · exact .returned hw (.inl rfl) (by simp)
  | expire now =>
    obtain ⟨_, rfl⟩ := ite_some_none_eq_some.mp h
    exact expireIdle_turn now
  | shutdown =>
    simp only [step] at h
    split_ifs at h
    cases h
    exact .shutdown
  | cancel =>
    obtain ⟨_, rfl⟩ := ite_some_none_eq_some.mp h
    exact .stopped
  | drop =>
    obtain ⟨⟨-, hended⟩, rfl⟩ := ite_some_none_eq_some.mp h
    exact .dropped (by simpa using hended)

end Inversion

end Client

end Vole.AnyTls
