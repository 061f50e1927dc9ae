import Vole.AnyTls.Reuse

/-!
# Who uses an AnyTLS session

A stream uses a session from when it is put into the slot until it is
released (`Owned.uses_turn`).
-/

namespace Vole.AnyTls

namespace Client

open Session Function Option

variable {config : Config} {s t : Client} {e : ClientEvent} {stage : ℕ → Stage}

/-- The task that a step is about. -/
def taskOf : ClientEvent → Option ℕ
  | .advance i => some i
  | .dialed i _ => some i
  | .abort i _ => some i
  | _ => none

/-- The stream that a step releases. -/
def frees (s : Client) (S : ℕ) : ClientEvent → Option ℕ
  | .session R event => if R = S then (s.session S).releases event else none
  | _ => none

/-- What a task has, before and after it went on. -/
inductive Shift (s : Client) (e : ClientEvent) :
    Option (ℕ × Option ℕ) → Option (ℕ × Option ℕ) → Prop
  | none : (∀ R, s.puts R e = none) → Shift s e none none
  | take {S : ℕ} : (∀ R, s.puts R e = none) → S ∈ s.idle ∨ s.nextSequence < S →
    Shift s e none (some (S, none))
  | keep {S : ℕ} {k : Option ℕ} : (∀ R, s.puts R e = none) → Shift s e (some (S, k)) (some (S, k))
  | put {S k : ℕ} : (∀ R, s.puts R e = if S = R then some k else none) →
    Shift s e (some (S, none)) (some (S, some k))
  | leave {S : ℕ} {k : Option ℕ} : (∀ R, s.puts R e = none) → Shift s e (some (S, k)) none

theorem held_of_turn (hturn : Turn config s e t) (he : taskOf e = none) (j : ℕ) :
    t.held j = s.held j := by
  cases hturn with
  | began _ =>
    by_cases hj : j = s.opens.length
    · simp [held, hj, Opening.holding]
    · simp only [held, Owned.getElem?_begin hj]
  | failed hevent _ _ _ => rcases hevent with rfl | ⟨_, rfl⟩ <;> cases he
  | undialed hevent _ => rcases hevent with rfl | rfl | ⟨_, rfl⟩ <;> cases he
  | _ => first | rfl | cases he

theorem shift_of_turn (hturn : Turn config s e t) {i : ℕ} (he : taskOf e = some i) :
    (∀ j, j ≠ i → t.held j = s.held j) ∧ Shift s e (s.held i) (t.held i) := by
  have htask {l : ℕ} {old new : Opening} (hl : taskOf e = some l)
      (hold : s.opens[l]? = some old) (hopens : t.opens = s.opens.set l new)
      (hshift : Shift s e old.holding new.holding) :
      (∀ j, j ≠ i → t.held j = s.held j) ∧ Shift s e (s.held i) (t.held i) := by
    obtain rfl : i = l := some.inj (he.symm.trans hl)
    refine ⟨fun j hj => Owned.held_set_ne hopens hj, ?_⟩
    rw [Owned.held_of_opens hold, Owned.held_set_self hold hopens]
    exact hshift
  cases hturn with
  | reused hold htake =>
    exact htask rfl hold rfl (.take (by simp [puts, hold]) (.inl (takeIdle_some htake).1))
  | missed hold _ | unregistered hold => exact htask rfl hold rfl (.none (by simp [puts, hold]))
  | looked hold | woke hold _ | numbered hold | sent hold | answered hold | registered hold =>
    exact htask rfl hold rfl (.keep (by simp [puts, hold]))
  | forwent hold =>
    rcases hold with hold | hold <;> exact htask rfl hold rfl (.leave (by simp [puts, hold]))
  | exhausted hold | opened hold _ | barred hold =>
    exact htask rfl hold rfl (.leave (by simp [puts, hold]))
  | retained hold hactive =>
    refine htask rfl hold rfl (.leave fun R => ?_)
    simp only [puts, hold, ite_eq_right_iff]
    rintro ⟨rfl, hnone⟩
    simp [hnone] at hactive
  | @filled _ S _ hold hactive =>
    refine htask rfl hold rfl (.put fun R => ?_)
    simp only [puts, hold]
    by_cases hRS : S = R
    · subst hRS
      simp [hactive]
    · simp [hRS]
  | failed hevent hold _ hplace =>
    rcases hevent with rfl | ⟨_, rfl⟩ <;> rcases hold with hold | hold <;>
      rcases hplace with rfl | rfl <;> exact htask rfl hold rfl (.leave (by simp [puts, hold]))
  | dialing hold =>
    exact htask rfl hold rfl (.take (by simp [puts, hold]) (.inr (Nat.lt_succ_self _)))
  | undialed hevent hold =>
    rcases hevent with rfl | rfl | ⟨_, rfl⟩ <;> rcases hold with hold | ⟨_, hold⟩
    · exact htask rfl hold rfl (.none (by simp [puts, hold]))
    · exact htask rfl hold rfl (.leave (by simp [puts, hold]))
    · exact htask rfl hold rfl (.none (by simp [puts]))
    · exact htask rfl hold rfl (.leave (by simp [puts]))
    · exact htask rfl hold rfl (.none (by simp [puts]))
    · exact htask rfl hold rfl (.leave (by simp [puts]))
  | dialed hold => exact htask rfl hold rfl (.put (by simp [puts, hold]))
  | started hold hplace =>
    rcases hplace with rfl | rfl <;> exact htask rfl hold rfl (.leave (by simp [puts, hold]))
  | ceased hevent _ _ _ => rcases hevent with rfl | rfl | rfl <;> cases he
  | _ => cases he

theorem restage_of_task {i : ℕ} (he : taskOf e = some i) :
    restage stage s e t = passed stage i (s.held i) (t.held i) := by
  cases e <;> simp only [taskOf, some.injEq, reduceCtorEq] at he <;> subst he <;> rfl

theorem puts_of_not_task (he : taskOf e = none) (S : ℕ) : s.puts S e = none := by
  cases e <;> first | rfl | cases he

theorem frees_of_task {i : ℕ} (he : taskOf e = some i) (S : ℕ) : s.frees S e = none := by
  cases e <;> first | rfl | cases he

theorem mem_closes_of_releases {x : Session} {event : SessionEvent} {k : ℕ}
    (h : x.releases event = some k) : k ∈ x.closes ∧ ∃ waited, event = .release ∧
      x.writer = .closing k waited := by
  cases event with
  | release =>
    simp only [releases] at h
    split at h
    case h_1 l waited hw =>
      split_ifs at h
      cases h
      exact ⟨by simp [closes, closesOf, hw], waited, rfl, hw⟩
    case h_2 => cases h
  | _ => cases h

/-- What a task has, and what the others have. -/
theorem opens_iff (i : ℕ) {S k : ℕ} : s.Opens S k ↔
    s.held i = some (S, some k) ∨ ∃ j, j ≠ i ∧ s.held j = some (S, some k) := by
  constructor
  · rintro ⟨j, hj⟩
    by_cases hji : j = i
    · exact .inl (hji ▸ hj)
    · exact .inr ⟨j, hji, hj⟩
  · rintro (hi | ⟨j, -, hj⟩)
    · exact ⟨i, hi⟩
    · exact ⟨j, hj⟩

section

variable (h : Owned stage s)

include h

/-- A stream that is released has its session. -/
theorem Owned.streaming_of_frees {S k : ℕ} (hfrees : s.frees S e = some k) :
    stage S = .streaming k := by
  cases e with
  | session R event =>
    simp only [frees, ite_none_right_eq_some] at hfrees
    obtain ⟨rfl, hfrees⟩ := hfrees
    exact (h.fits R).closing k (mem_closes_of_releases hfrees).1
  | _ => cases hfrees

/-- A session that is handed back was released. -/
theorem Owned.releasing_of_returned {S now : ℕ}
    (hturn : Turn config s (.returnIdle S now) t) : ∃ l, stage S = .releasing l := by
  cases hturn with
  | returned hw _ _ => exact (h.fits S).releasing (by simp [hw, placeOf])
  | failed hevent _ _ _ => rcases hevent with hevent | ⟨_, hevent⟩ <;> cases hevent
  | undialed hevent _ => rcases hevent with hevent | hevent | ⟨_, hevent⟩ <;> cases hevent
  | ceased hevent _ _ _ => rcases hevent with hevent | hevent | hevent <;> cases hevent

/-- A task goes on: who uses the sessions then. -/
theorem Owned.uses_task {i : ℕ}
    (hothers : ∀ j, j ≠ i → t.held j = s.held j) (hshift : Shift s e (s.held i) (t.held i))
    (S k : ℕ) :
    t.Uses (passed stage i (s.held i) (t.held i)) S k ↔
      s.Uses stage S k ∨ s.puts S e = some k := by
  have hsame : (∃ j, j ≠ i ∧ t.held j = some (S, some k)) ↔
      ∃ j, j ≠ i ∧ s.held j = some (S, some k) :=
    exists_congr fun j => and_congr_right fun hji => by rw [hothers j hji]
  -- nobody else has the session that the task has
  have halone {l : Option ℕ} (hi : s.held i = some (S, l)) :
      ¬ ∃ j, j ≠ i ∧ s.held j = some (S, some k) := by
    rintro ⟨j, hji, hj⟩
    exact hji (h.unique hj hi).1
  have hmine {l : Option ℕ} (hi : s.held i = some (S, l)) : stage S = .opening i :=
    h.opening i S l hi
  unfold Uses
  rw [opens_iff i, opens_iff i, hsame]
  generalize hb : s.held i = before at hshift halone hmine ⊢
  generalize ha : t.held i = after at hshift ⊢
  cases hshift with
  | none hputs | keep hputs => simp [passed, hputs]
  | @take R hputs hR =>
    have hfree : R = S → ∀ l, stage S ≠ .streaming l := by
      rintro rfl l
      rcases hR with hR | hR
      · simp [h.pooled R hR]
      · simp [h.unborn R hR]
    by_cases hRS : R = S
    · subst hRS
      simp [passed, hputs, hfree]
    · simp [passed, hputs, update_of_ne (Ne.symm hRS)]
  | @put R l hputs =>
    by_cases hRS : R = S
    · subst hRS
      simp [passed, hputs, halone rfl, hmine rfl]
    · simp [passed, hputs, hRS]
  | @leave R l hputs =>
    by_cases hRS : R = S
    · subst hRS
      cases l <;> simp_all [passed, left]
    · simp [passed, hputs, hRS, update_of_ne (Ne.symm hRS)]

variable (hturn : Turn config s e t)

include hturn

/-- **Who uses a session after a step**: who did before, if the step releases
nothing, and whom the step puts into its slot. -/
theorem Owned.uses_turn (S k : ℕ) :
    t.Uses (restage stage s e t) S k ↔
      s.Uses stage S k ∧ s.frees S e = none ∨ s.puts S e = some k := by
  cases he : taskOf e with
  | some i =>
    obtain ⟨hothers, hshift⟩ := shift_of_turn hturn he
    rw [restage_of_task he, h.uses_task hothers hshift, frees_of_task he]
    simp
  | none =>
    have hheld := held_of_turn hturn he
    have hopens : t.Opens S k ↔ s.Opens S k := exists_congr fun j => by rw [hheld]
    simp only [puts_of_not_task he, Uses, hopens, reduceCtorEq, or_false]
    cases e with
    | session R event =>
      by_cases hRS : R = S
      · subst hRS
        simp only [restage, frees, update_self, if_true]
        cases hfrees : (s.session R).releases event with
        | none => simp [Fits.after]
        | some l =>
          -- the stream that is released has the session, and no task has
          have hstage := (h.fits R).closing l (mem_closes_of_releases hfrees).1
          have hnot : ¬ s.Opens R k := by
            rintro ⟨i, hi⟩
            simp [h.opening i R _ hi] at hstage
          simp [Fits.after, hnot]
      · simp [restage, frees, hRS, update_of_ne (Ne.symm hRS)]
    | returnIdle R now =>
      obtain ⟨l, hl⟩ := h.releasing_of_returned hturn
      by_cases hRS : R = S
      · subst hRS
        simp [restage, frees, hl]
      · simp [restage, frees, update_of_ne (Ne.symm hRS)]
    | advance i | dialed i ok | abort i timedOut => cases he
    | _ => simp [restage, frees]

/-- A session that nobody takes any more stays where it is. -/
theorem Owned.restage_of_stuck {S : ℕ}
    (hS : stage S = .lost ∨ stage S = .pooled ∧ S ∉ s.idle) : restage stage s e t S = stage S := by
  have hother {i : ℕ} : stage S ≠ .opening i ∧ stage S ≠ .streaming i ∧ stage S ≠ .releasing i ∧
      stage S ≠ .unborn := by
    rcases hS with hS | ⟨hS, -⟩ <;> simp [hS]
  cases he : taskOf e with
  | some i =>
    obtain ⟨-, hshift⟩ := shift_of_turn hturn he
    rw [restage_of_task he]
    generalize hb : s.held i = before at hshift ⊢
    generalize ha : t.held i = after at hshift ⊢
    cases hshift with
    | none _ | keep _ | put _ => rfl
    | @take R _ hR =>
      refine update_of_ne (fun hSR => ?_) _ _
      subst hSR
      rcases hR with hR | hR
      · rcases hS with hS | ⟨-, hS⟩
        · simp [h.pooled S hR] at hS
        · exact hS hR
      · exact (hother (i := 0)).2.2.2 (h.unborn S hR)
    | @leave R k _ =>
      refine update_of_ne (fun hSR => ?_) _ _
      subst hSR
      exact hother.1 (h.opening i S k hb)
  | none =>
    cases e with
    | session R event =>
      simp only [restage]
      by_cases hRS : R = S
      · subst hRS
        rw [update_self]
        cases hfrees : (s.session R).releases event with
        | none => rfl
        | some l =>
          exact absurd ((h.fits R).closing l (mem_closes_of_releases hfrees).1) hother.2.1
      · rw [update_of_ne (Ne.symm hRS)]
    | returnIdle R now =>
      refine update_of_ne (fun hSR => ?_) _ _
      subst hSR
      obtain ⟨l, hl⟩ := h.releasing_of_returned hturn
      exact hother.2.2.1 hl
    | advance i | dialed i ok | abort i timedOut => cases he
    | _ => rfl

/-- A session comes to the pool from the writer loop that releases it. -/
theorem Owned.idle_of_turn {R : ℕ}
    (hR : R ∈ t.idle) : R ∈ s.idle ∨ ∃ l, stage R = .releasing l := by
  cases hturn with
  | reused _ htake => exact .inl ((takeIdle_some htake).2.2 R hR).1
  | missed _ htake => exact .inl (takeIdle_none htake R hR)
  | unregistered _ | removed _ _ _ => exact .inl (AList.mem_erase.mp hR).2
  | returned hw hidle _ =>
    rcases hidle with rfl | ⟨rfl, -, -⟩
    · exact .inl hR
    · rcases (AList.mem_insert _).mp hR with rfl | hR
      · exact .inr ((h.fits R).releasing (by simp [hw, placeOf]))
      · exact .inl hR
  | expired hidle _ => exact .inl (hidle R hR)
  | shutdown | dropped _ => simp at hR
  | _ => exact .inl hR

end

end Client

end Vole.AnyTls
