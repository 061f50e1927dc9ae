import Vole.AnyTls.Pool

/-!
# Reusing an AnyTLS session

From the start and over every interleaving of the tasks, the loops, the
streams, the calls of `fail`, the expiry and the shutdown: a session is in
one hand, its streams have growing numbers, the pool has sessions that are
at rest, a session that was failed is in no map, and a stream reads what the
frames for it carried.
-/

namespace Vole.AnyTls

open List Function Option

namespace Session

variable {config : Config} {s t : Session} {e : SessionEvent} {calls : List Call}

/-- What a frame carries for a stream, which is the active one. -/
def payloadFor (s : Session) (k : ℕ) : SessionEvent → Bytes
  | .frame frame =>
    if frame.command = .push ∧ frame.streamId = k ∧ k ≠ 0 ∧ s.activeMatches k then frame.payload
    else []
  | _ => []

theorem pushed_answer (synAck : Bool) (result : Except IoError Unit) (stream : Stream) :
    (Stream.answer synAck result stream).pushed = stream.pushed := by
  cases synAck <;> rfl

theorem pushed_trySend (stream : Stream) (event : StreamEvent) :
    (stream.trySend config event).pushed = stream.pushed := by
  unfold Stream.trySend
  split_ifs <;> rfl

theorem pushed_failActive (error : IoError) (k : ℕ) :
    ((s.failActive config error).stream k).pushed = (s.stream k).pushed := by
  refine failActive_cases (P := fun t => (t.stream k).pushed = _) error rfl fun a _ => ?_
  refine (withStream_proj Stream.pushed ?_ k).trans rfl
  rw [Stream.broken, pushed_trySend, pushed_answer]
  rfl

/-- No access but the one that routes a frame adds to what was pushed. -/
theorem pushed_of_access (haccess : Access config s e t calls)
    (he : ∀ frame, e = .frame frame → frame.command ≠ .push) (k : ℕ) :
    (t.stream k).pushed = (s.stream k).pushed := by
  have hwith {u : Session} {j : ℕ} {f : Stream → Stream}
      (hf : (f (u.stream j)).pushed = (u.stream j).pushed) :
      ((u.withStream j f).stream k).pushed = (u.stream k).pushed := withStream_proj _ hf k
  have hsettle (waited : Bool) (result : Except IoError Unit) (stream : Stream) :
      (Stream.settle waited result stream).pushed = stream.pushed := by
    cases waited <;> rfl
  have hlose (synAck : Bool) (stream : Stream) :
      (Stream.lose synAck stream).pushed = stream.pushed := by
    cases synAck <;> rfl
  have hpoll (stream : Stream) (room : ℕ) : (stream.pollRead room).pushed = stream.pushed := by
    unfold Stream.pollRead
    split_ifs
    · rfl
    · rfl
    · split <;> rfl
  cases haccess with
  | routed _ _ hpush _ => exact absurd hpush (he _ rfl)
  | ended _ _ _ _ | chunk _ | finished _ | marked _ _ | shut _ _ _ _ | settled _ _ | forgot _ _
  | dropped _ _ _ _ | abandoned _ _ _ | deafened _ _ =>
    exact hwith rfl
  | accepted _ _ _ => exact hwith (pushed_answer _ _ _)
  | refused _ _ _ => exact hwith ((pushed_answer _ _ _).trans (pushed_trySend _ _))
  | broke _ _ => exact hwith (hsettle _ _ _)
  | misreleased _ | done _ => exact (hwith (hsettle _ _ _)).trans (hwith (hlose _ _))
  | polled _ => exact hwith (hpoll _ _)
  | _ => rfl

theorem activeTarget_of_matches {k : ℕ} (hk : k ≠ 0) (hmatches : s.activeMatches k = true) :
    s.activeTarget k = .ok (some k) := by
  unfold activeMatches at hmatches
  cases hactive : s.active with
  | none => simp [hactive] at hmatches
  | some a => simp_all [activeTarget]

/-- What `handle_server_frame` does with a payload. -/
theorem pushed_of_push {frame : Frame} (hcommand : frame.command = .push) (k : ℕ) :
    ((s.handleServerFrame config frame).1.stream k).pushed =
      (s.stream k).pushed ++ s.payloadFor k (.frame frame) := by
  -- a frame that finds no target leaves every stream as it is
  have hnone (hnot : frame.streamId = 0 ∨ s.activeTarget frame.streamId ≠ .ok (some frame.streamId)) :
      (s.stream k).pushed = (s.stream k).pushed ++ s.payloadFor k (.frame frame) := by
    have hempty : s.payloadFor k (.frame frame) = [] := by
      refine if_neg ?_
      rintro ⟨-, rfl, hzero, hmatches⟩
      rcases hnot with hnot | hnot
      · exact hzero hnot
      · exact hnot (activeTarget_of_matches hzero hmatches)
    rw [hempty, append_nil]
  simp only [handleServerFrame, hcommand]
  split_ifs with hzero
  · exact hnone (.inl hzero)
  cases htarget : s.activeTarget frame.streamId with
  | error error => exact hnone (.inr (by simp [htarget]))
  | ok target =>
    cases target with
    | none => exact hnone (.inr (by simp [htarget]))
    | some j =>
      obtain ⟨a, hactive, ha, rfl⟩ := activeTarget_some htarget
      simp only [withStream_stream, payloadFor, hcommand, activeMatches, hactive, any_some]
      by_cases hk : k = frame.streamId
      · subst hk
        simp [ha, hzero]
      · simp [hk, Ne.symm hk]

/-- **What an access pushes is what its frame carries for the stream.** -/
theorem pushed_of_step (h : s.step config e = some (t, calls)) (k : ℕ) :
    (t.stream k).pushed = (s.stream k).pushed ++ s.payloadFor k e := by
  by_cases hpush : ∃ frame, e = .frame frame ∧ frame.command = .push
  · obtain ⟨frame, rfl, hcommand⟩ := hpush
    simp only [step, ite_none_right_eq_some, some.injEq] at h
    have hframe : ((s.handleServerFrame config frame).1.stream k).pushed =
        (s.stream k).pushed ++ s.payloadFor k (.frame frame) := pushed_of_push hcommand k
    rwa [h.2] at hframe
  · have hnone : s.payloadFor k e = [] := by
      cases e with
      | frame frame =>
        have hcommand : frame.command ≠ .push := fun hcommand => hpush ⟨frame, rfl, hcommand⟩
        simp [payloadFor, hcommand]
      | _ => rfl
    rw [hnone, append_nil]
    exact pushed_of_access (access_of_step h) (fun frame he hcommand => hpush ⟨frame, he, hcommand⟩) k

end Session

namespace Client

open Session

variable {config : Config} {s t : Client} {e : ClientEvent} {stage : ℕ → Stage}
  {history : List (Client × ClientEvent)}

/-- What the client and everybody around it do, from the start. -/
def Runs (config : Config) (history : List (Client × ClientEvent)) (t : Client) : Prop :=
  Run (fun s e t => s.step config e = some t) new history t

/-- The stream that a step puts into the slot of a session. -/
def puts (s : Client) (S : ℕ) : ClientEvent → Option ℕ
  | .advance i =>
    match s.opens[i]? with
    | some (.numbered R k) => if R = S ∧ (s.session S).active = none then some k else none
    | _ => none
  | .dialed i true =>
    match s.opens[i]? with
    | some (.dialing R) => if R = S then some 1 else none
    | _ => none
  | _ => none

/-- The streams of a session, the first one first. -/
def opened (history : List (Client × ClientEvent)) (S : ℕ) : List ℕ :=
  history.filterMap fun (s, e) => s.puts S e

/-- What the frames for a stream carried while it was the active one. -/
def framesFor (history : List (Client × ClientEvent)) (S k : ℕ) : Bytes :=
  history.flatMap fun (s, e) =>
    match e with
    | .session R event => if R = S then (s.session S).payloadFor k event else []
    | _ => []

/-- A stream of a session is in use: it is in the slot, it can be read and
written, it waits to be closed, or a task opens it. -/
def InUse (s : Client) (S k : ℕ) : Prop :=
  (s.session S).slot = some k ∨ (s.session S).closable k = true ∨ k ∈ (s.session S).closes ∨
    s.Opens S k

theorem opened_next (S : ℕ) :
    opened (history ++ [(s, e)]) S = opened history S ++ (s.puts S e).toList := by
  unfold opened
  cases h : s.puts S e <;> simp [h]

/-! ## What a stream is given -/

/-- No step but the access of a session adds to what was pushed. -/
theorem pushed_of_turn (hsound : Sound stage s) (hturn : Turn config s e t)
    (he : ∀ S event, e ≠ .session S event) (R k : ℕ) :
    ((t.session R).stream k).pushed = ((s.session R).stream k).pushed := by
  have hone {S : ℕ} {x : Session} (hsession : t.session = update s.session S x)
      (hx : ∀ k, (x.stream k).pushed = ((s.session S).stream k).pushed) :
      ((t.session R).stream k).pushed = ((s.session R).stream k).pushed := by
    rw [hsession]
    by_cases hRS : R = S
    · subst hRS
      rw [update_self, hx]
    · rw [update_of_ne hRS]
  cases hturn with
  | @filled i S k hold _ =>
    -- the number is new, so nothing was pushed to it
    have hbelow := ((hsound.ready i _ hold).numbered S k rfl).2
    refine hone rfl fun j => ?_
    refine (withStream_proj Stream.pushed ?_ j).trans rfl
    rw [show ({ s.session S with active := some ⟨k, true⟩, openDone := none } : Session).stream k =
      {} from hbelow.pristine k le_rfl]
    rfl
  | @dialed i S hold =>
    have hdormant := hsound.quiet.dormant S (.inr ⟨i, .inl hold⟩)
    exact hone rfl fun j => ((Dormant.prepared _).pushed j).trans (hdormant.pushed j).symm
  | failed _ _ _ _ | opened _ _ | barred _ | started _ _ => exact hone rfl (withStream_proj _ rfl)
  | took _ _ => exact hone rfl (pushed_failActive _)
  | accessed _ => exact absurd rfl (he _ _)
  | _ => first | rfl | exact hone rfl fun _ => rfl

/-- **What was pushed to a stream is what the frames for it carried.** -/
theorem pushed_next (hsound : Sound stage s) (hstep : s.step config e = some t)
    (h : ∀ S k, ((s.session S).stream k).pushed = framesFor history S k) (S k : ℕ) :
    ((t.session S).stream k).pushed = framesFor (history ++ [(s, e)]) S k := by
  have hturn := turn_of_step hstep
  unfold framesFor at h ⊢
  rw [flatMap_append, ← h, flatMap_singleton]
  cases e with
  | session R event =>
    obtain ⟨⟨session, calls⟩, haccess, rfl⟩ := map_eq_some_iff.mp hstep
    show ((update s.session R session S).stream k).pushed = _
    by_cases hRS : R = S
    · subst hRS
      rw [update_self, pushed_of_step haccess k]
      simp
    · rw [update_of_ne (Ne.symm hRS)]
      simp [hRS]
  | _ => simpa using pushed_of_turn hsound hturn (by simp) S k

/-! ## The numbers of the streams -/

/-- **What the numbers of the streams tell.** -/
structure Numbered (history : List (Client × ClientEvent)) (s : Client) : Prop where
  fresh : ∀ S, s.nextSequence < S ∨ (∃ i : ℕ, s.opens[i]? = some (.dialing S)) →
    opened history S = []
  le : ∀ S, ∀ k ∈ opened history S, k ≤ (s.session S).nextStreamId
  last : ∀ (i : ℕ) S k, s.opens[i]? = some (.numbered S k) → ∀ l ∈ opened history S, l < k
  increasing : ∀ S, (opened history S).Pairwise (· < ·)

namespace Numbered

/-- A task goes on to a place that the numbers permit. -/
def Permits (history : List (Client × ClientEvent)) (place : Opening) : Prop :=
  (∀ S, place = .dialing S → opened history S = []) ∧
    ∀ S k, place = .numbered S k → ∀ l ∈ opened history S, l < k

/-- No stream is put into a slot. -/
theorem keep (h : Numbered history s) (hputs : ∀ S, s.puts S e = none)
    (hopens : ∀ (j : ℕ) place, t.opens[j]? = some place →
      s.opens[j]? = some place ∨ Permits history place)
    (hnext : s.nextSequence ≤ t.nextSequence)
    (hsession : ∀ S, (s.session S).nextStreamId ≤ (t.session S).nextStreamId) :
    Numbered (history ++ [(s, e)]) t := by
  have hsame (S : ℕ) : opened (history ++ [(s, e)]) S = opened history S := by
    rw [opened_next, hputs]
    simp
  constructor
  · intro S hS
    rw [hsame]
    rcases hS with hS | ⟨i, hi⟩
    · exact h.fresh S (.inl (by omega))
    · rcases hopens i _ hi with hi | hpermits
      · exact h.fresh S (.inr ⟨i, hi⟩)
      · exact hpermits.1 S rfl
  · intro S k hk
    rw [hsame] at hk
    exact (h.le S k hk).trans (hsession S)
  · intro i S k hi
    rw [hsame]
    rcases hopens i _ hi with hi | hpermits
    · exact h.last i S k hi
    · exact hpermits.2 S k rfl
  · intro S
    rw [hsame]
    exact h.increasing S

/-- A stream is put into the slot of `S`, by the task that has it. -/
theorem put (h : Numbered history s) {i S k : ℕ} {old place : Opening}
    (hputs : ∀ R, s.puts R e = if S = R then some k else none)
    (hold : s.opens[i]? = some old) (hheld : old.holding = some (S, none))
    (howned : Owned stage s) (hplace : ∀ R l, place ≠ .dialing R ∧ place ≠ .numbered R l)
    (hopens : t.opens = s.opens.set i place) (hnext : t.nextSequence = s.nextSequence)
    (hsession : ∀ R, (s.session R).nextStreamId ≤ (t.session R).nextStreamId)
    (hlast : ∀ l ∈ opened history S, l < k) (hle : k ≤ (t.session S).nextStreamId) :
    Numbered (history ++ [(s, e)]) t := by
  have hi : s.held i = some (S, none) := (Owned.held_of_opens hold).trans hheld
  have hself : opened (history ++ [(s, e)]) S = opened history S ++ [k] := by
    rw [opened_next, hputs, if_pos rfl]
    rfl
  have hother {R : ℕ} (hR : R ≠ S) : opened (history ++ [(s, e)]) R = opened history R := by
    rw [opened_next, hputs, if_neg (Ne.symm hR)]
    simp
  -- no other task has the session
  have hrest {j : ℕ} {new : Opening} (hj : t.opens[j]? = some new)
      (hnew : ¬ ∀ R l, new ≠ .dialing R ∧ new ≠ .numbered R l) :
      s.opens[j]? = some new ∧ ∀ R l, new.holding = some (R, l) → R ≠ S := by
    rcases Owned.of_set hopens hj with ⟨-, rfl⟩ | ⟨hji, hj⟩
    · exact absurd hplace hnew
    · refine ⟨hj, ?_⟩
      rintro R l hl rfl
      exact hji (howned.unique ((Owned.held_of_opens hj).trans hl) hi).1
  constructor
  · intro R hR
    have hRS : R ≠ S := by
      rcases hR with hR | ⟨j, hj⟩
      · rintro rfl
        have hstage := howned.opening i R none hi
        simp [howned.unborn R (hnext ▸ hR)] at hstage
      · exact (hrest hj (by simp)).2 R none rfl
    rw [hother hRS]
    exact h.fresh R (hR.imp (hnext ▸ ·) fun ⟨j, hj⟩ => ⟨j, (hrest hj (by simp)).1⟩)
  · intro R l hl
    by_cases hRS : R = S
    · subst hRS
      rw [hself] at hl
      rcases mem_append.mp hl with hl | hl
      · exact (h.le R l hl).trans (hsession R)
      · rwa [mem_singleton.mp hl]
    · rw [hother hRS] at hl
      exact (h.le R l hl).trans (hsession R)
  · intro j R l hj
    obtain ⟨hj, hne⟩ := hrest hj (by simp)
    rw [hother (hne R none rfl)]
    exact h.last j R l hj
  intro R
  by_cases hRS : R = S
  · subst hRS
    rw [hself]
    refine pairwise_append.mpr ⟨h.increasing R, pairwise_singleton _ _, ?_⟩
    intro l hl m hm
    rw [mem_singleton.mp hm]
    exact hlast l hl
  · rw [hother hRS]
    exact h.increasing R

theorem init : Numbered [] new where
  fresh _ _ := rfl
  le := by simp [opened]
  last := by simp [opened]
  increasing := by simp [opened]

/-- **The next step.** -/
theorem next (h : Numbered history s) (hsound : Sound stage s) (hturn : Turn config s e t) :
    Numbered (history ++ [(s, e)]) t := by
  have hgrow := (Effect.of_turn hsound.owned hsound.quiet hsound.ready hsound.below
    hturn).nextStreamId_le
  have hset {i : ℕ} {new : Opening} (hopens : t.opens = s.opens.set i new)
      (hnew : Permits history new) (j : ℕ) (place : Opening) (hj : t.opens[j]? = some place) :
      s.opens[j]? = some place ∨ Permits history place := by
    rcases Owned.of_set hopens hj with ⟨-, rfl⟩ | ⟨-, hj⟩
    · exact .inr hnew
    · exact .inl hj
  cases hturn with
  | began _ =>
    refine h.keep (fun _ => rfl) (fun j place hj => ?_) le_rfl hgrow
    by_cases hjl : j = s.opens.length
    · refine .inr ?_
      obtain rfl : Opening.taking = place := by simpa [hjl] using hj
      simp [Permits]
    · exact .inl (by simpa only [Owned.getElem?_begin hjl] using hj)
  | reused hold _ | missed hold _ | looked hold | woke hold _ | exhausted hold | sent hold
  | answered hold | opened hold _ | barred hold | registered hold | unregistered hold =>
    exact h.keep (by simp [puts, hold]) (hset rfl (by simp [Permits])) le_rfl hgrow
  | forwent hold =>
    rcases hold with hold | hold <;>
      exact h.keep (by simp [puts, hold]) (hset rfl (by simp [Permits])) le_rfl hgrow
  | @numbered i S hold =>
    refine h.keep (by simp [puts, hold]) (hset rfl ⟨by simp, fun R k hk l hl => ?_⟩) le_rfl hgrow
    obtain ⟨rfl, rfl⟩ : S = R ∧ (s.session S).nextStreamId + 1 = k := by simpa using hk
    exact Nat.lt_succ_of_le (h.le S l hl)
  | @retained i S k _ hold hactive =>
    refine h.keep (fun R => ?_) (hset rfl (by simp [Permits])) le_rfl hgrow
    simp only [puts, hold, ite_eq_right_iff]
    rintro ⟨rfl, hnone⟩
    simp [hnone] at hactive
  | @filled i S k hold hactive =>
    have hk := ((hsound.ready i _ hold).numbered S k rfl).1
    refine h.put (fun R => ?_) hold rfl hsound.owned (by simp) rfl rfl hgrow (h.last i S k hold)
      ((hk.trans_le (hgrow S)))
    simp only [puts, hold]
    by_cases hRS : S = R
    · subst hRS
      simp [hactive]
    · simp [hRS]
  | failed he hold _ hplace =>
    rcases he with rfl | ⟨_, rfl⟩ <;> rcases hold with hold | hold <;>
      rcases hplace with rfl | rfl <;>
        exact h.keep (by simp [puts, hold]) (hset rfl (by simp [Permits])) le_rfl hgrow
  | dialing hold =>
    refine h.keep (by simp [puts, hold]) (hset rfl ⟨fun R hR => ?_, by simp⟩) (Nat.le_succ _) hgrow
    obtain rfl : s.nextSequence + 1 = R := by simpa using hR
    exact h.fresh _ (.inl (Nat.lt_succ_self _))
  | undialed he hold =>
    rcases hold with hold | ⟨_, hold⟩ <;> rcases he with rfl | rfl | ⟨_, rfl⟩ <;>
      exact h.keep (by simp [puts, hold]) (hset rfl (by simp [Permits])) le_rfl hgrow
  | @dialed i S hold =>
    have hnone : opened history S = [] := h.fresh S (.inr ⟨i, hold⟩)
    refine h.put (k := 1) (by simp [puts, hold]) hold rfl hsound.owned (by simp) rfl rfl hgrow
      (by simp [hnone]) ?_
    simp [goOn, Session.prepared]
  | started hold hplace =>
    rcases hplace with rfl | rfl <;>
      exact h.keep (by simp [puts, hold]) (hset rfl (by simp [Permits])) le_rfl hgrow
  | ceased he _ _ _ =>
    rcases he with rfl | rfl | rfl <;>
      exact h.keep (fun _ => rfl) (fun _ _ => .inl) le_rfl hgrow
  | _ => exact h.keep (fun _ => rfl) (fun _ _ => .inl) le_rfl hgrow

end Numbered

/-! ## Every run -/

theorem Runs.sound (h : Runs config history t) : ∃ stage, Sound stage t :=
  Run.invariant (I := fun s => ∃ stage, Sound stage s) h ⟨_, .init⟩
    fun _ _ _ ⟨_, hsound⟩ hstep => ⟨_, hsound.turn (turn_of_step hstep)⟩

theorem Runs.numbered (h : Runs config history t) : Numbered history t := by
  induction h with
  | start => exact .init
  | next hrun hstep ih =>
    obtain ⟨stage, hsound⟩ := Runs.sound hrun
    exact ih.next hsound (turn_of_step hstep)

theorem Runs.pushed (h : Runs config history t) (S k : ℕ) :
    ((t.session S).stream k).pushed = framesFor history S k := by
  induction h generalizing S k with
  | start => rfl
  | next hrun hstep ih =>
    obtain ⟨stage, hsound⟩ := Runs.sound hrun
    exact pushed_next hsound hstep ih S k

/-- A stream that is in use has the session, or the task that opens it. -/
theorem Owned.uses_of_inUse (h : Owned stage s) {S k : ℕ} (hk : s.InUse S k) : s.Uses stage S k := by
  have hfits := h.fits S
  rcases hk with hk | hk | hk | hk
  · exact hfits.slot k hk
  · exact .inl (hfits.closable k hk)
  · exact .inl (hfits.closing k hk)
  · exact .inr hk

/-- **One stream at a time**: of two streams of a session that are in use,
one is the other. -/
theorem Owned.inUse_unique (h : Owned stage s) {S j k : ℕ} (hj : s.InUse S j) (hk : s.InUse S k) :
    j = k :=
  h.uses_unique (h.uses_of_inUse hj) (h.uses_of_inUse hk)

/-- A session that a task has is used by no stream but the one that the task
opens. -/
theorem Owned.inUse_of_held (h : Owned stage s) {i S k : ℕ} {l : Option ℕ}
    (hi : s.held i = some (S, l)) (hk : s.InUse S k) : l = some k := by
  have hmine := h.mine hi
  obtain ⟨hcloses, -, hclosable⟩ := hmine.untaken
  rcases hk with hk | hk | hk | ⟨j, hj⟩
  · simpa using hmine.slot k hk
  · simp [hclosable k] at hk
  · simp [hcloses] at hk
  · exact (h.unique hi hj).2

/-- A session in the pool is used by nobody. -/
theorem Owned.not_inUse_of_idle (h : Owned stage s) {S k : ℕ} (hS : S ∈ s.idle) :
    ¬ s.InUse S k := by
  have hstage := h.pooled S hS
  have hfits := h.fits S
  have hopens : ¬ s.Opens S k := by
    rintro ⟨i, hi⟩
    simp [h.opening i S _ hi] at hstage
  rintro (hk | hk | hk | hk)
  · rcases hfits.slot k hk with hk | hk
    · simp [hstage] at hk
    · exact hopens hk
  · simpa [hstage] using hfits.closable k hk
  · simpa [hstage] using hfits.closing k hk
  · exact hopens hk

/-- **Reuse is exclusive.** No session is handed to two opens, and none that
is in the pool. Of the streams of a session one is in use, which the open
that has the session opens, and their numbers grow. A session in the pool is
idle or closed, with an empty slot. Once the call of `fail` that closed a
session has returned, the session is in no map. What a stream reads is what
the frames for it carried while it was the active one, in order. -/
theorem reuse_exclusive (h : Runs config history t) :
    (∀ i j S k l, t.held i = some (S, k) → t.held j = some (S, l) → i = j) ∧
      (∀ i S k, t.held i = some (S, k) → S ∉ t.idle) ∧
      (∀ S j k, t.InUse S j → t.InUse S k → j = k) ∧
      (∀ i S l k, t.held i = some (S, l) → t.InUse S k → l = some k) ∧
      (∀ S, (opened history S).Pairwise (· < ·)) ∧
      (∀ S, S ∈ t.idle → ((t.session S).state = .idle ∨ (t.session S).state = .closed) ∧
        (t.session S).active = none ∧ ∀ k, ¬ t.InUse S k) ∧
      (∀ f ∈ t.fails, f.place = .returned → f.sequence ∉ t.idle ∧ f.sequence ∉ t.sessions) ∧
      ∀ S k, ((t.session S).stream k).read <+: framesFor history S k := by
  obtain ⟨stage, hsound⟩ := h.sound
  have howned := hsound.owned
  refine ⟨fun i j S k l hi hj => (howned.unique hi hj).1, fun i S k hi hS => ?_,
    fun S j k => howned.inUse_unique, fun i S l k => howned.inUse_of_held, h.numbered.increasing,
    fun S hS => ?_, fun f hf hplace => ?_, fun S k => ?_⟩
  · have hstage := howned.opening i S k hi
    simp [howned.pooled S hS] at hstage
  · have hnot (k : ℕ) : ¬ t.InUse S k := howned.not_inUse_of_idle hS
    have hstate : (t.session S).state ≠ .active := (howned.fits S).resting (howned.pooled S hS)
    refine ⟨?_, ?_, hnot⟩
    · cases hcase : (t.session S).state with
      | active => exact absurd hcase hstate
      | idle => exact .inl rfl
      | closed => exact .inr rfl
    · by_contra hactive
      obtain ⟨a, ha⟩ := ne_none_iff_exists'.mp hactive
      exact hnot a.streamId (.inl (by simp [slot, ha]))
  · have hgone := hsound.mapped.gone f hf hplace
    exact ⟨fun hidle => hgone (hsound.mapped.idle _ hidle), hgone⟩
  · rw [← h.pushed S k]
    exact (hsound.faithful S).read k

section Samples

/-- A client that reads every settings frame as version 2. -/
def sampleConfig : Config where
  incomingCapacity := 1
  maxStreamChunk := 8
  chunk_pos := by decide
  parseServerVersion := fun _ => .ok 2

/-- The first stream is opened. -/
def sampleOpen : List ClientEvent :=
  [.begin, .advance 0, .advance 0, .dialed 0 true, .advance 0, .advance 0]

/-- A stream is shut down, and its session goes to the pool. -/
def sampleClose (k : ℕ) : List ClientEvent :=
  [.session 1 (.shutdown k), .session 1 .receive, .session 1 .start, .session 1 (.written (.ok ())),
    .session 1 .release, .session 1 .release, .session 1 .release, .session 1 .release,
    .returnIdle 1 0, .session 1 .release]

/-- The task `i` takes the session from the pool and opens another stream. -/
def sampleReuse (i : ℕ) : List ClientEvent :=
  [.begin, .advance i, .advance i, .advance i, .advance i, .advance i, .advance i,
    .session 1 .receive, .session 1 .start, .session 1 (.written (.ok ())), .advance i, .advance i]

/-- A late frame of the first stream, and one of the second, which is
read. -/
def sampleRead : List ClientEvent :=
  [.session 1 (.frame ⟨.push, 1, [7]⟩), .session 1 (.frame ⟨.push, 2, [8, 9]⟩), .session 1 .check,
    .session 1 .send, .session 1 (.read 2 4), .session 1 (.read 2 1)]

/-- The second stream of a session reads what was sent to it. -/
def sampleEvents : List ClientEvent := sampleOpen ++ sampleClose 1 ++ sampleReuse 1 ++ sampleRead

/-- **A session that is used twice.** -/
theorem reuse_exclusive_sample : ∃ history t, Runs sampleConfig history t ∧
    opened history 1 = [1, 2] ∧ ((t.session 1).stream 2).read = [8] ∧
    framesFor history 1 2 = [8, 9] ∧ ((t.session 1).stream 2).read <+: framesFor history 1 2 := by
  obtain ⟨t, hrun, hread⟩ := run_of_exec_any (fun s e => s.step sampleConfig e) (s := new)
    sampleEvents (fun t => ((t.session 1).stream 2).read = [8]) (by decide +kernel)
  obtain ⟨-, -, -, -, -, -, -, hreads⟩ := reuse_exclusive hrun
  exact ⟨_, t, hrun, by decide +kernel, hread, by decide +kernel, hreads 1 2⟩

/-- The writer and the reader of a session in the pool fail it, the reader
while the writer is still at it. -/
def sampleFail : List ClientEvent :=
  sampleOpen ++ sampleClose 1 ++
    [.session 1 (.frame ⟨.heartRequest, 0, []⟩), .session 1 .respond, .session 1 .receive,
      .session 1 .start, .session 1 (.written (.error ⟨.brokenPipe, "broken pipe"⟩)),
      .session 1 (.readFailed ⟨.connectionAborted, "connection aborted"⟩), .fail 0, .fail 1]

/-- **A call of `fail` that finds the session closed returns while the
session is still in both maps.** -/
theorem failed_in_maps : ¬ ∀ config history t, Runs config history t → ∀ f ∈ t.fails,
    f.place = .returned ∨ f.place = .skipped → f.sequence ∉ t.idle ∧ f.sequence ∉ t.sessions := by
  intro hall
  obtain ⟨t, hrun, hfails⟩ := run_of_exec_any (fun s e => s.step sampleConfig e) (s := new) sampleFail
    (fun t => t.fails.any fun f =>
      f.place = .skipped ∧ f.sequence ∈ t.idle ∧ f.sequence ∈ t.sessions) (by decide +kernel)
  obtain ⟨f, hf, hplace⟩ := any_eq_true.mp hfails
  obtain ⟨hplace, -, hsessions⟩ := of_decide_eq_true hplace
  exact (hall sampleConfig _ t hrun f hf (.inr hplace)).2 hsessions

end Samples

end Client

end Vole.AnyTls
