import Vole.AnyTls.Client
import Vole.Common.Count

/-!
# Who has an AnyTLS session

At every moment a session is in one hand: it is in the pool, a task opens a
stream on it, a stream uses it, or the writer loop releases it. The hand is
its `Stage`, and `Owned` is what the maps, the slot, the commands and the
tasks say about it. A step of the client changes the stage of one session
(`restage`).
-/

namespace Vole.AnyTls

open List Function Session

namespace Session

variable {config : Config} {s t : Session} {e : SessionEvent} {calls : List Call}

/-- The stream in the slot. -/
def slot (s : Session) : Option ℕ := s.active.map (·.streamId)

/-- The stream that an access releases. -/
def releases (s : Session) : SessionEvent → Option ℕ
  | .release =>
    match s.writer with
    | .closing k _ => if s.active.isSome then some k else none
    | _ => none
  | _ => none

/-- A change that takes the session for nobody. -/
structure Calm (s t : Session) : Prop where
  slot : ∀ k, t.slot = some k → s.slot = some k
  state : t.state = .active → s.state = .active
  place : placeOf t.writer ≠ none → placeOf s.writer ≠ none
  freed : placeOf t.writer = some .freed → t.state = .active → placeOf s.writer = some .freed
  closable : ∀ k, t.closable k = true → s.closable k = true

/-- What an access means for who has the session: nothing, a stream asks to
be closed, or a stream is released. -/
inductive Moves (s : Session) (e : SessionEvent) (t : Session) : Prop
  | rest : s.releases e = none → Calm s t → t.closes.Sublist s.closes → Moves s e t
  | ask (k : ℕ) : s.releases e = none → Calm s t → s.closable k = true → t.closable k = false →
    t.closes = s.closes ++ [k] → Moves s e t
  | take (k : ℕ) : s.releases e = some k → s.closes = k :: t.closes → t.slot = none →
    placeOf t.writer = some .taken → (∀ j, t.closable j = true → s.closable j = true) →
    Moves s e t

theorem releases_of_ne (h : e ≠ .release) : s.releases e = none := by
  cases e <;> first | rfl | exact absurd rfl h

theorem releases_of_releasing {k : ℕ} {waited : Bool} {place : Place} {a : ActiveStream}
    (h : s.writer = .releasing k waited place a) : s.releases .release = none := by
  simp [releases, h]

theorem placeOf_unreleasing {w : Writer} (h : Unreleasing w) : placeOf w = none := by
  cases w with
  | releasing k waited place a => exact absurd rfl (h k waited place a)
  | _ => rfl

namespace Calm

theorem refl (s : Session) : Calm s s := ⟨fun _ => id, id, id, fun h _ => h, fun _ => id⟩

/-- The writer and the state stay, and so do the streams. -/
theorem of_eq (hslot : ∀ k, t.slot = some k → s.slot = some k) (hstate : t.state = s.state)
    (hwriter : t.writer = s.writer) (hstream : t.stream = s.stream) : Calm s t where
  slot := hslot
  state h := hstate ▸ h
  place h := hwriter ▸ h
  freed h _ := hwriter ▸ h
  closable k h := by simpa only [Session.closable, hstream] using h

/-- The writer goes somewhere that is not in `release_stream`, or on in
it. -/
theorem of_writer (hslot : t.slot = s.slot) (hstate : t.state = s.state)
    (hplace : placeOf t.writer ≠ none → placeOf s.writer ≠ none)
    (hfreed : placeOf t.writer ≠ some .freed) (hstream : t.stream = s.stream) : Calm s t where
  slot k h := hslot ▸ h
  state h := hstate ▸ h
  place := hplace
  freed h _ := absurd h hfreed
  closable k h := by simpa only [Session.closable, hstream] using h

theorem trans {u : Session} (h : Calm s t) (h' : Calm t u) : Calm s u where
  slot k hk := h.slot k (h'.slot k hk)
  state hu := h.state (h'.state hu)
  place hu := h.place (h'.place hu)
  freed hu hstate := h.freed (h'.freed hu hstate) (h'.state hstate)
  closable k hk := h.closable k (h'.closable k hk)

theorem withStream {k : ℕ} {f : Stream → Stream}
    (hf : (f (s.stream k)).handle = true → (f (s.stream k)).closeQueued = false →
      (s.stream k).handle = true ∧ (s.stream k).closeQueued = false) :
    Calm s (s.withStream k f) := by
  refine ⟨fun _ => id, id, id, fun h _ => h, fun j hj => ?_⟩
  unfold Session.closable at hj ⊢
  rw [withStream_stream] at hj
  split_ifs at hj with hk
  · subst hk
    simp only [Bool.and_eq_true, Bool.not_eq_true'] at hj ⊢
    exact hf hj.1 hj.2
  · exact hj

/-- A change that leaves what the closing of a stream depends on. -/
theorem touch {k : ℕ} {f : Stream → Stream}
    (hf : Orderly.standing (f (s.stream k)) = Orderly.standing (s.stream k)) :
    Calm s (s.withStream k f) := by
  simp only [Orderly.standing, Prod.mk.injEq] at hf
  refine withStream fun hhandle hqueued => ?_
  rw [← hf.1, ← hf.2.1]
  exact ⟨hhandle, hqueued⟩

end Calm

theorem Moves.close {k : ℕ} {finish waited : Bool} {f : Stream → Stream}
    (he : s.releases e = none) (hk : s.closable k = true)
    (hf : ∀ stream, (f stream).closeQueued = true) :
    Moves s e ((s.enqueue (.closeStream k finish waited)).withStream k f) := by
  have hcalm : Calm s (s.enqueue (.closeStream k finish waited)) :=
    .of_eq (fun _ => id) rfl rfl rfl
  have hstream : Calm (s.enqueue (.closeStream k finish waited))
      ((s.enqueue (.closeStream k finish waited)).withStream k f) :=
    .withStream (by simp [hf])
  refine .ask k he (hcalm.trans hstream) hk ?_ ?_
  · simp [closable, hf]
  · show (s.enqueue (.closeStream k finish waited)).closes = s.closes ++ [k]
    exact closes_enqueue _

/-- **An access moves a session in one of these ways.** -/
theorem moves_of_access (h : Orderly s) (haccess : Access config s e t calls) : Moves s e t := by
  have hread {r : Reader} : Calm s { s with reader := r } := .of_eq (fun _ => id) rfl rfl rfl
  have hsettle {u : Session} {k : ℕ} {waited : Bool} {result : Except IoError Unit} :
      Calm u (u.withStream k (Stream.settle waited result)) := by
    cases waited <;> exact .withStream fun hhandle hqueued => ⟨hhandle, hqueued⟩
  cases haccess with
  | turned _ _ _ hqueue _ he =>
    refine .rest (releases_of_ne he) (.of_eq (fun _ => id) rfl rfl rfl) ?_
    simp [closes, hqueue]
  | routed _ _ _ _ | ended _ _ _ _ | chunk _ | finished _ =>
    exact .rest rfl (hread.trans (.touch rfl)) (by simp [closes])
  | @accepted _ a _ hactive _ =>
    have hslot : Calm s { s with active := some { a with synAck := false }, reader := .reading } :=
      .of_eq (by simp [slot, hactive]) rfl rfl rfl
    exact .rest rfl (hslot.trans (.touch (Orderly.standing_answer _ _ _))) (by simp [closes])
  | @refused _ a _ hactive _ =>
    have hslot : Calm s { s with active := some { a with synAck := false }, reader := .stopped } :=
      .of_eq (by simp [slot, hactive]) rfl rfl rfl
    have hstanding := fun stream : Stream => (Orderly.standing_answer a.synAck (.error rejection)
      ((stream.fail rejection).trySend config (.failed rejection))).trans
        (Orderly.standing_trySend _ _)
    exact .rest rfl (hslot.trans (.touch (hstanding _))) (by simp [closes])
  | checked _ | passed _ _ => exact .rest rfl hread (by simp [closes])
  | wrote hcloses _ hw _ _ _ he =>
    have hplace := placeOf_unreleasing hw
    exact .rest (releases_of_ne he) (.of_writer rfl rfl (by simp [hplace]) (by simp [hplace]) rfl)
      hcloses
  | @broke e k _ _ hk hactive =>
    have hcalm : Calm s { s with writer := .stopped, queue := [] } :=
      .of_writer rfl rfl (by simp [placeOf]) (by simp [placeOf]) rfl
    refine .rest ?_ (hcalm.trans hsettle) (by simp [closes, closesOf])
    by_cases he : e = .release
    · subst he
      simp only [releases, hactive rfl]
      split <;> rfl
    · exact releases_of_ne he
  | misreleased hw =>
    have hcalm : Calm s { s with writer := .stopped, queue := [] } :=
      .of_writer rfl rfl (by simp [placeOf]) (by simp [placeOf]) rfl
    exact .rest (releases_of_releasing hw)
      ((hcalm.trans (.touch (Orderly.standing_lose _ _))).trans hsettle)
      (by simp [closes, closesOf])
  | @taken k _ _ hw hactive =>
    exact .take k (by simp [releases, hw, hactive]) (by simp [closes, hw, closesOf]) rfl rfl
      fun _ => id
  | @marked k waited a hw _ =>
    have hcalm : Calm s { s with writer := .releasing k waited .marked a } :=
      .of_writer rfl rfl (by simp [hw, placeOf]) (by simp [placeOf]) rfl
    exact .rest (releases_of_releasing hw) (hcalm.trans (.touch rfl))
      (by simp [closes, closesOf, hw])
  | unclosed hw _ =>
    exact .rest (releases_of_releasing hw)
      (.of_writer rfl rfl (by simp [hw, placeOf]) (by simp [placeOf]) rfl)
      (by simp [closes, closesOf, hw])
  | freed hw _ =>
    refine .rest (releases_of_releasing hw) ?_ (by simp [closes, closesOf, hw])
    exact ⟨fun _ => id, by simp, by simp [hw, placeOf], by simp, fun _ => id⟩
  | done hw =>
    have hcalm : Calm s { s with writer := .waiting } :=
      .of_writer rfl rfl (by simp [placeOf]) (by simp [placeOf]) rfl
    exact .rest (releases_of_releasing hw)
      ((hcalm.trans (.touch (Orderly.standing_lose _ _))).trans hsettle)
      (by simp [closes, closesOf, hw])
  | polled _ => exact .rest rfl (.touch (Orderly.standing_pollRead _ _)) (by simp [closes])
  | sent _ hcommand he =>
    exact .rest (releases_of_ne he) (.of_eq (fun _ => id) rfl rfl rfl)
      (by simp [closes_enqueue, hcommand])
  | @shut k _ hhandle hclosed hpending hw =>
    -- a stream that waits for an answer does not ask again
    have hqueued : (s.stream k).closeQueued = false := by
      by_contra hqueued
      rcases h.waits k hhandle (by simpa using hqueued) hclosed with hwaits | hstopped
      · exact hwaits hpending
      · exact hw hstopped
    exact .close rfl (by simp [closable, hhandle, hqueued]) fun _ => rfl
  | settled _ _ => exact .rest rfl (.withStream fun h1 h2 => ⟨h1, h2⟩) (by simp [closes])
  | forgot _ _ | abandoned _ _ _ => exact .rest rfl (.withStream (by simp)) (by simp [closes])
  | dropped hhandle _ hqueued _ =>
    exact .close rfl (by simp [closable, hhandle, hqueued]) fun _ => rfl
  | deafened _ _ => exact .rest rfl (.touch rfl) (by simp [closes])

end Session

/-! ## Stages -/

/-- In whose hand a session is. -/
inductive Stage where
  | unborn
  | pooled
  | opening (i : ℕ)
  | streaming (k : ℕ)
  | releasing (k : ℕ)
  | lost
  deriving DecidableEq

open Session

section Fits

variable {config : Config} {s t : Session} {e : SessionEvent} {stage : Stage} {opened : ℕ → Prop}

/-- **A session is as its stage says.** `opened` are the streams that a task
which has the session has put into its slot. -/
structure Fits (stage : Stage) (opened : ℕ → Prop) (s : Session) : Prop where
  slot : ∀ k, s.slot = some k → stage = .streaming k ∨ opened k
  releasing : placeOf s.writer ≠ none → ∃ k, stage = .releasing k
  resting : stage = .pooled → s.state ≠ .active
  freed : placeOf s.writer = some .freed → s.state ≠ .active
  closable : ∀ k, s.closable k = true → stage = .streaming k
  closing : ∀ k ∈ s.closes, stage = .streaming k
  single : s.closes.length ≤ 1

namespace Fits

theorem mono {other : ℕ → Prop} (h : Fits stage opened s) (hother : ∀ k, opened k → other k) :
    Fits stage other s :=
  { h with slot := fun k hk => (h.slot k hk).imp_right (hother k) }

theorem calm (h : Fits stage opened s) (hcalm : Calm s t) (hcloses : t.closes.Sublist s.closes) :
    Fits stage opened t where
  slot k hk := h.slot k (hcalm.slot k hk)
  releasing ht := h.releasing (hcalm.place ht)
  resting hstage ht := h.resting hstage (hcalm.state ht)
  freed hplace ht := h.freed (hcalm.freed hplace ht) (hcalm.state ht)
  closable k hk := h.closable k (hcalm.closable k hk)
  closing k hk := h.closing k (hcloses.subset hk)
  single := hcloses.length_le.trans h.single

/-- Nobody releases a session that a task has, and nobody closes a stream
of it. -/
theorem untaken {i : ℕ} (h : Fits (.opening i) opened s) :
    s.closes = [] ∧ placeOf s.writer = none ∧ ∀ k, s.closable k = false := by
  refine ⟨eq_nil_iff_forall_not_mem.mpr fun k hk => ?_, ?_, fun k => ?_⟩
  · simpa using h.closing k hk
  · by_contra hplace
    obtain ⟨k, hk⟩ := h.releasing hplace
    cases hk
  · by_contra hk
    simpa using h.closable k (by simpa using hk)

/-- So such a session fits any stage that has its slot and its streams. -/
theorem of_untaken (hcloses : s.closes = []) (hplace : placeOf s.writer = none)
    (hslot : ∀ k, s.slot = some k → stage = .streaming k ∨ opened k)
    (hclosable : ∀ k, s.closable k = true → stage = .streaming k)
    (hresting : stage = .pooled → s.state ≠ .active) : Fits stage opened s where
  slot := hslot
  releasing h := absurd hplace h
  resting := hresting
  freed h := by simp [hplace] at h
  closable := hclosable
  closing := by simp [hcloses]
  single := by simp [hcloses]

/-- A task that has a session changes it, and puts `k` into its slot. -/
theorem renew {i : ℕ} {k : Option ℕ} (h : Fits (.opening i) opened s) (hcloses : t.closes = s.closes)
    (hwriter : placeOf t.writer = none) (hslot : ∀ l, t.slot = some l → k = some l)
    (hclosable : ∀ l, t.closable l = true → s.closable l = true) :
    Fits (.opening i) (fun l => k = some l) t := by
  obtain ⟨hnone, -, hopen⟩ := h.untaken
  refine .of_untaken (hcloses.trans hnone) hwriter (fun l hl => .inr (hslot l hl)) ?_ (by simp)
  intro l hl
  simpa [hopen l] using hclosable l hl

/-- The stage after an access. -/
def after (stage : Stage) : Option ℕ → Stage
  | some k => .releasing k
  | none => stage

/-- **What an access leaves fits the stage it leaves.** -/
theorem moves (h : Fits stage opened s) (horderly : Orderly s) (hmoves : Moves s e t) :
    Fits (after stage (s.releases e)) opened t := by
  cases hmoves with
  | rest he hcalm hcloses =>
    rw [he]
    exact h.calm hcalm hcloses
  | ask k he hcalm hk hk' hcloses =>
    rw [he]
    have hstage := h.closable k hk
    -- another stream that is to be closed would have the session
    have hnone : s.closes = [] := by
      refine eq_nil_iff_forall_not_mem.mpr fun j hj => ?_
      obtain rfl : k = j := Stage.streaming.inj (hstage.symm.trans (h.closing j hj))
      have hqueued := horderly.queued k hj
      simp [Session.closable, hqueued] at hk
    refine ⟨fun j hj => h.slot j (hcalm.slot j hj), fun ht => h.releasing (hcalm.place ht),
      fun hs ht => h.resting hs (hcalm.state ht),
      fun hplace ht => h.freed (hcalm.freed hplace ht) (hcalm.state ht),
      fun j hj => h.closable j (hcalm.closable j hj), ?_, ?_⟩
    · intro j hj
      obtain rfl : j = k := by simpa [hcloses, hnone] using hj
      exact hstage
    · simp [hcloses, hnone]
  | take k he hcloses hslot hplace hclosable =>
    rw [he]
    have hk : k ∈ s.closes := by simp [hcloses]
    have hnone : t.closes = [] := by
      have hsingle := h.single
      rw [hcloses, length_cons] at hsingle
      exact length_eq_zero_iff.mp (by omega)
    refine ⟨by simp [hslot], fun _ => ⟨k, rfl⟩, by simp [after], by simp [hplace], ?_,
      by simp [hnone], by simp [hnone]⟩
    intro j hj
    obtain rfl : k = j := Stage.streaming.inj
      ((h.closing k hk).symm.trans (h.closable j (hclosable j hj)))
    have hj := hclosable k hj
    simp [Session.closable, horderly.queued k hk] at hj

end Fits

end Fits

/-! ## The tasks -/

/-- The session that a task has, and the stream it has put into its slot. -/
def Opening.holding : Opening → Option (ℕ × Option ℕ)
  | .found S => some (S, none)
  | .unclosed S => some (S, none)
  | .marked S => some (S, none)
  | .numbered S _ => some (S, none)
  | .sending S k => some (S, some k)
  | .waiting S k => some (S, some k)
  | .written S k => some (S, some k)
  | .dialing S => some (S, none)
  | .prepared S => some (S, some 1)
  | .registered S => some (S, some 1)
  | _ => none

namespace Client

variable {config : Config} {s t : Client} {e : ClientEvent} {stage : ℕ → Stage}

/-- What the task `i` has. -/
def held (s : Client) (i : ℕ) : Option (ℕ × Option ℕ) := s.opens[i]?.bind Opening.holding

/-- The stream of a session that a task has put into its slot. -/
def Opens (s : Client) (S k : ℕ) : Prop := ∃ i, s.held i = some (S, some k)

/-- The stream that has a session, or whose task has it. -/
def Uses (s : Client) (stage : ℕ → Stage) (S k : ℕ) : Prop :=
  stage S = .streaming k ∨ s.Opens S k

/-- **Every session is in one hand.** -/
structure Owned (stage : ℕ → Stage) (s : Client) : Prop where
  pooled : ∀ S, S ∈ s.idle → stage S = .pooled
  opening : ∀ i S k, s.held i = some (S, k) → stage S = .opening i
  waking : ∀ i S : ℕ, s.opens[i]? = some (.found S) ∨ s.opens[i]? = some (.unclosed S) →
    (s.session S).state ≠ .active
  unborn : ∀ S, s.nextSequence < S → stage S = .unborn
  fits : ∀ S, Fits (stage S) (s.Opens S) (s.session S)

/-- Where a task leaves a session. -/
def left : Option ℕ → Stage
  | some k => .streaming k
  | none => .lost

/-- The stages after a task went from having `before` to having `after`. -/
def passed (stage : ℕ → Stage) (i : ℕ) :
    Option (ℕ × Option ℕ) → Option (ℕ × Option ℕ) → ℕ → Stage
  | none, some (S, _) => update stage S (.opening i)
  | some (S, k), none => update stage S (left k)
  | _, _ => stage

/-- **The stages after a step.** -/
def restage (stage : ℕ → Stage) (s : Client) (e : ClientEvent) (t : Client) : ℕ → Stage :=
  match e with
  | .advance i => passed stage i (s.held i) (t.held i)
  | .dialed i _ => passed stage i (s.held i) (t.held i)
  | .abort i _ => passed stage i (s.held i) (t.held i)
  | .session S event =>
    update stage S (Fits.after (stage S) ((s.session S).releases event))
  | .returnIdle S _ => update stage S .pooled
  | _ => stage

namespace Owned

/-- **A session is not handed to two tasks.** -/
theorem unique (h : Owned stage s) {i j S : ℕ} {k l : Option ℕ} (hi : s.held i = some (S, k))
    (hj : s.held j = some (S, l)) : i = j ∧ k = l := by
  obtain rfl : i = j := Stage.opening.inj ((h.opening i S k hi).symm.trans (h.opening j S l hj))
  simp_all

/-- A session has one user. -/
theorem uses_unique (h : Owned stage s) {S j k : ℕ} (hj : s.Uses stage S j)
    (hk : s.Uses stage S k) : j = k := by
  have hapart {l m : ℕ} (hl : stage S = .streaming l) : ¬ s.Opens S m := by
    rintro ⟨i, hi⟩
    simp [h.opening i S _ hi] at hl
  rcases hj with hj | ⟨i, hi⟩ <;> rcases hk with hk | ⟨l, hl⟩
  · exact Stage.streaming.inj (hj.symm.trans hk)
  · exact absurd ⟨l, hl⟩ (hapart hj)
  · exact absurd ⟨i, hi⟩ (hapart hk)
  · exact Option.some.inj (h.unique hi hl).2

/-- A session that a task lets go of, where it has a stream for its slot. -/
theorem let_go {i : ℕ} {k : Option ℕ} {x : Session}
    (h : Fits (.opening i) (fun l => k = some l) x) : Fits (left k) (fun _ => False) x := by
  obtain ⟨hcloses, hplace, hclosable⟩ := h.untaken
  refine .of_untaken hcloses hplace (fun l hl => .inl ?_) (by simp [hclosable]) ?_
  · rcases h.slot l hl with hstage | hk
    · cases hstage
    · subst hk
      rfl
  · cases k <;> simp [left]

/-- A session whose new stream gets its handle. -/
theorem let_use {i k : ℕ} {x : Session} (h : Fits (.opening i) (fun l => some k = some l) x) :
    Fits (left (some k)) (fun _ => False) (x.withStream k ({ · with handle := true })) := by
  obtain ⟨hcloses, hplace, hclosable⟩ := h.untaken
  refine .of_untaken hcloses hplace (let_go h).slot (fun l hl => ?_) (by simp [left])
  by_cases hlk : l = k
  · rw [hlk]
    rfl
  · have hl' : x.closable l = true := by simpa [closable, hlk] using hl
    simp [hclosable l] at hl'

section Task

variable (h : Owned stage s) {i S : ℕ} {old place : Opening} {stage' : ℕ → Stage} {x : Session}
  (hold : s.opens[i]? = some old) (hopens : t.opens = s.opens.set i place)

include hold in
theorem held_of_opens : s.held i = old.holding := by
  simp [held, hold]

include hold hopens in
theorem held_set_self : t.held i = place.holding := by
  have hi : i < s.opens.length := (List.getElem?_eq_some_iff.mp hold).1
  simp [held, hopens, hi]

include hopens in
theorem held_set_ne {j : ℕ} (hj : j ≠ i) : t.held j = s.held j := by
  simp [held, hopens, getElem?_set_ne (Ne.symm hj)]

include hopens in
/-- The tasks after one of them went on. -/
theorem of_set {j : ℕ} {new : Opening} (hj : t.opens[j]? = some new) :
    j = i ∧ new = place ∨ j ≠ i ∧ s.opens[j]? = some new :=
  of_getElem?_set (hopens ▸ hj)

include h hold hopens

/-- A task goes on, and what changes is the session `S`. -/
theorem task (hmine : ∀ R k, old.holding = some (R, k) ∨ place.holding = some (R, k) → R = S)
    (hstage : ∀ R, R ≠ S → stage' R = stage R)
    (hsession : t.session = update s.session S x)
    (hidle : ∀ R, R ∈ t.idle → R ∈ s.idle ∧ R ≠ S)
    (hothers : ∀ j, j ≠ i → ∀ k, s.held j ≠ some (S, k))
    (hplace : ∀ k, place.holding = some (S, k) → stage' S = .opening i)
    (hwaking : place = .found S ∨ place = .unclosed S → x.state ≠ .active)
    (hunborn : ∀ R, t.nextSequence < R → s.nextSequence < R ∧ R ≠ S)
    (hfits : Fits (stage' S) (fun k => place.holding = some (S, some k)) x) : Owned stage' t := by
  have hsame {R : ℕ} (hR : R ≠ S) : t.session R = s.session R := by
    rw [hsession, update_of_ne hR]
  have hx : t.session S = x := by rw [hsession, update_self]
  have hself := held_set_self hold hopens
  have hne {j : ℕ} (hj : j ≠ i) := held_set_ne hopens hj
  constructor
  · intro R hR
    obtain ⟨hidle, hRS⟩ := hidle R hR
    rw [hstage R hRS]
    exact h.pooled R hidle
  · intro j R k hj
    by_cases hji : j = i
    · subst hji
      rw [hself] at hj
      obtain rfl := hmine R k (.inr hj)
      exact hplace k hj
    · rw [hne hji] at hj
      have hRS : R ≠ S := by
        rintro rfl
        exact hothers j hji k hj
      rw [hstage R hRS]
      exact h.opening j R k hj
  · intro j R hj
    by_cases hji : j = i
    · subst hji
      have hj' : place = .found R ∨ place = .unclosed R := by
        have hlt : j < s.opens.length := (List.getElem?_eq_some_iff.mp hold).1
        simpa [hopens, hlt] using hj
      obtain rfl : R = S := by
        rcases hj' with rfl | rfl <;> exact hmine R none (.inr rfl)
      rw [hx]
      exact hwaking hj'
    · rw [hopens, getElem?_set_ne (Ne.symm hji)] at hj
      have hheld : s.held j = some (R, none) := by
        rcases hj with hj | hj <;> simp [held, hj, Opening.holding]
      have hRS : R ≠ S := by
        rintro rfl
        exact hothers j hji none hheld
      rw [hsame hRS]
      exact h.waking j R hj
  · intro R hR
    obtain ⟨hR, hRS⟩ := hunborn R hR
    rw [hstage R hRS]
    exact h.unborn R hR
  intro R
  by_cases hRS : R = S
  · subst hRS
    rw [hx]
    exact hfits.mono fun k hk => ⟨i, hself.trans hk⟩
  rw [hstage R hRS, hsame hRS]
  refine (h.fits R).mono ?_
  rintro k ⟨j, hj⟩
  by_cases hji : j = i
  · subst hji
    rw [held_of_opens hold] at hj
    exact absurd (hmine R _ (.inl hj)) hRS
  · exact ⟨j, (hne hji).trans hj⟩

variable {k : Option ℕ} (hheld : old.holding = some (S, k))
  (hsession : t.session = update s.session S x) (hidle : t.idle = s.idle)
  (hnext : t.nextSequence = s.nextSequence)
include hheld hsession hidle hnext

/-- A task that has a session keeps it. -/
theorem keep {k' : Option ℕ} (hplace : place.holding = some (S, k'))
    (hwaking : place = .found S ∨ place = .unclosed S → x.state ≠ .active)
    (hfits : Fits (.opening i) (fun l => k' = some l) x) :
    Owned (passed stage i (s.held i) (t.held i)) t := by
  have hi : s.held i = some (S, k) := (held_of_opens hold).trans hheld
  have hstage := h.opening i S k hi
  rw [hi, held_set_self hold hopens, hplace]
  refine h.task hold hopens ?_ (fun _ _ => rfl) hsession (fun R hR => ?_) ?_ (fun _ _ => hstage)
    hwaking (fun R hR => ?_) ?_
  · intro R l hR
    rcases hR with hR | hR
    · simp [hheld] at hR
      exact hR.1.symm
    · simp [hplace] at hR
      exact hR.1.symm
  · rw [hidle] at hR
    refine ⟨hR, ?_⟩
    rintro rfl
    simp [h.pooled R hR] at hstage
  · intro j hj l hl
    exact hj (h.unique hl hi).1
  · rw [hnext] at hR
    refine ⟨hR, ?_⟩
    rintro rfl
    simp [h.unborn R hR] at hstage
  · show Fits (stage S) _ x
    rw [hstage]
    simpa [hplace] using hfits

/-- A task lets go of a session. -/
theorem leave (hplace : place.holding = none) (hfits : Fits (left k) (fun _ => False) x) :
    Owned (passed stage i (s.held i) (t.held i)) t := by
  have hi : s.held i = some (S, k) := (held_of_opens hold).trans hheld
  have hstage := h.opening i S k hi
  rw [hi, held_set_self hold hopens, hplace]
  refine h.task hold hopens ?_ (fun R hR => update_of_ne hR _ _) hsession
    (fun R hR => ?_) ?_ (by simp [hplace]) ?_ (fun R hR => ?_) ?_
  · intro R l hR
    rcases hR with hR | hR
    · simp [hheld] at hR
      exact hR.1.symm
    · simp [hplace] at hR
  · rw [hidle] at hR
    refine ⟨hR, ?_⟩
    rintro rfl
    simp [h.pooled R hR] at hstage
  · intro j hj l hl
    exact hj (h.unique hl hi).1
  · rintro (rfl | rfl) <;> simp [Opening.holding] at hplace
  · rw [hnext] at hR
    refine ⟨hR, ?_⟩
    rintro rfl
    simp [h.unborn R hR] at hstage
  · simpa [passed, hplace] using hfits

end Task

variable (h : Owned stage s)
include h

/-- No task goes on, and no session changes hands. -/
theorem aside (hheld : ∀ j, t.held j = s.held j)
    (hwaking : ∀ j R : ℕ, t.opens[j]? = some (.found R) ∨ t.opens[j]? = some (.unclosed R) →
      s.opens[j]? = some (.found R) ∨ s.opens[j]? = some (.unclosed R))
    (hidle : ∀ R, R ∈ t.idle → R ∈ s.idle) (hnext : t.nextSequence = s.nextSequence)
    (hsession : ∀ R, Calm (s.session R) (t.session R) ∧
      (t.session R).closes.Sublist (s.session R).closes) : Owned stage t where
  pooled R hR := h.pooled R (hidle R hR)
  opening j R k hj := h.opening j R k (hheld j ▸ hj)
  waking j R hj hstate := h.waking j R (hwaking j R hj) ((hsession R).1.state hstate)
  unborn R hR := h.unborn R (hnext ▸ hR)
  fits R := by
    have hfits := (h.fits R).calm (hsession R).1 (hsession R).2
    exact hfits.mono fun k ⟨j, hj⟩ => ⟨j, (hheld j).trans hj⟩

/-- One session changes hands, and no task goes on. -/
theorem hand {S : ℕ} {new : Stage} {x : Session} (hopens : t.opens = s.opens)
    (hsession : t.session = update s.session S x)
    (hidle : ∀ R, R ∈ t.idle → R ∈ s.idle ∧ R ≠ S ∨ R = S ∧ new = .pooled)
    (hnext : t.nextSequence = s.nextSequence) (hheld : ∀ i, stage S ≠ .opening i)
    (hborn : stage S ≠ .unborn) (hfits : Fits new (s.Opens S) x) :
    Owned (update stage S new) t := by
  have hopening (i R : ℕ) (k : Option ℕ) (hi : s.held i = some (R, k)) : R ≠ S := by
    rintro rfl
    exact hheld i (h.opening i R k hi)
  have hsame (j : ℕ) : t.held j = s.held j := by simp only [held, hopens]
  constructor
  · intro R hR
    rcases hidle R hR with ⟨hR, hRS⟩ | ⟨rfl, hnew⟩
    · rw [update_of_ne hRS]
      exact h.pooled R hR
    · rw [update_self, hnew]
  · intro i R k hi
    rw [hsame] at hi
    rw [update_of_ne (hopening i R k hi)]
    exact h.opening i R k hi
  · intro i R hi
    rw [hopens] at hi
    have hRS : R ≠ S := by
      rcases hi with hi | hi <;> exact hopening i R none (held_of_opens hi)
    rw [hsession, update_of_ne hRS]
    exact h.waking i R hi
  · intro R hR
    rw [hnext] at hR
    have hRS : R ≠ S := by
      rintro rfl
      exact hborn (h.unborn R hR)
    rw [update_of_ne hRS]
    exact h.unborn R hR
  · intro R
    by_cases hRS : R = S
    · subst hRS
      rw [hsession, update_self, update_self]
      exact hfits.mono fun k ⟨j, hj⟩ => ⟨j, (hsame j).trans hj⟩
    · rw [hsession, update_of_ne hRS, update_of_ne hRS]
      exact (h.fits R).mono fun k ⟨j, hj⟩ => ⟨j, (hsame j).trans hj⟩

/-- A session that nobody has, and a task takes. -/
theorem claim {i S : ℕ} (hstage : stage S = .pooled ∨ stage S = .unborn) :
    Fits (.opening i) (fun l => none = some l) (s.session S) := by
  have hfits := h.fits S
  have hnot (k : ℕ) : stage S ≠ .streaming k ∧ stage S ≠ .releasing k ∧ stage S ≠ .opening k := by
    rcases hstage with hstage | hstage <;> simp [hstage]
  refine .of_untaken (eq_nil_iff_forall_not_mem.mpr fun k hk => ?_) ?_ (fun k hk => ?_)
    (fun k hk => ?_) (by simp)
  · exact (hnot k).1 (hfits.closing k hk)
  · by_contra hplace
    obtain ⟨k, hk⟩ := hfits.releasing hplace
    exact (hnot k).2.1 hk
  · rcases hfits.slot k hk with hk | ⟨j, hj⟩
    · exact absurd hk (hnot k).1
    · exact absurd (h.opening j S _ hj) (hnot j).2.2
  · exact absurd (hfits.closable k hk) (hnot k).1

/-- A task that has no session goes on, and finds none. -/
theorem loose {i : ℕ} {old place : Opening} (hold : s.opens[i]? = some old)
    (hheld : old.holding = none) (hplace : place.holding = none)
    (hopens : t.opens = s.opens.set i place) (hsession : t.session = s.session)
    (hidle : ∀ R, R ∈ t.idle → R ∈ s.idle) (hnext : t.nextSequence = s.nextSequence) :
    Owned (passed stage i (s.held i) (t.held i)) t := by
  have hbefore := (held_of_opens hold).trans hheld
  have hafter := (held_set_self hold hopens).trans hplace
  rw [hbefore, hafter]
  refine h.aside (fun j => ?_) (fun j R hj => ?_) hidle hnext
    fun R => hsession ▸ ⟨.refl _, List.Sublist.refl _⟩
  · by_cases hji : j = i
    · rw [hji, hbefore, hafter]
    · exact held_set_ne hopens hji
  by_cases hji : j = i
  · have hsome : t.held j = some (R, none) := by
      rcases hj with hj | hj <;> exact held_of_opens hj
    rw [hji, hafter] at hsome
    cases hsome
  · rwa [hopens, getElem?_set_ne (Ne.symm hji)] at hj

/-- A session that a task has, as that task knows it. -/
theorem mine {i S : ℕ} {k : Option ℕ} (hi : s.held i = some (S, k)) :
    Fits (.opening i) (fun l => k = some l) (s.session S) := by
  have hfits := h.fits S
  rw [h.opening i S k hi] at hfits
  exact hfits.mono fun l ⟨j, hj⟩ => (h.unique hi hj).2

end Owned

/-! ## The pool -/

theorem takeIdleLoop_spec (keys : List ℕ) (idle : Table ℕ ℕ) :
    (∀ R, R ∈ (s.takeIdleLoop keys idle).2 → R ∈ idle) ∧
    ∀ S, (s.takeIdleLoop keys idle).1 = some S →
      S ∈ keys ∧ S ∉ (s.takeIdleLoop keys idle).2 ∧ S ∈ s.sessions := by
  induction keys generalizing idle with
  | nil => simp [takeIdleLoop]
  | cons key rest ih =>
    simp only [takeIdleLoop]
    split_ifs with hfound
    · refine ⟨fun R hR => (AList.mem_erase.mp hR).2, ?_⟩
      rintro S ⟨⟩
      exact ⟨mem_cons_self, fun hS => (AList.mem_erase.mp hS).1 rfl, hfound.1⟩
    · obtain ⟨hsub, hsome⟩ := ih (idle.erase key)
      refine ⟨fun R hR => (AList.mem_erase.mp (hsub R hR)).2, fun S hS => ?_⟩
      exact (hsome S hS).imp_left (mem_cons_of_mem _)

theorem takeIdle_none {idle : Table ℕ ℕ} (h : s.takeIdle = (none, idle)) :
    ∀ R, R ∈ idle → R ∈ s.idle := by
  have hspec := takeIdleLoop_spec (s := s) (s.idle.keys.mergeSort (· ≥ ·)) s.idle
  rw [← takeIdle, h] at hspec
  exact hspec.1

/-- What `take_idle` takes was in the pool, and is there no more. -/
theorem takeIdle_some {S : ℕ} {idle : Table ℕ ℕ} (h : s.takeIdle = (some S, idle)) :
    S ∈ s.idle ∧ S ∈ s.sessions ∧ ∀ R, R ∈ idle → R ∈ s.idle ∧ R ≠ S := by
  have hspec := takeIdleLoop_spec (s := s) (s.idle.keys.mergeSort (· ≥ ·)) s.idle
  rw [← takeIdle, h] at hspec
  obtain ⟨hkeys, hnot, hmem⟩ := hspec.2 S rfl
  refine ⟨AList.mem_keys.mpr (by simpa using hkeys), hmem, fun R hR => ⟨hspec.1 R hR, ?_⟩⟩
  rintro rfl
  exact hnot hR

/-! ## Steps -/

namespace Owned

theorem init : Owned (fun _ => .unborn) new where
  pooled R hR := absurd hR (by simp [new])
  opening i R k hi := by simp [held, new] at hi
  waking i R hi := by simp [new] at hi
  unborn _ _ := rfl
  fits R := .of_untaken rfl rfl (by simp [new, slot]) (by simp [new, closable]) (by simp)

/-- A change of one session that changes nobody's hand. -/
theorem calmly (h : Owned stage s) {S : ℕ} {x : Session}
    (hsession : t.session = update s.session S x) (hcalm : Calm (s.session S) x)
    (hcloses : x.closes.Sublist (s.session S).closes) (hopens : t.opens = s.opens)
    (hidle : ∀ R, R ∈ t.idle → R ∈ s.idle) (hnext : t.nextSequence = s.nextSequence) :
    Owned stage t := by
  refine h.aside (fun j => by simp only [held, hopens]) (fun j R hj => hopens ▸ hj) hidle hnext
    fun R => ?_
  rw [hsession]
  by_cases hRS : R = S
  · subst hRS
    rw [update_self]
    exact ⟨hcalm, hcloses⟩
  · rw [update_of_ne hRS]
    exact ⟨.refl _, List.Sublist.refl _⟩

/-- A step that touches no session and no task. -/
theorem idly (h : Owned stage s) (hopens : t.opens = s.opens)
    (hidle : ∀ R, R ∈ t.idle → R ∈ s.idle) (hnext : t.nextSequence = s.nextSequence)
    (hsession : t.session = s.session) : Owned stage t :=
  h.aside (fun j => by simp only [held, hopens]) (fun j R hj => hopens ▸ hj) hidle hnext
    fun R => hsession ▸ ⟨.refl _, List.Sublist.refl _⟩

theorem calm_failActive (session : Session) (error : IoError) :
    Calm session (session.failActive config error) ∧
      (session.failActive config error).closes = session.closes := by
  refine failActive_cases (P := fun t => Calm session t ∧ t.closes = session.closes) error
    ⟨.refl _, rfl⟩ fun a hactive => ?_
  have hnone : Calm session { session with active := none } :=
    .of_eq (by simp [slot]) rfl rfl rfl
  refine ⟨hnone.trans (.touch ?_), rfl⟩
  rw [Stream.broken, Orderly.standing_trySend, Orderly.standing_answer]
  rfl

/-- A task that begins is none of those that were there. -/
theorem getElem?_begin {opens : List Opening} {j : ℕ} (hj : j ≠ opens.length) :
    (opens ++ [Opening.taking])[j]? = opens[j]? := by
  rcases Nat.lt_or_ge j opens.length with hlt | hge
  · rw [getElem?_append_left hlt]
  · rw [getElem?_append_right hge, getElem?_eq_none hge]
    simp
    omega

/-- **A step leaves every session in one hand.** -/
theorem turn (h : Owned stage s) (hsessions : ∀ S, Orderly (s.session S))
    (hturn : Turn config s e t) : Owned (restage stage s e t) t := by
  cases hturn with
  | began _ =>
    refine h.aside (fun j => ?_) (fun j R hj => ?_) (fun _ => id) rfl
      fun R => ⟨.refl _, List.Sublist.refl _⟩
    · by_cases hj : j = s.opens.length
      · simp [held, hj, Opening.holding]
      · simp only [held, getElem?_begin hj]
    · by_cases hjl : j = s.opens.length
      · simp [hjl] at hj
      · simpa only [getElem?_begin hjl] using hj
  | @reused i S idle hold htake =>
    obtain ⟨hS, _, hidle⟩ := takeIdle_some htake
    have hpooled := h.pooled S hS
    have hfits := h.fits S
    have hopens : ({ s with idle }.goOn i (.found S)).opens = s.opens.set i (.found S) := rfl
    have hheld := held_of_opens hold
    simp only [restage, hheld, held_set_self hold hopens, Opening.holding, passed]
    refine h.task hold rfl ?_ (fun R hR => update_of_ne hR _ _)
      (update_eq_self S _).symm hidle ?_ (fun _ _ => update_self ..)
      (fun _ => hfits.resting hpooled) (fun R hR => ⟨hR, ?_⟩) ?_
    · simp [Opening.holding]
    · intro j hj k hk
      simp [h.opening j S k hk] at hpooled
    · rintro rfl
      simp [h.unborn R hR] at hpooled
    · rw [update_self]
      exact (h.claim (.inl hpooled)).mono (by simp)
  | missed hold htake => exact h.loose hold rfl rfl rfl rfl (takeIdle_none htake) rfl
  | @looked i S hold =>
    have hmine := h.mine (held_of_opens hold)
    exact h.keep hold rfl rfl (update_eq_self S _).symm rfl rfl rfl
      (fun _ => h.waking i S (.inl hold)) hmine
  | @forwent i S hold =>
    rcases hold with hold | hold <;>
      exact h.leave hold rfl rfl (update_eq_self S _).symm rfl rfl rfl
        (let_go (h.mine (held_of_opens hold)))
  | woke hold _ | numbered hold =>
    have hmine := h.mine (held_of_opens hold)
    exact h.keep hold rfl rfl rfl rfl rfl rfl (by simp)
      (hmine.renew rfl hmine.untaken.2.1 (fun l hl => by simpa using hmine.slot l hl) fun _ => id)
  | @exhausted i S _ hold | @retained i S _ _ hold _ =>
    exact h.leave hold rfl rfl (update_eq_self S _).symm rfl rfl rfl
      (let_go (h.mine (held_of_opens hold)))
  | @filled i S k hold _ =>
    have hmine := h.mine (held_of_opens hold)
    refine h.keep hold rfl rfl rfl rfl rfl rfl (by simp)
      (hmine.renew rfl hmine.untaken.2.1 ?_ fun l hl => ?_)
    · intro l hl
      simpa [slot] using hl
    · by_cases hlk : l = k
      · simp [closable, hlk, Stream.fresh] at hl
      · simpa [closable, hlk] using hl
  | sent hold =>
    have hmine := h.mine (held_of_opens hold)
    refine h.keep hold rfl rfl rfl rfl rfl rfl (by simp) (hmine.renew ?_ hmine.untaken.2.1
      (fun l hl => by simpa using hmine.slot l hl) fun _ => id)
    rw [closes_enqueue]
    simp [closeOf]
  | @answered i S k hold =>
    exact h.keep hold rfl rfl (update_eq_self S _).symm rfl rfl rfl (by simp)
      (h.mine (held_of_opens hold))
  | @failed e i S k calls place he hold _ hplace =>
    have hheld : s.held i = some (S, some k) := by
      rcases hold with hold | hold <;> exact held_of_opens hold
    have hnone : place.holding = none := by rcases hplace with rfl | rfl <;> rfl
    have hfits : Fits (left (some k)) (fun _ => False)
        ((s.session S).withStream k ({ · with receiver := false })) :=
      let_go ((h.mine hheld).calm (.touch rfl) (List.Sublist.refl _))
    rcases he with rfl | ⟨_, rfl⟩ <;> rcases hold with hold | hold <;>
      exact h.leave hold rfl rfl rfl rfl rfl hnone hfits
  | opened hold _ =>
    exact h.leave hold rfl rfl rfl rfl rfl rfl (let_use (h.mine (held_of_opens hold)))
  | @dialing i hold =>
    have hunborn := h.unborn (s.nextSequence + 1) (Nat.lt_succ_self _)
    have hopens : ({ s with nextSequence := s.nextSequence + 1 }.goOn i
        (.dialing (s.nextSequence + 1))).opens = s.opens.set i (.dialing (s.nextSequence + 1)) := rfl
    simp only [restage, held_of_opens hold, held_set_self hold hopens, Opening.holding, passed]
    refine h.task hold rfl ?_ (fun R hR => update_of_ne hR _ _)
      (update_eq_self (s.nextSequence + 1) _).symm (fun R hR => ⟨hR, ?_⟩) ?_
      (fun _ _ => update_self ..) (by simp) (fun R hR => ?_) ?_
    · simp [Opening.holding]
    · rintro rfl
      simp [h.pooled _ hR] at hunborn
    · intro j hj k hk
      simp [h.opening j _ k hk] at hunborn
    · have hlt : s.nextSequence + 1 < R := hR
      omega
    · rw [update_self]
      exact (h.claim (.inr hunborn)).mono (by simp)
  | @undialed e i he hold =>
    rcases hold with hold | ⟨S, hold⟩
    · rcases he with rfl | rfl | ⟨_, rfl⟩ <;>
        exact h.loose hold rfl rfl rfl rfl (fun _ => id) rfl
    · have hfits := let_go (h.mine (held_of_opens hold))
      rcases he with rfl | rfl | ⟨_, rfl⟩ <;>
        exact h.leave hold rfl rfl (update_eq_self S _).symm rfl rfl rfl hfits
  | @dialed i S hold =>
    refine h.keep hold rfl rfl rfl rfl rfl rfl (by simp)
      (.of_untaken rfl rfl (fun l hl => .inr ?_) (fun l hl => ?_) (by simp))
    · simpa [slot, prepared] using hl
    · by_cases hl1 : l = 1
      · simp [closable, prepared, Stream.fresh, hl1] at hl
      · simp [closable, prepared, hl1] at hl
  | barred hold =>
    have hmine := h.mine (held_of_opens hold)
    obtain ⟨hcloses, hplace, hclosable⟩ := hmine.untaken
    refine h.leave hold rfl rfl rfl rfl rfl rfl (let_go (hmine.renew ?_ rfl ?_ ?_))
    · rw [hcloses]
      exact (append_eq_nil_iff.mp hcloses).2
    · intro l hl
      simpa using hmine.slot l hl
    · intro l hl
      by_cases hl1 : l = 1
      · simp [closable, hl1] at hl
      · simpa [closable, hl1] using hl
  | registered hold =>
    have hmine := h.mine (held_of_opens hold)
    obtain ⟨hcloses, hplace, hclosable⟩ := hmine.untaken
    refine h.keep hold rfl rfl rfl rfl rfl rfl (by simp) (hmine.renew ?_ rfl ?_ fun _ => id)
    · rw [hcloses]
      exact (append_eq_nil_iff.mp hcloses).2
    · intro l hl
      simpa using hmine.slot l hl
  | started hold hplace =>
    have hfits := let_use (h.mine (held_of_opens hold))
    rcases hplace with rfl | rfl <;> exact h.leave hold rfl rfl rfl rfl rfl rfl hfits
  | unregistered hold =>
    exact h.loose hold rfl rfl rfl rfl (fun R hR => (AList.mem_erase.mp hR).2) rfl
  | skipped _ _ | outlived _ _ _ => exact h.idly rfl (fun _ => id) rfl rfl
  | swapped _ _ _ | cancelled _ _ =>
    exact h.calmly rfl (.of_eq (fun _ => id) rfl rfl rfl) (List.Sublist.refl _) rfl (fun _ => id)
      rfl
  | stored _ _ =>
    refine h.calmly rfl ?_ (List.Sublist.refl _) rfl (fun _ => id) rfl
    exact ⟨fun _ => id, by simp, id, by simp, fun _ => id⟩
  | took _ _ =>
    obtain ⟨hcalm, hcloses⟩ := calm_failActive _ _
    exact h.calmly rfl hcalm (by rw [hcloses]) rfl (fun _ => id) rfl
  | removed _ _ _ => exact h.idly rfl (fun R hR => (AList.mem_erase.mp hR).2) rfl rfl
  | ceased he _ _ _ =>
    rcases he with rfl | rfl | rfl <;> exact h.idly rfl (fun _ => id) rfl rfl
  | @accessed S event session calls haccess =>
    have hmoves := moves_of_access (hsessions S) haccess
    have hfits := (h.fits S).moves (hsessions S) hmoves
    -- a stream that closes has the session
    have hstream (k : ℕ) (hstage : stage S = .streaming k) :
        Owned (restage stage s (.session S event) ((s.withSession S fun _ => session).callFail S
          calls)) ((s.withSession S fun _ => session).callFail S calls) := by
      refine h.hand rfl rfl (fun R hR => .inl ⟨hR, ?_⟩) rfl (by simp [hstage]) (by simp [hstage])
        hfits
      rintro rfl
      simp [h.pooled R hR] at hstage
    cases hmoves with
    | rest he hcalm hcloses =>
      simp only [restage, he, Fits.after, update_eq_self]
      exact h.calmly rfl hcalm hcloses rfl (fun _ => id) rfl
    | ask k _ _ hk _ _ => exact hstream k ((h.fits S).closable k hk)
    | take k _ hcloses _ _ _ => exact hstream k ((h.fits S).closing k (by simp [hcloses]))
  | @returned S now k waited a idle calls hw hidle _ =>
    have hfits := h.fits S
    obtain ⟨l, hstage⟩ := hfits.releasing (by simp [hw, placeOf])
    refine h.hand rfl rfl (fun R hR => ?_) rfl (by simp [hstage]) (by simp [hstage]) ?_
    · have hidle' : R ∈ s.idle ∨ R = S := by
        rcases hidle with rfl | ⟨rfl, -, -⟩
        · exact .inl hR
        · exact (AList.mem_insert _).mp hR |>.symm
      by_cases hRS : R = S
      · exact .inr ⟨hRS, rfl⟩
      · exact .inl ⟨hidle'.resolve_right hRS, hRS⟩
    · have hcloses : (s.session S).closes = [] := by
        refine eq_nil_iff_forall_not_mem.mpr fun k hk => ?_
        simpa [hstage] using hfits.closing k hk
      refine .of_untaken ?_ rfl (fun k hk => ?_) (fun k hk => ?_) fun _ => ?_
      · exact (append_eq_nil_iff.mp hcloses).2
      · simpa [hstage] using hfits.slot k hk
      · simpa [hstage] using hfits.closable k hk
      · exact hfits.freed (by simp [hw, placeOf])
  | expired hidle _ => exact h.idly rfl hidle rfl rfl
  | shutdown => exact h.idly rfl (by simp) rfl rfl
  | stopped | dropped _ =>
    refine h.aside (fun _ => rfl) (fun _ _ => id) ?_ rfl fun R =>
      ⟨.of_eq (fun _ => id) rfl rfl rfl, List.Sublist.refl _⟩
    simp [cancelSessions]

end Owned

end Client

end Vole.AnyTls
