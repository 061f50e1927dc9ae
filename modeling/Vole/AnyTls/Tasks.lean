import Vole.AnyTls.Ownership

/-!
# What is done to an AnyTLS session

Its loops, its streams and whoever fails it change a session at any time
(`Foreign`); the task that opens a stream changes it while it has it
(`Own`). The invariants of a session go through both.
-/

namespace Vole.AnyTls

open Option List Nat Session

namespace Session

variable {config : Config} {s t : Session} {n : ℕ}

/-- **What is done to a session at any time.** -/
inductive Foreign (config : Config) (s : Session) : Session → Prop
  | access {e : SessionEvent} {t : Session} {calls : List Call} :
    Access config s e t calls → Foreign config s t
  | flags {state : SessionState} {closed cancelled : Bool} :
    Foreign config s { s with state, closed, cancelled }
  | fail {error : IoError} : Foreign config s (s.failActive config error)
  | back {k : ℕ} {waited : Bool} {a : ActiveStream} :
    s.writer = .releasing k waited .freed a →
    Foreign config s { s with writer := .releasing k waited .returned a }

/-- **What a task does to the session it has.** -/
inductive Own (s : Session) : Session → Prop
  | wake : Own s { s with state := .active }
  | number : Own s { s with nextStreamId := s.nextStreamId + 1 }
  | fill {k : ℕ} :
    placeOf s.writer = none → k = s.nextStreamId → Below k s →
    Own s
      (({ s with active := some ⟨k, true⟩, openDone := none } : Session).withStream k
        fun _ => .fresh)
  | order {k : ℕ} : Own s (s.enqueue (.openStream k))
  | deafen {k : ℕ} :
    k ≤ s.nextStreamId → Own s (s.withStream k ({ · with receiver := false }))
  | handle {k : ℕ} :
    k ≤ s.nextStreamId → (s.stream k).closeQueued = false →
    Own s (s.withStream k ({ · with handle := true }))
  | prepare {cancelled : Bool} : s.nextStreamId ≤ 1 → Own s (.prepared cancelled)
  | bar :
    s.closes = [] → 1 ≤ s.nextStreamId →
    Own s
      (({ s with writer := .stopped } : Session).withStream 1
        ({ · with receiver := false, closeQueued := true }))
  | start :
    s.writer = .unstarted → s.reader = .unstarted →
    Own s { s with writer := .waiting, reader := .reading }

variable (cancelled : Bool)

theorem prepared_stream (k : ℕ) : (prepared cancelled).stream k = if k = 1 then .fresh else {} := by
  simp [prepared, Function.update_apply]

/-! ## Numbers -/

theorem Foreign.nextStreamId (h : Foreign config s t) : t.nextStreamId = s.nextStreamId := by
  cases h with
  | access haccess => cases haccess <;> rfl
  | flags | back _ => rfl
  | fail =>
    unfold failActive
    split <;> rfl

theorem Own.nextStreamId_le (h : Own s t) : s.nextStreamId ≤ t.nextStreamId := by
  cases h with
  | number => exact le_succ _
  | prepare hnext => exact hnext
  | _ => exact le_rfl

theorem Below.foreign (h : Below n s) (hforeign : Foreign config s t) : Below n t := by
  cases hforeign with
  | access haccess => exact h.access haccess
  | flags => exact ⟨h.active, h.reader, h.closes, h.releasing, h.pristine⟩
  | @fail error =>
    refine failActive_cases error h fun a hactive => ?_
    refine Below.withStream ?_ (h.active a hactive) _
    exact ⟨by simp, h.reader, h.closes, h.releasing, h.pristine⟩
  | @back k waited a hw =>
    have hlt := h.releasing _ _ _ _ hw
    have hcloses : ∀ k ∈ s.queue.filterMap closeOf, k < n := fun k hk =>
      h.closes k (mem_append_right _ hk)
    exact ⟨h.active, h.reader, hcloses, by rintro _ _ _ _ ⟨⟩; exact hlt, h.pristine⟩

theorem Below.prepared : Below 2 (.prepared cancelled) where
  active := by simp [Session.prepared]
  reader := by simp [Session.prepared, readerTarget]
  closes := by simp [Session.prepared, Session.closes, closesOf]
  releasing := by simp [Session.prepared]
  pristine k hk := by
    have hne : k ≠ 1 := by omega
    rw [prepared_stream, if_neg hne]

theorem Below.own (h : Below (s.nextStreamId + 1) s) (hown : Own s t) :
    Below (t.nextStreamId + 1) t := by
  cases hown with
  | wake => exact ⟨h.active, h.reader, h.closes, h.releasing, h.pristine⟩
  | number =>
    have hmono := h.mono (le_succ _)
    exact ⟨hmono.active, hmono.reader, hmono.closes, hmono.releasing, hmono.pristine⟩
  | @fill k _ hk _ =>
    have hlt : k < s.nextStreamId + 1 := by omega
    refine Below.withStream (k := k) ?_ hlt _
    exact ⟨by simpa using hlt, h.reader, h.closes, h.releasing, h.pristine⟩
  | order => exact h.enqueue (by simp [closeOf])
  | deafen hk | handle hk _ => exact h.withStream (lt_succ_of_le hk) _
  | prepare _ => exact .prepared _
  | bar hcloses hone =>
    refine Below.withStream ?_ (lt_succ_of_le hone) _
    have hqueue := (append_eq_nil_iff.mp hcloses).2
    exact ⟨h.active, h.reader, by simp [Session.closes, closesOf, hqueue], by simp, h.pristine⟩
  | start _ _ =>
    have hcloses : ∀ k ∈ s.queue.filterMap closeOf, k < s.nextStreamId + 1 := fun k hk =>
      h.closes k (mem_append_right _ hk)
    exact ⟨h.active, by simp [readerTarget], hcloses, by simp, h.pristine⟩

/-! ## Closing -/

theorem Orderly.foreign (h : Orderly s) (hforeign : Foreign config s t) : Orderly t := by
  cases hforeign with
  | access haccess => exact h.access haccess
  | flags => exact h.quiet (fun _ => id) id rfl
  | @fail error =>
    refine failActive_cases error h fun a hactive => ?_
    have hquiet : Orderly { s with active := none } := h.quiet (fun _ => id) id rfl
    refine hquiet.touch ?_
    rw [Stream.broken, standing_trySend, standing_answer]
    rfl
  | back hw => exact h.quiet (by simp [closes, closesOf, hw]) (by simp [hw]) rfl

theorem Orderly.own (h : Orderly s) (hown : Own s t) : Orderly t := by
  cases hown with
  | wake | number => exact h.quiet (fun _ => id) id rfl
  | @fill k _ _ hbelow =>
    have hquiet : Orderly { s with active := some ⟨k, true⟩, openDone := none } :=
      h.quiet (fun _ => id) id rfl
    -- nobody closes a stream of this number yet
    have hk : (s.stream k).closeQueued = false := by simp [hbelow.pristine k le_rfl]
    exact hquiet.withStream (by simp [hk]) (by simp [Stream.fresh]) (by simp [Stream.fresh])
  | order => exact h.quiet (by simp [closes_enqueue, closeOf]) id rfl
  | deafen _ => exact h.touch rfl
  | handle _ hqueued =>
    exact h.withStream id (by simp [hqueued]) fun error => h.answered _ error
  | prepare _ =>
    have hstanding (c : Bool) (k : ℕ) :
        standing ((prepared c).stream k) = (false, false, false, none) := by
      rw [prepared_stream]
      split_ifs <;> rfl
    simp only [standing, Prod.mk.injEq] at hstanding
    refine ⟨by simp [prepared, closes, closesOf], ?_, ?_⟩ <;> simp [hstanding]
  | bar hcloses _ => exact halted rfl (append_eq_nil_iff.mp hcloses).2
  | start hwriter _ => exact h.quiet (fun _ hk => mem_append_right _ hk) (by simp [hwriter]) rfl

/-! ## Data -/

theorem Faithful.foreign (h : Faithful s) (hforeign : Foreign config s t) : Faithful t := by
  cases hforeign with
  | access haccess => exact h.access haccess
  | flags => exact h.aside rfl rfl (.of_eq rfl) h.vacant
  | @fail error =>
    refine failActive_cases error h fun a hactive => ?_
    have haside : Faithful { s with active := none } :=
      h.aside rfl rfl (by simp [Remains]) fun _ => rfl
    exact haside.untouched (untouched_broken config a.synAck error)
  | back hw =>
    have hactive : s.active = none := h.vacant (by simp [hw, placeOf])
    exact h.aside rfl rfl (.of_eq rfl) fun _ => hactive

theorem inFlight_of_below {k : ℕ} (h : Below k s) : s.inFlight k = [] := by
  by_contra hflight
  obtain ⟨payload, hreader⟩ := Faithful.holds_of_inFlight hflight
  have hlt : k < k := h.reader k (by rcases hreader with hreader | hreader <;> rw [hreader] <;> rfl)
  omega

/-- A new stream has nothing yet. -/
theorem Faithful.fill (h : Faithful s) {k : ℕ} {openDone : Option (Except IoError Unit)}
    (hplace : placeOf s.writer = none) (hbelow : Below k s) :
    Faithful (({ s with active := some ⟨k, true⟩, openDone } : Session).withStream k
      fun _ => .fresh) := by
  have hflight : s.inFlight k = [] := inFlight_of_below hbelow
  have hstream (j : ℕ) :
      (({ s with active := some ⟨k, true⟩, openDone } : Session).withStream k
        fun _ => .fresh).stream j = if j = k then .fresh else s.stream j := withStream_stream _ _ _
  constructor
  · intro j
    rw [hstream]
    split_ifs with hj
    · exact prefix_rfl
    · exact h.read j
  · intro j
    rw [hstream]
    split_ifs with hj
    · subst hj
      exact fun _ => hflight ▸ prefix_rfl
    · exact h.kept j
  · intro j
    rw [hstream]
    split_ifs with hj
    · subst hj
      exact fun _ _ => hflight
    intro hover hattends
    refine h.whole j hover ?_
    rcases hattends with ⟨a, ha, hid, _⟩ | hholds
    · obtain rfl : (⟨k, true⟩ : ActiveStream) = a := some.inj ha
      exact absurd hid.symm hj
    · exact .inr hholds
  · intro a ha
    obtain rfl : (⟨k, true⟩ : ActiveStream) = a := some.inj ha
    rw [hstream, if_pos rfl]
    rfl
  · exact fun hnot => absurd hplace hnot

theorem Faithful.own (h : Faithful s) (hown : Own s t) : Faithful t := by
  cases hown with
  | wake | number | order => exact h.aside rfl rfl (.of_eq rfl) h.vacant
  | fill hplace _ hbelow => exact h.fill hplace hbelow
  | deafen _ | handle _ _ => exact h.untouched fun _ => ⟨rfl, rfl⟩
  | @prepare cancelled _ =>
    have hempty (k : ℕ) : traffic ((prepared cancelled).stream k) = ([], [], false, []) := by
      rw [prepared_stream]
      split_ifs <;> rfl
    simp only [traffic, Prod.mk.injEq] at hempty
    have hflight (k : ℕ) : (prepared cancelled).inFlight k = [] := rfl
    refine ⟨by simp [hempty], by simp [hempty, hflight], by simp [hempty, hflight], ?_, ?_⟩
    · intro a ha
      rw [prepared_stream]
      split_ifs <;> rfl
    · simp [prepared, placeOf]
  | bar _ _ =>
    have haside : Faithful { s with writer := .stopped } :=
      h.aside rfl rfl (.of_eq rfl) (by simp [placeOf])
    exact haside.untouched fun _ => ⟨rfl, rfl⟩
  | start _ hreader =>
    refine h.quiet ?_ (by simp [Holds]) (by simp [hreader]) rfl (.of_eq rfl) (by simp [placeOf])
    simp [inFlight, hreader]

/-! ## Sessions and streams that have not begun -/

/-- Neither a loop nor a stream of the session is there. -/
structure Dormant (s : Session) : Prop where
  nextStreamId : s.nextStreamId ≤ 1
  reader : s.reader = .unstarted
  writer : s.writer = .unstarted
  streams : ∀ k, (s.stream k).handle = false ∧ (s.stream k).closeQueued = false
  pushed : ∀ k, (s.stream k).pushed = []

theorem Dormant.prepared : Dormant (.prepared cancelled) where
  nextStreamId := le_rfl
  reader := rfl
  writer := rfl
  streams k := by
    rw [prepared_stream]
    split_ifs <;> exact ⟨rfl, rfl⟩
  pushed k := by
    rw [prepared_stream]
    split_ifs <;> rfl

/-- Nothing happens to such a session. -/
theorem Dormant.no_access (h : Dormant s) {e : SessionEvent} {calls : List Call} :
    ¬ Access config s e t calls := by
  intro haccess
  have hstreams := h.streams
  have hreader := h.reader
  have hwriter := h.writer
  cases haccess <;> simp_all [closesOf]

/-- The stream is not in use, and does not ask to be closed. -/
structure Unopened (s : Session) (k : ℕ) : Prop where
  le : k ≤ s.nextStreamId
  handle : (s.stream k).handle = false
  closeQueued : (s.stream k).closeQueued = false

namespace Unopened

variable {k : ℕ}

section

variable (h : Unopened s k)

include h

theorem of_eq (hnext : t.nextStreamId = s.nextStreamId)
    (hstream : t.stream = s.stream) : Unopened t k :=
  ⟨hnext ▸ h.le, hstream ▸ h.handle, hstream ▸ h.closeQueued⟩

variable {f : Stream → Stream}

theorem withStream {j : ℕ}
    (hf : j = k → (f (s.stream j)).handle = false ∧ (f (s.stream j)).closeQueued = false) :
    Unopened (s.withStream j f) k := by
  refine ⟨h.le, ?_, ?_⟩ <;> rw [withStream_stream] <;> split_ifs with hk
  · exact (hf hk.symm).1
  · exact h.handle
  · exact (hf hk.symm).2
  · exact h.closeQueued

theorem touch {j : ℕ} (hf : Orderly.standing (f (s.stream j)) = Orderly.standing (s.stream j)) :
    Unopened (s.withStream j f) k := by
  simp only [Orderly.standing, Prod.mk.injEq] at hf
  refine h.withStream fun hj => ?_
  rw [hf.1, hf.2.1, hj]
  exact ⟨h.handle, h.closeQueued⟩

/-- Another stream, which is in use. -/
theorem other {j : ℕ} (hj : (s.stream j).handle = true ∨ (s.stream j).closeQueued = true) :
    Unopened (s.withStream j f) k := by
  refine h.withStream fun hjk => ?_
  rw [hjk, h.handle, h.closeQueued] at hj
  simp at hj

theorem settle {j : ℕ} {waited : Bool} {result : Except IoError Unit} :
    Unopened (s.withStream j (Stream.settle waited result)) k := by
  refine h.withStream fun hjk => ?_
  cases waited <;> exact hjk ▸ ⟨h.handle, h.closeQueued⟩

theorem access {e : SessionEvent} {calls : List Call}
    (haccess : Access config s e t calls) : Unopened t k := by
  cases haccess with
  | routed _ _ _ _ | ended _ _ _ _ | chunk _ | finished _ | marked _ _ =>
    refine .touch (h.of_eq ?_ ?_) ?_ <;> rfl
  | accepted _ _ _ => refine .touch (h.of_eq ?_ ?_) (Orderly.standing_answer _ _ _) <;> rfl
  | refused _ _ _ =>
    refine .touch (h.of_eq ?_ ?_) ((Orderly.standing_answer _ _ _).trans ?_)
    · rfl
    · rfl
    · exact Orderly.standing_trySend _ _
  | broke _ _ => refine .settle (h.of_eq ?_ ?_) <;> rfl
  | misreleased _ | done _ =>
    refine .settle (.touch (h.of_eq ?_ ?_) (Orderly.standing_lose _ _)) <;> rfl
  | polled _ => exact h.touch (Orderly.standing_pollRead _ _)
  | shut hhandle _ _ _ | dropped hhandle _ _ _ =>
    refine .other (h.of_eq ?_ ?_) (.inl hhandle) <;> rfl
  | settled hhandle _ | forgot hhandle _ | abandoned hhandle _ _ => exact h.other (.inl hhandle)
  | deafened _ hqueued => exact h.other (.inr hqueued)
  | _ => exact h.of_eq rfl rfl

theorem foreign (hforeign : Foreign config s t) : Unopened t k := by
  cases hforeign with
  | access haccess => exact h.access haccess
  | flags | back _ => exact h.of_eq rfl rfl
  | @fail error =>
    refine failActive_cases (P := (Unopened · k)) error h fun a hactive => ?_
    have hnone : Unopened { s with active := none } k := h.of_eq rfl rfl
    refine hnone.touch ?_
    rw [Stream.broken, Orderly.standing_trySend, Orderly.standing_answer]
    rfl

end

theorem prepared (cancelled : Bool) : Unopened (.prepared cancelled) 1 :=
  ⟨le_rfl, ((Dormant.prepared cancelled).streams 1).1, ((Dormant.prepared cancelled).streams 1).2⟩

end Unopened

end Session

end Vole.AnyTls
