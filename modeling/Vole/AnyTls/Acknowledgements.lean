import Vole.AnyTls.Tasks

/-!
# The acknowledgements of an AnyTLS session

Who waits for the acknowledgement of a stream is answered once, from the
slot or from the hands of the writer loop that releases the stream. What a
session keeps for the streams that use it is `Attached`.
-/

namespace Vole.AnyTls

namespace Session

variable {config : Config} {s t : Session} {e : SessionEvent} {calls : List Call}
  {U V : ℕ → Prop}

/-- **What a session keeps for the streams that use it.** -/
structure Attached (U : ℕ → Prop) (s : Session) : Prop where
  slot : ∀ a, s.active = some a → U a.streamId
  reader : ∀ k, s.Holds k → U k
  releasing : ∀ k waited place a, s.writer = .releasing k waited place a → ¬ U a.streamId
  heard : ∀ k, U k → (s.stream k).acknowledgement ≠ .dropped
  asked : ∀ a, s.active = some a → a.synAck = true →
    (s.stream a.streamId).acknowledgement = .pending
  unheard : ∀ k waited place a, s.writer = .releasing k waited place a → a.synAck = true →
    (s.stream a.streamId).acknowledgement = .pending

/-- The streams that were accepted still are. -/
def Hears (s t : Session) : Prop :=
  ∀ k, (s.stream k).acknowledgement = .sent (.ok ()) → (t.stream k).acknowledgement = .sent (.ok ())

namespace Attached

section

variable (h : Attached U s)

include h

theorem congr (hU : ∀ k, V k ↔ U k) : Attached V s := by
  obtain rfl : V = U := funext fun k => propext (hU k)
  exact h

/-- No acknowledgement is touched. -/
theorem keep (hactive : ∀ a, t.active = some a → s.active = some a) (hreader : ∀ k, t.Holds k → U k)
    (hwriter : ∀ k waited place a, t.writer = .releasing k waited place a →
      ∃ before, s.writer = .releasing k waited before a)
    (hack : ∀ k, (t.stream k).acknowledgement = (s.stream k).acknowledgement) :
    Attached U t ∧ Hears s t := by
  refine ⟨⟨fun a ha => h.slot a (hactive a ha), hreader, ?_, fun k => hack k ▸ h.heard k,
    fun a ha => hack _ ▸ h.asked a (hactive a ha), ?_⟩, fun k hk => hack k ▸ hk⟩
  · intro k waited place a hw
    obtain ⟨before, hw⟩ := hwriter k waited place a hw
    exact h.releasing k waited before a hw
  · intro k waited place a hw
    obtain ⟨before, hw⟩ := hwriter k waited place a hw
    exact hack _ ▸ h.unheard k waited before a hw

/-- The writer and the slot stay, and the reader has nothing new. -/
theorem plain (hactive : t.active = s.active) (hwriter : t.writer = s.writer)
    (hreader : ∀ k, t.Holds k → U k)
    (hack : ∀ k, (t.stream k).acknowledgement = (s.stream k).acknowledgement) :
    Attached U t ∧ Hears s t :=
  h.keep (fun _ ha => hactive ▸ ha) hreader (fun _ _ place _ hw => ⟨place, hwriter ▸ hw⟩) hack

/-- The active stream is answered, if it still waits. -/
theorem answer {a : ActiveStream} {result : Except IoError Unit} (ha : s.active = some a)
    (hactive : ∀ b, t.active = some b → b.streamId = a.streamId ∧ b.synAck = false)
    (hreader : ∀ k, t.Holds k → U k) (hwriter : t.writer = s.writer)
    (hack : ∀ k, (t.stream k).acknowledgement =
      if k = a.streamId ∧ a.synAck = true then .sent result else (s.stream k).acknowledgement) :
    Attached U t ∧ Hears s t := by
  have hslot := h.slot a ha
  refine ⟨⟨fun b hb => (hactive b hb).1 ▸ hslot, hreader, fun k waited place b hw =>
    h.releasing k waited place b (hwriter ▸ hw), fun k hk => ?_, fun b hb hask => ?_, ?_⟩, ?_⟩
  · rw [hack]
    split_ifs
    · simp
    · exact h.heard k hk
  · simp [(hactive b hb).2] at hask
  · intro k waited place b hw hask
    rw [hwriter] at hw
    -- the stream that is released is not the active one
    have hne : b.streamId ≠ a.streamId := by
      intro heq
      exact h.releasing k waited place b hw (heq ▸ hslot)
    rw [hack, if_neg (by simp [hne])]
    exact h.unheard k waited place b hw hask
  · intro k hk
    rw [hack, if_neg]
    · exact hk
    · rintro ⟨rfl, hask⟩
      simp [h.asked a ha hask] at hk

/-- The sender of the stream that is released goes away. -/
theorem lose {k : ℕ} {waited : Bool} {place : Place} {a : ActiveStream}
    (hw : s.writer = .releasing k waited place a) (hactive : t.active = s.active)
    (hreader : ∀ k, t.Holds k → U k)
    (hwriter : ∀ k waited place a, t.writer ≠ .releasing k waited place a)
    (hack : ∀ j, (t.stream j).acknowledgement =
      if j = a.streamId ∧ a.synAck = true then .dropped else (s.stream j).acknowledgement) :
    Attached U t ∧ Hears s t := by
  have hfree := h.releasing k waited place a hw
  have hother {j : ℕ} (hj : U j) : (t.stream j).acknowledgement = (s.stream j).acknowledgement := by
    rw [hack, if_neg]
    rintro ⟨rfl, -⟩
    exact hfree hj
  refine ⟨⟨fun b hb => h.slot b (hactive ▸ hb), hreader, fun _ _ _ _ hw' => absurd hw' (hwriter _ _ _ _),
    fun j hj => hother hj ▸ h.heard j hj, fun b hb hask => ?_,
    fun _ _ _ _ hw' => absurd hw' (hwriter _ _ _ _)⟩, ?_⟩
  · rw [hactive] at hb
    rw [hother (h.slot b hb)]
    exact h.asked b hb hask
  · intro j hj
    rw [hack, if_neg]
    · exact hj
    · rintro ⟨rfl, hask⟩
      simp [h.unheard k waited place a hw hask] at hj

/-- The active stream is taken, and nobody uses the session then. -/
theorem take {k : ℕ} {waited : Bool} {a : ActiveStream}
    (ha : s.active = some a) (hclear : ∀ j, ¬ s.Holds j) (hfree : ∀ j, ¬ V j) :
    Attached V { s with active := none, writer := .releasing k waited .taken a } where
  slot := by simp
  reader j hj := absurd hj (hclear j)
  releasing _ _ _ b _ := hfree b.streamId
  heard j hj := absurd hj (hfree j)
  asked := by simp
  unheard := by
    rintro _ _ _ _ ⟨⟩ hask
    exact h.asked a ha hask

end

theorem acknowledgement_withStream {j : ℕ} {f : Stream → Stream} {b : Bool} {new : Acknowledgement}
    (hf : (f (s.stream j)).acknowledgement =
      if b = true then new else (s.stream j).acknowledgement) (k : ℕ) :
    ((s.withStream j f).stream k).acknowledgement =
      if k = j ∧ b = true then new else (s.stream k).acknowledgement := by
  by_cases hk : k = j
  · subst hk
    simpa using hf
  · simp [hk]

theorem acknowledgement_answer (synAck : Bool) (result : Except IoError Unit) (stream : Stream) :
    (Stream.answer synAck result stream).acknowledgement =
      if synAck = true then .sent result else stream.acknowledgement := by
  cases synAck <;> rfl

theorem acknowledgement_settle (waited : Bool) (result : Except IoError Unit) (stream : Stream) :
    (Stream.settle waited result stream).acknowledgement = stream.acknowledgement := by
  cases waited <;> rfl

theorem acknowledgement_trySend (stream : Stream) (event : StreamEvent) :
    (stream.trySend config event).acknowledgement = stream.acknowledgement := by
  unfold Stream.trySend
  split_ifs <;> rfl

theorem acknowledgement_pollRead (stream : Stream) (room : ℕ) :
    (stream.pollRead room).acknowledgement = stream.acknowledgement := by
  unfold Stream.pollRead
  split_ifs
  · rfl
  · rfl
  · split <;> rfl

/-- **What an access that releases nothing does to the acknowledgements.** -/
theorem access (h : Attached U s) (haccess : Access config s e t calls)
    (he : s.releases e = none) : Attached U t ∧ Hears s t := by
  have hwith {u : Session} {j : ℕ} {f : Stream → Stream}
      (hf : (f (u.stream j)).acknowledgement = (u.stream j).acknowledgement) (k : ℕ) :
      ((u.withStream j f).stream k).acknowledgement = (u.stream k).acknowledgement :=
    withStream_proj _ hf k
  cases haccess with
  | turned _ _ hr _ _ _ =>
    refine h.plain rfl rfl (fun k => ?_) fun _ => rfl
    rintro ⟨payload, hk | hk⟩ <;> rcases hr with rfl | rfl | rfl <;> cases hk
  | routed _ ha _ hid =>
    refine h.plain rfl rfl (fun k => ?_) (hwith rfl)
    rintro ⟨payload, hk | hk⟩ <;> cases hk
    exact hid ▸ h.slot _ ha
  | ended _ _ _ _ | finished _ => exact h.plain rfl rfl (by simp [Holds]) (hwith rfl)
  | @accepted _ a _ ha _ =>
    exact h.answer ha (by simp) (by simp [Holds]) rfl
      (acknowledgement_withStream (acknowledgement_answer _ _ _))
  | @refused _ a _ ha _ =>
    have hanswer (stream : Stream) :
        (((stream.fail rejection).trySend config (.failed rejection)).answer a.synAck
          (.error rejection)).acknowledgement =
            if a.synAck = true then .sent (.error rejection) else stream.acknowledgement := by
      rw [acknowledgement_answer, acknowledgement_trySend]
      rfl
    exact h.answer ha (by simp) (by simp [Holds]) rfl (acknowledgement_withStream (hanswer _))
  | checked hr =>
    refine h.plain rfl rfl (fun k => ?_) fun _ => rfl
    rintro ⟨payload, hk | hk⟩ <;> cases hk
    exact h.reader _ ⟨_, .inl hr⟩
  | @chunk k rest hr =>
    refine h.plain rfl rfl (fun j => ?_) (hwith rfl)
    have hk := h.reader k ⟨rest, .inr hr⟩
    rintro ⟨payload, hj | hj⟩
    · simp only [withStream_reader] at hj
      split_ifs at hj
    · simp only [withStream_reader] at hj
      split_ifs at hj
      cases hj
      exact hk
  | passed _ _ => exact h.plain rfl rfl (by simp [Holds]) fun _ => rfl
  | wrote _ _ hw _ _ _ _ =>
    exact h.keep (fun _ => id) h.reader (fun k waited place a hw' => absurd hw' (hw k waited place a))
      fun _ => rfl
  | broke _ _ =>
    exact h.keep (fun _ => id) h.reader (by simp) (hwith (acknowledgement_settle _ _ _))
  | misreleased hw | done hw =>
    refine h.lose hw rfl (fun k hk => h.reader k hk) (by simp) fun j => ?_
    rw [hwith (acknowledgement_settle _ _ _)]
    exact acknowledgement_withStream (by cases ActiveStream.synAck _ <;> rfl) j
  | taken hw ha => simp [releases, hw, ha] at he
  | marked hw _ =>
    exact h.keep (fun _ => id) h.reader (by rintro _ _ _ _ ⟨⟩; exact ⟨_, hw⟩) (hwith rfl)
  | unclosed hw _ | freed hw _ =>
    exact h.keep (fun _ => id) h.reader (by rintro _ _ _ _ ⟨⟩; exact ⟨_, hw⟩) fun _ => rfl
  | polled _ => exact h.plain rfl rfl h.reader (hwith (acknowledgement_pollRead _ _))
  | sent _ _ _ => exact h.plain rfl rfl h.reader fun _ => rfl
  | _ => exact h.plain rfl rfl h.reader (hwith rfl)

theorem fail (h : Attached U s) (error : IoError) :
    Attached U (s.failActive config error) ∧ Hears s (s.failActive config error) := by
  refine failActive_cases (P := fun t => Attached U t ∧ Hears s t) error
    (h.plain rfl rfl h.reader fun _ => rfl) fun a hactive => ?_
  have hbroken (stream : Stream) :
      (stream.broken config a.synAck error).acknowledgement =
        if a.synAck = true then .sent (.error ⟨error.kind, boundedMessage error.text⟩)
        else stream.acknowledgement := by
    rw [Stream.broken, acknowledgement_trySend, acknowledgement_answer]
    rfl
  exact h.answer hactive (by simp) (fun k hk => h.reader k hk) rfl
    (acknowledgement_withStream (hbroken _))

/-- A new stream is put into the slot. -/
theorem fill (h : Attached U s) {k : ℕ} {openDone : Option (Except IoError Unit)}
    (hbelow : Below k s) (hU : ∀ j, V j ↔ U j ∨ j = k) :
    Attached V (({ s with active := some ⟨k, true⟩, openDone } : Session).withStream k
      fun _ => .fresh) ∧
    Hears s (({ s with active := some ⟨k, true⟩, openDone } : Session).withStream k
      fun _ => .fresh) := by
  have hack (j : ℕ) : ((({ s with active := some ⟨k, true⟩, openDone } : Session).withStream k
      fun _ => .fresh).stream j).acknowledgement =
        if j = k then .pending else (s.stream j).acknowledgement := by
    rw [withStream_stream]
    split_ifs <;> rfl
  have hreleasing {j : ℕ} {waited : Bool} {place : Place} {a : ActiveStream}
      (hw : s.writer = .releasing j waited place a) : a.streamId ≠ k :=
    (hbelow.releasing j waited place a hw).2.ne
  refine ⟨⟨?_, fun j hj => (hU j).mpr (.inl (h.reader j hj)), ?_, ?_, ?_, ?_⟩, ?_⟩
  · rintro a ⟨⟩
    exact (hU k).mpr (.inr rfl)
  · intro j waited place a hw hV
    rcases (hU _).mp hV with hold | hk
    · exact h.releasing j waited place a hw hold
    · exact hreleasing hw hk
  · intro j hj
    rw [hack]
    split_ifs with hjk
    · simp
    · exact h.heard j (((hU j).mp hj).resolve_right hjk)
  · rintro a ⟨⟩ -
    rw [hack, if_pos rfl]
  · intro j waited place a hw hask
    rw [hack, if_neg (hreleasing hw)]
    exact h.unheard j waited place a hw hask
  · intro j hj
    rw [hack, if_neg]
    · exact hj
    · rintro rfl
      simp [hbelow.pristine j le_rfl] at hj

theorem prepared (cancelled : Bool) (hV : V 1) : Attached V (.prepared cancelled) := by
  have hack (k : ℕ) : ((Session.prepared cancelled).stream k).acknowledgement = .pending := by
    rw [prepared_stream]
    split_ifs <;> rfl
  refine ⟨?_, by simp [Session.prepared, Holds], by simp [Session.prepared], by simp [hack],
    by simp [hack], by simp [Session.prepared]⟩
  rintro a ⟨⟩
  exact hV

end Attached

end Session

end Vole.AnyTls
