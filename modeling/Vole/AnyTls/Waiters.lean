import Vole.AnyTls.Acknowledgements
import Vole.AnyTls.Users

/-!
# Waiting for an acknowledgement

Who waits for the acknowledgement of a stream fails the session where the
channel is dropped, and `release_stream` drops it: a stream that is closed
before its acknowledgement comes takes the next stream of its session down
with it (`late_waiter_fails_next`). Where no stream is released before its
acknowledgement, while a call of `fail` is under way or while the reader
loop has data for it (`settled`), a stream is failed by the transport, by a
shutdown and by itself only (`fails_concern_stream`).
-/

namespace Vole.AnyTls

open List Function

/-- The server has accepted the stream, and whoever waits for that was
told. -/
def Stream.accepted (stream : Stream) : Bool :=
  match stream.acknowledgement with
  | .sent (.ok ()) => true
  | _ => false

/-- The reader loop has data for the stream. -/
def Reader.hasDataFor (k : ℕ) : Reader → Bool
  | .targeting j _ => j = k
  | .pushing j _ => j = k
  | _ => false

/-- The stream that a call of `fail` is about. -/
def Caller.stream : Caller → Option ℕ
  | .pushing k => some k
  | .opening k => some k
  | .abandoned k => some k
  | .waiter k _ => some k
  | _ => none

/-- **Who may fail a stream**: the two loops, a shutdown, and whoever has to
do with this very stream, but not a waiter that was left without an
answer. -/
def Caller.Concerns (k : ℕ) : Caller → Prop
  | .expiry => False
  | .waiter j cause => j = k ∧ cause ≠ .stopped
  | caller => ∀ j, caller.stream = some j → j = k

namespace Client

open Session

variable {config : Config} {s t : Client} {e : ClientEvent} {stage : ℕ → Stage}
  {history : List (Client × ClientEvent)}

/-! ## Releasing in order -/

/-- **A stream is released in order**: nobody still waits for its
acknowledgement, no call of `fail` on its session is under way, and the
reader loop has no data for it. -/
def settled (s : Client) : ClientEvent → Bool
  | .session S event =>
    ((s.session S).releases event).all fun k =>
      (s.waiters.all fun w =>
        w.done || w.sequence ≠ S || w.streamId ≠ k || ((s.session S).stream k).accepted) &&
      (s.fails.all fun f => f.sequence ≠ S || f.place = .returned || f.place = .skipped) &&
      !(s.session S).reader.hasDataFor k
  | _ => true

/-- **What holds where streams are released in order.** -/
structure Tended (stage : ℕ → Stage) (s : Client) : Prop where
  attached : ∀ S, Attached (s.Uses stage S) (s.session S)
  waiters : ∀ w ∈ s.waiters, w.done = false → s.Uses stage w.sequence w.streamId ∨
    ((s.session w.sequence).stream w.streamId).acknowledgement = .sent (.ok ())
  about : ∀ f ∈ s.fails, f.place ≠ .returned → f.place ≠ .skipped → ∀ k,
    f.call.caller.stream = some k → s.Uses stage f.sequence k ∨ stage f.sequence = .lost
  expiry : ∀ f ∈ s.fails, f.call.caller = .expiry →
    stage f.sequence = .pooled ∧ f.sequence ∉ s.idle
  stopped : ∀ f ∈ s.fails, ∀ k, f.call.caller ≠ .waiter k .stopped

namespace Tended

/-- What a release finds. -/
theorem of_settled (hsettled : s.settled e = true) {S k : ℕ} (hfrees : s.frees S e = some k) :
    (∀ w ∈ s.waiters, w.sequence = S → w.streamId = k → w.done = false →
      ((s.session S).stream k).acknowledgement = .sent (.ok ())) ∧
    (∀ f ∈ s.fails, f.sequence = S → f.place = .returned ∨ f.place = .skipped) ∧
    ¬ (s.session S).Holds k := by
  cases e with
  | session R event =>
    simp only [frees, Option.ite_none_right_eq_some] at hfrees
    simp only [settled, hfrees, Option.all_some, Bool.and_eq_true, all_eq_true] at hsettled
    obtain ⟨⟨hwaiters, hfails⟩, hreader⟩ := hsettled
    refine ⟨?_, ?_, ?_⟩
    · rintro w hw rfl rfl hdone
      have haccepted : ((s.session w.sequence).stream w.streamId).accepted = true := by
        simpa [hdone] using hwaiters w hw
      unfold Stream.accepted at haccepted
      split at haccepted
      · assumption
      · cases haccepted
    · rintro f hf rfl
      simpa using hfails f hf
    · rintro ⟨payload, hr | hr⟩ <;> simp [hr, Reader.hasDataFor] at hreader
  | _ => cases hfrees

section Sessions

/-- A stream is released in order. -/
theorem attached_release (h : Tended stage s) (hsound : Sound stage s) {S k : ℕ}
    {event : SessionEvent} {x : Session} {calls : List Call}
    (hsettled : s.settled (.session S event) = true)
    (haccess : Access config (s.session S) event x calls)
    (hrel : (s.session S).releases event = some k) :
    (∀ {V : ℕ → Prop}, (∀ j, ¬ V j) → Attached V x) ∧ Hears (s.session S) x := by
  obtain ⟨hcloses, waited, rfl, hw⟩ := mem_closes_of_releases hrel
  have hfrees : s.frees S (.session S .release) = some k := by simpa [frees] using hrel
  have hclear : ∀ j, ¬ (s.session S).Holds j := by
    intro j hj
    -- the reader has data for the user of the session, which is the stream that is released
    have hstage : s.Uses stage S k := .inl ((hsound.owned.fits S).closing k hcloses)
    obtain rfl := hsound.owned.uses_unique ((h.attached S).reader j hj) hstage
    exact (of_settled hsettled hfrees).2.2 hj
  cases haccess with
  | taken _ ha => exact ⟨fun hV => (h.attached S).take ha hclear hV, fun _ => id⟩
  | turned _ _ _ _ _ he | wrote _ _ _ _ _ _ he | sent _ _ he => exact absurd rfl he
  | broke _ hactive => simp [releases, hw, hactive rfl] at hrel
  | misreleased hw' | marked hw' _ | unclosed hw' _ | freed hw' _ | done hw' => simp [hw] at hw'

/-- **Every session keeps its acknowledgements over a step.** -/
theorem attached_turn (h : Tended stage s) (hsound : Sound stage s) (hsettled : s.settled e = true)
    (hturn : Turn config s e t) (R : ℕ) :
    Attached (t.Uses (restage stage s e t) R) (t.session R) ∧
      (¬ s.Unstarted R → Hears (s.session R) (t.session R)) := by
  have huses := hsound.owned.uses_turn hturn R
  -- the session has another user, or none
  have hother {S : ℕ} {x : Session} (hsession : t.session = update s.session S x)
      (hputs : R ≠ S → s.puts R e = none) (hfrees : R ≠ S → s.frees R e = none)
      (hself : R = S → Attached (t.Uses (restage stage s e t) R) x ∧
        (¬ s.Unstarted R → Hears (s.session R) x)) :
      Attached (t.Uses (restage stage s e t) R) (t.session R) ∧
        (¬ s.Unstarted R → Hears (s.session R) (t.session R)) := by
    rw [hsession]
    by_cases hRS : R = S
    · rw [hRS, update_self, ← hRS]
      exact hself hRS
    · rw [update_of_ne hRS]
      exact ⟨(h.attached R).congr fun k => by simp [huses, hputs hRS, hfrees hRS], fun _ _ => id⟩
  have hone {S : ℕ} {x : Session} (hputs : ∀ R, s.puts R e = none)
      (hfrees : ∀ R, s.frees R e = none) (hsession : t.session = update s.session S x)
      (hx : Attached (s.Uses stage S) x ∧ Hears (s.session S) x) := by
    refine hother hsession (fun _ => hputs R) (fun _ => hfrees R) ?_
    rintro rfl
    exact ⟨hx.1.congr fun k => by simp [huses, hputs, hfrees], fun _ => hx.2⟩
  have hnone (hputs : ∀ R, s.puts R e = none) (hfrees : ∀ R, s.frees R e = none)
      (hsession : t.session = s.session) :=
    hone hputs hfrees (hsession.trans (update_eq_self R _).symm) ⟨h.attached R, fun _ => id⟩
  cases hturn with
  | reused hold _ | missed hold _ | looked hold | exhausted hold | answered hold | dialing hold
  | unregistered hold =>
    exact hnone (by simp [puts, hold]) (fun _ => rfl) rfl
  | forwent hold =>
    rcases hold with hold | hold <;> exact hnone (by simp [puts, hold]) (fun _ => rfl) rfl
  | @woke i S hold _ | @numbered i S hold | @sent i S k hold =>
    exact hone (by simp [puts, hold]) (fun _ => rfl) rfl
      ((h.attached S).plain rfl rfl (h.attached S).reader fun _ => rfl)
  | retained hold hactive =>
    refine hnone (fun Q => ?_) (fun _ => rfl) rfl
    simp only [puts, hold, ite_eq_right_iff]
    rintro ⟨rfl, hempty⟩
    simp [hempty] at hactive
  | @filled i S k hold hactive =>
    have hbelow := ((hsound.ready i _ hold).numbered S k rfl).2
    refine hother rfl (fun hRS => by simp [puts, hold, Ne.symm hRS]) (fun _ => rfl) ?_
    rintro rfl
    obtain ⟨hx, hears⟩ := (h.attached R).fill hbelow fun j =>
      (huses j).trans (by simp [frees, puts, hold, hactive, eq_comm])
    exact ⟨hx, fun _ => hears⟩
  | @failed _ i S k _ _ he hold _ _ =>
    have hx := (h.attached S).plain (t := (s.session S).withStream k ({ · with receiver := false }))
      rfl rfl (h.attached S).reader (withStream_proj _ rfl)
    rcases he with rfl | ⟨_, rfl⟩ <;> rcases hold with hold | hold <;>
      exact hone (by simp [puts, hold]) (fun _ => rfl) rfl hx
  | @opened i S k _ hold _ | @started i S _ hold _ =>
    exact hone (by simp [puts, hold]) (fun _ => rfl) rfl
      ((h.attached S).plain rfl rfl (h.attached S).reader (withStream_proj _ rfl))
  | undialed he hold =>
    rcases he with rfl | rfl | ⟨_, rfl⟩ <;> rcases hold with hold | ⟨_, hold⟩ <;>
      exact hnone (by simp [puts, hold]) (fun _ => rfl) rfl
  | @dialed i S hold =>
    refine hother rfl (fun hRS => by simp [puts, hold, Ne.symm hRS]) (fun _ => rfl) ?_
    rintro rfl
    refine ⟨.prepared _ ((huses 1).mpr (.inr (by simp [puts, hold]))), fun hstarted => ?_⟩
    exact absurd (.inr ⟨i, .inl hold⟩) hstarted
  | @barred i S hold =>
    refine hone (by simp [puts, hold]) (fun _ => rfl) rfl ((h.attached S).keep (fun _ => id)
      (fun k hk => (h.attached S).reader k hk) (by simp) (withStream_proj _ rfl))
  | @registered i S hold =>
    exact hone (by simp [puts, hold]) (fun _ => rfl) rfl
      ((h.attached S).keep (fun _ => id) (by simp [Holds]) (by simp) fun _ => rfl)
  | swapped _ _ _ | stored _ _ | cancelled _ _ =>
    exact hone (fun _ => rfl) (fun _ => rfl) rfl
      ((h.attached _).plain rfl rfl (h.attached _).reader fun _ => rfl)
  | took _ _ => exact hone (fun _ => rfl) (fun _ => rfl) rfl ((h.attached _).fail _)
  | ceased he _ _ _ =>
    rcases he with rfl | rfl | rfl <;> exact hnone (fun _ => rfl) (fun _ => rfl) rfl
  | @accessed S event session calls haccess =>
    cases hrel : (s.session S).releases event with
    | none =>
      refine hone (fun _ => rfl) (fun Q => ?_) rfl ((h.attached S).access haccess hrel)
      simp only [frees, ite_eq_right_iff]
      rintro rfl
      exact hrel
    | some k =>
      obtain ⟨hx, hears⟩ := h.attached_release hsound hsettled haccess hrel
      refine hother rfl (fun _ => rfl) (fun hRS => by simp [frees, Ne.symm hRS]) ?_
      rintro rfl
      exact ⟨hx fun j => by simp [huses, frees, puts, hrel], fun _ => hears⟩
  | @returned S now k waited a _ _ hw _ _ =>
    refine hone (fun _ => rfl) (fun _ => rfl) rfl ((h.attached S).keep (fun _ => id)
      (fun k hk => (h.attached S).reader k hk) ?_ fun _ => rfl)
    rintro _ _ _ _ ⟨⟩
    exact ⟨_, hw⟩
  | stopped | dropped _ =>
    obtain ⟨hx, hears⟩ := (h.attached R).plain (t := { s.session R with cancelled := true })
      rfl rfl (h.attached R).reader fun _ => rfl
    exact ⟨hx.congr fun k => by simp [huses, puts, frees], fun _ => hears⟩
  | _ => exact hnone (fun _ => rfl) (fun _ => rfl) rfl

end Sessions

/-! ## Calls and waiters -/

/-- A call that was made before, and has gone on since. -/
def Continues (s : Client) (f : Failing) : Prop :=
  ∃ g ∈ s.fails, g.sequence = f.sequence ∧ g.call = f.call ∧
    (f.place ≠ .returned → f.place ≠ .skipped → g.place ≠ .returned ∧ g.place ≠ .skipped)

/-- What is known of a call of `fail` that a step makes. -/
structure Arises (stage : ℕ → Stage) (s : Client) (e : ClientEvent) (t : Client) (S : ℕ)
    (call : Call) : Prop where
  expiry : call.caller = .expiry → restage stage s e t S = .pooled ∧ S ∉ t.idle
  about : ∀ k, call.caller.stream = some k →
    s.Uses stage S k ∧ s.frees S e = none ∨ restage stage s e t S = .lost
  stopped : ∀ k, call.caller ≠ .waiter k .stopped

/-- Calls of the loops and of a shutdown. -/
theorem Arises.plain {S : ℕ} {call : Call}
    (h : call.caller = .reader ∨ call.caller = .writer ∨ call.caller = .shutdown) :
    Arises stage s e t S call := by
  rcases h with h | h | h <;> exact ⟨by simp [h], by simp [h, Caller.stream], by simp [h]⟩

/-- Who calls `fail` in an access. -/
theorem callers_of_access {x y : Session} {event : SessionEvent} {calls : List Call}
    (haccess : Access config x event y calls) : ∀ c ∈ calls,
      (c.caller = .reader ∨ c.caller = .writer ∨ c.caller = .shutdown) ∨
      event ≠ .release ∧ ∃ k, c.caller = .pushing k ∧ x.Holds k ∨
        c.caller = .abandoned k ∧ x.slot = some k := by
  intro c hc
  cases haccess with
  | turned _ _ _ _ hcalls he =>
    rcases hcalls c hc with hreader | ⟨k, rest, hcaller, hreader⟩
    · exact .inl (.inl hreader)
    · exact .inr ⟨he, k, .inl ⟨hcaller, rest, .inr hreader⟩⟩
  | refused _ _ _ | broke _ _ | misreleased _ => simp_all
  | wrote _ _ _ _ _ hcalls _ => exact .inl (.inr (.inl (hcalls c hc)))
  | @abandoned k _ _ _ hcalls =>
    obtain ⟨hcaller, hmatches⟩ := hcalls c hc
    refine .inr ⟨by simp, k, .inr ⟨hcaller, ?_⟩⟩
    simp only [activeMatches, Option.any_eq_true, decide_eq_true_eq] at hmatches
    obtain ⟨a, ha, hid⟩ := hmatches
    simp [slot, ha, hid]
  | _ => simp at hc

/-- A waiter that ends has timed out or was refused. -/
theorem arises_of_ceased (h : Tended stage s) {w : Waiter} {call : Call} (hw : w ∈ s.waiters)
    (hdone : w.done = false) (hfrees : s.frees w.sequence e = none)
    (hcall : ∃ cause, call.caller = .waiter w.streamId cause ∧
      match cause with
      | .answered => ∃ error,
        ((s.session w.sequence).stream w.streamId).acknowledgement = .sent (.error error)
      | .stopped => ((s.session w.sequence).stream w.streamId).acknowledgement = .dropped
      | .timedOut => ((s.session w.sequence).stream w.streamId).acknowledgement = .pending) :
    Arises stage s e t w.sequence call := by
  obtain ⟨cause, hcaller, hcause⟩ := hcall
  have huses : s.Uses stage w.sequence w.streamId := by
    refine (h.waiters w hw hdone).resolve_right fun hok => ?_
    cases cause with
    | answered =>
      obtain ⟨error, herror⟩ := hcause
      simp [hok] at herror
    | stopped | timedOut => simp [hok] at hcause
  refine ⟨by simp [hcaller], ?_, ?_⟩
  · intro k hk
    obtain rfl : w.streamId = k := by simpa [hcaller, Caller.stream] using hk
    exact .inl ⟨huses, hfrees⟩
  · intro k hk
    obtain ⟨rfl, rfl⟩ : w.streamId = k ∧ cause = .stopped := by simpa [hcaller] using hk
    exact (h.attached w.sequence).heard _ huses hcause

/-- **Who calls `fail` in a step.** -/
theorem calls_of_turn (h : Tended stage s) (hsound : Sound stage s) (hturn : Turn config s e t) :
    ∀ f ∈ t.fails, Continues s f ∨ Arises stage s e t f.sequence f.call := by
  have hold {f : Failing} (hf : f ∈ s.fails) : Continues s f :=
    ⟨f, hf, rfl, rfl, fun h1 h2 => ⟨h1, h2⟩⟩
  have hmore {fails : List Failing} (hnew : ∀ f ∈ fails, Arises stage s e t f.sequence f.call) :
      ∀ f ∈ s.fails ++ fails, Continues s f ∨ Arises stage s e t f.sequence f.call :=
    forall_mem_append.mpr ⟨fun _ hf => .inl (hold hf), fun f hf => .inr (hnew f hf)⟩
  have hcall {S : ℕ} {calls : List Call} (hcalls : ∀ c ∈ calls, Arises stage s e t S c) :
      ∀ f ∈ s.fails ++ calls.map (⟨S, ·, .swap⟩), _ := hmore (forall_mem_map.mpr hcalls)
  have hgoes {j : ℕ} {g f : Failing} {place : FailPlace} (hg : s.fails[j]? = some g)
      (hplace : g.place ≠ .returned ∧ g.place ≠ .skipped)
      (hf : f ∈ s.fails.set j { g with place }) :
      Continues s f ∨ Arises stage s e t f.sequence f.call := by
    rcases mem_or_eq_of_mem_set hf with hf | rfl
    · exact .inl (hold hf)
    · exact .inl ⟨g, mem_of_getElem? hg, rfl, rfl, fun _ _ => hplace⟩
  -- a task that leaves the session without a stream leaves it for good
  have hlost {i S k : ℕ} {old : Opening} {error : IoError} (he : e = .advance i)
      (hopens : s.opens[i]? = some old) (hheld : old.holding = some (S, none))
      (hafter : t.opens = s.opens.set i .fresh) :
      Arises stage s e t S ⟨.opening k, error⟩ := by
    refine ⟨by simp, fun _ _ => .inr ?_, by simp⟩
    have hbefore : s.held i = some (S, none) := (Owned.held_of_opens hopens).trans hheld
    have hnone : t.held i = none := Owned.held_set_self hopens hafter
    subst he
    simp only [restage, hbefore, hnone, passed, update_self, left]
  cases hturn with
  | exhausted hopens | retained hopens _ =>
    refine hcall fun c hc => ?_
    obtain rfl := mem_singleton.mp hc
    exact hlost rfl hopens rfl rfl
  | @failed _ i S k _ _ he hopens hcallers _ =>
    have hheld : s.held i = some (S, some k) := by
      rcases hopens with hopens | hopens <;> exact Owned.held_of_opens hopens
    have hfrees : s.frees S e = none := by rcases he with rfl | ⟨_, rfl⟩ <;> rfl
    refine hcall fun c hc => ?_
    have hcaller := hcallers c hc
    refine ⟨by simp [hcaller], fun l hl => .inl ⟨.inr ⟨i, ?_⟩, hfrees⟩, by simp [hcaller]⟩
    obtain rfl : k = l := by simpa [hcaller, Caller.stream] using hl
    exact hheld
  | barred _ =>
    refine hcall fun c hc => .plain ?_
    obtain rfl := mem_singleton.mp hc
    exact .inr (.inr rfl)
  | skipped hg hplace | swapped hg hplace _ | stored hg hplace | cancelled hg hplace
  | took hg hplace | removed hg hplace _ | outlived hg hplace _ =>
    exact fun f => hgoes hg (by simp [hplace])
  | ceased he hw hdone hcalls =>
    refine hcall fun c hc => ?_
    refine h.arises_of_ceased (mem_of_getElem? hw) hdone ?_ (hcalls c hc)
    rcases he with rfl | rfl | rfl <;> rfl
  | @accessed S event session calls haccess =>
    refine hcall fun c hc => ?_
    rcases callers_of_access haccess c hc with hplain | ⟨hevent, k, hown⟩
    · exact .plain hplain
    have hfrees : s.frees S (.session S event) = none := by
      simpa [frees] using releases_of_ne hevent
    have huses : s.Uses stage S k :=
      hown.elim (fun hk => (h.attached S).reader k hk.2) fun hk => (hsound.owned.fits S).slot k hk.2
    rcases hown with ⟨hcaller, -⟩ | ⟨hcaller, -⟩ <;>
      refine ⟨by simp [hcaller], fun l hl => .inl ⟨?_, hfrees⟩, by simp [hcaller]⟩ <;>
      obtain rfl : k = l := by simpa [hcaller, Caller.stream] using hl
    all_goals exact huses
  | returned _ _ hcallers =>
    exact hcall fun c hc => .plain (.inr (.inr (hcallers c hc)))
  | expired _ hfails =>
    refine hmore fun f hf => ?_
    obtain ⟨hcaller, -, hidle, hgone, -⟩ := hfails f hf
    have hpooled := hsound.owned.pooled _ hidle
    exact ⟨fun _ => ⟨hpooled, hgone⟩, by simp [hcaller, Caller.stream], by simp [hcaller]⟩
  | shutdown | dropped _ => exact hmore (forall_mem_map.mpr fun _ _ => .plain (.inr (.inr rfl)))
  | _ => exact fun _ hf => .inl (hold hf)

/-- Where the waiters come from. -/
theorem waiters_of_turn (hturn : Turn config s e t) :
    ∀ w ∈ t.waiters, w.done = false → w ∈ s.waiters ∨
      s.Opens w.sequence w.streamId ∧ s.frees w.sequence e = none := by
  intro w hw hdone
  cases hturn with
  | @opened i S k waiters hopens hwaiters =>
    rcases hwaiters with rfl | rfl
    · rcases mem_concat.mp hw with hw | rfl
      · exact .inl hw
      · exact .inr ⟨⟨i, Owned.held_of_opens hopens⟩, rfl⟩
    · exact .inl hw
  | ceased _ _ _ _ =>
    rcases mem_or_eq_of_mem_set hw with hw | rfl
    · exact .inl hw
    · cases hdone
  | _ => exact .inl hw

theorem init : Tended (fun _ => .unborn) new where
  attached S := ⟨by simp [new], by simp [new, Holds], by simp [new], by simp [new], by simp [new],
    by simp [new]⟩
  waiters := by simp [new]
  about := by simp [new]
  expiry := by simp [new]
  stopped := by simp [new]

/-- **A step in which streams are released in order keeps it.** -/
theorem turn (h : Tended stage s) (hsound : Sound stage s) (hsettled : s.settled e = true)
    (hturn : Turn config s e t) : Tended (restage stage s e t) t := by
  have howned := hsound.owned
  have hattached := h.attached_turn hsound hsettled hturn
  have hcalls := h.calls_of_turn hsound hturn
  have huses := howned.uses_turn hturn
  -- who used a session does so, unless it is released
  have hkept {S k : ℕ} (hk : s.Uses stage S k) :
      t.Uses (restage stage s e t) S k ∨ s.frees S e = some k := by
    cases hfrees : s.frees S e with
    | none => exact .inl ((huses S k).mpr (.inl ⟨hk, hfrees⟩))
    | some l => rw [howned.uses_unique hk (.inl (howned.streaming_of_frees hfrees))]; exact .inr rfl
  constructor
  · exact fun S => (hattached S).1
  · intro w hw hdone
    rcases waiters_of_turn hturn w hw hdone with hw | ⟨hopens, hfrees⟩
    · have hears := (hattached w.sequence).2 fun hun => hsound.quiet.waiters _ hun w hw rfl
      rcases h.waiters w hw hdone with hk | hok
      · rcases hkept hk with hk | hfrees
        · exact .inl hk
        · exact .inr (hears _ ((of_settled hsettled hfrees).1 w hw rfl rfl hdone))
      · exact .inr (hears _ hok)
    · exact .inl ((huses _ _).mpr (.inl ⟨.inr hopens, hfrees⟩))
  · intro f hf hreturned hskipped k hk
    rcases hcalls f hf with ⟨g, hg, hseq, hcall, hgoes⟩ | harises
    · obtain ⟨hreturned, hskipped⟩ := hgoes hreturned hskipped
      rw [← hcall] at hk
      rw [← hseq]
      rcases h.about g hg hreturned hskipped k hk with hk | hlost
      · rcases hkept hk with hk | hfrees
        · exact .inl hk
        · rcases (of_settled hsettled hfrees).2.1 g hg rfl with hover | hover
          · exact absurd hover hreturned
          · exact absurd hover hskipped
      · exact .inr ((howned.restage_of_stuck hturn (.inl hlost)).trans hlost)
    · rcases harises.about k hk with hk | hlost
      · exact .inl ((huses _ _).mpr (.inl hk))
      · exact .inr hlost
  · intro f hf hcaller
    rcases hcalls f hf with ⟨g, hg, hseq, hcall, -⟩ | harises
    · obtain ⟨hpooled, hidle⟩ := h.expiry g hg (hcall ▸ hcaller)
      rw [← hseq]
      refine ⟨(howned.restage_of_stuck hturn (.inr ⟨hpooled, hidle⟩)).trans hpooled, fun hmem => ?_⟩
      rcases howned.idle_of_turn hturn hmem with hmem | ⟨l, hl⟩
      · exact hidle hmem
      · simp [hpooled] at hl
    · exact harises.expiry hcaller
  · intro f hf k
    rcases hcalls f hf with ⟨g, hg, -, hcall, -⟩ | harises
    · exact hcall ▸ h.stopped g hg k
    · exact harises.stopped k

/-- **Who takes the active stream down has to do with it.** -/
theorem concerns (h : Tended stage s) (hsound : Sound stage s) {f : Failing} {a : ActiveStream}
    (hf : f ∈ s.fails) (hplace : f.place = .take)
    (ha : (s.session f.sequence).active = some a) : f.call.caller.Concerns a.streamId := by
  have howned := hsound.owned
  have hslot : s.Uses stage f.sequence a.streamId :=
    (howned.fits f.sequence).slot a.streamId (by simp [slot, ha])
  -- a session that is lost or pooled has no user
  have huser (hstage : stage f.sequence = .lost ∨ stage f.sequence = .pooled) : False := by
    rcases hslot with hk | ⟨i, hi⟩
    · rcases hstage with hstage | hstage <;> simp [hstage] at hk
    · have hopening := howned.opening i _ _ hi
      rcases hstage with hstage | hstage <;> simp [hstage] at hopening
  have habout (k : ℕ) (hk : f.call.caller.stream = some k) : k = a.streamId := by
    rcases h.about f hf (by simp [hplace]) (by simp [hplace]) k hk with huses | hlost
    · exact howned.uses_unique huses hslot
    · exact (huser (.inl hlost)).elim
  cases hcaller : f.call.caller with
  | expiry => exact huser (.inr (h.expiry f hf hcaller).1)
  | waiter k cause =>
    refine ⟨habout k (by simp [hcaller, Caller.stream]), ?_⟩
    rintro rfl
    exact h.stopped f hf k hcaller
  | _ =>
    rw [hcaller] at habout
    exact habout

end Tended

/-! ## Every run -/

theorem Runs.tended (h : Runs config history t) (hsettled : ∀ p ∈ history, p.1.settled p.2 = true) :
    ∃ stage, Sound stage t ∧ Tended stage t := by
  induction h with
  | start => exact ⟨_, .init, .init⟩
  | next _ hstep ih =>
    obtain ⟨stage, hsound, htended⟩ := ih fun p hp => hsettled p (mem_append_left _ hp)
    have hturn := turn_of_step hstep
    have hlast := hsettled (_, _) (mem_concat_self)
    exact ⟨_, hsound.turn hturn, htended.turn hsound hlast hturn⟩

/-- **Where streams are released in order, no stream is failed by an earlier
one.** No waiter fails its session because its channel was dropped, and
whoever takes the active stream down is a loop of the session, a shutdown,
or has to do with this very stream. -/
theorem fails_concern_stream (h : Runs config history t)
    (hsettled : ∀ p ∈ history, p.1.settled p.2 = true) :
    (∀ f ∈ t.fails, ∀ k, f.call.caller ≠ .waiter k .stopped) ∧
      ∀ s j f a, (s, ClientEvent.fail j) ∈ history → s.fails[j]? = some f → f.place = .take →
        (s.session f.sequence).active = some a → f.call.caller.Concerns a.streamId := by
  obtain ⟨stage, -, htended⟩ := h.tended hsettled
  refine ⟨htended.stopped, fun s j f a hmem hf hplace ha => ?_⟩
  obtain ⟨past, after, u, rfl, hpast, -⟩ := Run.of_mem h hmem
  obtain ⟨stage, hsound, htended⟩ :=
    Runs.tended hpast fun p hp => hsettled p (mem_append_left _ hp)
  exact htended.concerns hsound (mem_of_getElem? hf) hplace ha

section Samples

/-- The first stream, with a server of version 2, and the second one. -/
def sampleVersion : List ClientEvent :=
  sampleOpen ++ [.session 1 (.frame ⟨.serverSettings, 0, [118]⟩)] ++ sampleClose 1 ++ sampleReuse 1

/-- The second stream is accepted and closed, and the third one is not
accepted in time. -/
def sampleOrderly : List ClientEvent :=
  sampleVersion ++ [.session 1 (.frame ⟨.synAck, 2, []⟩), .acknowledged 0] ++ sampleClose 2 ++
    sampleReuse 2 ++ [.waiterTimedOut 1, .fail 0, .fail 0, .fail 0, .fail 0]

/-- **A stream that is not accepted in time.** -/
theorem fails_concern_stream_sample : ∃ history t, Runs sampleConfig history t ∧
    (∀ p ∈ history, p.1.settled p.2 = true) ∧ opened history 1 = [1, 2, 3] ∧
    ((t.session 1).stream 3).failure = some ⟨.timedOut, "AnyTLS SYNACK timed out"⟩ ∧
    ∀ f ∈ t.fails, ∀ k, f.call.caller ≠ .waiter k .stopped := by
  obtain ⟨t, hrun, hfailure⟩ := run_of_exec_any (fun s e => s.step sampleConfig e) (s := new)
    sampleOrderly (fun t => ((t.session 1).stream 3).failure =
      some ⟨.timedOut, "AnyTLS SYNACK timed out"⟩) (by decide +kernel)
  have hsettled : ∀ p ∈ trail (fun s e => s.step sampleConfig e) new sampleOrderly,
      p.1.settled p.2 = true := by
    decide +kernel
  exact ⟨_, t, hrun, hsettled, by decide +kernel, hfailure, (fails_concern_stream hrun hsettled).1⟩

/-- The second stream is closed before it is accepted, its waiter ends when
the third one is open. -/
def sampleLate : List ClientEvent :=
  sampleVersion ++ sampleClose 2 ++ sampleReuse 2 ++
    [.acknowledged 0, .fail 0, .fail 0, .fail 0, .fail 0]

/-- **The waiter of a stream that was closed fails the next one.** The second
stream is opened on a session from the pool, with a server of version 2. It
is released before its acknowledgement, which drops the channel. Its waiter
has neither timed out nor been refused, and fails the session when the third
stream is the active one. -/
theorem late_waiter_fails_next : ∃ history t, Runs sampleConfig history t ∧
    opened history 1 = [1, 2, 3] ∧ (t.session 1).peerVersion = 2 ∧
    t.fails.map (·.call) = [⟨.waiter 2 .stopped, closedPipe "AnyTLS SYNACK waiter stopped"⟩] ∧
    ((t.session 1).stream 3).failure = some (closedPipe "AnyTLS SYNACK waiter stopped") := by
  obtain ⟨t, hrun, hend⟩ := run_of_exec_any (fun s e => s.step sampleConfig e) (s := new) sampleLate
    (fun t => (t.session 1).peerVersion = 2 ∧ t.fails.map (·.call) =
        [⟨.waiter 2 .stopped, closedPipe "AnyTLS SYNACK waiter stopped"⟩] ∧
      ((t.session 1).stream 3).failure = some (closedPipe "AnyTLS SYNACK waiter stopped"))
    (by decide +kernel)
  exact ⟨_, t, hrun, by decide +kernel, hend⟩

end Samples

end Client

end Vole.AnyTls
