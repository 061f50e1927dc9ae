import Vole.AnyTls.Tasks

/-!
# What the AnyTLS client keeps

A session that is not registered is known to nobody but the task that makes
it (`Quiet`). A task finds its session as it left it (`Opening.Ready`). So
every session keeps its invariants over every step, and a session that was
failed leaves the maps of the client for good (`Mapped`).
-/

namespace Vole.AnyTls

open Session List Function

/-- **What a task can rely on**: the number it has taken is the last one of
its session, and nobody uses the stream that it has put into the slot. -/
structure Opening.Ready (session : ℕ → Session) (place : Opening) : Prop where
  numbered : ∀ S k, place = .numbered S k → k = (session S).nextStreamId ∧ Below k (session S)
  opened : ∀ S k, place.holding = some (S, some k) → Unopened (session S) k

namespace Client

variable {config : Config} {s t : Client} {e : ClientEvent} {stage : ℕ → Stage}

/-- The session is not made yet, or not registered. -/
def Unstarted (s : Client) (S : ℕ) : Prop :=
  s.nextSequence < S ∨ ∃ i : ℕ, s.opens[i]? = some (.dialing S) ∨ s.opens[i]? = some (.prepared S)

/-- **Nobody knows a session that is not registered.** -/
structure Quiet (s : Client) : Prop where
  dormant : ∀ S, s.Unstarted S → Dormant (s.session S)
  sessions : ∀ S, s.Unstarted S → S ∉ s.sessions
  fails : ∀ S, s.Unstarted S → ∀ f ∈ s.fails, f.sequence ≠ S
  waiters : ∀ S, s.Unstarted S → ∀ w ∈ s.waiters, w.sequence ≠ S

namespace Quiet

theorem init : Quiet new where
  dormant S _ := ⟨Nat.zero_le _, rfl, rfl, fun _ => ⟨rfl, rfl⟩, fun _ => rfl⟩
  sessions := by simp [new]
  fails := by simp [new]
  waiters := by simp [new]

/-- What nobody knows stays so. -/
theorem keep (h : Quiet s) (hunstarted : ∀ S, t.Unstarted S → s.Unstarted S)
    (hdormant : ∀ S, t.Unstarted S → Dormant (t.session S))
    (hsessions : ∀ S, t.Unstarted S → S ∈ t.sessions → S ∈ s.sessions)
    (hfails : ∀ S, t.Unstarted S → ∀ f ∈ t.fails, f.sequence = S → ∃ g ∈ s.fails, g.sequence = S)
    (hwaiters : ∀ S, t.Unstarted S → ∀ w ∈ t.waiters, w.sequence = S →
      ∃ v ∈ s.waiters, v.sequence = S) : Quiet t where
  dormant := hdormant
  sessions S hS hmem := h.sessions S (hunstarted S hS) (hsessions S hS hmem)
  fails S hS f hf hfS := by
    obtain ⟨g, hg, hgS⟩ := hfails S hS f hf hfS
    exact h.fails S (hunstarted S hS) g hg hgS
  waiters S hS w hw hwS := by
    obtain ⟨v, hv, hvS⟩ := hwaiters S hS w hw hwS
    exact h.waiters S (hunstarted S hS) v hv hvS

/-- No task goes on, and no session that nobody knows is named. -/
theorem aside (h : Quiet s) (hopens : t.opens = s.opens) (hnext : t.nextSequence = s.nextSequence)
    (hdormant : ∀ R, s.Unstarted R → Dormant (t.session R))
    (hsessions : ∀ R ∈ t.sessions, R ∈ s.sessions)
    (hfails : ∀ f ∈ t.fails, f ∈ s.fails ∨ ¬ s.Unstarted f.sequence)
    (hwaiters : ∀ w ∈ t.waiters, w ∈ s.waiters ∨ ¬ s.Unstarted w.sequence) : Quiet t := by
  have hsame (R : ℕ) : t.Unstarted R ↔ s.Unstarted R := by simp only [Unstarted, hopens, hnext]
  refine h.keep (fun R => (hsame R).mp) (fun R hR => hdormant R ((hsame R).mp hR))
    (fun R _ => hsessions R) ?_ ?_
  · rintro R hR f hf rfl
    exact ⟨f, (hfails f hf).resolve_right fun hnot => hnot ((hsame _).mp hR), rfl⟩
  · rintro R hR w hw rfl
    exact ⟨w, (hwaiters w hw).resolve_right fun hnot => hnot ((hsame _).mp hR), rfl⟩

/-- A change of a session that somebody knows. -/
theorem dormant_update (h : Quiet s) {S R : ℕ} {x : Session} (hS : ¬ s.Unstarted S)
    (hR : s.Unstarted R) : Dormant (update s.session S x R) := by
  have hRS : R ≠ S := by
    rintro rfl
    exact hS hR
  rw [update_of_ne hRS]
  exact h.dormant R hR

section Task

variable {i : ℕ} {old place : Opening}

/-- The sessions that are not there after a task went on. -/
theorem unstarted_of_set (hopens : t.opens = s.opens.set i place)
    (hnext : s.nextSequence ≤ t.nextSequence) {R : ℕ} (hR : t.Unstarted R) :
    (place = .dialing R ∨ place = .prepared R) ∨ s.nextSequence < R ∨
      ∃ j : ℕ, j ≠ i ∧ (s.opens[j]? = some (.dialing R) ∨ s.opens[j]? = some (.prepared R)) := by
  rcases hR with hR | ⟨j, hj⟩
  · exact .inr (.inl (by omega))
  · rcases hj with hj | hj <;> rcases Owned.of_set hopens hj with ⟨-, hplace⟩ | ⟨hji, hj⟩
    · exact .inl (.inl hplace.symm)
    · exact .inr (.inr ⟨j, hji, .inl hj⟩)
    · exact .inl (.inr hplace.symm)
    · exact .inr (.inr ⟨j, hji, .inr hj⟩)

/-- A task goes on with the session it has. -/
theorem task (h : Quiet s) (howned : Owned stage s) {S : ℕ} {k : Option ℕ} {x : Session}
    (hold : s.opens[i]? = some old) (hheld : old.holding = some (S, k))
    (hplace : ∀ R, place ≠ .dialing R ∧ place ≠ .prepared R)
    (hopens : t.opens = s.opens.set i place) (hnext : t.nextSequence = s.nextSequence)
    (hsession : t.session = update s.session S x)
    (hsessions : ∀ R ∈ t.sessions, R ∈ s.sessions ∨ R = S)
    (hfails : ∀ f ∈ t.fails, f.sequence = S ∨ f ∈ s.fails)
    (hwaiters : ∀ w ∈ t.waiters, w.sequence = S ∨ w ∈ s.waiters) : Quiet t := by
  have hi : s.held i = some (S, k) := (Owned.held_of_opens hold).trans hheld
  have hun {R : ℕ} (hR : t.Unstarted R) : s.Unstarted R ∧ R ≠ S := by
    rcases unstarted_of_set hopens hnext.ge hR with hR | hR | ⟨j, hji, hj⟩
    · simp [hplace R] at hR
    · refine ⟨.inl hR, ?_⟩
      rintro rfl
      have hstage := howned.opening i R k hi
      simp [howned.unborn R hR] at hstage
    · refine ⟨.inr ⟨j, hj⟩, ?_⟩
      rintro rfl
      rcases hj with hj | hj <;> exact hji (howned.unique (Owned.held_of_opens hj) hi).1
  refine h.keep (fun R hR => (hun hR).1) (fun R hR => ?_) (fun R hR hmem => ?_) ?_ ?_
  · rw [hsession, update_of_ne (hun hR).2]
    exact h.dormant R (hun hR).1
  · exact (hsessions R hmem).resolve_right (hun hR).2
  · rintro R hR f hf rfl
    exact ⟨f, (hfails f hf).resolve_left (hun hR).2, rfl⟩
  · rintro R hR w hw rfl
    exact ⟨w, (hwaiters w hw).resolve_left (hun hR).2, rfl⟩

/-- A task goes on, and no session that somebody knows is forgotten. -/
theorem loose (h : Quiet s) (hplace : ∀ R, place = .dialing R ∨ place = .prepared R → s.Unstarted R)
    (hopens : t.opens = s.opens.set i place) (hnext : s.nextSequence ≤ t.nextSequence)
    (hdormant : ∀ R, s.Unstarted R → Dormant (t.session R))
    (hsessions : ∀ R ∈ t.sessions, R ∈ s.sessions) (hfails : t.fails = s.fails)
    (hwaiters : t.waiters = s.waiters) : Quiet t := by
  have hun {R : ℕ} (hR : t.Unstarted R) : s.Unstarted R := by
    rcases unstarted_of_set hopens hnext hR with hR | hR | ⟨j, -, hj⟩
    · exact hplace R hR
    · exact .inl hR
    · exact .inr ⟨j, hj⟩
  refine h.keep (fun R => hun) (fun R hR => hdormant R (hun hR)) (fun R _ => hsessions R) ?_ ?_
  · rintro R - f hf rfl
    exact ⟨f, hfails ▸ hf, rfl⟩
  · rintro R - w hw rfl
    exact ⟨w, hwaiters ▸ hw, rfl⟩

end Task

/-- A call of `fail` goes on. -/
theorem failing (h : Quiet s) {j : ℕ} {f : Failing} {x : Session} {place : FailPlace}
    (hf : s.fails[j]? = some f) (hopens : t.opens = s.opens)
    (hnext : t.nextSequence = s.nextSequence)
    (hsession : t.session = update s.session f.sequence x)
    (hsessions : ∀ R ∈ t.sessions, R ∈ s.sessions)
    (hfails : t.fails = s.fails.set j { f with place }) (hwaiters : t.waiters = s.waiters) :
    Quiet t := by
  have hS : ¬ s.Unstarted f.sequence := fun hS => h.fails _ hS f (mem_of_getElem? hf) rfl
  refine h.aside hopens hnext (fun R hR => hsession ▸ h.dormant_update hS hR) hsessions
    (fun g hg => ?_) fun w hw => .inl (hwaiters ▸ hw)
  rw [hfails] at hg
  rcases mem_or_eq_of_mem_set hg with hg | rfl
  · exact .inl hg
  · exact .inr hS

/-- **A step keeps that.** -/
theorem turn (h : Quiet s) (howned : Owned stage s) (hturn : Turn config s e t) : Quiet t := by
  have hcall {S : ℕ} {calls : List Call} : ∀ f ∈ s.fails ++ calls.map (⟨S, ·, .swap⟩ : Call → Failing),
      f.sequence = S ∨ f ∈ s.fails :=
    forall_mem_append.mpr ⟨fun _ => .inr, forall_mem_map.mpr fun _ _ => .inl rfl⟩
  have hnamed {S : ℕ} {calls : List Call} (hS : ¬ s.Unstarted S) :
      ∀ f ∈ s.fails ++ calls.map (⟨S, ·, .swap⟩ : Call → Failing),
        f ∈ s.fails ∨ ¬ s.Unstarted f.sequence :=
    forall_mem_append.mpr ⟨fun _ => .inl, forall_mem_map.mpr fun _ _ => .inr hS⟩
  have hshutdown : ∀ f ∈ s.fails ++ s.shutdownSessions, f ∈ s.fails ∨ ¬ s.Unstarted f.sequence :=
    forall_mem_append.mpr ⟨fun _ => .inl,
      forall_mem_map.mpr fun S hS => .inr fun hun => h.sessions S hun hS⟩
  have hcancel (R : ℕ) (hR : s.Unstarted R) :
      Dormant { s.session R with cancelled := true } := by
    obtain ⟨hnext, hreader, hwriter, hstreams, hpushed⟩ := h.dormant R hR
    exact ⟨hnext, hreader, hwriter, hstreams, hpushed⟩
  cases hturn with
  | began _ =>
    have hun {R : ℕ} (hR : ({ s with opens := s.opens ++ [.taking] } : Client).Unstarted R) :
        s.Unstarted R := by
      refine hR.imp_right fun ⟨j, hj⟩ => ⟨j, ?_⟩
      by_cases hjl : j = s.opens.length
      · simp [hjl] at hj
      · simpa only [Owned.getElem?_begin hjl] using hj
    exact h.keep (fun R => hun) (fun R hR => h.dormant R (hun hR)) (fun _ _ => id)
      (fun R _ f hf hfR => ⟨f, hf, hfR⟩) fun R _ w hw hwR => ⟨w, hw, hwR⟩
  | reused _ _ | missed _ _ | undialed _ _ =>
    exact h.loose (by simp) rfl le_rfl h.dormant (fun _ => id) rfl rfl
  | @looked i S hold | @answered i S _ hold =>
    exact h.task howned hold rfl (by simp) rfl rfl (update_eq_self S _).symm
      (fun _ => .inl) (fun _ => .inr) fun _ => .inr
  | @forwent i S hold =>
    rcases hold with hold | hold <;>
      exact h.task howned hold rfl (by simp) rfl rfl (update_eq_self S _).symm
        (fun _ => .inl) (fun _ => .inr) fun _ => .inr
  | woke hold _ | numbered hold | filled hold _ | sent hold =>
    exact h.task howned hold rfl (by simp) rfl rfl rfl (fun _ => .inl) (fun _ => .inr)
      fun _ => .inr
  | @exhausted i S _ hold | @retained i S _ _ hold _ =>
    exact h.task howned hold rfl (by simp) rfl rfl (update_eq_self S _).symm
      (fun _ => .inl) hcall fun _ => .inr
  | failed _ hold _ hplace =>
    rcases hplace with rfl | rfl <;> rcases hold with hold | hold <;>
      exact h.task howned hold rfl (by simp) rfl rfl rfl (fun _ => .inl) hcall
        fun _ => .inr
  | @opened i S k waiters hold hwaiters =>
    refine h.task howned hold rfl (by simp) rfl rfl rfl (fun _ => .inl) (fun _ => .inr)
      fun w hw => ?_
    rcases hwaiters with rfl | rfl
    · rcases mem_concat.mp hw with hw | rfl
      · exact .inr hw
      · exact .inl rfl
    · exact .inr hw
  | dialing _ =>
    refine h.loose (fun R hR => .inl ?_) rfl (Nat.le_succ _) h.dormant (fun _ => id) rfl rfl
    obtain rfl : s.nextSequence + 1 = R := by simpa using hR
    exact Nat.lt_succ_self _
  | @dialed i S hold =>
    refine h.loose (fun R hR => ?_) rfl le_rfl (fun R hR => ?_) (fun _ => id) rfl rfl
    · obtain rfl : S = R := by simpa using hR
      exact .inr ⟨i, .inl hold⟩
    show Dormant (update s.session S _ R)
    by_cases hRS : R = S
    · subst hRS
      rw [update_self]
      exact .prepared _
    · rw [update_of_ne hRS]
      exact h.dormant R hR
  | barred hold =>
    exact h.task howned hold rfl (by simp) rfl rfl rfl (fun _ => .inl) hcall
      fun _ => .inr
  | registered hold =>
    refine h.task howned hold rfl (by simp) rfl rfl rfl (fun R hR => ?_) (fun _ => .inr)
      fun _ => .inr
    exact (mem_append.mp hR).imp_right mem_singleton.mp
  | started hold hplace =>
    rcases hplace with rfl | rfl <;>
      exact h.task howned hold rfl (by simp) rfl rfl rfl (fun _ => .inl) (fun _ => .inr)
        fun _ => .inr
  | unregistered _ =>
    exact h.loose (by simp) rfl le_rfl h.dormant (fun R hR => (mem_filter.mp hR).1) rfl rfl
  | @skipped j f hf _ | @outlived j f hf _ _ =>
    exact h.failing hf rfl rfl (update_eq_self f.sequence _).symm (fun _ => id) rfl rfl
  | swapped hf _ _ | stored hf _ | cancelled hf _ | took hf _ =>
    exact h.failing hf rfl rfl rfl (fun _ => id) rfl rfl
  | @removed j f hf _ _ =>
    exact h.failing hf rfl rfl (update_eq_self f.sequence _).symm
      (fun R hR => (mem_filter.mp hR).1) rfl rfl
  | @ceased _ j w calls _ hw _ _ =>
    have hS : ¬ s.Unstarted w.sequence := fun hS =>
      h.waiters _ hS w (mem_of_getElem? hw) rfl
    refine h.aside rfl rfl h.dormant (fun _ => id) (hnamed hS) fun v hv => ?_
    rcases mem_or_eq_of_mem_set hv with hv | rfl
    · exact .inl hv
    · exact .inr hS
  | @accessed S event session calls haccess =>
    have hS : ¬ s.Unstarted S := fun hS => (h.dormant S hS).no_access haccess
    exact h.aside rfl rfl (fun R => h.dormant_update hS) (fun _ => id)
      (hnamed hS) fun _ => .inl
  | @returned S now k waited a idle calls hw _ _ =>
    have hS : ¬ s.Unstarted S := fun hS => by simp [(h.dormant S hS).writer] at hw
    exact h.aside rfl rfl (fun R => h.dormant_update hS) (fun _ => id)
      (hnamed hS) fun _ => .inl
  | expired _ hfails =>
    refine h.aside rfl rfl h.dormant (fun _ => id) (forall_mem_append.mpr ⟨fun _ => .inl, ?_⟩)
      fun _ => .inl
    exact fun f hf => .inr fun hS => h.sessions _ hS (hfails f hf).2.2.2.2
  | shutdown => exact h.aside rfl rfl h.dormant (fun _ => id) hshutdown fun _ => .inl
  | stopped => exact h.aside rfl rfl hcancel (fun _ => id) (fun _ => .inl) fun _ => .inl
  | dropped _ => exact h.aside rfl rfl hcancel (by simp) hshutdown fun _ => .inl

end Quiet

/-! ## What a task relies on -/

section Ready

variable {session session' : ℕ → Session} {place : Opening}

/-- A task that has put nothing into a slot relies on nothing. -/
theorem ready_of_none (hnumbered : ∀ S k, place ≠ .numbered S k)
    (hholding : ∀ S k, place.holding ≠ some (S, some k)) : place.Ready session :=
  ⟨fun S k hplace => absurd hplace (hnumbered S k), fun S k hk => absurd hk (hholding S k)⟩

/-- The other tasks change another session. -/
theorem ready_congr (h : place.Ready session)
    (hsame : ∀ S k, place.holding = some (S, k) → session' S = session S) :
    place.Ready session' where
  numbered S k hplace := by
    rw [hsame S none (by rw [hplace]; rfl)]
    exact h.numbered S k hplace
  opened S k hk := by
    rw [hsame S _ hk]
    exact h.opened S k hk

/-- Whatever is done to a session at any time leaves what a task relies
on. -/
theorem ready_foreign (h : place.Ready session)
    (hforeign : ∀ S, session' S = session S ∨ Foreign config (session S) (session' S)) :
    place.Ready session' where
  numbered S k hplace := by
    obtain ⟨hk, hbelow⟩ := h.numbered S k hplace
    rcases hforeign S with hsame | hforeign
    · rw [hsame]
      exact ⟨hk, hbelow⟩
    · exact ⟨hk.trans hforeign.nextStreamId.symm, hbelow.foreign hforeign⟩
  opened S k hk := by
    rcases hforeign S with hsame | hforeign
    · rw [hsame]
      exact h.opened S k hk
    · exact (h.opened S k hk).foreign hforeign

/-- A task that has put `k` into the slot of its session. -/
theorem ready_update {S : ℕ} {k : Option ℕ} {x : Session} (hplace : place.holding = some (S, k))
    (hnumbered : ∀ l, place = .numbered S l → l = x.nextStreamId ∧ Below l x)
    (hopened : ∀ l, k = some l → Unopened x l) : place.Ready (update session S x) where
  numbered R l hl := by
    obtain ⟨rfl, -⟩ : S = R ∧ k = none := by simpa [hl, Opening.holding, eq_comm] using hplace
    rw [update_self]
    exact hnumbered l hl
  opened R l hl := by
    obtain ⟨rfl, rfl⟩ : S = R ∧ k = some l := by simpa [hplace] using hl
    rw [update_self]
    exact hopened l rfl

end Ready

/-! ## What a step does to the sessions -/

/-- **What a step does to the sessions**: a task changes the one it has, or
what is done can be done at any time. -/
inductive Effect (config : Config) (s t : Client) : Prop
  | task {i S : ℕ} {k : Option ℕ} {place : Opening} :
    s.held i = some (S, k) → t.opens = s.opens.set i place →
    (∀ R, R ≠ S → t.session R = s.session R) → Own (s.session S) (t.session S) →
    place.Ready t.session → Effect config s t
  | loose {i : ℕ} {place : Opening} :
    t.opens = s.opens.set i place → t.session = s.session → place.Ready t.session →
    Effect config s t
  | aside :
    (∀ (j : ℕ) place, t.opens[j]? = some place → s.opens[j]? = some place ∨ place = .taking) →
    (∀ R, t.session R = s.session R ∨ Foreign config (s.session R) (t.session R)) →
    Effect config s t

namespace Effect

section One

variable {i S : ℕ} {k : Option ℕ} {old place : Opening} {x : Session}

theorem own (hold : s.opens[i]? = some old) (hheld : old.holding = some (S, k))
    (hopens : t.opens = s.opens.set i place)
    (hsession : t.session = update s.session S x) (hown : Own (s.session S) x)
    (hready : place.Ready (update s.session S x)) : Effect config s t := by
  refine .task ((Owned.held_of_opens hold).trans hheld) hopens (fun R hR => ?_) ?_ (hsession ▸ hready)
  · rw [hsession, update_of_ne hR]
  · rwa [hsession, update_self]

theorem foreign (hopens : t.opens = s.opens) (hsession : t.session = update s.session S x)
    (hforeign : Foreign config (s.session S) x) : Effect config s t := by
  refine .aside (fun j place hj => .inl (hopens ▸ hj)) fun R => ?_
  by_cases hRS : R = S
  · subst hRS
    rw [hsession, update_self]
    exact .inr hforeign
  · rw [hsession, update_of_ne hRS]
    exact .inl rfl

theorem none (hopens : t.opens = s.opens) (hsession : t.session = s.session) : Effect config s t :=
  .aside (fun j place hj => .inl (hopens ▸ hj)) fun R => .inl (by rw [hsession])

end One

/-- **Every step does that.** -/
theorem of_turn (howned : Owned stage s) (hquiet : Quiet s)
    (hready : ∀ (i : ℕ) place, s.opens[i]? = some place → place.Ready s.session)
    (hbelow : ∀ S, Below ((s.session S).nextStreamId + 1) (s.session S))
    (hturn : Turn config s e t) : Effect config s t := by
  cases hturn with
  | began _ =>
    refine .aside (fun j place hj => ?_) fun _ => .inl rfl
    by_cases hjl : j = s.opens.length
    · refine .inr ?_
      simpa [hjl, eq_comm] using hj
    · exact .inl (by simpa only [Owned.getElem?_begin hjl] using hj)
  | reused _ _ | missed _ _ | looked _ | forwent _ | exhausted _ | retained _ _ | dialing _
  | undialed _ _ | unregistered _ =>
    exact .loose rfl rfl (ready_of_none (by simp) (by simp [Opening.holding]))
  | woke hold _ =>
    exact .own hold rfl rfl rfl .wake (ready_of_none (by simp) (by simp [Opening.holding]))
  | @numbered i S hold =>
    refine .own hold rfl rfl rfl .number (ready_update rfl (fun l hl => ?_) (by simp))
    obtain rfl : (s.session S).nextStreamId + 1 = l := by simpa using hl
    have hS := hbelow S
    exact ⟨rfl, hS.active, hS.reader, hS.closes, hS.releasing, hS.pristine⟩
  | @filled i S k hold _ =>
    obtain ⟨hk, hS⟩ := (hready i _ hold).numbered S k rfl
    have hplace := (howned.mine (Owned.held_of_opens hold)).untaken.2.1
    refine .own hold rfl rfl rfl (.fill hplace hk hS) (ready_update rfl (by simp) fun l hl => ?_)
    obtain rfl : k = l := by simpa using hl
    exact ⟨hk.le, by simp [Stream.fresh], by simp [Stream.fresh]⟩
  | @sent i S k hold =>
    refine .own hold rfl rfl rfl .order (ready_update rfl (by simp) fun l hl => ?_)
    obtain rfl : k = l := by simpa using hl
    exact ((hready i _ hold).opened S k rfl).of_eq rfl rfl
  | @answered i S k hold =>
    exact .loose rfl rfl ⟨by simp, (hready i _ hold).opened⟩
  | @failed e i S k calls place _ hold _ hplace =>
    have hk : k ≤ (s.session S).nextStreamId := by
      rcases hold with hold | hold <;> exact ((hready i _ hold).opened S k rfl).le
    rcases hplace with rfl | rfl <;> rcases hold with hold | hold <;>
      exact .own hold rfl rfl rfl (.deafen hk) (ready_of_none (by simp) (by simp [Opening.holding]))
  | @opened i S k _ hold _ =>
    have hk := (hready i _ hold).opened S k rfl
    exact .own hold rfl rfl rfl (.handle hk.le hk.closeQueued)
      (ready_of_none (by simp) (by simp [Opening.holding]))
  | @dialed i S hold =>
    have hdormant := hquiet.dormant S (.inr ⟨i, .inl hold⟩)
    refine .own hold rfl rfl rfl (.prepare hdormant.nextStreamId)
      (ready_update rfl (by simp) fun l hl => ?_)
    obtain rfl : 1 = l := by simpa using hl
    exact .prepared _
  | @barred i S hold =>
    have hcloses := (howned.mine (Owned.held_of_opens hold)).untaken.1
    exact .own hold rfl rfl rfl (.bar hcloses ((hready i _ hold).opened S 1 rfl).le)
      (ready_of_none (by simp) (by simp [Opening.holding]))
  | @registered i S hold =>
    have hdormant := hquiet.dormant S (.inr ⟨i, .inr hold⟩)
    refine .own hold rfl rfl rfl (.start hdormant.writer hdormant.reader)
      (ready_update rfl (by simp) fun l hl => ?_)
    obtain rfl : 1 = l := by simpa using hl
    exact ((hready i _ hold).opened S 1 rfl).of_eq rfl rfl
  | @started i S place hold hplace =>
    have hone := (hready i _ hold).opened S 1 rfl
    rcases hplace with rfl | rfl <;>
      exact .own hold rfl rfl rfl (.handle hone.le hone.closeQueued)
        (ready_of_none (by simp) (by simp [Opening.holding]))
  | skipped _ _ | removed _ _ _ | outlived _ _ _ | ceased _ _ _ _ | expired _ _ | shutdown =>
    exact .none rfl rfl
  | swapped _ _ _ | stored _ _ | cancelled _ _ => exact .foreign rfl rfl .flags
  | took _ _ => exact .foreign rfl rfl .fail
  | accessed haccess => exact .foreign rfl rfl (.access haccess)
  | returned hw _ _ => exact .foreign rfl rfl (.back hw)
  | stopped | dropped _ => exact .aside (fun _ _ => .inl) fun R => .inr .flags

/-- A step leaves every task what it relies on. -/
theorem ready (h : Effect config s t) (howned : Owned stage s)
    (hready : ∀ (i : ℕ) place, s.opens[i]? = some place → place.Ready s.session) (j : ℕ)
    (place : Opening) (hj : t.opens[j]? = some place) : place.Ready t.session := by
  cases h with
  | @task i S k new hheld hopens hothers _ hnew =>
    rcases Owned.of_set hopens hj with ⟨-, rfl⟩ | ⟨hji, hj⟩
    · exact hnew
    · refine ready_congr (hready j place hj) fun R l hl => hothers R ?_
      rintro rfl
      exact hji (howned.unique ((Owned.held_of_opens hj).trans hl) hheld).1
  | loose hopens hsession hnew =>
    rcases Owned.of_set hopens hj with ⟨-, rfl⟩ | ⟨_, hj⟩
    · exact hnew
    · exact hsession ▸ hready j place hj
  | aside hopens hforeign =>
    rcases hopens j place hj with hj | rfl
    · exact ready_foreign (hready j place hj) hforeign
    · exact ready_of_none (by simp) (by simp [Opening.holding])

/-- The numbers of the streams only grow. -/
theorem nextStreamId_le (h : Effect config s t) (S : ℕ) :
    (s.session S).nextStreamId ≤ (t.session S).nextStreamId := by
  cases h with
  | @task _ R _ _ _ _ hothers hmine _ =>
    by_cases hS : S = R
    · exact hS ▸ hmine.nextStreamId_le
    · exact hothers S hS ▸ le_rfl
  | loose _ hsession _ => exact hsession ▸ le_rfl
  | aside _ hsessions =>
    rcases hsessions S with hsame | hforeign
    · exact hsame ▸ le_rfl
    · exact hforeign.nextStreamId.ge

/-- **What a session keeps whoever changes it, it keeps over a step.** -/
theorem keeps {I : Session → Prop} (h : Effect config s t)
    (hforeign : ∀ {x y : Session}, I x → Foreign config x y → I y)
    (hown : ∀ {x y : Session}, I x → Own x y → I y) (hI : ∀ S, I (s.session S)) (R : ℕ) :
    I (t.session R) := by
  cases h with
  | @task _ S _ _ _ _ hothers hmine _ =>
    by_cases hRS : R = S
    · exact hRS ▸ hown (hI S) hmine
    · exact hothers R hRS ▸ hI R
  | loose _ hsession _ => exact hsession ▸ hI R
  | aside _ hsessions =>
    rcases hsessions R with hsame | hR
    · exact hsame ▸ hI R
    · exact hforeign (hI R) hR

end Effect

/-! ## The maps -/

/-- **What the maps of the client say.** -/
structure Mapped (s : Client) : Prop where
  idle : ∀ S, S ∈ s.idle → S ∈ s.sessions
  gone : ∀ f ∈ s.fails, f.place = .returned → f.sequence ∉ s.sessions
  dead : s.alive = false → s.sessions = [] ∧ ∀ place ∈ s.opens, place = .ended

namespace Mapped

theorem init : Mapped new where
  idle S hS := absurd hS (by simp [new])
  gone := by simp [new]
  dead := by simp [new]

variable (h : Mapped s)

include h

/-- The client is there while a task is. -/
theorem task (hquiet : Quiet s) {i : ℕ} {old : Opening}
    (hold : s.opens[i]? = some old) (hne : old ≠ .ended) (halive : t.alive = s.alive)
    (hidle : ∀ S, S ∈ t.idle → S ∈ t.sessions)
    (hsessions : ∀ S ∈ t.sessions, S ∈ s.sessions ∨ s.Unstarted S)
    (hfails : ∀ f ∈ t.fails, f ∈ s.fails ∨ f.place = .swap) : Mapped t where
  idle := hidle
  gone f hf hplace := by
    have hf : f ∈ s.fails := (hfails f hf).resolve_right (by simp [hplace])
    intro hmem
    rcases hsessions _ hmem with hmem | hun
    · exact h.gone f hf hplace hmem
    · exact hquiet.fails _ hun f hf rfl
  dead hdead := absurd ((h.dead (halive ▸ hdead)).2 old (mem_of_getElem? hold)) hne

/-- No task goes on. -/
theorem aside (hopens : t.opens = s.opens) (halive : t.alive = s.alive)
    (hidle : ∀ S, S ∈ t.idle → S ∈ t.sessions) (hsessions : ∀ S ∈ t.sessions, S ∈ s.sessions)
    (hfails : ∀ f ∈ t.fails, f.place = .returned → f ∈ s.fails ∨ f.sequence ∉ t.sessions) :
    Mapped t where
  idle := hidle
  gone f hf hplace := by
    rcases hfails f hf hplace with hold | hnot
    · exact fun hmem => h.gone f hold hplace (hsessions _ hmem)
    · exact hnot
  dead hdead := by
    obtain ⟨hnone, hended⟩ := h.dead (halive ▸ hdead)
    refine ⟨eq_nil_iff_forall_not_mem.mpr fun S hS => ?_, hopens ▸ hended⟩
    simpa [hnone] using hsessions S hS

/-- A call of `fail` goes on, and the maps stay. -/
theorem failing {j : ℕ} {f : Failing} {place : FailPlace}
    (hopens : t.opens = s.opens) (halive : t.alive = s.alive) (hidle : t.idle = s.idle)
    (hsessions : t.sessions = s.sessions) (hfails : t.fails = s.fails.set j { f with place })
    (hplace : place ≠ .returned) : Mapped t := by
  refine h.aside hopens halive (by rw [hidle, hsessions]; exact h.idle) (by simp [hsessions]) ?_
  intro g hg hreturned
  rw [hfails] at hg
  rcases mem_or_eq_of_mem_set hg with hg | rfl
  · exact .inl hg
  · exact absurd hreturned hplace

/-- A session leaves both maps. -/
theorem idle_closed (S R : ℕ) (hR : R ∈ (s.sessionClosed S).idle) :
    R ∈ (s.sessionClosed S).sessions := by
  obtain ⟨hne, hR⟩ := AList.mem_erase.mp hR
  exact mem_filter.mpr ⟨h.idle R hR, by simpa using hne⟩

/-- **A step keeps that.** -/
theorem turn (hquiet : Quiet s) (hturn : Turn config s e t) : Mapped t := by
  have hcall {α : Type} {calls : List α} {call : α → Failing} (hcalls : ∀ a, (call a).place = .swap) :
      ∀ f ∈ s.fails ++ calls.map call, f ∈ s.fails ∨ f.place = .swap :=
    forall_mem_append.mpr ⟨fun _ => .inl, forall_mem_map.mpr fun a _ => .inr (hcalls a)⟩
  have hnew {f : Failing} {sessions : List ℕ} (hf : f ∈ s.fails ∨ f.place = .swap)
      (hplace : f.place = .returned) : f ∈ s.fails ∨ f.sequence ∉ sessions :=
    .inl (hf.resolve_right (by simp [hplace]))
  cases hturn with
  | began halive => exact ⟨h.idle, h.gone, by simp [halive]⟩
  | reused hold htake =>
    exact h.task hquiet hold (by simp) rfl (fun S hS => h.idle S ((takeIdle_some htake).2.2 S hS).1)
      (fun _ => .inl) fun _ => .inl
  | missed hold htake =>
    exact h.task hquiet hold (by simp) rfl (fun S hS => h.idle S (takeIdle_none htake S hS))
      (fun _ => .inl) fun _ => .inl
  | looked hold | woke hold _ | numbered hold | filled hold _ | sent hold | answered hold
  | opened hold _ | dialing hold | dialed hold | started hold _ =>
    exact h.task hquiet hold (by simp) rfl h.idle (fun _ => .inl) fun _ => .inl
  | forwent hold =>
    rcases hold with hold | hold <;>
      exact h.task hquiet hold (by simp) rfl h.idle (fun _ => .inl) fun _ => .inl
  | exhausted hold | retained hold _ | barred hold =>
    exact h.task hquiet hold (by simp) rfl h.idle (fun _ => .inl) (hcall fun _ => rfl)
  | failed _ hold _ _ =>
    rcases hold with hold | hold <;>
      exact h.task hquiet hold (by simp) rfl h.idle (fun _ => .inl) (hcall fun _ => rfl)
  | undialed _ hold =>
    rcases hold with hold | ⟨S, hold⟩ <;>
      exact h.task hquiet hold (by simp) rfl h.idle (fun _ => .inl) fun _ => .inl
  | @registered i S hold =>
    exact h.task hquiet hold (by simp) rfl (fun R hR => mem_append_left _ (h.idle R hR))
      (forall_mem_concat.mpr ⟨fun _ => .inl, .inr (.inr ⟨i, .inr hold⟩)⟩) fun _ => .inl
  | @unregistered i S hold =>
    exact h.task hquiet hold (by simp) rfl (h.idle_closed S)
      (fun R hR => .inl (mem_filter.mp hR).1) fun _ => .inl
  | skipped _ _ | swapped _ _ _ | stored _ _ | cancelled _ _ | took _ _ =>
    exact h.failing rfl rfl rfl rfl rfl (by simp)
  | @removed j f _ _ _ =>
    refine h.aside rfl rfl (h.idle_closed f.sequence) (fun R hR => (mem_filter.mp hR).1)
      fun g hg _ => ?_
    rcases mem_or_eq_of_mem_set hg with hg | rfl
    · exact .inl hg
    · refine .inr fun hmem => ?_
      simpa using (mem_filter.mp hmem).2
  | @outlived j f _ _ hdead =>
    refine h.aside rfl rfl h.idle (fun _ => id) fun g hg _ => .inr ?_
    show g.sequence ∉ s.sessions
    simp [(h.dead hdead).1]
  | ceased _ _ _ _ | accessed _ =>
    exact h.aside rfl rfl h.idle (fun _ => id) fun f hf => hnew (hcall (fun _ => rfl) f hf)
  | @returned S now k waited a idle calls _ hidle _ =>
    refine h.aside rfl rfl (fun R hR => ?_) (fun _ => id) fun f hf => hnew (hcall (fun _ => rfl) f hf)
    rcases hidle with rfl | ⟨rfl, -, hS⟩
    · exact h.idle R hR
    · rcases (AList.mem_insert _).mp hR with rfl | hR
      · exact hS
      · exact h.idle R hR
  | expired hidle hfails =>
    refine h.aside rfl rfl (fun S hS => h.idle S (hidle S hS)) (fun _ => id) fun f hf => hnew ?_
    exact (mem_append.mp hf).imp_right fun hf => (hfails f hf).2.1
  | shutdown =>
    exact h.aside rfl rfl (by simp) (fun _ => id) fun f hf => hnew (hcall (fun _ => rfl) f hf)
  | stopped => exact h.aside rfl rfl h.idle (fun _ => id) fun _ hf _ => .inl hf
  | dropped hended => exact ⟨by simp, by simp, fun _ => ⟨rfl, hended⟩⟩

end Mapped

/-! ## Everything together -/

/-- **What holds of the client at every moment.** -/
structure Sound (stage : ℕ → Stage) (s : Client) : Prop where
  owned : Owned stage s
  quiet : Quiet s
  mapped : Mapped s
  ready : ∀ (i : ℕ) place, s.opens[i]? = some place → place.Ready s.session
  orderly : ∀ S, Orderly (s.session S)
  below : ∀ S, Below ((s.session S).nextStreamId + 1) (s.session S)
  faithful : ∀ S, Faithful (s.session S)

namespace Sound

theorem init : Sound (fun _ => .unborn) new where
  owned := .init
  quiet := .init
  mapped := .init
  ready := by simp [new]
  orderly S := ⟨by simp [new, closes, closesOf], by simp [new], by simp [new]⟩
  below S := ⟨by simp [new], by simp [new, readerTarget], by simp [new, closes, closesOf],
    by simp [new], fun _ _ => rfl⟩
  faithful S := ⟨fun _ => prefix_rfl, fun _ _ => prefix_rfl, fun _ _ _ => rfl,
    by simp [new], by simp [new, placeOf]⟩

/-- **A step keeps it.** -/
theorem turn (h : Sound stage s) (hturn : Turn config s e t) : Sound (restage stage s e t) t := by
  have heffect := Effect.of_turn h.owned h.quiet h.ready h.below hturn
  exact {
    owned := h.owned.turn h.orderly hturn
    quiet := h.quiet.turn h.owned hturn
    mapped := h.mapped.turn h.quiet hturn
    ready := heffect.ready h.owned h.ready
    orderly := heffect.keeps Orderly.foreign Orderly.own h.orderly
    below := heffect.keeps (I := fun x => Below (x.nextStreamId + 1) x)
      (fun hx hxy => by rw [hxy.nextStreamId]; exact hx.foreign hxy) Below.own h.below
    faithful := heffect.keeps Faithful.foreign Faithful.own h.faithful }

end Sound

end Client

end Vole.AnyTls
