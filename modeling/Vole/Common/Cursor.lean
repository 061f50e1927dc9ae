import Mathlib.Data.List.Basic
import Mathlib.Tactic.SplitIfs

/-!
# Reading a file through a position

A reading moves a position over bytes that do not change. It ends with a
value or an error, and it leaves a record of every span of bytes it asked
for. `Meets` is the specification of a reading that starts at a position:
the spans stay within given bounds, it does end, and what holds where it
ends. `Meets.loop` is the rule for a loop that runs while the position is
below a limit, and `Meets.lockstep` the rule for a loop that follows
another loop over the same bytes.
-/

namespace Vole

/-- How a reading ends. A loop whose rounds are used up is `unfinished`. -/
inductive Exit (ε α : Type) where
  | done (value : α)
  | failed (error : ε)
  | unfinished
  deriving DecidableEq

/-- The end of a reading, where it left the position, and the spans it
asked for: the first position and the number of bytes. -/
structure Outcome (ε α : Type) where
  exit : Exit ε α
  position : ℕ
  reads : List (ℕ × ℕ)

/-- A reading of a file. -/
def Cursor (ε α : Type) : Type := List UInt8 → ℕ → Outcome ε α

namespace Cursor

variable {ε α β γ : Type}

instance : Monad (Cursor ε) where
  pure a := fun _ p => ⟨.done a, p, []⟩
  bind x f := fun content p =>
    match (x content p).exit with
    | .done a =>
      { f a content (x content p).position with
        reads := (x content p).reads ++ (f a content (x content p).position).reads }
    | .failed e => ⟨.failed e, (x content p).position, (x content p).reads⟩
    | .unfinished => ⟨.unfinished, (x content p).position, (x content p).reads⟩

/-- Stop with an error. -/
def fail (e : ε) : Cursor ε α := fun _ p => ⟨.failed e, p, []⟩

/-- `stream_position`. -/
def position : Cursor ε ℕ := fun _ p => ⟨.done p, p, []⟩

/-- `seek(SeekFrom::Start(target))`. -/
def seek (target : ℕ) : Cursor ε Unit := fun _ _ => ⟨.done (), target, []⟩

/-- `read_exact` of `count` bytes, which fails with `eof` past the end of
the file. -/
def readExact (eof : ε) (count : ℕ) : Cursor ε (List UInt8) := fun content p =>
  if p + count ≤ content.length then
    ⟨.done ((content.drop p).take count), p + count, [(p, count)]⟩
  else ⟨.failed eof, p, [(p, count)]⟩

/-- Takes over the result of a computation that reads nothing. -/
def lift : Except ε α → Cursor ε α
  | .ok a => pure a
  | .error e => fail e

/-- `while position() < limit { … }` with an accumulator, for at most
`fuel` rounds. -/
def rounds (limit : ℕ) (body : β → Cursor ε β) : ℕ → β → Cursor ε β
  | 0, b => fun _ p => ⟨if p < limit then .unfinished else .done b, p, []⟩
  | fuel + 1, b => fun content p =>
    if p < limit then (body b >>= rounds limit body fuel) content p else ⟨.done b, p, []⟩

/-- `while position() < limit { … }`, for at most as many rounds as there
are bytes below the limit. -/
def loop (limit : ℕ) (body : β → Cursor ε β) (b : β) : Cursor ε β := fun content p =>
  rounds limit body (limit - p) b content p

variable {content : List UInt8} {p q limit fuel : ℕ}

/-- The reading started at `p` returns `a` and leaves the position at `q`. -/
def Returns (content : List UInt8) (x : Cursor ε α) (p : ℕ) (a : α) (q : ℕ) : Prop :=
  (x content p).exit = .done a ∧ (x content p).position = q

instance [DecidableEq ε] [DecidableEq α] {x : Cursor ε α} {a : α} :
    Decidable (Returns content x p a q) :=
  inferInstanceAs (Decidable (_ ∧ _))

theorem returns_pure {a : α} : Returns content (pure a : Cursor ε α) p a p := ⟨rfl, rfl⟩

theorem returns_pure_iff {a b : α} :
    Returns content (pure a : Cursor ε α) p b q ↔ a = b ∧ p = q := by
  constructor
  · rintro ⟨hexit, hpos⟩
    exact ⟨Exit.done.inj hexit, hpos⟩
  · rintro ⟨rfl, rfl⟩
    exact returns_pure

theorem not_returns_fail {e : ε} {a : α} : ¬ Returns content (fail e : Cursor ε α) p a q := by
  rintro ⟨hexit, -⟩
  cases hexit

variable {f : α → Cursor ε β}

/-- A reading returns exactly when each of its parts does. -/
theorem returns_bind_iff {x : Cursor ε α} {b : β} {r : ℕ} :
    Returns content (x >>= f) p b r ↔
      ∃ a q, Returns content x p a q ∧ Returns content (f a) q b r := by
  unfold Returns
  dsimp only [bind]
  cases hexit : (x content p).exit with
  | done a =>
    constructor
    · rintro ⟨hb, hr⟩
      exact ⟨a, _, ⟨rfl, rfl⟩, hb, hr⟩
    · rintro ⟨a', q, ⟨ha, rfl⟩, hb, hr⟩
      cases ha
      exact ⟨hb, hr⟩
  | failed e | unfinished =>
    constructor
    · rintro ⟨hb, -⟩
      cases hb
    · rintro ⟨a', q, ⟨ha, -⟩, -⟩
      cases ha

/-! ## Specifications -/

/-- Started at `p`, the reading asks only for bytes of `[lo, hi)` and ends,
with a value and position that satisfy `Q` or an error that satisfies `E`. -/
structure Meets (content : List UInt8) (lo hi : ℕ) (x : Cursor ε α) (p : ℕ)
    (Q : α → ℕ → Prop) (E : ε → Prop) : Prop where
  reads : ∀ span ∈ (x content p).reads, lo ≤ span.1 ∧ span.1 + span.2 ≤ hi
  done : ∀ a, (x content p).exit = .done a → Q a (x content p).position
  failed : ∀ e, (x content p).exit = .failed e → E e
  finished : (x content p).exit ≠ .unfinished

variable {lo hi : ℕ} {x : Cursor ε α} {Q : α → ℕ → Prop} {E : ε → Prop}

/-- A reading whose run is known. -/
theorem Meets.of_run {outcome : Outcome ε α} (hrun : x content p = outcome)
    (hreads : ∀ span ∈ outcome.reads, lo ≤ span.1 ∧ span.1 + span.2 ≤ hi)
    (h : match outcome.exit with
      | .done a => Q a outcome.position
      | .failed e => E e
      | .unfinished => False) : Meets content lo hi x p Q E := by
  subst hrun
  refine ⟨hreads, fun a ha => ?_, fun e he => ?_, fun hnone => ?_⟩
  · rwa [ha] at h
  · rwa [he] at h
  · rwa [hnone] at h

theorem Meets.pure {a : α} (h : Q a p) : Meets content lo hi (pure a : Cursor ε α) p Q E :=
  .of_run rfl nofun h

theorem Meets.fail {e : ε} (h : E e) : Meets content lo hi (fail e : Cursor ε α) p Q E :=
  .of_run rfl nofun h

theorem Meets.position {Q : ℕ → ℕ → Prop} (h : Q p p) :
    Meets content lo hi (position : Cursor ε ℕ) p Q E :=
  .of_run rfl nofun h

theorem Meets.seek {target : ℕ} {Q : Unit → ℕ → Prop} (h : Q () target) :
    Meets content lo hi (seek target : Cursor ε Unit) p Q E :=
  .of_run rfl nofun h

theorem Meets.lift {result : Except ε α} (hok : ∀ a, result = .ok a → Q a p)
    (herr : ∀ e, result = .error e → E e) :
    Meets content lo hi (lift result : Cursor ε α) p Q E := by
  cases result with
  | ok a => exact .pure (hok a rfl)
  | error e => exact .fail (herr e rfl)

theorem Meets.readExact {eof : ε} {count : ℕ} {Q : List UInt8 → ℕ → Prop}
    (hlo : lo ≤ p) (hhi : p + count ≤ hi) (heof : E eof)
    (h : ∀ bytes, Returns content (readExact eof count) p bytes (p + count) →
      Q bytes (p + count)) :
    Meets content lo hi (readExact eof count) p Q E := by
  have hspan : ∀ span ∈ [(p, count)], lo ≤ span.1 ∧ span.1 + span.2 ≤ hi := by
    rintro _ (_ | ⟨_, ⟨⟩⟩)
    exact ⟨hlo, hhi⟩
  by_cases hfits : p + count ≤ content.length
  · have hrun : Cursor.readExact eof count content p =
        ⟨.done ((content.drop p).take count), p + count, [(p, count)]⟩ := if_pos hfits
    exact .of_run hrun hspan (h _ ⟨by rw [hrun], by rw [hrun]⟩)
  · exact .of_run (if_neg hfits) hspan heof

/-- **Sequencing.** -/
theorem Meets.bind {R : β → ℕ → Prop}
    (hx : Meets content lo hi x p (fun a q => Meets content lo hi (f a) q R E) E) :
    Meets content lo hi (x >>= f) p R E := by
  cases hexit : (x content p).exit with
  | done a =>
    have hf := hx.done a hexit
    refine ⟨?_, ?_, ?_, ?_⟩ <;> dsimp only [Bind.bind] <;> rw [hexit]
    · exact List.forall_mem_append.2 ⟨hx.reads, hf.reads⟩
    · exact hf.done
    · exact hf.failed
    · exact hf.finished
  | failed e =>
    refine ⟨?_, ?_, ?_, ?_⟩ <;> dsimp only [Bind.bind] <;> rw [hexit]
    · exact hx.reads
    · exact nofun
    · rintro _ ⟨⟩
      exact hx.failed e hexit
    · exact nofun
  | unfinished => exact absurd hexit hx.finished

/-- Sequencing, from a specification of the first reading. -/
theorem Meets.andThen {R : β → ℕ → Prop} (hx : Meets content lo hi x p Q E)
    (hf : ∀ a q, Q a q → Meets content lo hi (f a) q R E) : Meets content lo hi (x >>= f) p R E :=
  .bind ⟨hx.reads, fun a ha => hf a _ (hx.done a ha), hx.failed, hx.finished⟩

section

variable (h : Meets content lo hi x p Q E)

include h

/-- A specification promises less, over wider bounds. -/
theorem Meets.mono {lo' hi' : ℕ} {Q' : α → ℕ → Prop} {E' : ε → Prop} (hlo : lo' ≤ lo) (hhi : hi ≤ hi')
    (hQ : ∀ a q, Returns content x p a q → Q a q → Q' a q) (hE : ∀ e, E e → E' e) :
    Meets content lo' hi' x p Q' E' where
  reads := fun span hspan => by
    have := h.reads span hspan
    omega
  done := fun a ha => hQ a _ ⟨ha, rfl⟩ (h.done a ha)
  failed := fun e he => hE e (h.failed e he)
  finished := h.finished

/-- What a reading returned is what its specification says. -/
theorem Meets.of_returns {a : α} (hret : Returns content x p a q) : Q a q :=
  hret.2 ▸ h.done a hret.1

/-- **A reading that is known to return** returns that. -/
theorem Meets.returning {a : α} (hret : Returns content x p a q) :
    Meets content lo hi x p (fun b r => b = a ∧ r = q ∧ Q b r) E where
  reads := h.reads
  done := fun b hb => by
    have hba : b = a := Exit.done.inj (hb.symm.trans hret.1)
    exact ⟨hba, hret.2, h.done b hb⟩
  failed := h.failed
  finished := h.finished

end

/-! ## Loops -/

variable {body : β → Cursor ε β} {b : β}

theorem rounds_zero : rounds limit body 0 b content p =
    ⟨if p < limit then .unfinished else .done b, p, []⟩ := rfl

theorem rounds_succ (h : p < limit) :
    rounds limit body (fuel + 1) b content p = (body b >>= rounds limit body fuel) content p :=
  if_pos h

theorem rounds_over (h : limit ≤ p) : rounds limit body fuel b content p = ⟨.done b, p, []⟩ := by
  cases fuel with
  | zero => rw [rounds_zero, if_neg (Nat.not_lt.2 h)]
  | succ fuel => exact if_neg (Nat.not_lt.2 h)

theorem loop_eq : loop limit body b content p = rounds limit body (limit - p) b content p := rfl

/-- Two readings that run alike meet the same specifications. -/
theorem Meets.congr {y : Cursor ε α} (h : x content p = y content p)
    (hy : Meets content lo hi y p Q E) : Meets content lo hi x p Q E where
  reads := fun span hspan => hy.reads span (h ▸ hspan)
  done := fun a ha => by
    rw [h] at ha ⊢
    exact hy.done a ha
  failed := fun e he => hy.failed e (h ▸ he)
  finished := fun hne => hy.finished (h ▸ hne)

section

variable {I : β → ℕ → Prop} (hstep : ∀ b p, p < limit → I b p →
  Meets content lo hi (body b) p (fun b' q => I b' q ∧ p < q) E)

include hstep

theorem Meets.rounds : ∀ fuel b p, limit - p ≤ fuel → I b p →
      Meets content lo hi (rounds limit body fuel b) p (fun b' q => I b' q ∧ limit ≤ q) E := by
  intro fuel
  induction fuel with
  | zero =>
    intro b p hfuel hI
    have hover : limit ≤ p := by omega
    exact .congr (rounds_over hover) (Meets.pure ⟨hI, hover⟩)
  | succ fuel ih =>
    intro b p hfuel hI
    by_cases hlt : p < limit
    · refine .congr (rounds_succ hlt) (.bind ?_)
      refine (hstep b p hlt hI).mono (Nat.le_refl _) (Nat.le_refl _) (fun b' q _ hq => ?_)
        fun e he => he
      exact ih b' q (by omega) hq.1
    · have hover : limit ≤ p := Nat.not_lt.1 hlt
      exact .congr (rounds_over hover) (Meets.pure ⟨hI, hover⟩)

/-- **The loop rule.** A body that keeps the invariant and moves the
position forward. -/
theorem Meets.loop (hI : I b p) :
    Meets content lo hi (loop limit body b) p (fun b' q => I b' q ∧ limit ≤ q) E :=
  .congr loop_eq (Meets.rounds hstep (limit - p) b p (Nat.le_refl _) hI)

end

/-- The rounds of a loop that returned: none was left to do, or a first
round and the others. -/
theorem returns_rounds {n : ℕ} {b' : β} (h : Returns content (Cursor.rounds limit body n b) p b' q) :
    (limit ≤ p ∧ b = b' ∧ p = q) ∨ p < limit ∧ ∃ m c r, n = m + 1 ∧
      Returns content (body b) p c r ∧ Returns content (Cursor.rounds limit body m c) r b' q := by
  by_cases hlt : p < limit
  · refine .inr ⟨hlt, ?_⟩
    cases n with
    | zero =>
      obtain ⟨hexit, -⟩ := h
      rw [rounds_zero, if_pos hlt] at hexit
      cases hexit
    | succ m =>
      have hrun : Returns content (body b >>= Cursor.rounds limit body m) p b' q := by
        unfold Returns at h ⊢
        rw [rounds_succ hlt] at h
        exact h
      obtain ⟨c, r, hfirst, hrest⟩ := returns_bind_iff.1 hrun
      exact ⟨m, c, r, rfl, hfirst, hrest⟩
  · have hover : limit ≤ p := Nat.not_lt.1 hlt
    obtain ⟨hexit, hpos⟩ := h
    rw [rounds_over hover] at hexit hpos
    exact .inl ⟨hover, Exit.done.inj hexit, hpos⟩

section Lockstep

/- A second loop follows a first one that returned. What the first one
ends with is known, and `P` is what it then had all along. -/
variable {lead : γ → Cursor ε γ} {c c' : γ} {P : γ → Prop} {R : γ → β → ℕ → Prop}
  (hback : ∀ c p c' q, Returns content (lead c) p c' q → P c' → P c)
  (hstep : ∀ c b p c' q, p < limit → R c b p → P c' → Returns content (lead c) p c' q →
    Meets content lo hi (body b) p (fun b' r => r = q ∧ p < q ∧ R c' b' q) E)

include hback in
theorem back_rounds (hP : P c') : ∀ n c p,
    Returns content (Cursor.rounds limit lead n c) p c' q → P c := by
  intro n
  induction n with
  | zero =>
    intro c p h
    obtain ⟨-, rfl, -⟩ | ⟨-, m, -, -, hn, -⟩ := returns_rounds h
    · exact hP
    · cases hn
  | succ n ih =>
    intro c p h
    obtain ⟨-, rfl, -⟩ | ⟨-, m, d, r, hn, hfirst, hrest⟩ := returns_rounds h
    · exact hP
    · cases hn
      exact hback c p d r hfirst (ih d r hrest)

include hback hstep in
theorem Meets.rounds_lockstep (hP : P c') : ∀ fuel n b c p,
    Returns content (Cursor.rounds limit lead n c) p c' q → limit - p ≤ fuel → R c b p →
    Meets content lo hi (Cursor.rounds limit body fuel b) p (fun b' r => r = q ∧ R c' b' q) E := by
  intro fuel
  induction fuel with
  | zero =>
    intro n b c p hlead hfuel hR
    obtain ⟨hover, rfl, rfl⟩ | ⟨hlt, -⟩ := returns_rounds hlead
    · exact .congr (rounds_over hover) (Meets.pure ⟨rfl, hR⟩)
    · omega
  | succ fuel ih =>
    intro n b c p hlead hfuel hR
    obtain ⟨hover, rfl, rfl⟩ | ⟨hlt, m, d, s, -, hfirst, hrest⟩ := returns_rounds hlead
    · exact .congr (rounds_over hover) (Meets.pure ⟨rfl, hR⟩)
    · have hround := hstep c b p d s hlt hR (back_rounds hback hP m d s hrest) hfirst
      refine .congr (rounds_succ hlt) (hround.andThen fun b' r hr => ?_)
      obtain ⟨rfl, hmore, hR'⟩ := hr
      exact ih m b' d r hrest (by omega) hR'

include hback hstep in
/-- **The rule of two loops.** Where a first loop has returned, a second
loop whose body moves the position as the first one's does keeps the
relation of the two accumulators, and ends where the first one ended. -/
theorem Meets.lockstep (hlead : Returns content (Cursor.loop limit lead c) p c' q) (hP : P c')
    (hR : R c b p) :
    Meets content lo hi (Cursor.loop limit body b) p (fun b' r => r = q ∧ R c' b' q) E :=
  .congr loop_eq
    (Meets.rounds_lockstep hback hstep hP (limit - p) (limit - p) b c p hlead (Nat.le_refl _) hR)

end Lockstep

end Cursor

end Vole
