import Mathlib.Tactic.SplitIfs

/-!
# Procedures over a state

A procedure reads and writes a state, and either returns a value or stops
early with an error; what it wrote before it stopped stays written.
`Ensures` is its specification: what holds where it returns, and what
holds where it stops. The rules follow the ways procedures are put
together, so the specification of a procedure is assembled from those of
its parts.
-/

namespace Vole

/-- A procedure over the state `σ` that stops with an `ε` or returns an
`α`. -/
def Proc (σ ε α : Type) : Type := σ → Except ε α × σ

namespace Proc

variable {σ τ ε α β : Type}

instance : Monad (Proc σ ε) where
  pure a := fun s => (.ok a, s)
  bind x f := fun s =>
    match x s with
    | (.ok a, s') => f a s'
    | (.error e, s') => (.error e, s')

/-- Stop. -/
def fail (e : ε) : Proc σ ε α := fun s => (.error e, s)

/-- Read something off the state. -/
def read (f : σ → α) : Proc σ ε α := fun s => (.ok (f s), s)

/-- Change the state. -/
def update (f : σ → σ) : Proc σ ε Unit := fun s => (.ok (), f s)

/-- Run a procedure on a part of the state. -/
def within (part : σ → τ) (put : σ → τ → σ) (x : Proc τ ε α) : Proc σ ε α := fun s =>
  ((x (part s)).1, put s (x (part s)).2)

/-- Run a procedure where a condition holds. -/
def when (condition : Bool) (x : Proc σ ε Unit) : Proc σ ε Unit :=
  if condition then x else pure ()

/-! ## Running -/

@[simp] theorem pure_apply (a : α) (s : σ) : (pure a : Proc σ ε α) s = (.ok a, s) := rfl

theorem bind_apply (x : Proc σ ε α) (f : α → Proc σ ε β) (s : σ) :
    (x >>= f) s =
      match x s with
      | (.ok a, s') => f a s'
      | (.error e, s') => (.error e, s') := rfl

variable {x : Proc σ ε α} {f : α → Proc σ ε β}

theorem bind_of_ok {s s' : σ} {a : α} (h : x s = (.ok a, s')) : (x >>= f) s = f a s' := by
  rw [bind_apply, h]

theorem bind_of_error {s : σ} {e : ε} (h : (x s).1 = .error e) : ((x >>= f) s).1 = .error e := by
  rw [bind_apply]
  rcases hx : x s with ⟨outcome, t⟩
  rw [hx] at h
  cases h
  rfl

/-- A procedure that returns has returned from each of its parts. -/
theorem bind_eq_ok {s u : σ} {b : β}
    (h : (x >>= f) s = (.ok b, u)) : ∃ a t, x s = (.ok a, t) ∧ f a t = (.ok b, u) := by
  rw [bind_apply] at h
  rcases hx : x s with ⟨outcome, t⟩
  rw [hx] at h
  cases outcome with
  | ok a => exact ⟨a, t, rfl, h⟩
  | error e => cases h

@[simp] theorem fail_apply (e : ε) (s : σ) : (fail e : Proc σ ε α) s = (.error e, s) := rfl

@[simp] theorem read_apply (f : σ → α) (s : σ) : (read f : Proc σ ε α) s = (.ok (f s), s) := rfl

@[simp] theorem update_apply (f : σ → σ) (s : σ) :
    (update f : Proc σ ε Unit) s = (.ok (), f s) := rfl

/-! ## Specifications -/

/-- From every state that satisfies `P`, the procedure returns in a state
that satisfies `Q`, or stops in one that satisfies `R`. -/
def Ensures (P : σ → Prop) (x : Proc σ ε α) (Q : α → σ → Prop) (R : σ → Prop) : Prop :=
  ∀ s, P s → (∀ a, (x s).1 = .ok a → Q a (x s).2) ∧ (∀ e, (x s).1 = .error e → R (x s).2)

variable {P P' : σ → Prop} {Q : α → σ → Prop} {R : σ → Prop}

theorem Ensures.pure {a : α} (h : ∀ s, P s → Q a s) : Ensures P (pure a : Proc σ ε α) Q R := by
  intro s hs
  refine ⟨fun b hb => ?_, fun e he => ?_⟩
  · obtain rfl : a = b := by simpa using hb
    exact h s hs
  · cases he

theorem Ensures.fail {e : ε} (h : ∀ s, P s → R s) : Ensures P (fail e : Proc σ ε α) Q R := by
  intro s hs
  refine ⟨fun b hb => ?_, fun e he => h s hs⟩
  cases hb

theorem Ensures.read {f : σ → α} (h : ∀ s, P s → Q (f s) s) :
    Ensures P (read f : Proc σ ε α) Q R := by
  intro s hs
  refine ⟨fun b hb => ?_, fun e he => ?_⟩
  · obtain rfl : f s = b := by simpa using hb
    exact h s hs
  · cases he

theorem Ensures.update {f : σ → σ} {Q : Unit → σ → Prop} (h : ∀ s, P s → Q () (f s)) :
    Ensures P (update f : Proc σ ε Unit) Q R := by
  intro s hs
  exact ⟨fun _ _ => h s hs, nofun⟩

/-- **Sequencing.** The second procedure takes over where the first one
returns. -/
theorem Ensures.bind {M : α → σ → Prop}
    {Q : β → σ → Prop} (hx : Ensures P x M R) (hf : ∀ a, Ensures (M a) (f a) Q R) :
    Ensures P (x >>= f) Q R := by
  intro s hs
  obtain ⟨hok, herr⟩ := hx s hs
  rw [bind_apply]
  rcases hrun : x s with ⟨outcome, s'⟩
  rw [hrun] at hok herr
  cases outcome with
  | ok a => exact hf a s' (hok a rfl)
  | error e => exact ⟨nofun, fun e' _ => herr e rfl⟩

theorem Ensures.read_bind {f : σ → α} {g : α → Proc σ ε β} {Q : β → σ → Prop}
    (h : ∀ a, Ensures P (g a) Q R) : Ensures P (Proc.read f >>= g) Q R :=
  fun s hs => h (f s) s hs

/-- What comes after a procedure may be replaced by what does the same from
the states in which it returns. -/
theorem Ensures.bind_congr {f g : α → Proc σ ε β} {M : α → σ → Prop}
    (hx : Ensures P x M R) (hfg : ∀ a s, M a s → f a s = g a s) {s : σ} (hs : P s) :
    (x >>= f) s = (x >>= g) s := by
  obtain ⟨hok, -⟩ := hx s hs
  rw [bind_apply, bind_apply]
  rcases hrun : x s with ⟨outcome, s'⟩
  rw [hrun] at hok
  cases outcome with
  | ok a => exact hfg a s' (hok a rfl)
  | error e => rfl

theorem Ensures.when {condition : Bool} {x : Proc σ ε Unit} {Q : Unit → σ → Prop}
    (hx : condition = true → Ensures P x Q R) (hskip : condition = false → ∀ s, P s → Q () s) :
    Ensures P (when condition x) Q R := by
  cases hcond : condition with
  | true => exact hx hcond
  | false => exact Ensures.pure (hskip hcond)

/-- A specification holds from fewer states. -/
theorem Ensures.of_imp (h : Ensures P x Q R) (hP : ∀ s, P' s → P s) : Ensures P' x Q R :=
  fun s hs => h s (hP s hs)

/-- And promises less. -/
theorem Ensures.mono {Q' : α → σ → Prop} {R' : σ → Prop}
    (h : Ensures P x Q R) (hQ : ∀ a s, Q a s → Q' a s) (hR : ∀ s, R s → R' s) : Ensures P x Q' R' :=
  fun s hs => ⟨fun a ha => hQ a _ ((h s hs).1 a ha), fun e he => hR _ ((h s hs).2 e he)⟩

/-- A fact the state has nothing to do with is a hypothesis. -/
theorem Ensures.assume {φ : Prop} (h : φ → Ensures P x Q R) : Ensures (fun s => φ ∧ P s) x Q R :=
  fun s hs => h hs.1 s hs.2

/-- **Framing.** A procedure on a part of the state keeps what is true of
the rest. -/
theorem Ensures.within {part : σ → τ} {put : σ → τ → σ} {x : Proc τ ε α} {F : σ → Prop}
    {P R : τ → Prop} {Q : α → τ → Prop} (hpart : ∀ s t, part (put s t) = t)
    (hF : ∀ s t, F s → F (put s t)) (h : Ensures P x Q R) :
    Ensures (fun s => F s ∧ P (part s)) (within part put x) (fun a s => F s ∧ Q a (part s))
      (fun s => F s ∧ R (part s)) := by
  rintro s ⟨hs, hp⟩
  obtain ⟨hok, herr⟩ := h (part s) hp
  refine ⟨fun a ha => ⟨hF _ _ hs, ?_⟩, fun e he => ⟨hF _ _ hs, ?_⟩⟩
  · show Q a (part (put s (x (part s)).2))
    rw [hpart]
    exact hok a ha
  · show R (part (put s (x (part s)).2))
    rw [hpart]
    exact herr e he

/-- What holds of the states a procedure stops in, whichever way. -/
theorem Ensures.always (h : Ensures P x (fun _ => R) R) {s : σ} (hs : P s) : R (x s).2 := by
  obtain ⟨hok, herr⟩ := h s hs
  cases houtcome : (x s).1 with
  | ok a => exact hok a houtcome
  | error e => exact herr e houtcome

/-! ## Invariants -/

/-- The procedure keeps the invariant and does not stop early. -/
def Keeps (I : σ → Prop) (x : Proc σ ε α) : Prop := Ensures I x (fun _ => I) fun _ => False

variable {I : σ → Prop}

theorem Keeps.pure (a : α) : Keeps I (pure a : Proc σ ε α) := Ensures.pure fun _ hs => hs

theorem Keeps.read (f : σ → α) : Keeps I (read f : Proc σ ε α) := Ensures.read fun _ hs => hs

theorem Keeps.update {f : σ → σ} (h : ∀ s, I s → I (f s)) : Keeps I (update f : Proc σ ε Unit) :=
  Ensures.update h

theorem Keeps.bind (hx : Keeps I x) (hf : ∀ a, Keeps I (f a)) : Keeps I (x >>= f) :=
  Ensures.bind hx hf

theorem Keeps.when {condition : Bool} {x : Proc σ ε Unit} (hx : Keeps I x) :
    Keeps I (when condition x) :=
  Ensures.when (fun _ => hx) fun _ _ hs => hs

theorem Keeps.ite {c : Prop} [Decidable c] {x y : Proc σ ε α} (hx : Keeps I x)
    (hy : Keeps I y) : Keeps I (if c then x else y) := by
  split_ifs
  · exact hx
  · exact hy

/-- A procedure that keeps an invariant returns. -/
theorem Keeps.returns (h : Keeps I x) {s : σ} (hs : I s) : ∃ a, (x s).1 = .ok a ∧ I (x s).2 := by
  obtain ⟨hok, herr⟩ := h s hs
  cases houtcome : (x s).1 with
  | ok a => exact ⟨a, rfl, hok a houtcome⟩
  | error e => exact (herr e houtcome).elim

/-- The procedure keeps the invariant, whether or not it stops early. -/
def Preserves (I : σ → Prop) (x : Proc σ ε α) : Prop := Ensures I x (fun _ => I) I

theorem Preserves.pure (a : α) : Preserves I (pure a : Proc σ ε α) := Ensures.pure fun _ hs => hs

theorem Preserves.fail (e : ε) : Preserves I (fail e : Proc σ ε α) := Ensures.fail fun _ hs => hs

theorem Preserves.read (f : σ → α) : Preserves I (read f : Proc σ ε α) :=
  Ensures.read fun _ hs => hs

theorem Preserves.update {f : σ → σ} (h : ∀ s, I s → I (f s)) :
    Preserves I (update f : Proc σ ε Unit) :=
  Ensures.update h

theorem Preserves.bind (hx : Preserves I x) (hf : ∀ a, Preserves I (f a)) : Preserves I (x >>= f) :=
  Ensures.bind hx hf

/-! ## Outcomes -/

/-- From every state that satisfies `P`, the procedure ends with an outcome and
in a state that satisfy `Q`. Unlike `Ensures` it says which error goes with
which state. -/
def Yields (P : σ → Prop) (x : Proc σ ε α) (Q : Except ε α → σ → Prop) : Prop :=
  ∀ s, P s → Q (x s).1 (x s).2

variable {O : Except ε α → σ → Prop}

theorem Yields.pure {a : α} (h : ∀ s, P s → O (.ok a) s) : Yields P (pure a : Proc σ ε α) O := h

theorem Yields.fail {e : ε} (h : ∀ s, P s → O (.error e) s) : Yields P (fail e : Proc σ ε α) O := h

theorem Yields.of_imp (h : Yields P x O) (hP : ∀ s, P' s → P s) : Yields P' x O :=
  fun s hs => h s (hP s hs)

variable {O : Except ε β → σ → Prop}

/-- **Sequencing.** An error of the first procedure is one of the whole. -/
theorem Yields.bind {M : Except ε α → σ → Prop} (hx : Yields P x M)
    (herror : ∀ e s, M (.error e) s → O (.error e) s)
    (hf : ∀ a, Yields (M (.ok a)) (f a) O) : Yields P (x >>= f) O := by
  intro s hs
  have hrest := hx s hs
  rw [bind_apply]
  rcases hrun : x s with ⟨outcome, t⟩
  rw [hrun] at hrest
  cases outcome with
  | ok a => exact hf a t hrest
  | error e => exact herror e t hrest

/-- Something is read first. -/
theorem Yields.read_bind {f : σ → α} {g : α → Proc σ ε β}
    (h : ∀ a, Yields (fun s => P s ∧ f s = a) (g a) O) : Yields P (read f >>= g) O :=
  fun s hs => h (f s) s ⟨hs, rfl⟩

/-- The state is changed first. -/
theorem Yields.update_bind {f : σ → σ} {g : Unit → Proc σ ε β} {M : σ → Prop}
    (hf : ∀ s, P s → M (f s)) (hg : Yields M (g ()) O) : Yields P (update f >>= g) O :=
  fun s hs => hg (f s) (hf s hs)

end Proc

end Vole
