import Mathlib.Data.List.Basic
import Vole.Common.Proc

/-!
# Polling a carrier

A carrier answers each poll: not yet, with a result, or with an error. What it
will answer is not known, so it is a list of answers, and a poll after the last
of them is pending. A function that polls stops where it is pending or fails,
and keeps what it has done.
-/

namespace Vole

open List Proc

/-- What a poll answers. -/
inductive Answer (ε α : Type) where
  | pending
  | ready (value : α)
  | failed (error : ε)

/-- Why a function that polls returns early. -/
inductive Stop (ε : Type) where
  | pending
  | failed (error : ε)
  deriving DecidableEq, Repr

/-- A byte stream that is polled, and what it will answer. It records what was
read from it and what it took. -/
structure Carrier (ε : Type) where
  reads : List (Answer ε (List UInt8))
  writes : List (Answer ε ℕ)
  flushes : List (Answer ε Unit)
  shutdowns : List (Answer ε Unit)
  consumed : List UInt8
  wire : List UInt8

/-- A stream that flows: none of these answers is its end or an error. -/
def Flows {ε : Type} (reads : List (Answer ε (List UInt8))) : Prop :=
  ∀ answer ∈ reads, answer = .pending ∨ ∃ bytes, answer = .ready bytes ∧ bytes ≠ []

/-- Whether an answer is one of a stream that flows. -/
instance {ε : Type} : DecidablePred fun answer : Answer ε (List UInt8) =>
    answer = .pending ∨ ∃ bytes, answer = .ready bytes ∧ bytes ≠ []
  | .pending => .isTrue (.inl rfl)
  | .ready [] => .isFalse (by simp)
  | .ready (_ :: _) => .isTrue (.inr ⟨_, rfl, cons_ne_nil _ _⟩)
  | .failed _ => .isFalse (by simp)

instance {ε : Type} (reads : List (Answer ε (List UInt8))) : Decidable (Flows reads) :=
  inferInstanceAs (Decidable (∀ answer ∈ reads, _))

namespace Flows

variable {ε : Type} {answer : Answer ε (List UInt8)} {reads : List (Answer ε (List UInt8))}
variable {bytes : List UInt8} {e : ε}

theorem tail (h : Flows reads) : Flows reads.tail := fun _ hmem => h _ (mem_of_mem_tail hmem)

theorem ready (h : Flows (.ready bytes :: reads)) : bytes ≠ [] ∧ Flows reads := by
  refine ⟨?_, h.tail⟩
  rcases h _ mem_cons_self with hpending | ⟨_, hready, hne⟩
  · cases hpending
  · cases hready
    exact hne

theorem not_failed (h : Flows (.failed e :: reads)) : False := by
  rcases h _ mem_cons_self with hpending | ⟨_, hready, -⟩
  · cases hpending
  · cases hready

end Flows

namespace Carrier

variable {ε α : Type}

/-- A carrier on which nothing has happened yet. -/
def new : Carrier ε := ⟨[], [], [], [], [], []⟩

/-- The next of the answers. -/
def next : List (Answer ε α) → Except (Stop ε) α × List (Answer ε α)
  | [] => (.error .pending, [])
  | .pending :: rest => (.error .pending, rest)
  | .ready value :: rest => (.ok value, rest)
  | .failed error :: rest => (.error (.failed error), rest)

/-- `AsyncRead::poll_read` into a buffer of this size. Nothing is the end. -/
def pollRead (amount : ℕ) : Proc (Carrier ε) (Stop ε) (List UInt8) := fun c =>
  match next c.reads with
  | (.ok bytes, reads) =>
    let got := bytes.take amount
    (.ok got, { c with reads, consumed := c.consumed ++ got })
  | (.error stop, reads) => (.error stop, { c with reads })

/-- `AsyncWrite::poll_write`. -/
def pollWrite (bytes : List UInt8) : Proc (Carrier ε) (Stop ε) ℕ := fun c =>
  match next c.writes with
  | (.ok count, writes) =>
    let count := min count bytes.length
    (.ok count, { c with writes, wire := c.wire ++ bytes.take count })
  | (.error stop, writes) => (.error stop, { c with writes })

/-- `AsyncWrite::poll_flush`. -/
def pollFlush : Proc (Carrier ε) (Stop ε) Unit := fun c =>
  ((next c.flushes).1, { c with flushes := (next c.flushes).2 })

/-- `AsyncWrite::poll_shutdown`. -/
def pollShutdown : Proc (Carrier ε) (Stop ε) Unit := fun c =>
  ((next c.shutdowns).1, { c with shutdowns := (next c.shutdowns).2 })

end Carrier

namespace Proc

variable {σ ε α : Type}

/-- A loop that polls in every round. It has no more rounds than answers. -/
def repeatWhile (cond : σ → Bool) (body : Proc σ (Stop ε) Unit) : ℕ → Proc σ (Stop ε) Unit
  | 0 => fail .pending
  | rounds + 1 => do
    if ← read cond then
      body
      repeatWhile cond body rounds
    else pure ()

/-- What is done where a function fails. -/
def onFail (x : Proc σ (Stop ε) α) (cleanup : σ → σ) : Proc σ (Stop ε) α := fun s =>
  match x s with
  | (.error (.failed error), t) => (.error (.failed error), cleanup t)
  | outcome => outcome

/-- A cleanup does not change the outcome. -/
theorem onFail_fst (x : Proc σ (Stop ε) α) (cleanup : σ → σ) (s : σ) :
    (onFail x cleanup s).1 = (x s).1 := by
  unfold onFail
  rcases x s with ⟨(_ | _) | _, t⟩ <;> rfl

/-! ## Rules -/

section Rules

variable {P I R : σ → Prop} {part : σ → Carrier ε} {put : σ → Carrier ε → σ}

/-- **The rule of a read.** -/
theorem Ensures.pollRead {amount : ℕ} {Q : List UInt8 → σ → Prop}
    (hread : ∀ s got reads, P s → got.length ≤ amount →
      Q got (put s { part s with reads, consumed := (part s).consumed ++ got }))
    (hstop : ∀ s reads, P s → R (put s { part s with reads })) :
    Ensures P (Proc.within part put (Carrier.pollRead amount)) Q R := by
  intro s hs
  unfold Proc.within Carrier.pollRead
  rcases Carrier.next (part s).reads with ⟨answer, reads⟩
  cases answer with
  | ok bytes =>
    refine ⟨fun got hgot => ?_, nofun⟩
    cases hgot
    exact hread s _ reads hs (length_take_le _ _)
  | error stop => exact ⟨nofun, fun _ _ => hstop s reads hs⟩

/-- **The rule of a write.** -/
theorem Ensures.pollWrite {bytes : List UInt8} {Q : ℕ → σ → Prop}
    (hwrite : ∀ s count writes, P s → count ≤ bytes.length →
      Q count (put s { part s with writes, wire := (part s).wire ++ bytes.take count }))
    (hstop : ∀ s writes, P s → R (put s { part s with writes })) :
    Ensures P (Proc.within part put (Carrier.pollWrite bytes)) Q R := by
  intro s hs
  unfold Proc.within Carrier.pollWrite
  rcases Carrier.next (part s).writes with ⟨answer, writes⟩
  cases answer with
  | ok count =>
    refine ⟨fun n hn => ?_, nofun⟩
    cases hn
    exact hwrite s _ writes hs (Nat.min_le_right _ _)
  | error stop => exact ⟨nofun, fun _ _ => hstop s writes hs⟩

/-- **The rule of a flush.** -/
theorem Ensures.pollFlush {Q : Unit → σ → Prop}
    (hflush : ∀ s flushes, P s → Q () (put s { part s with flushes }))
    (hstop : ∀ s flushes, P s → R (put s { part s with flushes })) :
    Ensures P (Proc.within part put Carrier.pollFlush) Q R :=
  fun s hs => ⟨fun _ _ => hflush s _ hs, fun _ _ => hstop s _ hs⟩

/-- **The rule of a shutdown.** -/
theorem Ensures.pollShutdown {Q : Unit → σ → Prop}
    (hshutdown : ∀ s shutdowns, P s → Q () (put s { part s with shutdowns }))
    (hstop : ∀ s shutdowns, P s → R (put s { part s with shutdowns })) :
    Ensures P (Proc.within part put Carrier.pollShutdown) Q R :=
  fun s hs => ⟨fun _ _ => hshutdown s _ hs, fun _ _ => hstop s _ hs⟩

/-- **The rule of a loop**: its invariant, and the condition that ends it. -/
theorem Ensures.repeatWhile {cond : σ → Bool} {body : Proc σ (Stop ε) Unit} (rounds : ℕ)
    (hbody : Ensures (fun s => I s ∧ cond s = true) body (fun _ => I) R)
    (hpending : ∀ s, I s → R s) :
    Ensures I (repeatWhile cond body rounds) (fun _ s => I s ∧ cond s = false) R := by
  induction rounds with
  | zero => exact Ensures.fail hpending
  | succ rounds ih =>
    refine Ensures.bind (M := fun going s => I s ∧ cond s = going)
      (Ensures.read fun s hs => ⟨hs, rfl⟩) fun going => ?_
    cases going with
    | true => exact Ensures.bind hbody fun _ => ih
    | false => exact Ensures.pure fun _ hs => hs

variable {x : Proc σ (Stop ε) α} {cleanup : σ → σ}

/-- The rule of a cleanup, with how the procedure came to wait. -/
theorem Ensures.onFail_of {Q : α → σ → Prop} {R' : σ → Prop} (h : Ensures P x Q R)
    (hpending : ∀ s t, x s = (.error .pending, t) → R t → R' t)
    (hfailed : ∀ s, R s → R' (cleanup s)) : Ensures P (onFail x cleanup) Q R' := by
  intro s hs
  obtain ⟨hok, herr⟩ := h s hs
  unfold onFail
  rcases hrun : x s with ⟨outcome, t⟩
  rw [hrun] at hok herr
  rcases outcome with (_ | error) | a
  · exact ⟨nofun, fun _ _ => hpending s t hrun (herr _ rfl)⟩
  · exact ⟨nofun, fun _ _ => hfailed t (herr _ rfl)⟩
  · exact ⟨hok, nofun⟩

/-- **The rule of a cleanup.** -/
theorem Ensures.onFail {Q : α → σ → Prop} {R' : σ → Prop}
    (h : Ensures P x Q R) (hpending : ∀ s, R s → R' s) (hfailed : ∀ s, R s → R' (cleanup s)) :
    Ensures P (onFail x cleanup) Q R' :=
  h.onFail_of (fun _ t _ => hpending t) hfailed

/-- The rule of a cleanup, for a procedure that never waits. -/
theorem Ensures.onFail_of_ne_pending {Q : α → σ → Prop}
    {R' : σ → Prop} (h : Ensures P x Q R) (hnever : ∀ s, (x s).1 ≠ .error .pending)
    (hfailed : ∀ s, R s → R' (cleanup s)) : Ensures P (Proc.onFail x cleanup) Q R' :=
  h.onFail_of (fun s _ hrun => absurd (congrArg Prod.fst hrun) (hnever s)) hfailed

/-- **The rule of a read, by its answer.** -/
theorem Yields.pollRead {amount : ℕ} {O : Except (Stop ε) (List UInt8) → σ → Prop}
    (hready : ∀ s bytes reads, P s → (part s).reads = .ready bytes :: reads →
      O (.ok (bytes.take amount))
        (put s { part s with reads, consumed := (part s).consumed ++ bytes.take amount }))
    (hpending : ∀ s reads, P s → reads = (part s).reads.tail →
      O (.error .pending) (put s { part s with reads }))
    (hfailed : ∀ s e reads, P s → (part s).reads = .failed e :: reads →
      O (.error (.failed e)) (put s { part s with reads })) :
    Yields P (within part put (Carrier.pollRead amount)) O := by
  intro s hs
  unfold within Carrier.pollRead
  rcases hreads : (part s).reads with _ | ⟨answer, reads⟩
  · exact hpending s [] hs (by rw [hreads]; rfl)
  · cases answer with
    | pending => exact hpending s reads hs (by rw [hreads]; rfl)
    | ready bytes => exact hready s bytes reads hs hreads
    | failed e => exact hfailed s e reads hs hreads

/-- **The rule of a cleanup, by its outcome.** -/
theorem Yields.onFail {O O' : Except (Stop ε) α → σ → Prop} (h : Yields P x O)
    (hok : ∀ a s, O (.ok a) s → O' (.ok a) s)
    (hpending : ∀ s, O (.error .pending) s → O' (.error .pending) s)
    (hfailed : ∀ e s, O (.error (.failed e)) s → O' (.error (.failed e)) (cleanup s)) :
    Yields P (onFail x cleanup) O' := by
  intro s hs
  have hout := h s hs
  unfold Proc.onFail
  rcases hrun : x s with ⟨outcome, t⟩
  rw [hrun] at hout
  rcases outcome with (_ | error) | a
  · exact hpending t hout
  · exact hfailed error t hout
  · exact hok a t hout

end Rules

end Proc

end Vole
