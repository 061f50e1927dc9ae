import Mathlib.Data.List.Basic

/-!
# Runs

A system takes steps, each for an event. A run is recorded as what happened
on the way: every event with the state it was taken in. What one step keeps
a run keeps, and what is true of a run's past is true of the run that was
there then.
-/

namespace Vole

open Option List

/-- What was there before, or what came last. -/
theorem mem_concat {α : Type*} {x last : α} {xs : List α} :
    x ∈ xs ++ [last] ↔ x ∈ xs ∨ x = last := by
  rw [mem_append, mem_singleton]

theorem forall_mem_concat {α : Type*} {p : α → Prop} {last : α} {xs : List α} :
    (∀ x ∈ xs ++ [last], p x) ↔ (∀ x ∈ xs, p x) ∧ p last := by
  rw [forall_mem_append, forall_mem_singleton]

/-- **A run** from `s`: what happened, the oldest first, and where it
leads. -/
inductive Run {σ ε : Type} (step : σ → ε → σ → Prop) (s : σ) : List (σ × ε) → σ → Prop
  | start : Run step s [] s
  | next {history : List (σ × ε)} {t u : σ} {e : ε} :
    Run step s history t → step t e u → Run step s (history ++ [(t, e)]) u

namespace Run

variable {σ ε : Type} {step : σ → ε → σ → Prop} {s t : σ} {history : List (σ × ε)}

/-- **What every step keeps, a run keeps.** -/
theorem invariant {I : σ → Prop} (h : Run step s history t) (hs : I s)
    (hstep : ∀ t e u, I t → step t e u → I u) : I t := by
  induction h with
  | start => exact hs
  | next _ htake ih => exact hstep _ _ _ ih htake

/-- Whatever happened, happened at the end of a run and was a step. -/
theorem of_mem (h : Run step s history t) {u : σ} {e : ε} (hmem : (u, e) ∈ history) :
    ∃ past after v, history = past ++ (u, e) :: after ∧ Run step s past u ∧ step u e v := by
  induction h with
  | start => cases hmem
  | @next past t v e' hrun htake ih =>
    rcases mem_append.mp hmem with hmem | hmem
    · obtain ⟨before, after, w, rfl, hbefore, hw⟩ := ih hmem
      exact ⟨before, after ++ [(t, e')], w, by simp, hbefore, hw⟩
    · obtain ⟨rfl, rfl⟩ := Prod.mk.inj (mem_singleton.mp hmem)
      exact ⟨past, [], v, rfl, hrun, htake⟩

end Run

/-! ## Steps that are functions -/

section Exec

variable {σ ε : Type} (step : σ → ε → Option σ)

/-- Take these events one after the other, each where it is enabled. -/
def exec : σ → List ε → Option σ
  | s, [] => some s
  | s, e :: rest => (step s e).bind (exec · rest)

/-- What happens on the way. -/
def trail : σ → List ε → List (σ × ε)
  | _, [] => []
  | s, e :: rest => (s, e) :: ((step s e).elim [] (trail · rest))

variable {step}

theorem exec_cons {s t : σ} {e : ε} {rest : List ε} (h : step s e = some t) :
    exec step s (e :: rest) = exec step t rest := by
  rw [exec, h, bind_some]

theorem exec_run_from {s t u : σ} {past : List (σ × ε)} {events : List ε}
    (h : Run (fun s e t => step s e = some t) s past t) (hexec : exec step t events = some u) :
    Run (fun s e t => step s e = some t) s (past ++ trail step t events) u := by
  induction events generalizing past t with
  | nil =>
    obtain rfl : t = u := some.inj hexec
    simpa [trail] using h
  | cons e rest ih =>
    obtain ⟨v, hv, hrest⟩ := bind_eq_some_iff.mp hexec
    have hnext := ih (h.next hv) hrest
    rw [trail, hv]
    simpa using hnext

/-- **What is executed is a run.** -/
theorem exec_run {s t : σ} {events : List ε} (h : exec step s events = some t) :
    Run (fun s e t => step s e = some t) s (trail step s events) t := by
  simpa using exec_run_from .start h

/-- **Where an execution leads, a run leads.** -/
theorem run_of_exec_any (step : σ → ε → Option σ) {s : σ} (events : List ε) (p : σ → Prop)
    [DecidablePred p] (h : (exec step s events).any p = true) :
    ∃ t, Run (fun s e t => step s e = some t) s (trail step s events) t ∧ p t := by
  obtain ⟨t, ht, hp⟩ := (any_eq_true _ _).mp h
  exact ⟨t, exec_run ht, of_decide_eq_true hp⟩

end Exec

end Vole
