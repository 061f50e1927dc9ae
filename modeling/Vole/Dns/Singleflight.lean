import Vole.Dns.Model.Singleflight

/-!
# Single flights are safe

Every flight has one caller that made it. `Sound` says what this caller has
sent and that it is registered while it has the guard.
-/

namespace Vole.Dns

open Function Singleflight

variable {κ γ ρ : Type} {slot : κ → γ}

namespace Caller

/-- The flight that a caller made, and what it has sent. -/
@[grind] def made : Caller κ ρ → Option (ℕ × FlightUpdate ρ)
  | .leading f | .answered f _ => some (f, .pending)
  | .announced f result | .ended f result => some (f, result.elim .retry .complete)
  | _ => none

/-- The flight of its guard. -/
@[grind] def guard : Caller κ ρ → Option ℕ
  | .leading f | .answered f _ | .announced f _ => some f
  | _ => none

/-- The flight it follows. -/
@[grind] def follows : Caller κ ρ → Option ℕ
  | .joined _ f | .waiting _ f => some f
  | _ => none

end Caller

namespace Singleflight

variable {s t : Singleflight κ γ ρ} {i j f : ℕ} {c : Caller κ ρ} {u v : FlightUpdate ρ}

/-- Nobody has called. Of the flights, only those that were made are there. -/
def start (flights : ℕ → Flight κ ρ) : Singleflight κ γ ρ where
  now := 0
  cache := fun _ => none
  registry := fun _ => none
  made := 0
  flights := flights
  callers := fun _ => .idle

/-- **What every step keeps.** -/
structure Sound (slot : κ → γ) (s : Singleflight κ γ ρ) : Prop where
  maker : ∀ f < s.made, ∃ i, (s.callers i).made = some (f, (s.flights f).update)
  sent : ∀ i f u, (s.callers i).made = some (f, u) → f < s.made ∧ (s.flights f).update = u
  apart : ∀ i j f u v, (s.callers i).made = some (f, u) → (s.callers j).made = some (f, v) → i = j
  registered : ∀ i f, (s.callers i).guard = some f → s.registry (s.flights f).key = some f
  listed : ∀ key f, s.registry key = some f → f < s.made
  found : ∀ i f, (s.callers i).follows = some f → f < s.made
  followed : ∀ i f r, s.callers i = .followed f r → f < s.made ∧ (s.flights f).update = .complete r
  stored : ∀ f < s.made, ∀ x, (s.flights f).stored = some x →
    ∃ r, s.cache (slot (s.flights f).key) = some (r, x)

section

variable (h : Sound slot s)

include h

theorem Sound.guarded (hi : (s.callers i).guard = some f) :
    f < s.made ∧ ∃ u, (s.callers i).made = some (f, u) := by
  have hmade : ∃ u, (s.callers i).made = some (f, u) := by
    cases hc : s.callers i <;> simp_all [Caller.guard, Caller.made]
  obtain ⟨u, hu⟩ := hmade
  exact ⟨(h.sent i f u hu).1, u, hu⟩

theorem Sound.goOn (hmade : c.made = (s.callers i).made)
    (hguard : ∀ f, c.guard = some f → (s.callers i).guard = some f)
    (hfound : ∀ f, c.follows = some f → f < s.made)
    (hfollowed : ∀ f r, c = .followed f r → f < s.made ∧ (s.flights f).update = .complete r) :
    Sound slot (s.goOn i c) := by
  cases h
  constructor <;> simp only [Singleflight.goOn, update_apply] <;> grind

theorem Sound.lead [DecidableEq κ] {key : κ} (hi : s.callers i = .looking key)
    (hkey : s.registry key = none) : Sound slot (s.lead i key) := by
  -- another guard is of a flight that is registered, so of another key
  cases h
  constructor <;> simp only [Singleflight.lead, update_apply] <;> grind

theorem Sound.send {result : Option ρ}
    (hi : (s.callers i).made = some (f, .pending)) (hguard : (s.callers i).guard = some f) :
    Sound slot (s.send i f result) := by
  cases h
  constructor <;> simp only [Singleflight.send, update_apply] <;> grind

theorem Sound.store [DecidableEq γ] (result : ρ) (expiry : ℕ) (evicted : List γ) :
    Sound slot (s.store slot f result expiry evicted) := by
  have hsame (g : ℕ) : ((s.store slot f result expiry evicted).flights g).update =
        (s.flights g).update ∧
      ((s.store slot f result expiry evicted).flights g).key = (s.flights g).key := by
    simp only [Singleflight.store]
    split_ifs <;> exact ⟨rfl, rfl⟩
  refine ⟨?_, ?_, h.apart, ?_, h.listed, h.found, ?_, ?_⟩ <;> simp only [hsame]
  · exact h.maker
  · exact h.sent
  · exact h.registered
  · exact h.followed
  -- the entry of another flight stays unless it was replaced or evicted
  intro g hg x hx
  have hold := h.stored g hg x
  simp only [Singleflight.store, List.mem_cons] at hx ⊢
  split_ifs at hx with hgf hgone
  · exact ⟨result, by rw [hgf, if_pos rfl, Option.some.inj hx]⟩
  · rw [if_neg fun h => hgone (.inl h), if_neg fun h => hgone (.inr h)]
    exact hold hx

theorem Sound.removed [DecidableEq κ] {result : Option ρ} (hi : s.callers i = .announced f result) :
    Sound slot ((s.removeCurrent f).goOn i (.ended f result)) := by
  have hother : ∀ j g, (s.callers j).guard = some g → ∃ u, (s.callers j).made = some (g, u) :=
    fun j g hg => (h.guarded hg).2
  rw [removeCurrent, if_pos (h.registered i f (by rw [hi]; rfl))]
  cases h
  constructor <;> simp only [Singleflight.goOn, update_apply] <;> grind

end

variable [DecidableEq κ]

theorem Sound.look (h : Sound slot s) {key : κ} (hi : s.callers i = .looking key) :
    Sound slot (s.look slot i key) := by
  unfold Singleflight.look
  split
  · exact h.goOn (by rw [hi]; rfl) nofun nofun nofun
  unfold join
  split
  · rename_i f hf
    refine h.goOn (by rw [hi]; rfl) nofun ?_ nofun
    rintro _ ⟨⟩
    exact h.listed key f hf
  · exact h.lead hi ‹_›

theorem Sound.step [DecidableEq γ] (h : Sound slot s) {e : FlightEvent κ γ ρ}
    (hstep : s.step slot e = some t) : Sound slot t := by
  cases e <;> simp only [Singleflight.step] at hstep
  case pass seconds => cases hstep; exact { h with }
  case call i key =>
    split at hstep <;> cases hstep
    rename_i hi
    exact h.goOn (by rw [hi]; rfl) nofun nofun nofun
  case look i =>
    split at hstep <;> cases hstep
    exact h.look ‹_›
  case exchanged i result expiry evicted =>
    split at hstep <;> cases hstep
    rename_i f hi
    cases expiry with
    | none => exact h.goOn (by rw [hi]; rfl) (by rw [hi]; exact fun _ => id) nofun nofun
    | some expiry =>
      have hi' : (s.store slot f result expiry evicted).callers i = .leading f := hi
      exact (h.store result expiry evicted).goOn (by rw [hi']; rfl) (by rw [hi']; exact fun _ => id)
        nofun nofun
  case complete i =>
    split at hstep <;> cases hstep
    rename_i hi
    exact h.send (by rw [hi]; rfl) (by rw [hi]; rfl)
  case cancel i =>
    split at hstep <;> cases hstep <;> rename_i hi
    · exact h.goOn (by rw [hi]; rfl) nofun nofun nofun
    · exact h.goOn (by rw [hi]; rfl) nofun nofun nofun
    · exact h.goOn (by rw [hi]; rfl) nofun nofun nofun
    · exact h.send (by rw [hi]; rfl) (by rw [hi]; rfl)
    · exact h.send (by rw [hi]; rfl) (by rw [hi]; rfl)
  case remove i =>
    split at hstep <;> cases hstep
    exact h.removed ‹_›
  case subscribe i =>
    split at hstep <;> cases hstep
    rename_i hi
    exact h.goOn (by rw [hi]; rfl) nofun (fun g hg => h.found i g (by rw [hi]; exact hg)) nofun
  case wait i =>
    split at hstep
    · rename_i f hi
      split at hstep <;> cases hstep
      · refine h.goOn (by rw [hi]; rfl) nofun nofun ?_
        rintro _ _ ⟨⟩
        exact ⟨h.found i f (by rw [hi]; rfl), ‹_›⟩
      · exact h.goOn (by rw [hi]; rfl) nofun nofun nofun
    · cases hstep

theorem Sound.of_run [DecidableEq γ] {flights : ℕ → Flight κ ρ}
    {history : List (Singleflight κ γ ρ × FlightEvent κ γ ρ)}
    (h : Run (fun s e t => s.step slot e = some t) (start flights) history s) : Sound slot s :=
  h.invariant (by constructor <;> simp [start, Caller.made, Caller.guard, Caller.follows])
    fun _ _ _ ht hstep => ht.step hstep

/-- The second caller follows the flight of the first, and gets its response. -/
def sampleEvents : List (FlightEvent Bool Unit ℕ) :=
  [.call 0 true, .look 0, .call 1 true, .look 1, .subscribe 1, .exchanged 0 7 (some 60) [],
    .complete 0, .wait 1]

end Singleflight

end Vole.Dns
