import Mathlib

/-! Loops with a bound on their passes. A pass gives a state and, if it is the last, a result. Where a
measure goes down with every pass that is not the last, a bound above it does not show. -/
namespace Spdylay.Library.Loop
variable {σ ρ : Type} (pass : σ → σ × Option ρ) (dflt : ρ)

/-- At most so many passes, and a default result if none of them was the last. -/
def run : Nat → σ → σ × ρ
  | 0, s => (s, dflt)
  | fuel+1, s =>
    match pass s with
    | (t, some r) => (t, r)
    | (t, none) => run fuel t

/-- A pass that is not the last. -/
def Goes (s t : σ) : Prop := pass s = (t, none)

/-- The loop without a bound: from `s` it stops in `u` with `r`. -/
def Stops (s u : σ) (r : ρ) : Prop := ∃ t, Relation.ReflTransGen (Goes pass) s t ∧ pass t = (u, some r)

section
variable {pass dflt} {s t u : σ} {r : ρ} {μ : σ → Nat}

theorem run_last (fuel : Nat) (h : pass s = (t, some r)) : run pass dflt (fuel+1) s = (t, r) := by
  rw [run, h]

theorem run_goes (fuel : Nat) (h : Goes pass s t) : run pass dflt (fuel+1) s = run pass dflt fuel t := by
  rw [run, h]

theorem Stops.head (h : Goes pass s t) (ht : Stops pass t u r) : Stops pass s u r := by
  obtain ⟨t', hsteps, hlast⟩ := ht
  exact ⟨t', hsteps.head h, hlast⟩

/-- Above the measure every bound gives the result of the loop without one. -/
theorem stops_run (hμ : ∀ s t, Goes pass s t → μ t < μ s) {fuel : Nat} (h : μ s < fuel) :
    Stops pass s (run pass dflt fuel s).1 (run pass dflt fuel s).2 := by
  induction fuel generalizing s with
  | zero => exact absurd h (Nat.not_lt_zero _)
  | succ fuel ih =>
    obtain ⟨⟨t, r⟩, hp⟩ : ∃ p, pass s = p := ⟨_, rfl⟩
    cases r with
    | some r =>
      rw [run_last fuel hp]
      exact ⟨s, .refl, hp⟩
    | none =>
      have hless := hμ s t hp
      rw [run_goes fuel hp]
      exact (ih (by omega)).head hp

theorem run_of_stops {fuel : Nat} (hμ : ∀ s t, Goes pass s t → μ t < μ s) (h : μ s < fuel) (hs : Stops pass s u r) :
    run pass dflt fuel s = (u, r) := by
  obtain ⟨t, hsteps, hlast⟩ := hs
  induction hsteps using Relation.ReflTransGen.head_induction_on generalizing fuel with
  | refl =>
    cases fuel with
    | zero => exact absurd h (Nat.not_lt_zero _)
    | succ fuel => exact run_last fuel hlast
  | head hp _ ih =>
    cases fuel with
    | zero => exact absurd h (Nat.not_lt_zero _)
    | succ fuel =>
      have hless := hμ _ _ hp
      rw [run_goes fuel hp]
      exact ih (by omega)

end

end Spdylay.Library.Loop
