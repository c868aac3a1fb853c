/-
Loops with a bound on their passes.

The body of a loop goes on with a new state or leaves with a result; a loop that runs out of passes
has no result.

* `BoundedLoop.run_exit` — a result is left from a state that satisfies the invariant;
* `BoundedLoop.exists_run` — a loop whose measure goes down leaves within as many passes;
* `BoundedLoop.run_of_le` — more passes give the same result.
-/
import Mathlib.Tactic

namespace BoundedLoop

variable {σ ρ : Type} (body : σ → σ ⊕ ρ)

/-- The result of a loop that is allowed so many passes. -/
def run : ℕ → σ → Option ρ
  | 0, _ => none
  | fuel + 1, s =>
    match body s with
    | .inl s' => run fuel s'
    | .inr r => some r

variable {body}

theorem run_succ_inl {s s' : σ} (h : body s = .inl s') (fuel : ℕ) :
    run body (fuel + 1) s = run body fuel s' := by
  rw [run, h]

theorem run_succ_inr {s : σ} {r : ρ} (h : body s = .inr r) (fuel : ℕ) :
    run body (fuel + 1) s = some r := by
  rw [run, h]

/-- **The invariant rule.** -/
theorem run_exit {inv : σ → Prop} (hinv : ∀ s s', inv s → body s = .inl s' → inv s') {fuel : ℕ}
    {s : σ} {r : ρ} (hs : inv s) (h : run body fuel s = some r) :
    ∃ s', inv s' ∧ body s' = .inr r := by
  induction fuel generalizing s with
  | zero => cases h
  | succ fuel ih =>
    cases hbody : body s with
    | inl s' =>
      rw [run_succ_inl hbody] at h
      exact ih (hinv s s' hs hbody) h
    | inr r' =>
      rw [run_succ_inr hbody, Option.some_inj] at h
      exact ⟨s, hs, by rw [hbody, h]⟩

/-- **Termination**: a measure that goes down with every pass bounds them. -/
theorem exists_run (inv : σ → Prop) (measure : σ → ℕ)
    (hstep : ∀ s s', inv s → body s = .inl s' → inv s' ∧ measure s' < measure s) {fuel : ℕ} {s : σ}
    (hs : inv s) (h : measure s < fuel) : ∃ r, run body fuel s = some r := by
  induction fuel generalizing s with
  | zero => exact absurd h (Nat.not_lt_zero _)
  | succ fuel ih =>
    cases hbody : body s with
    | inl s' =>
      obtain ⟨hs', hlt⟩ := hstep s s' hs hbody
      rw [run_succ_inl hbody]
      exact ih hs' (by omega)
    | inr r => exact ⟨r, run_succ_inr hbody fuel⟩

theorem run_of_le {fuel fuel' : ℕ} {s : σ} {r : ρ} (h : run body fuel s = some r)
    (hle : fuel ≤ fuel') : run body fuel' s = some r := by
  induction fuel generalizing s fuel' with
  | zero => cases h
  | succ fuel ih =>
    obtain ⟨fuel', rfl⟩ := Nat.exists_eq_add_of_lt hle
    cases hbody : body s with
    | inl s' =>
      rw [run_succ_inl hbody] at h ⊢
      exact ih h (by omega)
    | inr r' =>
      rw [run_succ_inr hbody] at h ⊢
      exact h

end BoundedLoop
