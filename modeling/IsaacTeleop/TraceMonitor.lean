/-
Traces checked by a monitor.

A monitor is a partial step function: it follows a trace entry by entry and may refuse
one.  A system whose traces a monitor accepts has every property that the monitor's
states guarantee.

* `Monitor.accepts_append`, `Monitor.accepts_snoc` — acceptance of a longer trace;
* `Monitor.induction` — what every accepted trace satisfies;
* `Monitor.never` — what it refuses from some state on;
* `Monitor.filterMap_eq` — a projection of the trace that the states determine.
-/
import Mathlib

namespace Monitor

variable {S E : Type} (next : S → E → Option S)

/-- From `s` the monitor accepts `trace` and ends in `s'`. -/
def Accepts (s : S) (trace : List E) (s' : S) : Prop := trace.foldlM next s = some s'

variable {next} {s s' : S} {t u : List E}

theorem accepts_append :
    Accepts next s (t ++ u) s' ↔ ∃ s₁, Accepts next s t s₁ ∧ Accepts next s₁ u s' := by
  rw [Accepts, List.foldlM_append]
  exact Option.bind_eq_some_iff

theorem accepts_cons {e : E} :
    Accepts next s (e :: t) s' ↔ ∃ s₁, next s e = some s₁ ∧ Accepts next s₁ t s' := by
  rw [Accepts, List.foldlM_cons]
  exact Option.bind_eq_some_iff

theorem accepts_snoc {e : E} :
    Accepts next s (t ++ [e]) s' ↔ ∃ s₁, Accepts next s t s₁ ∧ next s₁ e = some s' := by
  rw [accepts_append]
  constructor
  · rintro ⟨s₁, ht, he⟩
    obtain ⟨s₂, hnext, hnil⟩ := accepts_cons.mp he
    cases hnil
    exact ⟨s₁, ht, hnext⟩
  · rintro ⟨s₁, ht, hnext⟩
    exact ⟨s₁, ht, accepts_cons.mpr ⟨s', hnext, rfl⟩⟩

/-- **What every accepted trace satisfies:** a relation between the trace so far and the
monitor's state that each step keeps. -/
theorem induction {P : List E → S → Prop} (hnil : P [] s)
    (hstep : ∀ t s₁ e s₂, P t s₁ → next s₁ e = some s₂ → P (t ++ [e]) s₂)
    (h : Accepts next s t s') : P t s' := by
  induction t using List.reverseRecOn generalizing s' with
  | nil =>
    cases h
    exact hnil
  | append_singleton t e ih =>
    obtain ⟨s₁, ht, hnext⟩ := accepts_snoc.mp h
    exact hstep t s₁ e s' (ih ht) hnext

/-- **What is refused from here on:** a condition that each step keeps and that refuses the
entries with `Q`. -/
theorem never {P : S → Prop} {Q : E → Prop} (hP : P s)
    (hstep : ∀ s₁ e s₂, P s₁ → next s₁ e = some s₂ → P s₂ ∧ ¬Q e)
    (h : Accepts next s t s') : ∀ e ∈ t, ¬Q e := by
  have hboth : P s' ∧ ∀ e ∈ t, ¬Q e := by
    refine induction (P := fun t s => P s ∧ ∀ e ∈ t, ¬Q e) ⟨hP, by simp⟩ ?_ h
    rintro t s₁ e s₂ ⟨hs₁, ht⟩ hnext
    obtain ⟨hs₂, he⟩ := hstep s₁ e s₂ hs₁ hnext
    refine ⟨hs₂, fun e' he' => ?_⟩
    rcases List.mem_append.mp he' with hmem | hmem
    · exact ht e' hmem
    · rw [List.mem_singleton.mp hmem]
      exact he
  exact hboth.2

theorem filterMap_snoc {α : Type} (f : E → Option α) (t : List E) (e : E) :
    (t ++ [e]).filterMap f = t.filterMap f ++ (f e).toList := by
  rw [List.filterMap_append, List.filterMap_cons]
  cases f e with
  | none => rfl
  | some a => rfl

/-- **A projection that the states determine:** each step adds to it what it selects. -/
theorem filterMap_eq {α : Type} {P : S → Prop} {f : E → Option α} {F : S → List α} (hP : P s)
    (hkeep : ∀ s₁ e s₂, P s₁ → next s₁ e = some s₂ → P s₂) (hnil : F s = [])
    (hstep : ∀ s₁ e s₂, P s₁ → next s₁ e = some s₂ → F s₂ = F s₁ ++ (f e).toList)
    (h : Accepts next s t s') : t.filterMap f = F s' := by
  have hboth : P s' ∧ t.filterMap f = F s' := by
    refine induction (P := fun t s => P s ∧ t.filterMap f = F s) ⟨hP, hnil.symm⟩ ?_ h
    rintro t s₁ e s₂ ⟨hs₁, ht⟩ hnext
    refine ⟨hkeep s₁ e s₂ hs₁ hnext, ?_⟩
    rw [filterMap_snoc, ht, hstep s₁ e s₂ hs₁ hnext]
  exact hboth.2

end Monitor
