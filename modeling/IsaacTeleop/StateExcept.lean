/-
Stateful computations that may raise.

A `Fallible S E α` runs from a state, returns a value or raises, and leaves a
state behind in both cases.  Its weakest precondition takes one postcondition
for a return and one for a raise.

* `Fallible.wp_bind` — sequencing;
* `Fallible.wp_mono` — weakening of both postconditions.
-/
import Mathlib

/-- Run from a state, return an `α` or raise an `E`; the state survives a raise. -/
def Fallible (S E α : Type) : Type := S → Except E α × S

namespace Fallible

variable {S E α β γ : Type}

def pure (a : α) : Fallible S E α := fun s => (.ok a, s)

def bind (x : Fallible S E α) (f : α → Fallible S E β) : Fallible S E β := fun s =>
  match x s with
  | (.ok a, s') => f a s'
  | (.error e, s') => (.error e, s')

instance : Monad (Fallible S E) where
  pure := pure
  bind := bind

/-- Raise `e`. -/
def raise (e : E) : Fallible S E α := fun s => (.error e, s)

/-- The current state. -/
def read : Fallible S E S := fun s => (.ok s, s)

def modify (f : S → S) : Fallible S E Unit := fun s => (.ok (), f s)

/-- Return or raise what a pure computation does. -/
def lift : Except E α → Fallible S E α
  | .ok a => pure a
  | .error e => raise e

theorem bind_assoc (x : Fallible S E α) (f : α → Fallible S E β) (h : β → Fallible S E γ) :
    (x >>= f) >>= h = x >>= fun a => f a >>= h := by
  funext s
  show bind (bind x f) h s = bind x (fun a => bind (f a) h) s
  unfold bind
  rcases x s with ⟨_ | _, s'⟩
  · rfl
  · rfl

/-! ### Weakest preconditions -/

/-- From `s`, a return satisfies `Q` and a raise satisfies `R`. -/
def wp (x : Fallible S E α) (Q : α → S → Prop) (R : E → S → Prop) (s : S) : Prop :=
  match x s with
  | (.ok a, s') => Q a s'
  | (.error e, s') => R e s'

variable {Q : α → S → Prop} {R : E → S → Prop} {s : S}

theorem wp_pure {a : α} (h : Q a s) : wp (Pure.pure a : Fallible S E α) Q R s := h

theorem wp_raise {e : E} (h : R e s) : wp (raise e : Fallible S E α) Q R s := h

theorem wp_read {Q : S → S → Prop} (h : Q s s) : wp (read : Fallible S E S) Q R s := h

theorem wp_modify {f : S → S} {Q : Unit → S → Prop} (h : Q () (f s)) :
    wp (modify f : Fallible S E Unit) Q R s := h

/-- **Sequencing.** -/
theorem wp_bind {x : Fallible S E α} {f : α → Fallible S E β} {Q : β → S → Prop}
    (h : wp x (fun a => wp (f a) Q R) R s) : wp (x >>= f) Q R s := by
  show (match bind x f s with
    | (.ok a, s') => Q a s'
    | (.error e, s') => R e s')
  unfold wp at h
  unfold bind
  rcases hx : x s with ⟨_ | _, s'⟩
  all_goals
    rw [hx] at h
    exact h

/-- **Weakening of both postconditions.** -/
theorem wp_mono {x : Fallible S E α} {Q Q' : α → S → Prop} {R R' : E → S → Prop}
    (h : wp x Q R s) (hQ : ∀ a s', Q a s' → Q' a s') (hR : ∀ e s', R e s' → R' e s') :
    wp x Q' R' s := by
  unfold wp at h ⊢
  rcases hx : x s with ⟨e | a, s'⟩
  · rw [hx] at h
    exact hR e s' h
  · rw [hx] at h
    exact hQ a s' h

theorem wp_and {x : Fallible S E α} {Q Q' : α → S → Prop} {R R' : E → S → Prop}
    (h : wp x Q R s) (h' : wp x Q' R' s) :
    wp x (fun a s' => Q a s' ∧ Q' a s') (fun e s' => R e s' ∧ R' e s') s := by
  unfold wp at h h' ⊢
  rcases hx : x s with ⟨_ | _, s'⟩
  all_goals
    rw [hx] at h h'
    exact ⟨h, h'⟩

/-- What a run that returned satisfies. -/
theorem wp_ok {x : Fallible S E α} (h : wp x Q R s) {a : α} {s' : S} (hx : x s = (.ok a, s')) :
    Q a s' := by
  unfold wp at h
  rw [hx] at h
  exact h

/-- What a run that raised satisfies. -/
theorem wp_error {x : Fallible S E α} (h : wp x Q R s) {e : E} {s' : S}
    (hx : x s = (.error e, s')) : R e s' := by
  unfold wp at h
  rw [hx] at h
  exact h

/-- What the state left behind satisfies either way. -/
theorem wp_state {x : Fallible S E α} {P : S → Prop} (h : wp x (fun _ => P) (fun _ => P) s) :
    P (x s).2 := by
  unfold wp at h
  rcases hx : x s with ⟨_ | _, s'⟩
  all_goals
    rw [hx] at h
    exact h

end Fallible
