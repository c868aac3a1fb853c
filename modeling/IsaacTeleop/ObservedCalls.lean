/-
Programs that make calls to an environment.

The environment answers each call as it likes, knowing the calls before it: the call returns
or raises.  Calls and answers are kept as events.  A monitor follows the events
and may refuse one, so that a program is specified by assertions about its own state and the
monitor's: whoever proves a triple proves that the monitor accepts.

* `World`, `call`, `attempt`, `forEach` — the programs;
* `Holds`, `Triple` — assertions and specifications;
* `Triple.call`, `Triple.bind`, `Triple.attempt`, `Triple.forEach` — the rules;
* `Keeps` — programs that keep whatever a relation keeps.
-/
import IsaacTeleop.StateExcept
import IsaacTeleop.TraceMonitor

namespace Observed

/-- The state of a program and the events so far. -/
structure World (S V : Type) where
  state : S
  events : List V

/-- A call and what it returned or raised. -/
abbrev Event (C A E : Type) : Type := C × Except E A

/-- A program with state `S` whose calls `C` return an `A` or raise an `E`. -/
abbrev Program (S C A E α : Type) : Type := Fallible (World S (Event C A E)) E α

variable {S C A E L α β : Type}

/-! ### Programs -/

def get : Program S C A E S := fun w => (.ok w.state, w)

def modify (f : S → S) : Program S C A E Unit := fun w => (.ok (), { w with state := f w.state })

/-- Make the call `c`. -/
def call (env : List (Event C A E) → Except E A) (c : C) : Program S C A E A := fun w =>
  let answer := env w.events
  (answer, { w with events := w.events ++ [(c, answer)] })

/-- Catch whatever `x` raises. -/
def attempt (x : Program S C A E α) : Program S C A E (Except E α) := fun w =>
  let (result, w') := x w
  (.ok result, w')

def forEach (f : β → Program S C A E Unit) : List β → Program S C A E Unit
  | [] => pure ()
  | b :: bs => do
    f b
    forEach f bs

def doIf (condition : Bool) (x : Program S C A E Unit) : Program S C A E Unit :=
  if condition then x else pure ()

/-- `try x finally cleanup`: what the cleanup raises replaces what `x` did. -/
def tryFinally (x : Program S C A E α) (cleanup : Program S C A E Unit) : Program S C A E α := do
  let result ← attempt x
  cleanup
  Fallible.lift result

/-! ### Assertions -/

section Logic

variable {next : L → Event C A E → Option L} {init : L}

/-- The monitor accepts the events, and its state and the program's satisfy `P`. -/
def Holds (next : L → Event C A E → Option L) (init : L) (P : S → L → Prop)
    (w : World S (Event C A E)) : Prop :=
  ∃ l, Monitor.Accepts next init w.events l ∧ P w.state l

/-- From `P`, a return satisfies `Q` and a raise satisfies `R`. -/
def Triple (next : L → Event C A E → Option L) (init : L) (P : S → L → Prop)
    (x : Program S C A E α) (Q : α → S → L → Prop) (R : E → S → L → Prop) : Prop :=
  ∀ w, Holds next init P w →
    Fallible.wp x (fun a => Holds next init (Q a)) (fun e => Holds next init (R e)) w

variable {P P' : S → L → Prop} {x : Program S C A E α} {Q Q' : α → S → L → Prop}
variable {R R' : E → S → L → Prop}

theorem Holds.mono {w : World S (Event C A E)} (h : Holds next init P w)
    (himp : ∀ s l, P s l → P' s l) : Holds next init P' w := by
  obtain ⟨l, haccepts, hP⟩ := h
  exact ⟨l, haccepts, himp _ _ hP⟩

namespace Triple

/-- **Consequence.** -/
theorem conseq (h : Triple next init P x Q R) (hP : ∀ s l, P' s l → P s l)
    (hQ : ∀ a s l, Q a s l → Q' a s l) (hR : ∀ e s l, R e s l → R' e s l) :
    Triple next init P' x Q' R' := by
  intro w hw
  refine Fallible.wp_mono (h w (hw.mono hP)) ?_ ?_
  · exact fun a _ ha => ha.mono (hQ a)
  · exact fun e _ he => he.mono (hR e)

theorem pre (h : Triple next init P x Q R) (hP : ∀ s l, P' s l → P s l) :
    Triple next init P' x Q R :=
  h.conseq hP (fun _ _ _ => id) fun _ _ _ => id

theorem post (h : Triple next init P x Q R) (hQ : ∀ a s l, Q a s l → Q' a s l)
    (hR : ∀ e s l, R e s l → R' e s l) : Triple next init P x Q' R' :=
  h.conseq (fun _ _ => id) hQ hR

/-- A variable of the precondition. -/
theorem exists_pre {ι : Type} {P : ι → S → L → Prop} (h : ∀ i, Triple next init (P i) x Q R) :
    Triple next init (fun s l => ∃ i, P i s l) x Q R := by
  rintro w ⟨l, haccepts, i, hP⟩
  exact h i w ⟨l, haccepts, hP⟩

/-- A case distinction of the precondition. -/
theorem or_pre {P₁ P₂ : S → L → Prop} (hP : ∀ s l, P s l → P₁ s l ∨ P₂ s l)
    (h₁ : Triple next init P₁ x Q R) (h₂ : Triple next init P₂ x Q R) :
    Triple next init P x Q R := by
  rintro w ⟨l, haccepts, h⟩
  rcases hP _ _ h with h | h
  · exact h₁ w ⟨l, haccepts, h⟩
  · exact h₂ w ⟨l, haccepts, h⟩

/-- The state is read: it is the one that the precondition speaks of. -/
theorem get_bind {f : S → Program S C A E α}
    (h : ∀ s₀, Triple next init (fun s l => P s l ∧ s = s₀) (f s₀) Q R) :
    Triple next init P (Observed.get >>= f) Q R := by
  rintro w ⟨l, haccepts, hP⟩
  exact h w.state w ⟨l, haccepts, hP, rfl⟩

/-- A fact of the precondition that does not depend on the state. -/
theorem pure_pre {φ : Prop} (hφ : ∀ s l, P s l → φ) (h : φ → Triple next init P x Q R) :
    Triple next init P x Q R := by
  intro w hw
  obtain ⟨l, haccepts, hP⟩ := hw
  exact h (hφ _ _ hP) w ⟨l, haccepts, hP⟩

theorem pure {a : α} (h : ∀ s l, P s l → Q a s l) :
    Triple next init P (Pure.pure a : Program S C A E α) Q R :=
  fun _ hw => hw.mono h

theorem raise {e : E} (h : ∀ s l, P s l → R e s l) :
    Triple next init P (Fallible.raise e : Program S C A E α) Q R :=
  fun _ hw => hw.mono h

theorem get {Q : S → S → L → Prop} (h : ∀ s l, P s l → Q s s l) :
    Triple next init P (Observed.get : Program S C A E S) Q R := by
  rintro w ⟨l, haccepts, hP⟩
  exact ⟨l, haccepts, h _ _ hP⟩

theorem modify {f : S → S} {Q : Unit → S → L → Prop} (h : ∀ s l, P s l → Q () (f s) l) :
    Triple next init P (Observed.modify f : Program S C A E Unit) Q R := by
  rintro w ⟨l, haccepts, hP⟩
  exact ⟨l, haccepts, h _ _ hP⟩

/-- **A call:** the monitor accepts it, however it is answered. -/
theorem call {env : List (Event C A E) → Except E A} {c : C} {Q : A → S → L → Prop}
    (hreturns : ∀ s l a, P s l → ∃ l', next l (c, .ok a) = some l' ∧ Q a s l')
    (hraises : ∀ s l e, P s l → ∃ l', next l (c, .error e) = some l' ∧ R e s l') :
    Triple next init P (Observed.call env c) Q R := by
  rintro w ⟨l, haccepts, hP⟩
  have haccepts' : ∀ l', next l (c, env w.events) = some l' →
      Monitor.Accepts next init (w.events ++ [(c, env w.events)]) l' := fun l' hnext =>
    Monitor.accepts_snoc.mpr ⟨l, haccepts, hnext⟩
  unfold Fallible.wp Observed.call
  cases hanswer : env w.events with
  | ok a =>
    rw [hanswer] at haccepts'
    obtain ⟨l', hnext, hQ⟩ := hreturns w.state l a hP
    exact ⟨l', haccepts' l' hnext, hQ⟩
  | error e =>
    rw [hanswer] at haccepts'
    obtain ⟨l', hnext, hR⟩ := hraises w.state l e hP
    exact ⟨l', haccepts' l' hnext, hR⟩

/-- A call that always returns. -/
theorem call_ok {answer : List (Event C A E) → A} {c : C} {Q : A → S → L → Prop}
    (h : ∀ s l a, P s l → ∃ l', next l (c, .ok a) = some l' ∧ Q a s l') :
    Triple next init P (Observed.call (fun events => .ok (answer events)) c) Q R := by
  rintro w ⟨l, haccepts, hP⟩
  obtain ⟨l', hnext, hQ⟩ := h w.state l (answer w.events) hP
  exact ⟨l', Monitor.accepts_snoc.mpr ⟨l, haccepts, hnext⟩, hQ⟩

/-- **Sequencing.** -/
theorem bind {f : α → Program S C A E β} {Q' : β → S → L → Prop}
    (hx : Triple next init P x Q R) (hf : ∀ a, Triple next init (Q a) (f a) Q' R) :
    Triple next init P (x >>= f) Q' R := by
  intro w hw
  refine Fallible.wp_bind (Fallible.wp_mono (hx w hw) ?_ ?_)
  · exact fun a w' hw' => hf a w' hw'
  · exact fun _ _ => id

/-- The postconditions of a program, as one of what it ends with. -/
def Ends (Q : α → S → L → Prop) (R : E → S → L → Prop) : Except E α → S → L → Prop
  | .ok a => Q a
  | .error e => R e

/-- **Catching.** -/
theorem attempt (hx : Triple next init P x Q R) :
    Triple next init P (Observed.attempt x) (Ends Q R) R' := by
  intro w hw
  have h := hx w hw
  unfold Fallible.wp at h ⊢
  unfold Observed.attempt
  rcases hresult : x w with ⟨e | a, w'⟩
  · rw [hresult] at h
    exact h
  · rw [hresult] at h
    exact h

theorem lift {result : Except E α} (h : ∀ s l, P s l → Ends Q R result s l) :
    Triple next init P (Fallible.lift result : Program S C A E α) Q R := by
  cases result with
  | ok a => exact pure h
  | error e => exact raise h

/-- **Cleaning up:** both ends of `x` come by the cleanup. -/
theorem tryFinally {cleanup : Program S C A E Unit} {Q₁ : α → S → L → Prop}
    {R₁ : E → S → L → Prop} (hx : Triple next init P x Q₁ R₁)
    (hcleanup : ∀ result, Triple next init (Ends Q₁ R₁ result) cleanup
      (fun _ => Ends Q R result) R) :
    Triple next init P (Observed.tryFinally x cleanup) Q R := by
  refine bind (attempt hx) fun result => ?_
  exact bind (hcleanup result) fun _ => lift fun _ _ => id

theorem doIf {condition : Bool} {x : Program S C A E Unit} {Q : Unit → S → L → Prop}
    (hx : condition = true → Triple next init P x Q R)
    (hskip : condition = false → ∀ s l, P s l → Q () s l) :
    Triple next init P (Observed.doIf condition x) Q R := by
  unfold Observed.doIf
  cases condition with
  | true => exact hx rfl
  | false => exact pure (hskip rfl)

/-- **Loops:** an invariant of what has been done. -/
theorem forEach {f : β → Program S C A E Unit} {I : List β → S → L → Prop} {bs : List β}
    (h : ∀ done b rest, bs = done ++ b :: rest →
      Triple next init (I done) (f b) (fun _ => I (done ++ [b])) R) :
    Triple next init (I []) (Observed.forEach f bs) (fun _ => I bs) R := by
  have hloop : ∀ done rest, bs = done ++ rest →
      Triple next init (I done) (Observed.forEach f rest) (fun _ => I bs) R := by
    intro done rest
    induction rest generalizing done with
    | nil =>
      intro hbs
      rw [List.append_nil] at hbs
      rw [hbs]
      exact pure fun _ _ => id
    | cons b rest ih =>
      intro hbs
      refine bind (h done b rest hbs) fun _ => ih (done ++ [b]) ?_
      rw [hbs, List.append_assoc, List.singleton_append]
  exact hloop [] bs rfl

end Triple

/-! ### Programs that keep a relation -/

/-- Whatever the steps of `R` keep, `x` keeps, however it ends. -/
def Keeps (next : L → Event C A E → Option L) (init : L) (R : S → L → S → L → Prop)
    (x : Program S C A E α) : Prop :=
  ∀ P : S → L → Prop, (∀ s l s' l', R s l s' l' → P s l → P s' l') →
    Triple next init P x (fun _ => P) fun _ => P

namespace Keeps

variable {R₀ R₁ : S → L → S → L → Prop} {f : α → Program S C A E β}

theorem mono (hx : Keeps next init R₀ x) (hR : ∀ s l s' l', R₀ s l s' l' → R₁ s l s' l') :
    Keeps next init R₁ x :=
  fun P hP => hx P fun s l s' l' h => hP s l s' l' (hR s l s' l' h)

theorem pure (a : α) : Keeps next init R₀ (Pure.pure a : Program S C A E α) :=
  fun _ _ => Triple.pure fun _ _ => id

theorem raise (e : E) : Keeps next init R₀ (Fallible.raise e : Program S C A E α) :=
  fun _ _ => Triple.raise fun _ _ => id

theorem get : Keeps next init R₀ (Observed.get : Program S C A E S) :=
  fun _ _ => Triple.get fun _ _ => id

theorem modify {g : S → S} (hg : ∀ s l, R₀ s l (g s) l) :
    Keeps next init R₀ (Observed.modify g : Program S C A E Unit) :=
  fun _ hP => Triple.modify fun s l => hP s l (g s) l (hg s l)

/-- A call that always returns. -/
theorem call_ok {answer : List (Event C A E) → A} {c : C}
    (h : ∀ s l a, ∃ l', next l (c, .ok a) = some l' ∧ R₀ s l s l') :
    Keeps next init R₀
      (Observed.call (fun events => .ok (answer events)) c : Program S C A E A) := by
  intro P hP
  refine Triple.call_ok fun s l a hs => ?_
  obtain ⟨l', hnext, hR⟩ := h s l a
  exact ⟨l', hnext, hP s l s l' hR hs⟩

theorem bind (hx : Keeps next init R₀ x) (hf : ∀ a, Keeps next init R₀ (f a)) :
    Keeps next init R₀ (x >>= f) :=
  fun P hP => Triple.bind (hx P hP) fun a => hf a P hP

theorem attempt (hx : Keeps next init R₀ x) : Keeps next init R₀ (Observed.attempt x) := by
  intro P hP
  refine (Triple.attempt (hx P hP)).post (fun result _ _ h => ?_) fun _ _ _ => id
  cases result with
  | ok _ => exact h
  | error _ => exact h

theorem lift (result : Except E α) :
    Keeps next init R₀ (Fallible.lift result : Program S C A E α) := by
  cases result with
  | ok a => exact pure a
  | error e => exact raise e

theorem tryFinally {cleanup : Program S C A E Unit} (hx : Keeps next init R₀ x)
    (hcleanup : Keeps next init R₀ cleanup) :
    Keeps next init R₀ (Observed.tryFinally x cleanup) :=
  bind (attempt hx) fun result => bind hcleanup fun _ => lift result

theorem ite {condition : Prop} [Decidable condition] {y : Program S C A E α}
    (hx : condition → Keeps next init R₀ x) (hy : ¬condition → Keeps next init R₀ y) :
    Keeps next init R₀ (if condition then x else y) := by
  split
  case isTrue h => exact hx h
  case isFalse h => exact hy h

theorem doIf {condition : Bool} {x : Program S C A E Unit}
    (hx : condition = true → Keeps next init R₀ x) :
    Keeps next init R₀ (Observed.doIf condition x) :=
  ite hx fun _ => pure ()

theorem forEach {g : β → Program S C A E Unit} {bs : List β}
    (hg : ∀ b, Keeps next init R₀ (g b)) : Keeps next init R₀ (Observed.forEach g bs) :=
  fun P hP => Triple.forEach (I := fun _ => P) fun _ b _ _ => hg b P hP

/-- **Using it:** an assertion that `R₀` keeps. -/
theorem andThen {P : S → L → Prop} {Q : β → S → L → Prop} {R : E → S → L → Prop}
    (hx : Keeps next init R₀ x) (hP : ∀ s l s' l', R₀ s l s' l' → P s l → P s' l')
    (hR : ∀ e s l, P s l → R e s l) (hf : ∀ a, Triple next init P (f a) Q R) :
    Triple next init P (x >>= f) Q R :=
  Triple.bind ((hx P hP).post (fun _ _ _ => id) hR) hf

end Keeps

end Logic

end Observed
