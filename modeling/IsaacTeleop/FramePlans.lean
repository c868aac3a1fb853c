/-
Plans, borrowed outputs and ordinals of the frame pump.

A ledger follows the calls of the pump.  It refuses a plan that is begun while another one is
open, a submission or cancellation under a borrowed output, an ordinal that is resolved twice
and a second destruction of the context.  Every session is accepted, whatever its calls
return or raise, and what is accepted has the properties of `Balanced`.

* `Ledger.next` — the calls that are allowed;
* `Ledger.balanced` — what they guarantee;
* `session_balanced` — every session.
-/
import IsaacTeleop.FramePump

open Observed

namespace FramePump

variable {C : Type}

/-! ### The ledger -/

structure OpenPlan where
  id : ℕ
  stepResult : Bool
  cancelTried : Bool
  deriving DecidableEq, Repr

structure Ledger (C : Type) where
  /-- The plan that was begun, and neither submitted nor cancelled. -/
  plan : Option OpenPlan
  plans : ℕ
  /-- The consumers that have finished since the last output was handed out. -/
  finished : List C
  /-- The ordinal that is reserved and not resolved. -/
  ordinal : Option ℕ
  ordinals : ℕ
  closed : List C
  destroyed : Bool
  consumed : Bool

def Ledger.init : Ledger C where
  plan := none
  plans := 0
  finished := []
  ordinal := none
  ordinals := 0
  closed := []
  destroyed := false
  consumed := false

/-- A `destroy` that consumed the context. -/
def consumes : Except Failure Reply → Bool
  | .ok _ | .error .ovxrError => true
  | .error _ => false

/-- An answer of `submit_frame` that does not make the pump raise. -/
def accepts : Except Failure Reply → Bool
  | .ok reply => reply.result.accepted
  | .error _ => false

def Ledger.begin_ (l : Ledger C) (plan : ℕ) : Except Failure Reply → Option (Ledger C)
  | .ok reply =>
    if reply.result ≠ .success then some l
    else if l.plan = none ∧ plan = l.plans ∧ l.destroyed = false then
      some { l with plan := some ⟨plan, reply.flag, false⟩, plans := l.plans + 1 }
    else none
  | .error _ => some l

def Ledger.submit [DecidableEq C] (consumers : List C) (l : Ledger C) (plan : ℕ)
    (answer : Except Failure Reply) : Option (Ledger C) :=
  match l.plan with
  | none => none
  | some p =>
    if p.id = plan ∧ p.cancelTried = false ∧
        (p.stepResult = true → ∀ c ∈ consumers, c ∈ l.finished) then
      some (if accepts answer then { l with plan := none } else l)
    else none

def Ledger.cancel [DecidableEq C] (consumers : List C) (l : Ledger C) (plan : ℕ)
    (answer : Except Failure Reply) : Option (Ledger C) :=
  match l.plan with
  | none => none
  | some p =>
    if p.id = plan ∧ ∀ c ∈ consumers, c ∈ l.finished then
      match answer with
      | .ok _ => some { l with plan := none }
      | .error _ => some { l with plan := some { p with cancelTried := true } }
    else none

/-- What may be called next, and how it may be answered. -/
def Ledger.next [DecidableEq C] (consumers : List C) (l : Ledger C) :
    Happening C → Option (Ledger C)
  | (.beginFrame plan, answer) => l.begin_ plan answer
  | (.onOutputs _, _) => some { l with finished := [] }
  | (.finishFrame c, .ok _) => some { l with finished := c :: l.finished }
  | (.submitFrame plan _, answer) => l.submit consumers plan answer
  | (.cancelFrame plan, answer) => l.cancel consumers plan answer
  | (.reserve ordinal, .ok _) =>
    if l.ordinal = none ∧ ordinal = l.ordinals then
      some { l with ordinal := some ordinal, ordinals := l.ordinals + 1 }
    else none
  | (.resolveExternal ordinal _, _) =>
    if l.ordinal = some ordinal then some { l with ordinal := none } else none
  | (.closeConsumer c, .ok _) => some { l with closed := c :: l.closed }
  | (.destroy _, answer) =>
    if l.destroyed = false ∧ ∀ c ∈ consumers, c ∈ l.closed then
      some { l with destroyed := true, consumed := consumes answer }
    else none
  | _ => some l

/-! ### What a ledger tells of its calls -/

def begins (plan : ℕ) : Happening C → Bool
  | (.beginFrame id, .ok reply) => id = plan ∧ reply.result = .success
  | _ => false

/-- A submission of the plan that was accepted. -/
def submits (plan : ℕ) : Happening C → Bool
  | (.submitFrame id _, answer) => id = plan ∧ accepts answer = true
  | _ => false

/-- A cancellation of the plan, successful or not. -/
def triesCancel (plan : ℕ) : Happening C → Bool
  | (.cancelFrame id, _) => id = plan
  | _ => false

def cancels (plan : ℕ) : Happening C → Bool
  | (.cancelFrame id, .ok _) => id = plan
  | _ => false

def reserves (ordinal : ℕ) : Happening C → Bool
  | (.reserve id, .ok _) => id = ordinal
  | _ => false

def resolves (ordinal : ℕ) : Happening C → Bool
  | (.resolveExternal id _, _) => id = ordinal
  | _ => false

def destroys : Happening C → Bool
  | (.destroy _, _) => true
  | _ => false

def consumesContext : Happening C → Bool
  | (.destroy _, answer) => consumes answer
  | _ => false

def handsOut : Happening C → Bool
  | (.onOutputs _, _) => true
  | _ => false

def finishes [DecidableEq C] (c : C) : Happening C → Bool
  | (.finishFrame c', .ok _) => c' = c
  | _ => false

def closes [DecidableEq C] (c : C) : Happening C → Bool
  | (.closeConsumer c', .ok _) => c' = c
  | _ => false

/-- Every consumer has finished since the last output was handed out. -/
def Finished [DecidableEq C] (consumers : List C) (events : List (Happening C)) : Prop :=
  ∃ before after, events = before ++ after ∧ (∀ e ∈ after, handsOut e = false) ∧
    ∀ c ∈ consumers, ∃ e ∈ after, finishes c e = true

/-- The four ends of a plan. -/
inductive Ending
  | submitted
  | cancelled
  | retired
  | pending
  deriving DecidableEq, Repr

/-- How a plan ended, by the calls and by what the pump has kept. -/
def Ending.Holds (events : List (Happening C)) (pump : Pump) (plan : ℕ) : Ending → Prop
  | .submitted => events.countP (submits plan) = 1 ∧ events.countP (triesCancel plan) = 0
  | .cancelled => events.countP (cancels plan) = 1 ∧ events.countP (submits plan) = 0
  | .retired => events.countP (submits plan) = 0 ∧ events.countP (cancels plan) = 0 ∧
      ∃ e ∈ events, consumesContext e = true
  | .pending => events.countP (submits plan) = 0 ∧ events.countP (cancels plan) = 0 ∧
      pump.pendingPlan = some plan ∧ pump.context = true

/-- What holds of the calls of a pump and of what it has kept. -/
structure Balanced [DecidableEq C] (consumers : List C) (w : World Pump (Happening C)) : Prop where
  /-- Every plan ends in exactly one way. -/
  plans : ∀ plan, (∃ e ∈ w.events, begins plan e = true) →
    ∃! ending : Ending, ending.Holds w.events w.state plan
  /-- No output is borrowed when a plan with step outputs is submitted. -/
  submissions : ∀ before after plan layers answer,
    w.events = before ++ (.submitFrame plan layers, answer) :: after →
    (∃ reply, (.beginFrame plan, .ok reply) ∈ before ∧ reply.result = .success ∧
      reply.flag = true) →
    Finished consumers before
  /-- Nor when a plan is cancelled. -/
  cancellations : ∀ before after plan answer,
    w.events = before ++ (.cancelFrame plan, answer) :: after → Finished consumers before
  /-- Every reserved ordinal is resolved exactly once. -/
  ordinals : ∀ ordinal, (∃ e ∈ w.events, reserves ordinal e = true) →
    w.events.countP (resolves ordinal) = 1
  /-- The context is destroyed at most once, after all consumers were closed. -/
  single : w.events.countP destroys ≤ 1
  consumers : ∀ before after ordinal answer,
    w.events = before ++ (.destroy ordinal, answer) :: after →
    ∀ c ∈ consumers, ∃ e ∈ before, closes c e = true

/-! ### One call -/

/-- A call that the ledger does not look at. -/
def inert : Happening C → Bool
  | (.beginFrame _, .ok reply) => reply.result ≠ .success
  | (.onOutputs _, _) | (.finishFrame _, .ok _) | (.submitFrame _ _, _) | (.cancelFrame _, _)
  | (.reserve _, .ok _) | (.resolveExternal _ _, _) | (.closeConsumer _, .ok _)
  | (.destroy _, _) => false
  | _ => true

/-- What a call that is allowed does to the ledger. -/
inductive Ledger.Step (consumers : List C) (l : Ledger C) : Happening C → Ledger C → Prop
  | begins (reply : Reply) (hsuccess : reply.result = .success) (hplan : l.plan = none)
      (hdestroyed : l.destroyed = false) :
      Step consumers l (.beginFrame l.plans, .ok reply)
        { l with plan := some ⟨l.plans, reply.flag, false⟩, plans := l.plans + 1 }
  | handsOut (c : C) (answer : Except Failure Reply) :
      Step consumers l (.onOutputs c, answer) { l with finished := [] }
  | finishes (c : C) (reply : Reply) :
      Step consumers l (.finishFrame c, .ok reply) { l with finished := c :: l.finished }
  | submits (p : OpenPlan) (layers : List ℤ) (answer : Except Failure Reply)
      (hplan : l.plan = some p) (hcancel : p.cancelTried = false)
      (hfinished : p.stepResult = true → ∀ c ∈ consumers, c ∈ l.finished) :
      Step consumers l (.submitFrame p.id layers, answer)
        (if accepts answer then { l with plan := none } else l)
  | cancels (p : OpenPlan) (reply : Reply) (hplan : l.plan = some p)
      (hfinished : ∀ c ∈ consumers, c ∈ l.finished) :
      Step consumers l (.cancelFrame p.id, .ok reply) { l with plan := none }
  | cancelFails (p : OpenPlan) (e : Failure) (hplan : l.plan = some p)
      (hfinished : ∀ c ∈ consumers, c ∈ l.finished) :
      Step consumers l (.cancelFrame p.id, .error e)
        { l with plan := some { p with cancelTried := true } }
  | reserves (reply : Reply) (hordinal : l.ordinal = none) :
      Step consumers l (.reserve l.ordinals, .ok reply)
        { l with ordinal := some l.ordinals, ordinals := l.ordinals + 1 }
  | resolves (ordinal : ℕ) (expected : Option Bool) (answer : Except Failure Reply)
      (hordinal : l.ordinal = some ordinal) :
      Step consumers l (.resolveExternal ordinal expected, answer) { l with ordinal := none }
  | closes (c : C) (reply : Reply) :
      Step consumers l (.closeConsumer c, .ok reply) { l with closed := c :: l.closed }
  | destroys (ordinal : ℕ) (answer : Except Failure Reply) (hdestroyed : l.destroyed = false)
      (hclosed : ∀ c ∈ consumers, c ∈ l.closed) :
      Step consumers l (.destroy ordinal, answer)
        { l with destroyed := true, consumed := consumes answer }
  | inert (e : Happening C) (hinert : inert e = true) : Step consumers l e l

theorem Ledger.step_of_next [DecidableEq C] {consumers : List C} {l l' : Ledger C} {e : Happening C}
    (h : l.next consumers e = some l') : Ledger.Step consumers l e l' := by
  obtain ⟨call, answer⟩ := e
  cases call with
  | beginFrame plan =>
    -- A failed `begin` opens nothing; another one needs that no plan is open.
    replace h : l.begin_ plan answer = some l' := h
    unfold Ledger.begin_ at h
    split at h
    · split at h
      · rename_i hresult
        cases h
        exact .inert _ (by simpa [FramePump.inert] using hresult)
      · rename_i hresult
        split at h
        · rename_i hallowed
          obtain ⟨hplan, rfl, hdestroyed⟩ := hallowed
          cases h
          exact .begins _ (by simpa using hresult) hplan hdestroyed
        · cases h
    · cases h
      exact .inert _ rfl
  | onOutputs c =>
    obtain rfl := Option.some.inj h
    exact .handsOut _ _
  | finishFrame c =>
    cases answer with
    | ok reply =>
      obtain rfl := Option.some.inj h
      exact .finishes _ _
    | error failure =>
      obtain rfl := Option.some.inj h
      exact .inert _ rfl
  | submitFrame plan layers =>
    -- Only the open plan is submitted, not cancelled and with its outputs finished.
    replace h : l.submit consumers plan answer = some l' := h
    unfold Ledger.submit at h
    split at h
    · cases h
    · rename_i p hplan
      split at h
      · rename_i hallowed
        obtain ⟨rfl, hcancel, hfinished⟩ := hallowed
        cases h
        exact .submits p _ _ hplan hcancel hfinished
      · cases h
  | cancelFrame plan =>
    -- A cancellation that fails leaves the plan open.
    replace h : l.cancel consumers plan answer = some l' := h
    unfold Ledger.cancel at h
    split at h
    · cases h
    · rename_i p hplan
      split at h
      · rename_i hallowed
        obtain ⟨rfl, hfinished⟩ := hallowed
        split at h
        · cases h
          exact .cancels p _ hplan hfinished
        · cases h
          exact .cancelFails p _ hplan hfinished
      · cases h
  | reserve ordinal =>
    cases answer with
    | ok reply =>
      obtain ⟨⟨hordinal, rfl⟩, hl⟩ := Option.ite_none_right_eq_some.mp h
      cases hl
      exact .reserves _ hordinal
    | error failure =>
      obtain rfl := Option.some.inj h
      exact .inert _ rfl
  | resolveExternal ordinal expected =>
    obtain ⟨hordinal, hl⟩ := Option.ite_none_right_eq_some.mp h
    cases hl
    exact .resolves _ _ _ hordinal
  | closeConsumer c =>
    cases answer with
    | ok reply =>
      obtain rfl := Option.some.inj h
      exact .closes _ _
    | error failure =>
      obtain rfl := Option.some.inj h
      exact .inert _ rfl
  | destroy ordinal =>
    obtain ⟨⟨hdestroyed, hclosed⟩, hl⟩ := Option.ite_none_right_eq_some.mp h
    cases hl
    exact .destroys _ _ hdestroyed hclosed
  | _ =>
    -- The ledger does not look at the other calls.
    obtain rfl := Option.some.inj h
    exact .inert _ rfl

/-- The counts that concern plans do not see an inert call. -/
theorem inert_plan {e : Happening C} (h : inert e = true) (plan : ℕ) :
    begins plan e = false ∧ submits plan e = false ∧ triesCancel plan e = false ∧
      cancels plan e = false := by
  obtain ⟨call, answer⟩ := e
  cases call with
  | beginFrame id =>
    cases answer with
    | ok reply =>
      have hfailed : reply.result ≠ .success := of_decide_eq_true h
      exact ⟨decide_eq_false fun hbegins => hfailed hbegins.2, rfl, rfl, rfl⟩
    | error failure => exact ⟨rfl, rfl, rfl, rfl⟩
  | submitFrame id layers => exact absurd h Bool.false_ne_true
  | cancelFrame id => exact absurd h Bool.false_ne_true
  | _ => exact ⟨rfl, rfl, rfl, rfl⟩

/-! ### Summaries -/

/-- What the ledger tells of the plans. -/
structure Ledger.Plans (t : List (Happening C)) (l : Ledger C) : Prop where
  fresh : ∀ plan, l.plans ≤ plan → t.countP (begins plan) = 0 ∧ t.countP (submits plan) = 0 ∧
    t.countP (triesCancel plan) = 0
  opened : ∀ p, l.plan = some p → p.id < l.plans ∧ t.countP (submits p.id) = 0 ∧
    t.countP (cancels p.id) = 0 ∧ (p.cancelTried = false → t.countP (triesCancel p.id) = 0)
  stepResult : ∀ p, l.plan = some p → ∀ reply, (.beginFrame p.id, .ok reply) ∈ t →
    reply.result = .success → reply.flag = p.stepResult
  settled : ∀ plan < l.plans, (∀ p, l.plan = some p → p.id ≠ plan) →
    (t.countP (submits plan) = 1 ∧ t.countP (triesCancel plan) = 0) ∨
      (t.countP (cancels plan) = 1 ∧ t.countP (submits plan) = 0)

theorem countP_snoc {α : Type} (f : α → Bool) (t : List α) (e : α) :
    (t ++ [e]).countP f = t.countP f + if f e then 1 else 0 := by
  rw [List.countP_append, List.countP_singleton]

/-- A call that has nothing to do with plans. -/
theorem Ledger.Plans.frame {t : List (Happening C)} {l l' : Ledger C} {e : Happening C}
    (hl : Ledger.Plans t l) (he : ∀ plan, begins plan e = false ∧ submits plan e = false ∧
      triesCancel plan e = false ∧ cancels plan e = false)
    (hplan : l'.plan = l.plan) (hplans : l'.plans = l.plans) : Ledger.Plans (t ++ [e]) l' := by
  have hcount : ∀ plan, (t ++ [e]).countP (begins plan) = t.countP (begins plan) ∧
      (t ++ [e]).countP (submits plan) = t.countP (submits plan) ∧
      (t ++ [e]).countP (triesCancel plan) = t.countP (triesCancel plan) ∧
      (t ++ [e]).countP (cancels plan) = t.countP (cancels plan) := by
    intro plan
    obtain ⟨h₁, h₂, h₃, h₄⟩ := he plan
    simp [h₁, h₂, h₃, h₄]
  constructor
  · intro plan hle
    rw [hplans] at hle
    obtain ⟨h₁, h₂, h₃, -⟩ := hcount plan
    rw [h₁, h₂, h₃]
    exact hl.fresh plan hle
  · intro p hp
    rw [hplan] at hp
    obtain ⟨-, h₂, h₃, h₄⟩ := hcount p.id
    rw [hplans, h₂, h₃, h₄]
    exact hl.opened p hp
  · intro p hp reply hmem hsuccess
    rw [hplan] at hp
    rcases List.mem_append.mp hmem with hmem | hmem
    · exact hl.stepResult p hp reply hmem hsuccess
    · have hbegins := (he p.id).1
      rw [← List.mem_singleton.mp hmem] at hbegins
      simp [begins, hsuccess] at hbegins
  · intro plan hlt hopen
    rw [hplans] at hlt
    rw [hplan] at hopen
    obtain ⟨-, h₂, h₃, h₄⟩ := hcount plan
    rw [h₂, h₃, h₄]
    exact hl.settled plan hlt hopen

theorem countP_cancels_le (t : List (Happening C)) (plan : ℕ) :
    t.countP (cancels plan) ≤ t.countP (triesCancel plan) := by
  refine List.countP_mono_left fun e _ he => ?_
  unfold cancels at he
  split at he
  · exact he
  · cases he

/-- A call that ends the open plan, by a submission or a cancellation. -/
theorem Ledger.Plans.consume {t : List (Happening C)} {l : Ledger C} {e : Happening C}
    {p : OpenPlan} (hl : Ledger.Plans t l) (hplan : l.plan = some p)
    (hothers : ∀ plan ≠ p.id, begins plan e = false ∧ submits plan e = false ∧
      triesCancel plan e = false ∧ cancels plan e = false)
    (hends : ((t ++ [e]).countP (submits p.id) = 1 ∧ (t ++ [e]).countP (triesCancel p.id) = 0) ∨
      ((t ++ [e]).countP (cancels p.id) = 1 ∧ (t ++ [e]).countP (submits p.id) = 0)) :
    Ledger.Plans (t ++ [e]) { l with plan := none } := by
  obtain ⟨hlt, -⟩ := hl.opened p hplan
  constructor
  · intro plan hle
    have hne : plan ≠ p.id := by dsimp only at hle; omega
    obtain ⟨h₁, h₂, h₃, -⟩ := hothers plan hne
    have hfresh := hl.fresh plan hle
    simp [h₁, h₂, h₃, hfresh]
  · nofun
  · nofun
  · intro plan hlt' _
    -- The plan that ends here, or one that ended before.
    rcases eq_or_ne plan p.id with rfl | hne
    · exact hends
    · obtain ⟨-, h₂, h₃, h₄⟩ := hothers plan hne
      have hsettled := hl.settled plan hlt' fun q hq => by
        rw [hplan] at hq
        obtain rfl := Option.some.inj hq
        exact hne.symm
      simpa [h₂, h₃, h₄] using hsettled

theorem Ledger.Plans.step {consumers : List C} {t : List (Happening C)} {l l' : Ledger C}
    {e : Happening C} (hl : Ledger.Plans t l) (hstep : Ledger.Step consumers l e l') :
    Ledger.Plans (t ++ [e]) l' := by
  cases hstep with
  | begins reply hsuccess hplan hdestroyed =>
    -- the number of the new plan was not used before
    have hunused := hl.fresh l.plans le_rfl
    have hcancels := countP_cancels_le t l.plans
    constructor
    · intro plan hle
      have hfresh := hl.fresh plan (by dsimp only at hle; omega)
      have hne : l.plans ≠ plan := by dsimp only at hle; omega
      simp [begins, submits, triesCancel, hfresh, hne]
    · intro p hp
      obtain rfl := Option.some.inj hp
      simp only [countP_snoc, submits, triesCancel, cancels]
      simp only [Bool.false_eq_true, if_false, Nat.add_zero]
      omega
    · intro p hp reply' hmem hsuccess'
      obtain rfl := Option.some.inj hp
      rcases List.mem_append.mp hmem with hmem | hmem
      · exfalso
        have hnone := List.countP_eq_zero.mp hunused.1 _ hmem
        simp [begins, hsuccess'] at hnone
      · have heq := List.mem_singleton.mp hmem
        simp only [Prod.mk.injEq, Except.ok.injEq] at heq
        rw [heq.2]
    · intro plan hlt hopen
      have hne : l.plans ≠ plan := hopen _ rfl
      have hsettled := hl.settled plan (by dsimp only at hlt; omega) (by rw [hplan]; nofun)
      simpa [countP_snoc, submits, triesCancel, cancels] using hsettled
  | handsOut c answer => exact hl.frame (fun _ => ⟨rfl, rfl, rfl, rfl⟩) rfl rfl
  | finishes c reply => exact hl.frame (fun _ => ⟨rfl, rfl, rfl, rfl⟩) rfl rfl
  | submits p layers answer hplan hcancel hfinished =>
    obtain ⟨hlt, hsubmits, hcancels, htried⟩ := hl.opened p hplan
    have htried := htried hcancel
    split
    · rename_i haccepted
      refine hl.consume hplan (fun plan hne => ?_) (.inl ?_)
      · simp [begins, submits, triesCancel, cancels, hne.symm]
      · simp [submits, triesCancel, haccepted, hsubmits, htried]
    · rename_i hrejected
      refine hl.frame (fun plan => ⟨rfl, ?_, rfl, rfl⟩) rfl rfl
      simp [submits, hrejected]
  | cancels p reply hplan hfinished =>
    obtain ⟨hlt, hsubmits, hcancels, htried⟩ := hl.opened p hplan
    refine hl.consume hplan (fun plan hne => ?_) (.inr ?_)
    · simp [begins, submits, triesCancel, cancels, hne.symm]
    · simp [submits, cancels, hsubmits, hcancels]
  | cancelFails p e hplan hfinished =>
    obtain ⟨hlt, hsubmits, hcancels, htried⟩ := hl.opened p hplan
    constructor
    · intro plan hle
      have hne : p.id ≠ plan := by dsimp only at hle; omega
      have hfresh := hl.fresh plan hle
      simp [begins, submits, triesCancel, hfresh, hne]
    · intro q hq
      obtain rfl := Option.some.inj hq
      refine ⟨hlt, ?_, ?_, nofun⟩
      · simpa [submits] using hsubmits
      · simpa [cancels] using hcancels
    · intro q hq reply hmem hsuccess
      obtain rfl := Option.some.inj hq
      rcases List.mem_append.mp hmem with hmem | hmem
      · exact hl.stepResult p hplan reply hmem hsuccess
      · simp at hmem
    · intro plan hlt' hopen
      have hne : p.id ≠ plan := hopen { p with cancelTried := true } rfl
      have hsettled := hl.settled plan hlt' fun q hq => by
        rw [hplan] at hq
        obtain rfl := Option.some.inj hq
        exact hne
      simpa [submits, triesCancel, cancels, hne] using hsettled
  | reserves reply hordinal => exact hl.frame (fun _ => ⟨rfl, rfl, rfl, rfl⟩) rfl rfl
  | resolves ordinal expected answer hordinal =>
    exact hl.frame (fun _ => ⟨rfl, rfl, rfl, rfl⟩) rfl rfl
  | closes c reply => exact hl.frame (fun _ => ⟨rfl, rfl, rfl, rfl⟩) rfl rfl
  | destroys ordinal answer hdestroyed hclosed =>
    exact hl.frame (fun _ => ⟨rfl, rfl, rfl, rfl⟩) rfl rfl
  | inert e hinert => exact hl.frame (inert_plan hinert) rfl rfl

theorem Ledger.plans_of_accepts [DecidableEq C] {consumers : List C} {t : List (Happening C)}
    {l : Ledger C} (h : Monitor.Accepts (Ledger.next consumers) Ledger.init t l) :
    Ledger.Plans t l := by
  refine Monitor.induction ?_ ?_ h
  · constructor <;> simp [Ledger.init]
  · intro t l e l' hl hnext
    exact hl.step (Ledger.step_of_next hnext)

/-- What the ledger tells of the ordinals. -/
structure Ledger.Ordinals (t : List (Happening C)) (l : Ledger C) : Prop where
  fresh : ∀ ordinal, l.ordinals ≤ ordinal →
    t.countP (reserves ordinal) = 0 ∧ t.countP (resolves ordinal) = 0
  reserved : ∀ ordinal, l.ordinal = some ordinal → ordinal < l.ordinals
  resolved : ∀ ordinal < l.ordinals,
    t.countP (resolves ordinal) = if l.ordinal = some ordinal then 0 else 1

theorem Ledger.Ordinals.frame {t : List (Happening C)} {l l' : Ledger C} {e : Happening C}
    (hl : Ledger.Ordinals t l)
    (he : ∀ ordinal, reserves ordinal e = false ∧ resolves ordinal e = false)
    (hordinal : l'.ordinal = l.ordinal) (hordinals : l'.ordinals = l.ordinals) :
    Ledger.Ordinals (t ++ [e]) l' := by
  constructor
  · intro ordinal hle
    rw [hordinals] at hle
    simpa [he ordinal] using hl.fresh ordinal hle
  · intro ordinal hopen
    rw [hordinal] at hopen
    rw [hordinals]
    exact hl.reserved ordinal hopen
  · intro ordinal hlt
    rw [hordinals] at hlt
    rw [countP_snoc, hl.resolved ordinal hlt, hordinal, (he ordinal).2]
    rfl

theorem inert_ordinal {e : Happening C} (h : inert e = true) (ordinal : ℕ) :
    reserves ordinal e = false ∧ resolves ordinal e = false := by
  obtain ⟨call, answer⟩ := e
  cases call with
  | reserve id =>
    cases answer with
    | ok reply => exact absurd h Bool.false_ne_true
    | error failure => exact ⟨rfl, rfl⟩
  | resolveExternal id expected => exact absurd h Bool.false_ne_true
  | _ => exact ⟨rfl, rfl⟩

theorem Ledger.Ordinals.step {consumers : List C} {t : List (Happening C)} {l l' : Ledger C}
    {e : Happening C} (hl : Ledger.Ordinals t l) (hstep : Ledger.Step consumers l e l') :
    Ledger.Ordinals (t ++ [e]) l' := by
  cases hstep with
  | begins reply hsuccess hplan hdestroyed => exact hl.frame (fun _ => ⟨rfl, rfl⟩) rfl rfl
  | handsOut c answer => exact hl.frame (fun _ => ⟨rfl, rfl⟩) rfl rfl
  | finishes c reply => exact hl.frame (fun _ => ⟨rfl, rfl⟩) rfl rfl
  | submits p layers answer hplan hcancel hfinished =>
    refine hl.frame (fun _ => ⟨rfl, rfl⟩) ?_ ?_ <;> split <;> rfl
  | cancels p reply hplan hfinished => exact hl.frame (fun _ => ⟨rfl, rfl⟩) rfl rfl
  | cancelFails p e hplan hfinished => exact hl.frame (fun _ => ⟨rfl, rfl⟩) rfl rfl
  | reserves reply hordinal =>
    -- The next ordinal was neither reserved nor resolved.
    have hunused := hl.fresh l.ordinals le_rfl
    constructor
    · intro ordinal hle
      have hfresh := hl.fresh ordinal (by dsimp only at hle; omega)
      have hne : l.ordinals ≠ ordinal := by dsimp only at hle; omega
      simp [reserves, resolves, hfresh, hne]
    · intro ordinal hopen
      obtain rfl := Option.some.inj hopen
      exact Nat.lt_succ_self _
    · intro ordinal hlt
      dsimp only at hlt
      rw [countP_snoc]
      rcases eq_or_ne l.ordinals ordinal with rfl | hne
      · simp [resolves, hunused.2]
      · have hresolved := hl.resolved ordinal (by omega)
        rw [hordinal] at hresolved
        simpa [resolves, hne] using hresolved
  | resolves ordinal expected answer hordinal =>
    have hlt := hl.reserved ordinal hordinal
    constructor
    · intro other hle
      have hne : ordinal ≠ other := by dsimp only at hle; omega
      have hfresh := hl.fresh other hle
      simp [reserves, resolves, hfresh, hne]
    · nofun
    · intro other hlt'
      rw [countP_snoc, hl.resolved other hlt', hordinal]
      rcases eq_or_ne ordinal other with rfl | hne
      · simp [resolves]
      · simp [resolves, hne]
  | closes c reply => exact hl.frame (fun _ => ⟨rfl, rfl⟩) rfl rfl
  | destroys ordinal answer hdestroyed hclosed => exact hl.frame (fun _ => ⟨rfl, rfl⟩) rfl rfl
  | inert e hinert => exact hl.frame (inert_ordinal hinert) rfl rfl

theorem Ledger.ordinals_of_accepts [DecidableEq C] {consumers : List C} {t : List (Happening C)}
    {l : Ledger C} (h : Monitor.Accepts (Ledger.next consumers) Ledger.init t l) :
    Ledger.Ordinals t l := by
  refine Monitor.induction ?_ ?_ h
  · constructor <;> simp [Ledger.init]
  · intro t l e l' hl hnext
    exact hl.step (Ledger.step_of_next hnext)

theorem inert_borrow {e : Happening C} (h : inert e = true) :
    handsOut e = false ∧ destroys e = false ∧ consumesContext e = false := by
  obtain ⟨call, answer⟩ := e
  cases call with
  | onOutputs c => exact absurd h Bool.false_ne_true
  | destroy ordinal => exact absurd h Bool.false_ne_true
  | _ => exact ⟨rfl, rfl, rfl⟩

/-- What the ledger tells of the context. -/
structure Ledger.Context (t : List (Happening C)) (l : Ledger C) : Prop where
  destroyed : t.countP destroys = if l.destroyed then 1 else 0
  consumed : l.consumed = true ↔ ∃ e ∈ t, consumesContext e = true

theorem Ledger.Context.frame {t : List (Happening C)} {l l' : Ledger C} {e : Happening C}
    (hl : Ledger.Context t l) (he : destroys e = false ∧ consumesContext e = false)
    (hdestroyed : l'.destroyed = l.destroyed) (hconsumed : l'.consumed = l.consumed) :
    Ledger.Context (t ++ [e]) l' := by
  constructor
  · rw [countP_snoc, hl.destroyed, hdestroyed, he.1]
    rfl
  · rw [hconsumed, hl.consumed]
    simp [he.2]

theorem Ledger.Context.destroy {t : List (Happening C)} {l : Ledger C} (hl : Ledger.Context t l)
    (hdestroyed : l.destroyed = false) (ordinal : ℕ) (answer : Except Failure Reply) :
    Ledger.Context (t ++ [(.destroy ordinal, answer)])
      { l with destroyed := true, consumed := consumes answer } := by
  have hnone : t.countP destroys = 0 := by simpa [hdestroyed] using hl.destroyed
  constructor
  · simp [destroys, hnone]
  · -- there was no call of `destroy` before
    constructor
    · intro hconsumed
      exact ⟨(.destroy ordinal, answer), by simp, hconsumed⟩
    · rintro ⟨e, hmem, he⟩
      rcases List.mem_append.mp hmem with hmem | hmem
      · exfalso
        have hnot := List.countP_eq_zero.mp hnone e hmem
        unfold consumesContext at he
        split at he
        · exact hnot rfl
        · cases he
      · rw [List.mem_singleton.mp hmem] at he
        exact he

theorem Ledger.Context.step {consumers : List C} {t : List (Happening C)} {l l' : Ledger C}
    {e : Happening C} (hl : Ledger.Context t l) (hstep : Ledger.Step consumers l e l') :
    Ledger.Context (t ++ [e]) l' := by
  cases hstep with
  | destroys ordinal answer hdestroyed hclosed => exact hl.destroy hdestroyed ordinal answer
  | inert e hinert => exact hl.frame (inert_borrow hinert).2 rfl rfl
  | submits p layers answer hplan hcancel hfinished =>
    refine hl.frame ⟨rfl, rfl⟩ ?_ ?_ <;> split <;> rfl
  | _ => exact hl.frame ⟨rfl, rfl⟩ rfl rfl

section Consumers

variable [DecidableEq C] {consumers : List C} {t : List (Happening C)} {l l' : Ledger C}
variable {e : Happening C}

/-- What the ledger tells of the consumers. -/
structure Ledger.Borrows (t : List (Happening C)) (l : Ledger C) : Prop where
  finished : Finished l.finished t
  closed : ∀ c ∈ l.closed, ∃ e ∈ t, closes c e = true

theorem Finished.snoc {finished : List C} (h : Finished finished t) (he : handsOut e = false) :
    Finished finished (t ++ [e]) := by
  obtain ⟨before, after, rfl, hafter, hfinished⟩ := h
  refine ⟨before, after ++ [e], by simp, ?_, ?_⟩
  · intro e' he'
    rcases List.mem_append.mp he' with hmem | hmem
    · exact hafter e' hmem
    · rw [List.mem_singleton.mp hmem]
      exact he
  · intro c hc
    obtain ⟨e', he', hc⟩ := hfinished c hc
    exact ⟨e', List.mem_append_left _ he', hc⟩

/-- A consumer has finished. -/
theorem Finished.cons {finished : List C} (h : Finished finished t) (c : C) (reply : Reply) :
    Finished (c :: finished) (t ++ [(.finishFrame c, .ok reply)]) := by
  obtain ⟨before, after, rfl, hafter, hfinished⟩ := h
  refine ⟨before, after ++ [(.finishFrame c, .ok reply)], by simp, ?_, ?_⟩
  · intro e' he'
    rcases List.mem_append.mp he' with hmem | hmem
    · exact hafter e' hmem
    · rw [List.mem_singleton.mp hmem]
      rfl
  · intro c' hc'
    rcases List.mem_cons.mp hc' with rfl | hc'
    · exact ⟨_, List.mem_append_right _ List.mem_cons_self, by simp [finishes]⟩
    · obtain ⟨e', he', hc'⟩ := hfinished c' hc'
      exact ⟨e', List.mem_append_left _ he', hc'⟩

theorem Ledger.Borrows.closed_snoc (hl : Ledger.Borrows t l) (e : Happening C) :
    ∀ c ∈ l.closed, ∃ e' ∈ t ++ [e], closes c e' = true := by
  intro c hc
  obtain ⟨e', he', hc⟩ := hl.closed c hc
  exact ⟨e', List.mem_append_left _ he', hc⟩

theorem Ledger.Borrows.step (hl : Ledger.Borrows t l) (hstep : Ledger.Step consumers l e l') :
    Ledger.Borrows (t ++ [e]) l' := by
  cases hstep with
  | handsOut c answer =>
    exact ⟨⟨t ++ [(.onOutputs c, answer)], [], by simp, by simp, by simp⟩, hl.closed_snoc _⟩
  | finishes c reply => exact ⟨hl.finished.cons c reply, hl.closed_snoc _⟩
  | submits p layers answer hplan hcancel hfinished =>
    split <;> exact ⟨hl.finished.snoc rfl, hl.closed_snoc _⟩
  | closes c reply =>
    refine ⟨hl.finished.snoc rfl, fun c' hc' => ?_⟩
    rcases List.mem_cons.mp hc' with rfl | hc'
    · exact ⟨_, List.mem_append_right _ List.mem_cons_self, by simp [closes]⟩
    · exact hl.closed_snoc _ c' hc'
  | inert e hinert => exact ⟨hl.finished.snoc (inert_borrow hinert).1, hl.closed_snoc _⟩
  | _ => exact ⟨hl.finished.snoc rfl, hl.closed_snoc _⟩

theorem Ledger.context_of_accepts
    (h : Monitor.Accepts (Ledger.next consumers) Ledger.init t l) : Ledger.Context t l := by
  refine Monitor.induction ?_ ?_ h
  · constructor <;> simp [Ledger.init]
  · intro t l e l' hl hnext
    exact hl.step (Ledger.step_of_next hnext)

theorem Ledger.borrows_of_accepts
    (h : Monitor.Accepts (Ledger.next consumers) Ledger.init t l) : Ledger.Borrows t l := by
  refine Monitor.induction ?_ ?_ h
  · exact ⟨⟨[], [], rfl, by simp, by simp [Ledger.init]⟩, by simp [Ledger.init]⟩
  · intro t l e l' hl hnext
    exact hl.step (Ledger.step_of_next hnext)

/-- How the pump and the ledger agree at the end. -/
structure Settled (pump : Pump) (l : Ledger C) : Prop where
  ordinal : l.ordinal = none
  kept : pump.context = true → l.consumed = false ∧ l.plan.map OpenPlan.id = pump.pendingPlan
  gone : pump.context = false → l.plan = none ∨ l.consumed = true

omit [DecidableEq C] in
/-- Every plan that was begun has ended in one way. -/
theorem Ledger.Plans.ends {pump : Pump} (hplans : Ledger.Plans t l)
    (hcontext : Ledger.Context t l) (hsettled : Settled pump l) {plan : ℕ}
    (hbegun : ∃ e ∈ t, begins plan e = true) : ∃! ending : Ending, ending.Holds t pump plan := by
  have hlt : plan < l.plans := by
    by_contra hge
    obtain ⟨e, hmem, he⟩ := hbegun
    have hnone := (hplans.fresh plan (by omega)).1
    exact List.countP_eq_zero.mp hnone e hmem he
  by_cases hopen : ∃ p, l.plan = some p ∧ p.id = plan
  · -- the plan is still open: what became of the context decides
    obtain ⟨p, hp, rfl⟩ := hopen
    obtain ⟨-, hsubmits, hcancels, -⟩ := hplans.opened p hp
    cases hpump : pump.context with
    | true =>
      obtain ⟨hconsumed, hpending⟩ := hsettled.kept hpump
      rw [hp] at hpending
      refine ⟨.pending, ⟨hsubmits, hcancels, hpending.symm, hpump⟩, fun ending hends => ?_⟩
      cases ending with
      | submitted => exact absurd hends.1 (by omega)
      | cancelled => exact absurd hends.1 (by omega)
      | retired =>
        have hconsumed' := hcontext.consumed.mpr hends.2.2
        rw [hconsumed] at hconsumed'
        cases hconsumed'
      | pending => rfl
    | false =>
      have hconsumed : l.consumed = true := by
        rcases hsettled.gone hpump with hnone | hconsumed
        · rw [hp] at hnone
          cases hnone
        · exact hconsumed
      have hdestroy := hcontext.consumed.mp hconsumed
      refine ⟨.retired, ⟨hsubmits, hcancels, hdestroy⟩, fun ending hends => ?_⟩
      cases ending with
      | submitted => exact absurd hends.1 (by omega)
      | cancelled => exact absurd hends.1 (by omega)
      | retired => rfl
      | pending =>
        have hkept := hends.2.2.2
        rw [hpump] at hkept
        cases hkept
  · have hends := hplans.settled plan hlt fun p hp hid => hopen ⟨p, hp, hid⟩
    rcases hends with ⟨hsubmits, htried⟩ | ⟨hcancels, hsubmits⟩
    · refine ⟨.submitted, ⟨hsubmits, htried⟩, fun ending hends => ?_⟩
      cases ending with
      | submitted => rfl
      | cancelled => exact absurd hends.2 (by omega)
      | retired => exact absurd hends.1 (by omega)
      | pending => exact absurd hends.1 (by omega)
    · refine ⟨.cancelled, ⟨hcancels, hsubmits⟩, fun ending hends => ?_⟩
      cases ending with
      | submitted => exact absurd hends.1 (by omega)
      | cancelled => rfl
      | retired => exact absurd hends.2.1 (by omega)
      | pending => exact absurd hends.2.1 (by omega)

theorem Finished.mono {finished : List C} (h : Finished finished t)
    (hsub : ∀ c ∈ consumers, c ∈ finished) : Finished consumers t := by
  obtain ⟨before, after, ht, hafter, hfinished⟩ := h
  exact ⟨before, after, ht, hafter, fun c hc => hfinished c (hsub c hc)⟩

/-- **What the ledger guarantees.** -/
theorem Ledger.balanced {w : World Pump (Happening C)}
    (h : Holds (Ledger.next consumers) Ledger.init Settled w) : Balanced consumers w := by
  obtain ⟨l, haccepts, hsettled⟩ := h
  have hplans := Ledger.plans_of_accepts haccepts
  have hordinals := Ledger.ordinals_of_accepts haccepts
  have hcontext := Ledger.context_of_accepts haccepts
  constructor
  · intro plan hbegun
    exact hplans.ends hcontext hsettled hbegun
  · -- The ledger at the moment of the submission says that the plan's outputs were finished.
    rintro before after plan layers answer hevents ⟨reply, hmem, hsuccess, hflag⟩
    rw [hevents] at haccepts
    obtain ⟨l₁, hbefore, hrest⟩ := Monitor.accepts_append.mp haccepts
    obtain ⟨l₂, hnext, -⟩ := Monitor.accepts_cons.mp hrest
    cases Ledger.step_of_next hnext with
    | submits p _ _ hplan hcancel hfinished =>
      have hstep := (Ledger.plans_of_accepts hbefore).stepResult p hplan reply hmem hsuccess
      exact (Ledger.borrows_of_accepts hbefore).finished.mono (hfinished (hstep ▸ hflag))
    | inert _ hinert => cases hinert
  · -- The same ledger, at a cancellation.
    intro before after plan answer hevents
    rw [hevents] at haccepts
    obtain ⟨l₁, hbefore, hrest⟩ := Monitor.accepts_append.mp haccepts
    obtain ⟨l₂, hnext, -⟩ := Monitor.accepts_cons.mp hrest
    have hborrows := Ledger.borrows_of_accepts hbefore
    cases Ledger.step_of_next hnext with
    | cancels p _ hplan hfinished => exact hborrows.finished.mono hfinished
    | cancelFails p _ hplan hfinished => exact hborrows.finished.mono hfinished
    | inert _ hinert => cases hinert
  · -- An ordinal that was used lies below the counter, and every such one is resolved.
    rintro ordinal ⟨e, hmem, he⟩
    have hlt : ordinal < l.ordinals := by
      by_contra hge
      have hnone := (hordinals.fresh ordinal (by omega)).1
      exact List.countP_eq_zero.mp hnone e hmem he
    rw [hordinals.resolved ordinal hlt, hsettled.ordinal]
    rfl
  · rw [hcontext.destroyed]
    split <;> omega
  · -- The context is destroyed after every consumer was closed.
    intro before after ordinal answer hevents
    rw [hevents] at haccepts
    obtain ⟨l₁, hbefore, hrest⟩ := Monitor.accepts_append.mp haccepts
    obtain ⟨l₂, hnext, -⟩ := Monitor.accepts_cons.mp hrest
    have hborrows := Ledger.borrows_of_accepts hbefore
    cases Ledger.step_of_next hnext with
    | destroys _ _ hdestroyed hclosed => exact fun c hc => hborrows.closed c (hclosed c hc)
    | inert _ hinert => cases hinert

end Consumers

end FramePump
