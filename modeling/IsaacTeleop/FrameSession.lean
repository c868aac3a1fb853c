/-
Sessions of the frame pump.

One specification for each function of the pump, over the ledger of its calls: what it needs
of the open plan, and what it leaves on a return and on a raise.

* `render_spec` — a frame that returns leaves no plan open;
* `close_spec` — the end of a session agrees with the ledger;
* `session_balanced` — every session.
-/
import IsaacTeleop.FramePlans

open Observed

namespace FramePump

variable {C : Type} [DecidableEq C] {α : Type}

/-- A specification over the ledger; what is left on a raise does not depend on the error. -/
abbrev Spec (config : Config C) (P : Pump → Ledger C → Prop) (x : PumpM C α)
    (Q : α → Pump → Ledger C → Prop) (R : Pump → Ledger C → Prop) : Prop :=
  Triple (Ledger.next config.frameConsumers) Ledger.init P x Q fun _ => R

variable {config : Config C} {env : List (Happening C) → Except Failure Reply}
variable {P R : Pump → Ledger C → Prop}

/-! ### Pieces -/

/-- A call that the ledger does not look at changes nothing. -/
theorem call_ignored {c : Call C}
    (hc : ∀ l answer, Ledger.next config.frameConsumers l (c, answer) = some l) :
    Spec config P (call env c) (fun _ => P) P :=
  Triple.call (fun _ l _ hP => ⟨l, hc l _, hP⟩) fun _ l _ hP => ⟨l, hc l _, hP⟩

theorem perform_spec {c : Call C} {Q : Pump → Ledger C → Prop}
    (h : Spec config P (call env c) (fun _ => Q) R) :
    Spec config P (perform env c) (fun _ => Q) R :=
  Triple.bind h fun _ => Triple.pure fun _ _ => id

theorem guarded_spec {enter exit : Call C} {body : PumpM C α} {Q : α → Pump → Ledger C → Prop}
    (henter : ∀ l answer, Ledger.next config.frameConsumers l (enter, answer) = some l)
    (hexit : ∀ l answer, Ledger.next config.frameConsumers l (exit, answer) = some l)
    (hbody : Spec config P body Q R)
    (hP : ∀ s l, P s l → R s l) (hQ : ∀ a s l, Q a s l → R s l) :
    Spec config P (guarded env enter exit body) Q R := by
  refine Triple.bind ((perform_spec (call_ignored henter)).post (fun _ _ _ => id) fun _ => hP) ?_
  intro _
  refine Triple.tryFinally hbody fun result => ?_
  cases result with
  | ok a => exact (perform_spec (call_ignored hexit)).post (fun _ _ _ => id) fun _ => hQ a
  | error e => exact perform_spec (call_ignored hexit)

theorem logExceptions_spec {x : PumpM C α} {default : α}
    (hx : Spec config P x (fun _ => R) R) :
    Spec config P (logExceptions default x) (fun _ => R) R := by
  refine Triple.bind (Triple.attempt hx) fun result => ?_
  cases result with
  | ok a => exact Triple.pure fun _ _ => id
  | error e =>
    dsimp only
    split
    · exact Triple.pure fun _ _ => id
    · exact Triple.raise fun _ _ => id

theorem doIf_spec {condition : Bool} {x : PumpM C Unit} {Q : Pump → Ledger C → Prop}
    (hx : Spec config P x (fun _ => Q) R) (hP : ∀ s l, P s l → Q s l) :
    Spec config P (doIf condition x) (fun _ => Q) R := by
  unfold doIf
  split
  · exact hx
  · exact Triple.pure hP

theorem raiseAfter_spec {Q : α → Pump → Ledger C → Prop} {reconcile : PumpM C Unit}
    {error : Failure} (h : Spec config P reconcile (fun _ => R) R) :
    Spec config P (raiseAfter reconcile error : PumpM C α) Q R := by
  refine Triple.bind (Triple.attempt h) fun result => Triple.raise fun _ _ hresult => ?_
  cases result with
  | ok _ => exact hresult
  | error _ => exact hresult

/-- An assertion that does not look at which consumers have finished. -/
def IgnoresFinished (P : Pump → Ledger C → Prop) : Prop :=
  ∀ s l finished, P s l → P s { l with finished := finished }

theorem finishFrameOutputs_spec (hP : IgnoresFinished P) :
    Spec config P (finishFrameOutputs env config)
      (fun _ s l => P s l ∧ ∀ c ∈ config.frameConsumers, c ∈ l.finished) P := by
  refine Triple.conseq (Triple.forEach (I := fun done s l => P s l ∧ ∀ c ∈ done, c ∈ l.finished)
    fun done c rest _ => perform_spec (Triple.call ?_ ?_)) (fun s l h => ⟨h, nofun⟩)
    (fun _ _ _ => id) fun _ _ _ => id
  · rintro s l reply ⟨hl, hdone⟩
    refine ⟨_, rfl, hP s l _ hl, fun c' hc' => ?_⟩
    rcases List.mem_append.mp hc' with hmem | hmem
    · exact List.mem_cons_of_mem _ (hdone c' hmem)
    · rw [List.mem_singleton.mp hmem]
      exact List.mem_cons_self
  · rintro s l e ⟨hl, -⟩
    exact ⟨l, rfl, hl⟩

theorem onCompletedOutputs_spec (hP : IgnoresFinished P) (consumers : List C) :
    Spec config P (onCompletedOutputs env consumers) (fun _ => P) P := by
  induction consumers with
  | nil => exact Triple.pure fun _ _ => id
  | cons c rest ih =>
    refine Triple.bind (logExceptions_spec ?_) fun layers => Triple.bind ih fun more =>
      Triple.pure fun _ _ => id
    refine Triple.bind (perform_spec (Triple.call ?_ ?_)) fun _ =>
      Triple.bind (call_ignored fun _ _ => rfl) fun reply => Triple.pure fun _ _ => id
    · exact fun s l _ hl => ⟨_, rfl, hP s l _ hl⟩
    · exact fun s l _ hl => ⟨_, rfl, hP s l _ hl⟩

/-! ### `render` -/

/-- The pump and its ledger while the context is there: the open plan, the ordinal that is
reserved, and the plan of the current frame. -/
structure At (plan : Option OpenPlan) (ordinal active : Option ℕ) (pump : Pump) (l : Ledger C) :
    Prop where
  plans : l.plans = pump.plans
  ordinals : l.ordinals = pump.ordinals
  destroyed : l.destroyed = false
  consumed : l.consumed = false
  openPlan : l.plan = plan
  reserved : l.ordinal = ordinal
  pending : pump.pendingPlan = plan.map OpenPlan.id
  current : pump.activePlan = active
  context : plan.isSome → pump.context = true

omit [DecidableEq C] in
theorem At.ignoresFinished {plan : Option OpenPlan} {ordinal active : Option ℕ} :
    IgnoresFinished (At plan ordinal active : Pump → Ledger C → Prop) :=
  fun _ _ _ h => { h with }

variable {plan : Option OpenPlan} {active : Option ℕ} {p : OpenPlan}

/-- An assertion that does not look at the ordinals. -/
def IgnoresOrdinals (F : Pump → Ledger C → Prop) : Prop :=
  ∀ s l n o m, F s l → F { s with ordinals := n } { l with ordinal := o, ordinals := m }

theorem reserve_spec {F : Pump → Ledger C → Prop} (hF : IgnoresOrdinals F) :
    Spec config (fun s l => At plan none active s l ∧ F s l) (reserve env)
      (fun ordinal s l => At plan (some ordinal) active s l ∧ F s l)
      (fun s l => At plan none active s l ∧ F s l) := by
  refine Triple.bind (Triple.get (Q := fun s s' l => s' = s ∧ At plan none active s l ∧ F s l)
    fun s l h => ⟨rfl, h⟩) fun s => ?_
  -- A failed reservation uses up no ordinal.
  have hcall : Spec config (fun s' l => s' = s ∧ At plan none active s l ∧ F s l)
      (perform env (.reserve s.ordinals)) (fun _ s' l => s' = s ∧
        At plan (some s.ordinals) active { s with ordinals := s.ordinals + 1 } l ∧
        F { s with ordinals := s.ordinals + 1 } l)
      (fun s l => At plan none active s l ∧ F s l) := by
    refine perform_spec (Triple.call ?_ ?_)
    · rintro s' l reply ⟨rfl, h, hl⟩
      refine ⟨_, if_pos ⟨h.reserved, h.ordinals.symm⟩, rfl, ?_, hF s' l _ _ _ hl⟩
      exact { h with
        ordinals := by rw [h.ordinals]
        reserved := rfl }
    · rintro s' l e ⟨rfl, h⟩
      exact ⟨l, rfl, h⟩
  refine Triple.bind hcall fun _ => ?_
  refine Triple.bind (Triple.modify
    (Q := fun _ s' l => At plan (some s.ordinals) active s' l ∧ F s' l) ?_)
    fun _ => Triple.pure fun _ _ => id
  rintro s' l ⟨rfl, h⟩
  exact h

/-- The reserved ordinal is resolved, whatever the ledger of ordinals answers. -/
theorem resolve_spec {ordinal : ℕ} {expected : Option Bool} :
    Spec config (At plan (some ordinal) active)
      (perform env (.resolveExternal ordinal expected))
      (fun _ => At plan none active) (At plan none active) := by
  refine perform_spec (Triple.call ?_ ?_) <;>
  · intro s l _ h
    exact ⟨{ l with ordinal := none }, if_pos h.reserved, { h with reserved := rfl }⟩

theorem bindPlan_spec {number : ℕ} : Spec config (At plan none active) (bindPlan env number)
    (fun _ => At plan none active) (At plan none active) := by
  have hreserve : Spec config (At plan none active) (reserve env)
      (fun ordinal => At plan (some ordinal) active) (At plan none active) :=
    (reserve_spec (F := fun _ _ => True) fun _ _ _ _ _ _ => trivial).conseq
      (fun _ _ h => ⟨h, trivial⟩) (fun _ _ _ h => h.1) fun _ _ _ h => h.1
  refine Triple.bind hreserve fun ordinal => ?_
  refine Triple.bind (Triple.attempt (call_ignored fun _ _ => rfl)) fun result => ?_
  cases result with
  | error e => exact raiseAfter_spec resolve_spec
  | ok bound =>
    refine Triple.bind resolve_spec fun _ => ?_
    split
    · exact Triple.pure fun _ _ => id
    · exact Triple.raise fun _ _ => id

theorem bindScene_spec {ordinal : ℤ} {number : ℕ} :
    Spec config (At plan none active) (bindScene env config ordinal number)
      (fun _ => At plan none active) (At plan none active) := by
  refine Triple.bind (Q := fun _ => At plan none active) ?_ fun _ =>
    Triple.bind (Q := fun _ => At plan none active) ?_ fun _ => bindPlan_spec
  · refine Triple.bind (Triple.get (Q := fun _ => At plan none active) fun _ _ => id) fun s => ?_
    split
    · exact Triple.pure fun _ _ => id
    · refine Triple.bind (perform_spec (call_ignored fun _ _ => rfl)) fun _ =>
        Triple.modify fun _ _ h => { h with }
  · exact doIf_spec (perform_spec (call_ignored fun _ _ => rfl)) fun _ _ => id

theorem observeOutputs_spec {number : ℕ} {stepResult : Bool} :
    Spec config (At plan none active) (observeOutputs env config number stepResult)
      (fun _ s l => At plan none active s l ∧
        (stepResult = true → ∀ c ∈ config.frameConsumers, c ∈ l.finished))
      (At plan none active) := by
  unfold observeOutputs
  split
  · have hobserve : Spec config (At plan none active)
        (logExceptions [] (do
          perform env .nativeRendererHandle
          perform env (.completedOutputs number)
          onCompletedOutputs env config.frameConsumers))
        (fun _ => At plan none active) (At plan none active) := by
      refine logExceptions_spec ?_
      exact Triple.bind (perform_spec (call_ignored fun _ _ => rfl)) fun _ =>
        Triple.bind (perform_spec (call_ignored fun _ _ => rfl)) fun _ =>
          onCompletedOutputs_spec At.ignoresFinished config.frameConsumers
    -- The outputs are finished whether or not they could be observed.
    refine Triple.tryFinally hobserve fun result => ?_
    have hfinish : Spec config (At plan none active) (finishFrameOutputs env config) _ _ :=
      finishFrameOutputs_spec At.ignoresFinished
    cases result with
    | ok layers => exact hfinish.post (fun _ _ _ h => ⟨h.1, fun _ => h.2⟩) fun _ _ _ => id
    | error e => exact hfinish.post (fun _ _ _ h => h.1) fun _ _ _ => id
  · rename_i hnone
    refine Triple.pure fun s l h => ⟨h, fun hstep c hc => ?_⟩
    exact absurd ⟨List.ne_nil_of_mem hc, hstep⟩ hnone

/-- A plan that is not cancelled yet, or that the context has taken. -/
def Rendering (p : OpenPlan) (pump : Pump) (l : Ledger C) : Prop :=
  At (some p) none (some p.id) pump l ∨ At none none none pump l

theorem Ledger.next_submit {consumers : List C} {l : Ledger C} {layers : List ℤ}
    (hplan : l.plan = some p) (hcancel : p.cancelTried = false)
    (hfinished : p.stepResult = true → ∀ c ∈ consumers, c ∈ l.finished)
    (answer : Except Failure Reply) :
    l.next consumers (.submitFrame p.id layers, answer) =
      some (if accepts answer then { l with plan := none } else l) := by
  show Ledger.submit consumers l p.id answer = _
  unfold Ledger.submit
  rw [hplan]
  exact if_pos ⟨rfl, hcancel, hfinished⟩

theorem Ledger.next_cancel {consumers : List C} {l : Ledger C} (hplan : l.plan = some p)
    (hfinished : ∀ c ∈ consumers, c ∈ l.finished) (answer : Except Failure Reply) :
    l.next consumers (.cancelFrame p.id, answer) = some { l with
      plan := match answer with
        | .ok _ => none
        | .error _ => some { p with cancelTried := true } } := by
  show Ledger.cancel consumers l p.id answer = _
  unfold Ledger.cancel
  rw [hplan]
  cases answer with
  | ok reply => exact if_pos ⟨rfl, hfinished⟩
  | error e => exact if_pos ⟨rfl, hfinished⟩

theorem Ledger.next_begin {consumers : List C} {l : Ledger C} {reply : Reply}
    (hsuccess : reply.result = .success) (hplan : l.plan = none)
    (hdestroyed : l.destroyed = false) :
    l.next consumers (.beginFrame l.plans, .ok reply) =
      some { l with plan := some ⟨l.plans, reply.flag, false⟩, plans := l.plans + 1 } := by
  show Ledger.begin_ l l.plans (.ok reply) = _
  unfold Ledger.begin_
  dsimp only
  rw [if_neg (not_not.mpr hsuccess)]
  exact if_pos ⟨hplan, rfl, hdestroyed⟩

omit [DecidableEq C] in
/-- The context has taken the plan, which the pump forgets next. -/
theorem At.taken {s : Pump} {l : Ledger C} (h : At plan none active s l) :
    At none none none { s with activePlan := none, pendingPlan := none } { l with plan := none } :=
  { h with
    openPlan := rfl
    pending := rfl
    current := rfl
    context := nofun }

theorem submitPlan_spec {layers : List ℤ} (hcancel : p.cancelTried = false) :
    Spec config (fun s l => At (some p) none (some p.id) s l ∧
        (p.stepResult = true → ∀ c ∈ config.frameConsumers, c ∈ l.finished))
      (submitPlan env config p.id layers) (fun _ => At none none none) (Rendering p) := by
  have hcall : Spec config (fun s l => At (some p) none (some p.id) s l ∧
        (p.stepResult = true → ∀ c ∈ config.frameConsumers, c ∈ l.finished))
      (call env (.submitFrame p.id layers))
      (fun reply s l => if reply.result.accepted then
        At none none none { s with activePlan := none, pendingPlan := none } l
        else At (some p) none (some p.id) s l) (Rendering p) := by
    refine Triple.call ?_ ?_
    · rintro s l reply ⟨h, hfinished⟩
      refine ⟨_, Ledger.next_submit h.openPlan hcancel hfinished _, ?_⟩
      show if reply.result.accepted then _ else _
      cases hresult : reply.result.accepted with
      | true =>
        simp only [accepts, hresult, if_true]
        exact h.taken
      | false =>
        simp only [accepts, hresult, Bool.false_eq_true, if_false]
        exact h
    · rintro s l e ⟨h, hfinished⟩
      exact ⟨_, Ledger.next_submit h.openPlan hcancel hfinished _, .inl h⟩
  refine Triple.bind hcall fun reply => ?_
  split
  · have hforget : Spec config (fun s l => At none none none
        { s with activePlan := none, pendingPlan := none } l) (forgetPlan : PumpM C Unit)
        (fun _ => At none none none) (Rendering p) := Triple.modify fun _ _ => id
    have hcallbacks : Spec config (At none none none)
        (forEach (fun c => perform env (.onFrameSubmitted c)) config.frameConsumers)
        (fun _ => At none none none) (At none none none) :=
      Triple.forEach (I := fun _ => At none none none) fun _ _ _ _ =>
        perform_spec (call_ignored fun _ _ => rfl)
    -- a callback may raise after the plan was forgotten
    refine Triple.bind (doIf_spec (Triple.bind hforget fun _ => hcallbacks.post ?_ ?_)
      fun _ _ => id) fun _ => hforget
    · exact fun _ _ _ h => { h with pending := rfl, current := rfl }
    · exact fun _ _ _ => .inr
  · exact Triple.raise fun _ _ => .inl

theorem renderPlan_spec {ordinal : ℤ} (hcancel : p.cancelTried = false) :
    Spec config (At (some p) none (some p.id))
      (renderPlan env config ordinal p.id p.stepResult) (fun _ => Rendering p) (Rendering p) := by
  have hbind : Spec config (At (some p) none (some p.id))
      (guarded env .enterPublicationGuard .exitPublicationGuard
        (bindScene env config ordinal p.id))
      (fun _ => At (some p) none (some p.id)) (At (some p) none (some p.id)) :=
    guarded_spec (fun _ _ => rfl) (fun _ _ => rfl) bindScene_spec (fun _ _ => id) fun _ _ _ => id
  refine Triple.bind (hbind.post (fun _ _ _ => id) fun _ _ _ => .inl) fun result => ?_
  split
  · refine Triple.bind (observeOutputs_spec.post (fun _ _ _ => id) fun _ _ _ => .inl)
      fun layers => ?_
    exact Triple.bind (submitPlan_spec hcancel) fun _ => Triple.pure fun _ _ => .inr
  · exact Triple.pure fun _ _ => .inl

/-- A plan was kept because its retirement failed. -/
def Kept (pump : Pump) (l : Ledger C) : Prop := ∃ plan active, At plan none active pump l

/-- The open plan is cancelled while no output is borrowed. -/
theorem cancel_spec {F : Ledger C → Prop} (hF : ∀ l plan, F l → F { l with plan := plan }) :
    Spec config (fun s l => (At (some p) none active s l ∧ F l) ∧
        ∀ c ∈ config.frameConsumers, c ∈ l.finished) (perform env (.cancelFrame p.id))
      (fun _ s l => At none none active { s with pendingPlan := none } l ∧ F l)
      (fun s l => At (some { p with cancelTried := true }) none active s l ∧ F l) := by
  refine perform_spec (Triple.call ?_ ?_)
  · rintro s l reply ⟨⟨h, hl⟩, hfinished⟩
    refine ⟨_, Ledger.next_cancel h.openPlan hfinished _, ?_, hF l _ hl⟩
    exact { h with
      openPlan := rfl
      pending := rfl
      context := nofun }
  · rintro s l e ⟨⟨h, hl⟩, hfinished⟩
    refine ⟨_, Ledger.next_cancel h.openPlan hfinished _, ?_, hF l _ hl⟩
    exact { h with openPlan := rfl }

theorem retirePlan_spec : Spec config (Rendering p) (retirePlan env config)
    (fun _ s l => ∃ active, At none none active s l) Kept := by
  refine Triple.bind (Triple.get (Q := fun s s' l => s' = s ∧ Rendering p s l)
    fun s l h => ⟨rfl, h⟩) fun s => ?_
  cases hactive : s.activePlan with
  | none =>
    refine Triple.pure ?_
    rintro s' l ⟨rfl, h | h⟩
    · rw [h.current] at hactive
      cases hactive
    · exact ⟨_, h⟩
  | some number =>
    -- The active plan is the one that the ledger has open.
    have hopen : ∀ s' (l : Ledger C), (s' = s ∧ Rendering p s l) →
        number = p.id ∧ At (some p) none (some p.id) s' l := by
      rintro s' l ⟨rfl, h | h⟩
      · rw [h.current] at hactive
        exact ⟨(Option.some.inj hactive).symm, h⟩
      · rw [h.current] at hactive
        cases hactive
    refine Triple.pure_pre (fun s' l h => (hopen s' l h).1) ?_
    rintro rfl
    refine Triple.pre ?_ fun s' l h => (hopen s' l h).2
    refine Triple.bind ((finishFrameOutputs_spec At.ignoresFinished).post (fun _ _ _ => id) ?_)
      fun _ => Triple.bind ((cancel_spec (F := fun _ => True) fun _ _ => id).conseq
        (fun _ _ h => ⟨⟨h.1, trivial⟩, h.2⟩) (fun _ _ _ => id) ?_) fun _ => Triple.modify ?_
    · exact fun _ _ _ h => ⟨_, _, h⟩
    · exact fun _ _ _ h => ⟨_, _, h.1⟩
    · exact fun _ _ h => ⟨_, h.1⟩

/-- No plan is open between two frames. -/
def Between (pump : Pump) (l : Ledger C) : Prop := ∃ active, At none none active pump l

omit [DecidableEq C] in
theorem Between.kept {s : Pump} {l : Ledger C} (h : Between s l) : Kept s l := by
  obtain ⟨active, h⟩ := h
  exact ⟨none, active, h⟩

theorem noted_spec {x : PumpM C α} {cleanup : PumpM C Unit} {M Q : Pump → Ledger C → Prop}
    (hx : Spec config P x (fun _ => M) M) (hcleanup : Spec config M cleanup (fun _ => Q) R)
    (hQ : ∀ s l, Q s l → R s l) : Spec config P (noted x cleanup) (fun _ => Q) R := by
  refine Triple.bind (Triple.attempt hx) fun outcome => ?_
  have hM : Spec config (Triple.Ends (fun _ => M) (fun _ => M) outcome) cleanup (fun _ => Q) R := by
    cases outcome with
    | ok a => exact hcleanup
    | error e => exact hcleanup
  refine Triple.bind (Triple.attempt hM) fun cleaned => ?_
  cases outcome with
  | error e =>
    refine Triple.raise fun s l h => ?_
    cases cleaned with
    | ok _ => exact hQ s l h
    | error _ => exact h
  | ok a =>
    cases cleaned with
    | ok _ => exact Triple.pure fun _ _ => id
    | error _ => exact Triple.raise fun _ _ => id

/-- A frame that returns leaves no plan open. -/
theorem render_spec {ordinal : ℤ} :
    Spec config Between (render env config ordinal) (fun _ => Between) Kept := by
  refine Triple.bind (Triple.get (Q := fun s s' l => s' = s ∧ Between s l)
    fun s l h => ⟨rfl, h⟩) fun s => ?_
  split
  · refine Triple.raise ?_
    rintro s' l ⟨rfl, h⟩
    exact h.kept
  · rename_i hcontext
    have hcontext : s.context = true := by simpa using hcontext
    -- A `begin` that succeeds opens a plan, and another one changes nothing.
    have hbegin : Spec config (fun s' l => s' = s ∧ Between s l)
        (call env (.beginFrame s.plans))
        (fun reply s' l => s' = s ∧ if reply.result = .success then
          At (some ⟨s.plans, reply.flag, false⟩) none (some s.plans) { s with
            plans := s.plans + 1, activePlan := some s.plans, pendingPlan := some s.plans } l
          else Between s l) Kept := by
      refine Triple.call ?_ ?_
      · rintro s' l reply ⟨rfl, active, h⟩
        by_cases hsuccess : reply.result = .success
        · rw [← h.plans]
          refine ⟨_, Ledger.next_begin hsuccess h.openPlan h.destroyed, rfl, ?_⟩
          rw [if_pos hsuccess]
          exact { h with
            plans := rfl
            openPlan := rfl
            pending := rfl
            current := rfl
            context := fun _ => hcontext }
        · refine ⟨l, if_pos hsuccess, rfl, ?_⟩
          rw [if_neg hsuccess]
          exact ⟨active, h⟩
      · rintro s' l e ⟨rfl, h⟩
        exact ⟨l, rfl, h.kept⟩
    refine Triple.bind hbegin fun reply => ?_
    by_cases hsuccess : reply.result = .success
    · simp only [hsuccess, if_true]
      refine Triple.bind (Triple.modify
        (Q := fun _ => At (some ⟨s.plans, reply.flag, false⟩) none (some s.plans)) ?_) fun _ => ?_
      · rintro s' l ⟨rfl, h⟩
        exact { h with }
      · exact noted_spec (renderPlan_spec rfl) retirePlan_spec fun _ _ => Between.kept
    · simp only [hsuccess, if_false]
      refine Triple.bind (Triple.modify (Q := fun _ => Between) ?_) fun _ => ?_
      · rintro s' l ⟨rfl, active, h⟩
        exact ⟨none, { h with current := rfl }⟩
      · split
        · exact Triple.pure fun _ _ => id
        · exact Triple.raise fun _ _ => Between.kept

theorem renderAll_spec {calls : List RenderCall} :
    Spec config Between (renderAll env config calls) (fun _ => Between) Kept := by
  induction calls with
  | nil => exact Triple.pure fun _ _ => id
  | cons call calls ih =>
    cases call with
    | render ordinal => exact Triple.bind render_spec fun _ => ih
    | renderReused =>
      refine Triple.bind (Q := fun _ => Between) ?_ fun _ => ih
      refine Triple.bind (Triple.get (Q := fun _ => Between) fun _ _ => id) fun s => ?_
      split
      · exact Triple.pure fun _ _ => id
      · exact render_spec

/-! ### `close` -/

theorem ignored_spec {c : Call C}
    (hc : ∀ l answer, Ledger.next config.frameConsumers l (c, answer) = some l) :
    Spec config P (attempt (perform env c)) (fun _ => P) R := by
  refine (Triple.attempt (perform_spec (call_ignored hc))).post (fun result s l h => ?_)
    fun _ _ _ => id
  cases result with
  | ok _ => exact h
  | error _ => exact h

theorem closeDependents_spec {firstError : Option Failure} :
    Spec config P (closeDependents env firstError) (fun _ => P) P := by
  refine Triple.bind (ignored_spec fun _ _ => rfl) fun runtime => ?_
  refine Triple.bind (ignored_spec fun _ _ => rfl) fun host => ?_
  refine Triple.bind (ignored_spec fun _ _ => rfl) fun environment => ?_
  split
  · exact Triple.raise fun _ _ => id
  · exact Triple.pure fun _ _ => id

/-- All consumers are closed. -/
def AllClosed (config : Config C) (l : Ledger C) : Prop := ∀ c ∈ config.frameConsumers, c ∈ l.closed

theorem retireConsumers_spec {firstError : Option Failure} :
    Spec config Kept (retireConsumers env config firstError)
      (fun _ s l => Kept s l ∧ AllClosed config l) Kept := by
  -- Every consumer is closed, the last one first.
  have hclose : Spec config Kept
      (forEach (fun c => perform env (.closeConsumer c)) config.frameConsumers.reverse)
      (fun _ s l => Kept s l ∧ AllClosed config l) Kept := by
    refine Triple.conseq (Triple.forEach (I := fun done s l => Kept s l ∧ ∀ c ∈ done, c ∈ l.closed)
      fun done c rest _ => perform_spec (Triple.call ?_ ?_)) (fun s l h => ⟨h, nofun⟩)
      (fun _ s l h => ⟨h.1, fun c hc => h.2 c (List.mem_reverse.mpr hc)⟩) fun _ _ _ => id
    · rintro s l reply ⟨⟨plan, active, h⟩, hdone⟩
      refine ⟨_, rfl, ⟨plan, active, { h with }⟩, fun c' hc' => ?_⟩
      rcases List.mem_append.mp hc' with hmem | hmem
      · exact List.mem_cons_of_mem _ (hdone c' hmem)
      · rw [List.mem_singleton.mp hmem]
        exact List.mem_cons_self
    · rintro s l e ⟨h, -⟩
      exact ⟨l, rfl, h⟩
  refine Triple.bind hclose fun _ => ?_
  refine Triple.bind (Triple.get (Q := fun s s' l => s' = s ∧ Kept s l ∧ AllClosed config l)
    fun s l h => ⟨rfl, h⟩) fun s => ?_
  cases hpending : s.pendingPlan with
  | none =>
    refine Triple.pure ?_
    rintro s' l ⟨rfl, h⟩
    exact h
  | some number =>
    -- A pending plan is the open plan of the ledger.
    have hopen : ∀ s' (l : Ledger C), (s' = s ∧ Kept s l ∧ AllClosed config l) →
        ∃ q : OpenPlan × Option ℕ, number = q.1.id ∧
          At (some q.1) none q.2 s' l ∧ AllClosed config l := by
      rintro s' l ⟨rfl, ⟨plan, active, h⟩, hclosed⟩
      cases plan with
      | none =>
        rw [h.pending] at hpending
        cases hpending
      | some q =>
        rw [h.pending] at hpending
        exact ⟨(q, active), (Option.some.inj hpending).symm, h, hclosed⟩
    refine Triple.pre (Triple.exists_pre fun q => ?_) hopen
    refine Triple.pure_pre (fun _ _ h => h.1) ?_
    rintro rfl
    refine Triple.pre ?_ fun _ _ h => h.2
    refine Triple.bind ((finishFrameOutputs_spec ?_).post (fun _ _ _ => id) ?_) fun _ => ?_
    · exact fun _ _ _ h => ⟨{ h.1 with }, h.2⟩
    · exact fun _ _ _ h => ⟨_, _, h.1⟩
    · refine Triple.bind (Triple.attempt (cancel_spec fun _ _ => id)) fun result => ?_
      cases result with
      | error e => exact Triple.pure fun _ _ h => ⟨⟨_, _, h.1⟩, h.2⟩
      | ok _ =>
        refine Triple.bind (Triple.modify (Q := fun _ s l => Kept s l ∧ AllClosed config l) ?_)
          fun _ => Triple.pure fun _ _ => id
        exact fun _ _ h => ⟨⟨_, _, h.1⟩, h.2⟩

/-- While the context is being destroyed: the flag of `close` tells whether it was consumed. -/
structure Closing (ordinal : Option ℕ) (pump : Pump) (l : Ledger C) : Prop where
  reserved : l.ordinal = ordinal
  context : pump.context = true
  pending : l.plan.map OpenPlan.id = pump.pendingPlan
  consumed : l.consumed = pump.contextRetired

/-- Before the context is destroyed. -/
structure Undestroyed (config : Config C) (pump : Pump) (l : Ledger C) : Prop where
  closed : AllClosed config l
  destroyed : l.destroyed = false
  context : pump.context = true
  contextRetired : pump.contextRetired = false

omit [DecidableEq C] in
theorem At.closing {ordinal : Option ℕ} {s : Pump} {l : Ledger C} (h : At plan ordinal active s l)
    (hu : Undestroyed config s l) : Closing ordinal s l where
  reserved := h.reserved
  context := hu.context
  pending := by rw [h.openPlan, h.pending]
  consumed := by rw [h.consumed, hu.contextRetired]

omit [DecidableEq C] in
theorem Undestroyed.ignoresOrdinals : IgnoresOrdinals (Undestroyed config) :=
  fun _ _ _ _ _ h => { h with }

/-- `destroy` consumes the context exactly when the flag is set. -/
theorem destroyContext_spec {ordinal : ℕ} :
    Spec config (fun s l => At plan (some ordinal) active s l ∧ Undestroyed config s l)
      (destroyContext env ordinal) (fun _ => Closing (some ordinal))
      (Closing (some ordinal)) := by
  have hnext : ∀ (s : Pump) (l : Ledger C) answer, Undestroyed config s l →
      Ledger.next config.frameConsumers l (.destroy ordinal, answer) =
        some { l with destroyed := true, consumed := consumes answer } :=
    fun _ _ _ h => if_pos ⟨h.destroyed, h.closed⟩
  -- The call is made once the consumers are closed; an `OvxrError` still consumes the context.
  have hcall : Triple (Ledger.next config.frameConsumers) Ledger.init
      (fun s l => At plan (some ordinal) active s l ∧ Undestroyed config s l)
      (perform env (.destroy ordinal))
      (fun _ s l => Closing (some ordinal) { s with contextRetired := true } l)
      (fun e s l => s.contextRetired = false ∧
        Closing (some ordinal) { s with contextRetired := consumes (.error e) } l) := by
    refine Triple.bind (Triple.call ?_ ?_) fun _ => Triple.pure fun _ _ => id
    · rintro s l reply ⟨h, hu⟩
      exact ⟨_, hnext s l _ hu, { h.closing hu with consumed := rfl }⟩
    · rintro s l e ⟨h, hu⟩
      exact ⟨_, hnext s l _ hu, hu.contextRetired, { h.closing hu with consumed := rfl }⟩
  refine Triple.bind (Triple.attempt hcall) fun result => ?_
  cases result with
  | ok _ => exact Triple.modify fun _ _ => id
  | error e =>
    dsimp only
    split
    · rename_i hovxr
      rw [hovxr]
      refine Triple.bind (Triple.modify (Q := fun _ => Closing (some ordinal)) ?_)
        fun _ => Triple.raise fun _ _ => id
      exact fun _ _ h => h.2
    · -- Any other error leaves the context to the next attempt.
      rename_i hother
      refine Triple.raise ?_
      rintro s l ⟨hretired, h⟩
      have hconsumes : consumes (.error e) = false := by
        cases e with
        | exception => rfl
        | ovxrError => exact absurd rfl hother
        | interrupt => rfl
      exact { h with consumed := by rw [h.consumed, hretired]; exact hconsumes }

theorem resolveClosing_spec {ordinal : ℕ} {expected : Option Bool} :
    Spec config (Closing (some ordinal)) (perform env (.resolveExternal ordinal expected))
      (fun _ => Closing none) (Closing none) := by
  refine perform_spec (Triple.call ?_ ?_) <;>
  · intro s l _ h
    exact ⟨{ l with ordinal := none }, if_pos h.reserved, { h with reserved := rfl }⟩

theorem destroyUnderOrdinal_spec :
    Spec config (fun s l => Kept s l ∧ Undestroyed config s l) (destroyUnderOrdinal env)
      (fun _ => Closing none) (Closing none) := by
  refine Triple.pre (Triple.exists_pre fun plan => Triple.exists_pre fun active => ?_)
    (P := fun s l => ∃ plan active, At plan none active s l ∧ Undestroyed config s l) ?_
  · refine Triple.bind ((reserve_spec Undestroyed.ignoresOrdinals).post (fun _ _ _ => id)
      fun _ _ _ h => h.1.closing h.2) fun ordinal => ?_
    have hdestroy : Spec config
        (fun s l => At plan (some ordinal) active s l ∧ Undestroyed config s l)
        (guarded env .enterOwnerLane .exitOwnerLane (destroyContext env ordinal))
        (fun _ => Closing (some ordinal)) (Closing (some ordinal)) :=
      guarded_spec (fun _ _ => rfl) (fun _ _ => rfl) destroyContext_spec
        (fun _ _ h => h.1.closing h.2) fun _ _ _ => id
    refine Triple.bind (Triple.attempt hdestroy) fun result => ?_
    cases result with
    | error e => exact raiseAfter_spec resolveClosing_spec
    | ok _ => exact resolveClosing_spec
  · rintro s l ⟨⟨plan, active, h⟩, hu⟩
    exact ⟨plan, active, h, hu⟩

/-- The context is either consumed, or kept with the plan that is pending. -/
theorem retireContext_spec {firstError : Option Failure} :
    Spec config (fun s l => Kept s l ∧ Undestroyed config s l) (retireContext env firstError)
      (fun _ => Settled) R := by
  refine Triple.bind (ignored_spec fun _ _ => rfl) fun exited => ?_
  have hdestroy : Spec config (fun s l => Kept s l ∧ Undestroyed config s l)
      (guarded env .enterPublicationGuard .exitPublicationGuard (destroyUnderOrdinal env))
      (fun _ => Closing none) (Closing none) := by
    refine guarded_spec (fun _ _ => rfl) (fun _ _ => rfl) destroyUnderOrdinal_spec ?_
      fun _ _ _ => id
    rintro s l ⟨⟨plan, active, h⟩, hu⟩
    exact h.closing hu
  refine Triple.bind (Triple.attempt hdestroy) fun destroyed => ?_
  refine Triple.bind (Triple.modify (Q := fun _ => Settled) fun s l h => ?_)
    fun _ => Triple.pure fun _ _ => id
  have h : Closing none s l := by
    cases destroyed with
    | ok _ => exact h
    | error _ => exact h
  split
  · -- The context is let go exactly if the call has consumed it.
    rename_i hretired
    exact ⟨h.reserved, nofun, fun _ => .inr (h.consumed.trans hretired)⟩
  · rename_i hkept
    refine ⟨h.reserved, fun _ => ⟨?_, h.pending⟩, fun hgone => ?_⟩
    · rw [h.consumed]
      simpa using hkept
    · rw [h.context] at hgone
      cases hgone

omit [DecidableEq C] in
theorem Kept.settled {s : Pump} {l : Ledger C} (h : Kept s l) : Settled s l := by
  obtain ⟨plan, active, h⟩ := h
  refine ⟨h.reserved, fun _ => ⟨h.consumed, by rw [h.openPlan, h.pending]⟩, fun hgone => .inl ?_⟩
  cases plan with
  | none => exact h.openPlan
  | some q =>
    rw [h.context rfl] at hgone
    cases hgone

/-- The end of a session agrees with the ledger. -/
theorem close_spec : Spec config Kept (close env config) (fun _ => Settled) Settled := by
  -- The publication is closed first; its error does not stop the rest.
  have hpublication : Spec config Kept
      (guarded env .enterPublicationGuard .exitPublicationGuard (perform env .closePublication))
      (fun _ => Kept) Kept :=
    guarded_spec (fun _ _ => rfl) (fun _ _ => rfl) (perform_spec (call_ignored fun _ _ => rfl))
      (fun _ _ => id) fun _ _ _ => id
  refine Triple.bind (Triple.attempt hpublication) fun published => ?_
  refine Triple.pre ?_ (P := Kept) fun s l h => by
    cases published with
    | ok _ => exact h
    | error _ => exact h
  refine Triple.bind (Triple.attempt retireConsumers_spec) fun retired => ?_
  cases retired with
  | error e => exact Triple.raise fun _ _ h => Kept.settled h
  | ok firstError =>
    refine Triple.bind (Triple.get (Q := fun s s' l => s' = s ∧ Kept s l ∧ AllClosed config l)
      fun s l h => ⟨rfl, h⟩) fun s => ?_
    split
    · refine Triple.pre closeDependents_spec ?_
      rintro s' l ⟨rfl, h, -⟩
      exact h.settled
    · -- The context is retired once every consumer is closed.
      rename_i hcontext
      have hcontext : s.context = true := by simpa using hcontext
      refine Triple.bind (Triple.modify
        (Q := fun _ s' l => Kept s' l ∧ Undestroyed config s' l) ?_) fun _ =>
        Triple.bind retireContext_spec fun firstError => ?_
      · rintro s' l ⟨rfl, ⟨plan, active, h⟩, hclosed⟩
        exact ⟨⟨plan, active, { h with }⟩, hclosed, h.destroyed, hcontext, rfl⟩
      · refine Triple.bind (Triple.get (Q := fun _ => Settled) fun _ _ => id) fun s => ?_
        split
        · exact closeDependents_spec
        · exact Triple.raise fun _ _ => id

theorem session_spec {calls : List RenderCall} :
    Spec config Between (session env config calls) (fun _ => Settled) Settled := by
  refine Triple.bind (Triple.attempt renderAll_spec) fun rendered => ?_
  refine Triple.pre close_spec fun s l h => ?_
  cases rendered with
  | ok _ => exact Between.kept h
  | error _ => exact h

/-- **Every session is balanced:** whatever its calls return or raise, plans end in exactly
one way, no output is borrowed when a plan is submitted or cancelled, ordinals are resolved
once and the context is destroyed at most once, after its consumers. -/
theorem session_balanced (env : List (Happening C) → Except Failure Reply) (config : Config C)
    (context : Bool) (calls : List RenderCall) :
    Balanced config.frameConsumers (afterSession env config context calls) := by
  refine Ledger.balanced ?_
  have hinit : Holds (Ledger.next config.frameConsumers) Ledger.init Between
      (⟨Pump.init context, []⟩ : World Pump (Happening C)) :=
    ⟨Ledger.init, rfl, none, rfl, rfl, rfl, rfl, rfl, rfl, rfl, rfl, nofun⟩
  exact Fallible.wp_state (session_spec _ hinit)

end FramePump
