/-
What one call adds to the trace of the calibration engine.

A call either does its work, which only adds entries and rejects nothing, or it rejects
the command, and then it has changed no member of the engine.

* `Works` — from one machine to a later one of the same call, without a rejection;
* `Carried` — properties that every method keeps;
* `handle_works_or_rejects` — every command.
-/
import IsaacTeleop.CalibrationEngine

open ByteText

namespace Calibration

variable {τ : Type}

/-- The entries of a call's own work. -/
def Entry.work : Entry τ → Bool
  | .input _ | .event (.rejected _) => false
  | _ => true

/-- From `m` to `m'` a call did its work and rejected nothing. -/
def Works (m m' : Machine τ) : Prop :=
  ∃ added, m'.trace = m.trace ++ added ∧ ∀ entry ∈ added, entry.work = true

/-! ### Recording -/

section Recording

variable {env : Environment τ} {m m' m'' : Machine τ}

theorem Works.refl (m : Machine τ) : Works m m :=
  ⟨[], (List.append_nil _).symm, fun _ h => (by cases h)⟩

theorem Works.trans (h : Works m m') (h' : Works m' m'') : Works m m'' := by
  obtain ⟨added, htrace, hwork⟩ := h
  obtain ⟨added', htrace', hwork'⟩ := h'
  refine ⟨added ++ added', ?_, ?_⟩
  · rw [htrace', htrace, List.append_assoc]
  · intro entry hentry
    rcases List.mem_append.mp hentry with hentry | hentry
    · exact hwork entry hentry
    · exact hwork' entry hentry

theorem Works.append (h : Works m m') {m'' : Machine τ} (entry : Entry τ)
    (hwork : entry.work = true) (htrace : m''.trace = m'.trace ++ [entry]) : Works m m'' := by
  refine h.trans ⟨[entry], htrace, ?_⟩
  intro e he
  obtain rfl := List.mem_singleton.mp he
  exact hwork

theorem Works.requestCancel (h : Works m m') : Works m m'.requestCancel :=
  h.append .cancelRequested rfl rfl

theorem Works.record (h : Works m m') {entry : Entry τ} (hwork : entry.work = true) :
    Works m (m'.record env entry) := by
  have happended : Works m { m' with trace := m'.trace ++ [entry] } := h.append entry hwork rfl
  rw [Machine.record]
  split
  · exact happended.requestCancel
  · exact happended

end Recording

/-! ### Properties that the methods keep -/

/-- The entries that the methods add to the trace at any time.  A file is written, a command
rejected and an input taken at certain points only, and a cancellation comes from outside. -/
def Entry.plain : Entry τ → Bool
  | .input _ | .cancelRequested | .event (.rejected _) | .write .. => false
  | _ => true

/-- A property of machines that every part of a method keeps. -/
structure Carried (env : Environment τ) (P : Machine τ → Prop) : Prop where
  update : ∀ {m} f, P m → P (m.update f)
  requestCancel : ∀ {m}, P m → P m.requestCancel
  record : ∀ {m} {entry : Entry τ}, P m → entry.plain = true → P (m.record env entry)
  /-- A file is written only when no cancellation is pending. -/
  write : ∀ {m} {dir basename : ByteText} {bytes : List UInt8} {error : Option ByteText},
    P m → m.cancelRequested = false → P (m.record env (.write dir basename bytes error))

theorem works_carried (env : Environment τ) (m : Machine τ) : Carried env (Works m) where
  update := fun _ h => h
  requestCancel := Works.requestCancel
  record := by
    intro m' entry h hplain
    refine h.record ?_
    cases entry with
    | input _ => cases hplain
    | cancelRequested => cases hplain
    | event event =>
      cases event with
      | rejected _ => cases hplain
      | _ => rfl
    | _ => rfl
  write := fun h _ => h.record rfl

/-- The machine of a part that may end the call. -/
theorem of_pair {P : Machine τ → Prop} {x : Bool × Machine τ} {b : Bool} {m : Machine τ}
    (h : P x.2) (hx : x = (b, m)) : P m := by
  rw [hx] at h
  exact h

/-- Without a cancellation the call goes on. -/
theorem terminateIfCancelled_false {env : Environment τ} {m m' : Machine τ}
    (h : m.terminateIfCancelled env = (false, m')) : m' = m ∧ m.cancelRequested = false := by
  rw [Machine.terminateIfCancelled] at h
  split at h
  · rename_i hcalm
    obtain ⟨hfinished, rfl⟩ := Prod.mk.inj h
    rw [hfinished, Bool.false_or, Bool.not_eq_true'] at hcalm
    exact ⟨rfl, hcalm⟩
  · cases h

namespace Carried

variable {env : Environment τ} {P : Machine τ → Prop} {m : Machine τ}

theorem emit (c : Carried env P) (h : P m) {event : Event τ}
    (hplain : (Entry.event event).plain = true) : P (m.emit env event) :=
  c.record h hplain

theorem emitStatus (c : Carried env P) (h : P m) (phase : Phase) : P (m.emitStatus env phase) :=
  c.record h (by rfl)

theorem release (_ : Carried env P) {t : Machine.Teardown τ} (h : P m) (status : SdkStatus)
    (promised : Bool) (error : ErrorInfo) : P (t.release m status promised error).machine := by
  rw [Machine.Teardown.release]
  split
  · exact h
  · exact h

theorem terminate (c : Carried env P) (h : P m) (outcome : Outcome) (error : Option ErrorInfo) :
    P (m.terminate env outcome error) := by
  rw [Machine.terminate]
  dsimp only
  split
  · exact h
  · have hstatus : P (if m.engine.attempt = [] then m else m.emitStatus env .stopping) := by
      split
      · exact h
      · exact c.emitStatus h _
    generalize (if m.engine.attempt = [] then m else m.emitStatus env .stopping) = m₁ at hstatus
    -- The two stages of the teardown, each of which may have nothing to do.
    have hstop : P (Machine.stopCalibrating env ⟨m₁, true, outcome, error⟩).machine := by
      rw [Machine.stopCalibrating]
      split
      · exact c.release (c.update _ (c.record hstatus (by rfl))) _ _ _
      · exact hstatus
    generalize Machine.stopCalibrating env ⟨m₁, true, outcome, error⟩ = t at hstop
    have hdown : P (Machine.shutDown env t).machine := by
      rw [Machine.shutDown]
      split
      · exact c.release (c.update _ (c.record hstop (by rfl))) _ _ _
      · exact hstop
    exact c.emit (c.update _ hdown) (by rfl)

theorem fail (c : Carried env P) (h : P m) (code : ErrorCode) (message : ByteText)
    (side : Option Side) (step : Option ℕ) : P (m.fail env code message side step) :=
  c.terminate h _ _

/-- A call that has failed. -/
theorem failed (c : Carried env P) (h : P m) {entry : Entry τ} (hplain : entry.plain = true)
    (code : ErrorCode) (message : ByteText) (side : Option Side) (step : Option ℕ) :
    P ((m.record env entry).fail env code message side step) :=
  c.fail (c.record h hplain) _ _ _ _

theorem terminateIfCancelled (c : Carried env P) (h : P m) : P (m.terminateIfCancelled env).2 := by
  rw [Machine.terminateIfCancelled]
  split
  · exact h
  · exact c.terminate h _ _

theorem checkGloves (c : Carried env P) (h : P m) : P (m.checkGloves env).2 := by
  rw [Machine.checkGloves]
  split
  · exact c.failed h (by rfl) _ _ _ _
  · exact c.record h (by rfl)

section Methods

variable [CppDouble τ] {config : EngineConfig τ}

theorem offerPrompt (c : Carried env P) (h : P m) : P (m.offerPrompt env config) := by
  rw [Machine.offerPrompt]
  dsimp only
  split
  · exact c.failed h (by rfl) _ _ _ _
  split
  · exact c.failed h (by rfl) _ _ _ _
  exact c.emit (c.emitStatus (c.update _ (c.record h (by rfl))) _) (by rfl)

theorem checkSteps (c : Carried env P) {glove : GloveRef} {remaining index : ℕ} (h : P m) :
    P (Machine.checkSteps env glove remaining index m).2 := by
  induction remaining generalizing index m with
  | zero => exact h
  | succ remaining ih =>
    rw [Machine.checkSteps]
    dsimp only
    split
    · exact c.failed h (by rfl) _ _ _ _
    split
    · exact c.failed h (by rfl) _ _ _ _
    exact ih (c.record h (by rfl))

theorem startGlove (c : Carried env P) (h : P m) (glove : GloveRef) (count : UInt32) :
    P (m.startGlove env config glove count) := by
  rw [Machine.startGlove]
  dsimp only
  split
  · exact c.failed h (by rfl) _ _ _ _
  split
  · rename_i hsteps
    exact of_pair (c.checkSteps (c.update _ (c.record h (by rfl)))) hsteps
  · rename_i hsteps
    exact c.offerPrompt (of_pair (c.checkSteps (c.update _ (c.record h (by rfl)))) hsteps)

theorem beginGlove (c : Carried env P) (h : P m) : P (m.beginGlove env config) := by
  rw [Machine.beginGlove]
  dsimp only
  split
  · exact c.failed h (by rfl) _ _ _ _
  split
  · exact c.failed h (by rfl) _ _ _ _
  exact c.startGlove (c.record h (by rfl)) _ _

theorem nextGlove (c : Carried env P) (h : P m) : P (m.nextGlove env config) := by
  rw [Machine.nextGlove]
  split
  · split
    · rename_i hcancel
      exact of_pair (c.terminateIfCancelled (c.update _ h)) hcancel
    · rename_i hcancel
      exact c.beginGlove (of_pair (c.terminateIfCancelled (c.update _ h)) hcancel)
  · exact c.terminate (c.update _ h) _ _

theorem saveGlove (c : Carried env P) (h : P m) (hcalm : m.cancelRequested = false)
    (glove : GloveRef) (bytes : List UInt8) : P (m.saveGlove env config glove bytes) := by
  rw [Machine.saveGlove]
  dsimp only
  split
  · exact c.fail (c.write h hcalm) _ _ _ _
  · exact c.nextGlove (c.emit (c.update _ (c.write h hcalm)) (by rfl))

theorem exportGlove (c : Carried env P) (h : P m) (glove : GloveRef) :
    P (m.exportGlove env config glove) := by
  rw [Machine.exportGlove]
  dsimp only
  split
  · exact c.failed h (by rfl) _ _ _ _
  split
  · exact c.failed h (by rfl) _ _ _ _
  split
  · rename_i hcancel
    exact of_pair (c.terminateIfCancelled (c.record h (by rfl))) hcancel
  · rename_i hcancel
    -- the poll right before the file is written
    obtain ⟨rfl, hcalm⟩ := terminateIfCancelled_false hcancel
    exact c.saveGlove (c.record h (by rfl)) hcalm _ _

theorem finishGlove (c : Carried env P) (h : P m) : P (m.finishGlove env config) := by
  rw [Machine.finishGlove]
  dsimp only
  split
  · rename_i hcheck
    exact of_pair (c.checkGloves h) hcheck
  · rename_i m₁ hcheck
    have h₁ : P m₁ := of_pair (c.checkGloves h) hcheck
    split
    · exact c.failed h₁ (by rfl) _ _ _ _
    split
    · rename_i hcancel
      refine of_pair (c.terminateIfCancelled ?_) hcancel
      exact c.emitStatus (c.update _ (c.record h₁ (by rfl))) _
    · rename_i hcancel
      refine c.exportGlove (of_pair (c.terminateIfCancelled ?_) hcancel) _
      exact c.emitStatus (c.update _ (c.record h₁ (by rfl))) _

theorem stepDone (c : Carried env P) (h : P m) : P (m.stepDone env config) := by
  rw [Machine.stepDone]
  split
  · exact c.offerPrompt (c.update _ h)
  · exact c.finishGlove (c.update _ h)

theorem openAttempt (c : Carried env P) (h : P m) (command : StartCommand) :
    P (m.openAttempt env config command) := by
  rw [Machine.openAttempt]
  exact c.update _ (c.emitStatus (c.update _ (c.record (c.update _ h) (by rfl))) _)

theorem startConfirmed (c : Carried env P) (h : P m) (token : ByteText) :
    P (m.startConfirmed env config token) := by
  rw [Machine.startConfirmed]
  dsimp only
  split
  · exact c.failed h (by rfl) _ _ _ _
  split
  · rename_i hcancel
    refine of_pair (c.terminateIfCancelled ?_) hcancel
    exact c.emit (c.update _ (c.record h (by rfl))) (by rfl)
  · rename_i m₁ hcancel
    have h₁ : P m₁ := by
      refine of_pair (c.terminateIfCancelled ?_) hcancel
      exact c.emit (c.update _ (c.record h (by rfl))) (by rfl)
    split
    · exact c.emit (c.emitStatus (c.update _ (c.record (c.update _ h₁) (by rfl))) _) (by rfl)
    · exact c.stepDone h₁

end Methods

end Carried

/-! ### Commands -/

/-- The command is rejected: nothing but the rejection is recorded, and before it at most the
look at a directory that cannot be used. -/
inductive Rejects (env : Environment τ) (m : Machine τ) : Machine τ → Prop
  | command (r : RejectedEvent) : Rejects env m (m.emit env (.rejected r))
  | directory (dir : ByteText) (r : RejectedEvent) :
      Rejects env m ((m.record env (.directoryUsable dir false)).emit env (.rejected r))

section Commands

variable {env : Environment τ} {m m' : Machine τ}

/-- **A rejected command leaves the engine as it was.** -/
theorem Rejects.engine (h : Rejects env m m') : m'.engine = m.engine := by
  cases h with
  | command r => simp
  | directory dir r => simp

variable [CppDouble τ] (env) (config : EngineConfig τ) (m)

theorem beginAttempt_works_or_rejects (command : StartCommand) :
    Works m (m.beginAttempt env config command) ∨
      Rejects env m (m.beginAttempt env config command) := by
  rw [Machine.beginAttempt]
  dsimp only
  split
  · exact Or.inr (.command _)
  split
  · rename_i hunusable
    have hfalse : env.directoryUsable m.trace command.outDir = false := by simpa using hunusable
    rw [hfalse]
    exact Or.inr (.directory _ _)
  · left
    have hopen : Works m ((m.record env (.directoryUsable command.outDir
        (env.directoryUsable m.trace command.outDir))).openAttempt env config command) :=
      (works_carried env m).openAttempt ((Works.refl m).record (by rfl)) command
    split
    · exact (works_carried env m).failed hopen (by rfl) _ _ _ _
    · exact hopen.record (by rfl)

theorem handleConfirm_works_or_rejects (command : ConfirmCommand) :
    Works m (m.handleConfirm env config command) ∨
      Rejects env m (m.handleConfirm env config command) := by
  rw [Machine.handleConfirm]
  split
  · exact Or.inr (.command _)
  split
  · exact Or.inl ((Works.refl m).record (by rfl))
  split
  · exact Or.inr (.command _)
  split
  · exact Or.inr (.command _)
  left
  split
  · rename_i hcheck
    exact of_pair ((works_carried env m).checkGloves (Works.refl m)) hcheck
  · rename_i hcheck
    exact (works_carried env m).startConfirmed
      (of_pair ((works_carried env m).checkGloves (Works.refl m)) hcheck) _

omit [CppDouble τ] in
theorem handleCancel_works_or_rejects (command : CancelCommand) :
    Works m (m.handleCancel env command) ∨ Rejects env m (m.handleCancel env command) := by
  rw [Machine.handleCancel]
  split
  · exact Or.inr (.command _)
  · exact Or.inl ((works_carried env m).terminateIfCancelled (Works.refl m).requestCancel)

/-- **Every command does its work or is rejected.** -/
theorem handle_works_or_rejects (command : Command) :
    Works m (m.handle env config command) ∨ Rejects env m (m.handle env config command) := by
  rw [Machine.handle]
  split
  · exact Or.inl (Works.refl m)
  split
  · rename_i hcancel
    exact Or.inl (of_pair ((works_carried env m).terminateIfCancelled (Works.refl m)) hcancel)
  · rename_i hcancel
    obtain ⟨rfl, -⟩ := terminateIfCancelled_false hcancel
    cases command with
    | start command => exact beginAttempt_works_or_rejects env _ config command
    | confirm command => exact handleConfirm_works_or_rejects env _ config command
    | cancel command => exact handleCancel_works_or_rejects env _ command

end Commands

end Calibration
