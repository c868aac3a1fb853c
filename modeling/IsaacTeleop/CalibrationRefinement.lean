/-
The calibration engine refines the session monitor.

Whatever the environment answers and whoever cancels, the monitor accepts the trace of
the engine, entry by entry.  Between calls the engine is finished or its members agree
with the monitor's session.

* `terminate_finished` — every termination is accepted;
* `offerPrompt_ok`, `beginGlove_ok`, `finishGlove_ok`, … — one lemma for each method;
* `run_accepts` — every run.
-/
import IsaacTeleop.CalibrationSession

open ByteText

namespace Calibration

variable {τ : Type}

/-! ### Traces the monitor accepts -/

/-- The monitor accepted the machine's trace and is in `s`. -/
def At (m : Machine τ) (s : Session) : Prop :=
  Monitor.Accepts Session.next Session.init m.trace s

theorem At.valid {m : Machine τ} {s : Session} (h : At m s) : s.Valid :=
  Monitor.induction (P := fun _ s => Session.Valid s) Session.init_valid
    (fun _ _ _ _ hvalid hnext => hvalid.change (Session.next_change hnext)) h

section Recording

variable {env : Environment τ} {m : Machine τ} {s s' : Session}

theorem At.update (h : At m s) (f : Engine τ → Engine τ) : At (m.update f) s := h

theorem At.requestCancel (h : At m s) : At m.requestCancel s :=
  Monitor.accepts_snoc.mpr ⟨s, h, rfl⟩

theorem At.record (h : At m s) {entry : Entry τ} (hnext : s.next entry = some s') :
    At (m.record env entry) s' := by
  have happended : At { m with trace := m.trace ++ [entry] } s' :=
    Monitor.accepts_snoc.mpr ⟨s, h, hnext⟩
  rw [Machine.record]
  split
  · exact happended.requestCancel
  · exact happended

/-- An entry that the monitor lets pass unchanged. -/
theorem At.pass (h : At m s) {entry : Entry τ} {p : Prop} [Decidable p]
    (hentry : s.next entry = Session.require p s) (hp : p) : At (m.record env entry) s :=
  h.record (hentry.trans (Session.require_eq_some.mpr ⟨hp, rfl⟩))

theorem At.emitStatus (h : At m s) (hstage : s.stage ≠ .reported) (phase : Phase) :
    At (m.emitStatus env phase) s :=
  h.pass rfl hstage

end Recording

/-! ### Terminating -/

/-- The engine has reported its result and the monitor has accepted it. -/
structure Finished (m : Machine τ) : Prop where
  finished : m.engine.finished = true
  accepts : ∃ s, At m s ∧ s.stage = .reported

/-- What a termination needs to know: what is still to be stopped and shut down. -/
structure Live (e : Engine τ) (s : Session) : Prop where
  finished : e.finished = false
  released : s.released = true
  stage : if e.sdkInitialized then s.stage = .up else s.stage = .idle
  calibrating : if e.calibrating then ∃ c, s.current = some c ∧ c.glove = e.glove
    else s.current = none
  initialized : e.calibrating = true → e.sdkInitialized = true

theorem Live.not_reported {e : Engine τ} {s : Session} (h : Live e s) : s.stage ≠ .reported := by
  have hstage := h.stage
  intro hreported
  rw [hreported] at hstage
  split at hstage
  · cases hstage
  · cases hstage

/-- The locals of a termination agree with the session. -/
structure TeardownOk (t : Machine.Teardown τ) (s : Session) : Prop where
  accepts : At t.machine s
  finished : t.machine.engine.finished = false
  released : t.released = s.released
  completed : t.outcome = .completed → s.released = true ∧ t.error = none ∧
    s.files = t.machine.engine.exported ∧ s.command ≠ none ∧ s.files.length = s.sides.length
  cancelled : t.outcome = .cancelled → s.released = true ∧ t.error = none
  failed : t.outcome = .failed → t.error ≠ none

section Teardown

variable {t : Machine.Teardown τ} {s : Session}

theorem release_ok (h : TeardownOk t s) {m : Machine τ} {s' : Session} (hat : At m s')
    (hfinished : m.engine.finished = false)
    (hexported : m.engine.exported = t.machine.engine.exported) {status : SdkStatus}
    (hreleased : s'.released = (s.released && status.ok)) (hfiles : s'.files = s.files)
    (hcommand : s'.command = s.command) {promised : Bool}
    (hpromised : t.outcome ≠ .failed → promised = true) (error : ErrorInfo) :
    TeardownOk (t.release m status promised error) s' := by
  have hreleased' : (t.released && status.ok) = s'.released := by
    rw [h.released, hreleased]
  rw [Machine.Teardown.release]
  split
  · exact ⟨hat, hfinished, hreleased', fun ho => (by cases ho), fun ho => (by cases ho),
      fun _ he => (by cases he)⟩
  · rename_i hnot
    -- an outcome that promised the gloves free survives only a call that succeeded
    have hok : t.outcome ≠ .failed → s'.released = s.released := by
      intro ho
      rw [hpromised ho, Bool.and_true] at hnot
      rw [hreleased, show status.ok = true by simpa using hnot, Bool.and_true]
    refine ⟨hat, hfinished, hreleased', fun ho => ?_, fun ho => ?_, h.failed⟩
    · have hne : t.outcome ≠ .failed := fun hf => (by rw [ho] at hf; cases hf)
      rw [hok hne, Session.sides, hcommand, hfiles, hexported]
      exact h.completed ho
    · have hne : t.outcome ≠ .failed := fun hf => (by rw [ho] at hf; cases hf)
      rw [hok hne]
      exact h.cancelled ho

/-- Stopping the glove that is calibrating.  Nothing is completed while one is. -/
theorem stopCalibrating_ok (env : Environment τ) (h : TeardownOk t s)
    (hlive : Live t.machine.engine s)
    (hcompleted : t.outcome = .completed → t.machine.engine.calibrating = false) :
    ∃ s', TeardownOk (Machine.stopCalibrating env t) s' ∧
      (if (Machine.stopCalibrating env t).machine.engine.sdkInitialized then
        s'.stage = .stopped ∨ s'.stage = .up ∧ s'.current = none else s'.stage = .idle) := by
  have hstage := hlive.stage
  have hcurrent := hlive.calibrating
  by_cases hcalibrating : t.machine.engine.calibrating = true
  · have hinit := hlive.initialized hcalibrating
    rw [if_pos hinit] at hstage
    rw [if_pos hcalibrating] at hcurrent
    obtain ⟨c, hc, hglove⟩ := hcurrent
    -- A completed attempt has stopped calibrating, so this one failed or was cancelled.
    have hpromised : t.outcome ≠ .failed → decide (t.outcome = .cancelled) = true := by
      intro ho
      cases houtcome : t.outcome with
      | cancelled => rfl
      | failed => exact absurd houtcome ho
      | completed =>
        rw [hcompleted houtcome] at hcalibrating
        cases hcalibrating
    -- The monitor takes the stop of the glove at hand, whatever its status is.
    have hstop : ∀ status, s.next (.stop t.machine.engine.glove status : Entry τ)
        = some { s with stage := .stopped, released := s.released && status.ok } := by
      intro status
      rw [Session.next, hc]
      exact Session.require_eq_some.mpr ⟨⟨hstage, hglove⟩, rfl⟩
    rw [Machine.stopCalibrating, if_pos hcalibrating]
    refine ⟨{ s with stage := .stopped, released := s.released && _ },
      release_ok h ((h.accepts.record (hstop _)).update _) ?_ ?_ rfl rfl rfl hpromised _, ?_⟩
    · simpa using h.finished
    · simp
    · have hkept : ∀ m status promised error,
          (t.release m status promised error).machine.engine = m.engine := by
        intro m status promised error
        rw [Machine.Teardown.release]
        split
        · rfl
        · rfl
      rw [hkept]
      split
      · exact Or.inl rfl
      · rename_i hnot
        refine absurd ?_ hnot
        simpa using hinit
  · rw [if_neg hcalibrating] at hcurrent
    rw [Machine.stopCalibrating, if_neg hcalibrating]
    refine ⟨s, h, ?_⟩
    split
    · rename_i hinit
      rw [if_pos hinit] at hstage
      exact Or.inr ⟨hstage, hcurrent⟩
    · rename_i hinit
      rw [if_neg hinit] at hstage
      exact hstage

/-- Shutting the SDK down. -/
theorem shutDown_ok (env : Environment τ) (h : TeardownOk t s)
    (hstage : if t.machine.engine.sdkInitialized then
      s.stage = .stopped ∨ s.stage = .up ∧ s.current = none else s.stage = .idle) :
    ∃ s', TeardownOk (Machine.shutDown env t) s' ∧ (s'.stage = .idle ∨ s'.stage = .down) := by
  by_cases hinit : t.machine.engine.sdkInitialized = true
  · rw [if_pos hinit] at hstage
    have hshutdown : ∀ status, s.next (.shutdown status : Entry τ)
        = some { s with stage := .down, released := s.released && status.ok } := by
      intro status
      exact Session.require_eq_some.mpr ⟨hstage, rfl⟩
    have hpromised : t.outcome ≠ .failed → decide (t.outcome ≠ .failed) = true :=
      fun ho => decide_eq_true ho
    rw [Machine.shutDown, if_pos hinit]
    refine ⟨{ s with stage := .down, released := s.released && _ },
      release_ok h ((h.accepts.record (hshutdown _)).update _) ?_ ?_ rfl rfl rfl hpromised _,
      Or.inr rfl⟩
    · simpa using h.finished
    · simp
  · rw [if_neg hinit] at hstage
    rw [Machine.shutDown, if_neg hinit]
    exact ⟨s, h, Or.inl hstage⟩

end Teardown

section Terminate

variable {env : Environment τ} {m : Machine τ} {s : Session}

/-- **Every termination is accepted.**  One that reports completion has calibrated and
exported all requested sides. -/
theorem terminate_finished (hat : At m s) (hlive : Live m.engine s) {outcome : Outcome}
    {error : Option ErrorInfo}
    (hcompleted : outcome = .completed → m.engine.calibrating = false ∧ error = none ∧
      s.files = m.engine.exported ∧ s.command ≠ none ∧ s.files.length = s.sides.length)
    (hcancelled : outcome = .cancelled → error = none)
    (hfailed : outcome = .failed → error ≠ none) :
    Finished (m.terminate env outcome error) := by
  rw [Machine.terminate, if_neg (by rw [hlive.finished]; exact Bool.false_ne_true)]
  -- the status before the cleanup changes neither engine nor session
  have hstatus : ∃ m₁, m₁ = (if m.engine.attempt = [] then m else m.emitStatus env .stopping) ∧
      m₁.engine = m.engine ∧ At m₁ s := by
    refine ⟨_, rfl, ?_⟩
    split
    · exact ⟨rfl, hat⟩
    · exact ⟨by simp, hat.emitStatus hlive.not_reported _⟩
  obtain ⟨m₁, hm₁, hengine, hat₁⟩ := hstatus
  rw [← hm₁]
  rw [← hengine] at hlive hcompleted
  have hteardown : TeardownOk ⟨m₁, true, outcome, error⟩ s :=
    ⟨hat₁, hlive.finished, hlive.released.symm, fun ho => ⟨hlive.released, (hcompleted ho).2⟩,
      fun ho => ⟨hlive.released, hcancelled ho⟩, hfailed⟩
  obtain ⟨s₁, hstopped, hstage₁⟩ := stopCalibrating_ok env hteardown hlive
    fun ho => (hcompleted ho).1
  obtain ⟨s₂, hdown, hstage₂⟩ := shutDown_ok env hstopped hstage₁
  refine ⟨by simp, { s₂ with stage := .reported }, ?_, rfl⟩
  refine (hdown.accepts.update _).record ?_
  refine Session.require_eq_some.mpr ⟨⟨hstage₂, hdown.released, ?_⟩, rfl⟩
  dsimp only
  cases houtcome : (Machine.shutDown env (Machine.stopCalibrating env
      ⟨m₁, true, outcome, error⟩)).outcome with
  | completed =>
    obtain ⟨hr, he, hfiles, hcommand, hlength⟩ := hdown.completed houtcome
    exact ⟨hr, he, hfiles.symm, hcommand, hlength⟩
  | cancelled =>
    obtain ⟨hr, he⟩ := hdown.cancelled houtcome
    exact ⟨hr, he, rfl⟩
  | failed => exact ⟨hdown.failed houtcome, rfl⟩

theorem fail_finished (hat : At m s) (hlive : Live m.engine s) (code : ErrorCode)
    (message : ByteText) (side : Option Side) (step : Option ℕ) :
    Finished (m.fail env code message side step) :=
  terminate_finished hat hlive (fun ho => (by cases ho)) (fun ho => (by cases ho))
    fun _ he => (by cases he)

/-- A pending cancellation ends the run; without one nothing happens. -/
theorem terminateIfCancelled_ok (hat : At m s) (hlive : Live m.engine s) :
    ∀ stop m', m.terminateIfCancelled env = (stop, m') →
      if stop then Finished m' else m' = m := by
  intro stop m' h
  rw [Machine.terminateIfCancelled] at h
  split at h
  · cases h
    rw [hlive.finished]
    exact if_neg Bool.false_ne_true ▸ rfl
  · cases h
    exact terminate_finished hat hlive (fun ho => (by cases ho)) (fun _ => rfl)
      fun ho => (by cases ho)

/-- A glove that is gone or replaced ends the run; otherwise only the landscape was read. -/
theorem checkGloves_ok (hat : At m s) (hlive : Live m.engine s) (hup : s.stage = .up) :
    ∀ go m', m.checkGloves env = (go, m') →
      if go then m'.engine = m.engine ∧ At m' s else Finished m' := by
  intro go m' h
  have hat' : At (m.record env (.gloves (env.gloves m.trace))) s := hat.pass rfl hup
  have hengine : (m.record env (.gloves (env.gloves m.trace))).engine = m.engine := by simp
  rw [Machine.checkGloves] at h
  split at h
  · cases h
    refine fail_finished hat' ?_ _ _ _ _
    rw [hengine]
    exact hlive
  · cases h
    exact ⟨hengine, hat'⟩

end Terminate

/-! ### Engine and session agree -/

/-- The members of an attempt that no phase changes by itself. -/
structure Agrees (e : Engine τ) (s : Session) : Prop where
  finished : e.finished = false
  released : s.released = true
  attempt : e.attempt = s.attempt
  sides : e.sides = s.sides
  promptSeq : e.promptSeq = s.prompts
  acceptedTokens : e.acceptedTokens = s.accepted
  exported : e.exported = s.files
  counted : s.counted = none

/-- The SDK is up. -/
structure Up (e : Engine τ) (s : Session) : Prop extends Agrees e s where
  stage : s.stage = .up
  initialized : e.sdkInitialized = true

/-- The SDK is up and no glove is calibrating. -/
structure Between (e : Engine τ) (s : Session) : Prop extends Up e s where
  calibrating : e.calibrating = false
  current : s.current = none
  index : e.gloveIndex = s.finished.length
  files : s.files.length = s.finished.length

/-- The gloves are being discovered. -/
structure Discovering (e : Engine τ) (s : Session) : Prop extends Between e s where
  state : e.state = .discovering
  nothingFinished : s.finished = []

/-- The gloves of all requested sides are pinned. -/
def Pinned (e : Engine τ) (s : Session) : Prop := e.pinned.map (fun g => g.side) = s.sides

/-- The glove of `c` is calibrating. -/
structure Calibrating (e : Engine τ) (s : Session) (c : GloveRun) : Prop extends Up e s where
  calibrating : e.calibrating = true
  current : s.current = some c
  glove : c.glove = e.glove
  count : c.count = e.stepCount
  refused : c.refused = false
  index : e.gloveIndex = s.finished.length
  pinned : Pinned e s

/-- Engine and session between two calls. -/
inductive Ready (e : Engine τ) (s : Session) : Prop
  | idle (agrees : Agrees e s) (state : e.state = .idle) (stage : s.stage = .idle)
      (initialized : e.sdkInitialized = false) (calibrating : e.calibrating = false)
      (current : s.current = none) (index : e.gloveIndex = 0)
  | discovering (discovering : Discovering e s)
  | awaiting (c : GloveRun) (calibrating : Calibrating e s c) (state : e.state = .awaitingStep)
      (offered : c.offered = some e.currentToken) (started : c.started = e.stepIndex)
  | capturing (c : GloveRun) (calibrating : Calibrating e s c) (state : e.state = .capturingStep)
      (offered : c.offered = none) (started : c.started = e.stepIndex + 1)

/-- A machine between two calls. -/
def Ok (m : Machine τ) : Prop := Finished m ∨ ∃ s, At m s ∧ Ready m.engine s

section Agreement

variable {e : Engine τ} {s : Session} {c : GloveRun}

theorem Between.live (h : Between e s) : Live e s :=
  ⟨h.finished, h.released, by rw [if_pos h.initialized]; exact h.stage,
    by rw [h.calibrating]; exact h.current, fun hc => (by rw [h.calibrating] at hc; cases hc)⟩

/-- The glove at the current index is that of the next requested side. -/
theorem Between.side (hb : Between e s) (hpinned : Pinned e s)
    (hmore : e.gloveIndex < e.pinned.length) :
    s.sides[s.finished.length]? = some e.glove.side := by
  rw [← hpinned, ← hb.index, List.getElem?_map, List.getElem?_eq_getElem hmore, Engine.glove,
    List.getD_eq_getElem?_getD, List.getElem?_eq_getElem hmore]
  rfl

theorem Calibrating.live (h : Calibrating e s c) : Live e s :=
  ⟨h.finished, h.released, by rw [if_pos h.initialized]; exact h.stage,
    by rw [if_pos h.calibrating]; exact ⟨c, h.current, h.glove⟩, fun _ => h.initialized⟩

theorem Ready.agrees (h : Ready e s) : Agrees e s := by
  cases h with
  | idle agrees _ _ _ _ _ _ => exact agrees
  | discovering discovering => exact discovering.toAgrees
  | awaiting c calibrating _ _ _ => exact calibrating.toAgrees
  | capturing c calibrating _ _ _ => exact calibrating.toAgrees

/-- The last input is not part of the agreement. -/
theorem Ready.input (h : Ready e s) (input : Input) :
    Ready e { s with lastInput := some input } := by
  cases h with
  | idle agrees state stage initialized calibrating current index =>
    exact .idle { agrees with } state stage initialized calibrating current index
  | discovering discovering => exact .discovering { discovering with }
  | awaiting c calibrating state offered started =>
    exact .awaiting c { calibrating with } state offered started
  | capturing c calibrating state offered started =>
    exact .capturing c { calibrating with } state offered started

theorem Ready.live (h : Ready e s) : Live e s := by
  cases h with
  | idle agrees _ stage initialized calibrating current _ =>
    refine ⟨agrees.finished, agrees.released, ?_, ?_, ?_⟩
    · rw [initialized]
      exact stage
    · rw [calibrating]
      exact current
    · intro hc
      rw [calibrating] at hc
      cases hc
  | discovering discovering => exact discovering.live
  | awaiting c calibrating _ _ _ => exact calibrating.live
  | capturing c calibrating _ _ _ => exact calibrating.live

end Agreement

section Methods

variable {env : Environment τ} {m : Machine τ} {s : Session} {c : GloveRun} [CppDouble τ]
  {config : EngineConfig τ}

/-- **`offer_prompt`**: the next step of the glove is read and offered. -/
theorem offerPrompt_ok (hat : At m s) (hc : Calibrating m.engine s c) (hoffered : c.offered = none)
    (hstarted : c.started = m.engine.stepIndex) (hlt : m.engine.stepIndex < m.engine.stepCount) :
    Ok (m.offerPrompt env config) := by
  rcases hdata : env.stepData m.trace m.engine.glove.gloveId m.engine.stepIndex with ⟨read, step⟩
  have hat₁ : At (m.record env (.stepData m.engine.glove m.engine.stepIndex read step)) s :=
    hat.pass rfl hc.stage
  have hlive :
      Live (m.record env (.stepData m.engine.glove m.engine.stepIndex read step)).engine s := by
    rw [Machine.record_engine]
    exact hc.live
  rw [Machine.offerPrompt]
  simp only [hdata]
  split
  · exact Or.inl (fail_finished hat₁ hlive _ _ _ _)
  split
  · exact Or.inl (fail_finished hat₁ hlive _ _ _ _)
  -- the counter of prompts does not wrap around
  have hseq : (m.engine.promptSeq + 1) % 2 ^ 64 = s.prompts + 1 := by
    have hlt := hat.valid.prompts_lt hc.current
    rw [hc.promptSeq]
    exact Nat.mod_eq_of_lt (by omega)
  simp only [Machine.record_engine, Machine.update_engine, Machine.emitStatus_engine, hseq]
  right
  let token := m.engine.attempt ++ lit "-" ++ decimal (s.prompts + 1)
  let s' : Session :=
    { s with prompts := s.prompts + 1, current := some { c with offered := some token } }
  refine ⟨s', ?_, ?_⟩
  · refine At.record ((hat₁.update _).emitStatus (s := s) ?_ _) ?_
    · rw [hc.stage]
      exact fun h => (by cases h)
    · rw [Session.next, Session.nextEvent, hc.current]
      refine Session.require_eq_some.mpr ⟨⟨hc.stage, hoffered, hc.refused, ?_, hc.attempt, ?_, ?_,
        hstarted.symm, hc.count.symm, ?_⟩, rfl⟩
      · rw [hstarted, hc.count]
        exact hlt
      · rw [hc.glove]
      · rw [hc.glove]
      · rw [Session.promptToken, ← hc.attempt]
  · simp only [Machine.emit_engine, Machine.emitStatus_engine, Machine.update_engine,
      Machine.record_engine]
    refine Ready.awaiting { c with offered := some token } ?_ rfl rfl hstarted
    exact { hc with
            promptSeq := rfl
            current := rfl }

/-- The loop over the steps of a glove: it ends the run or only reads. -/
theorem checkSteps_ok {glove : GloveRef} {remaining index : ℕ} (hat : At m s)
    (hlive : Live m.engine s) (hup : s.stage = .up) :
    ∀ go m', Machine.checkSteps env glove remaining index m = (go, m') →
      if go then m'.engine = m.engine ∧ At m' s else Finished m' := by
  induction remaining generalizing index m with
  | zero =>
    intro go m' h
    cases h
    exact ⟨rfl, hat⟩
  | succ remaining ih =>
    intro go m' h
    rcases hdata : env.stepData m.trace glove.gloveId index with ⟨read, step⟩
    -- Reading a step changes neither the engine nor the session.
    have hat₁ : At (m.record env (.stepData glove index read step)) s := hat.pass rfl hup
    have hengine : (m.record env (.stepData glove index read step)).engine = m.engine := by simp
    rw [← hengine] at hlive
    rw [Machine.checkSteps] at h
    simp only [hdata] at h
    split at h
    · cases h
      exact fail_finished hat₁ hlive _ _ _ _
    split at h
    · cases h
      exact fail_finished hat₁ hlive _ _ _ _
    have hrest := ih hat₁ hlive go m' h
    rw [hengine] at hrest
    exact hrest

/-- The counted glove is started. -/
theorem startGlove_ok {count : UInt32}
    (hat : At m { s with counted := some (m.engine.glove, count.toNat) })
    (hb : Between m.engine s) (hpinned : Pinned m.engine s) (hne : count ≠ 0) :
    Ok (m.startGlove env config m.engine.glove count) := by
  rw [Machine.startGlove]
  cases hstart : (env.start m.trace m.engine.glove.gloveId).ok with
  | false =>
    simp only [Bool.not_false, if_true]
    have hat₁ : At (m.record env (.start m.engine.glove
        (env.start m.trace m.engine.glove.gloveId)))
        { s with counted := some (m.engine.glove, count.toNat) } := by
      refine hat.record ?_
      rw [Session.next, hstart]
      exact Session.require_eq_some.mpr ⟨hb.stage, rfl⟩
    refine Or.inl (fail_finished hat₁ ?_ _ _ _ _)
    rw [Machine.record_engine]
    have hlive := hb.live
    exact { hlive with }
  | true =>
    simp only [Bool.not_true, Bool.false_eq_true, if_false]
    -- A run of the glove begins, with no step started.
    let c : GloveRun := ⟨m.engine.glove, count.toNat, 0, none, false⟩
    have hat₁ : At (m.record env (.start m.engine.glove
        (env.start m.trace m.engine.glove.gloveId)))
        { s with counted := none, current := some c } := by
      refine hat.record ?_
      rw [Session.next, hstart]
      exact Session.require_eq_some.mpr ⟨⟨hb.stage, rfl⟩, rfl⟩
    have hc : Calibrating ((m.record env (.start m.engine.glove
        (env.start m.trace m.engine.glove.gloveId))).update fun e =>
          { e with calibrating := true, stepCount := count.toNat, stepIndex := 0 }).engine
        { s with counted := none, current := some c } c := by
      rw [Machine.update_engine, Machine.record_engine]
      exact
        { hb with
          counted := rfl
          calibrating := rfl
          current := rfl
          glove := rfl
          count := rfl
          refused := rfl
          pinned := hpinned }
    -- A glove without steps was refused before.
    have hpos : 0 < count.toNat := by
      rcases Nat.eq_zero_or_pos count.toNat with hzero | hpos
      · exact absurd (UInt32.toNat.inj (by simpa using hzero)) hne
      · exact hpos
    split
    · rename_i m' hsteps
      have hfinished := checkSteps_ok (hat₁.update _) hc.live hc.stage _ _ hsteps
      exact Or.inl hfinished
    · rename_i m' hsteps
      obtain ⟨hengine, hat'⟩ := checkSteps_ok (hat₁.update _) hc.live hc.stage _ _ hsteps
      rw [← hengine] at hc
      refine offerPrompt_ok hat' hc rfl ?_ ?_
      · rw [hengine]
        rfl
      · rw [hengine]
        exact hpos

/-- **`begin_glove`**: the next glove is started and its first step offered. -/
theorem beginGlove_ok (hat : At m s) (hb : Between m.engine s) (hpinned : Pinned m.engine s)
    (hmore : m.engine.gloveIndex < m.engine.pinned.length) : Ok (m.beginGlove env config) := by
  rcases hcount : env.stepCount m.trace m.engine.glove.gloveId with ⟨counted, count⟩
  have hengine : (m.record env (.stepCount m.engine.glove counted count)).engine = m.engine := by
    simp
  rw [Machine.beginGlove]
  simp only [hcount]
  cases hok : counted.ok with
  | false =>
    simp only [Bool.not_false, if_true]
    -- The monitor lets the failed query pass.
    have hat₁ : At (m.record env (.stepCount m.engine.glove counted count)) s := by
      refine hat.record ?_
      rw [Session.next, hok]
      exact Session.require_eq_some.mpr ⟨hb.stage, rfl⟩
    refine Or.inl (fail_finished hat₁ ?_ _ _ _ _)
    rw [hengine]
    exact hb.live
  | true =>
    simp only [Bool.not_true, Bool.false_eq_true, if_false]
    have hat₁ : At (m.record env (.stepCount m.engine.glove counted count))
        { s with counted := some (m.engine.glove, count.toNat) } := by
      refine hat.record ?_
      rw [Session.next, hok]
      exact Session.require_eq_some.mpr ⟨⟨hb.stage, hb.current, hb.counted, hb.files,
        hb.side hpinned hmore⟩, rfl⟩
    generalize m.record env (.stepCount m.engine.glove counted count) = m₁ at hat₁ hengine
    rw [← hengine] at hat₁ hb hpinned ⊢
    split
    · have hlive := hb.live
      exact Or.inl (fail_finished hat₁ { hlive with } _ _ _ _)
    · rename_i hne
      exact startGlove_ok hat₁ hb hpinned hne

/-- The last glove was finished, and its file is not written yet. -/
structure Saving (e : Engine τ) (s : Session) (glove : GloveRef) : Prop extends Up e s where
  calibrating : e.calibrating = false
  current : s.current = none
  finishedLength : s.finished.length = e.gloveIndex + 1
  filesLength : s.files.length = e.gloveIndex
  last : ∃ count, s.finished.getLast? = some (glove, count)
  pinned : Pinned e s

omit [CppDouble τ] in
theorem Saving.live {e : Engine τ} {glove : GloveRef} (h : Saving e s glove) : Live e s :=
  ⟨h.finished, h.released, by rw [if_pos h.initialized]; exact h.stage,
    by rw [h.calibrating]; exact h.current, fun hc => (by rw [h.calibrating] at hc; cases hc)⟩

/-- After a file is written: on to the next glove, or all of them are done. -/
theorem nextGlove_ok (hat : At m s)
    (hb : Between { m.engine with gloveIndex := m.engine.gloveIndex + 1 } s)
    (hpinned : Pinned m.engine s) : Ok (m.nextGlove env config) := by
  rw [Machine.nextGlove]
  let m' := m.update fun e => { e with gloveIndex := e.gloveIndex + 1 }
  have hat' : At m' s := hat
  have hb' : Between m'.engine s := hb
  show Ok (if m'.engine.gloveIndex < m'.engine.pinned.length then _ else _)
  split
  · rename_i hmore
    split
    · rename_i m₁ hcancel
      exact Or.inl (terminateIfCancelled_ok hat' hb'.live _ _ hcancel)
    · rename_i m₁ hcancel
      obtain rfl := terminateIfCancelled_ok hat' hb'.live _ _ hcancel
      exact beginGlove_ok hat' hb' hpinned hmore
  · rename_i hdone
    refine Or.inl (terminate_finished hat' hb'.live (fun _ => ?_) (fun ho => (by cases ho))
      fun ho => (by cases ho))
    refine ⟨hb.calibrating, rfl, hb.exported.symm, hat.valid.up hb.stage, ?_⟩
    -- every pinned glove is finished, and no more gloves than sides
    have hlength : m'.engine.pinned.length = s.sides.length := by
      have hmap := congrArg List.length hpinned
      rw [List.length_map] at hmap
      exact hmap
    have hle := congrArg List.length hat.valid.finishedSides
    rw [List.length_map, List.length_take] at hle
    have hindex := hb'.index
    have hfiles := hb'.files
    omega

theorem saveGlove_ok {glove : GloveRef} (hat : At m s) (hs : Saving m.engine s glove)
    (bytes : List UInt8) : Ok (m.saveGlove env config glove bytes) := by
  obtain ⟨count, hlast⟩ := hs.last
  let basename := m.engine.attempt ++ lit "_" ++ sideName glove.side ++ lit ".mcal"
  let file : ResultFile := ⟨glove.side, basename, bytes.length, sha256Hex bytes⟩
  -- The monitor counts the file when the write succeeds.
  have hwritten : At (m.record env (.write m.engine.outDir basename bytes none))
      { s with files := s.files ++ [file] } := by
    refine hat.record ?_
    rw [Session.next, hlast]
    refine Session.require_eq_some.mpr ⟨⟨hs.stage, ?_⟩, rfl⟩
    rw [hs.finishedLength, hs.filesLength]
  -- It lets a failed write pass.
  have hunwritten : ∀ error,
      At (m.record env (.write m.engine.outDir basename bytes (some error))) s :=
    fun error => hat.pass rfl hs.stage
  rw [Machine.saveGlove]
  dsimp only
  split
  · rename_i error herror
    rw [herror]
    refine Or.inl (fail_finished (hunwritten error) ?_ _ _ _ _)
    rw [Machine.record_engine]
    exact hs.live
  · rename_i herror
    rw [herror]
    refine nextGlove_ok (s := { s with files := s.files ++ [file] }) ?_ ?_ ?_
    · refine At.pass (hwritten.update _) rfl ⟨?_, List.getLast?_concat⟩
      exact Session.ne_reported_of_up hs.stage
    · simp only [Machine.emit_engine, Machine.update_engine, Machine.record_engine]
      exact
        { hs with
          exported := congrArg (· ++ [file]) hs.exported
          index := hs.finishedLength.symm
          files := by
            show (s.files ++ [file]).length = s.finished.length
            rw [List.length_append, List.length_singleton, hs.filesLength, hs.finishedLength] }
    · simp only [Machine.emit_engine, Machine.update_engine, Machine.record_engine]
      exact hs.pinned

theorem exportGlove_ok {glove : GloveRef} (hat : At m s) (hs : Saving m.engine s glove) :
    Ok (m.exportGlove env config glove) := by
  rcases hexport : env.exportCalibration m.trace glove.gloveId with ⟨exported, bytes⟩
  have hat₁ : At (m.record env (.exportCalibration glove exported bytes)) s := hat.pass rfl hs.stage
  have hs₁ : Saving (m.record env (.exportCalibration glove exported bytes)).engine s glove := by
    rw [Machine.record_engine]
    exact hs
  rw [Machine.exportGlove]
  simp only [hexport]
  split
  · exact Or.inl (fail_finished hat₁ hs₁.live _ _ _ _)
  split
  · exact Or.inl (fail_finished hat₁ hs₁.live _ _ _ _)
  split
  · rename_i m₁ hcancel
    exact Or.inl (terminateIfCancelled_ok hat₁ hs₁.live _ _ hcancel)
  · rename_i m₁ hcancel
    obtain rfl := terminateIfCancelled_ok hat₁ hs₁.live _ _ hcancel
    exact saveGlove_ok hat₁ hs₁ bytes

/-- **`finish_glove`**: all steps of the glove are done, its calibration is finished,
exported and saved. -/
theorem finishGlove_ok (hat : At m s) (hc : Calibrating m.engine s c) (hoffered : c.offered = none)
    (hstarted : c.started = c.count) : Ok (m.finishGlove env config) := by
  rw [Machine.finishGlove]
  dsimp only
  split
  · rename_i m₁ hcheck
    exact Or.inl (checkGloves_ok hat hc.live hc.stage _ _ hcheck)
  · rename_i m₁ hcheck
    obtain ⟨hengine, hat₁⟩ := checkGloves_ok hat hc.live hc.stage _ _ hcheck
    rw [← hengine] at hc ⊢
    cases hfinish : (env.finish m₁.trace m₁.engine.glove.gloveId).ok with
    | false =>
      simp only [Bool.not_false, if_true]
      have hat₂ : At (m₁.record env (.finish m₁.engine.glove
          (env.finish m₁.trace m₁.engine.glove.gloveId))) s := by
        refine hat₁.record ?_
        rw [Session.next, hc.current, hfinish]
        exact Session.require_eq_some.mpr ⟨⟨hc.stage, hc.glove⟩, rfl⟩
      refine Or.inl (fail_finished hat₂ ?_ _ _ _ _)
      rw [Machine.record_engine]
      exact hc.live
    | true =>
      simp only [Bool.not_true, Bool.false_eq_true, if_false]
      -- The run of the glove goes over to the finished ones.
      let s' : Session :=
        { s with current := none, finished := s.finished ++ [(m₁.engine.glove, c.count)] }
      have hat₂ : At (m₁.record env (.finish m₁.engine.glove
          (env.finish m₁.trace m₁.engine.glove.gloveId))) s' := by
        refine hat₁.record ?_
        rw [Session.next, hc.current, hfinish]
        exact Session.require_eq_some.mpr
          ⟨⟨hc.stage, hc.glove, hstarted, hoffered, hc.refused⟩, rfl⟩
      have hs' : Saving ({ m₁.engine with calibrating := false, state := .saving }) s'
          m₁.engine.glove :=
        { hc with
          calibrating := rfl
          current := rfl
          finishedLength := by
            show (s.finished ++ [_]).length = m₁.engine.gloveIndex + 1
            rw [List.length_append, List.length_singleton, hc.index]
          filesLength := by
            show s.files.length = m₁.engine.gloveIndex
            rw [(hat.valid.currentSide c hc.current).2.1, hc.index]
          last := ⟨c.count, List.getLast?_concat⟩ }
      have hstage : s'.stage ≠ .reported := Session.ne_reported_of_up hs'.stage
      let m₂ := ((m₁.record env (.finish m₁.engine.glove
        (env.finish m₁.trace m₁.engine.glove.gloveId))).update fun e =>
          { e with calibrating := false, state := .saving }).emitStatus env .saving
      have hat₃ : At m₂ s' := (hat₂.update _).emitStatus hstage _
      have hs₂ : Saving m₂.engine s' m₁.engine.glove := by
        show Saving (Machine.emitStatus env _ _).engine s' _
        simp only [Machine.emitStatus_engine, Machine.update_engine, Machine.record_engine]
        exact hs'
      split
      · -- A cancellation is seen once more before the export.
        rename_i m₃ hcancel
        exact Or.inl (terminateIfCancelled_ok hat₃ hs₂.live _ _ hcancel)
      · rename_i m₃ hcancel
        obtain rfl := terminateIfCancelled_ok hat₃ hs₂.live _ _ hcancel
        exact exportGlove_ok hat₃ hs₂

/-- **`step_done`**: the next step is offered, or the glove is finished. -/
theorem stepDone_ok (hat : At m s) (hc : Calibrating m.engine s c) (hoffered : c.offered = none)
    (hstarted : c.started = m.engine.stepIndex + 1) : Ok (m.stepDone env config) := by
  have hsteps := hat.valid.currentSteps c hc.current
  have hcount := hat.valid.currentCount c hc.current
  rw [GloveRun.offers_none hoffered, hstarted] at hsteps
  have hindex : (m.engine.stepIndex + 1) % 2 ^ 32 = m.engine.stepIndex + 1 :=
    Nat.mod_eq_of_lt (by omega)
  rw [Machine.stepDone]
  simp only [Machine.update_engine, hindex]
  split
  · rename_i hlt
    have hlt' : (m.engine.stepIndex + 1) % 2 ^ 32 < m.engine.stepCount := by
      rw [hindex]
      exact hlt
    exact offerPrompt_ok (hat.update _) { hc with } hoffered (hstarted.trans hindex.symm) hlt'
  · rename_i hge
    have hlast : c.started = c.count := by
      rw [hstarted]
      rw [← hc.count] at hge
      omega
    exact finishGlove_ok (hat.update _) { hc with } hoffered hlast

/-- **`advance_capture`**: the step is paced, and done when its window is over. -/
theorem advanceCapture_ok (hat : At m s) (hc : Calibrating m.engine s c)
    (hstate : m.engine.state = .capturingStep) (hoffered : c.offered = none)
    (hstarted : c.started = m.engine.stepIndex + 1) : Ok (m.advanceCapture env config) := by
  have hstage : s.stage ≠ .reported := Session.ne_reported_of_up hc.stage
  rw [Machine.advanceCapture]
  have hat₁ : At (m.record env (.clock (env.nowS m.trace))) s := hat.pass rfl hstage
  rw [← Machine.record_engine env m (.clock (env.nowS m.trace))] at hc hstate hstarted
  generalize m.record env (.clock (env.nowS m.trace)) = m₁ at hat₁ hc hstate hstarted
  -- a progress report changes only the time of the last one
  have hprogress : ∀ (report : Bool) (now elapsed : τ),
      At (if report then m₁.reportProgress env now elapsed else m₁) s ∧
        Calibrating (if report then m₁.reportProgress env now elapsed else m₁).engine s c ∧
        (if report then m₁.reportProgress env now elapsed else m₁).engine.state = .capturingStep ∧
        c.started
          = (if report then m₁.reportProgress env now elapsed else m₁).engine.stepIndex + 1 := by
    intro report now elapsed
    split
    · rw [Machine.reportProgress, Machine.emit_engine]
      exact ⟨(hat₁.update _).pass rfl hstage, { hc with }, hstate, hstarted⟩
    · exact ⟨hat₁, hc, hstate, hstarted⟩
  split
  · exact stepDone_ok (hprogress _ _ _).1 (hprogress _ _ _).2.1 hoffered (hprogress _ _ _).2.2.2
  · exact Or.inr ⟨s, (hprogress _ _ _).1, Ready.capturing c (hprogress _ _ _).2.1
      (hprogress _ _ _).2.2.1 hoffered (hprogress _ _ _).2.2.2⟩

/-! ### Discovery -/

omit [CppDouble τ] in
/-- When no side is missing, the found gloves are those of the sides, in order. -/
theorem foundGloves_sides {landscape : List SdkGlove} {sides : List Side}
    (h : Machine.missingSides landscape sides = []) :
    (Machine.foundGloves landscape sides).map (fun g => g.side) = sides := by
  induction sides with
  | nil => rfl
  | cons side rest ih =>
    rw [Machine.missingSides, List.filter_cons] at h
    rw [Machine.foundGloves, List.filterMap_cons]
    cases hfind : landscape.find? fun g => g.side = side with
    | none =>
      rw [hfind] at h
      cases h
    | some g =>
      rw [hfind] at h
      exact congrArg (side :: ·) (ih h)

omit [CppDouble τ] in
theorem reportGloves_ok (env : Environment τ) (hat : At m s) (hd : Discovering m.engine s)
    (found : List GloveRef) :
    At (m.reportGloves env found) s ∧ Discovering (m.reportGloves env found).engine s ∧
      (m.reportGloves env found).engine.connected = m.engine.connected := by
  rw [Machine.reportGloves]
  split
  · rw [Machine.emitStatus_engine]
    refine ⟨(hat.update _).emitStatus ?_ _, { hd with }, rfl⟩
    exact Session.ne_reported_of_up hd.stage
  · exact ⟨hat, hd, rfl⟩

/-- The end of a discovery poll, when the found gloves are those of the sides unless some
are missing. -/
theorem settleDiscovery_ok (hat : At m s) (hd : Discovering m.engine s) (now : τ)
    {found : List GloveRef} {missing : List Side}
    (hfound : m.engine.connected = true → missing = [] →
      found.map (fun g => g.side) = m.engine.sides) :
    Ok (m.settleDiscovery env config now found missing) := by
  obtain ⟨hat₁, hd₁, hconnected⟩ := reportGloves_ok env hat hd found
  rw [Machine.settleDiscovery]
  dsimp only
  split
  · rename_i hall
    rw [hconnected, Bool.and_eq_true, List.isEmpty_iff] at hall
    have hpinned : found.map (fun g => g.side) = s.sides :=
      (hfound hall.1 hall.2).trans hd.sides
    refine beginGlove_ok (hat₁.update _) { hd₁ with } hpinned ?_
    show (m.reportGloves env found).engine.gloveIndex < found.length
    rw [hd₁.index, hd.nothingFinished]
    -- a start command requests at least one side
    have hlength := congrArg List.length hpinned
    rw [List.length_map] at hlength
    rw [hlength, Session.sides]
    cases hcommand : s.command with
    | none => exact absurd hcommand (hat.valid.up hd.stage)
    | some command => exact List.length_pos_of_ne_nil command.sides_ne_nil
  · split
    · exact Or.inl (fail_finished hat₁ hd₁.live _ _ _ _)
    · exact Or.inr ⟨s, hat₁, Ready.discovering hd₁⟩

theorem discover_ok (hat : At m s) (hd : Discovering m.engine s) (now : τ) :
    Ok (m.discover env config now) := by
  rw [Machine.discover]
  split
  · have hat₁ : At (m.record env (.gloves (env.gloves m.trace))) s := hat.pass rfl hd.stage
    rw [← Machine.record_engine env m (.gloves (env.gloves m.trace))] at hd
    exact settleDiscovery_ok hat₁ hd now fun _ hmissing => foundGloves_sides hmissing
  · rename_i hconnected
    exact settleDiscovery_ok hat hd now fun h => absurd h hconnected

/-- **`poll_discovery`** -/
theorem pollDiscovery_ok (hat : At m s) (hd : Discovering m.engine s) :
    Ok (m.pollDiscovery env config) := by
  have hstage : s.stage ≠ .reported := Session.ne_reported_of_up hd.stage
  rw [Machine.pollDiscovery]
  have hat₁ : At (m.record env (.clock (env.nowS m.trace))) s := hat.pass rfl hstage
  rw [← Machine.record_engine env m (.clock (env.nowS m.trace))] at hd
  dsimp only
  split
  · -- one connection attempt
    let m₁ := (m.record env (.clock (env.nowS m.trace))).update fun e =>
      { e with lastConnectS := env.nowS m.trace }
    have hat₂ : At (m₁.record env (.connect (env.connect m₁.trace))) s :=
      (hat₁.update _).pass rfl hd.stage
    have hd₂ : Discovering (m₁.record env (.connect (env.connect m₁.trace))).engine s := by
      rw [Machine.record_engine]
      exact { hd with }
    split
    · exact Or.inl (fail_finished hat₂ hd₂.live _ _ _ _)
    · refine discover_ok (hat₂.update _) ?_ _
      exact { hd₂ with }
  · exact discover_ok hat₁ hd _

/-! ### Commands -/

omit [CppDouble τ] in
/-- A rejection changes nothing. -/
theorem reject_ok (hat : At m s) (hready : Ready m.engine s) (command attempt : ByteText)
    (reason : RejectReason) (message : ByteText) (token : Option ByteText) :
    Ok (m.reject env command attempt reason message token) := by
  refine Or.inr ⟨s, hat.pass rfl hready.live.not_reported, ?_⟩
  rw [Machine.reject, Machine.emit_engine]
  exact hready

/-- An idle engine opens the attempt: the session follows with the call that initializes
the SDK. -/
theorem openAttempt_ok (env : Environment τ) (config : EngineConfig τ) (hat : At m s)
    (hready : Ready m.engine s) (hidle : m.engine.state = .idle) (command : StartCommand) :
    At (m.openAttempt env config command) s ∧ s.stage = .idle ∧
      Discovering (m.openAttempt env config command).engine
        { s with stage := .up, command := some command } := by
  cases hready with
  | discovering hd =>
    rw [hd.state] at hidle
    cases hidle
  | awaiting c hc hstate _ _ =>
    rw [hstate] at hidle
    cases hidle
  | capturing c hc hstate _ _ =>
    rw [hstate] at hidle
    cases hidle
  | idle hagrees _ hstage _ hcalibrating hcurrent hindex =>
    -- Only an idle engine opens an attempt, and an idle monitor has no files and no gloves.
    have hnot : s.stage ≠ .reported := fun h => (by rw [hstage] at h; cases h)
    obtain ⟨-, -, hfinished, -, -, hfiles, -⟩ := hat.valid.fresh (hat.valid.idle hstage)
    rw [Machine.openAttempt]
    refine ⟨?_, hstage, ?_⟩
    · refine At.update (At.emitStatus (At.update ?_ _) hnot _) _
      exact At.pass (hat.update _) rfl hnot
    · simp only [Machine.update_engine, Machine.emitStatus_engine, Machine.record_engine]
      exact
        { hagrees with
          attempt := rfl
          sides := rfl
          stage := rfl
          initialized := rfl
          calibrating := hcalibrating
          current := hcurrent
          index := by
            show m.engine.gloveIndex = s.finished.length
            rw [hindex, hfinished]
            rfl
          files := by
            show s.files.length = s.finished.length
            rw [hfiles, hfinished]
            rfl
          state := rfl
          nothingFinished := hfinished }

/-- **`begin_attempt`**, on the start command that is being handled. -/
theorem beginAttempt_ok (hat : At m s) (hready : Ready m.engine s) {command : StartCommand}
    (hinput : s.lastInput = some (.handle (.start command))) :
    Ok (m.beginAttempt env config command) := by
  rw [Machine.beginAttempt]
  split
  · exact reject_ok hat hready _ _ _ _ _
  · rename_i hidle
    have hidle : m.engine.state = .idle := not_not.mp hidle
    -- The question about the directory passes the monitor.
    have hat₁ : At (m.record env (.directoryUsable command.outDir
        (env.directoryUsable m.trace command.outDir))) s :=
      hat.pass rfl hready.live.not_reported
    rw [← Machine.record_engine env m (.directoryUsable command.outDir
      (env.directoryUsable m.trace command.outDir))] at hready hidle
    dsimp only
    split
    · exact reject_ok hat₁ hready _ _ _ _ _
    · obtain ⟨hopen, hstage, hd⟩ := openAttempt_ok env config hat₁ hready hidle command
      generalize Machine.openAttempt env config _ command = m₂ at hopen hd
      -- The SDK comes up, whatever it answers.
      have hat₂ : ∀ init, At (m₂.record env (.initializeSdk init))
          { s with stage := .up, command := some command } := by
        intro init
        refine hopen.record ?_
        rw [Session.next, hinput]
        exact Session.require_eq_some.mpr ⟨hstage, rfl⟩
      split
      · refine Or.inl (fail_finished (hat₂ _) ?_ _ _ _ _)
        rw [Machine.record_engine]
        exact hd.live
      · refine Or.inr ⟨_, hat₂ _, Ready.discovering ?_⟩
        rw [Machine.record_engine]
        exact hd

/-- The offered step is started on its confirmation. -/
theorem startConfirmed_ok (hat : At m s) (hc : Calibrating m.engine s c)
    {confirm : ConfirmCommand} (hoffered : c.offered = some confirm.token)
    (hstarted : c.started = m.engine.stepIndex)
    (hinput : s.lastInput = some (.handle (.confirm confirm)))
    (hattempt : confirm.attempt = s.attempt) (hnew : confirm.token ∉ s.accepted) :
    Ok (m.startConfirmed env config confirm.token) := by
  rw [Machine.startConfirmed]
  cases hstart : (env.startStep m.trace m.engine.glove.gloveId m.engine.stepIndex).ok with
  | false =>
    simp only [Bool.not_false, if_true]
    let c' : GloveRun := { c with started := c.started + 1, offered := none, refused := true }
    have hat₁ : At (m.record env (.startStep m.engine.glove m.engine.stepIndex
        (env.startStep m.trace m.engine.glove.gloveId m.engine.stepIndex)))
        { s with current := some c' } := by
      refine hat.record ?_
      rw [Session.next, hc.current, hinput, hstart]
      exact Session.require_eq_some.mpr ⟨⟨hc.stage, hc.glove, hstarted, hoffered, hc.refused,
        hattempt, hnew⟩, by simp [c']⟩
    refine Or.inl (fail_finished hat₁ ?_ _ _ _ _)
    rw [Machine.record_engine]
    have hlive := hc.live
    exact
      { hlive with
        calibrating := by
          rw [if_pos hc.calibrating]
          exact ⟨c', rfl, hc.glove⟩ }
  | true =>
    simp only [Bool.not_true, Bool.false_eq_true, if_false]
    let c' : GloveRun := { c with started := c.started + 1, offered := none }
    let s' : Session :=
      { s with current := some c', accepted := s.accepted ++ [confirm.token] }
    have hnot : s'.stage ≠ .reported := Session.ne_reported_of_up hc.stage
    have hat₁ : At (m.record env (.startStep m.engine.glove m.engine.stepIndex
        (env.startStep m.trace m.engine.glove.gloveId m.engine.stepIndex))) s' := by
      refine hat.record ?_
      rw [Session.next, hc.current, hinput, hstart]
      exact Session.require_eq_some.mpr ⟨⟨hc.stage, hc.glove, hstarted, hoffered, hc.refused,
        hattempt, hnew⟩, by simp [s', c', hinput]⟩
    have hc' : Calibrating
        { m.engine with acceptedTokens := m.engine.acceptedTokens ++ [confirm.token] } s' c' :=
      { hc with
        acceptedTokens := congrArg (· ++ [confirm.token]) hc.acceptedTokens
        current := rfl }
    let m₁ := ((m.record env (.startStep m.engine.glove m.engine.stepIndex
      (env.startStep m.trace m.engine.glove.gloveId m.engine.stepIndex))).update fun e =>
        { e with acceptedTokens := e.acceptedTokens ++ [confirm.token] })
    have hengine : m₁.engine
        = { m.engine with acceptedTokens := m.engine.acceptedTokens ++ [confirm.token] } := by
      show (Machine.update _ _).engine = _
      rw [Machine.update_engine, Machine.record_engine]
    rw [← hengine] at hc'
    have hat₂ : At (m₁.emit env (.stepAccepted ⟨m₁.engine.attempt, confirm.token⟩)) s' :=
      At.pass (hat₁.update _) rfl ⟨hnot, List.mem_append_right _ (List.mem_singleton.mpr rfl)⟩
    rw [← Machine.emit_engine env m₁ (.stepAccepted ⟨m₁.engine.attempt, confirm.token⟩)]
      at hc' hengine
    have hstarted' : c'.started = (m₁.emit env
        (.stepAccepted ⟨m₁.engine.attempt, confirm.token⟩)).engine.stepIndex + 1 := by
      rw [hengine]
      exact congrArg (· + 1) hstarted
    split
    · rename_i m₂ hcancel
      exact Or.inl (terminateIfCancelled_ok hat₂ hc'.live _ _ hcancel)
    · rename_i m₂ hcancel
      obtain rfl := terminateIfCancelled_ok hat₂ hc'.live _ _ hcancel
      split
      · -- the step is paced: the engine captures it
        refine Or.inr ⟨s', At.pass (At.emitStatus (At.update
          (At.pass (At.update hat₂ _) rfl hnot) _) hnot _) rfl hnot, ?_⟩
        simp only [Machine.emit_engine, Machine.emitStatus_engine, Machine.update_engine,
          Machine.record_engine] at hc' hstarted' ⊢
        exact Ready.capturing c' { hc' with } rfl rfl hstarted'
      · exact stepDone_ok hat₂ hc' rfl hstarted'

/-- **`handle_confirm`**, on the command that is being handled. -/
theorem handleConfirm_ok (hat : At m s) (hready : Ready m.engine s) {confirm : ConfirmCommand}
    (hinput : s.lastInput = some (.handle (.confirm confirm))) :
    Ok (m.handleConfirm env config confirm) := by
  rw [Machine.handleConfirm]
  split
  · exact reject_ok hat hready _ _ _ _ _
  rename_i hattempt
  rw [not_or, not_not] at hattempt
  split
  · -- an accepted token is acknowledged again
    rename_i haccepted
    rw [hready.agrees.acceptedTokens] at haccepted
    refine Or.inr ⟨s, hat.pass rfl ⟨hready.live.not_reported, haccepted⟩, ?_⟩
    rw [Machine.emit_engine]
    exact hready
  rename_i hnew
  split
  · exact reject_ok hat hready _ _ _ _ _
  rename_i hstate
  have hstate : m.engine.state = .awaitingStep := not_not.mp hstate
  split
  · exact reject_ok hat hready _ _ _ _ _
  rename_i htoken
  have htoken : confirm.token = m.engine.currentToken := not_not.mp htoken
  have hattempt' : confirm.attempt = s.attempt := hattempt.2.trans hready.agrees.attempt
  rw [hready.agrees.acceptedTokens] at hnew
  cases hready with
  | idle _ hidle _ _ _ _ _ => exact absurd hidle hattempt.1
  | discovering hd =>
    rw [hd.state] at hstate
    cases hstate
  | capturing c hc hcapturing _ _ =>
    rw [hcapturing] at hstate
    cases hstate
  | awaiting c hc _ hoffered hstarted =>
    split
    · rename_i m₁ hcheck
      exact Or.inl (checkGloves_ok hat hc.live hc.stage _ _ hcheck)
    · rename_i m₁ hcheck
      obtain ⟨hengine, hat₁⟩ := checkGloves_ok hat hc.live hc.stage _ _ hcheck
      rw [← hengine] at hc hoffered hstarted htoken
      exact startConfirmed_ok hat₁ hc (hoffered.trans (congrArg some htoken.symm)) hstarted hinput
        hattempt' hnew

omit [CppDouble τ] in
theorem handleCancel_ok (hat : At m s) (hready : Ready m.engine s) (cancel : CancelCommand) :
    Ok (m.handleCancel env cancel) := by
  rw [Machine.handleCancel]
  split
  · exact reject_ok hat hready _ _ _ _ _
  · rcases hcancel : m.requestCancel.terminateIfCancelled env with ⟨stop, m₁⟩
    have hok := terminateIfCancelled_ok hat.requestCancel hready.live _ _ hcancel
    cases stop with
    | true => exact Or.inl hok
    | false =>
      obtain rfl := hok
      exact Or.inr ⟨s, hat.requestCancel, hready⟩

/-! ### Calls and runs -/

theorem handle_ok (hat : At m s) (hready : Ready m.engine s) {command : Command}
    (hinput : s.lastInput = some (.handle command)) : Ok (m.handle env config command) := by
  rw [Machine.handle, if_neg (by rw [hready.agrees.finished]; exact Bool.false_ne_true)]
  split
  · rename_i m₁ hcancel
    exact Or.inl (terminateIfCancelled_ok hat hready.live _ _ hcancel)
  · rename_i m₁ hcancel
    obtain rfl := terminateIfCancelled_ok hat hready.live _ _ hcancel
    cases command with
    | start command => exact beginAttempt_ok hat hready hinput
    | confirm command => exact handleConfirm_ok hat hready hinput
    | cancel command => exact handleCancel_ok hat hready command

theorem tick_ok (hat : At m s) (hready : Ready m.engine s) : Ok (m.tick env config) := by
  rw [Machine.tick, if_neg (by rw [hready.agrees.finished]; exact Bool.false_ne_true)]
  split
  · rename_i m₁ hcancel
    exact Or.inl (terminateIfCancelled_ok hat hready.live _ _ hcancel)
  · rename_i m₁ hcancel
    obtain rfl := terminateIfCancelled_ok hat hready.live _ _ hcancel
    cases hready with
    | idle hagrees hstate hstage hinit hcalibrating hcurrent hindex =>
      rw [hstate]
      exact Or.inr ⟨s, hat, .idle hagrees hstate hstage hinit hcalibrating hcurrent hindex⟩
    | discovering hd =>
      rw [hd.state]
      exact pollDiscovery_ok hat hd
    | awaiting c hc hstate hoffered hstarted =>
      -- While a prompt waits only the gloves are checked.
      rw [hstate]
      show Ok (m₁.checkGloves env).2
      rcases hcheck : m₁.checkGloves env with ⟨go, m₂⟩
      have hok := checkGloves_ok hat hc.live hc.stage _ _ hcheck
      cases go with
      | false => exact Or.inl hok
      | true =>
        obtain ⟨hengine, hat₂⟩ := hok
        rw [← hengine] at hc hstate hoffered hstarted
        exact Or.inr ⟨s, hat₂, .awaiting c hc hstate hoffered hstarted⟩
    | capturing c hc hstate hoffered hstarted =>
      -- A capture advances once the gloves are found to be there.
      rw [hstate]
      dsimp only
      split
      · rename_i m₂ hcheck
        exact Or.inl (checkGloves_ok hat hc.live hc.stage _ _ hcheck)
      · rename_i m₂ hcheck
        obtain ⟨hengine, hat₂⟩ := checkGloves_ok hat hc.live hc.stage _ _ hcheck
        rw [← hengine] at hc hstate hstarted
        exact advanceCapture_ok hat₂ hc hstate hoffered hstarted

omit [CppDouble τ] in
theorem Finished.record_input (env : Environment τ) (h : Finished m) (input : Input) :
    Finished (m.record env (.input input)) := by
  obtain ⟨s, hat, hstage⟩ := h.accepts
  refine ⟨?_, { s with lastInput := some input }, hat.record rfl, hstage⟩
  rw [Machine.record_engine]
  exact h.finished

/-- A finished machine only notes what it is called with. -/
theorem Finished.step (env : Environment τ) (config : EngineConfig τ) (h : Finished m)
    (input : Input) : Finished (m.step env config input) := by
  have hnoted := h.record_input env input
  cases input with
  | handle command =>
    rw [Machine.step, Machine.handle, if_pos hnoted.finished]
    exact hnoted
  | tick =>
    rw [Machine.step, Machine.tick, if_pos hnoted.finished]
    exact hnoted
  | requestCancel =>
    obtain ⟨s, hat, hstage⟩ := hnoted.accepts
    exact ⟨hnoted.finished, s, hat.requestCancel, hstage⟩

/-- **One call**, from any machine between two calls. -/
theorem step_ok (env : Environment τ) (config : EngineConfig τ) (h : Ok m) (input : Input) :
    Ok (m.step env config input) := by
  rcases h with hfinished | ⟨s, hat, hready⟩
  · exact Or.inl (hfinished.step env config input)
  · have hat₁ : At (m.record env (.input input)) { s with lastInput := some input } :=
      hat.record rfl
    have hready₁ := hready.input input
    rw [← Machine.record_engine env m (.input input)] at hready₁
    cases input with
    | handle command => exact handle_ok hat₁ hready₁ rfl
    | tick => exact tick_ok hat₁ hready₁
    | requestCancel => exact Or.inr ⟨_, hat₁.requestCancel, hready₁⟩

omit m in
theorem init_ok : Ok (Machine.init : Machine τ) :=
  Or.inr ⟨Session.init, rfl,
    .idle ⟨rfl, rfl, rfl, rfl, rfl, rfl, rfl, rfl⟩ rfl rfl rfl rfl rfl rfl⟩

/-- **Every run** leaves the machine finished or in agreement with the monitor. -/
theorem run_ok (env : Environment τ) (config : EngineConfig τ) (inputs : List Input) :
    Ok (run env config inputs) := by
  rw [run]
  induction inputs using List.reverseRecOn with
  | nil => exact init_ok
  | append_singleton inputs input ih =>
    rw [List.foldl_append]
    exact step_ok env config ih input

omit [CppDouble τ] in
theorem Ok.accepts (h : Ok m) : ∃ s, At m s := by
  rcases h with hfinished | ⟨s, hat, -⟩
  · obtain ⟨s, hat, -⟩ := hfinished.accepts
    exact ⟨s, hat⟩
  · exact ⟨s, hat⟩

/-- **The monitor accepts every run.** -/
theorem run_accepts (env : Environment τ) (config : EngineConfig τ) (inputs : List Input) :
    ∃ s, At (run env config inputs) s :=
  (run_ok env config inputs).accepts

end Methods

end Calibration
