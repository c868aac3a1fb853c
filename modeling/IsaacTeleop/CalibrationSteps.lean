/-
The calibration steps, over every run of the engine.

* `StepsConfirmed` — each step is started once, in order, and only by the confirmation of
  its own prompt; a completed attempt has started all of them and written all files;
* `CommandsOk` — repeated and rejected commands;
* `steps_by_confirmation` — every run.
-/
import IsaacTeleop.CalibrationCalls
import IsaacTeleop.CalibrationDiscipline

open ByteText

namespace Calibration

variable {τ : Type}

/-- The start command that began the attempt: it was being handled when the SDK was
initialized. -/
def StartedBy (t : Trace τ) (command : StartCommand) : Prop :=
  ∃ before status after, t = before ++ .initializeSdk status :: after ∧
    lastInput before = some (.handle (.start command))

/-- What the trace of a run shows of the calibration steps. -/
structure StepsConfirmed (t : Trace τ) : Prop where
  /-- For each glove `start_step` is called with 0, 1, 2, … -/
  order : ∀ glove, ∃ n, startedSteps t glove = List.range n
  /-- Each call is made for the confirmation of the prompt that was written for its glove
  and index, and that was not accepted before. -/
  confirmed : ∀ before glove index status after,
    t = before ++ .startStep glove index status :: after →
      ∃ confirm p, lastInput before = some (.handle (.confirm confirm)) ∧
        .event (.prompt p) ∈ before ∧ p.attempt = confirm.attempt ∧ p.token = confirm.token ∧
        p.side = glove.side ∧ p.gloveId = glove.gloveId ∧ p.index = index ∧
        ∀ a, .event (.stepAccepted a) ∈ before → a.token ≠ confirm.token
  tokens : (promptTokens t).Nodup
  /-- On completion all steps the SDK counted were started, for the gloves of the requested
  sides one after the other, and the files are those that were written. -/
  completed : ∀ r, .event (.result r) ∈ t → r.outcome = .completed → ∃ command,
    StartedBy t command ∧ (stepCounts t).map (fun x => x.1.side) = command.sides ∧
      startSteps t = stepsOf (stepCounts t) ∧ refusedSteps t = [] ∧
      r.files.map (fun f => f.side) = command.sides ∧
      r.files.map (fun f => (f.file, f.bytes, f.sha256))
        = (writes t).map fun w => (w.1, w.2.length, sha256Hex w.2)

/-! ### Tokens -/

theorem promptToken_injective (attempt : ByteText) :
    Function.Injective (Session.promptToken attempt) := by
  intro a b h
  exact decimal_injective (List.append_cancel_left h)

theorem promptsOf_nodup (s : Session) : (promptsOf s).Nodup := by
  refine List.Nodup.map ?_ List.nodup_range
  intro a b h
  exact Nat.succ.inj (promptToken_injective _ h)

/-! ### The trace of a run -/

section Trace

variable {s : Session} {t before after : Trace τ}

/-- The session at a call of `start_step`. -/
theorem accepts_startStep {glove : GloveRef} {index : ℕ} {status : SdkStatus}
    (h : Monitor.Accepts Session.next Session.init t s)
    (ht : t = before ++ .startStep glove index status :: after) :
    ∃ s₁ c confirm, Monitor.Accepts Session.next Session.init before s₁ ∧
      s₁.Confirmed c confirm ∧ c.glove = glove ∧ c.started = index := by
  rw [ht] at h
  obtain ⟨s₁, hbefore, hrest⟩ := Monitor.accepts_append.mp h
  obtain ⟨s₂, hnext, -⟩ := Monitor.accepts_cons.mp hrest
  cases Session.next_change hnext with
  | routine hroutine _ => cases hroutine
  | stepStarted _ hconfirmed => exact ⟨s₁, _, _, hbefore, hconfirmed, rfl, rfl⟩
  | stepRefused _ hconfirmed => exact ⟨s₁, _, _, hbefore, hconfirmed, rfl, rfl⟩

/-- What follows a result is in none of the projections. -/
theorem filterMap_result {α : Type} {f : Entry τ → Option α} {r : ResultEvent}
    (h : Monitor.Accepts Session.next Session.init t s)
    (ht : t = before ++ .event (.result r) :: after) (hresult : f (.event (.result r)) = none)
    (hinput : ∀ i, f (.input i) = none) (hcancel : f .cancelRequested = none) :
    t.filterMap f = before.filterMap f := by
  obtain ⟨-, -, -, -, hafter⟩ := accepts_result h ht
  have hnil : after.filterMap f = [] := by
    refine List.filterMap_eq_nil_iff.mpr ?_
    intro entry hentry
    rcases hafter entry hentry with rfl | ⟨i, rfl⟩
    · exact hcancel
    · exact hinput i
  rw [ht, List.filterMap_append, List.filterMap_cons, hresult, hnil]
  exact List.append_nil _

/-- When as many files were written as sides requested, no glove is left. -/
theorem all_finished (hvalid : s.Valid) (hlength : s.files.length = s.sides.length) :
    s.finished.length = s.sides.length ∧ s.current = none ∧ s.counted = none := by
  have hle := congrArg List.length hvalid.finishedSides
  rw [List.length_map, List.length_take] at hle
  have hfiles := hvalid.files_le
  have hfinished : s.finished.length = s.sides.length := by omega
  have hnone : s.sides[s.finished.length]? = none := by
    rw [hfinished]
    exact List.getElem?_eq_none (Nat.le_refl _)
  refine ⟨hfinished, ?_, ?_⟩
  · cases hcurrent : s.current with
    | none => rfl
    | some c =>
      have hside := (hvalid.currentSide c hcurrent).1
      rw [hnone] at hside
      cases hside
  · cases hcounted : s.counted with
    | none => rfl
    | some x =>
      have hside := (hvalid.countedSide x hcounted).1
      rw [hnone] at hside
      cases hside

theorem accepts_completed (h : Monitor.Accepts Session.next Session.init t s) {r : ResultEvent}
    (hmem : .event (.result r) ∈ t) (hcompleted : r.outcome = .completed) :
    ∃ command, StartedBy t command ∧ (stepCounts t).map (fun x => x.1.side) = command.sides ∧
      startSteps t = stepsOf (stepCounts t) ∧ refusedSteps t = [] ∧
      r.files.map (fun f => f.side) = command.sides ∧
      r.files.map (fun f => (f.file, f.bytes, f.sha256))
        = (writes t).map fun w => (w.1, w.2.length, sha256Hex w.2) := by
  obtain ⟨before, after, ht⟩ := List.append_of_mem hmem
  obtain ⟨s₁, hbefore, -, hok, -⟩ := accepts_result h ht
  have hfacts := facts_of_accepts hbefore
  obtain ⟨-, hmatch⟩ := hok
  rw [hcompleted] at hmatch
  obtain ⟨-, -, hfiles, hsome, hlength⟩ := hmatch
  obtain ⟨command, hcommand⟩ := Option.ne_none_iff_exists'.mp hsome
  have hsides : s₁.sides = command.sides := by rw [Session.sides, hcommand]; rfl
  obtain ⟨hfinished, hcurrent, hcounted⟩ := all_finished hfacts.valid hlength
  -- the result and what follows it add nothing to the projections
  have hcounts : stepCounts t = s₁.finished := by
    rw [stepCounts, filterMap_result h ht rfl (fun _ => rfl) rfl]
    refine (stepCounts_eq hbefore).trans ?_
    rw [countsOf, hcurrent, hcounted]
    simp
  have hsteps : startSteps t = stepsOf s₁.finished := by
    rw [startSteps, filterMap_result h ht rfl (fun _ => rfl) rfl]
    refine (startSteps_eq hbefore).trans ?_
    rw [runs_none hcurrent]
  have hrefused : refusedSteps t = [] := by
    rw [refusedSteps, filterMap_result h ht rfl (fun _ => rfl) rfl]
    refine (refusedSteps_eq hbefore).trans ?_
    rw [refusedOf, hcurrent]
    rfl
  have hwrites : writes t = writes before := filterMap_result h ht rfl (fun _ => rfl) rfl
  refine ⟨command, ?_, ?_, ?_, hrefused, ?_, ?_⟩
  · obtain ⟨before', status, after', rfl, hlast⟩ := hfacts.command command hcommand
    exact ⟨before', status, _, by rw [ht, List.append_assoc]; rfl, hlast⟩
  · rw [hcounts, hfacts.valid.finishedSides, hfinished, List.take_length, hsides]
  · rw [hcounts, hsteps]
  · rw [hfiles, hfacts.valid.fileSides, hlength, List.take_length, hsides]
  · rw [hfiles, hwrites, writes_eq hbefore]
    rfl

theorem accepts_stepsConfirmed (h : Monitor.Accepts Session.next Session.init t s) :
    StepsConfirmed t := by
  refine ⟨?_, ?_, ?_, fun r hr hcompleted => accepts_completed h hr hcompleted⟩
  · intro glove
    rw [startedSteps, startSteps_eq h]
    exact indices_range (runs_nodup (facts_of_accepts h).valid) glove
  · intro before glove index status after ht
    obtain ⟨s₁, c, confirm, hbefore, hconfirmed, rfl, rfl⟩ := accepts_startStep h ht
    have hfacts := facts_of_accepts hbefore
    obtain ⟨p, hp, htoken, hattempt, hside, hid, hindex⟩ :=
      hfacts.offered c _ hconfirmed.current hconfirmed.offered
    refine ⟨confirm, p, hfacts.lastInput.trans hconfirmed.input, hp,
      hattempt.trans hconfirmed.attempt.symm, htoken, hside, hid, hindex, ?_⟩
    intro a ha heq
    exact hconfirmed.fresh (heq ▸ hfacts.acknowledged a ha)
  · rw [promptTokens_eq h]
    exact promptsOf_nodup s

end Trace

/-! ### Repeated and rejected commands -/

/-- What a command does to a machine between two calls. -/
structure CommandsOk [CppDouble τ] (env : Environment τ) (config : EngineConfig τ)
    (m : Machine τ) : Prop where
  /-- A confirmation whose token was accepted is acknowledged again and does nothing else,
  unless the engine is finished, a cancellation is pending or the attempt is another one. -/
  repeated : ∀ command a, .event (.stepAccepted a) ∈ m.trace → a.token = command.token →
    let m₁ := m.record env (.input (.handle (.confirm command)))
    m.step env config (.handle (.confirm command)) =
      if m.engine.finished then m₁
      else if m₁.cancelRequested then m₁.terminate env .cancelled none
      else if command.attempt = m.engine.attempt then
        m₁.emit env (.stepAccepted { attempt := command.attempt, token := command.token })
      else
        m₁.reject env (lit "confirm") command.attempt .unknownAttempt (lit "no such attempt")
          (some command.token)
  /-- A command that is rejected leaves the engine as it was, and nothing else is done. -/
  rejected : ∀ command, ∃ added,
    (m.step env config (.handle command)).trace = m.trace ++ added ∧
      ∀ r, .event (.rejected r) ∈ added →
        (m.step env config (.handle command)).engine = m.engine ∧
          Rejects env (m.record env (.input (.handle command)))
            (m.step env config (.handle command))

section Commands

variable {env : Environment τ} {m m' : Machine τ} {s : Session}

/-- A recorded entry stands in the trace, with the cancellation that came with it. -/
theorem record_trace (env : Environment τ) (m : Machine τ) (entry : Entry τ) :
    ∃ more, (m.record env entry).trace = m.trace ++ entry :: more ∧
      ∀ e ∈ more, e = .cancelRequested := by
  rw [Machine.record]
  split
  · refine ⟨[.cancelRequested], List.append_assoc _ _ _, ?_⟩
    intro e he
    exact List.mem_singleton.mp he
  · exact ⟨[], rfl, fun e he => (by cases he)⟩

theorem Rejects.trace (h : Rejects env m m') : ∃ added, m'.trace = m.trace ++ added := by
  cases h with
  | command r =>
    obtain ⟨more, htrace, -⟩ := record_trace env m (.event (.rejected r))
    exact ⟨_, htrace⟩
  | directory dir r =>
    obtain ⟨more, htrace, -⟩ := record_trace env m (.directoryUsable dir false)
    obtain ⟨more', htrace', -⟩ :=
      record_trace env (m.record env (.directoryUsable dir false)) (.event (.rejected r))
    exact ⟨_, by rw [Machine.emit, htrace', htrace, List.append_assoc]⟩

/-- Once a token was accepted the engine is not idle. -/
theorem Ready.not_idle (hat : At m s) (h : Ready m.engine s) {token : ByteText}
    (haccepted : token ∈ s.accepted) : m.engine.state ≠ .idle := by
  intro hidle
  cases h with
  | idle _ _ hstage _ _ _ _ =>
    rw [(hat.valid.fresh (hat.valid.idle hstage)).2.2.2.2.1] at haccepted
    cases haccepted
  | discovering hd =>
    rw [hd.state] at hidle
    cases hidle
  | awaiting _ _ hstate _ _ =>
    rw [hstate] at hidle
    cases hidle
  | capturing _ _ hstate _ _ =>
    rw [hstate] at hidle
    cases hidle

variable [CppDouble τ] {config : EngineConfig τ}

/-- A confirmation of an accepted token, when the call gets to it. -/
theorem handleConfirm_repeated {command : ConfirmCommand} (hstate : m.engine.state ≠ .idle)
    (haccepted : command.token ∈ m.engine.acceptedTokens) :
    m.handleConfirm env config command =
      if command.attempt = m.engine.attempt then
        m.emit env (.stepAccepted { attempt := command.attempt, token := command.token })
      else
        m.reject env (lit "confirm") command.attempt .unknownAttempt (lit "no such attempt")
          (some command.token) := by
  rw [Machine.handleConfirm]
  by_cases hattempt : command.attempt = m.engine.attempt
  · rw [if_neg (fun h => h.elim hstate (absurd hattempt)), if_pos haccepted, if_pos hattempt,
      hattempt]
  · rw [if_pos (Or.inr hattempt), if_neg hattempt]

theorem Ok.repeated (h : Ok m) (command : ConfirmCommand) {a : StepAcceptedEvent}
    (ha : .event (.stepAccepted a) ∈ m.trace) (htoken : a.token = command.token) :
    let m₁ := m.record env (.input (.handle (.confirm command)))
    m.step env config (.handle (.confirm command)) =
      if m.engine.finished then m₁
      else if m₁.cancelRequested then m₁.terminate env .cancelled none
      else if command.attempt = m.engine.attempt then
        m₁.emit env (.stepAccepted { attempt := command.attempt, token := command.token })
      else
        m₁.reject env (lit "confirm") command.attempt .unknownAttempt (lit "no such attempt")
          (some command.token) := by
  intro m₁
  have hengine : m₁.engine = m.engine := Machine.record_engine env m _
  show m₁.handle env config (.confirm command) = _
  rw [Machine.handle, hengine]
  rcases h with hfinished | ⟨s, hat, hready⟩
  · rw [if_pos hfinished.finished, if_pos hfinished.finished]
  · have hrunning := hready.agrees.finished
    -- The monitor has accepted the token, so the attempt is under way.
    have haccepted : command.token ∈ s.accepted :=
      htoken ▸ (facts_of_accepts hat).acknowledged a ha
    have hstate := hready.not_idle hat haccepted
    rw [← hready.agrees.acceptedTokens] at haccepted
    rw [← hengine] at hstate haccepted hrunning ⊢
    rw [hrunning]
    -- A cancellation comes before the answer.
    cases hpending : m₁.cancelRequested with
    | true =>
      have hstop : m₁.terminateIfCancelled env = (true, m₁.terminate env .cancelled none) := by
        rw [Machine.terminateIfCancelled, hrunning, hpending]
        rfl
      rw [hstop]
      rfl
    | false =>
      have hgo : m₁.terminateIfCancelled env = (false, m₁) := by
        rw [Machine.terminateIfCancelled, hrunning, hpending]
        rfl
      rw [hgo]
      exact handleConfirm_repeated hstate haccepted

theorem step_rejected (env : Environment τ) (config : EngineConfig τ) (m : Machine τ)
    (command : Command) :
    ∃ added, (m.step env config (.handle command)).trace = m.trace ++ added ∧
      ∀ r, .event (.rejected r) ∈ added →
        (m.step env config (.handle command)).engine = m.engine ∧
          Rejects env (m.record env (.input (.handle command)))
            (m.step env config (.handle command)) := by
  obtain ⟨more, hinput, hmore⟩ := record_trace env m (.input (.handle command))
  rcases handle_works_or_rejects env (m.record env (.input (.handle command))) config command with
    ⟨added, htrace, hwork⟩ | hrejects
  · refine ⟨.input (.handle command) :: more ++ added, ?_, ?_⟩
    · show (Machine.handle env config _ command).trace = _
      rw [htrace, hinput, List.append_assoc]
    · -- a call that did its work rejected nothing
      intro r hr
      rcases List.mem_append.mp hr with hr | hr
      · rcases List.mem_cons.mp hr with hr | hr
        · cases hr
        · cases hmore _ hr
      · cases hwork _ hr
  · obtain ⟨added, htrace⟩ := hrejects.trace
    refine ⟨.input (.handle command) :: more ++ added, ?_, fun r _ => ⟨?_, hrejects⟩⟩
    · show (Machine.handle env config _ command).trace = _
      rw [htrace, hinput, List.append_assoc]
    · exact hrejects.engine.trans (Machine.record_engine env m _)

/-- **Steps happen only by their own confirmation, once and in order.**  Over every run: the
steps of each glove are started in order, each by the first accepted confirmation of the prompt
written for it; prompt tokens do not repeat; a repeated confirmation is only acknowledged again;
a rejected command changes nothing; and a completed attempt has started all steps of all requested
sides and reports the files as they were written. -/
theorem steps_by_confirmation (env : Environment τ) (config : EngineConfig τ)
    (inputs : List Input) :
    StepsConfirmed (run env config inputs).trace ∧
      CommandsOk env config (run env config inputs) := by
  obtain ⟨s, hat⟩ := run_accepts env config inputs
  refine ⟨accepts_stepsConfirmed hat, ?_, step_rejected env config _⟩
  intro command a ha htoken
  exact (run_ok env config inputs).repeated command ha htoken

end Commands

/-! ### An attempt that completes -/

/-- Whole seconds. -/
instance : CppDouble ℤ where
  zero := 0
  milli := 0
  thousand := 1000
  sub a b := a - b
  mul a b := a * b
  div a b := a / b
  neg a := -a
  round a := a
  lt a b := decide (a < b)
  le a b := decide (a ≤ b)
  isFinite _ := true
  toInt a := a

/-- An SDK with one left glove of two instant steps, where every call succeeds. -/
def obliging : Environment ℤ where
  nowS _ := 0
  directoryUsable _ _ := true
  write _ _ _ _ := none
  initializeSdk _ := ⟨true, []⟩
  connect _ := ⟨.connected, []⟩
  gloves _ := [⟨.left, 7⟩]
  stepCount _ _ := (⟨true, []⟩, 2)
  stepData _ _ _ := (⟨true, []⟩, ⟨0, [], [], 0⟩)
  start _ _ := ⟨true, []⟩
  startStep _ _ _ := ⟨true, []⟩
  finish _ _ := ⟨true, []⟩
  stop _ _ := ⟨true, []⟩
  exportCalibration _ _ := (⟨true, []⟩, [1, 2, 3])
  shutdown _ := ⟨true, []⟩
  cancels _ := false

/-- The left glove is requested, discovered and confirmed step by step; the first
confirmation comes twice. -/
def obligingInputs : List Input :=
  [.handle (.start ⟨lit "a", [.left], lit "out", by decide, by decide⟩), .tick,
    .handle (.confirm ⟨lit "a", lit "a-1"⟩), .handle (.confirm ⟨lit "a", lit "a-1"⟩),
    .handle (.confirm ⟨lit "a", lit "a-2"⟩)]

example :
    let m := run obliging ⟨.operator, 15, 1, 0⟩ obligingInputs
    holds m.trace = [.initialized, .started ⟨.left, 7⟩, .finished ⟨.left, 7⟩, .shutdown] ∧
      startSteps m.trace = [(⟨.left, 7⟩, 0), (⟨.left, 7⟩, 1)] ∧ m.engine.outcome = .completed := by
  decide

end Calibration
