/-
Cancellation of a calibration attempt.

A cancellation may be requested at any moment, also while the SDK is called or a file is
written.  The engine looks for one right before it writes a file, but not between the last file
and the result.

* `Heeds` — no file is written once a cancellation has been requested;
* `cancellation_wins` — a cancellation wins unless it comes after the last file;
* `completed_after_cancellation` — and loses when it comes while the last file is written.
-/
import IsaacTeleop.CalibrationSteps

open ByteText

namespace Calibration

variable {τ : Type}

/-- No file is written once a cancellation has been requested. -/
structure Heeds (m : Machine τ) : Prop where
  pending : .cancelRequested ∈ m.trace → m.cancelRequested = true
  files : ∀ before dir basename bytes error after,
    m.trace = before ++ .write dir basename bytes error :: after → .cancelRequested ∉ before

/-! ### The methods -/

section Methods

variable {env : Environment τ} {m : Machine τ}

/-- What one more entry leaves to be shown. -/
theorem Heeds.append (h : Heeds m) {m' : Machine τ} {entry : Entry τ}
    (htrace : m'.trace = m.trace ++ [entry])
    (hpending : entry = .cancelRequested ∨ m.cancelRequested = true → m'.cancelRequested = true)
    (hwrite : ∀ dir basename bytes error, entry = .write dir basename bytes error →
      m.cancelRequested = false) : Heeds m' := by
  constructor
  · intro hmem
    rw [htrace] at hmem
    rcases List.mem_append.mp hmem with hmem | hmem
    · exact hpending (.inr (h.pending hmem))
    · exact hpending (.inl (List.mem_singleton.mp hmem).symm)
  · intro before dir basename bytes error after hsplit hmem
    rw [htrace] at hsplit
    -- the file is the new entry, or an earlier one
    rcases List.eq_nil_or_concat after with rfl | ⟨after, last, rfl⟩
    · obtain ⟨rfl, hentry⟩ := List.append_inj' hsplit rfl
      have hcalm := hwrite dir basename bytes error (List.singleton_inj.mp hentry)
      rw [h.pending hmem] at hcalm
      cases hcalm
    · rw [List.concat_eq_append, ← List.cons_append, ← List.append_assoc] at hsplit
      exact h.files before dir basename bytes error after (List.append_inj' hsplit rfl).1 hmem

theorem Heeds.requestCancel (h : Heeds m) : Heeds m.requestCancel :=
  h.append rfl (fun _ => rfl) nofun

theorem Heeds.record (h : Heeds m) {entry : Entry τ} (hcancel : entry ≠ .cancelRequested)
    (hwrite : ∀ dir basename bytes error, entry = .write dir basename bytes error →
      m.cancelRequested = false) : Heeds (m.record env entry) := by
  have happended : Heeds { m with trace := m.trace ++ [entry] } :=
    h.append rfl (fun hpending => hpending.resolve_left hcancel) hwrite
  rw [Machine.record]
  split
  · exact happended.requestCancel
  · exact happended

theorem heeds_carried (env : Environment τ) : Carried env (Heeds (τ := τ)) where
  update := fun _ h => ⟨h.pending, h.files⟩
  requestCancel := Heeds.requestCancel
  record := by
    intro m entry h hplain
    refine h.record ?_ ?_
    · rintro rfl
      cases hplain
    · rintro dir basename bytes error rfl
      cases hplain
  write := fun h hcalm => h.record nofun fun _ _ _ _ _ => hcalm

theorem Heeds.reject (h : Heeds m) (command attempt : ByteText) (reason : RejectReason)
    (message : ByteText) (token : Option ByteText) :
    Heeds (m.reject env command attempt reason message token) :=
  h.record nofun nofun

theorem Heeds.requestAndTerminate (h : Heeds m) (command : CancelCommand) :
    Heeds (m.handleCancel env command) := by
  rw [Machine.handleCancel]
  split
  · exact h.reject _ _ _ _ _
  · exact (heeds_carried env).terminateIfCancelled h.requestCancel

variable [CppDouble τ] {config : EngineConfig τ}

theorem Heeds.advanceCapture (h : Heeds m) : Heeds (m.advanceCapture env config) := by
  have c := heeds_carried env
  have hclock : Heeds (m.record env (.clock (env.nowS m.trace))) := c.record h (by rfl)
  rw [Machine.advanceCapture]
  split
  · split
    · exact c.stepDone (c.emit (c.update _ hclock) (by rfl))
    · exact c.stepDone hclock
  · split
    · exact c.emit (c.update _ hclock) (by rfl)
    · exact hclock

theorem Heeds.settleDiscovery (h : Heeds m) (now : τ) (found : List GloveRef)
    (missing : List Side) : Heeds (m.settleDiscovery env config now found missing) := by
  have c := heeds_carried env
  have hreported : Heeds (m.reportGloves env found) := by
    rw [Machine.reportGloves]
    split
    · exact c.emitStatus (c.update _ h) _
    · exact h
  rw [Machine.settleDiscovery]
  dsimp only
  split
  · exact c.beginGlove (c.update _ hreported)
  split
  · exact c.fail hreported _ _ _ _
  · exact hreported

theorem Heeds.discover (h : Heeds m) (now : τ) : Heeds (m.discover env config now) := by
  rw [Machine.discover]
  split
  · exact ((heeds_carried env).record h (by rfl)).settleDiscovery _ _ _
  · exact h.settleDiscovery _ _ _

theorem Heeds.pollDiscovery (h : Heeds m) : Heeds (m.pollDiscovery env config) := by
  have c := heeds_carried env
  have hclock : Heeds (m.record env (.clock (env.nowS m.trace))) := c.record h (by rfl)
  rw [Machine.pollDiscovery]
  dsimp only
  split
  · split
    · exact c.failed (c.update _ hclock) (by rfl) _ _ _ _
    · exact (c.update _ (c.record (c.update _ hclock) (by rfl))).discover _
  · exact hclock.discover _

theorem Heeds.beginAttempt (h : Heeds m) (command : StartCommand) :
    Heeds (m.beginAttempt env config command) := by
  have c := heeds_carried env
  rw [Machine.beginAttempt]
  dsimp only
  split
  · exact h.reject _ _ _ _ _
  split
  · exact (c.record h (by rfl)).reject _ _ _ _ _
  · have hopen : Heeds ((m.record env (.directoryUsable command.outDir
        (env.directoryUsable m.trace command.outDir))).openAttempt env config command) :=
      c.openAttempt (c.record h (by rfl)) command
    split
    · exact c.failed hopen (by rfl) _ _ _ _
    · exact c.record hopen (by rfl)

theorem Heeds.handleConfirm (h : Heeds m) (command : ConfirmCommand) :
    Heeds (m.handleConfirm env config command) := by
  have c := heeds_carried env
  rw [Machine.handleConfirm]
  split
  · exact h.reject _ _ _ _ _
  split
  · exact c.emit h (by rfl)
  split
  · exact h.reject _ _ _ _ _
  split
  · exact h.reject _ _ _ _ _
  split
  · rename_i hcheck
    exact of_pair (c.checkGloves h) hcheck
  · rename_i hcheck
    exact c.startConfirmed (of_pair (c.checkGloves h) hcheck) _

theorem Heeds.handle (h : Heeds m) (command : Command) : Heeds (m.handle env config command) := by
  rw [Machine.handle]
  split
  · exact h
  split
  · rename_i hcancel
    exact of_pair ((heeds_carried env).terminateIfCancelled h) hcancel
  · rename_i hcancel
    obtain ⟨rfl, -⟩ := terminateIfCancelled_false hcancel
    cases command with
    | start command => exact h.beginAttempt command
    | confirm command => exact h.handleConfirm command
    | cancel command => exact h.requestAndTerminate command

theorem Heeds.tick (h : Heeds m) : Heeds (m.tick env config) := by
  have c := heeds_carried env
  rw [Machine.tick]
  split
  · exact h
  split
  · rename_i hcancel
    exact of_pair (c.terminateIfCancelled h) hcancel
  · rename_i hcancel
    obtain ⟨rfl, -⟩ := terminateIfCancelled_false hcancel
    split
    · exact h.pollDiscovery
    · exact c.checkGloves h
    · split
      · rename_i hcheck
        exact of_pair (c.checkGloves h) hcheck
      · rename_i hcheck
        exact (of_pair (c.checkGloves h) hcheck).advanceCapture
    · exact h
    · exact h
    · exact h

/-- **One call** of the owner. -/
theorem Heeds.step (h : Heeds m) (input : Input) : Heeds (m.step env config input) := by
  have hinput : Heeds (m.record env (.input input)) := h.record nofun nofun
  cases input with
  | handle command => exact hinput.handle command
  | tick => exact hinput.tick
  | requestCancel => exact hinput.requestCancel

/-- **Every run.** -/
theorem run_heeds (env : Environment τ) (config : EngineConfig τ) (inputs : List Input) :
    Heeds (run env config inputs) := by
  induction inputs using List.reverseRecOn with
  | nil =>
    refine ⟨nofun, ?_⟩
    intro before dir basename bytes error after h
    exact absurd h.symm (List.append_ne_nil_of_right_ne_nil before (List.cons_ne_nil _ _))
  | append_singleton inputs input ih =>
    rw [run, List.foldl_append]
    exact ih.step input

end Methods

/-! ### The result -/

/-- A cancellation that comes now is too late: every requested side has its file, and the result
is not written yet. -/
def Late (t : Trace τ) : Prop :=
  (∃ command, StartedBy t command ∧ (writes t).length = command.sides.length) ∧
    ∀ r, .event (.result r) ∉ t

section Result

variable {s s' : Session} {entry : Entry τ} {command : StartCommand}

/-- The command of an attempt stays the same. -/
theorem Session.Valid.command_change (hvalid : s.Valid) (hcommand : s.command = some command)
    (hchange : s.Change entry s') : s'.command = some command := by
  cases hchange with
  | initialized hidle _ =>
    rw [hvalid.idle hidle] at hcommand
    cases hcommand
  | _ => exact hcommand

theorem accepts_command {t : Trace τ} (h : Monitor.Accepts Session.next s t s')
    (hvalid : s.Valid) (hcommand : s.command = some command) : s'.command = some command := by
  refine (Monitor.induction (P := fun _ s => Session.Valid s ∧ s.command = some command)
    ⟨hvalid, hcommand⟩ ?_ h).2
  rintro _ s₁ e s₂ ⟨hvalid₁, hcommand₁⟩ hnext
  have hchange := Session.next_change hnext
  exact ⟨hvalid₁.change hchange, hvalid₁.command_change hcommand₁ hchange⟩

theorem writes_length {t : Trace τ} (h : Monitor.Accepts Session.next Session.init t s) :
    (writes t).length = s.files.length := by
  have hlength := congrArg List.length (writes_eq h)
  rw [List.length_map, filesOf, List.length_map] at hlength
  exact hlength

/-- **A completed result after a cancellation**: the cancellation was too late. -/
theorem late_of_completed {m : Machine τ} (hat : At m s) (hheeds : Heeds m)
    {before first rest after : Trace τ} {r : ResultEvent}
    (ht : m.trace = before ++ .event (.result r) :: after)
    (hbefore : before = first ++ .cancelRequested :: rest) (hcompleted : r.outcome = .completed) :
    Late first := by
  obtain ⟨s₁, haccepts, hstage, hok, -⟩ := accepts_result hat ht
  have hfacts := facts_of_accepts haccepts
  obtain ⟨-, hmatch⟩ := hok
  rw [hcompleted] at hmatch
  obtain ⟨-, -, -, hsome, hlength⟩ := hmatch
  -- no file is written after the cancellation
  have hrest : writes rest = [] := by
    refine List.filterMap_eq_nil_iff.mpr fun entry hentry => ?_
    cases entry with
    | write dir basename bytes error =>
      obtain ⟨u, v, rfl⟩ := List.append_of_mem hentry
      refine absurd ?_ (hheeds.files (first ++ .cancelRequested :: u) dir basename bytes error
        (v ++ .event (.result r) :: after) (by rw [ht, hbefore]; simp))
      simp
    | _ => rfl
  have hwrites : writes first = writes before := by
    rw [hbefore, writes, writes, List.filterMap_append, List.filterMap_cons_none rfl]
    rw [show rest.filterMap written? = [] from hrest, List.append_nil]
  have hfiles : (writes first).length = s₁.sides.length := by
    rw [hwrites, writes_length haccepts, hlength]
  -- so that the command was there already
  rw [hbefore] at haccepts
  obtain ⟨s₂, hfirst, hafter⟩ := Monitor.accepts_append.mp haccepts
  have hfacts₂ := facts_of_accepts hfirst
  obtain ⟨command₁, hcommand₁⟩ := Option.ne_none_iff_exists'.mp hsome
  have hsides : s₁.sides = command₁.sides := by
    rw [Session.sides, hcommand₁]
    rfl
  have hcommand₂ : s₂.command ≠ none := by
    intro hnone
    obtain ⟨-, -, -, -, -, hempty, -⟩ := hfacts₂.valid.fresh hnone
    rw [writes_length hfirst, hempty, hsides] at hfiles
    exact command₁.sides_ne_nil (List.length_eq_zero_iff.mp hfiles.symm)
  obtain ⟨command₂, hcommand₂⟩ := Option.ne_none_iff_exists'.mp hcommand₂
  have hsame : command₁ = command₂ := by
    have hkept := accepts_command hafter hfacts₂.valid hcommand₂
    rw [hcommand₁] at hkept
    exact Option.some_inj.mp hkept
  refine ⟨⟨command₂, hfacts₂.command command₂ hcommand₂, ?_⟩, ?_⟩
  · rw [hfiles, hsides, hsame]
  · intro r' hr'
    have hreported := hfacts.reported.mpr ⟨r', by rw [hbefore]; exact List.mem_append_left _ hr'⟩
    rw [hreported] at hstage
    rcases hstage with hidle | hdown
    · cases hidle
    · cases hdown

variable [CppDouble τ]

/-- **Cancellation wins**, in every run in which no cancellation comes too late: when one is
requested before the result is written, the attempt is not completed. -/
theorem cancellation_wins (env : Environment τ) (config : EngineConfig τ) (inputs : List Input)
    (hearly : ∀ before after,
      (run env config inputs).trace = before ++ .cancelRequested :: after → ¬ Late before) :
    ∀ before r after, (run env config inputs).trace = before ++ .event (.result r) :: after →
      .cancelRequested ∈ before → r.outcome ≠ .completed := by
  intro before r after ht hcancel hcompleted
  obtain ⟨s, hat⟩ := run_accepts env config inputs
  obtain ⟨first, rest, hbefore⟩ := List.append_of_mem hcancel
  have hlate := late_of_completed hat (run_heeds env config inputs) ht hbefore hcompleted
  refine hearly first (rest ++ .event (.result r) :: after) ?_ hlate
  rw [ht, hbefore, List.append_assoc]
  rfl

end Result

/-! ### Two attempts that are cancelled -/

def result? : Entry τ → Option ResultEvent
  | .event (.result r) => some r
  | _ => none

theorem result?_eq_some {entry : Entry τ} {r : ResultEvent} (h : result? entry = some r) :
    entry = .event (.result r) := by
  cases entry with
  | event event =>
    cases event with
    | result r' => rw [Option.some_inj.mp h]
    | _ => cases h
  | _ => cases h

/-- The SDK of `obliging`, with a cancellation when a file is written. -/
def cancelledWhileSaving : Environment ℤ :=
  { obliging with cancels := fun t => t.getLast?.any fun entry => (written? entry).isSome }

/-- The trace of an attempt with one glove. -/
def lateTrace : Trace ℤ := (run cancelledWhileSaving ⟨.operator, 15, 1, 0⟩ obligingInputs).trace

/-- **A cancellation that loses**: it comes while the last file is written, before its export is
reported and the SDK is shut down, and the attempt is completed. -/
theorem completed_after_cancellation :
    ∃ before r after, lateTrace = before ++ .event (.result r) :: after ∧
      .cancelRequested ∈ before ∧ r.outcome = .completed := by
  have hlast : ((lateTrace.getLast?.bind result?).map fun r => r.outcome) = some .completed := by
    decide
  have hcancel : .cancelRequested ∈ lateTrace.dropLast := by decide
  obtain ⟨r, hr, hcompleted⟩ := Option.map_eq_some_iff.mp hlast
  obtain ⟨entry, hentry, hresult⟩ := Option.bind_eq_some_iff.mp hr
  refine ⟨lateTrace.dropLast, r, [], ?_, hcancel, hcompleted⟩
  rw [← result?_eq_some hresult]
  exact (List.dropLast_append_getLast? entry hentry).symm

theorem left_ne_nil : [Side.left] ≠ [] := List.cons_ne_nil _ _

theorem left_ordered : [Side.left].Pairwise fun a b => a = .left ∧ b = .right :=
  List.pairwise_singleton _ _

/-- A cancellation between two confirmations. -/
def cancelledInputs : List Input :=
  [.handle (.start ⟨lit "a", [.left], lit "out", left_ne_nil, left_ordered⟩), .tick,
    .handle (.confirm ⟨lit "a", lit "a-1"⟩), .requestCancel,
    .handle (.confirm ⟨lit "a", lit "a-2"⟩)]

def cancelledRun : Trace ℤ := (run obliging ⟨.operator, 15, 1, 0⟩ cancelledInputs).trace

def cancelledResult : ResultEvent := ⟨some (lit "a"), .cancelled, [], none, true⟩

theorem cancelled_between_steps :
    cancelledRun = cancelledRun.dropLast ++ [.event (.result cancelledResult)] ∧
      .cancelRequested ∈ cancelledRun.dropLast ∧ cancelledResult.outcome ≠ .completed := by
  have htrace : cancelledRun = cancelledRun.dropLast ++ [.event (.result cancelledResult)] := by
    decide
  have hcancel : .cancelRequested ∈ cancelledRun.dropLast := by decide
  refine ⟨htrace, hcancel, cancellation_wins obliging ⟨.operator, 15, 1, 0⟩ cancelledInputs ?_
    _ _ _ htrace hcancel⟩
  rintro before after htrace ⟨⟨command, -, hlength⟩, -⟩
  -- no file is written in this run
  have hwrites : writes (run obliging ⟨.operator, 15, 1, 0⟩ cancelledInputs).trace = [] := by
    decide
  rw [htrace, writes, List.filterMap_append] at hwrites
  rw [writes, (List.append_eq_nil_iff.mp hwrites).1] at hlength
  exact command.sides_ne_nil (List.length_eq_zero_iff.mp hlength.symm)

end Calibration
