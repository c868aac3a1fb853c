/-
The discipline of a calibration session, over every run of the engine.

* `Disciplined` — one result at the end, the SDK and the gloves held in brackets, and a
  result that says truly what was released;
* `session_discipline` — every run is disciplined, and a cancellation ends it.
-/
import IsaacTeleop.CalibrationFacts

open ByteText

namespace Calibration

variable {τ : Type}

/-- A trace of whole calls that keeps the rules of a session. -/
structure Disciplined (t : Trace τ) : Prop where
  /-- A result is written at most once. -/
  once : ∀ before r after, t = before ++ .event (.result r) :: after →
    ∀ r', .event (.result r') ∉ before
  /-- Nothing follows it but calls that find the engine finished, and cancellations. -/
  last : ∀ before r after, t = before ++ .event (.result r) :: after →
    ∀ entry ∈ after, entry = .cancelRequested ∨ ∃ i, entry = .input i
  /-- Before the result the SDK is up at most once, with at most one glove calibrating. -/
  running : (∀ r, .event (.result r) ∉ t) → holds t = [] ∨
    ∃ gloves current, holds t
      = .initialized :: brackets gloves ++ (Option.map Hold.started current).toList
  /-- With the result the SDK is down, and every started glove was finished or stopped. -/
  ended : ∀ r, .event (.result r) ∈ t → holds t = [] ∨
    ∃ gloves, holds t = .initialized :: brackets gloves ++ [.shutdown]
  /-- The result says whether every stop and every shutdown succeeded. -/
  released : ∀ r, .event (.result r) ∈ t → (r.released = true ↔ ∀ entry ∈ t, entry.releases = true)
  promised : ∀ r, .event (.result r) ∈ t → r.outcome = .completed ∨ r.outcome = .cancelled →
    r.released = true
  error : ∀ r, .event (.result r) ∈ t → (r.error ≠ none ↔ r.outcome = .failed)
  files : ∀ r, .event (.result r) ∈ t → (r.files ≠ [] ↔ r.outcome = .completed)

/-! ### The result -/

section Result

variable {s : Session} {t before after : Trace τ} {r : ResultEvent}

/-- The session at the result of an accepted trace. -/
theorem accepts_result (h : Monitor.Accepts Session.next Session.init t s)
    (ht : t = before ++ .event (.result r) :: after) :
    ∃ s₁, Monitor.Accepts Session.next Session.init before s₁ ∧
      (s₁.stage = .idle ∨ s₁.stage = .down) ∧ s₁.ResultOk r ∧
      ∀ entry ∈ after, entry = .cancelRequested ∨ ∃ i, entry = .input i := by
  rw [ht] at h
  obtain ⟨s₁, hbefore, hrest⟩ := Monitor.accepts_append.mp h
  obtain ⟨s₂, hnext, hafter⟩ := Monitor.accepts_cons.mp hrest
  obtain ⟨⟨hstage, hok⟩, rfl⟩ := Session.require_eq_some.mp hnext
  exact ⟨s₁, hbefore, hstage, hok, accepts_reported rfl hafter⟩

/-- Outcome, error, files and release flag of a result agree. -/
theorem resultOk_consistent (h : s.ResultOk r) :
    (r.outcome = .completed ∨ r.outcome = .cancelled → r.released = true) ∧
      (r.error ≠ none ↔ r.outcome = .failed) ∧ (r.files ≠ [] ↔ r.outcome = .completed) := by
  obtain ⟨hreleased, hmatch⟩ := h
  cases houtcome : r.outcome with
  | completed =>
    rw [houtcome] at hmatch
    obtain ⟨htrue, herror, hfiles, hcommand, hlength⟩ := hmatch
    refine ⟨fun _ => hreleased.trans htrue, by simp [herror], ?_⟩
    -- a start command requests at least one side
    have hsides : s.sides ≠ [] := by
      rw [Session.sides]
      cases hc : s.command with
      | none => exact absurd hc hcommand
      | some command => exact command.sides_ne_nil
    have hne : s.files ≠ [] := by
      intro hnil
      rw [hnil] at hlength
      exact hsides (List.length_eq_zero_iff.mp hlength.symm)
    rw [hfiles]
    exact ⟨fun _ => rfl, fun _ => hne⟩
  | cancelled =>
    rw [houtcome] at hmatch
    obtain ⟨htrue, herror, hfiles⟩ := hmatch
    exact ⟨fun _ => hreleased.trans htrue, by simp [herror], by simp [hfiles]⟩
  | failed =>
    rw [houtcome] at hmatch
    obtain ⟨herror, hfiles⟩ := hmatch
    exact ⟨by simp, by simp [herror], by simp [hfiles]⟩

/-- What the result says of the release is what the trace shows. -/
theorem released_iff (h : Monitor.Accepts Session.next Session.init t s)
    (hmem : .event (.result r) ∈ t) :
    (r.released = true ↔ ∀ entry ∈ t, entry.releases = true) ∧
      (r.outcome = .completed ∨ r.outcome = .cancelled → r.released = true) ∧
      (r.error ≠ none ↔ r.outcome = .failed) ∧ (r.files ≠ [] ↔ r.outcome = .completed) := by
  obtain ⟨before, after, ht⟩ := List.append_of_mem hmem
  obtain ⟨s₁, hbefore, -, hok, hafter⟩ := accepts_result h ht
  refine ⟨?_, resultOk_consistent hok⟩
  rw [hok.1, (facts_of_accepts hbefore).released, List.all_eq_true, ht]
  constructor
  · intro hall entry hentry
    rcases List.mem_append.mp hentry with hentry | hentry
    · exact hall entry hentry
    · rcases List.mem_cons.mp hentry with rfl | hentry
      · rfl
      · rcases hafter entry hentry with rfl | ⟨i, rfl⟩
        · rfl
        · rfl
  · intro hall entry hentry
    exact hall entry (List.mem_append_left _ hentry)

end Result

/-! ### Runs -/

section Runs

variable {m : Machine τ} {s : Session}

theorem Ready.idle_or_up (h : Ready m.engine s) : s.stage = .idle ∨ s.stage = .up := by
  cases h with
  | idle _ _ hstage _ _ _ _ => exact Or.inl hstage
  | discovering hd => exact Or.inr hd.stage
  | awaiting _ hc _ _ _ => exact Or.inr hc.stage
  | capturing _ hc _ _ _ => exact Or.inr hc.stage

/-- Between two calls a machine has reported its result, or the SDK was never up, or it is. -/
theorem Ok.stages (h : Ok m) :
    ∃ s, At m s ∧ (s.stage = .reported ∨ s.stage = .idle ∨ s.stage = .up) := by
  rcases h with hfinished | ⟨s, hat, hready⟩
  · obtain ⟨s, hat, hstage⟩ := hfinished.accepts
    exact ⟨s, hat, Or.inl hstage⟩
  · exact ⟨s, hat, Or.inr hready.idle_or_up⟩

theorem Ok.disciplined (h : Ok m) : Disciplined m.trace := by
  obtain ⟨s, hat, hstage⟩ := h.stages
  have hfacts := facts_of_accepts hat
  have hheld := hfacts.holds
  refine ⟨?_, ?_, ?_, ?_, ?_, ?_, ?_, ?_⟩
  · -- A second result would be reported by a monitor that has reported already.
    intro before r after ht r' hr'
    obtain ⟨s₁, hbefore, hends, -⟩ := accepts_result hat ht
    have hreported := (facts_of_accepts hbefore).reported.mpr ⟨r', hr'⟩
    rcases hends with hidle | hdown <;> simp [*] at hreported
  · intro before r after ht
    obtain ⟨-, -, -, -, hafter⟩ := accepts_result hat ht
    exact hafter
  · -- Without a result the machine is idle, or up with at most one bracket open.
    intro hnone
    rcases hstage with hreported | hidle | hup
    · obtain ⟨r, hr⟩ := hfacts.reported.mp hreported
      exact absurd hr (hnone r)
    · rw [HoldsOk, hidle] at hheld
      exact Or.inl hheld
    · obtain ⟨gloves, hheld⟩ := hheld.up hup
      refine Or.inr ⟨gloves, s.current.map fun c => c.glove, ?_⟩
      rw [hheld, Option.map_map]
      rfl
  · intro r hr
    rw [HoldsOk, hfacts.reported.mpr ⟨r, hr⟩] at hheld
    exact hheld
  · exact fun r hr => (released_iff hat hr).1
  · exact fun r hr => (released_iff hat hr).2.1
  · exact fun r hr => (released_iff hat hr).2.2.1
  · exact fun r hr => (released_iff hat hr).2.2.2

theorem record_cancelRequested (env : Environment τ) (h : m.cancelRequested = true)
    (entry : Entry τ) : (m.record env entry).cancelRequested = true := by
  rw [Machine.record]
  split
  · rfl
  · exact h

/-- A pending cancellation takes effect with the next tick. -/
theorem Ok.cancelled [CppDouble τ] (env : Environment τ) (config : EngineConfig τ) (h : Ok m) :
    Finished ((m.step env config .requestCancel).step env config .tick) := by
  rcases step_ok env config h .requestCancel with hfinished | ⟨s, hat, hready⟩
  · exact hfinished.step env config .tick
  · have hcancel : (m.step env config .requestCancel).cancelRequested = true := rfl
    generalize m.step env config .requestCancel = m₁ at hat hready hcancel
    have hready₁ := hready.input .tick
    rw [← Machine.record_engine env m₁ (.input .tick)] at hready₁
    have hat₁ : At (m₁.record env (.input .tick)) { s with lastInput := some .tick } :=
      hat.record rfl
    have hpending := record_cancelRequested env hcancel (.input .tick)
    rw [Machine.step]
    generalize m₁.record env (.input .tick) = m₂ at hready₁ hat₁ hpending
    have hrunning := hready₁.agrees.finished
    have hstop : m₂.terminateIfCancelled env = (true, m₂.terminate env .cancelled none) := by
      rw [Machine.terminateIfCancelled, hrunning, hpending]
      rfl
    show Finished (m₂.tick env config)
    rw [Machine.tick, hrunning, hstop]
    exact terminateIfCancelled_ok hat₁ hready₁.live _ _ hstop

variable [CppDouble τ]

/-- **The discipline of a session.**  Whatever the calls, the SDK, the writer and the clock,
and whenever a cancellation comes: at most one result is written, as the last event and after
the last call of the SDK; the SDK is shut down exactly once if it was initialized; the started
gloves are finished or stopped one after the other; and the result says truly whether all of
them are free.  A run that is cancelled and ticked once more has written its result. -/
theorem session_discipline (env : Environment τ) (config : EngineConfig τ) (inputs : List Input) :
    Disciplined (run env config inputs).trace ∧
      ∃ r, .event (.result r) ∈ (run env config (inputs ++ [.requestCancel, .tick])).trace := by
  refine ⟨(run_ok env config inputs).disciplined, ?_⟩
  have hfinished := (run_ok env config inputs).cancelled env config
  obtain ⟨s, hat, hstage⟩ := hfinished.accepts
  have hresult := (facts_of_accepts hat).reported.mp hstage
  rw [run, List.foldl_append]
  exact hresult

end Runs

end Calibration
