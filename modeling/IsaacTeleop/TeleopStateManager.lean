/-
The default teleop state manager and its deadman safety.

`DefaultTeleopStateManager` turns three optional buttons (kill, run toggle,
reset) into a lifecycle state and a reset pulse.  `computeExecutionEvents` is
one frame; a run folds it over a list of frames.

* `runToggle_memory`, `kill_memory`, `reset_memory` — what the edge memory of
  each button holds, in terms of the frames seen so far;
* `stateHistory` — the state reached after any run, explained by the frames;
* `running_needs_two_safe_edges` — RUNNING is only ever reached through two
  rising edges of the run toggle with no kill and no input loss since;
* `held_through_loss_no_edge` — a button still held after an input loss is
  not an edge;
* `reset_emitted_iff` — exactly when the reset pulse is emitted.
-/
import IsaacTeleop.ComputeContext
import Mathlib

namespace TeleopStateManager

/-- One frame of button inputs; `none` is an absent `OptionalTensorGroup`. -/
structure Inputs where
  killButton : Option Bool
  runToggleButton : Option Bool
  resetButton : Option Bool
  deriving DecidableEq, Repr

/-- The instance variables of `DefaultTeleopStateManager`.  Inputs absent from
startup are not a loss, hence `requiredInputsLostPrev` starts `true`. -/
structure Manager where
  state : ExecutionState := .stopped
  prevKill : Bool := false
  prevRunToggle : Bool := false
  prevReset : Bool := false
  requiredInputsLostPrev : Bool := true
  deriving DecidableEq, Repr

/-- What a run-toggle rising edge does to the state. -/
def toggle : ExecutionState → ExecutionState
  | .stopped => .paused
  | .paused => .running
  | .running => .paused
  | .unknown => .unknown

/-- `DefaultTeleopStateManager._compute_execution_events`. -/
def computeExecutionEvents (m : Manager) (inputs : Inputs) : ExecutionEvents × Manager :=
  match inputs.killButton, inputs.runToggleButton with
  | some killPressed, some runTogglePressed =>
    let resetEdge := match inputs.resetButton with
      | some resetPressed => resetPressed && !m.prevReset
      | none => false
    let killEdge := killPressed && !m.prevKill
    let runToggleEdge := runTogglePressed && !m.prevRunToggle
    let state :=
      if killPressed then .stopped
      else if runToggleEdge then toggle m.state
      else m.state
    (⟨resetEdge || killEdge, state⟩,
      { state := state
        prevKill := killPressed
        prevRunToggle := runTogglePressed
        prevReset := inputs.resetButton.getD m.prevReset
        requiredInputsLostPrev := false })
  | _, _ =>
    -- Fail-safe on a lost kill or run-toggle input: every button has to be
    -- seen released again before it can give an edge.
    (⟨!m.requiredInputsLostPrev, .stopped⟩,
      { state := .stopped
        prevKill := true
        prevRunToggle := true
        prevReset := true
        requiredInputsLostPrev := true })

/-! ### Runs -/

/-- The manager before frame `n` of a run. -/
def managerAt (frames : List Inputs) (n : ℕ) : Manager :=
  (frames.take n).foldl (fun m x => (computeExecutionEvents m x).2) {}

/-- The events output at frame `n` of a run. -/
def eventsAt (frames : List Inputs) (n : ℕ) : Option ExecutionEvents :=
  (frames[n]?).map fun x => (computeExecutionEvents (managerAt frames n) x).1

/-- The sample of one button at frame `n`, `none` when it is absent. -/
def sampleAt (button : Inputs → Option Bool) (frames : List Inputs) (n : ℕ) : Option Bool :=
  (frames[n]?).bind button

/-- A button rises at frame `n`: it is pressed there and, unless `n` is the
first frame of the run, it was present and released at the previous frame. -/
def RisingEdge (button : Inputs → Option Bool) (frames : List Inputs) (n : ℕ) : Prop :=
  sampleAt button frames n = some true ∧ (n = 0 ∨ sampleAt button frames (n - 1) = some false)

/-- A required input (kill or run toggle) is absent at frame `n`. -/
def LostAt (frames : List Inputs) (n : ℕ) : Prop :=
  sampleAt Inputs.killButton frames n = none ∨ sampleAt Inputs.runToggleButton frames n = none

instance (button : Inputs → Option Bool) (frames : List Inputs) (n : ℕ) :
    Decidable (RisingEdge button frames n) :=
  inferInstanceAs (Decidable (_ ∧ _))

instance (frames : List Inputs) (n : ℕ) : Decidable (LostAt frames n) :=
  inferInstanceAs (Decidable (_ ∨ _))

/-- Kill is present and released, and the run toggle is present, at frame `n`. -/
def SafeAt (frames : List Inputs) (n : ℕ) : Prop :=
  sampleAt Inputs.killButton frames n = some false ∧
    ∃ b, sampleAt Inputs.runToggleButton frames n = some b

theorem SafeAt.not_lost {frames : List Inputs} {n : ℕ} (h : SafeAt frames n) :
    ¬ LostAt frames n := by
  obtain ⟨hk, b, hb⟩ := h
  simp [LostAt, hk, hb]

theorem exists_samples_of_not_lost {frames : List Inputs} {n : ℕ} (h : ¬ LostAt frames n) :
    ∃ k r, sampleAt Inputs.killButton frames n = some k ∧
      sampleAt Inputs.runToggleButton frames n = some r := by
  rw [LostAt, not_or] at h
  obtain ⟨k, hk⟩ := Option.ne_none_iff_exists'.mp h.1
  obtain ⟨r, hr⟩ := Option.ne_none_iff_exists'.mp h.2
  exact ⟨k, r, hk, hr⟩

@[simp] theorem managerAt_zero (frames : List Inputs) : managerAt frames 0 = {} := rfl

theorem managerAt_succ {frames : List Inputs} {n : ℕ} {x : Inputs} (h : frames[n]? = some x) :
    managerAt frames (n + 1) = (computeExecutionEvents (managerAt frames n) x).2 := by
  have hlt : n < frames.length := (List.getElem?_eq_some_iff.mp h).choose
  have hx : frames[n] = x := (List.getElem?_eq_some_iff.mp h).choose_spec
  rw [managerAt, List.take_succ_eq_append_getElem hlt, List.foldl_append, hx]
  rfl

theorem lt_length_of_eventsAt {frames : List Inputs} {n : ℕ} {ev : ExecutionEvents}
    (h : eventsAt frames n = some ev) : n < frames.length := by
  rw [eventsAt, Option.map_eq_some_iff] at h
  obtain ⟨x, hx, _⟩ := h
  exact (List.getElem?_eq_some_iff.mp hx).choose

/-- The state output at a frame is the state kept for the next one. -/
theorem eventsAt_state {frames : List Inputs} {n : ℕ} {ev : ExecutionEvents}
    (h : eventsAt frames n = some ev) :
    ev.executionState = (managerAt frames (n + 1)).state := by
  rw [eventsAt, Option.map_eq_some_iff] at h
  obtain ⟨x, hx, rfl⟩ := h
  rw [managerAt_succ hx]
  unfold computeExecutionEvents
  split <;> rfl

/-! ### One frame, by kind -/

/-- A frame that loses a required input stops and forgets every button. -/
theorem managerAt_succ_of_lost {frames : List Inputs} {n : ℕ} (hn : n < frames.length)
    (hl : LostAt frames n) :
    managerAt frames (n + 1) = ⟨.stopped, true, true, true, true⟩ := by
  rw [managerAt_succ (List.getElem?_eq_getElem hn)]
  simp only [LostAt, sampleAt, List.getElem?_eq_getElem hn, Option.bind_some] at hl
  unfold computeExecutionEvents
  rcases hl with hk | hr
  · rw [hk]
  · rw [hr]
    split
    · simp_all
    · rfl

/-- A frame with both required inputs present. -/
theorem managerAt_succ_of_present {frames : List Inputs} {n : ℕ} {k r : Bool}
    (hk : sampleAt Inputs.killButton frames n = some k)
    (hr : sampleAt Inputs.runToggleButton frames n = some r) :
    managerAt frames (n + 1) =
      { state := if k then .stopped
          else if r && !(managerAt frames n).prevRunToggle then toggle (managerAt frames n).state
          else (managerAt frames n).state
        prevKill := k
        prevRunToggle := r
        prevReset := (sampleAt Inputs.resetButton frames n).getD (managerAt frames n).prevReset
        requiredInputsLostPrev := false } := by
  obtain ⟨x, hx, hxk⟩ := Option.bind_eq_some_iff.mp hk
  rw [managerAt_succ hx]
  simp only [sampleAt, hx, Option.bind_some] at hr hxk ⊢
  simp only [computeExecutionEvents, hxk, hr]

/-- The reset pulse output at frame `n`, by kind of frame. -/
theorem eventsAt_reset {frames : List Inputs} {n : ℕ} {ev : ExecutionEvents}
    (h : eventsAt frames n = some ev) :
    (LostAt frames n ∧ ev.reset = !(managerAt frames n).requiredInputsLostPrev) ∨
    (¬ LostAt frames n ∧ ev.reset =
      ((sampleAt Inputs.resetButton frames n == some true && !(managerAt frames n).prevReset) ||
        (sampleAt Inputs.killButton frames n == some true && !(managerAt frames n).prevKill))) := by
  rw [eventsAt, Option.map_eq_some_iff] at h
  obtain ⟨x, hx, rfl⟩ := h
  simp only [LostAt, sampleAt, hx, Option.bind_some]
  rcases hk : x.killButton with _ | k
  · exact Or.inl ⟨Or.inl rfl, by simp [computeExecutionEvents, hk]⟩
  · rcases hr : x.runToggleButton with _ | r
    · exact Or.inl ⟨Or.inr rfl, by simp [computeExecutionEvents, hk, hr]⟩
    · refine Or.inr ⟨by simp, ?_⟩
      rcases hb : x.resetButton with _ | b <;> simp [computeExecutionEvents, hk, hr, hb]

/-! ### Edge memory -/

/-- The run toggle gives no edge at frame `n` unless it was seen released at
the previous frame, and that frame lost nothing. -/
theorem runToggle_memory {frames : List Inputs} {n : ℕ} (hn : n ≤ frames.length) :
    (managerAt frames n).prevRunToggle = false ↔
      n = 0 ∨ (¬ LostAt frames (n - 1) ∧
        sampleAt Inputs.runToggleButton frames (n - 1) = some false) := by
  rcases n with _ | n
  · simp
  · by_cases hl : LostAt frames n
    · simp [managerAt_succ_of_lost (by omega) hl, hl]
    · obtain ⟨k, r, hk, hr⟩ := exists_samples_of_not_lost hl
      simp [managerAt_succ_of_present hk hr, hl, hr]

/-- The kill button gives no edge unless it was seen released at the previous
frame, and that frame lost nothing. -/
theorem kill_memory {frames : List Inputs} {n : ℕ} (hn : n ≤ frames.length) :
    (managerAt frames n).prevKill = false ↔
      n = 0 ∨ (¬ LostAt frames (n - 1) ∧
        sampleAt Inputs.killButton frames (n - 1) = some false) := by
  rcases n with _ | n
  · simp
  · by_cases hl : LostAt frames n
    · simp [managerAt_succ_of_lost (by omega) hl, hl]
    · obtain ⟨k, r, hk, hr⟩ := exists_samples_of_not_lost hl
      simp [managerAt_succ_of_present hk hr, hl, hk]

/-- The previous frame counts as lost at startup. -/
theorem lost_memory {frames : List Inputs} {n : ℕ} (hn : n ≤ frames.length) :
    (managerAt frames n).requiredInputsLostPrev = true ↔ n = 0 ∨ LostAt frames (n - 1) := by
  rcases n with _ | n
  · simp
  · by_cases hl : LostAt frames n
    · simp [managerAt_succ_of_lost (by omega) hl, hl]
    · obtain ⟨k, r, hk, hr⟩ := exists_samples_of_not_lost hl
      simp [managerAt_succ_of_present hk hr, hl]

/-- The reset button is ready to give an edge before frame `n`: every frame
back to the start of the run or to its last sample was without loss, and that
last sample, if there is one, was released. -/
def ResetReleased (frames : List Inputs) (n : ℕ) : Prop :=
  (∀ k < n, ¬ LostAt frames k ∧ sampleAt Inputs.resetButton frames k = none) ∨
    ∃ j < n, sampleAt Inputs.resetButton frames j = some false ∧ ¬ LostAt frames j ∧
      ∀ k, j < k → k < n → ¬ LostAt frames k ∧ sampleAt Inputs.resetButton frames k = none

/-- One more frame: a loss or a pressed sample takes readiness away, a released
sample gives it, an absent one keeps it. -/
theorem resetReleased_succ (frames : List Inputs) (n : ℕ) :
    ResetReleased frames (n + 1) ↔ ¬ LostAt frames n ∧
      (sampleAt Inputs.resetButton frames n = some false ∨
        (sampleAt Inputs.resetButton frames n = none ∧ ResetReleased frames n)) := by
  constructor
  · rintro (h | ⟨j, hj, hs, hl, h⟩)
    · exact ⟨(h n (by omega)).1, Or.inr ⟨(h n (by omega)).2, Or.inl fun k hk => h k (by omega)⟩⟩
    · rcases Nat.lt_succ_iff_lt_or_eq.mp hj with hjn | rfl
      · obtain ⟨hln, hsn⟩ := h n hjn (by omega)
        exact ⟨hln, Or.inr ⟨hsn, Or.inr ⟨j, hjn, hs, hl, fun k hk hkn => h k hk (by omega)⟩⟩⟩
      · exact ⟨hl, Or.inl hs⟩
  · rintro ⟨hl, hs | ⟨hs, h | ⟨j, hj, hsj, hlj, h⟩⟩⟩
    · exact Or.inr ⟨n, by omega, hs, hl, fun k hk hkn => by omega⟩
    · refine Or.inl fun k hk => ?_
      rcases Nat.lt_succ_iff_lt_or_eq.mp hk with hkn | rfl
      · exact h k hkn
      · exact ⟨hl, hs⟩
    · refine Or.inr ⟨j, by omega, hsj, hlj, fun k hk hkn => ?_⟩
      rcases Nat.lt_succ_iff_lt_or_eq.mp hkn with hkn | rfl
      · exact h k hk hkn
      · exact ⟨hl, hs⟩

theorem reset_memory {frames : List Inputs} : ∀ {n : ℕ}, n ≤ frames.length →
    ((managerAt frames n).prevReset = false ↔ ResetReleased frames n) := by
  intro n
  induction n with
  | zero =>
    intro _
    simp [ResetReleased]
  | succ n ih =>
    intro hn
    rw [resetReleased_succ]
    by_cases hl : LostAt frames n
    · simp [managerAt_succ_of_lost (by omega) hl, hl]
    · obtain ⟨k, r, hk, hr⟩ := exists_samples_of_not_lost hl
      rw [managerAt_succ_of_present hk hr]
      rcases sampleAt Inputs.resetButton frames n with _ | b
      · simpa [hl] using ih (by omega)
      · simp [hl]

/-! ### Where a state comes from -/

/-- The run has been armed at frame `i` and stayed safe up to (excluding) frame
`n`: a rising edge at `i` moved STOPPED to PAUSED, kill stayed present and
released, the run toggle stayed present, and every later rising edge toggled
between PAUSED and RUNNING. -/
structure Armed (frames : List Inputs) (i n : ℕ) : Prop where
  lt : i < n
  edge : RisingEdge Inputs.runToggleButton frames i
  stopped_before : (managerAt frames i).state = .stopped
  paused_after : (managerAt frames (i + 1)).state = .paused
  safe : ∀ k, i ≤ k → k < n → SafeAt frames k
  toggles : ∀ k, i < k → k < n → RisingEdge Inputs.runToggleButton frames k →
    ((managerAt frames k).state = .paused ∧ (managerAt frames (k + 1)).state = .running) ∨
    ((managerAt frames k).state = .running ∧ (managerAt frames (k + 1)).state = .paused)

/-- What the state after `n` frames says about these frames. -/
def StateHistory (frames : List Inputs) (n : ℕ) : ExecutionState → Prop
  | .unknown => False
  | .stopped => True
  | .paused => ∃ i, Armed frames i n
  | .running => ∃ i j, i < j ∧ j < n ∧ RisingEdge Inputs.runToggleButton frames j ∧
      Armed frames i n

/-- A safe frame extends an armed stretch, if a rising edge in it toggles. -/
theorem Armed.extend {frames : List Inputs} {i n : ℕ} (h : Armed frames i n)
    (hs : SafeAt frames n)
    (ht : RisingEdge Inputs.runToggleButton frames n →
      ((managerAt frames n).state = .paused ∧ (managerAt frames (n + 1)).state = .running) ∨
      ((managerAt frames n).state = .running ∧ (managerAt frames (n + 1)).state = .paused)) :
    Armed frames i (n + 1) where
  lt := Nat.lt_succ_of_lt h.lt
  edge := h.edge
  stopped_before := h.stopped_before
  paused_after := h.paused_after
  safe k hik hkn := by
    rcases Nat.lt_succ_iff_lt_or_eq.mp hkn with hlt | rfl
    · exact h.safe k hik hlt
    · exact hs
  toggles k hik hkn hk := by
    rcases Nat.lt_succ_iff_lt_or_eq.mp hkn with hlt | rfl
    · exact h.toggles k hik hlt hk
    · exact ht hk

/-- The edge memory agrees with the frames on a stretch without loss. -/
theorem risingEdge_iff_of_armed {frames : List Inputs} {i n : ℕ} {r : Bool}
    (hn : n ≤ frames.length) (h : Armed frames i n)
    (hr : sampleAt Inputs.runToggleButton frames n = some r) :
    RisingEdge Inputs.runToggleButton frames n ↔
      (r && !(managerAt frames n).prevRunToggle) = true := by
  have hlt := h.lt
  have hsafe : ¬ LostAt frames (n - 1) := (h.safe (n - 1) (by omega) (by omega)).not_lost
  have hmem := runToggle_memory hn
  rw [RisingEdge, hr]
  simp only [Bool.and_eq_true, Bool.not_eq_true', hmem, hsafe, not_false_eq_true, true_and,
    Option.some_inj]

/-- Any edge given by the edge memory is a rising edge of the frames. -/
theorem risingEdge_of_memory {frames : List Inputs} {n : ℕ} (hn : n ≤ frames.length)
    (hr : sampleAt Inputs.runToggleButton frames n = some true)
    (hm : (managerAt frames n).prevRunToggle = false) :
    RisingEdge Inputs.runToggleButton frames n :=
  ⟨hr, ((runToggle_memory hn).mp hm).imp_right And.right⟩

/-- **Run lemma.**  The state after any number of frames is explained by the
frames. -/
theorem stateHistory (frames : List Inputs) : ∀ n, n ≤ frames.length →
    StateHistory frames n (managerAt frames n).state := by
  intro n
  induction n with
  | zero =>
    intro _
    trivial
  | succ n ih =>
    intro hn
    have hist := ih (by omega)
    by_cases hl : LostAt frames n
    · rw [managerAt_succ_of_lost (by omega) hl]
      trivial
    obtain ⟨k, r, hk, hr⟩ := exists_samples_of_not_lost hl
    have hstep := congrArg Manager.state (managerAt_succ_of_present hk hr)
    rcases k with _ | _
    swap
    · rw [hstep]
      trivial
    have hsafe : SafeAt frames n := ⟨hk, r, hr⟩
    simp only [Bool.false_eq_true, if_false] at hstep
    cases hedge : r && !(managerAt frames n).prevRunToggle with
    | true =>
      obtain ⟨hrt, hm⟩ : r = true ∧ (managerAt frames n).prevRunToggle = false := by
        simpa using hedge
      have hrise : RisingEdge Inputs.runToggleButton frames n :=
        risingEdge_of_memory (by omega) (hrt ▸ hr) hm
      rw [hedge, if_pos rfl] at hstep
      cases hst : (managerAt frames n).state with
      | unknown =>
        rw [hst] at hist
        exact hist.elim
      | stopped =>
        -- the arming edge: the stretch starts at this frame
        rw [hst, toggle] at hstep
        rw [hstep]
        exact ⟨n, by omega, hrise, hst, hstep, fun k h1 h2 => by
          obtain rfl : k = n := by omega
          exact hsafe, fun k h1 h2 => by omega⟩
      | paused =>
        rw [hst] at hist
        rw [hst, toggle] at hstep
        obtain ⟨i, harm⟩ := hist
        rw [hstep]
        exact ⟨i, n, harm.lt, by omega, hrise, harm.extend hsafe fun _ => Or.inl ⟨hst, hstep⟩⟩
      | running =>
        rw [hst] at hist
        rw [hst, toggle] at hstep
        obtain ⟨i, j, _, _, _, harm⟩ := hist
        rw [hstep]
        exact ⟨i, harm.extend hsafe fun _ => Or.inr ⟨hst, hstep⟩⟩
    | false =>
      -- no edge: the stretch, if there is one, goes on unchanged
      rw [hedge, if_neg Bool.false_ne_true] at hstep
      rw [hstep]
      have hno : ∀ i, Armed frames i n → ¬ RisingEdge Inputs.runToggleButton frames n := by
        intro i harm
        rw [risingEdge_iff_of_armed (by omega) harm hr, hedge]
        exact Bool.false_ne_true
      cases hst : (managerAt frames n).state with
      | unknown =>
        rw [hst] at hist
        exact hist.elim
      | stopped => trivial
      | paused =>
        rw [hst] at hist
        obtain ⟨i, harm⟩ := hist
        exact ⟨i, harm.extend hsafe fun h => absurd h (hno i harm)⟩
      | running =>
        rw [hst] at hist
        obtain ⟨i, j, hij, hjn, hj, harm⟩ := hist
        exact ⟨i, j, hij, by omega, hj, harm.extend hsafe fun h => absurd h (hno i harm)⟩

/-- **RUNNING needs two rising edges of the run toggle** with kill present and
released, and the run toggle present, from the first of them on. -/
theorem running_needs_two_safe_edges {frames : List Inputs} {n : ℕ} {ev : ExecutionEvents}
    (h : eventsAt frames n = some ev) (hrun : ev.executionState = .running) :
    ∃ i j, i < j ∧ j ≤ n ∧ RisingEdge Inputs.runToggleButton frames j ∧
      Armed frames i (n + 1) := by
  have hn : n < frames.length := lt_length_of_eventsAt h
  have hist := stateHistory frames (n + 1) hn
  rw [← eventsAt_state h, hrun] at hist
  obtain ⟨i, j, hij, hjn, hj, harm⟩ := hist
  exact ⟨i, j, hij, by omega, hj, harm⟩

/-! ### Held buttons and the reset pulse -/

/-- The edge of one button as `_compute_execution_events` sees it at frame `n`:
nothing is lost, the button is pressed, and its memory holds a release. -/
def EdgeAt (button : Inputs → Option Bool) (memory : Manager → Bool) (frames : List Inputs)
    (n : ℕ) : Prop :=
  ¬ LostAt frames n ∧ sampleAt button frames n = some true ∧ memory (managerAt frames n) = false

/-- The button was not seen released between a loss at frame `l` and frame `m`. -/
def HeldSince (button : Inputs → Option Bool) (frames : List Inputs) (l m : ℕ) : Prop :=
  LostAt frames l ∧ ∀ k, l < k → k < m → ¬ LostAt frames k → sampleAt button frames k ≠ some false

/-- A button still held after an input loss gives no edge. -/
theorem held_through_loss_no_edge {frames : List Inputs} {l m : ℕ} (hlm : l < m)
    (hm : m ≤ frames.length) :
    (HeldSince Inputs.killButton frames l m →
      ¬ EdgeAt Inputs.killButton Manager.prevKill frames m) ∧
    (HeldSince Inputs.runToggleButton frames l m →
      ¬ EdgeAt Inputs.runToggleButton Manager.prevRunToggle frames m) ∧
    (HeldSince Inputs.resetButton frames l m →
      ¬ EdgeAt Inputs.resetButton Manager.prevReset frames m) := by
  -- kill and run toggle remember only the previous frame
  have hprev : ∀ button : Inputs → Option Bool, HeldSince button frames l m →
      ¬ (m = 0 ∨ (¬ LostAt frames (m - 1) ∧ sampleAt button frames (m - 1) = some false)) := by
    rintro button ⟨hl, hheld⟩ (h0 | ⟨hlost, hrel⟩)
    · omega
    · rcases Nat.lt_or_ge l (m - 1) with hlt | hge
      · exact hheld (m - 1) hlt (by omega) hlost hrel
      · obtain rfl : l = m - 1 := by omega
        exact hlost hl
  refine ⟨fun h he => hprev _ h ((kill_memory hm).mp he.2.2),
    fun h he => hprev _ h ((runToggle_memory hm).mp he.2.2), ?_⟩
  rintro ⟨hl, hheld⟩ ⟨-, -, hmem⟩
  rcases (reset_memory hm).mp hmem with hall | ⟨j, hj, hrel, hlost, hsince⟩
  · exact (hall l hlm).1 hl
  · rcases Nat.lt_trichotomy l j with hlt | rfl | hgt
    · exact hheld j hlt hj hlost hrel
    · exact hlost hl
    · exact (hsince l hgt hlm).1 hl

/-- **When the reset pulse is emitted.** -/
theorem reset_emitted_iff {frames : List Inputs} {n : ℕ} {ev : ExecutionEvents}
    (h : eventsAt frames n = some ev) :
    ev.reset = true ↔
      EdgeAt Inputs.killButton Manager.prevKill frames n ∨
      EdgeAt Inputs.resetButton Manager.prevReset frames n ∨
      (LostAt frames n ∧ 0 < n ∧ ¬ LostAt frames (n - 1)) := by
  have hn : n ≤ frames.length := Nat.le_of_lt (lt_length_of_eventsAt h)
  have hlost := lost_memory hn
  rcases eventsAt_reset h with ⟨hl, hr⟩ | ⟨hl, hr⟩
  · rw [hr, Bool.not_eq_true', ← Bool.not_eq_true, hlost]
    simp [EdgeAt, hl, Nat.pos_iff_ne_zero]
  · rw [hr]
    simp only [EdgeAt, hl, not_false_eq_true, true_and, false_and, or_false, Bool.or_eq_true,
      Bool.and_eq_true, beq_iff_eq, Bool.not_eq_true']
    exact or_comm

/-- **Deadman safety over whole runs.**  RUNNING is reached only through two
rising edges of the run toggle with no kill and no loss since the first; a
button held through a loss never counts as an edge; and the reset pulse is
emitted exactly on a kill or reset edge, where a loss counts as a press of
every button, or on the first frame of a loss after a non-lost frame. -/
theorem deadman_safety (frames : List Inputs) (n : ℕ) (ev : ExecutionEvents)
    (h : eventsAt frames n = some ev) :
    (ev.executionState = .running →
      ∃ i j, i < j ∧ j ≤ n ∧
        RisingEdge Inputs.runToggleButton frames i ∧
        RisingEdge Inputs.runToggleButton frames j ∧
        (∀ k, i ≤ k → k ≤ n → sampleAt Inputs.killButton frames k = some false ∧
          ∃ b, sampleAt Inputs.runToggleButton frames k = some b) ∧
        ((managerAt frames i).state = .stopped ∧ (managerAt frames (i + 1)).state = .paused) ∧
        ∀ k, i < k → k ≤ n → RisingEdge Inputs.runToggleButton frames k →
          ((managerAt frames k).state = .paused ∧ (managerAt frames (k + 1)).state = .running) ∨
          ((managerAt frames k).state = .running ∧ (managerAt frames (k + 1)).state = .paused)) ∧
    (∀ l < n,
      (HeldSince Inputs.killButton frames l n →
        ¬ EdgeAt Inputs.killButton Manager.prevKill frames n) ∧
      (HeldSince Inputs.runToggleButton frames l n →
        ¬ EdgeAt Inputs.runToggleButton Manager.prevRunToggle frames n) ∧
      (HeldSince Inputs.resetButton frames l n →
        ¬ EdgeAt Inputs.resetButton Manager.prevReset frames n)) ∧
    (ev.reset = true ↔
      (¬ LostAt frames n ∧ sampleAt Inputs.killButton frames n = some true ∧
        (n = 0 ∨ (¬ LostAt frames (n - 1) ∧
          sampleAt Inputs.killButton frames (n - 1) = some false))) ∨
      (¬ LostAt frames n ∧ sampleAt Inputs.resetButton frames n = some true ∧
        ResetReleased frames n) ∨
      (LostAt frames n ∧ 0 < n ∧ ¬ LostAt frames (n - 1))) := by
  have hn : n ≤ frames.length := Nat.le_of_lt (lt_length_of_eventsAt h)
  refine ⟨fun hrun => ?_, fun l hl => held_through_loss_no_edge hl hn, ?_⟩
  · obtain ⟨i, j, hij, hjn, hj, harm⟩ := running_needs_two_safe_edges h hrun
    exact ⟨i, j, hij, hjn, harm.edge, hj, fun k hik hkn => harm.safe k hik (by omega),
      ⟨harm.stopped_before, harm.paused_after⟩,
      fun k hik hkn => harm.toggles k hik (by omega)⟩
  · rw [reset_emitted_iff h, EdgeAt, EdgeAt, kill_memory hn, reset_memory hn]

/-- The safety statement at a run that does reach RUNNING. -/
theorem deadman_safety_at_run :
    eventsAt [⟨some false, some true, none⟩, ⟨some false, some false, none⟩,
      ⟨some false, some true, none⟩] 2 = some ⟨false, .running⟩ ∧
    ∃ i j, i < j ∧ j ≤ 2 ∧ RisingEdge Inputs.runToggleButton
      [⟨some false, some true, none⟩, ⟨some false, some false, none⟩,
        ⟨some false, some true, none⟩] i := by
  refine ⟨by decide, ?_⟩
  obtain ⟨i, j, hij, hj, hi, -⟩ := (deadman_safety
    [⟨some false, some true, none⟩, ⟨some false, some false, none⟩,
      ⟨some false, some true, none⟩] 2 ⟨false, .running⟩ (by decide)).1 rfl
  exact ⟨i, j, hij, hj, hi⟩

/-- A loss forgets releases.  A kill press right after a frame in which kill
was seen released but the run toggle was lost emits no reset, and neither does
a reset press right after a loss although the last reset sample was released. -/
theorem loss_swallows_edges :
    (RisingEdge Inputs.killButton [⟨some false, none, none⟩, ⟨some true, some false, none⟩] 1 ∧
      eventsAt [⟨some false, none, none⟩, ⟨some true, some false, none⟩] 1
        = some ⟨false, .stopped⟩) ∧
    (RisingEdge Inputs.resetButton [⟨some false, some false, some false⟩,
        ⟨none, some false, some false⟩, ⟨some false, some false, some true⟩] 2 ∧
      eventsAt [⟨some false, some false, some false⟩,
        ⟨none, some false, some false⟩, ⟨some false, some false, some true⟩] 2
        = some ⟨false, .stopped⟩) := by
  decide

end TeleopStateManager
