/-
The timed step loop of a hand capture.

A take goes through the steps of its script: cue, countdown, hold, end tone, next.  Every held pose
becomes a window on the session clock.  Lengths are seconds in doubles; the loop multiplies them by
`1e9` and drops the fraction of the rounded product.  The times are those of the caller's clock.

* `Script.start`, `Script.advance`, `Script.run` — the calls;
* `Recorded`, `Inv`, `Inv.advance`, `Inv.run` — what holds after every call;
* `Recorded.defects` — the windows have no defects as a timeline;
* `capture_windows` — the windows of every run.
-/
import IsaacTeleop.StepTimeline

namespace CaptureTake

/-! ### The take -/

/-- `Phase` -/
inductive Phase
  | idle
  | cueing
  | waiting
  | holding
  | closing
  | done
  deriving DecidableEq

/-- `Sound` -/
inductive Sound
  | cue
  | count
  | start
  | end
  deriving DecidableEq

/-- What a call gives: nothing, a sound to play, or an exception. -/
inductive Reply
  | nothing
  | sound (sound : Sound)
  | indexError
  | keyError
  | overflowError
  | assertionError
  deriving DecidableEq

structure Window where
  index : ℕ
  label : String
  startNs : ℤ
  endNs : ℤ
  isStillWindow : Bool
  deriving DecidableEq

/-- A step of the script; its spoken text is the caller's. -/
structure ScriptStep where
  label : String
  durationS : ℚ

/-- What a take is made with; every label has a spoken length. -/
structure Script where
  /-- `seconds * 1e9` in doubles, none where the product is infinite -/
  timesE9 : ℚ → Option ℚ
  steps : List ScriptStep
  cueSeconds : String → Option ℚ
  endToneS : ℚ
  beats : ℤ
  beatS : ℚ
  /-- `STILL_LABELS` -/
  stillLabels : List String
  covered : ∀ step ∈ steps, (cueSeconds step.label).isSome = true

/-- The state of a `Take`. -/
structure State where
  phase : Phase
  index : ℕ
  endsNs : Option ℤ
  beatsLeft : ℤ
  openedNs : Option ℤ
  windows : List Window
  deriving DecidableEq

/-- `int(x)` of a finite double. -/
def truncate (x : ℚ) : ℤ := x.num.tdiv x.den

namespace Script

variable (script : Script)

/-- `int(seconds * 1e9)`; an infinite product raises. -/
def ns (seconds : ℚ) : Option ℤ := (script.timesE9 seconds).map truncate

/-- `_ends_ns = now_ns + int(seconds * 1e9)`, and the sound of the caller. -/
def endAfter (s : State) (now : ℤ) (seconds : ℚ) (sound : Sound) : State × Reply :=
  match script.ns seconds with
  | some length => ({ s with endsNs := some (now + length) }, .sound sound)
  | none => (s, .overflowError)

/-- `__init__` -/
def init : State where
  phase := .idle
  index := 0
  endsNs := none
  beatsLeft := 0
  openedNs := none
  windows := []

/-- `_beat` -/
def beat (s : State) (now : ℤ) : State × Reply :=
  script.endAfter { s with beatsLeft := s.beatsLeft - 1 } now script.beatS .count

/-- `_enter_cueing`, and the sound of its caller -/
def enterCueing (s : State) (now : ℤ) : State × Reply :=
  let s := { s with phase := .cueing }
  match script.steps[s.index]? with
  | none => (s, .indexError)
  | some step =>
    match script.cueSeconds step.label with
    | none => (s, .keyError)
    | some seconds => script.endAfter s now seconds .cue

/-- `start` -/
def start (s : State) (now : ℤ) : State × Reply :=
  match s.phase with
  | .idle => script.enterCueing s now
  | _ => (s, .nothing)

/-- The end of a hold: `_close`, and what comes next -/
def close (s : State) (now : ℤ) : State × Reply :=
  match s.openedNs, script.steps[s.index]? with
  | none, _ => (s, .assertionError)
  | some _, none => (s, .indexError)
  | some opened, some step =>
    let window : Window :=
      ⟨s.index, step.label, opened, now, script.stillLabels.contains step.label⟩
    let s := { s with windows := s.windows ++ [window], openedNs := none }
    if s.index + 1 ≥ script.steps.length then
      ({ s with phase := .done, endsNs := none }, .sound .end)
    else script.endAfter { s with phase := .closing } now script.endToneS .end

/-- The start of a hold. -/
def openWindow (s : State) (now : ℤ) : State × Reply :=
  let s := { s with openedNs := some now, phase := .holding }
  match script.steps[s.index]? with
  | none => (s, .indexError)
  | some step => script.endAfter s now step.durationS .start

/-- `advance` -/
def advance (s : State) (now : ℤ) : State × Reply :=
  match s.endsNs with
  | none => (s, .nothing)
  | some ends =>
    if now < ends then (s, .nothing)
    else
      match s.phase with
      | .cueing => script.beat { s with phase := .waiting, beatsLeft := script.beats } now
      | .waiting => if 0 < s.beatsLeft then script.beat s now else script.openWindow s now
      | .holding => script.close s now
      | .closing => script.enterCueing { s with index := s.index + 1 } now
      | .idle | .done => (s, .nothing)

end Script

/-- A call of the capture loop. -/
inductive Call
  | start (now : ℤ)
  | advance (now : ℤ)

def Call.time : Call → ℤ
  | start now => now
  | advance now => now

/-- A call. -/
def Script.call (script : Script) (s : State) : Call → State × Reply
  | .start now => script.start s now
  | .advance now => script.advance s now

/-- The state after some calls. -/
def Script.run (script : Script) (s : State) (calls : List Call) : State :=
  calls.foldl (fun s call => (script.call s call).1) s

/-! ### What is recorded -/

/-- The windows are those of the first steps, in order and apart, and have ended by now. -/
structure Recorded (script : Script) (windows : List Window) (now : ℤ) : Prop where
  steps : ∀ (i : ℕ) (window : Window), windows[i]? = some window →
    ∃ (step : ScriptStep) (length : ℤ), script.steps[i]? = some step ∧ window.index = i ∧
      window.label = step.label ∧ script.ns step.durationS = some length ∧
      window.startNs + length ≤ window.endNs
  apart : windows.Pairwise fun a b => a.endNs ≤ b.startNs
  ended : ∀ window ∈ windows, window.endNs ≤ now

variable {script : Script}

theorem Recorded.nil (now : ℤ) : Recorded script [] now :=
  ⟨fun i _ h => (by cases h), List.Pairwise.nil, fun _ h => absurd h List.not_mem_nil⟩

theorem Recorded.later {windows : List Window} {now now' : ℤ} (h : Recorded script windows now)
    (hle : now ≤ now') : Recorded script windows now' :=
  ⟨h.steps, h.apart, fun window hw => le_trans (h.ended window hw) hle⟩

/-- One more window, which opened when the others had ended. -/
theorem Recorded.concat {windows : List Window} {opened now length : ℤ} {step : ScriptStep}
    (still : Bool) (h : Recorded script windows opened)
    (hstep : script.steps[windows.length]? = some step)
    (hlength : script.ns step.durationS = some length) (hduration : opened + length ≤ now)
    (hnow : opened ≤ now) :
    Recorded script (windows ++ [⟨windows.length, step.label, opened, now, still⟩]) now := by
  constructor
  · intro i window hw
    rcases lt_trichotomy i windows.length with hi | rfl | hi
    · rw [List.getElem?_append_left hi] at hw
      exact h.steps i window hw
    · -- The window just closed is that of the step it was opened for.
      rw [List.getElem?_concat_length, Option.some_inj] at hw
      subst hw
      exact ⟨step, length, hstep, rfl, rfl, hlength, hduration⟩
    · rw [List.getElem?_eq_none (by simp; omega)] at hw
      cases hw
  · refine List.pairwise_append.mpr ⟨h.apart, List.pairwise_singleton _ _, fun a ha b hb => ?_⟩
    obtain rfl := List.mem_singleton.mp hb
    exact h.ended a ha
  · intro window hw
    rcases List.mem_append.mp hw with hw | hw
    · exact le_trans (h.ended window hw) hnow
    · obtain rfl := List.mem_singleton.mp hw
      exact le_rfl

/-! ### Every call keeps the windows in order -/

/-- The index and the deadline of a phase. -/
def PhaseInv (script : Script) (s : State) (now : ℤ) : Prop :=
  match s.phase with
  | .idle => s.windows = [] ∧ s.index = 0 ∧ s.openedNs = none ∧ s.endsNs = none
  | .cueing | .waiting => s.windows.length = s.index ∧ s.openedNs = none ∧
      (s.endsNs ≠ none → s.index < script.steps.length)
  | .holding => s.windows.length = s.index ∧ ∃ (opened length : ℤ) (step : ScriptStep),
      s.openedNs = some opened ∧ opened ≤ now ∧ script.steps[s.index]? = some step ∧
      script.ns step.durationS = some length ∧ s.endsNs = some (opened + length)
  | .closing => s.windows.length = s.index + 1 ∧ s.openedNs = none ∧
      s.index + 1 < script.steps.length
  | .done => s.windows.length = script.steps.length ∧ s.openedNs = none ∧ s.endsNs = none

/-- What holds after a call at a time. -/
structure Inv (script : Script) (s : State) (now : ℤ) : Prop where
  recorded : Recorded script s.windows (s.openedNs.getD now)
  phase : PhaseInv script s now

theorem Inv.init (now : ℤ) : Inv script Script.init now :=
  ⟨Recorded.nil now, rfl, rfl, rfl, rfl⟩

theorem Inv.later {s : State} {now now' : ℤ} (h : Inv script s now) (hle : now ≤ now') :
    Inv script s now' := by
  obtain ⟨hrecorded, hphase⟩ := h
  constructor
  · cases hopened : s.openedNs with
    | none =>
      rw [hopened] at hrecorded
      exact hrecorded.later hle
    | some opened =>
      rw [hopened] at hrecorded
      exact hrecorded
  · rw [PhaseInv] at hphase ⊢
    cases hp : s.phase with
    | holding =>
      rw [hp] at hphase
      obtain ⟨hlength, opened, length, step, hopened, hopenedLe, hrest⟩ := hphase
      exact ⟨hlength, opened, length, step, hopened, le_trans hopenedLe hle, hrest⟩
    | idle | cueing | waiting | closing | done =>
      rw [hp] at hphase
      exact hphase

/-- A deadline changes nothing else, whether it is set or the product is infinite. -/
theorem endAfter_eq (script : Script) (s : State) (now : ℤ) (seconds : ℚ) (sound : Sound) :
    ∃ ends, (script.endAfter s now seconds sound).1 = { s with endsNs := ends } := by
  unfold Script.endAfter
  cases script.ns seconds with
  | some length => exact ⟨some (now + length), rfl⟩
  | none => exact ⟨s.endsNs, rfl⟩

/-- The cue of a step. -/
theorem Inv.enterCueing {s : State} {now : ℤ} (hrecorded : Recorded script s.windows now)
    (hlength : s.windows.length = s.index) (hopened : s.openedNs = none)
    (hends : s.index < script.steps.length ∨ s.endsNs = none) :
    Inv script (script.enterCueing s now).1 now := by
  have hrecorded' : Recorded script s.windows (s.openedNs.getD now) := by
    rw [hopened]
    exact hrecorded
  unfold Script.enterCueing
  dsimp only
  cases hstep : script.steps[s.index]? with
  | none =>
    refine ⟨hrecorded', hlength, hopened, fun hne => ?_⟩
    exact hends.resolve_right hne
  | some step =>
    have hlt : s.index < script.steps.length := (List.getElem?_eq_some_iff.mp hstep).1
    dsimp only
    split
    · exact ⟨hrecorded', hlength, hopened, fun _ => hlt⟩
    · rename_i seconds _
      obtain ⟨ends, heq⟩ := endAfter_eq script { s with phase := .cueing } now seconds .cue
      rw [heq]
      exact ⟨hrecorded', hlength, hopened, fun _ => hlt⟩

/-- A beat of the countdown. -/
theorem Inv.beat {s : State} {now : ℤ} (hrecorded : Recorded script s.windows (s.openedNs.getD now))
    (hphase : s.phase = .cueing ∨ s.phase = .waiting) (hlength : s.windows.length = s.index)
    (hopened : s.openedNs = none) (hlt : s.index < script.steps.length) :
    Inv script (script.beat s now).1 now := by
  unfold Script.beat
  obtain ⟨ends, heq⟩ := endAfter_eq script { s with beatsLeft := s.beatsLeft - 1 } now
    script.beatS .count
  rw [heq]
  refine ⟨hrecorded, ?_⟩
  rw [PhaseInv]
  rcases hphase with hphase | hphase <;> simp only [hphase] <;>
    exact ⟨hlength, hopened, fun _ => hlt⟩

/-- The start of a hold. -/
theorem Inv.openWindow {s : State} {now : ℤ} (hrecorded : Recorded script s.windows now)
    (hlength : s.windows.length = s.index) (hlt : s.index < script.steps.length)
    (hfinite : ∀ step ∈ script.steps, (script.timesE9 step.durationS).isSome = true) :
    Inv script (script.openWindow s now).1 now := by
  obtain ⟨product, hproduct⟩ := Option.isSome_iff_exists.mp
    (hfinite script.steps[s.index] (List.getElem_mem hlt))
  have hns : script.ns script.steps[s.index].durationS = some (truncate product) := by
    rw [Script.ns, hproduct, Option.map_some]
  unfold Script.openWindow
  dsimp only
  rw [List.getElem?_eq_getElem hlt]
  dsimp only
  rw [Script.endAfter, hns]
  refine ⟨hrecorded, hlength, now, truncate product, script.steps[s.index], rfl, le_rfl, ?_, hns,
    rfl⟩
  exact List.getElem?_eq_getElem hlt

/-- The end of a hold. -/
theorem Inv.close {s : State} {opened now length : ℤ} {step : ScriptStep}
    (hrecorded : Recorded script s.windows opened) (hlength : s.windows.length = s.index)
    (hopened : s.openedNs = some opened) (hstep : script.steps[s.index]? = some step)
    (hns : script.ns step.durationS = some length) (hends : opened + length ≤ now)
    (hnow : opened ≤ now) : Inv script (script.close s now).1 now := by
  have hlt : s.index < script.steps.length := (List.getElem?_eq_some_iff.mp hstep).1
  rw [← hlength] at hstep
  have hwindows := Recorded.concat (script.stillLabels.contains step.label) hrecorded hstep hns
    hends hnow
  rw [hlength] at hwindows hstep
  unfold Script.close
  rw [hopened, hstep]
  dsimp only
  have hlength' : ∀ window : Window, (s.windows ++ [window]).length = s.index + 1 := by
    intro window
    rw [List.length_append, hlength]
    rfl
  split
  · -- That was the last step, or the end tone of this one is played.
    exact ⟨hwindows, (hlength' _).trans (by omega), rfl, rfl⟩
  · rename_i hmore
    obtain ⟨ends, heq⟩ := endAfter_eq script { s with
      windows := s.windows ++
        [⟨s.index, step.label, opened, now, script.stillLabels.contains step.label⟩]
      openedNs := none
      phase := .closing } now script.endToneS .end
    rw [heq]
    exact ⟨hwindows, hlength' _, rfl, not_le.mp hmore⟩

/-- **A tick** keeps the windows in order. -/
theorem Inv.advance {s : State} {now : ℤ} (h : Inv script s now)
    (hfinite : ∀ step ∈ script.steps, (script.timesE9 step.durationS).isSome = true) :
    Inv script (script.advance s now).1 now := by
  have hkeep := h
  obtain ⟨hrecorded, hphase⟩ := h
  rw [PhaseInv] at hphase
  unfold Script.advance
  cases hends : s.endsNs with
  | none => exact hkeep
  | some ends =>
    dsimp only
    -- Nothing moves before the deadline of the phase.
    by_cases hlate : now < ends
    · rw [if_pos hlate]
      exact hkeep
    rw [if_neg hlate]
    cases hp : s.phase with
    | idle => exact hkeep
    | done => exact hkeep
    | cueing =>
      rw [hp] at hphase
      obtain ⟨hlength, hopened, hlt⟩ := hphase
      exact Inv.beat hrecorded (.inr rfl) hlength hopened (hlt (by rw [hends]; simp))
    | waiting =>
      rw [hp] at hphase
      obtain ⟨hlength, hopened, hlt⟩ := hphase
      have hlt := hlt (by rw [hends]; simp)
      dsimp only
      split
      · exact Inv.beat hrecorded (.inr hp) hlength hopened hlt
      · rw [hopened] at hrecorded
        exact Inv.openWindow hrecorded hlength hlt hfinite
    | holding =>
      -- The deadline of the window has passed, so what is recorded is as long as the step asks.
      rw [hp] at hphase
      obtain ⟨hlength, opened, length, step, hopened, hopenedLe, hstep, hns, hends'⟩ := hphase
      rw [hends, Option.some_inj] at hends'
      rw [hopened, Option.getD_some] at hrecorded
      exact Inv.close hrecorded hlength hopened hstep hns (by omega) hopenedLe
    | closing =>
      rw [hp] at hphase
      obtain ⟨hlength, hopened, hlt⟩ := hphase
      rw [hopened] at hrecorded
      exact Inv.enterCueing hrecorded hlength hopened (.inl hlt)

theorem Inv.start {s : State} {now : ℤ} (h : Inv script s now) :
    Inv script (script.start s now).1 now := by
  have hkeep := h
  obtain ⟨hrecorded, hphase⟩ := h
  rw [PhaseInv] at hphase
  unfold Script.start
  cases hp : s.phase with
  | idle =>
    rw [hp] at hphase
    obtain ⟨hwindows, hindex, hopened, hends⟩ := hphase
    rw [hopened] at hrecorded
    exact Inv.enterCueing hrecorded (by rw [hwindows, hindex]; rfl) hopened (.inr hends)
  | cueing | waiting | holding | closing | done => exact hkeep

/-- **After every run** with non-decreasing times the windows are in order. -/
theorem Inv.run {s : State} {calls : List Call} {now : ℤ} (h : Inv script s now)
    (hfinite : ∀ step ∈ script.steps, (script.timesE9 step.durationS).isSome = true)
    (htimes : (now :: calls.map Call.time).Pairwise (· ≤ ·)) :
    ∃ now', Inv script (script.run s calls) now' := by
  induction calls generalizing s now with
  | nil => exact ⟨now, h⟩
  | cons call calls ih =>
    rw [List.map_cons, List.pairwise_cons] at htimes
    have hlater := h.later (htimes.1 call.time List.mem_cons_self)
    refine ih ?_ htimes.2
    cases call with
    | start now' => exact hlater.start
    | advance now' => exact hlater.advance hfinite

/-! ### The windows as a timeline -/

/-- The label sidecar of a window. -/
def Window.toStep (window : Window) : StepTimeline.Step :=
  ⟨window.index, window.label, window.startNs, window.endNs, window.isStillWindow⟩

theorem one_le_truncate {x : ℚ} (h : 1 ≤ x) : 1 ≤ truncate x := by
  have hnum : 0 ≤ x.num := Rat.num_nonneg.mpr (by linarith)
  rw [truncate, Int.tdiv_eq_ediv_of_nonneg hnum, ← Rat.floor_def, Rat.le_floor_iff]
  exact_mod_cast h

/-- The rounded product of at least a nanosecond is at least one: one is a double. -/
def Rounds (timesE9 : ℚ → Option ℚ) : Prop :=
  ∀ seconds product, timesE9 seconds = some product → 1 ≤ seconds * 1000000000 → 1 ≤ product

/-- A step of at least a nanosecond is held for at least one. -/
theorem one_le_ns (hrounds : Rounds script.timesE9) {seconds : ℚ} {length : ℤ}
    (h : 1 / 1000000000 ≤ seconds) (hns : script.ns seconds = some length) : 1 ≤ length := by
  obtain ⟨product, hproduct, rfl⟩ := Option.map_eq_some_iff.mp hns
  exact one_le_truncate (hrounds seconds product hproduct (by linarith))

theorem Recorded.length_le {windows : List Window} {now : ℤ} (h : Recorded script windows now) :
    windows.length ≤ script.steps.length := by
  rcases Nat.eq_zero_or_pos windows.length with hzero | hpos
  · omega
  · obtain ⟨step, -, hstep, -⟩ := h.steps (windows.length - 1) windows[windows.length - 1]
      (List.getElem?_eq_getElem (by omega))
    have hlt := (List.getElem?_eq_some_iff.mp hstep).1
    omega

/-- The labels of the windows are those of the first steps. -/
theorem Recorded.labels {windows : List Window} {now : ℤ} (h : Recorded script windows now) :
    windows.map Window.label = (script.steps.map ScriptStep.label).take windows.length := by
  refine List.ext_getElem? fun i => ?_
  rw [List.getElem?_map, List.getElem?_take, List.getElem?_map]
  by_cases hi : i < windows.length
  · obtain ⟨step, -, hstep, -, hlabel, -⟩ := h.steps i windows[i] (List.getElem?_eq_getElem hi)
    rw [if_pos hi, List.getElem?_eq_getElem hi, hstep, Option.map_some, Option.map_some, hlabel]
  · rw [if_neg hi, List.getElem?_eq_none (by omega), Option.map_none]

/-- **The windows have no defects**, once there is one. -/
theorem Recorded.defects {windows : List Window} {now : ℤ} (h : Recorded script windows now)
    (hlabels : (script.steps.map ScriptStep.label).Nodup)
    (hdurations : ∀ step ∈ script.steps, 1 / 1000000000 ≤ step.durationS)
    (hrounds : Rounds script.timesE9) (hne : windows ≠ []) :
    StepTimeline.defects (windows.map Window.toStep) = [] := by
  have hproper : ∀ window ∈ windows, window.startNs < window.endNs := by
    intro window hw
    obtain ⟨i, hi⟩ := List.getElem?_of_mem hw
    obtain ⟨step, length, hstep, -, -, hns, hlong⟩ := h.steps i window hi
    have hone := one_le_ns hrounds (hdurations step (List.mem_of_getElem? hstep)) hns
    omega
  have hbefore : (windows.map Window.toStep).Pairwise fun a b => a.endNs ≤ b.startNs :=
    List.pairwise_map.mpr h.apart
  have hproper' : ∀ step ∈ windows.map Window.toStep, StepTimeline.Proper step := by
    intro step hstep
    obtain ⟨window, hw, rfl⟩ := List.mem_map.mp hstep
    exact hproper window hw
  -- The windows start in the order in which they are listed.
  have hsorted : (windows.map Window.toStep).Pairwise fun a b => a.startNs ≤ b.startNs := by
    refine hbefore.imp_of_mem fun ha _ hab => ?_
    have hlt : _ < _ := hproper' _ ha
    omega
  refine (StepTimeline.defects_eq_nil_iff _).mpr ⟨⟨?_, hproper', ?_, ?_⟩, ?_⟩
  · simpa using hne
  · refine (hsorted.and hbefore).imp_of_mem fun _ hb hab => ?_
    exact (StepTimeline.apart_iff (hproper' _ hb) hab.1).mpr hab.2
  · rw [List.map_map]
    have hmap : windows.map (StepTimeline.Step.label ∘ Window.toStep) =
        windows.map Window.label := rfl
    rw [hmap, h.labels]
    exact hlabels.sublist (List.take_sublist _ _)
  · rw [StepTimeline.ListedInOrder, StepTimeline.ordered, hsorted.insertionSort_eq]

/-! ### Runs -/

/-- No call changes a take that is done. -/
theorem call_of_done {s : State} (hphase : s.phase = .done) (hends : s.endsNs = none)
    (call : Call) : script.call s call = (s, .nothing) := by
  cases call with
  | start now => rw [Script.call, Script.start, hphase]
  | advance now => rw [Script.call, Script.advance, hends]

theorem run_of_done {s : State} (hphase : s.phase = .done) (hends : s.endsNs = none)
    (calls : List Call) : script.run s calls = s := by
  induction calls with
  | nil => rfl
  | cons call calls ih =>
    rw [Script.run, List.foldl_cons, call_of_done hphase hends]
    exact ih

/-- **Capture windows.**  In every run with non-decreasing times, the windows recorded so far are
those of the first steps in order, with indices from 0, each at least as long as the nanoseconds
that the product of doubles gives for its step, pairwise disjoint with increasing times, and without
defects once there is one; and a take that is done has one window per step and does not change any
more. -/
theorem capture_windows (script : Script) (hlabels : (script.steps.map ScriptStep.label).Nodup)
    (hdurations : ∀ step ∈ script.steps, 1 / 1000000000 ≤ step.durationS)
    (hfinite : ∀ step ∈ script.steps, (script.timesE9 step.durationS).isSome = true)
    (hrounds : Rounds script.timesE9) (calls : List Call)
    (htimes : (calls.map Call.time).Pairwise (· ≤ ·)) :
    (script.run Script.init calls).windows.length ≤ script.steps.length ∧
    (∀ (i : ℕ) (window : Window), (script.run Script.init calls).windows[i]? = some window →
      ∃ (step : ScriptStep) (length : ℤ), script.steps[i]? = some step ∧ window.index = i ∧
        window.label = step.label ∧ script.ns step.durationS = some length ∧
        window.startNs + length ≤ window.endNs ∧ window.startNs < window.endNs) ∧
    ((script.run Script.init calls).windows.Pairwise fun a b => a.endNs ≤ b.startNs) ∧
    ((script.run Script.init calls).windows ≠ [] →
      StepTimeline.defects ((script.run Script.init calls).windows.map Window.toStep) = []) ∧
    ((script.run Script.init calls).phase = .done →
      (script.run Script.init calls).windows.length = script.steps.length ∧
      (∀ call, script.call (script.run Script.init calls) call =
        (script.run Script.init calls, .nothing)) ∧
      ∀ later, script.run Script.init (calls ++ later) = script.run Script.init calls) := by
  -- The clock of the first call starts the run, and the calls move it forward only.
  obtain ⟨now, hinv⟩ : ∃ now, Inv script (script.run Script.init calls) now := by
    cases calls with
    | nil => exact ⟨0, Inv.init 0⟩
    | cons call calls =>
      refine Inv.run (Inv.init call.time) hfinite (List.pairwise_cons.mpr ⟨?_, htimes⟩)
      rw [List.map_cons, List.pairwise_cons] at htimes
      intro time htime
      rcases List.mem_cons.mp htime with rfl | htime
      · exact le_rfl
      · exact htimes.1 time htime
  have hrecorded := hinv.recorded
  refine ⟨hrecorded.length_le, ?_, hrecorded.apart,
    fun hne => hrecorded.defects hlabels hdurations hrounds hne, ?_⟩
  · intro i window hw
    obtain ⟨step, length, hstep, hindex, hlabel, hns, hlong⟩ := hrecorded.steps i window hw
    have hone := one_le_ns hrounds (hdurations step (List.mem_of_getElem? hstep)) hns
    exact ⟨step, length, hstep, hindex, hlabel, hns, hlong, by omega⟩
  · intro hdone
    have hphase := hinv.phase
    rw [PhaseInv, hdone] at hphase
    obtain ⟨hlength, -, hends⟩ := hphase
    refine ⟨hlength, call_of_done hdone hends, fun later => ?_⟩
    rw [Script.run, List.foldl_append]
    exact run_of_done hdone hends later

/-- The product where it needs no rounding, and none beyond the largest double. -/
def exactTimesE9 (seconds : ℚ) : Option ℚ :=
  if seconds * 1000000000 < 2 ^ 1024 then some (seconds * 1000000000) else none

theorem rounds_exactTimesE9 : Rounds exactTimesE9 := by
  intro seconds product hproduct hone
  obtain ⟨-, hsome⟩ := Option.ite_none_right_eq_some.mp hproduct
  exact Option.some_inj.mp hsome ▸ hone

/-- Two steps, the second of a bit more than one nanosecond and a half; the products are doubles. -/
def twoSteps : Script where
  timesE9 := exactTimesE9
  steps := [⟨"flat_on_table_open", 4⟩, ⟨"fist", 1 / 2 ^ 29⟩]
  cueSeconds _ := some 0
  endToneS := 0
  beats := 0
  beatS := 0
  stillLabels := ["flat_on_table_open", "fist"]
  covered := fun _ _ => rfl

/-- The calls of a take of the two steps. -/
def twoStepCalls : List Call :=
  [.start 0, .advance 0, .advance 0, .advance 5000000000, .advance 5000000000, .advance 5000000000,
    .advance 5000000000, .advance 5000000001]

theorem two_windows :
    (twoSteps.run Script.init twoStepCalls).phase = .done ∧
    (twoSteps.run Script.init twoStepCalls).windows.length = 2 ∧
    StepTimeline.defects ((twoSteps.run Script.init twoStepCalls).windows.map Window.toStep) =
      [] := by
  have hdone : (twoSteps.run Script.init twoStepCalls).phase = .done := by decide +kernel
  have hlabels : (twoSteps.steps.map ScriptStep.label).Nodup := by decide
  have hdurations : ∀ step ∈ twoSteps.steps, 1 / 1000000000 ≤ step.durationS := by
    simp only [twoSteps, List.mem_cons, List.not_mem_nil, or_false]
    rintro step (rfl | rfl) <;> norm_num
  have hfinite : ∀ step ∈ twoSteps.steps, (twoSteps.timesE9 step.durationS).isSome = true := by
    simp only [twoSteps, List.mem_cons, List.not_mem_nil, or_false]
    rintro step (rfl | rfl) <;> decide +kernel
  have htimes : (twoStepCalls.map Call.time).Pairwise (· ≤ ·) := by decide
  have h := capture_windows twoSteps hlabels hdurations hfinite rounds_exactTimesE9 twoStepCalls
    htimes
  have hlength := (h.2.2.2.2 hdone).1
  refine ⟨hdone, hlength, h.2.2.2.1 fun hnil => ?_⟩
  rw [hnil] at hlength
  cases hlength

/-- One step that is so long that its product is infinite. -/
def endlessStep : Script := { twoSteps with
  steps := [⟨"fist", 2 ^ 1000⟩]
  covered := fun _ _ => rfl }

/-- A take without a window yet has a defect as a timeline; a window can be shorter than its step by
less than a nanosecond; and when the product is infinite, the hold raises and the next tick closes
its window. -/
theorem short_window :
    StepTimeline.defects ((twoSteps.run Script.init []).windows.map Window.toStep) ≠ [] ∧
    (∃ window ∈ (twoSteps.run Script.init twoStepCalls).windows, window.label = "fist" ∧
      ((window.endNs - window.startNs : ℤ) : ℚ) < 1 / 2 ^ 29 * 1000000000) ∧
    (endlessStep.run Script.init [.start 0, .advance 0, .advance 0, .advance 0]).windows =
      [⟨0, "fist", 0, 0, true⟩] := by
  refine ⟨by decide, ⟨⟨1, "fist", 5000000000, 5000000001, true⟩, by decide +kernel, rfl, ?_⟩,
    by decide +kernel⟩
  norm_num

end CaptureTake
