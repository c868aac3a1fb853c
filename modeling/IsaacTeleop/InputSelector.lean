/-
The debounced boolean selector of a teleop-control graph.

A frame gives the selector a sample: nothing, a truth value or a number.  A number is compared
with the threshold, or with the release threshold while the output is true, and the output
follows only after enough frames in a row that disagree with it.

* `computeFn` — one frame of `_BoolSelectorRetargeter`, with its two counters;
* `History` — the same without counters: the frames since the last flip or absence;
* `selector_history` — every sequence of samples gives the outputs of its history.
-/
import IsaacTeleop.PythonJson

namespace InputSelector

/-- What the selected input gives in a frame. -/
inductive Sample (φ : Type)
  /-- The input is absent. -/
  | absent
  /-- `selector_fn` returns `None`. -/
  | none
  | bool (b : Bool)
  /-- A number, as `float` reads it. -/
  | number (x : φ)
  /-- Any other value. -/
  | other
  deriving DecidableEq, Repr

structure Config (φ : Type) where
  threshold : φ
  releaseThreshold : φ
  activateFrames : ℕ
  deactivateFrames : ℕ
  initialState : Bool

structure Selector where
  debouncedState : Bool
  activateCount : ℕ
  deactivateCount : ℕ
  deriving DecidableEq, Repr

/-- What a frame puts out: a value, nothing, or a `TypeError`. -/
inductive Output
  | value (b : Bool)
  | absent
  | typeError
  deriving DecidableEq, Repr

variable {φ : Type} [PyFloat φ]

/-- `x >= y` -/
def ge (x y : φ) : Bool := PyFloat.lt y x || PyFloat.eq x y

def Config.initial (config : Config φ) : Selector := ⟨config.initialState, 0, 0⟩

/-- `_normalize_raw_value` of a number -/
def normalizeRawNumber (config : Config φ) (s : Selector) (x : φ) : Bool :=
  if s.debouncedState then ge x config.releaseThreshold else ge x config.threshold

def updateDebouncedState (config : Config φ) (s : Selector) (rawState : Bool) : Selector :=
  if rawState = s.debouncedState then { s with activateCount := 0, deactivateCount := 0 }
  else if rawState then
    if config.activateFrames ≤ s.activateCount + 1 then ⟨true, 0, 0⟩
    else { s with activateCount := s.activateCount + 1, deactivateCount := 0 }
  else
    if config.deactivateFrames ≤ s.deactivateCount + 1 then ⟨false, 0, 0⟩
    else { s with deactivateCount := s.deactivateCount + 1, activateCount := 0 }

def computeFn (config : Config φ) (s : Selector) : Sample φ → Output × Selector
  | .absent | .none => (.absent, config.initial)
  | .bool b =>
    let s' := updateDebouncedState config s b
    (.value s'.debouncedState, s')
  | .number x =>
    let s' := updateDebouncedState config s (normalizeRawNumber config s x)
    (.value s'.debouncedState, s')
  | .other => (.typeError, s)

/-- The outputs of a sequence of frames, and the state after it. -/
def run (config : Config φ) : List (Sample φ) → List Output × Selector
  | samples => samples.foldl (fun (outputs, s) sample =>
      let (output, s') := computeFn config s sample
      (outputs ++ [output], s')) ([], config.initial)

/-! ### The history -/

/-- `True`, or a number of at least the threshold. -/
def Config.active (config : Config φ) : Sample φ → Bool
  | .bool b => b
  | .number x => ge x config.threshold
  | _ => false

/-- `False`, or a number that is not at least the release threshold. -/
def Config.inactive (config : Config φ) : Sample φ → Bool
  | .bool b => !b
  | .number x => !ge x config.releaseThreshold
  | _ => false

/-- The output, and the frames since it last flipped or was absent, newest first. -/
structure History (φ : Type) where
  value : Bool
  recent : List (Sample φ)

/-- There are `n` frames, and the newest `n` of them satisfy `p`. -/
def Lasts (n : ℕ) (p : Sample φ → Bool) (recent : List (Sample φ)) : Prop :=
  n ≤ recent.length ∧ ∀ sample ∈ recent.take n, p sample = true

omit [PyFloat φ] in
instance (n : ℕ) (p : Sample φ → Bool) (recent : List (Sample φ)) : Decidable (Lasts n p recent) :=
  inferInstanceAs (Decidable (_ ∧ _))

/-- A frame with a value flips the output when enough newest frames disagree with it. -/
def History.present (config : Config φ) (inactive : Sample φ → Bool) (h : History φ)
    (sample : Sample φ) : History φ :=
  let recent := sample :: h.recent
  if h.value = false ∧ Lasts config.activateFrames config.active recent then ⟨true, []⟩
  else if h.value = true ∧ Lasts config.deactivateFrames inactive recent then ⟨false, []⟩
  else ⟨h.value, recent⟩

def History.step (config : Config φ) (inactive : Sample φ → Bool) (h : History φ) :
    Sample φ → Output × History φ
  | .absent | .none => (.absent, ⟨config.initialState, []⟩)
  | .other => (.typeError, h)
  | sample =>
    let h' := h.present config inactive sample
    (.value h'.value, h')

/-- The outputs that the history specifies, and the history after them. -/
def History.run (config : Config φ) (inactive : Sample φ → Bool) (samples : List (Sample φ)) :
    List Output × History φ :=
  samples.foldl (fun (outputs, h) sample =>
    let (output, h') := h.step config inactive sample
    (outputs ++ [output], h')) ([], ⟨config.initialState, []⟩)

/-! ### Counting -/

omit [PyFloat φ] in
/-- The newest frames that satisfy `p` in a row decide. -/
theorem lasts_iff {n : ℕ} {p : Sample φ → Bool} {recent : List (Sample φ)} :
    Lasts n p recent ↔ n ≤ (recent.takeWhile p).length := by
  unfold Lasts
  induction recent generalizing n with
  | nil => simp
  | cons sample rest ih =>
    cases n with
    | zero => simp
    | succ n =>
      rw [List.take_succ_cons, List.forall_mem_cons, List.length_cons, Nat.succ_le_succ_iff]
      cases hp : p sample with
      | true =>
        rw [List.takeWhile_cons_of_pos hp, List.length_cons, Nat.succ_le_succ_iff, ← ih]
        simp
      | false =>
        rw [List.takeWhile_cons_of_neg (by simp [hp])]
        simp

/-- **The simulation:** the counter of the state that the output could flip to counts the newest
frames in a row that ask for it, and the other counter is zero. -/
structure Sim (config : Config φ) (s : Selector) (h : History φ) : Prop where
  value : s.debouncedState = h.value
  activate : h.value = false → s.activateCount = (h.recent.takeWhile config.active).length ∧
    s.deactivateCount = 0 ∧ s.activateCount < config.activateFrames
  deactivate : h.value = true → s.deactivateCount = (h.recent.takeWhile config.inactive).length ∧
    s.activateCount = 0 ∧ s.deactivateCount < config.deactivateFrames

variable {config : Config φ} {s : Selector} {h : History φ}

theorem Sim.fresh (hactivate : 1 ≤ config.activateFrames)
    (hdeactivate : 1 ≤ config.deactivateFrames) (b : Bool) : Sim config ⟨b, 0, 0⟩ ⟨b, []⟩ :=
  ⟨rfl, fun _ => ⟨rfl, rfl, hactivate⟩, fun _ => ⟨rfl, rfl, hdeactivate⟩⟩

/-- A frame with a value, whose raw state is what its history makes it. -/
theorem Sim.present (hsim : Sim config s h) (hactivate : 1 ≤ config.activateFrames)
    (hdeactivate : 1 ≤ config.deactivateFrames) (sample : Sample φ) (rawState : Bool)
    (hactive : h.value = false → config.active sample = rawState)
    (hinactive : h.value = true → config.inactive sample = !rawState) :
    Sim config (updateDebouncedState config s rawState)
      (h.present config config.inactive sample) := by
  unfold updateDebouncedState History.present
  rw [hsim.value]
  simp only [lasts_iff]
  cases hvalue : h.value with
  | false =>
    obtain ⟨hcount, hzero, hlimit⟩ := hsim.activate hvalue
    have hraw := hactive hvalue
    cases rawState with
    | false =>
      -- The frame agrees with the output: the row of active frames ends.
      have hrow : ((sample :: h.recent).takeWhile config.active).length = 0 := by
        rw [List.takeWhile_cons_of_neg (by simp [hraw])]
        rfl
      rw [if_pos rfl, if_neg (by omega), if_neg (by simp)]
      exact ⟨rfl, fun _ => ⟨hrow.symm, rfl, hactivate⟩, nofun⟩
    | true =>
      have hrow : ((sample :: h.recent).takeWhile config.active).length = s.activateCount + 1 := by
        rw [List.takeWhile_cons_of_pos hraw, List.length_cons, hcount]
      rw [if_neg nofun, if_pos rfl]
      by_cases hflip : config.activateFrames ≤ s.activateCount + 1
      · rw [if_pos hflip, if_pos ⟨rfl, hrow ▸ hflip⟩]
        exact Sim.fresh hactivate hdeactivate true
      · rw [if_neg hflip, if_neg (by rw [hrow]; exact fun h => hflip h.2), if_neg (by simp)]
        exact ⟨rfl, fun _ => ⟨hrow.symm, rfl, not_le.mp hflip⟩, nofun⟩
  | true =>
    obtain ⟨hcount, hzero, hlimit⟩ := hsim.deactivate hvalue
    have hraw := hinactive hvalue
    cases rawState with
    | true =>
      have hrow : ((sample :: h.recent).takeWhile config.inactive).length = 0 := by
        rw [List.takeWhile_cons_of_neg (by simp [hraw])]
        rfl
      rw [if_pos rfl, if_neg (by simp), if_neg (by omega)]
      exact ⟨rfl, nofun, fun _ => ⟨hrow.symm, rfl, hdeactivate⟩⟩
    | false =>
      have hrow : ((sample :: h.recent).takeWhile config.inactive).length =
          s.deactivateCount + 1 := by
        rw [List.takeWhile_cons_of_pos hraw, List.length_cons, hcount]
      rw [if_neg nofun, if_neg nofun]
      by_cases hflip : config.deactivateFrames ≤ s.deactivateCount + 1
      · rw [if_pos hflip, if_neg (by simp), if_pos ⟨rfl, hrow ▸ hflip⟩]
        exact Sim.fresh hactivate hdeactivate false
      · rw [if_neg hflip, if_neg (by simp), if_neg (by rw [hrow]; exact fun h => hflip h.2)]
        exact ⟨rfl, nofun, fun _ => ⟨hrow.symm, rfl, not_le.mp hflip⟩⟩

/-- **One frame** gives the output that the history specifies, and keeps the simulation. -/
theorem Sim.step (hsim : Sim config s h) (hactivate : 1 ≤ config.activateFrames)
    (hdeactivate : 1 ≤ config.deactivateFrames) (sample : Sample φ) :
    (computeFn config s sample).1 = (h.step config config.inactive sample).1 ∧
      Sim config (computeFn config s sample).2 (h.step config config.inactive sample).2 := by
  cases sample with
  | absent | none => exact ⟨rfl, Sim.fresh hactivate hdeactivate config.initialState⟩
  | other => exact ⟨rfl, hsim⟩
  | bool b =>
    have hsim' := hsim.present hactivate hdeactivate (.bool b) b (fun _ => rfl) fun _ => rfl
    exact ⟨congrArg Output.value hsim'.value, hsim'⟩
  | number x =>
    have hsim' := hsim.present hactivate hdeactivate (.number x) (normalizeRawNumber config s x)
      (fun hvalue => ?_) fun hvalue => ?_
    · exact ⟨congrArg Output.value hsim'.value, hsim'⟩
    · rw [normalizeRawNumber, hsim.value, hvalue]
      rfl
    · rw [normalizeRawNumber, hsim.value, hvalue]
      rfl

theorem run_snoc (config : Config φ) (samples : List (Sample φ)) (sample : Sample φ) :
    run config (samples ++ [sample]) =
      ((run config samples).1 ++ [(computeFn config (run config samples).2 sample).1],
        (computeFn config (run config samples).2 sample).2) := by
  unfold run
  rw [List.foldl_append]
  rfl

theorem History.run_snoc (config : Config φ) (inactive : Sample φ → Bool)
    (samples : List (Sample φ)) (sample : Sample φ) :
    History.run config inactive (samples ++ [sample]) =
      ((History.run config inactive samples).1 ++
          [((History.run config inactive samples).2.step config inactive sample).1],
        ((History.run config inactive samples).2.step config inactive sample).2) := by
  unfold History.run
  rw [List.foldl_append]
  rfl

theorem run_sim (hactivate : 1 ≤ config.activateFrames) (hdeactivate : 1 ≤ config.deactivateFrames)
    (samples : List (Sample φ)) :
    (run config samples).1 = (History.run config config.inactive samples).1 ∧
      Sim config (run config samples).2 (History.run config config.inactive samples).2 := by
  induction samples using List.reverseRecOn with
  | nil => exact ⟨rfl, Sim.fresh hactivate hdeactivate config.initialState⟩
  | append_singleton samples sample ih =>
    obtain ⟨houtputs, hsim⟩ := ih
    obtain ⟨houtput, hsim'⟩ := hsim.step hactivate hdeactivate sample
    rw [run_snoc, History.run_snoc, houtputs, houtput]
    exact ⟨rfl, hsim'⟩

/-- **The selector follows its history**, and its counters stay below their limits, with at most
one of them above zero. -/
theorem selector_history (config : Config φ) (hactivate : 1 ≤ config.activateFrames)
    (hdeactivate : 1 ≤ config.deactivateFrames) (samples : List (Sample φ)) :
    (run config samples).1 = (History.run config config.inactive samples).1 ∧
      (run config samples).2.activateCount < config.activateFrames ∧
      (run config samples).2.deactivateCount < config.deactivateFrames ∧
      ((run config samples).2.activateCount = 0 ∨ (run config samples).2.deactivateCount = 0) := by
  obtain ⟨houtputs, hsim⟩ := run_sim hactivate hdeactivate samples
  refine ⟨houtputs, ?_⟩
  cases hvalue : (History.run config config.inactive samples).2.value with
  | false =>
    obtain ⟨-, hzero, hlimit⟩ := hsim.activate hvalue
    exact ⟨hlimit, by omega, .inr hzero⟩
  | true =>
    obtain ⟨-, hzero, hlimit⟩ := hsim.deactivate hvalue
    exact ⟨by omega, hlimit, .inl hzero⟩

/-! ### A number that is none -/

/-- The output starts true and falls at once. -/
def quickRelease : Config ExactFloat where
  threshold := .finite 1
  releaseThreshold := .finite 1
  activateFrames := 2
  deactivateFrames := 1
  initialState := true

/-- `False`, or a number below the release threshold. -/
def Config.below (config : Config φ) : Sample φ → Bool
  | .bool b => !b
  | .number x => PyFloat.lt x config.releaseThreshold
  | _ => false

/-- A NaN is not below the release threshold, and yet it releases. -/
theorem nan_releases :
    (run quickRelease [.number .nan]).1 ≠ (History.run quickRelease quickRelease.below
      [.number .nan]).1 := by
  decide

theorem quick_release_history :
    (run quickRelease [.number (.finite 2), .number .nan, .bool true, .bool true, .absent]).1 =
        [.value true, .value false, .value false, .value true, .absent] ∧
      (run quickRelease [.number (.finite 2), .number .nan, .bool true, .bool true, .absent]).1 =
        (History.run quickRelease quickRelease.inactive
          [.number (.finite 2), .number .nan, .bool true, .bool true, .absent]).1 :=
  ⟨by decide, (selector_history quickRelease (by decide) (by decide) _).1⟩

end InputSelector
