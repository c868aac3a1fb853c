/-
The jump guard of end-effector poses.

While enforced, the guard passes poses unchanged and holds the last accepted one when the input
jumps.  It goes back to passing after enough valid samples in a row near the held pose.  A step is
measured from the last input, an output from the last accepted pose; while the guard is tracking
these are the same position.

* `EePoseJumpGuard.computeFn` — one frame;
* `EePoseJumpGuard.Inv`, `EePoseJumpGuard.Inv.step` — what ties the input to the accepted pose;
* `EePoseJumpGuard.step_bound` — one frame moves the output by no more than the bound;
* `EePoseJumpGuard.hold_step`, `EePoseJumpGuard.hold_run` — what is held until it is recovered;
* `EePoseJumpGuard.jump_guard` — all runs.
-/
import IsaacTeleop.JointRateLimiter

namespace JumpGuard

/-! ### Configuration -/

structure EePoseJumpGuardConfig where
  linearVelocityMS : ℚ := 3
  linearDistanceFloorM : ℚ := 2 / 25
  nominalDtS : ℚ := 1 / 120
  minSampleDtS : ℚ := 1 / 10000
  maxSampleDtS : ℚ := 1 / 20
  recoveryDistanceM : ℚ := 2 / 25
  recoveryConsecutiveSamples : ℤ := 3

/-- The `ValueError`s of `__post_init__`. -/
inductive ConfigError
  /-- "… must be finite and > 0" -/
  | notPositive (field : String)
  /-- "require 0 < min_sample_dt_s <= nominal_dt_s <= max_sample_dt_s" -/
  | dtOrder
  /-- "recovery_consecutive_samples must be >= 1" -/
  | samplesBelowOne
  deriving DecidableEq

/-- The checks of `__post_init__` in their order: whether one fails, and its error. -/
def EePoseJumpGuardConfig.checks (cfg : EePoseJumpGuardConfig) : List (Bool × ConfigError) :=
  [(decide (cfg.linearVelocityMS ≤ 0), .notPositive "linear_velocity_m_s"),
    (decide (cfg.linearDistanceFloorM ≤ 0), .notPositive "linear_distance_floor_m"),
    (decide (cfg.nominalDtS ≤ 0), .notPositive "nominal_dt_s"),
    (decide (cfg.minSampleDtS ≤ 0), .notPositive "min_sample_dt_s"),
    (decide (cfg.maxSampleDtS ≤ 0), .notPositive "max_sample_dt_s"),
    (decide (cfg.recoveryDistanceM ≤ 0), .notPositive "recovery_distance_m"),
    (decide (¬ (cfg.minSampleDtS ≤ cfg.nominalDtS ∧ cfg.nominalDtS ≤ cfg.maxSampleDtS)), .dtOrder),
    (decide (cfg.recoveryConsecutiveSamples < 1), .samplesBelowOne)]

def EePoseJumpGuardConfig.postInit (cfg : EePoseJumpGuardConfig) : Except ConfigError Unit :=
  match cfg.checks.find? Prod.fst with
  | some (_, error) => .error error
  | none => .ok ()

/-- A configuration that was constructed. -/
structure ValidConfig extends EePoseJumpGuardConfig where
  valid : toEePoseJumpGuardConfig.postInit = .ok ()

namespace ValidConfig

variable (cfg : ValidConfig)

theorem check_passes {failed : Bool} (error : ConfigError)
    (h : (failed, error) ∈ cfg.toEePoseJumpGuardConfig.checks) : failed = false := by
  have hvalid := cfg.valid
  rw [EePoseJumpGuardConfig.postInit] at hvalid
  split at hvalid
  · cases hvalid
  · rename_i hnone
    rw [← Bool.not_eq_true]
    exact List.find?_eq_none.mp hnone _ h

theorem linearVelocityMS_pos : 0 < cfg.linearVelocityMS := by
  have h : decide (cfg.linearVelocityMS ≤ 0) = false :=
    cfg.check_passes (.notPositive "linear_velocity_m_s") (by simp [EePoseJumpGuardConfig.checks])
  simpa using h

theorem linearDistanceFloorM_pos : 0 < cfg.linearDistanceFloorM := by
  have h : decide (cfg.linearDistanceFloorM ≤ 0) = false :=
    cfg.check_passes (.notPositive "linear_distance_floor_m")
      (by simp [EePoseJumpGuardConfig.checks])
  simpa using h

theorem samples_pos : 1 ≤ cfg.recoveryConsecutiveSamples := by
  have h : decide (cfg.recoveryConsecutiveSamples < 1) = false :=
    cfg.check_passes .samplesBelowOne (by simp [EePoseJumpGuardConfig.checks])
  simpa using h

/-- The bound on a jump of the output. -/
def jumpBound : ℚ :=
  max (max cfg.linearDistanceFloorM (cfg.linearVelocityMS * cfg.maxSampleDtS))
    cfg.recoveryDistanceM

end ValidConfig

/-! ### The guard -/

inductive EePoseJumpGuardState
  | uninitialized
  | tracking
  | holding
  | recovering
  | disarmed
  deriving DecidableEq

inductive EePoseJumpGuardDisposition
  | latched
  | passed
  | rejected
  | held
  | recovering
  | recovered
  | heldNoInput
  | heldInvalid
  deriving DecidableEq

/-- The geometry: positions `P`, quaternions as they come in `R`, unit ones `Q`. -/
structure EePoseJumpGuard (P R Q : Type) where
  cfg : ValidConfig
  /-- `_normalize_quaternion`; `none` for an invalid one -/
  normalizeQuaternion : R → Option Q
  /-- `np.linalg.norm` of a difference -/
  distance : P → P → ℚ
  distance_self : ∀ p, distance p p = 0

structure GuardMemory (P Q : Type) where
  state : EePoseJumpGuardState := .uninitialized
  acceptedPose : Option (P × Q) := none
  lastInputPos : Option P := none
  lastComputeTimeNs : Option ℤ := none
  recoveryStreak : ℕ := 0
  triggerStepM : ℚ := 0
  maxHeldDistanceM : ℚ := 0
  maxHeldSpeedMS : ℚ := 0
  holdFrameCount : ℕ := 0

/-- What a call reads: a pose has its position, if that is finite, and its quaternion. -/
structure GuardFrame (P R : Type) where
  reset : Bool := false
  /-- `execution_state == RUNNING` -/
  running : Bool := true
  realTimeNs : ℤ
  input : Option (Option P × R)

/-- What `_write_status` writes. -/
structure GuardStatus where
  version : ℤ := 2
  state : EePoseJumpGuardState
  disposition : EePoseJumpGuardDisposition
  sampleDtS : ℚ
  effectiveDtS : ℚ
  decisionThresholdM : ℚ
  frameStepM : ℚ
  frameSpeedMS : ℚ
  referenceDistanceM : ℚ
  recoveryStreak : ℕ
  triggerStepM : ℚ
  maxHeldDistanceM : ℚ
  maxHeldSpeedMS : ℚ
  holdFrameCount : ℕ

/-- The measures of a frame, with the defaults of `_write_status`. -/
structure Measures where
  sampleDtS : ℚ
  effectiveDtS : ℚ
  decisionThresholdM : ℚ
  frameStepM : ℚ := 0
  frameSpeedMS : ℚ := 0
  referenceDistanceM : ℚ := 0

/-- `_write_status` -/
def writeStatus {P Q : Type} (s : GuardMemory P Q) (disposition : EePoseJumpGuardDisposition)
    (m : Measures) : GuardStatus where
  state := s.state
  disposition := disposition
  sampleDtS := m.sampleDtS
  effectiveDtS := m.effectiveDtS
  decisionThresholdM := m.decisionThresholdM
  frameStepM := m.frameStepM
  frameSpeedMS := m.frameSpeedMS
  referenceDistanceM := m.referenceDistanceM
  recoveryStreak := s.recoveryStreak
  triggerStepM := s.triggerStepM
  maxHeldDistanceM := s.maxHeldDistanceM
  maxHeldSpeedMS := s.maxHeldSpeedMS
  holdFrameCount := s.holdFrameCount

namespace EePoseJumpGuard

variable {P R Q : Type} (guard : EePoseJumpGuard P R Q)

/-- The pose of a frame that is present and valid, normalized. -/
def sample (frame : GuardFrame P R) : Option (P × Q) :=
  match frame.input with
  | none => none
  | some (none, _) => none
  | some (some pos, quaternion) =>
    (guard.normalizeQuaternion quaternion).map fun orientation => (pos, orientation)

/-- A valid sample while a pose is accepted. -/
def judge (s : GuardMemory P Q) (accepted pose : P × Q) (m : Measures) :
    GuardMemory P Q × Option (P × Q) × GuardStatus :=
  let frameStep :=
    match s.lastInputPos with
    | some last => guard.distance pose.1 last
    | none => 0
  let frameSpeed := frameStep / m.effectiveDtS
  let referenceDistance := guard.distance pose.1 accepted.1
  let m := { m with
    frameStepM := frameStep, frameSpeedMS := frameSpeed, referenceDistanceM := referenceDistance }
  let s := { s with lastInputPos := some pose.1 }
  if s.state = .tracking then
    if frameStep ≤ m.decisionThresholdM then
      let s := { s with acceptedPose := some pose }
      (s, some pose, writeStatus s .passed m)
    else
      let s := { s with
        state := .holding, triggerStepM := frameStep, maxHeldDistanceM := referenceDistance
        maxHeldSpeedMS := frameSpeed, holdFrameCount := 1, recoveryStreak := 0 }
      (s, some accepted, writeStatus s .rejected m)
  else
    let s := { s with
      holdFrameCount := s.holdFrameCount + 1
      maxHeldDistanceM := max s.maxHeldDistanceM referenceDistance
      maxHeldSpeedMS := max s.maxHeldSpeedMS frameSpeed }
    if referenceDistance ≤ guard.cfg.recoveryDistanceM then
      let s := { s with state := .recovering, recoveryStreak := s.recoveryStreak + 1 }
      if guard.cfg.recoveryConsecutiveSamples ≤ s.recoveryStreak then
        let s := { s with acceptedPose := some pose, state := .tracking }
        ({ s with
           recoveryStreak := 0, triggerStepM := 0, maxHeldDistanceM := 0, maxHeldSpeedMS := 0
           holdFrameCount := 0 }, some pose, writeStatus s .recovered m)
      else (s, some accepted, writeStatus s .recovering m)
    else
      let s := { s with state := .holding, recoveryStreak := 0 }
      (s, some accepted, writeStatus s .held m)

/-- `_compute_fn` after its reset and its times. -/
def govern (s : GuardMemory P Q) (frame : GuardFrame P R) (m : Measures) :
    GuardMemory P Q × Option (P × Q) × GuardStatus :=
  if frame.running then
    match frame.input with
    | none => (s, s.acceptedPose, writeStatus s .heldNoInput m)
    | some _ =>
      match guard.sample frame with
      | none => (s, s.acceptedPose, writeStatus s .heldInvalid m)
      | some pose =>
        match s.acceptedPose with
        | none =>
          let s := { s with
            acceptedPose := some pose, lastInputPos := some pose.1, state := .tracking }
          (s, some pose, writeStatus s .latched m)
        | some accepted => guard.judge s accepted pose m
  else
    -- `_disarm`; the pose passes through.
    let s : GuardMemory P Q :=
      { state := .disarmed, lastComputeTimeNs := some frame.realTimeNs }
    match frame.input, guard.sample frame with
    | none, _ => (s, none, writeStatus s .heldNoInput m)
    | some _, none => (s, none, writeStatus s .heldInvalid m)
    | some _, some pose => (s, some pose, writeStatus s .passed m)

/-- The time and the threshold of a frame. -/
def measures (s : GuardMemory P Q) (frame : GuardFrame P R) : Measures :=
  let dts := RateLimiter.frameDts s.lastComputeTimeNs frame.realTimeNs guard.cfg.nominalDtS
    guard.cfg.minSampleDtS guard.cfg.maxSampleDtS
  { sampleDtS := dts.1, effectiveDtS := dts.2
    decisionThresholdM := max guard.cfg.linearDistanceFloorM (guard.cfg.linearVelocityMS * dts.2) }

/-- `_compute_fn`: the memory after it, the pose that it emits, if any, and the status. -/
def computeFn (s : GuardMemory P Q) (frame : GuardFrame P R) :
    GuardMemory P Q × Option (P × Q) × GuardStatus :=
  let s : GuardMemory P Q := if frame.reset then {} else s
  guard.govern { s with lastComputeTimeNs := some frame.realTimeNs } frame
    (guard.measures s frame)

/-- The memory after some frames. -/
def run (s : GuardMemory P Q) (frames : List (GuardFrame P R)) : GuardMemory P Q :=
  frames.foldl (fun s frame => (guard.computeFn s frame).1) s

/-- The poses that are emitted. -/
def outputs (s : GuardMemory P Q) : List (GuardFrame P R) → List (P × Q)
  | [] => []
  | frame :: frames =>
    (guard.computeFn s frame).2.1.toList ++ outputs (guard.computeFn s frame).1 frames

/-! ### What an enforced frame does -/

/-- The state, the accepted pose, the last input and the streak after a frame. -/
structure Becomes (s : GuardMemory P Q) (state : EePoseJumpGuardState)
    (accepted : Option (P × Q)) (lastInput : Option P) (streak : ℕ) : Prop where
  state : s.state = state
  accepted : s.acceptedPose = accepted
  lastInput : s.lastInputPos = lastInput
  streak : s.recoveryStreak = streak

/-- Every way an enforced frame can go: from the memory, with the sample if it is valid, to the
memory after it, with the output and the disposition. -/
inductive Outcome (s : GuardMemory P Q) :
    Option (P × Q) → GuardMemory P Q → Option (P × Q) → EePoseJumpGuardDisposition → Prop
  | dropped {s' : GuardMemory P Q} {disposition : EePoseJumpGuardDisposition} :
      Becomes s' s.state s.acceptedPose s.lastInputPos s.recoveryStreak →
      disposition ≠ .rejected → Outcome s none s' s.acceptedPose disposition
  | latched {s' : GuardMemory P Q} {pose : P × Q} : s.acceptedPose = none →
      Becomes s' .tracking (some pose) (some pose.1) s.recoveryStreak →
      Outcome s (some pose) s' (some pose) .latched
  | passed {s' : GuardMemory P Q} {accepted pose : P × Q} : s.acceptedPose = some accepted →
      s.state = .tracking →
      (∀ last, s.lastInputPos = some last → guard.distance pose.1 last ≤
        max guard.cfg.linearDistanceFloorM (guard.cfg.linearVelocityMS * guard.cfg.maxSampleDtS)) →
      Becomes s' .tracking (some pose) (some pose.1) s.recoveryStreak →
      Outcome s (some pose) s' (some pose) .passed
  | rejected {s' : GuardMemory P Q} {accepted pose : P × Q} : s.acceptedPose = some accepted →
      s.state = .tracking → Becomes s' .holding (some accepted) (some pose.1) 0 →
      Outcome s (some pose) s' (some accepted) .rejected
  | recovered {s' : GuardMemory P Q} {accepted pose : P × Q} : s.acceptedPose = some accepted →
      s.state ≠ .tracking → guard.distance pose.1 accepted.1 ≤ guard.cfg.recoveryDistanceM →
      guard.cfg.recoveryConsecutiveSamples ≤ (s.recoveryStreak + 1 : ℕ) →
      Becomes s' .tracking (some pose) (some pose.1) 0 →
      Outcome s (some pose) s' (some pose) .recovered
  | recovering {s' : GuardMemory P Q} {accepted pose : P × Q} : s.acceptedPose = some accepted →
      s.state ≠ .tracking → guard.distance pose.1 accepted.1 ≤ guard.cfg.recoveryDistanceM →
      ¬ guard.cfg.recoveryConsecutiveSamples ≤ (s.recoveryStreak + 1 : ℕ) →
      Becomes s' .recovering (some accepted) (some pose.1) (s.recoveryStreak + 1) →
      Outcome s (some pose) s' (some accepted) .recovering
  | held {s' : GuardMemory P Q} {accepted pose : P × Q} : s.acceptedPose = some accepted →
      s.state ≠ .tracking → ¬ guard.distance pose.1 accepted.1 ≤ guard.cfg.recoveryDistanceM →
      Becomes s' .holding (some accepted) (some pose.1) 0 →
      Outcome s (some pose) s' (some accepted) .held

/-- A frame at which the guard is enforced. -/
def Enforced (frame : GuardFrame P R) : Prop := frame.reset = false ∧ frame.running = true

theorem threshold_le (s : GuardMemory P Q) (frame : GuardFrame P R) :
    (guard.measures s frame).decisionThresholdM ≤
      max guard.cfg.linearDistanceFloorM (guard.cfg.linearVelocityMS * guard.cfg.maxSampleDtS) := by
  refine max_le_max_left _ (mul_le_mul_of_nonneg_left ?_ guard.cfg.linearVelocityMS_pos.le)
  exact RateLimiter.clampedDt_le _ _ _ _ _

/-- **What an enforced frame does.** -/
theorem compute_outcome (s : GuardMemory P Q) {frame : GuardFrame P R} (h : Enforced frame) :
    guard.Outcome s (guard.sample frame) (guard.computeFn s frame).1
      (guard.computeFn s frame).2.1 (guard.computeFn s frame).2.2.disposition := by
  have hthreshold := guard.threshold_le s frame
  rw [computeFn, h.1, if_neg Bool.false_ne_true, govern, if_pos h.2]
  generalize guard.measures s frame = m at hthreshold ⊢
  cases hinput : frame.input with
  | none =>
    have hsample : guard.sample frame = none := by rw [sample, hinput]
    rw [hsample]
    exact .dropped ⟨rfl, rfl, rfl, rfl⟩ fun heq => by cases heq
  | some input =>
  cases hsample : guard.sample frame with
  | none => exact .dropped ⟨rfl, rfl, rfl, rfl⟩ fun heq => by cases heq
  | some pose =>
  dsimp only
  cases haccepted : s.acceptedPose with
  | none => exact .latched haccepted ⟨rfl, rfl, rfl, rfl⟩
  | some accepted =>
  -- There is a pose to compare with: the step is small, or the guard is holding.
  dsimp only [judge]
  split
  · rename_i htracking
    split
    · rename_i hstep
      refine .passed haccepted htracking (fun last hlast => ?_) ⟨htracking, rfl, rfl, rfl⟩
      rw [hlast] at hstep
      exact hstep.trans hthreshold
    · exact .rejected haccepted htracking ⟨rfl, rfl, rfl, rfl⟩
  · rename_i htracking
    split
    · rename_i hnear
      split
      · rename_i hstreak
        exact .recovered haccepted htracking hnear hstreak ⟨rfl, rfl, rfl, rfl⟩
      · rename_i hstreak
        exact .recovering haccepted htracking hnear hstreak ⟨rfl, rfl, rfl, rfl⟩
    · rename_i hfar
      exact .held haccepted htracking hfar ⟨rfl, rfl, rfl, rfl⟩

/-! ### The invariant -/

/-- What holds after any frames: a guard that tracks has accepted its last input, and one that
holds has not seen enough samples. -/
structure Inv (s : GuardMemory P Q) : Prop where
  tracking : s.state = .tracking → ∃ pose : P × Q, s.acceptedPose = some pose ∧
    s.lastInputPos = some pose.1
  accepted : s.acceptedPose = none → s.state = .uninitialized ∨ s.state = .disarmed
  unarmed : s.state = .uninitialized ∨ s.state = .disarmed → s.acceptedPose = none
  streak : (s.recoveryStreak : ℤ) < guard.cfg.recoveryConsecutiveSamples

theorem Inv.init : guard.Inv {} where
  tracking h := by cases h
  accepted _ := .inl rfl
  unarmed _ := rfl
  streak := guard.cfg.samples_pos

/-- One enforced frame. -/
theorem Inv.outcome {s s' : GuardMemory P Q} {sample output : Option (P × Q)}
    {disposition : EePoseJumpGuardDisposition} (h : guard.Inv s)
    (hstep : guard.Outcome s sample s' output disposition) : guard.Inv s' := by
  have hpos := guard.cfg.samples_pos
  -- A frame after which the guard tracks the pose.
  have htracks : ∀ {pose : P × Q} {streak : ℕ},
      (streak : ℤ) < guard.cfg.recoveryConsecutiveSamples →
      Becomes s' .tracking (some pose) (some pose.1) streak → guard.Inv s' := by
    intro pose streak hstreak hs'
    refine ⟨fun _ => ⟨pose, hs'.accepted, hs'.lastInput⟩, fun hnone => ?_, fun hstate => ?_, ?_⟩
    · rw [hs'.accepted] at hnone
      cases hnone
    · rw [hs'.state] at hstate
      rcases hstate with hstate | hstate <;> cases hstate
    · rw [hs'.streak]
      exact hstreak
  -- A frame after which it holds one.
  have hholds : ∀ {state : EePoseJumpGuardState} {accepted : P × Q} {last : P} {streak : ℕ},
      state = .holding ∨ state = .recovering →
      (streak : ℤ) < guard.cfg.recoveryConsecutiveSamples →
      Becomes s' state (some accepted) (some last) streak → guard.Inv s' := by
    intro state accepted last streak hstate hstreak hs'
    refine ⟨fun htracking => ?_, fun hnone => ?_, fun hunarmed => ?_, ?_⟩
    · rw [hs'.state] at htracking
      rcases hstate with rfl | rfl <;> cases htracking
    · rw [hs'.accepted] at hnone
      cases hnone
    · rw [hs'.state] at hunarmed
      rcases hstate with rfl | rfl <;> rcases hunarmed with hunarmed | hunarmed <;> cases hunarmed
    · rw [hs'.streak]
      exact hstreak
  cases hstep with
  | dropped hs' _ =>
    refine ⟨fun htracking => ?_, fun hnone => ?_, fun hunarmed => ?_, ?_⟩
    · rw [hs'.accepted, hs'.lastInput]
      exact h.tracking (hs'.state.symm.trans htracking)
    · rw [hs'.state]
      exact h.accepted (hs'.accepted.symm.trans hnone)
    · rw [hs'.state] at hunarmed
      rw [hs'.accepted]
      exact h.unarmed hunarmed
    · rw [hs'.streak]
      exact h.streak
  | latched _ hs' => exact htracks h.streak hs'
  | passed _ _ _ hs' => exact htracks h.streak hs'
  | rejected _ _ hs' => exact hholds (.inl rfl) hpos hs'
  | recovered _ _ _ _ hs' => exact htracks hpos hs'
  | recovering _ _ _ hfew hs' => exact hholds (.inr rfl) (not_le.mp hfew) hs'
  | held _ _ _ hs' => exact hholds (.inl rfl) hpos hs'

/-- **Any frame.** -/
theorem Inv.step {s : GuardMemory P Q} (h : guard.Inv s) (frame : GuardFrame P R) :
    guard.Inv (guard.computeFn s frame).1 := by
  cases hrunning : frame.running with
  | false =>
    -- The guard is disarmed, whatever the input.
    have hstate : (guard.computeFn s frame).1 =
        { state := .disarmed, lastComputeTimeNs := some frame.realTimeNs } := by
      rw [computeFn, govern, if_neg (by simp [hrunning])]
      dsimp only
      split <;> rfl
    rw [hstate]
    exact ⟨fun htracking => (by cases htracking), fun _ => .inr rfl, fun _ => rfl,
      guard.cfg.samples_pos⟩
  | true =>
    cases hreset : frame.reset with
    | false => exact Inv.outcome guard h (guard.compute_outcome s ⟨hreset, hrunning⟩)
    | true =>
      have hframe : guard.computeFn s frame =
          guard.computeFn {} { frame with reset := false } := by
        rw [computeFn, computeFn, if_pos hreset]
        rfl
      have henforced : Enforced { frame with reset := false } := ⟨rfl, hrunning⟩
      rw [hframe]
      exact Inv.outcome guard (Inv.init guard) (guard.compute_outcome {} henforced)

theorem Inv.run {s : GuardMemory P Q} (h : guard.Inv s) (frames : List (GuardFrame P R)) :
    guard.Inv (guard.run s frames) := by
  induction frames generalizing s with
  | nil => exact h
  | cons frame frames ih => exact ih (Inv.step guard h frame)

/-! ### Bounded jumps -/

theorem jumpBound_nonneg : 0 ≤ guard.cfg.jumpBound :=
  guard.cfg.linearDistanceFloorM_pos.le.trans ((le_max_left _ _).trans (le_max_left _ _))

/-- **One enforced frame** emits what is accepted after it, near what was accepted before. -/
theorem step_bound {s : GuardMemory P Q} (h : guard.Inv s) {frame : GuardFrame P R}
    (hframe : Enforced frame) :
    (guard.computeFn s frame).2.1 = (guard.computeFn s frame).1.acceptedPose ∧
      ∀ accepted, s.acceptedPose = some accepted → ∃ pose,
        (guard.computeFn s frame).2.1 = some pose ∧
          guard.distance pose.1 accepted.1 ≤ guard.cfg.jumpBound := by
  -- Nothing moves while the pose is held.
  have hself : ∀ accepted : P × Q,
      guard.distance accepted.1 accepted.1 ≤ guard.cfg.jumpBound := by
    intro accepted
    rw [guard.distance_self]
    exact guard.jumpBound_nonneg
  have hstep := guard.compute_outcome s hframe
  generalize (guard.computeFn s frame).1 = s' at hstep ⊢
  generalize (guard.computeFn s frame).2.1 = output at hstep ⊢
  generalize (guard.computeFn s frame).2.2.disposition = disposition at hstep
  generalize guard.sample frame = sample at hstep
  cases hstep with
  | dropped hs' _ =>
    exact ⟨hs'.accepted.symm, fun accepted haccepted => ⟨accepted, haccepted, hself accepted⟩⟩
  | latched hnone hs' =>
    refine ⟨hs'.accepted.symm, fun accepted haccepted => ?_⟩
    rw [hnone] at haccepted
    cases haccepted
  | @passed _ accepted' pose haccepted' htracking hnear hs' =>
    refine ⟨hs'.accepted.symm, fun accepted haccepted => ⟨pose, rfl, ?_⟩⟩
    -- The last input is the accepted position.
    obtain ⟨pose', hpose', hlast⟩ := h.tracking htracking
    obtain rfl := Option.some_inj.mp (hpose'.symm.trans haccepted)
    exact (hnear _ hlast).trans (le_max_left _ _)
  | @rejected _ accepted' pose haccepted' _ hs' =>
    refine ⟨hs'.accepted.symm, fun accepted haccepted => ⟨accepted', rfl, ?_⟩⟩
    obtain rfl := Option.some_inj.mp (haccepted'.symm.trans haccepted)
    exact hself _
  | @recovered _ accepted' pose haccepted' _ hnear _ hs' =>
    refine ⟨hs'.accepted.symm, fun accepted haccepted => ⟨pose, rfl, ?_⟩⟩
    obtain rfl := Option.some_inj.mp (haccepted'.symm.trans haccepted)
    exact hnear.trans (le_max_right _ _)
  | @recovering _ accepted' pose haccepted' _ _ _ hs' =>
    refine ⟨hs'.accepted.symm, fun accepted haccepted => ⟨accepted', rfl, ?_⟩⟩
    obtain rfl := Option.some_inj.mp (haccepted'.symm.trans haccepted)
    exact hself _
  | @held _ accepted' pose haccepted' _ _ hs' =>
    refine ⟨hs'.accepted.symm, fun accepted haccepted => ⟨accepted', rfl, ?_⟩⟩
    obtain rfl := Option.some_inj.mp (haccepted'.symm.trans haccepted)
    exact hself _

/-- **A run**: each pose that is emitted is near the one emitted before it. -/
theorem outputs_chain {frames : List (GuardFrame P R)} :
    ∀ {s : GuardMemory P Q}, guard.Inv s → (∀ frame ∈ frames, Enforced frame) →
      (guard.outputs s frames).IsChain
          (fun earlier later => guard.distance later.1 earlier.1 ≤ guard.cfg.jumpBound) ∧
        ∀ accepted, s.acceptedPose = some accepted → ∀ first ∈ (guard.outputs s frames).head?,
          guard.distance first.1 accepted.1 ≤ guard.cfg.jumpBound := by
  induction frames with
  | nil =>
    intro s _ _
    exact ⟨.nil, fun _ _ first hfirst => by cases hfirst⟩
  | cons frame frames ih =>
    intro s h hframes
    -- What a step emits is the accepted pose after it, near the one before.
    obtain ⟨houtput, hnear⟩ := guard.step_bound h (hframes frame List.mem_cons_self)
    obtain ⟨hchain, hfirst⟩ := ih (Inv.step guard h frame)
      fun frame' hframe' => hframes frame' (List.mem_cons_of_mem _ hframe')
    rw [outputs]
    cases hemitted : (guard.computeFn s frame).2.1 with
    | none =>
      refine ⟨hchain, fun accepted haccepted => ?_⟩
      obtain ⟨pose, hpose, -⟩ := hnear accepted haccepted
      rw [hemitted] at hpose
      cases hpose
    | some pose =>
      refine ⟨List.isChain_cons.mpr ⟨hfirst pose (houtput.symm.trans hemitted), hchain⟩, ?_⟩
      intro accepted haccepted first hhead
      obtain rfl := Option.some_inj.mp hhead
      obtain ⟨pose', hpose', hbound⟩ := hnear accepted haccepted
      obtain rfl := Option.some_inj.mp (hemitted.symm.trans hpose')
      exact hbound

end EePoseJumpGuard

/-! ### Samples in a row -/

section Streak

variable {α : Type} (near : α → Prop) [DecidablePred near]

/-- How many of the last samples are near. -/
def streak (samples : List α) : ℕ :=
  samples.foldl (fun k pose => if near pose then k + 1 else 0) 0

theorem streak_concat (samples : List α) (pose : α) :
    streak near (samples ++ [pose]) = if near pose then streak near samples + 1 else 0 := by
  rw [streak, List.foldl_append]
  rfl

/-- Some last samples of a number are all near iff the streak is as long. -/
theorem exists_near_suffix_iff (samples : List α) (k : ℕ) :
    (∃ tail, tail <:+ samples ∧ tail.length = k ∧ ∀ pose ∈ tail, near pose) ↔
      k ≤ streak near samples := by
  -- From the end, as the streak is counted there.
  induction samples using List.reverseRecOn generalizing k with
  | nil =>
    constructor
    · rintro ⟨tail, htail, rfl, -⟩
      rw [List.suffix_nil.mp htail]
      rfl
    · intro hk
      exact ⟨[], List.nil_suffix, (Nat.le_zero.mp hk).symm, List.forall_mem_nil _⟩
  | append_singleton samples pose ih =>
    rw [streak_concat]
    constructor
    · rintro ⟨tail, htail, rfl, hnear⟩
      rcases List.suffix_concat_iff.mp htail with rfl | ⟨init, rfl, hinit⟩
      · exact Nat.zero_le _
      · rw [if_pos (hnear pose (by simp)), List.length_append]
        have hle := (ih init.length).mp
          ⟨init, hinit, rfl, fun pose' hpose' => hnear pose' (by simp [hpose'])⟩
        exact Nat.add_le_add_right hle 1
    · intro hk
      cases k with
      | zero => exact ⟨[], List.nil_suffix, rfl, List.forall_mem_nil _⟩
      | succ k =>
        split at hk
        · rename_i hpose
          obtain ⟨tail, htail, hlength, hnear⟩ := (ih k).mpr (Nat.le_of_succ_le_succ hk)
          refine ⟨tail ++ [pose], List.suffix_concat_iff.mpr (.inr ⟨tail, rfl, htail⟩), ?_, ?_⟩
          · rw [List.length_append, hlength]
            rfl
          · intro pose' hpose'
            rcases List.mem_append.mp hpose' with hpose' | hpose'
            · exact hnear pose' hpose'
            · rw [List.mem_singleton.mp hpose']
              exact hpose
        · omega

end Streak

namespace EePoseJumpGuard

variable {P R Q : Type} (guard : EePoseJumpGuard P R Q)

/-- A sample within the recovery distance of the pose that is held. -/
def Near (accepted pose : P × Q) : Prop :=
  guard.distance pose.1 accepted.1 ≤ guard.cfg.recoveryDistanceM

instance (accepted : P × Q) : DecidablePred (guard.Near accepted) :=
  fun pose => inferInstanceAs (Decidable (guard.distance pose.1 accepted.1 ≤ _))

/-- The last samples, as many as the configuration asks for, are all near the pose. -/
def Recovers (accepted : P × Q) (samples : List (P × Q)) : Prop :=
  ∃ tail, tail <:+ samples ∧ (tail.length : ℤ) = guard.cfg.recoveryConsecutiveSamples ∧
    ∀ pose ∈ tail, guard.Near accepted pose

theorem recovers_iff (accepted : P × Q) (samples : List (P × Q)) :
    guard.Recovers accepted samples ↔
      guard.cfg.recoveryConsecutiveSamples ≤ streak (guard.Near accepted) samples := by
  have hpos := guard.cfg.samples_pos
  have hcount : (guard.cfg.recoveryConsecutiveSamples.toNat : ℤ) =
      guard.cfg.recoveryConsecutiveSamples := Int.toNat_of_nonneg (by omega)
  have hsuffix := exists_near_suffix_iff (guard.Near accepted) samples
    guard.cfg.recoveryConsecutiveSamples.toNat
  constructor
  · rintro ⟨tail, htail, hlength, hnear⟩
    have hle := hsuffix.mp ⟨tail, htail, by omega, hnear⟩
    omega
  · intro hle
    obtain ⟨tail, htail, hlength, hnear⟩ := hsuffix.mpr (by omega)
    exact ⟨tail, htail, by omega, hnear⟩

/-- A guard that holds a pose, and has counted the samples since. -/
structure Holds (accepted : P × Q) (samples : List (P × Q)) (s : GuardMemory P Q) : Prop where
  state : s.state ≠ .tracking
  acceptedPose : s.acceptedPose = some accepted
  count : s.recoveryStreak = streak (guard.Near accepted) samples

/-- **A frame while a pose is held**: it is emitted until enough samples in a row were near it, and
then the last of these. -/
theorem hold_step {accepted : P × Q} {samples : List (P × Q)} {s : GuardMemory P Q}
    (h : guard.Holds accepted samples s) (hnot : ¬ guard.Recovers accepted samples)
    {frame : GuardFrame P R} (hframe : Enforced frame) :
    (guard.Recovers accepted (samples ++ (guard.sample frame).toList) →
      ∃ pose, guard.sample frame = some pose ∧ (guard.computeFn s frame).2.1 = some pose ∧
        (guard.computeFn s frame).1.state = .tracking) ∧
    (¬ guard.Recovers accepted (samples ++ (guard.sample frame).toList) →
      (guard.computeFn s frame).2.1 = some accepted ∧
        guard.Holds accepted (samples ++ (guard.sample frame).toList)
          (guard.computeFn s frame).1) := by
  have hstep := guard.compute_outcome s hframe
  generalize (guard.computeFn s frame).1 = s' at hstep ⊢
  generalize (guard.computeFn s frame).2.1 = output at hstep ⊢
  generalize (guard.computeFn s frame).2.2.disposition = disposition at hstep
  generalize guard.sample frame = sample at hstep ⊢
  -- The pose that is held, and the streak with one more sample.
  have hsame : ∀ {accepted' : P × Q}, s.acceptedPose = some accepted' → accepted' = accepted :=
    fun haccepted => Option.some_inj.mp (haccepted.symm.trans h.acceptedPose)
  have hcount : ∀ pose : P × Q, streak (guard.Near accepted) (samples ++ [pose]) =
      if guard.Near accepted pose then s.recoveryStreak + 1 else 0 := by
    intro pose
    rw [streak_concat, ← h.count]
  cases hstep with
  | dropped hs' _ =>
    rw [Option.toList_none, List.append_nil]
    refine ⟨fun hrecovers => absurd hrecovers hnot, fun _ => ⟨h.acceptedPose, ?_⟩⟩
    exact ⟨fun htracking => h.state (hs'.state.symm.trans htracking),
      hs'.accepted.trans h.acceptedPose, hs'.streak.trans h.count⟩
  | latched hnone _ =>
    rw [h.acceptedPose] at hnone
    cases hnone
  | passed _ htracking _ _ => exact absurd htracking h.state
  | rejected _ htracking _ => exact absurd htracking h.state
  | @recovered _ accepted' pose haccepted' _ hnear hmany hs' =>
    obtain rfl := hsame haccepted'
    have hnear : guard.Near accepted' pose := hnear
    refine ⟨fun _ => ⟨pose, rfl, rfl, hs'.state⟩, fun hnot' => absurd ?_ hnot'⟩
    rw [guard.recovers_iff, Option.toList_some, hcount, if_pos hnear]
    exact hmany
  | @recovering _ accepted' pose haccepted' _ hnear hfew hs' =>
    obtain rfl := hsame haccepted'
    have hnear : guard.Near accepted' pose := hnear
    rw [guard.recovers_iff, Option.toList_some, hcount, if_pos hnear]
    refine ⟨fun hmany => absurd hmany hfew, fun _ => ⟨rfl, ?_, hs'.accepted, ?_⟩⟩
    · rw [hs'.state]
      exact fun htracking => by cases htracking
    · rw [hs'.streak, hcount, if_pos hnear]
  | @held _ accepted' pose haccepted' _ hfar hs' =>
    obtain rfl := hsame haccepted'
    have hfar : ¬ guard.Near accepted' pose := hfar
    rw [guard.recovers_iff, Option.toList_some, hcount, if_neg hfar]
    have hpos := guard.cfg.samples_pos
    refine ⟨fun hmany => absurd hmany (by simp only [Nat.cast_zero]; omega),
      fun _ => ⟨rfl, ?_, hs'.accepted, ?_⟩⟩
    · rw [hs'.state]
      exact fun htracking => by cases htracking
    · rw [hs'.streak, hcount, if_neg hfar]

theorem run_append (s : GuardMemory P Q) (frames frames' : List (GuardFrame P R)) :
    guard.run s (frames ++ frames') = guard.run (guard.run s frames) frames' :=
  List.foldl_append

/-- **Frames while a pose is held.** -/
theorem hold_run {accepted : P × Q} {s : GuardMemory P Q} (h : guard.Holds accepted [] s)
    {frames : List (GuardFrame P R)} (hframes : ∀ frame ∈ frames, Enforced frame)
    (hnot : ∀ earlier, earlier <+: frames →
      ¬ guard.Recovers accepted (earlier.filterMap guard.sample)) :
    guard.Holds accepted (frames.filterMap guard.sample) (guard.run s frames) := by
  induction frames using List.reverseRecOn with
  | nil => exact h
  | append_singleton frames frame ih =>
    have hbefore := ih (fun frame' hframe' => hframes frame' (by simp [hframe']))
      fun earlier hearlier => hnot earlier (hearlier.trans (List.prefix_append _ _))
    have hsamples : (frames ++ [frame]).filterMap guard.sample =
        frames.filterMap guard.sample ++ (guard.sample frame).toList := by
      rw [List.filterMap_append]
      cases hsample : guard.sample frame <;> simp [hsample]
    have hlast := hnot (frames ++ [frame]) (List.prefix_refl _)
    rw [hsamples] at hlast
    rw [hsamples, guard.run_append]
    exact ((guard.hold_step hbefore (hnot frames (List.prefix_append _ _))
      (hframes frame (by simp))).2 hlast).2

/-! ### All runs -/

/-- **The jump guard.**  After any frames, the poses that enforced frames emit do not jump by more
than the bound; once a frame is rejected, the accepted pose is emitted until enough valid samples
in a row were near it, and then the last of these. -/
theorem jump_guard (past frames : List (GuardFrame P R))
    (hframes : ∀ frame ∈ frames, Enforced frame) :
    (guard.outputs (guard.run {} past) frames).IsChain
        (fun earlier later => guard.distance later.1 earlier.1 ≤ guard.cfg.jumpBound) ∧
    ∀ before f later g after, frames = before ++ f :: (later ++ g :: after) →
      (guard.computeFn (guard.run {} (past ++ before)) f).2.2.disposition = .rejected →
      ∃ accepted, (guard.run {} (past ++ before)).acceptedPose = some accepted ∧
        (guard.computeFn (guard.run {} (past ++ before)) f).2.1 = some accepted ∧
        ((∀ earlier, earlier <+: later →
            ¬ guard.Recovers accepted (earlier.filterMap guard.sample)) →
          (guard.Recovers accepted (later.filterMap guard.sample ++ (guard.sample g).toList) →
            ∃ pose, guard.sample g = some pose ∧
              (guard.computeFn (guard.run {} (past ++ before ++ f :: later)) g).2.1 = some pose ∧
              (guard.computeFn (guard.run {} (past ++ before ++ f :: later)) g).1.state =
                .tracking) ∧
          (¬ guard.Recovers accepted (later.filterMap guard.sample ++ (guard.sample g).toList) →
            (guard.computeFn (guard.run {} (past ++ before ++ f :: later)) g).2.1 =
                some accepted ∧
              (guard.computeFn (guard.run {} (past ++ before ++ f :: later)) g).1.state ≠
                .tracking)) := by
  refine ⟨(guard.outputs_chain (Inv.run guard (Inv.init guard) past) hframes).1, ?_⟩
  intro before f later g after hsplit hrejected
  have hf : Enforced f := hframes f (by simp [hsplit])
  have hstep := guard.compute_outcome (guard.run {} (past ++ before)) hf
  rw [hrejected] at hstep
  -- The frame is rejected from tracking, and the count starts anew.
  obtain ⟨accepted, haccepted, houtput, hholds⟩ : ∃ accepted,
      (guard.run {} (past ++ before)).acceptedPose = some accepted ∧
      (guard.computeFn (guard.run {} (past ++ before)) f).2.1 = some accepted ∧
      guard.Holds accepted [] (guard.computeFn (guard.run {} (past ++ before)) f).1 := by
    generalize (guard.computeFn (guard.run {} (past ++ before)) f).1 = s' at hstep ⊢
    generalize (guard.computeFn (guard.run {} (past ++ before)) f).2.1 = output at hstep ⊢
    generalize guard.sample f = sample at hstep
    cases hstep with
    | dropped _ hne => exact absurd rfl hne
    | @rejected _ accepted pose haccepted _ hs' =>
      refine ⟨accepted, haccepted, rfl, ?_, hs'.accepted, hs'.streak⟩
      rw [hs'.state]
      exact fun htracking => by cases htracking
  refine ⟨accepted, haccepted, houtput, fun hnot => ?_⟩
  have hrun : guard.run {} (past ++ before ++ f :: later) =
      guard.run (guard.computeFn (guard.run {} (past ++ before)) f).1 later := by
    rw [guard.run_append]
    rfl
  rw [hrun]
  have hlater := guard.hold_run hholds
    (fun frame hframe => hframes frame (by simp [hsplit, hframe])) hnot
  obtain ⟨hrecovers, hheld⟩ := guard.hold_step hlater (hnot later (List.prefix_refl _))
    (hframes g (by simp [hsplit]))
  exact ⟨hrecovers, fun hnot' => ⟨(hheld hnot').1, (hheld hnot').2.state⟩⟩

end EePoseJumpGuard

theorem default_valid : EePoseJumpGuardConfig.postInit {} = .ok () := by
  norm_num [EePoseJumpGuardConfig.postInit, EePoseJumpGuardConfig.checks]

/-- A guard of poses on a line that takes unit quaternions only. -/
def lineGuard : EePoseJumpGuard ℚ (ℚ × ℚ × ℚ × ℚ) (ℚ × ℚ × ℚ × ℚ) where
  cfg := { valid := default_valid }
  normalizeQuaternion q :=
    if q.1 * q.1 + q.2.1 * q.2.1 + q.2.2.1 * q.2.2.1 + q.2.2.2 * q.2.2.2 = 1 then some q else none
  distance x y := |x - y|
  distance_self x := by rw [sub_self, abs_zero]

/-- A jump of a meter, and a way back with a dropped and a degenerate frame. -/
def jumpAndBack : List (GuardFrame ℚ (ℚ × ℚ × ℚ × ℚ)) :=
  [{ realTimeNs := 0, input := some (some 0, 0, 0, 0, 1) },
    { realTimeNs := 8000000, input := some (some 1, 0, 0, 0, 1) },
    { realTimeNs := 16000000, input := some (some (1 / 25), 0, 0, 0, 1) },
    { realTimeNs := 24000000, input := none },
    { realTimeNs := 32000000, input := some (some (3 / 100), 0, 0, 0, 1) },
    { realTimeNs := 40000000, input := some (some (1 / 50), 0, 0, 0, 0) },
    { realTimeNs := 48000000, input := some (some (1 / 50), 0, 0, 0, 1) }]

theorem jump_held_then_recovered :
    (lineGuard.outputs {} jumpAndBack).map Prod.fst = [0, 0, 0, 0, 0, 0, 1 / 50] ∧
      (lineGuard.outputs {} jumpAndBack).IsChain
        (fun earlier later => lineGuard.distance later.1 earlier.1 ≤ lineGuard.cfg.jumpBound) :=
  ⟨by decide +kernel, (lineGuard.jump_guard [] jumpAndBack
    (by simp [jumpAndBack, EePoseJumpGuard.Enforced])).1⟩

end JumpGuard
