/-
The engage cycle of a clutched preview.

A preview frame is `before_step`, the compute of the clutch and `after_step`.  The clutch may latch
when the engage gate of the frame before said so; the phase machine follows the clutch and holds
ENGAGED through a short tracking loss; the gate measures how far the wrist is from the gripper of
the arm, with a hysteresis and a dwell, and stays open while the phase is ENGAGED.  Angles and times
are exact; what the arm and the limiter do is read off the frame.

* `PhaseMachine.advance`, `EngageGate.update`, `ClutchPreview.step` — the three machines and a
  frame;
* `PhaseMachine.advance_cases`, `EngageGate.update_cases`, `ClutchPreview.step_spec` — everything
  that they can do;
* `Run.Aligned`, `Run.Recovered` — the two reasons for a latch;
* `Dwelling.step`, `PhaseInv.step`, `Run.inv` — what holds after every frame;
* `Run.no_ungated_latch` — every latch has one of them, and when a reset pulse is sent.
-/
import IsaacTeleop.ClutchRetargeter
import IsaacTeleop.ComputeContext
import Mathlib

namespace Clutch

/-! ### Rotations of the preview -/

local instance neZeroThree : NeZero 3 := ⟨by decide⟩

local instance atLeastTwoTwo : Nat.AtLeastTwo 2 := ⟨le_rfl⟩

section Rotations

variable {K : Type} [Field K] [LinearOrder K]

/-- `conjugate` -/
def conjugate (q : Quat K) : Quat K := ⟨-q.x, -q.y, -q.z, q.w⟩

/-- `np.cross` with the vector part of a quaternion. -/
def Quat.cross (q : Quat K) (v : Position K) : Position K :=
  ![q.y * v 2 - q.z * v 1, q.z * v 0 - q.x * v 2, q.x * v 1 - q.y * v 0]

/-- `rotate` -/
def rotate (v : Position K) (q : Quat K) : Position K :=
  let t : Position K := fun i => 2 * q.cross v i
  fun i => v i + q.w * t i + q.cross t i

/-- `to_matrix` -/
def toMatrix (q : Quat K) : Matrix (Fin 3) (Fin 3) K :=
  !![1 - 2 * (q.y * q.y + q.z * q.z), 2 * (q.x * q.y - q.z * q.w), 2 * (q.x * q.z + q.y * q.w);
     2 * (q.x * q.y + q.z * q.w), 1 - 2 * (q.x * q.x + q.z * q.z), 2 * (q.y * q.z - q.x * q.w);
     2 * (q.x * q.z - q.y * q.w), 2 * (q.y * q.z + q.x * q.w), 1 - 2 * (q.x * q.x + q.y * q.y)]

/-- `QUAT_MJ_FROM_XR` -/
def quatMjFromXr : Quat K := ⟨1 / 2, -1 / 2, -1 / 2, 1 / 2⟩

/-- `TRANS_MJ_FROM_XR` -/
def transMjFromXr : Position K := ![-1, 0, -73 / 100]

/-- `POS_HAND_FROM_GHOST` -/
def posHandFromGhost : Position K := 0

/-- `mj_from_xr_pos` -/
def mjFromXrPos (p : Position K) : Position K := rotate p quatMjFromXr + transMjFromXr

/-- `xr_from_mj_pos` -/
def xrFromMjPos (p : Position K) : Position K := rotate (p - transMjFromXr) (conjugate quatMjFromXr)

/-- `xr_from_mj_quat` -/
def xrFromMjQuat (q : Quat K) : Quat K := quatMul (conjugate quatMjFromXr) q

/-- The position of `ghost_body_from_pose`. -/
def ghostBodyFromPose (p : Position K) (q : Quat K) : Position K :=
  mjFromXrPos p + rotate posHandFromGhost (quatMul quatMjFromXr q)

/-- `_grip_quat_mj` -/
def gripQuatMj (body handFromGhost : Quat K) : Quat K := quatMul body (conjugate handFromGhost)

/-- `grip_quat_from_ghost_body` -/
def gripQuatFromGhostBody (body handFromGhost : Quat K) : Quat K :=
  xrFromMjQuat (gripQuatMj body handFromGhost)

/-- `pose_from_ghost_body` -/
def poseFromGhostBody (p : Position K) (body handFromGhost : Quat K) : Transform K :=
  let grip := gripQuatMj body handFromGhost
  let translation := xrFromMjPos (p - rotate posHandFromGhost grip)
  let rotation := toMatrix (xrFromMjQuat grip)
  fun i j =>
    if hi : i.val < 3 then
      if hj : j.val < 3 then rotation ⟨i, hi⟩ ⟨j, hj⟩ else translation ⟨i, hi⟩
    else if i = j then 1 else 0

/-- `UNIT_QUAT_TOL` -/
def unitQuatTol : K := 1 / 1000

/-- `is_unit`, of a quaternion whose numbers are finite -/
def isUnit (sqrt : K → K) (q : Quat K) : Bool := decide (|q.norm sqrt - 1| ≤ unitQuatTol)

end Rotations

/-! ### The phase machine -/

/-- `ClutchPhase` -/
inductive ClutchPhase
  | disengaged
  | engaged
  deriving DecidableEq

structure PhaseMachine (K : Type) where
  phase : ClutchPhase
  resetRequested : Bool
  dropoutS : K

namespace PhaseMachine

variable {K : Type} [Field K] [LinearOrder K]

/-- `DROPOUT_TIMEOUT_S` -/
def dropoutTimeoutS : K := 1 / 2

/-- `__init__` -/
def start : PhaseMachine K := ⟨.disengaged, false, 0⟩

/-- `_disengage` -/
def disengage (_ : PhaseMachine K) : PhaseMachine K := ⟨.disengaged, true, 0⟩

/-- `advance` -/
def advance (m : PhaseMachine K) (isEngaged handPresent : Bool) (dt : K) : PhaseMachine K :=
  match m.phase with
  | .disengaged => if isEngaged then { m with phase := .engaged, dropoutS := 0 } else m
  | .engaged =>
    if handPresent then
      let m := { m with dropoutS := 0 }
      if isEngaged then m else m.disengage
    else
      let m := { m with dropoutS := m.dropoutS + dt }
      if dropoutTimeoutS < m.dropoutS then m.disengage else m

/-- `permits_engagement` -/
def permitsEngagement (m : PhaseMachine K) : Bool := decide (m.phase = .engaged)

/-- **Everything a call of `advance` can do.** -/
theorem advance_cases (m : PhaseMachine K) (isEngaged handPresent : Bool) (dt : K) :
    (m.phase = .disengaged ∧ isEngaged = false ∧ m.advance isEngaged handPresent dt = m) ∨
    (m.phase = .disengaged ∧ isEngaged = true ∧
      m.advance isEngaged handPresent dt = ⟨.engaged, m.resetRequested, 0⟩) ∨
    (m.phase = .engaged ∧ handPresent = true ∧ isEngaged = true ∧
      m.advance isEngaged handPresent dt = ⟨.engaged, m.resetRequested, 0⟩) ∨
    (m.phase = .engaged ∧ handPresent = false ∧ m.dropoutS + dt ≤ dropoutTimeoutS ∧
      m.advance isEngaged handPresent dt = ⟨.engaged, m.resetRequested, m.dropoutS + dt⟩) ∨
    (m.phase = .engaged ∧ (handPresent = true → isEngaged = false) ∧
      m.advance isEngaged handPresent dt = ⟨.disengaged, true, 0⟩) := by
  obtain ⟨phase, resetRequested, dropoutS⟩ := m
  cases phase with
  | disengaged =>
    cases isEngaged with
    | false => exact .inl ⟨rfl, rfl, rfl⟩
    | true => exact .inr (.inl ⟨rfl, rfl, rfl⟩)
  | engaged =>
    right; right
    cases handPresent with
    | true =>
      cases isEngaged with
      | true => exact .inl ⟨rfl, rfl, rfl, rfl⟩
      | false => exact .inr (.inr ⟨rfl, fun _ => rfl, rfl⟩)
    | false =>
      right
      -- A lost hand is bridged until the timeout.
      by_cases hlate : dropoutTimeoutS < dropoutS + dt
      · exact .inr ⟨rfl, fun h => (by cases h), if_pos hlate⟩
      · exact .inl ⟨rfl, rfl, not_lt.mp hlate, if_neg hlate⟩

end PhaseMachine

/-! ### The engage gate -/

/-- `EngageGateConfig`, with the checks of its constructor. -/
structure EngageGateConfig (K : Type) [Field K] [LinearOrder K] where
  enterRad : K
  exitRad : K
  dwellS : K
  nominalDt : K
  maxDt : K
  enterRad_pos : 0 < enterRad
  enterRad_le : enterRad ≤ exitRad
  dwellS_nonneg : 0 ≤ dwellS
  nominalDt_pos : 0 < nominalDt
  nominalDt_le : nominalDt ≤ maxDt

/-- What a verdict names as failing. -/
inductive Conjunct (K : Type)
  /-- "already engaged" -/
  | engaged
  /-- "no reference pose" -/
  | unreferenced
  /-- "controller not tracked" -/
  | untracked
  /-- "rotation … deg > …" -/
  | rotation (theta tolerance : K)
  /-- the conjunct that the caller names -/
  | app
  /-- "settling" -/
  | settling
  /-- "no frame judged yet" -/
  | unjudged
  deriving DecidableEq

structure GateVerdict (K : Type) where
  failed : List (Conjunct K)

/-- `ok` -/
def GateVerdict.ok {K : Type} (verdict : GateVerdict K) : Bool := verdict.failed.isEmpty

structure EngageGate (K : Type) where
  /-- `_ok`: the gate is open -/
  isOpen : Bool
  dwellS : K
  verdict : GateVerdict K
  permitted : Bool

namespace EngageGate

variable {K : Type} [Field K] [LinearOrder K]

/-- `__init__` -/
def start : EngageGate K where
  isOpen := false
  dwellS := 0
  verdict := ⟨[.unjudged]⟩
  permitted := false

/-- `_bounded` -/
def bounded (config : EngageGateConfig K) : Option K → K
  | none => config.nominalDt
  | some dt => if dt ≤ 0 then config.nominalDt else min dt config.maxDt

/-- `_ORTHONORMAL_TOL` -/
def orthonormalTol : K := 1 / 1000

/-- `_usable_rotation` -/
def usableRotation (rotation : Option (Matrix (Fin 3) (Fin 3) K)) :
    Option (Matrix (Fin 3) (Fin 3) K) :=
  match rotation with
  | none => none
  | some block =>
    if ∀ i j, |∑ k, block k i * block k j - if i = j then 1 else 0| ≤ orthonormalTol then
      some block
    else none

variable (sqrt arccos : K → K)

/-- `_hand_rotation` -/
def handRotation (q : Option (Quat K)) : Option (Matrix (Fin 3) (Fin 3) K) :=
  match q with
  | none => none
  | some quat =>
    let norm := quat.norm sqrt
    if norm < minQuatNorm then none
    else some (toMatrix ⟨quat.x / norm, quat.y / norm, quat.z / norm, quat.w / norm⟩)

/-- `_geodesic_angle` -/
def geodesicAngle (a b : Matrix (Fin 3) (Fin 3) K) : K :=
  let trace := ∑ i, ∑ k, a k i * b k i
  arccos (min 1 (max (-1) ((trace - 1) / 2)))

/-- The tolerance that a frame is held to. -/
def tolerance (config : EngageGateConfig K) (gate : EngageGate K) : K :=
  if gate.isOpen then config.exitRad else config.enterRad

/-- The conjuncts that fail in a frame, in report order. -/
def failed (config : EngageGateConfig K) (gate : EngageGate K) (hand : Option (Quat K))
    (rotation : Option (Matrix (Fin 3) (Fin 3) K)) (engaged appOk : Bool) : List (Conjunct K) :=
  let reference := usableRotation rotation
  (if engaged then [.engaged] else []) ++
  (if reference.isNone then [.unreferenced] else []) ++
  (match handRotation sqrt hand, reference with
    | none, _ => [.untracked]
    | some _, none => []
    | some hand, some reference =>
      let theta := geodesicAngle arccos reference hand
      if theta < gate.tolerance config then [] else [.rotation theta (gate.tolerance config)]) ++
  (if appOk then [] else [.app])

/-- `_evaluate` -/
def evaluate (config : EngageGateConfig K) (gate : EngageGate K) (hand : Option (Quat K))
    (rotation : Option (Matrix (Fin 3) (Fin 3) K)) (engaged appOk : Bool) (dt : K) :
    EngageGate K × GateVerdict K :=
  match gate.failed sqrt arccos config hand rotation engaged appOk with
  | [] =>
    let gate := { gate with dwellS := gate.dwellS + dt }
    if gate.dwellS < config.dwellS then (gate, ⟨[.settling]⟩)
    else ({ gate with isOpen := true }, ⟨[]⟩)
  | failed => ({ gate with dwellS := 0, isOpen := false }, ⟨failed⟩)

/-- `update` -/
def update (config : EngageGateConfig K) (gate : EngageGate K) (hand : Option (Quat K))
    (rotation : Option (Matrix (Fin 3) (Fin 3) K)) (engaged appOk : Bool) (dt : Option K) :
    EngageGate K :=
  let (gate, verdict) :=
    gate.evaluate sqrt arccos config hand rotation engaged appOk (bounded config dt)
  { gate with verdict := verdict, permitted := engaged || verdict.ok }

/-- The angle of a frame, where both operands are usable. -/
def angle (hand : Option (Quat K)) (rotation : Option (Matrix (Fin 3) (Fin 3) K)) : Option K :=
  match usableRotation rotation, handRotation sqrt hand with
  | some reference, some hand => some (geodesicAngle arccos reference hand)
  | _, _ => none

variable {sqrt arccos}

/-- No conjunct fails: the gate is not engaged, the application agrees, and the wrist is within the
tolerance. -/
theorem failed_eq_nil {config : EngageGateConfig K} {gate : EngageGate K} {hand : Option (Quat K)}
    {rotation : Option (Matrix (Fin 3) (Fin 3) K)} {engaged appOk : Bool} :
    gate.failed sqrt arccos config hand rotation engaged appOk = [] ↔
      engaged = false ∧ appOk = true ∧
        ∃ theta, angle sqrt arccos hand rotation = some theta ∧ theta < gate.tolerance config := by
  unfold failed angle
  cases usableRotation rotation with
  | none => simp
  | some reference =>
    cases handRotation sqrt hand with
    | none => simp
    | some hand =>
      by_cases htheta : geodesicAngle arccos reference hand < gate.tolerance config
      · cases engaged <;> cases appOk <;> simp [htheta]
      · simp [htheta]

/-- **Everything a call of `update` can do**: it fails and starts over, or it credits the frame and
the gate is open once the dwell is reached. -/
theorem update_cases (config : EngageGateConfig K) (gate : EngageGate K) (hand : Option (Quat K))
    (rotation : Option (Matrix (Fin 3) (Fin 3) K)) (engaged appOk : Bool) (dt : Option K) :
    (∃ verdict : GateVerdict K, verdict.ok = false ∧
      gate.update sqrt arccos config hand rotation engaged appOk dt =
        ⟨false, 0, verdict, engaged⟩) ∨
    (gate.failed sqrt arccos config hand rotation engaged appOk = [] ∧
      gate.dwellS + bounded config dt < config.dwellS ∧
      gate.update sqrt arccos config hand rotation engaged appOk dt =
        ⟨gate.isOpen, gate.dwellS + bounded config dt, ⟨[.settling]⟩, engaged⟩) ∨
    (gate.failed sqrt arccos config hand rotation engaged appOk = [] ∧
      config.dwellS ≤ gate.dwellS + bounded config dt ∧
      gate.update sqrt arccos config hand rotation engaged appOk dt =
        ⟨true, gate.dwellS + bounded config dt, ⟨[]⟩, true⟩) := by
  unfold update evaluate
  cases hfailed : gate.failed sqrt arccos config hand rotation engaged appOk with
  | cons first rest =>
    -- A failed condition closes the gate and starts the dwell over.
    refine .inl ⟨⟨first :: rest⟩, rfl, ?_⟩
    simp [GateVerdict.ok]
  | nil =>
    right
    by_cases hshort : gate.dwellS + bounded config dt < config.dwellS
    · exact .inl ⟨rfl, hshort, by simp [hshort, GateVerdict.ok]⟩
    · exact .inr ⟨rfl, not_lt.mp hshort, by simp [hshort, GateVerdict.ok]⟩

end EngageGate

/-! ### The clutch in the preview -/

namespace SO101ClutchRetargeter

variable {K : Type} [Field K] [LinearOrder K] (clutch : SO101ClutchRetargeter K)

/-- The clutch can use the hand of a frame: it is there, valid, finite and not degenerate. -/
def canUse (input : Option (ControllerInput K)) : Bool :=
  match input with
  | none => false
  | some inp =>
    let pose := clutch.controllerPose.select inp
    pose.isValid &&
      match pose.position.finite?, pose.orientation.finite? with
      | some _, some gripRot => !decide (gripRot.norm clutch.sqrt < minQuatNorm)
      | _, _ => false

/-- `is_engaged` -/
def isEngaged (s : ClutchState K) : Bool := s.origin.isSome

variable {clutch}

theorem canUse_of_grip {frame : Frame K} (h : (clutch.grip frame).isSome = true) :
    clutch.canUse frame.input = true := by
  unfold grip at h
  unfold canUse
  cases hinput : frame.input with
  | none => simp [hinput] at h
  | some inp =>
    simp only [hinput] at h ⊢
    cases hvalid : (clutch.controllerPose.select inp).isValid with
    | false => simp [hvalid] at h
    | true =>
      cases hpos : (clutch.controllerPose.select inp).position.finite? with
      | none => simp [hpos] at h
      | some gripPos =>
        cases hrot : (clutch.controllerPose.select inp).orientation.finite? with
        | none => simp [hpos, hrot] at h
        | some gripRot =>
          by_cases hnorm : gripRot.norm clutch.sqrt < minQuatNorm
          · simp [hpos, hrot, hnorm] at h
          · simp [hnorm]

/-- After a frame the clutch is engaged iff it had a grip, and was engaged and not reset, or was
permitted to latch. -/
theorem isEngaged_computeFn (s : ClutchState K) (frame : Frame K) :
    isEngaged (clutch.computeFn s frame).1 = ((clutch.grip frame).isSome &&
      ((!frame.reset && isEngaged s) || frame.engagePermitted)) := by
  have hbegun : isEngaged (clutch.begun s frame) = (!frame.reset && isEngaged s) := by
    unfold begun isEngaged
    cases frame.reset <;> rfl
  rw [← hbegun]
  rcases clutch.compute_cases s frame with ⟨hgrip, heq⟩ | ⟨pose, origin, hgrip, horigin, heq⟩ |
    ⟨pose, hgrip, horigin, hpermitted, heq⟩ | ⟨pose, hgrip, horigin, hpermitted, heq⟩
  · rw [heq, hgrip]
    rfl
  · rw [heq, hgrip]
    simp [isEngaged, track, horigin]
  · rw [heq, hgrip, hpermitted]
    simp [isEngaged, track, latch]
  · rw [heq, hgrip, hpermitted]
    simp [isEngaged, horigin]

end SO101ClutchRetargeter

/-! ### A preview frame -/

/-- `HarnessBand` -/
inductive HarnessBand
  | passThrough
  | clamped
  | rejected
  deriving DecidableEq

structure ClutchPreview (K : Type) [Field K] [LinearOrder K] where
  clutch : SO101ClutchRetargeter K
  /-- the configuration of the gate -/
  config : EngageGateConfig K
  /-- `np.arccos` -/
  arccos : K → K
  ownsClutchHome : Bool := true
  /-- `hand_from_ghost` of the arm -/
  handFromGhost : Quat K

namespace ClutchPreview

/-- What a preview frame meets. -/
structure PreviewFrame (K : Type) where
  /-- `notify_reference_space_changed` was called since the last frame -/
  recentre : Bool := false
  /-- there is a head pose -/
  head : Bool := true
  /-- the gripper orientation of the arm, as `before_step` reads it -/
  gripperBefore : Quat K
  /-- the controller, as the clutch reads it -/
  input : Option (ControllerInput K)
  /-- `measured_base_T_ee` -/
  measured : Option (Transform (Number K)) := none
  /-- the hand pose channel -/
  hand : Option (Position (Number K) × Quat (Number K))
  /-- the band of the limiter, if there is a commanded and a governed pose -/
  band : Option HarnessBand
  /-- the gripper orientation of the arm, as `after_step` reads it -/
  gripperAfter : Quat K
  dt : K

structure State (K : Type) where
  phases : PhaseMachine K
  gate : EngageGate K
  clutch : ClutchState K
  recentered : Bool
  /-- `anchored` of the arm -/
  anchored : Bool
  limiterPassing : Bool
  handBodyMj : Option (Position K)

variable {K : Type} [Field K] [LinearOrder K] (preview : ClutchPreview K)

/-- `__init__`, with a clutch at its configured home and an arm not yet anchored -/
def start (home : Transform K) : State K where
  phases := .start
  gate := .start
  clutch := preview.clutch.start home
  recentered := false
  anchored := false
  limiterPassing := false
  handBodyMj := none

/-- `notify_reference_space_changed` -/
def notifyReferenceSpaceChanged (s : State K) : State K :=
  { s with recentered := true, anchored := false }

/-- The push of the home, while the phase is not ENGAGED. -/
def pushHome (s : State K) (gripper : Quat K) : Except HomeError (ClutchState K) :=
  match s.handBodyMj with
  | none => .ok s.clutch
  | some body =>
    if preview.ownsClutchHome && decide (s.phases.phase ≠ .engaged) then
      let home := poseFromGhostBody body gripper preview.handFromGhost
      s.clutch.setHomeBaseTEe preview.clutch.sqrt fun i j => .finite (home i j)
    else .ok s.clutch

/-- `before_step`: the state after it, the permission and the events.  A home that is no transform
raises. -/
def beforeStep (s : State K) (head : Bool) (gripper : Quat K) :
    Except HomeError (State K × Bool × ExecutionEvents) :=
  let s := { s with anchored := s.anchored || head }
  (preview.pushHome s gripper).map fun clutch =>
    ({ s with
        clutch := clutch
        phases := { s.phases with resetRequested := false }
        recentered := false },
      s.gate.permitted,
      { reset := s.phases.resetRequested || s.recentered
        executionState := if s.recentered then .stopped else .running })

/-- The hand pose that the preview uses: finite, with a unit orientation. -/
def usableHand (hand : Option (Position (Number K) × Quat (Number K))) :
    Option (Position K × Quat K) :=
  match hand with
  | none => none
  | some (position, orientation) =>
    match position.finite?, orientation.finite? with
    | some p, some q => if isUnit preview.clutch.sqrt q then some (p, q) else none
    | _, _ => none

/-- The rotation that the gate aligns with. -/
def referenceRotation (gripper : Quat K) : Matrix (Fin 3) (Fin 3) K :=
  toMatrix (gripQuatFromGhostBody gripper preview.handFromGhost)

/-- `_judge` -/
def judge (s : State K) (hand : Option (Position K × Quat K)) (gripper : Option (Quat K)) (dt : K) :
    State K :=
  { s with
    gate := s.gate.update preview.clutch.sqrt preview.arccos preview.config (hand.map Prod.snd)
      (gripper.map preview.referenceRotation) s.phases.permitsEngagement s.limiterPassing
      (some dt) }

/-- `after_step` -/
def afterStep (s : State K) (frame : PreviewFrame K) : State K :=
  if s.anchored then
    let hand := preview.usableHand frame.hand
    preview.judge
      { s with
        handBodyMj :=
          match hand with
          | none => s.handBodyMj
          | some (p, q) => some (ghostBodyFromPose p q)
        phases := s.phases.advance (SO101ClutchRetargeter.isEngaged s.clutch) hand.isSome frame.dt
        limiterPassing := decide (frame.band = some .passThrough) }
      hand (some frame.gripperAfter) frame.dt
  else preview.judge s none none frame.dt

/-- A preview frame: `before_step`, the compute of the clutch with the permission it is given, and
`after_step`; with the events that were sent. -/
def step (s : State K) (frame : PreviewFrame K) : Except HomeError (State K × ExecutionEvents) :=
  let s := if frame.recentre then notifyReferenceSpaceChanged s else s
  (preview.beforeStep s frame.head frame.gripperBefore).map fun (s, permitted, events) =>
    let clutch := (preview.clutch.computeFn s.clutch
      { reset := events.reset
        running := decide (events.executionState = .running)
        input := frame.input
        measured := frame.measured
        permitted := some permitted }).1
    (preview.afterStep { s with clutch := clutch } frame, events)

/-- What a frame does to a preview with an anchored arm that is not recentred. -/
structure Stepped (s : State K) (frame : PreviewFrame K) (s' : State K) (events : ExecutionEvents) :
    Prop where
  reset : events.reset = s.phases.resetRequested
  recentered : s'.recentered = false
  phases : s'.phases = PhaseMachine.advance { s.phases with resetRequested := false }
    (SO101ClutchRetargeter.isEngaged s'.clutch) (preview.usableHand frame.hand).isSome frame.dt
  gate : s'.gate = s.gate.update preview.clutch.sqrt preview.arccos preview.config
    ((preview.usableHand frame.hand).map Prod.snd)
    (some (preview.referenceRotation frame.gripperAfter)) s'.phases.permitsEngagement
    (decide (frame.band = some .passThrough)) (some frame.dt)
  engaged : SO101ClutchRetargeter.isEngaged s'.clutch = true →
    preview.clutch.canUse frame.input = true ∧
      (SO101ClutchRetargeter.isEngaged s.clutch = true ∨ s.gate.permitted = true)

variable {preview}

/-- A result of a mapped computation. -/
theorem exists_of_map_ok {ε α β : Type} {f : α → β} {x : Except ε α} {b : β}
    (h : x.map f = .ok b) : ∃ a, x = .ok a ∧ f a = b := by
  cases x with
  | error e => cases h
  | ok a => exact ⟨a, rfl, Except.ok.inj h⟩

/-- A push of the home never latches. -/
theorem isEngaged_of_pushHome {s : State K} {gripper : Quat K} {clutch : ClutchState K}
    (h : preview.pushHome s gripper = .ok clutch)
    (hengaged : SO101ClutchRetargeter.isEngaged clutch = true) :
    SO101ClutchRetargeter.isEngaged s.clutch = true := by
  unfold pushHome at h
  split at h
  · obtain rfl := Except.ok.inj h
    exact hengaged
  · split at h
    · -- The push re-arms the latch.
      obtain ⟨home, -, rfl⟩ := exists_of_map_ok h
      cases hengaged
    · obtain rfl := Except.ok.inj h
      exact hengaged

/-- **What `before_step` does**, when nothing is recentred. -/
theorem beforeStep_spec {s s' : State K} {head permitted : Bool} {gripper : Quat K}
    {events : ExecutionEvents} (h : preview.beforeStep s head gripper = .ok (s', permitted, events))
    (hs : s.recentered = false) :
    s'.phases = { s.phases with resetRequested := false } ∧ s'.gate = s.gate ∧
      s'.recentered = false ∧ permitted = s.gate.permitted ∧
      events = ⟨s.phases.resetRequested, .running⟩ ∧
      (SO101ClutchRetargeter.isEngaged s'.clutch = true →
        SO101ClutchRetargeter.isEngaged s.clutch = true) := by
  obtain ⟨clutch, hpush, heq⟩ := exists_of_map_ok h
  cases heq
  refine ⟨rfl, rfl, rfl, rfl, ?_, fun hengaged => isEngaged_of_pushHome hpush hengaged⟩
  simp [hs]

/-- **What `after_step` does** with an anchored arm. -/
theorem afterStep_spec {s : State K} {frame : PreviewFrame K}
    (h : (preview.afterStep s frame).anchored = true) :
    (preview.afterStep s frame).recentered = s.recentered ∧
    (preview.afterStep s frame).clutch = s.clutch ∧
    (preview.afterStep s frame).phases = s.phases.advance
      (SO101ClutchRetargeter.isEngaged s.clutch) (preview.usableHand frame.hand).isSome frame.dt ∧
    (preview.afterStep s frame).gate = s.gate.update preview.clutch.sqrt preview.arccos
      preview.config ((preview.usableHand frame.hand).map Prod.snd)
      (some (preview.referenceRotation frame.gripperAfter))
      (preview.afterStep s frame).phases.permitsEngagement
      (decide (frame.band = some .passThrough)) (some frame.dt) := by
  cases hanchored : s.anchored with
  | false =>
    rw [afterStep, hanchored] at h
    exact absurd (hanchored.symm.trans h) (by decide)
  | true =>
    rw [afterStep, hanchored]
    exact ⟨rfl, rfl, rfl, rfl⟩

/-- **What a frame does**, when the arm is anchored and nothing is recentred. -/
theorem step_spec {s s' : State K} {frame : PreviewFrame K} {events : ExecutionEvents}
    (h : preview.step s frame = .ok (s', events)) (hrecentre : frame.recentre = false)
    (hs : s.recentered = false) (hanchored : s'.anchored = true) :
    preview.Stepped s frame s' events := by
  rw [step, hrecentre, if_neg Bool.false_ne_true] at h
  obtain ⟨⟨begun, permitted, sent⟩, hbefore, hafter⟩ := exists_of_map_ok h
  obtain ⟨hphases, hgate, hrecentered, rfl, rfl, hengaged⟩ := beforeStep_spec hbefore hs
  obtain ⟨rfl, rfl⟩ := Prod.mk.inj hafter
  obtain ⟨hrecentered', hclutch, hphases', hgate'⟩ := afterStep_spec hanchored
  constructor
  · rfl
  · exact hrecentered'.trans hrecentered
  · rw [hphases', hclutch, hphases]
  · rw [hgate', hgate]
  · intro hlatched
    rw [hclutch, SO101ClutchRetargeter.isEngaged_computeFn, Bool.and_eq_true, Bool.or_eq_true,
      Bool.and_eq_true] at hlatched
    refine ⟨SO101ClutchRetargeter.canUse_of_grip hlatched.1, hlatched.2.imp ?_ id⟩
    exact fun hbegun => hengaged hbegun.2

/-! ### Runs -/

variable (preview)

/-- A run of preview frames, each of which completes. -/
structure Run (home : Transform K) (length : ℕ) where
  frames : ℕ → PreviewFrame K
  states : ℕ → State K
  /-- the events that are sent in a frame -/
  sent : ℕ → ExecutionEvents
  states_zero : states 0 = preview.start home
  states_succ : ∀ n < length, preview.step (states n) (frames n) = .ok (states (n + 1), sent n)

/-- The state after some frames, and what the last one sent; a frame that raises changes nothing. -/
def after (home : Transform K) (frames : ℕ → PreviewFrame K) : ℕ → State K × ExecutionEvents
  | 0 => (preview.start home, {})
  | n + 1 =>
    match preview.step (after home frames n).1 (frames n) with
    | .ok result => result
    | .error _ => after home frames n

variable {preview}

/-- A run of frames that do not raise. -/
def Run.ofFrames {home : Transform K} {length : ℕ} (frames : ℕ → PreviewFrame K)
    (h : ∀ n < length, (preview.step (preview.after home frames n).1 (frames n)).toBool = true) :
    preview.Run home length where
  frames := frames
  states n := (preview.after home frames n).1
  sent n := (preview.after home frames (n + 1)).2
  states_zero := rfl
  states_succ n hn := by
    have hok := h n hn
    rw [after]
    cases hstep : preview.step (preview.after home frames n).1 (frames n) with
    | error e =>
      rw [hstep] at hok
      cases hok
    | ok result => rfl

namespace Run

variable {home : Transform K} {length : ℕ} (run : preview.Run home length)

/-- The clutch is latched after so many frames. -/
def Latched (n : ℕ) : Prop := SO101ClutchRetargeter.isEngaged (run.states n).clutch = true

instance (n : ℕ) : Decidable (run.Latched n) := inferInstanceAs (Decidable (_ = _))

/-- The phase after so many frames. -/
def phase (n : ℕ) : ClutchPhase := (run.states n).phases.phase

/-- The preview has a usable hand in a frame. -/
def HandUsable (n : ℕ) : Prop := (preview.usableHand (run.frames n).hand).isSome = true

instance (n : ℕ) : Decidable (run.HandUsable n) := inferInstanceAs (Decidable (_ = _))

/-- The angle of a frame between the hand and the gripper. -/
def angle (n : ℕ) : Option K :=
  EngageGate.angle preview.clutch.sqrt preview.arccos
    ((preview.usableHand (run.frames n).hand).map Prod.snd)
    (some (preview.referenceRotation (run.frames n).gripperAfter))

/-- The time that a frame is credited with. -/
def credit (n : ℕ) : K := EngageGate.bounded preview.config (some (run.frames n).dt)

/-- The gate is open after a frame. -/
def Opens (n : ℕ) : Prop := (run.states (n + 1)).gate.verdict.ok = true

/-- A frame of a stretch that began in frame `first` passes the gate: a usable hand, a passing
limiter, a phase that is not ENGAGED, and an angle below the enter bound, or below the exit bound
once the gate has opened in the stretch. -/
structure Passes (first n : ℕ) : Prop where
  hand : run.HandUsable n
  limiter : (run.frames n).band = some .passThrough
  phase : run.phase (n + 1) ≠ .engaged
  angle : ∃ theta, run.angle n = some theta ∧
    (theta < preview.config.enterRad ∨
      theta < preview.config.exitRad ∧ ∃ opened, first ≤ opened ∧ opened < n ∧ run.Opens opened)

/-- The frames up to here pass the gate for the dwell time. -/
def Aligned (n : ℕ) : Prop :=
  ∃ first < n, (∀ k, first ≤ k → k < n → run.Passes first k) ∧
    preview.config.dwellS ≤ ∑ k ∈ Finset.Ico first n, run.credit k

/-- The clutch was latched, and the hand has been lost since for at most the dropout timeout. -/
def Recovered (n : ℕ) : Prop :=
  ∃ last < n, run.Latched (last + 1) ∧ (∀ k, last < k → k < n → ¬ run.HandUsable k) ∧
    ∑ k ∈ Finset.Ico (last + 1) n, (run.frames k).dt ≤ PhaseMachine.dropoutTimeoutS

/-- The phase goes from ENGAGED to DISENGAGED in a frame. -/
def Disengages (n : ℕ) : Prop := run.phase n = .engaged ∧ run.phase (n + 1) = .disengaged

/-- The arm is anchored in every frame, nothing is recentred, and a hand is usable for the preview
exactly when the clutch can use it. -/
structure Steady : Prop where
  anchored : ∀ n < length, (run.states (n + 1)).anchored = true
  recentre : ∀ n < length, (run.frames n).recentre = false
  usable : ∀ n < length, run.HandUsable n ↔ preview.clutch.canUse (run.frames n).input = true

/-- What the dwell of the gate has been credited with: a stretch of passing frames. -/
def Dwelling (n : ℕ) : Prop :=
  ∃ first ≤ n, (∀ k, first ≤ k → k < n → run.Passes first k) ∧
    (run.states n).gate.dwellS = ∑ k ∈ Finset.Ico first n, run.credit k ∧
    ((run.states n).gate.isOpen = true → ∃ opened, first ≤ opened ∧ opened < n ∧ run.Opens opened)

/-- What the dropout time has been credited with: the frames without a hand since the latch. -/
def Dropping (n : ℕ) : Prop :=
  ∃ last < n, run.Latched (last + 1) ∧ (∀ k, last < k → k < n → ¬ run.HandUsable k) ∧
    (run.states n).phases.dropoutS = ∑ k ∈ Finset.Ico (last + 1) n, (run.frames k).dt ∧
    (run.states n).phases.dropoutS ≤ PhaseMachine.dropoutTimeoutS

/-- What the phase machine says after a frame. -/
structure PhaseInv (n : ℕ) : Prop where
  latched : run.Latched n → run.phase n = .engaged
  dropping : run.phase n = .engaged → run.Dropping n
  reset : (run.states n).phases.resetRequested = true ↔ ∃ m, n = m + 1 ∧ run.Disengages m

/-- What holds after every frame. -/
structure Inv (n : ℕ) : Prop where
  recentered : (run.states n).recentered = false
  phases : run.PhaseInv n
  dwelling : run.Dwelling n
  permitted : (run.states n).gate.permitted = true → run.phase n = .engaged ∨ run.Aligned n

variable {run}

theorem inv_zero : run.Inv 0 := by
  constructor
  · rw [run.states_zero]
    rfl
  · constructor
    · intro h
      rw [Latched, run.states_zero] at h
      cases h
    · intro h
      rw [phase, run.states_zero] at h
      cases h
    · rw [run.states_zero]
      exact ⟨fun h => (by cases h), fun ⟨m, hm, _⟩ => absurd hm (Nat.succ_ne_zero m).symm⟩
  · refine ⟨0, le_rfl, fun k _ hk => absurd hk (Nat.not_lt_zero k), ?_, fun h => ?_⟩
    · rw [run.states_zero]
      rfl
    · rw [run.states_zero] at h
      cases h
  · intro h
    rw [run.states_zero] at h
    cases h

/-- A frame in which no conjunct fails passes the gate. -/
theorem passes_of_failed {n first : ℕ}
    (hfailed : (run.states n).gate.failed preview.clutch.sqrt preview.arccos preview.config
      ((preview.usableHand (run.frames n).hand).map Prod.snd)
      (some (preview.referenceRotation (run.frames n).gripperAfter))
      (run.states (n + 1)).phases.permitsEngagement
      (decide ((run.frames n).band = some .passThrough)) = [])
    (hopen : (run.states n).gate.isOpen = true →
      ∃ opened, first ≤ opened ∧ opened < n ∧ run.Opens opened) : run.Passes first n := by
  obtain ⟨hphase, hband, theta, hangle, htheta⟩ := EngageGate.failed_eq_nil.mp hfailed
  refine ⟨?_, of_decide_eq_true hband, of_decide_eq_false hphase, theta, hangle, ?_⟩
  · -- Without a hand there is no angle.
    cases hhand : preview.usableHand (run.frames n).hand with
    | none =>
      rw [hhand, Option.map_none, EngageGate.angle] at hangle
      split at hangle
      · rename_i hrotation
        cases hrotation
      · cases hangle
    | some hand =>
      rw [HandUsable, hhand]
      rfl
  · rw [EngageGate.tolerance] at htheta
    cases hgate : (run.states n).gate.isOpen with
    | false =>
      rw [hgate] at htheta
      exact .inl htheta
    | true =>
      rw [hgate] at htheta
      exact .inr ⟨htheta, hopen hgate⟩

/-- A stretch with one more frame. -/
theorem passes_succ {n first : ℕ} (hpasses : ∀ k, first ≤ k → k < n → run.Passes first k)
    (hlast : run.Passes first n) : ∀ k, first ≤ k → k < n + 1 → run.Passes first k := by
  intro k hfirst hk
  rcases Nat.lt_succ_iff_lt_or_eq.mp hk with hlt | rfl
  · exact hpasses k hfirst hlt
  · exact hlast

/-- **The gate over a frame**: the dwell is credited with a stretch of passing frames, and a
permission comes from the phase or from a stretch that is long enough. -/
theorem Dwelling.step {n : ℕ} (h : run.Dwelling n)
    (hstep : preview.Stepped (run.states n) (run.frames n) (run.states (n + 1)) (run.sent n)) :
    run.Dwelling (n + 1) ∧ ((run.states (n + 1)).gate.permitted = true →
      run.phase (n + 1) = .engaged ∨ run.Aligned (n + 1)) := by
  obtain ⟨first, hfirst, hpasses, hdwell, hopen⟩ := h
  have hsum : ∑ k ∈ Finset.Ico first (n + 1), run.credit k =
      (run.states n).gate.dwellS + run.credit n := by
    rw [Finset.sum_Ico_succ_top hfirst, hdwell]
  have hgate := hstep.gate
  rcases EngageGate.update_cases preview.config (run.states n).gate
      ((preview.usableHand (run.frames n).hand).map Prod.snd)
      (some (preview.referenceRotation (run.frames n).gripperAfter))
      (run.states (n + 1)).phases.permitsEngagement
      (decide ((run.frames n).band = some .passThrough)) (some (run.frames n).dt) with
    ⟨verdict, -, heq⟩ | ⟨hfailed, -, heq⟩ | ⟨hfailed, hlong, heq⟩
  all_goals rw [heq] at hgate
  · -- The frame fails, and the stretch starts over after it.
    refine ⟨⟨n + 1, le_rfl, fun k hk hlt => absurd hk (not_le.mpr hlt), ?_, ?_⟩, ?_⟩
    · rw [hgate, Finset.Ico_self, Finset.sum_empty]
    · rw [hgate]
      exact fun h => (by cases h)
    · rw [hgate]
      exact fun h => .inl (of_decide_eq_true h)
  · have hlast := passes_of_failed hfailed hopen
    refine ⟨⟨first, Nat.le_succ_of_le hfirst, passes_succ hpasses hlast, ?_, ?_⟩, ?_⟩
    · rw [hgate, hsum]
      rfl
    · rw [hgate]
      intro h
      obtain ⟨opened, hle, hlt, hopened⟩ := hopen h
      exact ⟨opened, hle, Nat.lt_succ_of_lt hlt, hopened⟩
    · rw [hgate]
      exact fun h => .inl (of_decide_eq_true h)
  · have hlast := passes_of_failed hfailed hopen
    refine ⟨⟨first, Nat.le_succ_of_le hfirst, passes_succ hpasses hlast, ?_, ?_⟩, ?_⟩
    · rw [hgate, hsum]
      rfl
    · intro _
      refine ⟨n, hfirst, Nat.lt_succ_self n, ?_⟩
      rw [Opens, hgate]
      rfl
    · intro _
      refine .inr ⟨first, Nat.lt_succ_of_le hfirst, passes_succ hpasses hlast, ?_⟩
      rw [hsum]
      exact hlong

/-- A latch needs a usable hand. -/
theorem Steady.handUsable {n : ℕ} (h : run.Steady) (hn : n < length)
    (hstep : preview.Stepped (run.states n) (run.frames n) (run.states (n + 1)) (run.sent n))
    (hlatched : run.Latched (n + 1)) : run.HandUsable n :=
  (h.usable n hn).mpr (hstep.engaged hlatched).1

theorem exists_disengages {n : ℕ} : (∃ m, n + 1 = m + 1 ∧ run.Disengages m) ↔ run.Disengages n := by
  constructor
  · rintro ⟨m, hm, h⟩
    rwa [Nat.succ_injective hm]
  · exact fun h => ⟨n, rfl, h⟩

section

variable [IsStrictOrderedRing K]

/-- A frame that leaves the clutch latched starts the dropout time over. -/
theorem dropping_of_latched {n : ℕ} (hlatched : run.Latched (n + 1))
    (hdropout : (run.states (n + 1)).phases.dropoutS = 0) : run.Dropping (n + 1) := by
  refine ⟨n, Nat.lt_succ_self n, hlatched, fun k hk hlt => absurd hk (by omega), ?_, ?_⟩
  · rw [hdropout, Finset.Ico_self, Finset.sum_empty]
  · rw [hdropout, PhaseMachine.dropoutTimeoutS]
    positivity

/-- **The phase machine over a frame.** -/
theorem PhaseInv.step {n : ℕ} (h : run.phase n = .engaged → run.Dropping n) (hsteady : run.Steady)
    (hn : n < length)
    (hstep : preview.Stepped (run.states n) (run.frames n) (run.states (n + 1)) (run.sent n)) :
    run.PhaseInv (n + 1) := by
  have hhand := hsteady.handUsable hn hstep
  have hphases := hstep.phases
  rcases PhaseMachine.advance_cases { (run.states n).phases with resetRequested := false }
      (SO101ClutchRetargeter.isEngaged (run.states (n + 1)).clutch)
      (preview.usableHand (run.frames n).hand).isSome (run.frames n).dt with
    ⟨hphase, hengaged, heq⟩ | ⟨hphase, hengaged, heq⟩ | ⟨hphase, -, hengaged, heq⟩ |
    ⟨hphase, hlost, hdropout, heq⟩ | ⟨hphase, hreleased, heq⟩
  all_goals rw [heq] at hphases
  · -- Disengaged, and not latched.
    refine ⟨fun hlatched => ?_, fun hp => ?_, ?_⟩
    · exact absurd (hengaged.symm.trans hlatched) Bool.false_ne_true
    · rw [phase, hphases] at hp
      exact absurd (hphase.symm.trans hp) (by decide)
    · rw [exists_disengages, Disengages, hphases]
      refine ⟨fun hp => (by cases hp), fun hp => ?_⟩
      exact absurd (hphase.symm.trans hp.1) (by decide)
  · -- The latch.
    refine ⟨fun _ => ?_, fun _ => dropping_of_latched hengaged (by rw [hphases]), ?_⟩
    · rw [phase, hphases]
    · rw [exists_disengages, Disengages, hphases]
      refine ⟨fun hp => (by cases hp), fun hp => ?_⟩
      exact absurd (hphase.symm.trans hp.1) (by decide)
  · -- Engaged, with the hand.
    have hafter : run.phase (n + 1) = .engaged := by rw [phase, hphases]
    refine ⟨fun _ => hafter, fun _ => dropping_of_latched hengaged (by rw [hphases]), ?_⟩
    rw [exists_disengages, Disengages, hafter, hphases]
    exact ⟨fun hp => (by cases hp), fun hp => (by cases hp.2)⟩
  · -- Engaged through a gap, which the frame makes longer.
    have hafter : run.phase (n + 1) = .engaged := by rw [phase, hphases]
    refine ⟨fun _ => hafter, fun _ => ?_, ?_⟩
    · obtain ⟨last, hlast, hlatched, hgap, hsum, -⟩ := h hphase
      refine ⟨last, Nat.lt_succ_of_lt hlast, hlatched, ?_, ?_, ?_⟩
      · intro k hk hlt
        rcases Nat.lt_succ_iff_lt_or_eq.mp hlt with hlt | rfl
        · exact hgap k hk hlt
        · rw [HandUsable, hlost]
          exact Bool.false_ne_true
      · rw [Finset.sum_Ico_succ_top hlast, ← hsum, hphases]
      · rw [hphases]
        exact hdropout
    · rw [exists_disengages, Disengages, hafter, hphases]
      exact ⟨fun hp => (by cases hp), fun hp => (by cases hp.2)⟩
  · -- A release, or a gap that is too long: the disengage edge.
    refine ⟨fun hlatched => ?_, fun hp => ?_, ?_⟩
    · have hreleased := hreleased (hhand hlatched)
      exact absurd (hreleased.symm.trans hlatched) Bool.false_ne_true
    · rw [phase, hphases] at hp
      cases hp
    · rw [exists_disengages, Disengages]
      exact ⟨fun _ => ⟨hphase, by rw [phase, hphases]⟩, fun _ => by rw [hphases]⟩

/-- **What holds after every frame.** -/
theorem inv (hsteady : run.Steady) {n : ℕ} (hn : n ≤ length) : run.Inv n := by
  induction n with
  | zero => exact inv_zero
  | succ n ih =>
    have hinv := ih (Nat.le_of_succ_le hn)
    have hstep := step_spec (run.states_succ n hn) (hsteady.recentre n hn) hinv.recentered
      (hsteady.anchored n hn)
    obtain ⟨hdwelling, hpermitted⟩ := hinv.dwelling.step hstep
    exact ⟨hstep.recentered, PhaseInv.step hinv.phases.dropping hsteady hn hstep, hdwelling,
      hpermitted⟩

/-- **No ungated latch.**  In every run with an anchored arm and no recentring, a clutch that
latches in a frame does so after a stretch of frames that passed the gate for the dwell time, or
after a tracking loss of at most the dropout timeout; and a reset pulse is sent in exactly the
frames that follow a change from ENGAGED to DISENGAGED. -/
theorem no_ungated_latch (run : preview.Run home length) (hsteady : run.Steady) :
    (∀ n < length, ¬ run.Latched n → run.Latched (n + 1) → run.Aligned n ∨ run.Recovered n) ∧
    ∀ n < length, (run.sent n).reset = true ↔ ∃ m, n = m + 1 ∧ run.Disengages m := by
  constructor
  · intro n hn hbefore hafter
    have hinv := inv hsteady hn.le
    have hstep := step_spec (run.states_succ n hn) (hsteady.recentre n hn) hinv.recentered
      (hsteady.anchored n hn)
    -- A new latch was permitted: by the phase, in a gap, or by the gate.
    have hpermitted := (hstep.engaged hafter).2.resolve_left hbefore
    rcases hinv.permitted hpermitted with hphase | haligned
    · obtain ⟨last, hlast, hlatched, hgap, hsum, htimeout⟩ := hinv.phases.dropping hphase
      exact .inr ⟨last, hlast, hlatched, hgap, hsum ▸ htimeout⟩
    · exact .inl haligned
  · intro n hn
    have hinv := inv hsteady hn.le
    have hstep := step_spec (run.states_succ n hn) (hsteady.recentre n hn) hinv.recentered
      (hsteady.anchored n hn)
    rw [hstep.reset]
    exact hinv.phases.reset

end

end Run

/-- A preview of the SO-101 with its own calibration; the arc cosine is that of an aligned hand. -/
def so101Preview : ClutchPreview ℚ where
  clutch := { defaultClutch ratSqrt with controllerPose := .aim }
  config :=
    { enterRad := 1 / 3
      exitRad := 1 / 2
      dwellS := 1 / 10
      nominalDt := 1 / 60
      maxDt := 1 / 10
      enterRad_pos := by norm_num
      enterRad_le := by norm_num
      dwellS_nonneg := by norm_num
      nominalDt_pos := by norm_num
      nominalDt_le := by norm_num }
  arccos x := 1 - x
  handFromGhost := ⟨1 / 2, -1 / 2, -1 / 2, -1 / 2⟩

/-- A frame of an aligned hand, or of none. -/
def alignedFrame (tracked : Bool) (squeeze dt : ℚ) : PreviewFrame ℚ where
  gripperBefore := ⟨0, 0, 0, 1⟩
  input := some
    { grip := ⟨false, fun _ => .nan, ⟨.nan, .nan, .nan, .nan⟩⟩
      aim := ⟨tracked, fun _ => .finite 0, ⟨.finite 0, .finite 0, .finite 0, .finite 1⟩⟩
      squeeze := .finite squeeze }
  hand :=
    if tracked then
      some (fun _ => .finite 0, ⟨.finite 0, .finite 0, .finite 0, .finite 1⟩)
    else none
  band := some .passThrough
  gripperAfter := ⟨0, 0, 0, 1⟩
  dt := dt

/-- The hand settles and squeezes, is lost for a moment, and releases. -/
def engageFrames : ℕ → PreviewFrame ℚ
  | 0 | 1 => alignedFrame true 0 (1 / 20)
  | 2 => alignedFrame true 1 (1 / 20)
  | 3 => alignedFrame false 1 (1 / 4)
  | 4 => alignedFrame true 1 (1 / 20)
  | _ => alignedFrame true 0 (1 / 20)

def engageRun : so101Preview.Run identityHome 7 :=
  Run.ofFrames engageFrames (by decide +kernel)

theorem engage_run_latches :
    ¬ engageRun.Latched 2 ∧ engageRun.Latched 3 ∧ ¬ engageRun.Latched 4 ∧ engageRun.Latched 5 ∧
    (engageRun.Aligned 2 ∨ engageRun.Recovered 2) ∧
    (engageRun.Aligned 4 ∨ engageRun.Recovered 4) ∧
    ((engageRun.sent 6).reset = true ↔ ∃ m, 6 = m + 1 ∧ engageRun.Disengages m) := by
  have hsteady : engageRun.Steady := by
    constructor <;> decide +kernel
  have h2 : ¬ engageRun.Latched 2 := by decide +kernel
  have h3 : engageRun.Latched 3 := by decide +kernel
  have h4 : ¬ engageRun.Latched 4 := by decide +kernel
  have h5 : engageRun.Latched 5 := by decide +kernel
  have h := engageRun.no_ungated_latch hsteady
  exact ⟨h2, h3, h4, h5, h.1 2 (by decide) h2 h3, h.1 4 (by decide) h4 h5, h.2 6 (by decide)⟩

end ClutchPreview

end Clutch
