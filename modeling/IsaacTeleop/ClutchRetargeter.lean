/-
The clutch of the SO-101 arm.

While it is engaged, the clutch adds the motion of the controller since the latch to the pose it
had at the latch; when it is not, it holds the last commanded pose and owes a latch.  Numbers are
exact, or not finite; orientations are quaternions as the source multiplies them, read as elements
of Mathlib's quaternions.

* `SO101ClutchRetargeter.computeFn`, `ClutchState.setHomeBaseTEe` — the calls;
* `SO101ClutchRetargeter.compute_cases` — everything a frame can do;
* `Latched.track`, `latched_run`, `usable_run` — one engagement;
* `SO101ClutchRetargeter.clutch_law` — the composition law over all engagements;
* `SO101ClutchRetargeter.finite_run_iff` — when every commanded pose is finite.
-/
import Mathlib.Algebra.Quaternion
import Mathlib.Analysis.Real.Sqrt
import Mathlib.LinearAlgebra.Matrix.Determinant.Basic
import Mathlib.Tactic

namespace Clutch

/-! ### Numbers -/

/-- A number as it comes in. -/
inductive Number (K : Type)
  | finite (x : K)
  | inf (negative : Bool)
  | nan
  deriving DecidableEq

namespace Number

variable {K : Type}

/-- `np.isfinite` -/
def isFinite : Number K → Bool
  | finite _ => true
  | inf _ => false
  | nan => false

/-- A sum with a finite number. -/
def add [Add K] : Number K → K → Number K
  | finite x, y => finite (x + y)
  | inf negative, _ => inf negative
  | nan, _ => nan

/-- Whether a number is above a finite one; no NaN is. -/
def above [LT K] [DecidableLT K] : Number K → K → Bool
  | finite x, y => decide (y < x)
  | inf negative, _ => !negative
  | nan, _ => false

@[simp] theorem isFinite_add [Add K] (n : Number K) (y : K) : (n.add y).isFinite = n.isFinite := by
  cases n <;> rfl

end Number

abbrev Position (α : Type) := Fin 3 → α

/-- A 4x4 transform. -/
abbrev Transform (α : Type) := Fin 4 → Fin 4 → α

/-- A quaternion `[x, y, z, w]`. -/
@[ext]
structure Quat (α : Type) where
  x : α
  y : α
  z : α
  w : α
  deriving DecidableEq

section Finite

variable {K : Type}

/-- A position whose numbers are all finite. -/
def Position.finite? (p : Position (Number K)) : Option (Position K) :=
  match p 0, p 1, p 2 with
  | .finite x, .finite y, .finite z => some ![x, y, z]
  | _, _, _ => none

/-- A quaternion with a finite norm: its numbers are all finite. -/
def Quat.finite? (q : Quat (Number K)) : Option (Quat K) :=
  match q.x, q.y, q.z, q.w with
  | .finite x, .finite y, .finite z, .finite w => some ⟨x, y, z, w⟩
  | _, _, _, _ => none

def Position.ofFinite (p : Position K) : Position (Number K) := fun i => .finite (p i)

def Position.Finite (p : Position (Number K)) : Prop := ∀ i, (p i).isFinite = true

/-- The translation block. -/
def Transform.translation {α : Type} (m : Transform α) : Position α := fun i => m i.castSucc 3

/-- The rotation block. -/
def Transform.rotation {α : Type} (m : Transform α) : Matrix (Fin 3) (Fin 3) α :=
  fun i j => m i.castSucc j.castSucc

theorem Position.ofFinite_finite (p : Position K) : (ofFinite p).Finite := fun _ => rfl

end Finite

/-! ### Quaternions -/

section Quaternions

variable {K : Type} [Field K] [LinearOrder K] (sqrt : K → K)

/-- `np.linalg.norm` -/
def Quat.norm (q : Quat K) : K := sqrt (q.x * q.x + q.y * q.y + q.z * q.z + q.w * q.w)

/-- `_normalize_quat` -/
def normalizeQuat (q : Quat K) : Quat K :=
  if 0 < q.norm sqrt then
    ⟨q.x / q.norm sqrt, q.y / q.norm sqrt, q.z / q.norm sqrt, q.w / q.norm sqrt⟩
  else q

omit [LinearOrder K] in
/-- `_quat_mul` -/
def quatMul (a b : Quat K) : Quat K where
  x := a.w * b.x + a.x * b.w + a.y * b.z - a.z * b.y
  y := a.w * b.y - a.x * b.z + a.y * b.w + a.z * b.x
  z := a.w * b.z + a.x * b.y - a.y * b.x + a.z * b.w
  w := a.w * b.w - a.x * b.x - a.y * b.y - a.z * b.z

/-- `_quat_inv` -/
def quatInv (q : Quat K) : Quat K :=
  let q := normalizeQuat sqrt q
  ⟨-q.x, -q.y, -q.z, q.w⟩

/-- `_mat_to_quat_xyzw` -/
def matToQuatXyzw (m : Matrix (Fin 3) (Fin 3) K) : Quat K :=
  let trace := m 0 0 + m 1 1 + m 2 2
  normalizeQuat sqrt <|
    if 0 < trace then
      let s := 1 / 2 / sqrt (trace + 1)
      ⟨(m 2 1 - m 1 2) * s, (m 0 2 - m 2 0) * s, (m 1 0 - m 0 1) * s, 1 / 4 / s⟩
    else if m 1 1 < m 0 0 ∧ m 2 2 < m 0 0 then
      let s := 2 * sqrt (1 + m 0 0 - m 1 1 - m 2 2)
      ⟨1 / 4 * s, (m 0 1 + m 1 0) / s, (m 0 2 + m 2 0) / s, (m 2 1 - m 1 2) / s⟩
    else if m 2 2 < m 1 1 then
      let s := 2 * sqrt (1 + m 1 1 - m 0 0 - m 2 2)
      ⟨(m 0 1 + m 1 0) / s, 1 / 4 * s, (m 1 2 + m 2 1) / s, (m 0 2 - m 2 0) / s⟩
    else
      let s := 2 * sqrt (1 + m 2 2 - m 0 0 - m 1 1)
      ⟨(m 0 2 + m 2 0) / s, (m 1 2 + m 2 1) / s, 1 / 4 * s, (m 1 0 - m 0 1) / s⟩

end Quaternions

/-! ### The retargeter -/

/-- Which of the poses of a controller is followed. -/
inductive ControllerPose
  | grip
  | aim
  deriving DecidableEq

structure TrackedPose (K : Type) where
  isValid : Bool
  position : Position (Number K)
  orientation : Quat (Number K)

structure ControllerInput (K : Type) where
  grip : TrackedPose K
  aim : TrackedPose K
  squeeze : Number K

def ControllerPose.select {K : Type} (inp : ControllerInput K) : ControllerPose → TrackedPose K
  | grip => inp.grip
  | aim => inp.aim

/-- What a call of `_compute_fn` reads. -/
structure Frame (K : Type) where
  reset : Bool := false
  /-- `execution_state == RUNNING` -/
  running : Bool := true
  input : Option (ControllerInput K)
  /-- `measured_base_T_ee` -/
  measured : Option (Transform (Number K)) := none
  /-- `engage_permitted` -/
  permitted : Option Bool := none

/-- `_engage_permitted` -/
def Frame.engagePermitted {K : Type} (frame : Frame K) : Bool := frame.permitted.getD true

structure SO101ClutchRetargeter (K : Type) [Field K] [LinearOrder K] where
  /-- the square root of the numbers -/
  sqrt : K → K
  controllerPose : ControllerPose := .grip
  positionScale : K := 1
  squeezeThreshold : K := 1 / 2
  positionScale_pos : 0 < positionScale
  squeezeThreshold_nonneg : 0 ≤ squeezeThreshold
  squeezeThreshold_lt : squeezeThreshold < 1

/-- The state of the clutch; an emitted pose is a position and an orientation. -/
structure ClutchState (K : Type) where
  lastCommandedPos : Position (Number K)
  lastCommandedRot : Quat K
  homePos : Position (Number K)
  homeRot : Quat K
  origin : Option (Position K)
  originRot : Quat K
  lastPose : Position (Number K) × Quat K
  configuredHome : Transform K

/-- The `ValueError`s of `set_home_base_T_ee`. -/
inductive HomeError
  /-- "home_base_T_ee must be finite" -/
  | notFinite
  /-- "home_base_T_ee bottom row must be [0, 0, 0, 1] …" -/
  | bottomRow
  /-- "home_base_T_ee rotation block must be orthonormal …" -/
  | notOrthonormal
  /-- "home_base_T_ee rotation block must be a proper rotation …" -/
  | notProper
  deriving DecidableEq

section Home

variable {K : Type} [Field K] [LinearOrder K]

/-- `_MIN_QUAT_NORM` -/
def minQuatNorm : K := 1 / 1000000

/-- `_ROTATION_ATOL` -/
def rotationAtol : K := 1 / 10000

/-- `np.allclose` of two numbers, with its default `rtol`. -/
def Close (a b : K) : Prop := |a - b| ≤ rotationAtol + 1 / 100000 * |b|

instance (a b : K) : Decidable (Close a b) := inferInstanceAs (Decidable (_ ≤ _))

/-- A transform whose numbers are all finite. -/
def Transform.finite? (m : Transform (Number K)) : Option (Transform K) :=
  if ∀ i j, (m i j).isFinite then
    some fun i j =>
      match m i j with
      | .finite x => x
      | _ => 0
  else none

/-- The checks of `set_home_base_T_ee`. -/
def checkHome (raw : Transform (Number K)) : Except HomeError (Transform K) :=
  match raw.finite? with
  | none => .error .notFinite
  | some home =>
    if ¬ ∀ j, Close (home 3 j) (if j = 3 then 1 else 0) then .error .bottomRow
    else if ¬ ∀ i j,
        Close (∑ k, home.rotation k i * home.rotation k j) (if i = j then 1 else 0) then
      .error .notOrthonormal
    else if rotationAtol < |home.rotation.det - 1| then .error .notProper
    else .ok home

/-- `set_home_base_T_ee` with a transform that passes its checks. -/
def ClutchState.seed (sqrt : K → K) (s : ClutchState K) (home : Transform K) : ClutchState K :=
  { s with
    configuredHome := home
    lastCommandedPos := home.translation.ofFinite
    lastCommandedRot := matToQuatXyzw sqrt home.rotation
    homePos := home.translation.ofFinite
    homeRot := matToQuatXyzw sqrt home.rotation
    lastPose := (home.translation.ofFinite, matToQuatXyzw sqrt home.rotation)
    origin := none }

/-- `set_home_base_T_ee` -/
def ClutchState.setHomeBaseTEe (sqrt : K → K) (s : ClutchState K) (raw : Transform (Number K)) :
    Except HomeError (ClutchState K) :=
  (checkHome raw).map (s.seed sqrt)

end Home

namespace SO101ClutchRetargeter

variable {K : Type} [Field K] [LinearOrder K] (clutch : SO101ClutchRetargeter K)

/-- The state before the constructor's own call of `set_home_base_T_ee`. -/
def blank : ClutchState K where
  lastCommandedPos := Position.ofFinite 0
  lastCommandedRot := ⟨0, 0, 0, 1⟩
  homePos := Position.ofFinite 0
  homeRot := ⟨0, 0, 0, 1⟩
  origin := none
  originRot := ⟨0, 0, 0, 1⟩
  lastPose := (Position.ofFinite 0, ⟨0, 0, 0, 0⟩)
  configuredHome i j := if i = j then 1 else 0

/-- `__init__` with a home that passes its checks. -/
def start (home : Transform K) : ClutchState K := blank.seed clutch.sqrt home

/-- Hold, and owe a latch. -/
def hold (s : ClutchState K) : ClutchState K × (Position (Number K) × Quat K) :=
  ({ s with origin := none }, s.lastPose)

/-- `_latch` -/
def latch (s : ClutchState K) (frame : Frame K) (gripPos : Position K) (gripRot : Quat K) :
    ClutchState K :=
  { s with
    homePos :=
      match frame.measured with
      | some baseTEe => baseTEe.translation
      | none => s.lastCommandedPos
    homeRot := s.lastCommandedRot
    origin := some gripPos
    originRot := normalizeQuat clutch.sqrt gripRot }

/-- The pose relative to the latch, and its emission. -/
def track (s : ClutchState K) (origin gripPos : Position K) (gripRot : Quat K) :
    ClutchState K × (Position (Number K) × Quat K) :=
  let pos : Position (Number K) :=
    fun i => (s.homePos i).add (clutch.positionScale * (gripPos i - origin i))
  let rot := normalizeQuat clutch.sqrt
    (quatMul (normalizeQuat clutch.sqrt gripRot) (quatInv clutch.sqrt s.originRot))
  let rot := normalizeQuat clutch.sqrt (quatMul rot s.homeRot)
  ({ s with lastCommandedPos := pos, lastCommandedRot := rot, lastPose := (pos, rot) }, (pos, rot))

/-- `_compute_fn`: the state after it and the pose that it emits.  The configured home has passed
its checks, so a reset cannot fail. -/
def computeFn (s : ClutchState K) (frame : Frame K) :
    ClutchState K × (Position (Number K) × Quat K) :=
  let s := if frame.reset then s.seed clutch.sqrt s.configuredHome else s
  match frame.input with
  | none => hold s
  | some inp =>
    let pose := clutch.controllerPose.select inp
    if pose.isValid then
      match pose.position.finite?, pose.orientation.finite? with
      | some gripPos, some gripRot =>
        if gripRot.norm clutch.sqrt < minQuatNorm then hold s
        else if frame.running && inp.squeeze.above clutch.squeezeThreshold then
          match s.origin with
          | some origin => clutch.track s origin gripPos gripRot
          | none =>
            if frame.engagePermitted then
              clutch.track (clutch.latch s frame gripPos gripRot) gripPos gripPos gripRot
            else (s, s.lastPose)
        else hold s
      | _, _ => hold s
    else hold s

/-- The state after some frames. -/
def computeAll (s : ClutchState K) (frames : List (Frame K)) : ClutchState K :=
  frames.foldl (fun s frame => (clutch.computeFn s frame).1) s

/-! ### What a frame does -/

/-- The controller pose of a frame at which the clutch can be engaged: it is there, valid, finite
and not degenerate, and squeezed while running. -/
def grip (frame : Frame K) : Option (Position K × Quat K) :=
  match frame.input with
  | none => none
  | some inp =>
    let pose := clutch.controllerPose.select inp
    if pose.isValid && frame.running && inp.squeeze.above clutch.squeezeThreshold then
      match pose.position.finite?, pose.orientation.finite? with
      | some gripPos, some gripRot =>
        if gripRot.norm clutch.sqrt < minQuatNorm then none else some (gripPos, gripRot)
      | _, _ => none
    else none

/-- The state that a frame starts from. -/
def begun (s : ClutchState K) (frame : Frame K) : ClutchState K :=
  if frame.reset then s.seed clutch.sqrt s.configuredHome else s

/-- **Everything a frame can do**: hold, track, latch and track, or wait for the permission. -/
theorem compute_cases (s : ClutchState K) (frame : Frame K) :
    (clutch.grip frame = none ∧ clutch.computeFn s frame = hold (clutch.begun s frame)) ∨
    (∃ pose origin, clutch.grip frame = some pose ∧ (clutch.begun s frame).origin = some origin ∧
      clutch.computeFn s frame = clutch.track (clutch.begun s frame) origin pose.1 pose.2) ∨
    (∃ pose, clutch.grip frame = some pose ∧ (clutch.begun s frame).origin = none ∧
      frame.engagePermitted = true ∧ clutch.computeFn s frame =
        clutch.track (clutch.latch (clutch.begun s frame) frame pose.1 pose.2) pose.1 pose.1
          pose.2) ∨
    ∃ pose, clutch.grip frame = some pose ∧ (clutch.begun s frame).origin = none ∧
      frame.engagePermitted = false ∧
      clutch.computeFn s frame = (clutch.begun s frame, (clutch.begun s frame).lastPose) := by
  have hbegun : (if frame.reset then s.seed clutch.sqrt s.configuredHome else s) =
      clutch.begun s frame := rfl
  unfold computeFn grip
  rw [hbegun]
  generalize clutch.begun s frame = s
  cases frame.input with
  | none => exact .inl ⟨rfl, rfl⟩
  | some inp =>
  dsimp only
  generalize clutch.controllerPose.select inp = pose
  generalize inp.squeeze.above clutch.squeezeThreshold = squeezed
  cases pose.isValid with
  | false => exact .inl ⟨rfl, rfl⟩
  | true =>
  cases pose.position.finite? with
  | none => exact .inl ⟨by simp, rfl⟩
  | some gripPos =>
  cases pose.orientation.finite? with
  | none => exact .inl ⟨by simp, rfl⟩
  | some gripRot =>
  dsimp only
  by_cases hnorm : gripRot.norm clutch.sqrt < minQuatNorm
  · exact .inl ⟨by simp [hnorm], by simp [hnorm]⟩
  cases hintent : frame.running && squeezed with
  | false => exact .inl ⟨by simp [hintent], by simp [hnorm]⟩
  | true =>
  -- The frame is engaged, unless the latch has to wait.
  right
  cases horigin : s.origin with
  | some origin => exact .inl ⟨(gripPos, gripRot), origin, by simp [hintent, hnorm], rfl,
      by simp [hnorm]⟩
  | none =>
  right
  cases hpermitted : frame.engagePermitted with
  | true => exact .inl ⟨(gripPos, gripRot), by simp [hintent, hnorm], rfl, rfl, by simp [hnorm]⟩
  | false => exact .inr ⟨(gripPos, gripRot), by simp [hintent, hnorm], rfl, rfl, by simp [hnorm]⟩

theorem grip_norm {frame : Frame K} {pose : Position K × Quat K}
    (h : clutch.grip frame = some pose) : ¬ pose.2.norm clutch.sqrt < minQuatNorm := by
  unfold grip at h
  split at h
  · cases h
  · dsimp only at h
    split at h
    · split at h
      · split at h
        · cases h
        · rename_i hnorm
          obtain rfl := Option.some_inj.mp h
          exact hnorm
      · cases h
    · cases h

end SO101ClutchRetargeter

/-! ### Unit quaternions -/

/-- A square root that is exact. -/
structure Exact {K : Type} [Field K] [LinearOrder K] (sqrt : K → K) : Prop where
  nonneg : ∀ x, 0 ≤ sqrt x
  mul_self : ∀ x, 0 ≤ x → sqrt x * sqrt x = x

/-- A quaternion as Mathlib's. -/
def Quat.toQuaternion {K : Type} [Field K] (q : Quat K) : Quaternion K := ⟨q.w, q.x, q.y, q.z⟩

/-- A quaternion of norm one. -/
def Quat.Unit {K : Type} [Field K] (q : Quat K) : Prop :=
  q.x * q.x + q.y * q.y + q.z * q.z + q.w * q.w = 1

section Unit

variable {K : Type} [Field K]

theorem toQuaternion_injective : Function.Injective (Quat.toQuaternion (K := K)) := by
  intro p q h
  have h := Quaternion.ext_iff.mp h
  exact Quat.ext h.2.1 h.2.2.1 h.2.2.2 h.1

theorem toQuaternion_quatMul (a b : Quat K) :
    (quatMul a b).toQuaternion = a.toQuaternion * b.toQuaternion := by
  ext
  · rw [Quaternion.re_mul]
    rfl
  · rw [Quaternion.imI_mul]
    rfl
  · rw [Quaternion.imJ_mul]
    rfl
  · rw [Quaternion.imK_mul]
    rfl

theorem normSq_toQuaternion (q : Quat K) :
    Quaternion.normSq q.toQuaternion = q.x * q.x + q.y * q.y + q.z * q.z + q.w * q.w := by
  rw [Quaternion.normSq_def']
  simp only [Quat.toQuaternion]
  ring

theorem unit_iff {q : Quat K} : q.Unit ↔ Quaternion.normSq q.toQuaternion = 1 := by
  rw [normSq_toQuaternion, Quat.Unit]

theorem Quat.Unit.mul {a b : Quat K} (ha : a.Unit) (hb : b.Unit) : (quatMul a b).Unit := by
  rw [unit_iff, toQuaternion_quatMul, map_mul, unit_iff.mp ha, unit_iff.mp hb, one_mul]

namespace Exact

variable [LinearOrder K] [IsStrictOrderedRing K] {sqrt : K → K} (h : Exact sqrt)

include h

theorem norm_mul_self (q : Quat K) :
    q.norm sqrt * q.norm sqrt = q.x * q.x + q.y * q.y + q.z * q.z + q.w * q.w := by
  refine h.mul_self _ ?_
  have hx := mul_self_nonneg q.x
  have hy := mul_self_nonneg q.y
  have hz := mul_self_nonneg q.z
  have hw := mul_self_nonneg q.w
  linarith

theorem normalizeQuat_unit {q : Quat K} (hq : 0 < q.norm sqrt) : (normalizeQuat sqrt q).Unit := by
  have hne := hq.ne'
  have hsum := h.norm_mul_self q
  rw [normalizeQuat, if_pos hq, Quat.Unit]
  field_simp
  linarith

theorem normalizeQuat_of_unit {q : Quat K} (hq : q.Unit) : normalizeQuat sqrt q = q := by
  have hone : q.norm sqrt = 1 := by
    have hsquare : q.norm sqrt * q.norm sqrt = 1 := (h.norm_mul_self q).trans hq
    have hnonneg : 0 ≤ q.norm sqrt := h.nonneg _
    exact (mul_self_eq_one_iff.mp hsquare).resolve_right fun hneg => by linarith
  rw [normalizeQuat, hone, if_pos one_pos]
  simp only [div_one]

/-- A quaternion with a part that is not zero. -/
theorem norm_pos_of_ne {q : Quat K} (hq : q.x ≠ 0 ∨ q.y ≠ 0 ∨ q.z ≠ 0 ∨ q.w ≠ 0) :
    0 < q.norm sqrt := by
  have hsquare := h.norm_mul_self q
  refine lt_of_le_of_ne (h.nonneg _) fun hzero => ?_
  rw [← hzero, mul_zero] at hsquare
  have hx := mul_self_nonneg q.x
  have hy := mul_self_nonneg q.y
  have hz := mul_self_nonneg q.z
  have hw := mul_self_nonneg q.w
  rcases hq with hq | hq | hq | hq
  · exact hq (mul_self_eq_zero.mp (by linarith))
  · exact hq (mul_self_eq_zero.mp (by linarith))
  · exact hq (mul_self_eq_zero.mp (by linarith))
  · exact hq (mul_self_eq_zero.mp (by linarith))

omit [IsStrictOrderedRing K] in
theorem sqrt_pos {x : K} (hx : 0 < x) : 0 < sqrt x := by
  refine lt_of_le_of_ne (h.nonneg _) fun hzero => ?_
  have hsquare := h.mul_self x hx.le
  rw [← hzero, mul_zero] at hsquare
  exact hx.ne hsquare

theorem quatInv_unit {q : Quat K} (hq : q.Unit) : (quatInv sqrt q).Unit := by
  rw [quatInv, h.normalizeQuat_of_unit hq, Quat.Unit]
  simp only [neg_mul_neg]
  exact hq

theorem toQuaternion_quatInv {q : Quat K} (hq : q.Unit) :
    (quatInv sqrt q).toQuaternion = q.toQuaternion⁻¹ := by
  have hstar : (quatInv sqrt q).toQuaternion = star q.toQuaternion := by
    rw [quatInv, h.normalizeQuat_of_unit hq]
    ext
    · rw [Quaternion.re_star]
      rfl
    · rw [Quaternion.imI_star]
      rfl
    · rw [Quaternion.imJ_star]
      rfl
    · rw [Quaternion.imK_star]
      rfl
  rw [hstar, Quaternion.inv_def, unit_iff.mp hq, inv_one, one_smul]

/-- The quaternion of any matrix has norm one: the branch divides by a root that is not zero. -/
theorem matToQuatXyzw_unit (m : Matrix (Fin 3) (Fin 3) K) : (matToQuatXyzw sqrt m).Unit := by
  -- In each branch one component is a positive root, so the norm is not zero.
  have hquarter : ∀ {x : K}, 0 < x → (1 / 4 : K) * (2 * sqrt x) ≠ 0 := by
    intro x hx
    have hroot := h.sqrt_pos hx
    positivity
  refine h.normalizeQuat_unit (h.norm_pos_of_ne ?_)
  dsimp only
  split
  · rename_i htrace
    have hroot := h.sqrt_pos (show 0 < m 0 0 + m 1 1 + m 2 2 + 1 by linarith)
    refine .inr (.inr (.inr ?_))
    positivity
  · rename_i htrace
    split
    · rename_i hmax
      refine .inl (hquarter ?_)
      rcases le_or_gt 0 (m 0 0) with hsign | hsign
      · linarith
      · linarith [hmax.1, hmax.2]
    · rename_i hmax
      split
      · rename_i hlt
        have hle : m 0 0 ≤ m 1 1 := not_lt.mp fun hgt => hmax ⟨hgt, hlt.trans hgt⟩
        refine .inr (.inl (hquarter ?_))
        rcases le_or_gt 0 (m 1 1) with hsign | hsign
        · linarith
        · linarith
      · rename_i hlt
        have hle : m 0 0 ≤ m 2 2 :=
          not_lt.mp fun hgt => hmax ⟨(not_lt.mp hlt).trans_lt hgt, hgt⟩
        refine .inr (.inr (.inl (hquarter ?_)))
        rcases le_or_gt 0 (m 2 2) with hsign | hsign
        · linarith
        · linarith

end Exact

end Unit

/-! ### One engagement -/

/-- A frame without a reset or a measured pose. -/
def Frame.Plain {K : Type} (frame : Frame K) : Prop := frame.reset = false ∧ frame.measured = none

/-- The motion of the controller over some poses, from the first to the last. -/
def displacement {K : Type} [Field K] (poses : List (Position K × Quat K)) : Position K :=
  match poses.head?, poses.getLast? with
  | some first, some last => last.1 - first.1
  | _, _ => 0

/-- An engagement without a frame does not count. -/
theorem sum_filter_displacement {K : Type} [Field K] (l : List (List (Position K × Quat K))) :
    ((l.filter (· ≠ [])).map displacement).sum = (l.map displacement).sum := by
  induction l with
  | nil => rfl
  | cons poses l ih =>
    cases poses with
    | nil => simpa [displacement] using ih
    | cons pose poses => simpa using ih

namespace SO101ClutchRetargeter

variable {K : Type} [Field K] [LinearOrder K]

section Definitions

variable (clutch : SO101ClutchRetargeter K)

/-- The orientation of a controller, of norm one. -/
def orientation (pose : Position K × Quat K) : Quaternion K :=
  (normalizeQuat clutch.sqrt pose.2).toQuaternion

/-- A state that commands a pose. -/
structure Commands (s : ClutchState K) (pos : Position K) (rot : Quaternion K) : Prop where
  commandedPos : s.lastCommandedPos = pos.ofFinite
  commandedRot : s.lastCommandedRot.toQuaternion = rot
  unit : s.lastCommandedRot.Unit
  lastPose : s.lastPose = (s.lastCommandedPos, s.lastCommandedRot)

/-- A state that was latched at a pose, with the controller at the first pose then. -/
structure Latched (s : ClutchState K) (pos : Position K) (rot : Quaternion K)
    (first : Position K × Quat K) : Prop where
  homePos : s.homePos = pos.ofFinite
  homeRot : s.homeRot.toQuaternion = rot
  homeUnit : s.homeRot.Unit
  origin : s.origin = some first.1
  originRot : s.originRot = normalizeQuat clutch.sqrt first.2
  originUnit : s.originRot.Unit

/-- The rotation of the controller over some poses. -/
def turn (poses : List (Position K × Quat K)) : Quaternion K :=
  match poses.head?, poses.getLast? with
  | some first, some last => clutch.orientation last * (clutch.orientation first)⁻¹
  | _, _ => 1

/-- The engagements of some frames, each as the poses of its controller.  Frames at which the
clutch cannot be engaged end an engagement, and it begins when it is permitted. -/
def engagements (frames : List (Frame K)) : List (List (Position K × Quat K)) :=
  ((frames.splitOnP fun frame => (clutch.grip frame).isNone).map fun chunk =>
    (chunk.dropWhile fun frame => !frame.engagePermitted).filterMap clutch.grip).filter
      (· ≠ [])

end Definitions

variable [IsStrictOrderedRing K] {clutch : SO101ClutchRetargeter K}

theorem grip_norm_pos {frame : Frame K} {pose : Position K × Quat K}
    (h : clutch.grip frame = some pose) : 0 < pose.2.norm clutch.sqrt := by
  have hmin : (0 : K) < minQuatNorm := by
    unfold minQuatNorm
    positivity
  exact hmin.trans_le (not_lt.mp (clutch.grip_norm h))

omit [IsStrictOrderedRing K] in
theorem begun_plain (s : ClutchState K) {frame : Frame K} (h : frame.Plain) :
    clutch.begun s frame = s := by
  rw [begun, h.1, if_neg Bool.false_ne_true]

variable (hsqrt : Exact clutch.sqrt)

include hsqrt

/-- **A pose of an engagement** is commanded relative to the latch. -/
theorem Latched.track {s : ClutchState K} {pos : Position K} {rot : Quaternion K}
    {first : Position K × Quat K} (h : Latched clutch s pos rot first)
    {pose : Position K × Quat K} (hpose : 0 < pose.2.norm clutch.sqrt) :
    Latched clutch (clutch.track s first.1 pose.1 pose.2).1 pos rot first ∧
      Commands (clutch.track s first.1 pose.1 pose.2).1
        (pos + clutch.positionScale • (pose.1 - first.1))
        (clutch.orientation pose * (clutch.orientation first)⁻¹ * rot) := by
  have hunit := hsqrt.normalizeQuat_unit hpose
  have hinv := hsqrt.quatInv_unit h.originUnit
  have hdelta := hunit.mul hinv
  have hrot := hdelta.mul h.homeUnit
  refine ⟨⟨h.homePos, h.homeRot, h.homeUnit, h.origin, h.originRot, h.originUnit⟩, ?_⟩
  -- Products of unit quaternions need no normalization.
  rw [SO101ClutchRetargeter.track, hsqrt.normalizeQuat_of_unit hdelta,
    hsqrt.normalizeQuat_of_unit hrot]
  refine ⟨?_, ?_, hrot, rfl⟩
  · dsimp only
    rw [h.homePos]
    rfl
  · dsimp only
    rw [toQuaternion_quatMul, toQuaternion_quatMul, hsqrt.toQuaternion_quatInv h.originUnit,
      h.originRot, h.homeRot]
    rfl

/-- A latch, at the commanded pose. -/
theorem Commands.latch {s : ClutchState K} {pos : Position K} {rot : Quaternion K}
    (h : Commands s pos rot) {frame : Frame K} (hframe : frame.Plain)
    {pose : Position K × Quat K} (hpose : 0 < pose.2.norm clutch.sqrt) :
    Latched clutch (clutch.latch s frame pose.1 pose.2) pos rot pose := by
  refine ⟨?_, h.commandedRot, h.unit, rfl, rfl, hsqrt.normalizeQuat_unit hpose⟩
  rw [SO101ClutchRetargeter.latch, hframe.2]
  exact h.commandedPos

/-- An orientation that did not change. -/
theorem orientation_mul_inv {pose : Position K × Quat K} (hpose : 0 < pose.2.norm clutch.sqrt) :
    clutch.orientation pose * (clutch.orientation pose)⁻¹ = 1 := by
  refine mul_inv_cancel₀ fun hzero => ?_
  have hunit := unit_iff.mp (hsqrt.normalizeQuat_unit hpose)
  rw [orientation] at hzero
  rw [hzero, map_zero] at hunit
  exact zero_ne_one hunit

/-- **Frames that do not end an engagement.** -/
theorem latched_run {pos : Position K} {rot : Quaternion K} {first : Position K × Quat K}
    {frames : List (Frame K)} (hframes : ∀ frame ∈ frames, frame.Plain)
    (husable : ∀ frame ∈ frames, (clutch.grip frame).isNone = false) :
    ∀ {s : ClutchState K} {last : Position K × Quat K}, Latched clutch s pos rot first →
      Commands s (pos + clutch.positionScale • (last.1 - first.1))
        (clutch.orientation last * (clutch.orientation first)⁻¹ * rot) →
      ∃ last', (last :: frames.filterMap clutch.grip).getLast? = some last' ∧
        Commands (clutch.computeAll s frames) (pos + clutch.positionScale • (last'.1 - first.1))
          (clutch.orientation last' * (clutch.orientation first)⁻¹ * rot) := by
  induction frames with
  | nil => exact fun {s} {last} _ hcommands => ⟨last, rfl, hcommands⟩
  | cons frame frames ih =>
    intro s last hlatched hcommands
    obtain ⟨hframe, hframes⟩ := List.forall_mem_cons.mp hframes
    obtain ⟨husable₁, husable⟩ := List.forall_mem_cons.mp husable
    rcases clutch.compute_cases s frame with ⟨hnone, -⟩ | ⟨pose, origin, hgrip, horigin, heq⟩ |
      ⟨-, -, hnone, -⟩ | ⟨-, -, hnone, -⟩
    · rw [hnone] at husable₁
      cases husable₁
    · -- The origin stays, so the pose commanded is that of the last usable grip.
      rw [begun_plain s hframe] at horigin heq
      obtain rfl := Option.some_inj.mp (hlatched.origin.symm.trans horigin)
      obtain ⟨hlatched', hcommands'⟩ := Latched.track hsqrt hlatched (grip_norm_pos hgrip)
      rw [← heq] at hlatched' hcommands'
      obtain ⟨last', hlast', hall⟩ := ih hframes husable hlatched' hcommands'
      refine ⟨last', ?_, hall⟩
      rw [List.filterMap_cons_some hgrip, List.getLast?_cons_cons]
      exact hlast'
    · rw [begun_plain s hframe, hlatched.origin] at hnone
      cases hnone
    · rw [begun_plain s hframe, hlatched.origin] at hnone
      cases hnone

/-- **Frames at which the clutch can be engaged**, while a latch is owed: the pose moves by the
motion of the controller from the first permitted frame on. -/
theorem usable_run {rot : Quaternion K} {frames : List (Frame K)}
    (hframes : ∀ frame ∈ frames, frame.Plain)
    (husable : ∀ frame ∈ frames, (clutch.grip frame).isNone = false)
    {s : ClutchState K} {pos : Position K} (hcommands : Commands s pos rot)
    (howed : s.origin = none) :
    Commands (clutch.computeAll s frames)
      (pos + clutch.positionScale • displacement
        ((frames.dropWhile fun frame => !frame.engagePermitted).filterMap clutch.grip))
      (clutch.turn ((frames.dropWhile fun frame => !frame.engagePermitted).filterMap clutch.grip) *
        rot) := by
  induction frames with
  | nil =>
    simp only [List.dropWhile_nil, List.filterMap_nil, displacement, turn, List.head?_nil,
      smul_zero, add_zero, one_mul]
    exact hcommands
  | cons frame frames ih =>
    obtain ⟨hframe, hframes⟩ := List.forall_mem_cons.mp hframes
    obtain ⟨husable₁, husable⟩ := List.forall_mem_cons.mp husable
    rcases clutch.compute_cases s frame with ⟨hnone, -⟩ | ⟨_, _, -, horigin, -⟩ |
      ⟨pose, hgrip, -, hpermitted, heq⟩ | ⟨pose, hgrip, -, hpermitted, heq⟩
    · rw [hnone] at husable₁
      cases husable₁
    · rw [begun_plain s hframe, howed] at horigin
      cases horigin
    · -- The latch: the rest is one engagement.
      rw [begun_plain s hframe] at heq
      have hpos := grip_norm_pos hgrip
      obtain ⟨hlatched, hcommands'⟩ :=
        Latched.track hsqrt (Commands.latch hsqrt hcommands hframe hpos) hpos
      rw [← heq] at hlatched hcommands'
      obtain ⟨last, hlast, hall⟩ := latched_run hsqrt hframes husable hlatched hcommands'
      rw [List.dropWhile_cons_of_neg (by simp [hpermitted]), List.filterMap_cons_some hgrip]
      simp only [displacement, turn, List.head?_cons, hlast]
      exact hall
    · -- The permission is missing, and nothing happens.
      rw [begun_plain s hframe] at heq
      rw [List.dropWhile_cons_of_pos (by simp [hpermitted])]
      have hsame : clutch.computeAll s (frame :: frames) = clutch.computeAll s frames := by
        rw [computeAll, List.foldl_cons, heq]
        rfl
      rw [hsame]
      exact ih hframes husable

/-! ### All engagements -/

omit [IsStrictOrderedRing K] hsqrt in
/-- A frame at which the clutch cannot be engaged. -/
theorem unusable_step {s : ClutchState K} {pos : Position K} {rot : Quaternion K}
    (hcommands : Commands s pos rot) {frame : Frame K} (hframe : frame.Plain)
    (hnone : clutch.grip frame = none) :
    Commands (clutch.computeFn s frame).1 pos rot ∧ (clutch.computeFn s frame).1.origin = none := by
  rcases clutch.compute_cases s frame with ⟨-, heq⟩ | ⟨_, _, hgrip, -⟩ | ⟨_, hgrip, -⟩ |
    ⟨_, hgrip, -⟩
  · rw [begun_plain s hframe] at heq
    rw [heq]
    exact ⟨⟨hcommands.commandedPos, hcommands.commandedRot, hcommands.unit, hcommands.lastPose⟩,
      rfl⟩
  · rw [hnone] at hgrip
    cases hgrip
  · rw [hnone] at hgrip
    cases hgrip
  · rw [hnone] at hgrip
    cases hgrip

omit hsqrt in
theorem prod_filter_turn (l : List (List (Position K × Quat K))) :
    ((l.filter (· ≠ [])).map clutch.turn).reverse.prod = (l.map clutch.turn).reverse.prod := by
  induction l with
  | nil => rfl
  | cons poses l ih =>
    cases poses with
    | nil => simpa [turn] using ih
    | cons pose poses =>
      rw [List.filter_cons_of_pos (by simp), List.map_cons, List.map_cons, List.reverse_cons,
        List.reverse_cons, List.prod_append, List.prod_append, ih]

/-- **All frames**, from a state that owes a latch. -/
theorem engagements_run (frames : List (Frame K)) (hframes : ∀ frame ∈ frames, frame.Plain)
    {s : ClutchState K} {pos : Position K} {rot : Quaternion K} (hcommands : Commands s pos rot)
    (howed : s.origin = none) :
    Commands (clutch.computeAll s frames)
      (pos + clutch.positionScale • ((clutch.engagements frames).map displacement).sum)
      (((clutch.engagements frames).map clutch.turn).reverse.prod * rot) := by
  induction hn : frames.length using Nat.strong_induction_on generalizing frames s pos rot with
  | _ n ih =>
  rw [engagements, sum_filter_displacement, prod_filter_turn]
  cases hfind : frames.find? fun frame => (clutch.grip frame).isNone with
  | none =>
    have husable : ∀ frame ∈ frames, (clutch.grip frame).isNone = false := by
      intro frame hframe
      rw [← Bool.not_eq_true]
      exact List.find?_eq_none.mp hfind frame hframe
    rw [List.splitOnP_eq_singleton husable]
    simpa using usable_run hsqrt hframes husable hcommands howed
  | some sep =>
    -- The frames before the first one that ends an engagement, that one, and the rest.
    obtain ⟨hsep, chunk, rest, rfl, hchunk⟩ := List.find?_eq_some_iff_append.mp hfind
    have husable : ∀ frame ∈ chunk, (clutch.grip frame).isNone = false := by
      intro frame hframe
      simpa using hchunk frame hframe
    obtain ⟨hchunkPlain, hrest⟩ := List.forall_mem_append.mp hframes
    obtain ⟨hsepPlain, hrestPlain⟩ := List.forall_mem_cons.mp hrest
    have hfirst := usable_run hsqrt hchunkPlain husable hcommands howed
    obtain ⟨hheld, howed'⟩ := unusable_step hfirst hsepPlain (Option.isNone_iff_eq_none.mp hsep)
    have hall := ih rest.length (by simp [← hn]; omega) rest hrestPlain hheld howed' rfl
    have hrun : clutch.computeAll s (chunk ++ sep :: rest) =
        clutch.computeAll (clutch.computeFn (clutch.computeAll s chunk) sep).1 rest := by
      rw [computeAll, List.foldl_append]
      rfl
    rw [engagements, sum_filter_displacement, prod_filter_turn] at hall
    rw [hrun, List.splitOnP_append_cons_of_forall_mem husable sep hsep, List.map_cons,
      List.map_cons, List.map_cons, List.sum_cons, List.reverse_cons, List.prod_append,
      List.prod_singleton, smul_add, ← add_assoc, mul_assoc]
    exact hall

theorem start_commands (home : Transform K) :
    Commands (clutch.start home) home.translation
      (matToQuatXyzw clutch.sqrt home.rotation).toQuaternion :=
  ⟨rfl, rfl, hsqrt.matToQuatXyzw_unit _, rfl⟩

/-- **One frame** emits what is commanded, and commands nothing new when a latch is owed (also if
it latches), or when the clutch cannot be engaged. -/
theorem compute_emits {s : ClutchState K} {pos : Position K} {rot : Quaternion K}
    (hcommands : Commands s pos rot) {frame : Frame K} (hframe : frame.Plain) :
    (clutch.computeFn s frame).2 = ((clutch.computeFn s frame).1.lastCommandedPos,
        (clutch.computeFn s frame).1.lastCommandedRot) ∧
      (s.origin = none ∨ clutch.grip frame = none →
        (clutch.computeFn s frame).1.lastCommandedPos = s.lastCommandedPos ∧
        (clutch.computeFn s frame).1.lastCommandedRot = s.lastCommandedRot) := by
  rcases clutch.compute_cases s frame with ⟨-, heq⟩ | ⟨pose, origin, hgrip, horigin, heq⟩ |
    ⟨pose, hgrip, -, -, heq⟩ | ⟨pose, hgrip, -, -, heq⟩
  · rw [begun_plain s hframe] at heq
    rw [heq]
    exact ⟨hcommands.lastPose, fun _ => ⟨rfl, rfl⟩⟩
  · rw [begun_plain s hframe] at heq horigin
    rw [heq]
    refine ⟨rfl, fun hnone => ?_⟩
    rcases hnone with hnone | hnone
    · rw [horigin] at hnone
      cases hnone
    · rw [hgrip] at hnone
      cases hnone
  · -- The latch is at the commanded pose, and the controller has not moved since.
    rw [begun_plain s hframe] at heq
    have hpos := grip_norm_pos hgrip
    have hlatch := (Latched.track hsqrt (Commands.latch hsqrt hcommands hframe hpos) hpos).2
    rw [sub_self, smul_zero, add_zero, orientation_mul_inv hsqrt hpos, one_mul] at hlatch
    rw [heq]
    refine ⟨rfl, fun _ => ⟨hlatch.commandedPos.trans hcommands.commandedPos.symm, ?_⟩⟩
    exact toQuaternion_injective (hlatch.commandedRot.trans hcommands.commandedRot.symm)
  · rw [begun_plain s hframe] at heq
    rw [heq]
    exact ⟨hcommands.lastPose, fun _ => ⟨rfl, rfl⟩⟩

variable (clutch) in
/-- **The composition law.**  After any frames without a reset or a measured pose, the commanded
position is the home moved by the scaled motions of all engagements, and the commanded orientation
is the home turned by the rotations of all engagements, the latest on the left.  A frame emits what
is commanded, and that is what was commanded before when a latch is owed or the clutch cannot be
engaged.  Frames with the same engagements command the same. -/
theorem clutch_law (home : Transform K) (frames : List (Frame K))
    (hframes : ∀ frame ∈ frames, frame.Plain) :
    ((clutch.computeAll (clutch.start home) frames).lastCommandedPos = Position.ofFinite
        (home.translation +
          clutch.positionScale • ((clutch.engagements frames).map displacement).sum) ∧
      (clutch.computeAll (clutch.start home) frames).lastCommandedRot.toQuaternion =
        ((clutch.engagements frames).map clutch.turn).reverse.prod *
          (matToQuatXyzw clutch.sqrt home.rotation).toQuaternion) ∧
    (∀ frame : Frame K, frame.Plain →
      ∀ s, clutch.computeAll (clutch.start home) frames = s →
        (clutch.computeFn s frame).2 = ((clutch.computeFn s frame).1.lastCommandedPos,
          (clutch.computeFn s frame).1.lastCommandedRot) ∧
        (s.origin = none ∨ clutch.grip frame = none →
          (clutch.computeFn s frame).1.lastCommandedPos = s.lastCommandedPos ∧
          (clutch.computeFn s frame).1.lastCommandedRot = s.lastCommandedRot)) ∧
    ∀ frames' : List (Frame K), (∀ frame ∈ frames', frame.Plain) →
      clutch.engagements frames' = clutch.engagements frames →
      (clutch.computeAll (clutch.start home) frames').lastCommandedPos =
          (clutch.computeAll (clutch.start home) frames).lastCommandedPos ∧
        (clutch.computeAll (clutch.start home) frames').lastCommandedRot =
          (clutch.computeAll (clutch.start home) frames).lastCommandedRot := by
  have hstart := start_commands hsqrt home
  have hlaw := engagements_run hsqrt frames hframes hstart rfl
  refine ⟨⟨hlaw.commandedPos, hlaw.commandedRot⟩, ?_, ?_⟩
  · rintro frame hframe s rfl
    exact compute_emits hsqrt hlaw hframe
  · -- The law names the engagements only, so the same engagements command the same pose.
    intro frames' hframes' hsame
    have hlaw' := engagements_run hsqrt frames' hframes' hstart rfl
    rw [hsame] at hlaw'
    refine ⟨hlaw'.commandedPos.trans hlaw.commandedPos.symm, ?_⟩
    exact toQuaternion_injective (hlaw'.commandedRot.trans hlaw.commandedRot.symm)

end SO101ClutchRetargeter

theorem exact_sqrt : Exact Real.sqrt := ⟨Real.sqrt_nonneg, fun _ hx => Real.mul_self_sqrt hx⟩

/-- A clutch with the default configuration. -/
def defaultClutch {K : Type} [Field K] [LinearOrder K] [IsStrictOrderedRing K] (sqrt : K → K) :
    SO101ClutchRetargeter K where
  sqrt := sqrt
  positionScale_pos := one_pos
  squeezeThreshold_nonneg := by positivity
  squeezeThreshold_lt := by linarith [half_lt_self (one_pos : (0 : K) < 1)]

/-- A frame of a controller at a distance along one axis. -/
def reachFrame {K : Type} [Field K] (x : K) (squeeze : K) (permitted : Option Bool) : Frame K where
  input := some
    { grip := ⟨true, ![.finite x, .finite 0, .finite 0],
        ⟨.finite 0, .finite 0, .finite 0, .finite 1⟩⟩
      aim := ⟨false, fun _ => .nan, ⟨.nan, .nan, .nan, .nan⟩⟩
      squeeze := .finite squeeze }
  permitted := permitted

/-- Two reaches, with the hand brought back in between. -/
noncomputable def twoReaches : List (Frame ℝ) :=
  [reachFrame 0 1 none, reachFrame (1 / 5) 1 none, reachFrame (1 / 5) 0 none,
    reachFrame (-1) 1 (some false), reachFrame (-1) 1 none, reachFrame (-9 / 10) 1 none]

def identityHome {K : Type} [Field K] : Transform K := fun i j => if i = j then 1 else 0

theorem two_reaches_commanded :
    (∀ frame ∈ twoReaches, frame.Plain) ∧
    ((defaultClutch Real.sqrt).computeAll ((defaultClutch Real.sqrt).start identityHome)
        twoReaches).lastCommandedPos = Position.ofFinite (Transform.translation identityHome +
      (defaultClutch Real.sqrt).positionScale •
        (((defaultClutch Real.sqrt).engagements twoReaches).map displacement).sum) := by
  have hplain : ∀ frame ∈ twoReaches, frame.Plain := by
    simp [twoReaches, reachFrame, Frame.Plain]
  exact ⟨hplain, (SO101ClutchRetargeter.clutch_law (defaultClutch Real.sqrt) exact_sqrt
    identityHome twoReaches hplain).1.1⟩

/-- The square root of a rational with square numerator and denominator. -/
def ratSqrt (x : ℚ) : ℚ := Nat.sqrt x.num.toNat / Nat.sqrt x.den

/-- A permission that is revoked while the clutch is engaged does not hold the pose. -/
theorem revoked_permission_moves :
    (reachFrame (1 / 5 : ℚ) 1 (some false)).Plain ∧
    (reachFrame (1 / 5 : ℚ) 1 (some false)).engagePermitted = false ∧
    ((defaultClutch ratSqrt).computeAll ((defaultClutch ratSqrt).start identityHome)
      [reachFrame 0 1 none, reachFrame (1 / 5) 1 (some false)]).lastCommandedPos ≠
    ((defaultClutch ratSqrt).computeAll ((defaultClutch ratSqrt).start identityHome)
      [reachFrame 0 1 none]).lastCommandedPos := by
  refine ⟨⟨rfl, rfl⟩, rfl, ?_⟩
  decide +kernel

/-! ### Finite commands -/

/-- A call of the retargeter. -/
inductive Call (K : Type)
  | compute (frame : Frame K)
  | setHome (raw : Transform (Number K))

namespace SO101ClutchRetargeter

variable {K : Type} [Field K] [LinearOrder K] (clutch : SO101ClutchRetargeter K)

/-- The state after a call; a home that does not pass its checks raises and changes nothing. -/
def apply (s : ClutchState K) : Call K → ClutchState K
  | .compute frame => (clutch.computeFn s frame).1
  | .setHome raw =>
    match s.setHomeBaseTEe clutch.sqrt raw with
    | .ok s' => s'
    | .error _ => s

def runCalls (s : ClutchState K) (calls : List (Call K)) : ClutchState K :=
  calls.foldl clutch.apply s

/-- What a call leaves: the stored pose and the emitted one are finite. -/
def FiniteAfter (s : ClutchState K) (call : Call K) : Prop :=
  (clutch.apply s call).lastCommandedPos.Finite ∧
    ∀ frame, call = .compute frame → (clutch.computeFn s frame).2.1.Finite

/-- A frame that latches. -/
def Latches (s : ClutchState K) (frame : Frame K) : Prop :=
  (clutch.begun s frame).origin = none ∧ (clutch.grip frame).isSome = true ∧
    frame.engagePermitted = true

/-- If the call latches, it reads no measured pose or a finite one. -/
def MeasuredFinite (s : ClutchState K) (call : Call K) : Prop :=
  ∀ frame, call = .compute frame → clutch.Latches s frame →
    ∀ baseTEe ∈ frame.measured, baseTEe.translation.Finite

/-- What holds after finite commands. -/
structure FiniteInv (s : ClutchState K) : Prop where
  commanded : s.lastCommandedPos.Finite
  lastPose : s.lastPose.1.Finite
  home : s.origin ≠ none → s.homePos.Finite

variable {clutch}

theorem FiniteInv.seed (s : ClutchState K) (home : Transform K) :
    FiniteInv (s.seed clutch.sqrt home) :=
  ⟨Position.ofFinite_finite _, Position.ofFinite_finite _, fun h => absurd rfl h⟩

theorem FiniteInv.begun {s : ClutchState K} (h : FiniteInv s) (frame : Frame K) :
    FiniteInv (clutch.begun s frame) := by
  unfold SO101ClutchRetargeter.begun
  split
  · exact FiniteInv.seed _ _
  · exact h

/-- A pose relative to a home is finite iff the home is. -/
theorem track_finite (s : ClutchState K) (origin gripPos : Position K) (gripRot : Quat K) :
    Position.Finite (clutch.track s origin gripPos gripRot).2.1 ↔ s.homePos.Finite := by
  simp [track, Position.Finite]

theorem FiniteInv.track {s : ClutchState K} (h : s.homePos.Finite) (origin gripPos : Position K)
    (gripRot : Quat K) : FiniteInv (clutch.track s origin gripPos gripRot).1 :=
  ⟨(track_finite s origin gripPos gripRot).mpr h, (track_finite s origin gripPos gripRot).mpr h,
    fun _ => h⟩

/-- **One call** keeps what is commanded finite, unless it latches at a measured pose that is
not. -/
theorem FiniteInv.step {s : ClutchState K} (h : FiniteInv s) {call : Call K}
    (hcall : clutch.MeasuredFinite s call) :
    FiniteInv (clutch.apply s call) ∧ clutch.FiniteAfter s call := by
  cases call with
  | setHome raw =>
    have hinv : FiniteInv (clutch.apply s (.setHome raw)) := by
      show FiniteInv (match s.setHomeBaseTEe clutch.sqrt raw with
        | .ok s' => s'
        | .error _ => s)
      rw [ClutchState.setHomeBaseTEe]
      cases checkHome raw with
      | error e => exact h
      | ok home => exact FiniteInv.seed _ _
    exact ⟨hinv, hinv.commanded, fun _ heq => by cases heq⟩
  | compute frame =>
    have hbegun : FiniteInv (clutch.begun s frame) := FiniteInv.begun h frame
    suffices hinv : FiniteInv (clutch.computeFn s frame).1 ∧
        Position.Finite (clutch.computeFn s frame).2.1 from
      ⟨hinv.1, hinv.1.commanded, fun _ heq => by cases heq; exact hinv.2⟩
    -- No grip, an engaged one, a new one that is permitted, and one that is not.
    rcases clutch.compute_cases s frame with ⟨-, heq⟩ | ⟨pose, origin, -, horigin, heq⟩ |
      ⟨pose, hgrip, horigin, hpermitted, heq⟩ | ⟨pose, -, -, -, heq⟩
    · rw [heq]
      exact ⟨⟨hbegun.commanded, hbegun.lastPose, fun hne => absurd rfl hne⟩, hbegun.lastPose⟩
    · have hhome := hbegun.home (by simp [horigin])
      rw [heq]
      exact ⟨FiniteInv.track hhome _ _ _, (track_finite _ _ _ _).mpr hhome⟩
    · -- The home is the commanded pose, or the measured one, which is finite when it is latched.
      have hhome : (clutch.latch (clutch.begun s frame) frame pose.1 pose.2).homePos.Finite := by
        have hmeasured := hcall frame rfl ⟨horigin, by rw [hgrip]; rfl, hpermitted⟩
        rw [latch]
        cases hm : frame.measured with
        | none => exact hbegun.commanded
        | some baseTEe => exact hmeasured baseTEe hm
      rw [heq]
      exact ⟨FiniteInv.track hhome _ _ _, (track_finite _ _ _ _).mpr hhome⟩
    · rw [heq]
      exact ⟨hbegun, hbegun.lastPose⟩

/-- A measured pose that is latched is commanded. -/
theorem measuredFinite_of_finiteAfter {s : ClutchState K} {call : Call K}
    (h : clutch.FiniteAfter s call) : clutch.MeasuredFinite s call := by
  rintro frame rfl ⟨horigin, hsome, hpermitted⟩ baseTEe hmeasured
  have hemitted := h.2 frame rfl
  rcases clutch.compute_cases s frame with ⟨hnone, -⟩ | ⟨_, _, -, horigin', -⟩ |
    ⟨pose, -, -, -, heq⟩ | ⟨_, -, -, hpermitted', -⟩
  · rw [hnone] at hsome
    cases hsome
  · rw [horigin] at horigin'
    cases horigin'
  · rw [heq, track_finite, latch, hmeasured] at hemitted
    exact hemitted
  · rw [hpermitted] at hpermitted'
    cases hpermitted'

/-- **Finite commands.**  In any run, whatever is not finite in its inputs, every emitted and stored
pose is finite iff every frame that latches reads no measured pose or a finite one. -/
theorem finite_run_iff (home : Transform K) (calls : List (Call K)) :
    (∀ before call after, calls = before ++ call :: after →
        clutch.FiniteAfter (clutch.runCalls (clutch.start home) before) call) ↔
      ∀ before call after, calls = before ++ call :: after →
        clutch.MeasuredFinite (clutch.runCalls (clutch.start home) before) call := by
  constructor
  · intro h before call after hsplit
    exact measuredFinite_of_finiteAfter (h before call after hsplit)
  · intro h before call after hsplit
    -- The invariant holds before each call.
    have hinv : ∀ earlier, earlier <+: before →
        FiniteInv (clutch.runCalls (clutch.start home) earlier) := by
      intro earlier
      induction earlier using List.reverseRecOn with
      | nil => exact fun _ => FiniteInv.seed _ _
      | append_singleton earlier call' ih =>
        rintro ⟨rest, hrest⟩
        have hcall := h earlier call' (rest ++ call :: after) (by simp [hsplit, ← hrest])
        have hprefix : earlier <+: before := ⟨call' :: rest, by simp [← hrest]⟩
        rw [runCalls, List.foldl_append]
        exact (FiniteInv.step (ih hprefix) hcall).1
    exact (FiniteInv.step (hinv before (List.prefix_refl _)) (h before call after hsplit)).2

end SO101ClutchRetargeter

/-- A measured transform with a NaN in its translation. -/
def lostMeasurement : Transform (Number ℚ) := fun i j =>
  if i = 0 ∧ j = 3 then .nan else .finite (if i = j then 1 else 0)

/-- A latch at such a transform commands it, and later frames emit it. -/
theorem lost_measurement_commanded :
    (((defaultClutch ratSqrt).computeFn ((defaultClutch ratSqrt).start identityHome)
      { reachFrame 0 1 none with measured := some lostMeasurement }).2.1 0).isFinite = false ∧
    (((defaultClutch ratSqrt).computeFn
      ((defaultClutch ratSqrt).computeFn ((defaultClutch ratSqrt).start identityHome)
        { reachFrame 0 1 none with measured := some lostMeasurement }).1
      (reachFrame 0 0 none)).2.1 0).isFinite = false := by
  decide +kernel

end Clutch
