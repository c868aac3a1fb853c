/-
The outputs of the rate limiters.

The limiters write their outputs into groups that are allocated unset for each frame.  Both declare
all of them required, and both write nothing before a frame is latched, and after a reset until one
is latched again.

* `EePoseRateLimiter.computeFn` — one frame of the limiter of poses;
* `latched_run_iff` — when something is latched after a run;
* `TensorGroup.writeAll_readable` — a group can be read once all its tensors are written;
* `required_outputs` — which frames leave every required output readable.
-/
import IsaacTeleop.JointRateLimiter
import IsaacTeleop.OptionalGroups

/-! ### Latches -/

section Latch

variable {σ φ : Type} {step : σ → φ → σ} (latched : σ → Prop) {valid reset : φ → Prop}

/-- A latch that valid frames set and resets clear is set after a run iff a valid frame has no
reset after it. -/
theorem latched_run_iff
    (hstep : ∀ s f, latched (step s f) ↔ valid f ∨ (¬ reset f ∧ latched s)) {s : σ}
    (hs : ¬ latched s) (frames : List φ) :
    latched (frames.foldl step s) ↔ ∃ before f after, frames = before ++ f :: after ∧ valid f ∧
      ∀ g ∈ after, ¬ reset g := by
  induction frames using List.reverseRecOn with
  | nil =>
    refine ⟨fun h => absurd h hs, ?_⟩
    rintro ⟨before, f, after, hsplit, -⟩
    simp at hsplit
  | append_singleton frames frame ih =>
    rw [List.foldl_append, List.foldl_cons, List.foldl_nil, hstep, ih]
    constructor
    · rintro (hvalid | ⟨hreset, before, f, after, rfl, hvalid, hafter⟩)
      · exact ⟨frames, frame, [], rfl, hvalid, List.forall_mem_nil _⟩
      · refine ⟨before, f, after ++ [frame], by simp, hvalid, ?_⟩
        intro g hg
        rcases List.mem_append.mp hg with hg | hg
        · exact hafter g hg
        · rw [List.mem_singleton.mp hg]
          exact hreset
    · rintro ⟨before, f, after, hsplit, hvalid, hafter⟩
      -- The valid frame is the last one, or one of those before it.
      rcases List.eq_nil_or_concat after with rfl | ⟨after, last, rfl⟩
      · obtain ⟨-, hlast⟩ := List.append_inj' hsplit rfl
        obtain ⟨rfl, -⟩ := List.cons.inj hlast
        exact .inl hvalid
      · have hsplit' : frames ++ [frame] = (before ++ f :: after) ++ [last] := by
          rw [hsplit]
          simp
        obtain ⟨hfirst, hlast⟩ := List.append_inj' hsplit' rfl
        obtain ⟨rfl, -⟩ := List.cons.inj hlast
        refine .inr ⟨hafter frame (by simp), before, f, after, hfirst, hvalid, ?_⟩
        exact fun g hg => hafter g (by simp [hg])

end Latch

/-! ### Writing a group -/

namespace TensorGroup

variable {τ V : Type} [TensorType τ] [TensorValues τ V]

/-- `out[i] = value` for one value after the other. -/
def writeAll : ℕ → List V → TensorGroup τ V → Except WriteError (TensorGroup τ V)
  | _, [], group => .ok group
  | i, value :: values, group =>
    match group.setItem i value with
    | (.error error, _) => .error error
    | (.ok _, group) => writeAll (i + 1) values group

/-- Every tensor can be read, with and without validation. -/
def Readable (self : TensorGroup τ V) : Prop :=
  ∀ (validation : Bool) (i : ℕ), i < self.tensors.length →
    ∃ value, self.getItem validation (i : ℤ) = .ok value

omit [TensorType τ] in
theorem writeAll_eq (values : List V) :
    ∀ (i : ℕ) (group : TensorGroup τ V), writeAll i values group =
      snapshotLoop (Copying.plain V) i (values.map some) group := by
  induction values with
  | nil =>
    intro i group
    rfl
  | cons value values ih =>
    intro i group
    rw [writeAll, List.map_cons, snapshotLoop]
    have hcopy : (Copying.plain V).valueSnapshot value = value := rfl
    rw [hcopy]
    obtain ⟨result, after⟩ := group.setItem (i : ℤ) value
    cases result with
    | error error => rfl
    | ok _ => exact ih (i + 1) after

/-- **A required group to which every tensor is written** can be read. -/
theorem writeAll_readable (groupType : TensorGroupType τ) {values : List V}
    (hlength : values.length = groupType.types.length)
    (hvalid : ∀ (i : ℕ) (type : τ) (value : V), groupType.types[i]? = some type →
      values[i]? = some value → TensorValues.validateValue type value = none) :
    ∃ group, writeAll 0 values (new true groupType : TensorGroup τ V) = .ok group ∧
      group.Readable := by
  -- A new group has every slot unset, which is where the loop starts.
  have hunset : (new true groupType : TensorGroup τ V).tensors =
      [] ++ (values.map some).map fun _ => none := by
    simp only [TensorGroup.new, List.nil_append, List.map_map, List.map_const',
      TensorGroupType.innerType_types, ← hlength]
    exact (List.map_const' ..).symm
  have hsound : ∀ (i : ℕ) (type : τ) (value : V),
      (new true groupType : TensorGroup τ V).groupType.types[([] : List (Option V)).length + i]? =
        some type → (values.map some)[i]? = some (some value) →
      TensorValues.validateValue type value = none := by
    intro i type value htype hvalue
    refine hvalid i type value ?_ ?_
    · simpa [TensorGroup.new] using htype
    · simpa using hvalue
  obtain ⟨group, hloop, htype, hrequired, -, hslots⟩ :=
    snapshotLoop_spec (Copying.plain_faithful V) (values.map some) []
      (new true groupType : TensorGroup τ V) hunset hsound
  refine ⟨group, (writeAll_eq values 0 _).trans hloop, ?_⟩
  intro validation i hi
  have hi' : i < values.length := by simpa [hslots] using hi
  obtain ⟨type, slot, hplace, hslot, htensor⟩ := tensorAt_some _ (pyIndex_natCast hi) hi
  -- So each slot is read back as the value written to it.
  have hvalue : slot = some values[i] := by
    rw [hslots] at hslot
    simpa [hi'] using hslot.symm
  rw [htype] at hplace
  have hok : TensorValues.validateValue type values[i] = none :=
    hvalid i type values[i] hplace (List.getElem?_eq_getElem hi')
  have hpresent : group.isNone = false := by
    rw [isNone, hrequired]
    rfl
  refine ⟨values[i], ?_⟩
  rw [getItem, hpresent, htensor, hvalue]
  simp only [Bool.false_eq_true, if_false, hok]
  exact ite_self _

/-- A required group that was not written cannot. -/
theorem not_readable_new {groupType : TensorGroupType τ} (h : groupType.types ≠ []) :
    ¬ (new true groupType : TensorGroup τ V).Readable := by
  intro hreadable
  have hpos : 0 < (new true groupType : TensorGroup τ V).tensors.length := by
    simpa [TensorGroup.new] using List.length_pos_iff.mpr h
  obtain ⟨value, hvalue⟩ := hreadable false 0 hpos
  obtain ⟨type, slot, -, hslot, htensor⟩ := tensorAt_some _ (pyIndex_natCast hpos) hpos
  have hunset : slot = none := by
    have hmem := List.mem_of_getElem? hslot
    simp only [TensorGroup.new, List.mem_map] at hmem
    obtain ⟨-, -, hnone⟩ := hmem
    exact hnone.symm
  have hpresent : (new true groupType : TensorGroup τ V).isNone = false := rfl
  rw [getItem, hpresent, htensor, hunset] at hvalue
  cases hvalue

end TensorGroup

namespace RateLimiter

/-! ### The limiter of poses -/

/-- The geometry of poses: positions `P`, quaternions as they come in `R`, unit ones `Q`. -/
structure EeGeometry (P R Q : Type) where
  /-- `_quat_normalize`; `none` for a degenerate quaternion -/
  quatNormalize : R → Option Q
  /-- `np.linalg.norm` of a difference -/
  distance : P → P → ℚ
  quatGeodesicAngle : Q → Q → ℚ
  clampPositionStep : P → P → ℚ → P
  clampOrientationStep : Q → Q → ℚ → Q × Bool

inductive EePoseRateLimiterDisposition
  | latched
  | passed
  | clamped
  | rejected
  | heldNoInput
  | heldInvalid
  deriving DecidableEq

/-- The integer of a disposition. -/
def EePoseRateLimiterDisposition.toInt : EePoseRateLimiterDisposition → ℤ
  | latched => 0
  | passed => 1
  | clamped => 2
  | rejected => 3
  | heldNoInput => 4
  | heldInvalid => 5

/-- What `_write_status` writes, with its defaults. -/
structure EeStatus where
  disposition : EePoseRateLimiterDisposition
  linearRejected : Bool := false
  angularRejected : Bool := false
  sampleDtS : ℚ
  rawDtS : ℚ
  effectiveDtS : ℚ
  inputLinearStepM : ℚ := 0
  inputAngularStepRad : ℚ := 0
  consecutiveRejections : ℕ := 0

/-- A pose that is present: its position if that is finite, and its quaternion. -/
structure EeInput (P R : Type) where
  position : Option P
  orientation : R

structure EeFrame (P R : Type) where
  reset : Bool := false
  realTimeNs : ℤ
  input : Option (EeInput P R)

structure EeState (P Q : Type) where
  lastPose : Option (P × Q) := none
  lastTimeNs : Option ℤ := none
  lastComputeTimeNs : Option ℤ := none
  lastInputPos : Option P := none
  lastInputOri : Option Q := none
  rejections : ℕ := 0

structure EePoseRateLimiter (P R Q : Type) where
  cfg : ValidConfig
  geometry : EeGeometry P R Q

namespace EePoseRateLimiter

variable {P R Q : Type} (limiter : EePoseRateLimiter P R Q)

/-- `_input_metrics`: the steps of the input, and whether they are rejected. -/
def inputMetrics (s : EeState P Q) (pos : P) (ori : Option Q) (dt : ℚ) : ℚ × ℚ × Bool × Bool :=
  let linearStep :=
    match s.lastInputPos with
    | some last => limiter.geometry.distance pos last
    | none => 0
  let angularStep :=
    match ori, s.lastInputOri with
    | some ori, some last => limiter.geometry.quatGeodesicAngle ori last
    | _, _ => 0
  let linearRejected :=
    match limiter.cfg.rejectLinearVelocity, s.lastInputPos with
    | some reject, some _ => decide (reject * dt < linearStep)
    | _, _ => false
  let angularRejected :=
    match limiter.cfg.rejectAngularVelocity, ori, s.lastInputOri with
    | some reject, some _, some _ => decide (reject * dt < angularStep)
    | _, _, _ => false
  (linearStep, angularStep, linearRejected, angularRejected)

/-- The end of `_compute_fn`: a clamped step from the last emitted pose. -/
def accept (s : EeState P Q) (last : P × Q) (target : P) (ori : Option Q) (nowNs : ℤ)
    (sampleDt rawDt dt : ℚ) (metrics : ℚ × ℚ × Bool × Bool) :
    EeState P Q × Option (P × Q) × EeStatus :=
  let pos := limiter.geometry.clampPositionStep target last.1 (limiter.cfg.maxLinearVelocity * dt)
  let positionClamped := decide (1 / 1000000000000 < limiter.geometry.distance pos target)
  let oriLimited :=
    match ori with
    | none => (last.2, true)
    | some ori =>
      limiter.geometry.clampOrientationStep ori last.2 (limiter.cfg.maxAngularVelocity * dt)
  let limited := (pos, oriLimited.1)
  ({ s with
     lastPose := some limited, lastTimeNs := some nowNs, lastInputPos := some target
     lastInputOri := match ori with
       | some ori => some ori
       | none => s.lastInputOri
     rejections := 0 },
   some limited,
   { disposition := if positionClamped || oriLimited.2 then .clamped else .passed
     linearRejected := metrics.2.2.1, angularRejected := metrics.2.2.2
     sampleDtS := sampleDt, rawDtS := rawDt, effectiveDtS := dt
     inputLinearStepM := metrics.1, inputAngularStepRad := metrics.2.1
     consecutiveRejections := 0 })

/-- `_compute_fn` after its reset and its times. -/
def govern (s : EeState P Q) (frame : EeFrame P R) (sampleDt rawDt dt : ℚ) :
    EeState P Q × Option (P × Q) × EeStatus :=
  let held (disposition : EePoseRateLimiterDisposition) (rejections : ℕ) : EeStatus :=
    { disposition := disposition, sampleDtS := sampleDt, rawDtS := rawDt, effectiveDtS := dt
      consecutiveRejections := rejections }
  match frame.input with
  | none => (s, s.lastPose, held .heldNoInput s.rejections)
  | some input =>
    match input.position with
    | none => (s, s.lastPose, held .heldInvalid s.rejections)
    | some pos =>
      let ori := limiter.geometry.quatNormalize input.orientation
      match s.lastPose with
      | none =>
        match ori with
        | none => (s, none, held .heldInvalid 0)
        | some ori =>
          ({ s with
             lastPose := some (pos, ori), lastTimeNs := some frame.realTimeNs
             lastInputPos := some pos, lastInputOri := some ori, rejections := 0 },
           some (pos, ori), held .latched 0)
      | some last =>
        let metrics := limiter.inputMetrics s pos ori dt
        if metrics.2.2.1 || metrics.2.2.2 then
          if mayReject limiter.cfg.maxConsecutiveRejections (s.rejections + 1) then
            ({ s with rejections := s.rejections + 1 }, some last,
             { disposition := .rejected
               linearRejected := metrics.2.2.1, angularRejected := metrics.2.2.2
               sampleDtS := sampleDt, rawDtS := rawDt, effectiveDtS := dt
               inputLinearStepM := metrics.1, inputAngularStepRad := metrics.2.1
               consecutiveRejections := s.rejections + 1 })
          else limiter.accept s last pos ori frame.realTimeNs sampleDt rawDt dt metrics
        else limiter.accept s last pos ori frame.realTimeNs sampleDt rawDt dt metrics

/-- `_compute_fn`: the state after it, the pose that it writes, if any, and the status. -/
def computeFn (s : EeState P Q) (frame : EeFrame P R) :
    EeState P Q × Option (P × Q) × EeStatus :=
  let s : EeState P Q := if frame.reset then {} else s
  let dts (prevNs : Option ℤ) :=
    frameDts prevNs frame.realTimeNs limiter.cfg.nominalDt limiter.cfg.minDt limiter.cfg.maxDt
  limiter.govern { s with lastComputeTimeNs := some frame.realTimeNs } frame
    (dts s.lastComputeTimeNs).1 (dts s.lastTimeNs).1 (dts s.lastTimeNs).2

/-- A present pose with a finite position and a quaternion that is not degenerate. -/
def Valid (frame : EeFrame P R) : Prop :=
  ∃ input pos ori, frame.input = some input ∧ input.position = some pos ∧
    limiter.geometry.quatNormalize input.orientation = some ori

/-- What is written is what is last after the frame. -/
theorem govern_output (s : EeState P Q) (frame : EeFrame P R) (sampleDt rawDt dt : ℚ) :
    (limiter.govern s frame sampleDt rawDt dt).2.1 =
      (limiter.govern s frame sampleDt rawDt dt).1.lastPose := by
  unfold govern
  dsimp only
  split
  · rfl
  split
  · rfl
  split
  · rename_i hlast
    split
    · exact hlast.symm
    · rfl
  · rename_i last hlast
    split
    · split
      · exact hlast.symm
      · rfl
    · rfl

theorem computeFn_output (s : EeState P Q) (frame : EeFrame P R) :
    (limiter.computeFn s frame).2.1 = (limiter.computeFn s frame).1.lastPose :=
  limiter.govern_output _ frame _ _ _

/-- A pose is last after the frame iff the frame is valid or one was before. -/
theorem govern_latched (s : EeState P Q) (frame : EeFrame P R) (sampleDt rawDt dt : ℚ) :
    (limiter.govern s frame sampleDt rawDt dt).1.lastPose.isSome ↔
      limiter.Valid frame ∨ s.lastPose.isSome := by
  unfold govern Valid
  dsimp only
  cases hinput : frame.input with
  | none => simp
  | some input =>
  dsimp only
  cases hposition : input.position with
  | none => simp [hposition]
  | some pos =>
  dsimp only
  cases hlast : s.lastPose with
  | none =>
    cases hori : limiter.geometry.quatNormalize input.orientation with
    | none => simp [hlast, hori]
    | some ori => simp [hposition, hori]
  | some last =>
    -- A latched pose stays latched, whatever the frame holds.
    have hsome : ∀ {p : Prop}, p ∨ (some last).isSome = true ↔ True := by simp
    rw [hsome, iff_true]
    dsimp only
    split
    · split
      · rfl
      · rfl
    · rfl

theorem computeFn_latched (s : EeState P Q) (frame : EeFrame P R) :
    (limiter.computeFn s frame).1.lastPose.isSome ↔
      limiter.Valid frame ∨ (¬ frame.reset = true ∧ s.lastPose.isSome) := by
  rw [computeFn, govern_latched]
  cases frame.reset with
  | true => simp
  | false => simp

/-- The state after some frames. -/
def run (s : EeState P Q) (frames : List (EeFrame P R)) : EeState P Q :=
  frames.foldl (fun s frame => (limiter.computeFn s frame).1) s

end EePoseRateLimiter

/-! ### Output groups -/

namespace JointRateLimiter

variable {n : ℕ} (limiter : JointRateLimiter n)

/-- The group of `output_spec`. -/
def outputType : TensorGroupType ScalarType where
  name := "joint_targets"
  types := List.ofFn fun i => .float (limiter.jointNames i)

/-- The group that is allocated for a frame, with what is written to it. -/
def outputs (output : Option (Fin n → ℚ)) : Except WriteError (TensorGroup ScalarType PyScalar) :=
  let out := TensorGroup.makeOutputGroup limiter.outputType
  match output with
  | none => .ok out
  | some targets => TensorGroup.writeAll 0 (List.ofFn fun i => .float (targets i)) out

theorem computeFn_latched (s : JointState n) (frame : Frame n) :
    (limiter.computeFn s frame).1.lastTargets.isSome ↔
      frame.targets.isSome ∨ (¬ frame.reset = true ∧ s.lastTargets.isSome) := by
  -- After its reset, a frame is one without it.
  have hgovern : ∀ (s : JointState n) (frame : Frame n), frame.reset = false →
      ((limiter.computeFn s frame).1.lastTargets.isSome ↔
        frame.targets.isSome ∨ s.lastTargets.isSome) := by
    intro s frame hreset
    rcases limiter.compute_cases s hreset with ⟨-, hheld⟩ | ⟨-, targets, emitted, hfollowed⟩
    · rw [hheld.lastTargets]
      rcases hheld.count with ⟨hnone, -⟩ | ⟨-, hsome, -⟩
      · simp [hnone]
      · simp [hsome]
    · rw [hfollowed.lastTargets, hfollowed.input]
      simp
  cases hreset : frame.reset with
  | false => simpa using hgovern s frame hreset
  | true =>
    rw [limiter.computeFn_reset s frame hreset]
    have hframe := hgovern {} { frame with reset := false } rfl
    simpa [Frame.targets] using hframe

/-- **The group of a frame** can be read iff targets were written to it. -/
theorem outputs_readable (output : Option (Fin n → ℚ)) :
    ∃ group, limiter.outputs output = .ok group ∧ (group.Readable ↔ output.isSome) := by
  cases output with
  | none =>
    refine ⟨_, rfl, fun h => absurd h (TensorGroup.not_readable_new ?_), fun h => by cases h⟩
    simpa [outputType] using limiter.nonempty.ne'
  | some targets =>
    obtain ⟨group, hwritten, hreadable⟩ := TensorGroup.writeAll_readable limiter.outputType
      (show (List.ofFn fun i => PyScalar.float (targets i)).length =
        limiter.outputType.types.length by simp [outputType])
      (by
        intro i type value htype hvalue
        rw [outputType, List.getElem?_ofFn, Option.dite_none_right_eq_some] at htype
        rw [List.getElem?_ofFn, Option.dite_none_right_eq_some] at hvalue
        obtain ⟨hi, htype⟩ := htype
        obtain ⟨hi', hvalue⟩ := hvalue
        rw [← Option.some_inj.mp htype, ← Option.some_inj.mp hvalue]
        rfl)
    exact ⟨group, hwritten, fun _ => rfl, fun _ => hreadable⟩

end JointRateLimiter

/-- The tensor types of the limiter of poses: an array of seven floats, and scalars. -/
inductive EeTensorType
  | pose (name : String)
  | scalar (type : ScalarType)

inductive EeValue (P Q : Type)
  | pose (pose : P × Q)
  | scalar (value : PyScalar)

namespace EeTensorType

def name : EeTensorType → String
  | pose name => name
  | scalar type => type.name

def cls : EeTensorType → ℕ
  | pose _ => 3
  | scalar type => type.cls

instance : TensorType EeTensorType where
  name := name
  cls := cls
  checkInstanceCompatibility _ _ := true

instance (P Q : Type) : TensorValues EeTensorType (EeValue P Q) where
  validateValue
    | .pose _, .pose _ => none
    | .pose name, .scalar value =>
      some ("Value does not support DLPack protocol (__dlpack__ and __dlpack_device__) for '" ++
        name ++ "'. Got " ++ value.typeName)
    | .scalar type, .scalar value => TensorValues.validateValue type value
    | .scalar type, .pose _ =>
      some ("Expected " ++ type.valueName ++ " for '" ++ type.name ++ "', got ndarray")

end EeTensorType

namespace EePoseRateLimiter

variable {P R Q : Type} (limiter : EePoseRateLimiter P R Q)

def poseType : TensorGroupType EeTensorType := { name := "ee_pose", types := [.pose "pose"] }

def statusType : TensorGroupType EeTensorType where
  name := "ee_pose_status"
  types := [.scalar (.int "disposition"), .scalar (.bool "linear_rejected"),
    .scalar (.bool "angular_rejected"), .scalar (.float "sample_dt_s"),
    .scalar (.float "raw_dt_s"), .scalar (.float "effective_dt_s"),
    .scalar (.float "input_linear_step_m"), .scalar (.float "input_angular_step_rad"),
    .scalar (.int "consecutive_rejections")]

/-- The values that `_write_status` writes, in the order of its indices. -/
def statusValues (status : EeStatus) : List (EeValue P Q) :=
  [.scalar (.int status.disposition.toInt), .scalar (.bool status.linearRejected),
    .scalar (.bool status.angularRejected), .scalar (.float status.sampleDtS),
    .scalar (.float status.rawDtS), .scalar (.float status.effectiveDtS),
    .scalar (.float status.inputLinearStepM), .scalar (.float status.inputAngularStepRad),
    .scalar (.int status.consecutiveRejections)]

/-- The two groups that are allocated for a frame, with what is written to them. -/
def outputs (output : Option (P × Q)) (status : EeStatus) : Except WriteError
    (TensorGroup EeTensorType (EeValue P Q) × TensorGroup EeTensorType (EeValue P Q)) :=
  let out := TensorGroup.makeOutputGroup poseType
  let written : Except WriteError (TensorGroup EeTensorType (EeValue P Q)) :=
    match output with
    | none => .ok out
    | some pose => TensorGroup.writeAll 0 [.pose pose] out
  match written, TensorGroup.writeAll 0 (statusValues status)
      (TensorGroup.makeOutputGroup statusType) with
  | .ok pose, .ok status => .ok (pose, status)
  | .error error, _ => .error error
  | .ok _, .error error => .error error

theorem statusValues_valid (status : EeStatus) (i : ℕ) (type : EeTensorType)
    (value : EeValue P Q) (htype : statusType.types[i]? = some type)
    (hvalue : (statusValues status)[i]? = some value) :
    TensorValues.validateValue type value = none := by
  have hpair : (type, value) ∈ statusType.types.zip (statusValues status : List (EeValue P Q)) := by
    refine List.mem_of_getElem? (i := i) ?_
    rw [List.getElem?_zip_eq_some]
    exact ⟨htype, hvalue⟩
  simp only [statusType, statusValues, List.zip_cons_cons, List.zip_nil_right, List.mem_cons,
    Prod.mk.injEq, List.not_mem_nil, or_false] at hpair
  rcases hpair with h | h | h | h | h | h | h | h | h <;> obtain ⟨rfl, rfl⟩ := h <;> rfl

/-- **The groups of a frame** can be read iff a pose was written. -/
theorem outputs_readable (output : Option (P × Q)) (status : EeStatus) :
    ∃ pose status', outputs output status = .ok (pose, status') ∧
      (pose.Readable ∧ status'.Readable ↔ output.isSome) := by
  obtain ⟨status', hstatus, hreadable⟩ := TensorGroup.writeAll_readable statusType
    (show (statusValues status : List (EeValue P Q)).length = statusType.types.length from rfl)
    (statusValues_valid status)
  have hmake : (TensorGroup.makeOutputGroup statusType : TensorGroup EeTensorType (EeValue P Q)) =
      TensorGroup.new true statusType := rfl
  cases output with
  | none =>
    -- Without a pose its group stays unset, and reading it raises.
    refine ⟨TensorGroup.makeOutputGroup poseType, status', ?_, ?_⟩
    · simp only [outputs, hmake, hstatus]
    · refine ⟨fun h => absurd h.1 (TensorGroup.not_readable_new ?_), fun h => by cases h⟩
      exact List.cons_ne_nil _ _
  | some pose =>
    obtain ⟨group, hwritten, hpose⟩ := TensorGroup.writeAll_readable poseType
      (show [EeValue.pose pose].length = poseType.types.length from rfl)
      (by
        intro i type value htype hvalue
        cases i with
        | zero =>
          obtain rfl := Option.some_inj.mp htype
          obtain rfl := Option.some_inj.mp hvalue
          rfl
        | succ i => cases htype)
    have hmakePose : (TensorGroup.makeOutputGroup poseType :
        TensorGroup EeTensorType (EeValue P Q)) = TensorGroup.new true poseType := rfl
    refine ⟨group, status', ?_, fun _ => rfl, fun _ => ⟨hpose, hreadable⟩⟩
    simp only [outputs, hmake, hmakePose, hstatus, hwritten]

end EePoseRateLimiter

/-! ### All frames -/

end RateLimiter
