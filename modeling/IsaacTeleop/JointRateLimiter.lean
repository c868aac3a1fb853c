/-
The rate limiter of joint targets.

Every frame brings the targets of the joints, or none.  The first valid frame is latched; after it
the emitted targets move towards those of the frame, each joint by at most its limit times the time
since the last accepted frame.  A frame that moved too fast since the last accepted input is
rejected, at most so many times in a row.  Values and times are exact here.

* `RateLimiterConfig.checks`, `ValidConfig` — the validation of a configuration;
* `JointRateLimiter.computeFn` — one frame;
* `JointRateLimiter.compute_cases` — what a frame does;
* `JointRateLimiter.run_latched`, `JointRateLimiter.run_towards` — the bound on the motion, and the
  approach to a target that stays;
* `JointRateLimiter.joint_rate_limiting` — all runs without a reset.
-/
import IsaacTeleop.OrderedDict
import Mathlib

namespace RateLimiter

/-! ### Configuration -/

structure RateLimiterConfig where
  maxLinearVelocity : ℚ := 1 / 4
  maxAngularVelocity : ℚ := 3 / 2
  maxJointVelocity : ℚ := 3 / 2
  jointVelocityOverrides : OrderedDict String ℚ := ∅
  nominalDt : ℚ := 1 / 60
  maxDt : ℚ := 1 / 10
  minDt : ℚ := 1 / 10000
  rejectLinearVelocity : Option ℚ := none
  rejectAngularVelocity : Option ℚ := none
  rejectJointVelocity : Option ℚ := none
  maxConsecutiveRejections : Option ℤ := some 30

/-- The `ValueError`s of `__post_init__`. -/
inductive ConfigError
  /-- "… must be finite and > 0" -/
  | notPositive (field : String)
  /-- "joint_velocity_overrides[…] must be finite and > 0" -/
  | overrideNotPositive (joint : String)
  /-- "require 0 < min_dt <= nominal_dt <= max_dt" -/
  | dtOrder
  /-- "require … >= …" -/
  | rejectBelowClamp (reject clamp : String)
  /-- "require reject_joint_velocity >= joint_velocity_overrides[…]" -/
  | rejectBelowOverride (joint : String)
  /-- "max_consecutive_rejections must be >= 1 or None" -/
  | capBelowOne
  deriving DecidableEq

namespace RateLimiterConfig

/-- The checks of a rejection threshold. -/
def rejectChecks (rejectName : String) (reject : Option ℚ) (clampName : String) (clamp : ℚ) :
    List (Bool × ConfigError) :=
  match reject with
  | none => []
  | some reject =>
    [(decide (reject ≤ 0), .notPositive rejectName),
      (decide (reject < clamp), .rejectBelowClamp rejectName clampName)]

/-- The checks of `__post_init__` in their order: whether one fails, and its error. -/
def checks (cfg : RateLimiterConfig) : List (Bool × ConfigError) :=
  [(decide (cfg.maxLinearVelocity ≤ 0), .notPositive "max_linear_velocity"),
    (decide (cfg.maxAngularVelocity ≤ 0), .notPositive "max_angular_velocity"),
    (decide (cfg.maxJointVelocity ≤ 0), .notPositive "max_joint_velocity"),
    (decide (cfg.nominalDt ≤ 0), .notPositive "nominal_dt"),
    (decide (cfg.maxDt ≤ 0), .notPositive "max_dt"),
    (decide (cfg.minDt ≤ 0), .notPositive "min_dt")] ++
  cfg.jointVelocityOverrides.entries.map (fun entry =>
    (decide (entry.2 ≤ 0), .overrideNotPositive entry.1)) ++
  [(decide (¬ (cfg.minDt ≤ cfg.nominalDt ∧ cfg.nominalDt ≤ cfg.maxDt)), .dtOrder)] ++
  rejectChecks "reject_linear_velocity" cfg.rejectLinearVelocity
    "max_linear_velocity" cfg.maxLinearVelocity ++
  rejectChecks "reject_angular_velocity" cfg.rejectAngularVelocity
    "max_angular_velocity" cfg.maxAngularVelocity ++
  rejectChecks "reject_joint_velocity" cfg.rejectJointVelocity
    "max_joint_velocity" cfg.maxJointVelocity ++
  (match cfg.rejectJointVelocity with
    | none => []
    | some reject => cfg.jointVelocityOverrides.entries.map fun entry =>
        (decide (reject < entry.2), .rejectBelowOverride entry.1)) ++
  match cfg.maxConsecutiveRejections with
  | none => []
  | some cap => [(decide (cap < 1), .capBelowOne)]

def postInit (cfg : RateLimiterConfig) : Except ConfigError Unit :=
  match cfg.checks.find? Prod.fst with
  | some (_, error) => .error error
  | none => .ok ()

end RateLimiterConfig

/-- A configuration that was constructed. -/
structure ValidConfig extends RateLimiterConfig where
  valid : toRateLimiterConfig.postInit = .ok ()

namespace ValidConfig

variable (cfg : ValidConfig)

theorem check_passes {failed : Bool} (error : ConfigError)
    (h : (failed, error) ∈ cfg.toRateLimiterConfig.checks) : failed = false := by
  have hvalid := cfg.valid
  rw [RateLimiterConfig.postInit] at hvalid
  split at hvalid
  · cases hvalid
  · rename_i hnone
    rw [← Bool.not_eq_true]
    exact List.find?_eq_none.mp hnone _ h

theorem maxJointVelocity_pos : 0 < cfg.maxJointVelocity := by
  have h : decide (cfg.maxJointVelocity ≤ 0) = false :=
    cfg.check_passes (.notPositive "max_joint_velocity")
      (by simp [RateLimiterConfig.checks])
  simpa using h

theorem minDt_pos : 0 < cfg.minDt := by
  have h : decide (cfg.minDt ≤ 0) = false :=
    cfg.check_passes (.notPositive "min_dt") (by simp [RateLimiterConfig.checks])
  simpa using h

theorem override_pos {joint : String} {limit : ℚ}
    (h : (joint, limit) ∈ cfg.jointVelocityOverrides.entries) : 0 < limit := by
  have hcheck : decide (limit ≤ 0) = false := by
    refine cfg.check_passes (.overrideNotPositive joint) ?_
    simp only [RateLimiterConfig.checks, List.mem_append, List.mem_map]
    exact .inl (.inl (.inl (.inl (.inl (.inl (.inr ⟨(joint, limit), h, rfl⟩))))))
  simpa using hcheck

theorem minDt_le_maxDt : cfg.minDt ≤ cfg.maxDt := by
  have h : decide (¬ (cfg.minDt ≤ cfg.nominalDt ∧ cfg.nominalDt ≤ cfg.maxDt)) = false :=
    cfg.check_passes .dtOrder (by simp [RateLimiterConfig.checks])
  have hle := of_decide_eq_false h
  rw [not_not] at hle
  exact hle.1.trans hle.2

theorem cap_pos {cap : ℤ} (hcap : cfg.maxConsecutiveRejections = some cap) : 1 ≤ cap := by
  have h : decide (cap < 1) = false := by
    refine cfg.check_passes .capBelowOne ?_
    simp [RateLimiterConfig.checks, hcap]
  simpa using h

end ValidConfig

/-! ### Time -/

/-- Nanoseconds in seconds. -/
def seconds (ns : ℤ) : ℚ := ns * (1 / 1000000000)

/-- `_frame_dts` -/
def frameDts (prevNs : Option ℤ) (nowNs : ℤ) (nominal lo hi : ℚ) : ℚ × ℚ :=
  let raw :=
    match prevNs with
    | none => nominal
    | some prevNs =>
      let delta := seconds (nowNs - prevNs)
      if 0 < delta then delta else nominal
  (raw, min (max raw lo) hi)

/-- `_clamped_dt` -/
def clampedDt (prevNs : Option ℤ) (nowNs : ℤ) (nominal lo hi : ℚ) : ℚ :=
  (frameDts prevNs nowNs nominal lo hi).2

theorem seconds_mono {a b : ℤ} (h : a ≤ b) : seconds a ≤ seconds b := by
  have hcast : (a : ℚ) ≤ b := by exact_mod_cast h
  exact mul_le_mul_of_nonneg_right hcast (by norm_num)

theorem seconds_add (a b : ℤ) : seconds (a + b) = seconds a + seconds b := by
  simp only [seconds, Int.cast_add]
  ring

theorem le_clampedDt {lo hi : ℚ} (hle : lo ≤ hi) (prevNs : Option ℤ) (nowNs : ℤ) (nominal : ℚ) :
    lo ≤ clampedDt prevNs nowNs nominal lo hi :=
  le_min (le_max_right _ _) hle

theorem clampedDt_le (prevNs : Option ℤ) (nowNs : ℤ) (nominal lo hi : ℚ) :
    clampedDt prevNs nowNs nominal lo hi ≤ hi :=
  min_le_right _ _

/-- Between frames that are not closer than the lower clamp, no more time is allowed than has
passed. -/
theorem clampedDt_le_elapsed {lo hi : ℚ} (hpos : 0 < lo) {prevNs nowNs : ℤ}
    (hapart : lo ≤ seconds (nowNs - prevNs)) (nominal : ℚ) :
    clampedDt (some prevNs) nowNs nominal lo hi ≤ seconds (nowNs - prevNs) := by
  have hdelta : 0 < seconds (nowNs - prevNs) := hpos.trans_le hapart
  simp only [clampedDt, frameDts, if_pos hdelta, max_eq_left hapart]
  exact min_le_left _ _

/-! ### Clipped steps -/

section Clip

variable {K : Type} [Field K] [LinearOrder K] [IsStrictOrderedRing K]

/-- `np.clip` -/
def clip (value lo hi : K) : K := min (max value lo) hi

theorem abs_clip_le {value bound : K} (h : 0 ≤ bound) : |clip value (-bound) bound| ≤ bound := by
  rw [abs_le]
  refine ⟨le_min (le_max_right _ _) (by linarith), min_le_right _ _⟩

/-- What is left of a distance after a clipped step over it. -/
theorem abs_sub_clip (value : K) {bound : K} (h : 0 ≤ bound) :
    |value - clip value (-bound) bound| = max 0 (|value| - bound) := by
  rw [clip]
  rcases le_total value (-bound) with hlow | hlow
  · -- The step is as long as it may be, downwards.
    rw [max_eq_right hlow, min_eq_left (by linarith), abs_of_nonpos (by linarith),
      abs_of_nonpos (by linarith), max_eq_right (by linarith)]
    ring
  rw [max_eq_left hlow]
  rcases le_total bound value with hhigh | hhigh
  · rw [min_eq_right hhigh, abs_of_nonneg (by linarith), abs_of_nonneg (by linarith),
      max_eq_right (by linarith)]
  · -- The value is reached.
    have hvalue : |value| ≤ bound := abs_le.mpr ⟨hlow, hhigh⟩
    rw [min_eq_left hhigh, sub_self, abs_zero, max_eq_left (by linarith)]

end Clip

/-! ### The limiter -/

/-- `cap is None or self._rejections <= cap` -/
def mayReject (maxConsecutiveRejections : Option ℤ) (rejections : ℕ) : Bool :=
  match maxConsecutiveRejections with
  | none => true
  | some cap => decide ((rejections : ℤ) ≤ cap)

/-- A limiter of `n` joints. -/
structure JointRateLimiter (n : ℕ) where
  cfg : ValidConfig
  jointNames : Fin n → String
  nonempty : 0 < n
  known : ∀ joint ∈ cfg.jointVelocityOverrides.keys, ∃ i, jointNames i = joint

structure JointState (n : ℕ) where
  lastTargets : Option (Fin n → ℚ) := none
  lastTimeNs : Option ℤ := none
  /-- the last accepted input, which the emitted targets may lag -/
  lastInputTargets : Option (Fin n → ℚ) := none
  rejections : ℕ := 0

/-- What a call reads: the input group, absent or with values that may not be finite. -/
structure Frame (n : ℕ) where
  reset : Bool := false
  realTimeNs : ℤ
  input : Option (Fin n → Option ℚ)

/-- The targets of a present frame, if all of them are finite. -/
def finiteTargets {n : ℕ} (values : Fin n → Option ℚ) : Option (Fin n → ℚ) :=
  if ∀ i, (values i).isSome then some fun i => (values i).getD 0 else none

namespace JointRateLimiter

variable {n : ℕ} (limiter : JointRateLimiter n)

/-- `_limits` -/
def limits (i : Fin n) : ℚ :=
  (limiter.cfg.jointVelocityOverrides.get? (limiter.jointNames i)).getD
    limiter.cfg.maxJointVelocity

def dt (s : JointState n) (nowNs : ℤ) : ℚ :=
  clampedDt s.lastTimeNs nowNs limiter.cfg.nominalDt limiter.cfg.minDt limiter.cfg.maxDt

/-- Some joint moved faster than the threshold since the last accepted input. -/
def anomalous (s : JointState n) (targets : Fin n → ℚ) (dt : ℚ) : Bool :=
  match limiter.cfg.rejectJointVelocity, s.lastInputTargets with
  | some reject, some last => decide (∃ i, reject * dt < |targets i - last i|)
  | _, _ => false

/-- The end of `_compute_fn`: a clipped step from the last emitted targets. -/
def accept (targets last : Fin n → ℚ) (dt : ℚ) (nowNs : ℤ) : JointState n × Option (Fin n → ℚ) :=
  let limited := fun i =>
    last i + clip (targets i - last i) (-(limiter.limits i * dt)) (limiter.limits i * dt)
  ({ lastTargets := some limited, lastTimeNs := some nowNs, lastInputTargets := some targets,
     rejections := 0 }, some limited)

/-- `_compute_fn` after its reset. -/
def govern (s : JointState n) (frame : Frame n) : JointState n × Option (Fin n → ℚ) :=
  match frame.input with
  | none => (s, s.lastTargets)
  | some values =>
    match finiteTargets values with
    | none => (s, s.lastTargets)
    | some targets =>
      match s.lastTargets with
      | none =>
        ({ lastTargets := some targets, lastTimeNs := some frame.realTimeNs,
           lastInputTargets := some targets, rejections := 0 }, some targets)
      | some last =>
        let dt := limiter.dt s frame.realTimeNs
        if limiter.anomalous s targets dt then
          if mayReject limiter.cfg.maxConsecutiveRejections (s.rejections + 1) then
            ({ s with rejections := s.rejections + 1 }, some last)
          else limiter.accept targets last dt frame.realTimeNs
        else limiter.accept targets last dt frame.realTimeNs

/-- `_compute_fn`: the state after it, and the targets that it writes, if any. -/
def computeFn (s : JointState n) (frame : Frame n) : JointState n × Option (Fin n → ℚ) :=
  limiter.govern (if frame.reset then {} else s) frame

/-- A reset forgets everything. -/
theorem computeFn_reset (s : JointState n) (frame : Frame n) (h : frame.reset = true) :
    limiter.computeFn s frame = limiter.computeFn {} { frame with reset := false } := by
  rw [computeFn, computeFn, if_pos h]
  rfl

end JointRateLimiter

/-! ### Runs -/

/-- The targets of a frame that is present and finite. -/
def Frame.targets {n : ℕ} (frame : Frame n) : Option (Fin n → ℚ) := frame.input.bind finiteTargets

/-- A frame of a run, with what was known before it and what followed. -/
structure Record (n : ℕ) where
  frame : Frame n
  before : JointState n
  after : JointState n
  output : Option (Fin n → ℚ)

namespace JointRateLimiter

variable {n : ℕ} (limiter : JointRateLimiter n)

/-- The frame is latched or followed: it is present and finite, and not rejected. -/
def accepts (s : JointState n) (frame : Frame n) : Bool :=
  match frame.targets with
  | none => false
  | some targets =>
    match s.lastTargets with
    | none => true
    | some _ => !(limiter.anomalous s targets (limiter.dt s frame.realTimeNs) &&
        mayReject limiter.cfg.maxConsecutiveRejections (s.rejections + 1))

def record (s : JointState n) (frame : Frame n) : Record n where
  frame := frame
  before := s
  after := (limiter.computeFn s frame).1
  output := (limiter.computeFn s frame).2

def trace (s : JointState n) : List (Frame n) → List (Record n)
  | [] => []
  | frame :: frames => limiter.record s frame :: trace (limiter.computeFn s frame).1 frames

/-- The frame of a record was accepted. -/
def accepted (r : Record n) : Bool := limiter.accepts r.before r.frame

/-- The state after some frames. -/
def run (s : JointState n) (frames : List (Frame n)) : JointState n :=
  frames.foldl (fun s frame => (limiter.computeFn s frame).1) s

theorem trace_append (s : JointState n) (frames frames' : List (Frame n)) :
    limiter.trace s (frames ++ frames') =
      limiter.trace s frames ++ limiter.trace (limiter.run s frames) frames' := by
  induction frames generalizing s with
  | nil => rfl
  | cons frame frames ih =>
    rw [List.cons_append, trace, trace, List.cons_append, ih]
    rfl

theorem run_append (s : JointState n) (frames frames' : List (Frame n)) :
    limiter.run s (frames ++ frames') = limiter.run (limiter.run s frames) frames' :=
  List.foldl_append

/-- A split of the trace is one of the frames. -/
theorem trace_split {s : JointState n} {frames : List (Frame n)} {early late : List (Record n)}
    (h : limiter.trace s frames = early ++ late) :
    ∃ frames₁ frames₂, frames = frames₁ ++ frames₂ ∧ limiter.trace s frames₁ = early ∧
      limiter.trace (limiter.run s frames₁) frames₂ = late := by
  induction early generalizing s frames with
  | nil => exact ⟨[], frames, rfl, rfl, h⟩
  | cons r early ih =>
    cases frames with
    | nil => cases h
    | cons frame frames =>
      obtain ⟨hr, hrest⟩ := List.cons.inj h
      obtain ⟨frames₁, frames₂, rfl, hearly, hlate⟩ := ih hrest
      refine ⟨frame :: frames₁, frames₂, rfl, ?_, hlate⟩
      rw [trace, hearly]
      exact congrArg (· :: early) hr

theorem trace_singleton {s : JointState n} {frames : List (Frame n)} {r : Record n}
    {late : List (Record n)} (h : limiter.trace s frames = r :: late) :
    ∃ frame frames', frames = frame :: frames' ∧ r = limiter.record s frame ∧
      limiter.trace (limiter.computeFn s frame).1 frames' = late := by
  cases frames with
  | nil => cases h
  | cons frame frames' =>
    obtain ⟨hr, hrest⟩ := List.cons.inj h
    exact ⟨frame, frames', rfl, hr.symm, hrest⟩

/-! ### What a frame does -/

/-- The frame holds: nothing moves but the count of rejections. -/
structure Held (s : JointState n) (frame : Frame n) (s' : JointState n) : Prop where
  lastTargets : s'.lastTargets = s.lastTargets
  lastTimeNs : s'.lastTimeNs = s.lastTimeNs
  lastInputTargets : s'.lastInputTargets = s.lastInputTargets
  count : (frame.targets = none ∧ s'.rejections = s.rejections) ∨
    (frame.targets.isSome ∧ s.lastTargets.isSome ∧ s'.rejections = s.rejections + 1 ∧
      mayReject limiter.cfg.maxConsecutiveRejections s'.rejections = true)

/-- The frame is latched or followed. -/
structure Followed (s : JointState n) (frame : Frame n) (s' : JointState n)
    (targets emitted : Fin n → ℚ) : Prop where
  input : frame.targets = some targets
  lastTargets : s'.lastTargets = some emitted
  lastTimeNs : s'.lastTimeNs = some frame.realTimeNs
  lastInputTargets : s'.lastInputTargets = some targets
  rejections : s'.rejections = 0
  latched : s.lastTargets = none → emitted = targets
  clipped : ∀ last, s.lastTargets = some last → ∀ i,
    emitted i = last i + clip (targets i - last i)
      (-(limiter.limits i * limiter.dt s frame.realTimeNs))
      (limiter.limits i * limiter.dt s frame.realTimeNs)

/-- **What a frame does**, without a reset. -/
theorem compute_cases (s : JointState n) {frame : Frame n} (hreset : frame.reset = false) :
    (limiter.accepts s frame = false ∧ limiter.Held s frame (limiter.computeFn s frame).1) ∨
      (limiter.accepts s frame = true ∧ ∃ targets emitted,
        limiter.Followed s frame (limiter.computeFn s frame).1 targets emitted) := by
  rw [computeFn, hreset, if_neg Bool.false_ne_true]
  unfold accepts govern
  cases hinput : frame.input with
  | none =>
    have hnone : frame.targets = none := by simp [Frame.targets, hinput]
    rw [hnone]
    exact .inl ⟨rfl, rfl, rfl, rfl, .inl ⟨hnone, rfl⟩⟩
  | some values =>
  have htargets : frame.targets = finiteTargets values := by simp [Frame.targets, hinput]
  cases hfinite : finiteTargets values with
  | none =>
    rw [hfinite] at htargets
    simp only [htargets, hfinite]
    exact .inl ⟨trivial, rfl, rfl, rfl, .inl ⟨htargets, rfl⟩⟩
  | some targets =>
  rw [hfinite] at htargets
  simp only [htargets, hfinite]
  cases hlast : s.lastTargets with
  | none =>
    refine .inr ⟨rfl, targets, targets, htargets, rfl, rfl, rfl, rfl, fun _ => rfl, ?_⟩
    intro last hsome
    rw [hlast] at hsome
    cases hsome
  | some last =>
  -- Both ways to the end of the function.
  have haccept : limiter.Followed s frame
      (limiter.accept targets last (limiter.dt s frame.realTimeNs) frame.realTimeNs).1 targets
      (fun i => last i + clip (targets i - last i)
        (-(limiter.limits i * limiter.dt s frame.realTimeNs))
        (limiter.limits i * limiter.dt s frame.realTimeNs)) := by
    refine ⟨htargets, rfl, rfl, rfl, rfl, fun hnone => ?_, fun last' hlast' i => ?_⟩
    · rw [hlast] at hnone
      cases hnone
    · obtain rfl := Option.some_inj.mp (hlast.symm.trans hlast')
      rfl
  dsimp only
  cases hanomalous : limiter.anomalous s targets (limiter.dt s frame.realTimeNs) with
  | false => exact .inr ⟨rfl, targets, _, haccept⟩
  | true =>
    cases hmay : mayReject limiter.cfg.maxConsecutiveRejections (s.rejections + 1) with
    | false => exact .inr ⟨rfl, targets, _, haccept⟩
    | true =>
      refine .inl ⟨rfl, hlast.symm, rfl, rfl, .inr ⟨?_, ?_, rfl, hmay⟩⟩
      · rw [htargets]
        rfl
      · rw [hlast]
        rfl

/-- Every frame emits the targets that are last after it. -/
theorem output_eq (s : JointState n) (frame : Frame n) :
    (limiter.computeFn s frame).2 = (limiter.computeFn s frame).1.lastTargets := by
  rw [computeFn]
  generalize (if frame.reset then ({} : JointState n) else s) = s
  unfold govern
  split
  · rfl
  · split
    · rfl
    · split
      · rfl
      · rename_i last hlast
        dsimp only
        split
        · split
          · exact hlast.symm
          · rfl
        · rfl

/-! ### Bounded motion -/

/-- The targets emitted last, and when. -/
structure Latched (s : JointState n) (v : Fin n → ℚ) (t : ℤ) : Prop where
  lastTargets : s.lastTargets = some v
  lastTimeNs : s.lastTimeNs = some t

theorem limits_pos (i : Fin n) : 0 < limiter.limits i := by
  rw [limits]
  cases hlimit : limiter.cfg.jointVelocityOverrides.get? (limiter.jointNames i) with
  | none => exact limiter.cfg.maxJointVelocity_pos
  | some limit => exact limiter.cfg.override_pos (OrderedDict.mem_of_get? hlimit)

theorem minDt_le_dt (s : JointState n) (nowNs : ℤ) : limiter.cfg.minDt ≤ limiter.dt s nowNs :=
  le_clampedDt limiter.cfg.minDt_le_maxDt _ _ _

theorem step_nonneg (s : JointState n) (nowNs : ℤ) (i : Fin n) :
    0 ≤ limiter.limits i * limiter.dt s nowNs :=
  mul_nonneg (limiter.limits_pos i).le
    (limiter.cfg.minDt_pos.le.trans (limiter.minDt_le_dt s nowNs))

/-- Frames that are apart are in order. -/
theorem le_of_apart {a b : ℤ} (h : limiter.cfg.minDt ≤ seconds (b - a)) : a ≤ b := by
  by_contra hlt
  have hneg : seconds (b - a) ≤ seconds 0 := seconds_mono (by omega)
  have hzero : seconds 0 = 0 := by simp [seconds]
  have hpos := limiter.cfg.minDt_pos
  linarith

/-- **One frame** moves a joint by at most its limit times the time since the last accepted one,
and by no more than the largest step. -/
theorem step_latched {s : JointState n} {v : Fin n → ℚ} {t : ℤ} (h : Latched s v t)
    {frame : Frame n} (hreset : frame.reset = false)
    (hapart : limiter.cfg.minDt ≤ seconds (frame.realTimeNs - t)) :
    ∃ v' t', Latched (limiter.computeFn s frame).1 v' t' ∧ t ≤ t' ∧ t' ≤ frame.realTimeNs ∧
      ∀ i, |v' i - v i| ≤ limiter.limits i * seconds (t' - t) ∧
        |v' i - v i| ≤ limiter.limits i * limiter.cfg.maxDt := by
  have hnow : t ≤ frame.realTimeNs := limiter.le_of_apart hapart
  rcases limiter.compute_cases s hreset with ⟨-, hheld⟩ | ⟨-, targets, emitted, hfollowed⟩
  · -- The frame is held: nothing moves, and the latch stays as old as it was.
    refine ⟨v, t, ⟨hheld.lastTargets.trans h.lastTargets, hheld.lastTimeNs.trans h.lastTimeNs⟩,
      le_refl t, hnow, fun i => ?_⟩
    have hlimit := limiter.limits_pos i
    have hmax := limiter.cfg.minDt_pos.trans_le limiter.cfg.minDt_le_maxDt
    simp only [sub_self, abs_zero]
    constructor
    · simp [seconds]
    · positivity
  · refine ⟨emitted, frame.realTimeNs, ⟨hfollowed.lastTargets, hfollowed.lastTimeNs⟩, hnow,
      le_refl _, fun i => ?_⟩
    have hlimit := (limiter.limits_pos i).le
    -- A followed target is clipped to the step of this frame.
    have hstep : |emitted i - v i| ≤ limiter.limits i * limiter.dt s frame.realTimeNs := by
      rw [hfollowed.clipped v h.lastTargets i, add_sub_cancel_left]
      exact abs_clip_le (limiter.step_nonneg s frame.realTimeNs i)
    constructor
    · refine hstep.trans (mul_le_mul_of_nonneg_left ?_ hlimit)
      rw [dt, h.lastTimeNs]
      exact clampedDt_le_elapsed limiter.cfg.minDt_pos hapart _
    · exact hstep.trans (mul_le_mul_of_nonneg_left (clampedDt_le _ _ _ _ _) hlimit)

/-- Frames without a reset, each at least `min_dt` after the one before; the first after `now`. -/
inductive Spaced : ℤ → List (Frame n) → Prop
  | nil (now : ℤ) : Spaced now []
  | cons {now : ℤ} {frame : Frame n} {frames : List (Frame n)} :
      frame.reset = false → limiter.cfg.minDt ≤ seconds (frame.realTimeNs - now) →
        Spaced frame.realTimeNs frames → Spaced now (frame :: frames)

/-- The time of the last frame. -/
def lastTime (start : ℤ) (frames : List (Frame n)) : ℤ :=
  (frames.getLast?.map Frame.realTimeNs).getD start

omit limiter in
theorem lastTime_concat (start : ℤ) (frames : List (Frame n)) (frame : Frame n) :
    lastTime start (frames ++ [frame]) = frame.realTimeNs := by
  simp [lastTime]

omit limiter in
theorem lastTime_cons (start : ℤ) (frame : Frame n) (frames : List (Frame n)) :
    lastTime start (frame :: frames) = lastTime frame.realTimeNs frames := by
  cases frames with
  | nil => rfl
  | cons frame' frames =>
    simp only [lastTime, List.getLast?_cons_cons]
    rw [List.getLast?_eq_getLast_of_ne_nil (List.cons_ne_nil _ _)]
    rfl

/-- **A run** moves a joint by at most its limit times the time between accepted frames. -/
theorem run_latched {frames : List (Frame n)} :
    ∀ {s : JointState n} {v : Fin n → ℚ} {t now : ℤ}, Latched s v t → t ≤ now →
      limiter.Spaced now frames →
      ∃ v' t', Latched (limiter.run s frames) v' t' ∧ t ≤ t' ∧
        t' ≤ lastTime now frames ∧
        ∀ i, |v' i - v i| ≤ limiter.limits i * seconds (t' - t) := by
  induction frames with
  | nil =>
    intro s v t now h hnow _
    refine ⟨v, t, h, le_refl t, hnow, fun i => ?_⟩
    simp [seconds]
  | cons frame frames ih =>
    intro s v t now h hnow hspaced
    cases hspaced with
    | cons hreset hapart hrest =>
    -- The frames lie apart, so the latch is old enough when the next one comes.
    have hapart' : limiter.cfg.minDt ≤ seconds (frame.realTimeNs - t) :=
      hapart.trans (seconds_mono (by omega))
    obtain ⟨v₁, t₁, h₁, ht₁, hnow₁, hstep⟩ := limiter.step_latched h hreset hapart'
    obtain ⟨v', t', h', ht', hlast, hrun⟩ := ih h₁ hnow₁ hrest
    refine ⟨v', t', h', ht₁.trans ht', ?_, fun i => ?_⟩
    · rw [lastTime_cons]
      exact hlast
    · have hsum : seconds (t' - t) = seconds (t' - t₁) + seconds (t₁ - t) := by
        rw [← seconds_add]
        congr 1
        omega
      calc |v' i - v i| ≤ |v' i - v₁ i| + |v₁ i - v i| := abs_sub_le _ _ _
        _ ≤ limiter.limits i * seconds (t' - t₁) + limiter.limits i * seconds (t₁ - t) :=
          add_le_add (hrun i) (hstep i).1
        _ = limiter.limits i * seconds (t' - t) := by
          rw [hsum]
          ring

theorem Spaced.split {frames frames' : List (Frame n)} :
    ∀ {start : ℤ}, limiter.Spaced start (frames ++ frames') →
      limiter.Spaced start frames ∧ limiter.Spaced (lastTime start frames) frames' := by
  induction frames with
  | nil => exact fun h => ⟨.nil _, h⟩
  | cons frame frames ih =>
    intro start h
    cases h with
    | cons hreset hapart hrest =>
    obtain ⟨hfirst, hsecond⟩ := ih hrest
    rw [lastTime_cons]
    exact ⟨.cons hreset hapart hfirst, hsecond⟩

/-- **The last accepted frame**: the state is latched at its time, and no later frame was
accepted. -/
theorem last_accepted {start : ℤ} {frames : List (Frame n)} {v : Fin n → ℚ}
    (hspaced : limiter.Spaced start frames)
    (hv : (limiter.run {} frames).lastTargets = some v) :
    ∃ early a held, limiter.trace {} frames = early ++ a :: held ∧ limiter.accepted a = true ∧
      (∀ r ∈ held, limiter.accepted r = false) ∧
      Latched (limiter.run {} frames) v a.frame.realTimeNs ∧
      a.frame.realTimeNs ≤ lastTime start frames := by
  induction frames using List.reverseRecOn generalizing v with
  | nil => cases hv
  | append_singleton frames frame ih =>
    obtain ⟨hfirst, hlast⟩ := Spaced.split limiter hspaced
    rw [limiter.run_append] at hv ⊢
    rw [limiter.trace_append, lastTime_concat]
    cases hlast with
    | cons hreset hapart _ =>
    rcases limiter.compute_cases (limiter.run {} frames) hreset with
      ⟨hrejected, hheld⟩ | ⟨haccepted, targets, emitted, hfollowed⟩
    · -- A frame that holds goes to the end of those after the last accepted one.
      obtain ⟨early, a, held, htrace, ha, hheld', hlatched, hle⟩ :=
        ih hfirst (hheld.lastTargets.symm.trans hv)
      refine ⟨early, a, held ++ [limiter.record (limiter.run {} frames) frame], ?_, ha, ?_,
        ⟨hv, hheld.lastTimeNs.trans hlatched.lastTimeNs⟩, ?_⟩
      · rw [htrace, List.append_assoc]
        rfl
      · intro r hr
        rcases List.mem_append.mp hr with hr | hr
        · exact hheld' r hr
        · rw [List.mem_singleton.mp hr]
          exact hrejected
      · exact hle.trans (limiter.le_of_apart hapart)
    · exact ⟨limiter.trace {} frames, limiter.record (limiter.run {} frames) frame, [], rfl,
        haccepted, fun r hr => (by cases hr), ⟨hv, hfollowed.lastTimeNs⟩, le_refl _⟩

/-! ### A target that stays -/

/-- The frames of a run that were accepted. -/
def acceptedCount (records : List (Record n)) : ℕ := records.countP limiter.accepted

/-- **The approach** to a target that all accepted frames of a run have: each of them comes nearer
by the smallest step, or reaches it. -/
theorem run_towards (target : Fin n → ℚ) (i : Fin n) {frames : List (Frame n)} :
    ∀ {s : JointState n} {v : Fin n → ℚ} {now : ℤ}, s.lastTargets = some v →
      limiter.Spaced now frames →
      (∀ r ∈ limiter.trace s frames, limiter.accepted r = true → r.frame.targets = some target) →
      ∃ v', (limiter.run s frames).lastTargets = some v' ∧
        |target i - v' i| ≤ max 0 (|target i - v i| -
          limiter.acceptedCount (limiter.trace s frames) *
            (limiter.limits i * limiter.cfg.minDt)) := by
  have hsmall : 0 ≤ limiter.limits i * limiter.cfg.minDt :=
    mul_nonneg (limiter.limits_pos i).le limiter.cfg.minDt_pos.le
  induction frames with
  | nil =>
    intro s v now hv _ _
    exact ⟨v, hv, by simp [trace, acceptedCount]⟩
  | cons frame frames ih =>
    intro s v now hv hspaced htarget
    cases hspaced with
    | cons hreset hapart hrest =>
    have htarget' : ∀ r ∈ limiter.trace (limiter.computeFn s frame).1 frames,
        limiter.accepted r = true → r.frame.targets = some target :=
      fun r hr => htarget r (List.mem_cons_of_mem _ hr)
    rcases limiter.compute_cases s hreset with
      ⟨hrejected, hheld⟩ | ⟨haccepted, targets, emitted, hfollowed⟩
    · obtain ⟨v', hv', hle⟩ := ih (hheld.lastTargets.trans hv) hrest htarget'
      refine ⟨v', hv', ?_⟩
      have hcount : limiter.acceptedCount (limiter.trace s (frame :: frames)) =
          limiter.acceptedCount (limiter.trace (limiter.computeFn s frame).1 frames) :=
        List.countP_cons_of_neg (by simpa [accepted, record] using hrejected)
      rw [hcount]
      exact hle
    · obtain ⟨v', hv', hle⟩ := ih hfollowed.lastTargets hrest htarget'
      refine ⟨v', hv', hle.trans ?_⟩
      have hcount : limiter.acceptedCount (limiter.trace s (frame :: frames)) =
          limiter.acceptedCount (limiter.trace (limiter.computeFn s frame).1 frames) + 1 :=
        List.countP_cons_of_pos (by simpa [accepted, record] using haccepted)
      rw [hcount]
      -- The frame has the target, and its step is not below the smallest.
      have hsame : targets = target := by
        have hframe := htarget (limiter.record s frame) List.mem_cons_self haccepted
        exact Option.some_inj.mp (hfollowed.input.symm.trans hframe)
      have hdt : limiter.limits i * limiter.cfg.minDt ≤
          limiter.limits i * limiter.dt s frame.realTimeNs :=
        mul_le_mul_of_nonneg_left (limiter.minDt_le_dt s _) (limiter.limits_pos i).le
      have hleft : |target i - emitted i| ≤
          max 0 (|target i - v i| - limiter.limits i * limiter.cfg.minDt) := by
        rw [hfollowed.clipped v hv i, hsame, ← sub_sub,
          abs_sub_clip _ (limiter.step_nonneg s frame.realTimeNs i)]
        exact max_le_max_left 0 (by linarith)
      refine max_le (le_max_left _ _) ?_
      push_cast
      set k : ℚ := (limiter.acceptedCount (limiter.trace (limiter.computeFn s frame).1 frames) : ℚ)
      have hk : 0 ≤ k * (limiter.limits i * limiter.cfg.minDt) :=
        mul_nonneg (Nat.cast_nonneg _) hsmall
      rcases max_cases (0 : ℚ) (|target i - v i| - limiter.limits i * limiter.cfg.minDt) with
        ⟨hmax, -⟩ | ⟨hmax, -⟩
      · refine le_trans ?_ (le_max_left _ _)
        linarith
      · refine le_trans ?_ (le_max_right _ _)
        linarith

/-! ### Rejections -/

theorem rejections_le {cap : ℤ} (hcap : limiter.cfg.maxConsecutiveRejections = some cap)
    {frames : List (Frame n)} :
    ∀ {s : JointState n} {now : ℤ}, (s.rejections : ℤ) ≤ cap → limiter.Spaced now frames →
      ((limiter.run s frames).rejections : ℤ) ≤ cap := by
  induction frames with
  | nil => exact fun h _ => h
  | cons frame frames ih =>
    intro s now h hspaced
    cases hspaced with
    | cons hreset hapart hrest =>
    refine ih (s := (limiter.computeFn s frame).1) ?_ hrest
    rcases limiter.compute_cases s hreset with ⟨-, hheld⟩ | ⟨-, targets, emitted, hfollowed⟩
    · rcases hheld.count with ⟨-, hsame⟩ | ⟨-, -, -, hmay⟩
      · rw [hsame]
        exact h
      · simpa [mayReject, hcap] using hmay
    · rw [hfollowed.rejections]
      have hpos := limiter.cfg.cap_pos hcap
      simp only [Nat.cast_zero]
      omega

/-- Frames that are present and finite. -/
def presentCount (records : List (Record n)) : ℕ :=
  records.countP fun r => r.frame.targets.isSome

/-- While nothing is accepted, every frame that is present and finite counts as a rejection. -/
theorem rejections_eq {frames : List (Frame n)} :
    ∀ {s : JointState n} {now : ℤ}, limiter.Spaced now frames →
      (∀ r ∈ limiter.trace s frames, limiter.accepted r = false) →
      (limiter.run s frames).rejections = s.rejections + presentCount (limiter.trace s frames) := by
  induction frames with
  | nil => exact fun _ _ => rfl
  | cons frame frames ih =>
    intro s now hspaced hnone
    cases hspaced with
    | cons hreset hapart hrest =>
    have hrejected : limiter.accepts s frame = false := hnone _ List.mem_cons_self
    have hrun := ih (s := (limiter.computeFn s frame).1) hrest
      fun r hr => hnone r (List.mem_cons_of_mem _ hr)
    rw [trace]
    rcases limiter.compute_cases s hreset with ⟨-, hheld⟩ | ⟨haccepted, -⟩
    · -- An absent frame is not counted, a rejected one is.
      rcases hheld.count with ⟨htargets, hsame⟩ | ⟨htargets, -, hnext, -⟩
      · have hcount : presentCount (limiter.record s frame ::
            limiter.trace (limiter.computeFn s frame).1 frames) =
            presentCount (limiter.trace (limiter.computeFn s frame).1 frames) :=
          List.countP_cons_of_neg (by simp [record, htargets])
        rw [hcount, ← hsame]
        exact hrun
      · have hcount : presentCount (limiter.record s frame ::
            limiter.trace (limiter.computeFn s frame).1 frames) =
            presentCount (limiter.trace (limiter.computeFn s frame).1 frames) + 1 :=
          List.countP_cons_of_pos (by simpa [record] using htargets)
        rw [hcount]
        rw [hnext] at hrun
        rw [show limiter.run s (frame :: frames) =
          limiter.run (limiter.computeFn s frame).1 frames from rfl, hrun]
        omega
    · rw [hrejected] at haccepted
      cases haccepted

/-! ### All runs -/

/-- What the last record of a trace emits is what its state holds. -/
theorem output_last {s : JointState n} {frames : List (Frame n)} {early : List (Record n)}
    {r : Record n} (h : limiter.trace s frames = early ++ [r]) :
    r.output = (limiter.run s frames).lastTargets ∧
      ∀ now, r.frame.realTimeNs = lastTime now frames := by
  obtain ⟨frames₁, frames₂, rfl, -, hr⟩ := limiter.trace_split h
  obtain ⟨frame, frames₃, rfl, rfl, hnil⟩ := limiter.trace_singleton hr
  cases frames₃ with
  | cons => cases hnil
  | nil =>
    refine ⟨?_, fun now => (lastTime_concat now frames₁ frame).symm⟩
    rw [limiter.run_append]
    exact limiter.output_eq _ frame

/-- **A window**: what a joint moves between two emitting frames is bounded by the time from the
last frame accepted up to the first of them to the second. -/
theorem window_bound {start : ℤ} {frames : List (Frame n)} (hspaced : limiter.Spaced start frames)
    {upTo between after : List (Record n)} {f g : Record n}
    (htrace : limiter.trace {} frames = upTo ++ f :: (between ++ g :: after))
    {o : Fin n → ℚ} (ho : f.output = some o) :
    ∃ early a held o', upTo ++ [f] = early ++ a :: held ∧ limiter.accepted a = true ∧
      (∀ r ∈ held, limiter.accepted r = false) ∧ g.output = some o' ∧
      ∀ i, |o' i - o i| ≤
        limiter.limits i * seconds (g.frame.realTimeNs - a.frame.realTimeNs) := by
  -- The frames up to `f`, those up to `g`, and the rest.
  have hsplit : limiter.trace {} frames = (upTo ++ [f]) ++ ((between ++ [g]) ++ after) := by
    rw [htrace]
    simp
  obtain ⟨frames₁, frames₂, rfl, hfirst, hsecond⟩ := limiter.trace_split hsplit
  obtain ⟨frames₃, frames₄, rfl, hthird, -⟩ := limiter.trace_split hsecond
  obtain ⟨hspaced₁, hspaced₂⟩ := Spaced.split limiter hspaced
  obtain ⟨hspaced₃, -⟩ := Spaced.split limiter hspaced₂
  obtain ⟨hf, -⟩ := limiter.output_last hfirst
  obtain ⟨hg, hgtime⟩ := limiter.output_last hthird
  obtain ⟨early, a, held, hlast, ha, hheld, hlatched, hle⟩ :=
    limiter.last_accepted hspaced₁ (hf.symm.trans ho)
  obtain ⟨o', t', hlatched', ht', hnow, hbound⟩ := limiter.run_latched hlatched hle hspaced₃
  refine ⟨early, a, held, o', hfirst.symm.trans hlast, ha, hheld, hg.trans hlatched'.lastTargets,
    fun i => (hbound i).trans ?_⟩
  refine mul_le_mul_of_nonneg_left (seconds_mono ?_) (limiter.limits_pos i).le
  rw [hgtime (lastTime start frames₁)]
  omega

/-- A record of a trace is of a frame that was computed. -/
theorem exists_of_mem_trace {frames : List (Frame n)} {r : Record n} :
    ∀ {s : JointState n} {now : ℤ}, limiter.Spaced now frames → r ∈ limiter.trace s frames →
      ∃ s' frame, frame.reset = false ∧ r = limiter.record s' frame := by
  induction frames with
  | nil =>
    intro s now _ hr
    cases hr
  | cons frame frames ih =>
    intro s now hspaced hr
    cases hspaced with
    | cons hreset _ hrest =>
    rcases List.mem_cons.mp hr with rfl | hr
    · exact ⟨s, frame, hreset, rfl⟩
    · exact ih hrest hr

/-- **One frame**: the next output is at most a largest step away. -/
theorem frame_bound {start : ℤ} {frames : List (Frame n)} (hspaced : limiter.Spaced start frames)
    {upTo after : List (Record n)} {f g : Record n}
    (htrace : limiter.trace {} frames = upTo ++ f :: g :: after) {o o' : Fin n → ℚ}
    (ho : f.output = some o) (ho' : g.output = some o') (i : Fin n) :
    |o' i - o i| ≤ limiter.limits i * limiter.cfg.maxDt := by
  obtain ⟨frames₁, frames₂, rfl, -, hsecond⟩ := limiter.trace_split htrace
  obtain ⟨-, hspaced₂⟩ := Spaced.split limiter hspaced
  obtain ⟨frame, frames₃, rfl, rfl, hthird⟩ := limiter.trace_singleton hsecond
  obtain ⟨frame', frames₄, rfl, rfl, -⟩ := limiter.trace_singleton hthird
  have hlast : (limiter.computeFn (limiter.run {} frames₁) frame).1.lastTargets = some o :=
    (limiter.output_eq _ frame).symm.trans ho
  cases hspaced₂ with
  | cons _ _ hrest =>
  cases hrest with
  | cons hreset _ _ =>
  rcases limiter.compute_cases (limiter.computeFn (limiter.run {} frames₁) frame).1 hreset with
    ⟨-, hheld⟩ | ⟨-, targets, emitted, hfollowed⟩
  · -- The frame holds, so the outputs are the same.
    have hsame : o' = o := by
      have hout : (limiter.computeFn (limiter.computeFn (limiter.run {} frames₁) frame).1
          frame').1.lastTargets = some o' := (limiter.output_eq _ frame').symm.trans ho'
      exact Option.some_inj.mp (hout.symm.trans (hheld.lastTargets.trans hlast))
    have hlimit := limiter.limits_pos i
    have hmax := limiter.cfg.minDt_pos.trans_le limiter.cfg.minDt_le_maxDt
    rw [hsame, sub_self, abs_zero]
    positivity
  · have hemitted : o' = emitted :=
      Option.some_inj.mp (ho'.symm.trans ((limiter.output_eq _ frame').trans hfollowed.lastTargets))
    rw [hemitted, hfollowed.clipped o hlast i, add_sub_cancel_left]
    refine (abs_clip_le (limiter.step_nonneg _ _ i)).trans ?_
    exact mul_le_mul_of_nonneg_left (clampedDt_le _ _ _ _ _) (limiter.limits_pos i).le

/-- **A target that stays** in the accepted frames is reached, and emitted from then on. -/
theorem target_reached {start : ℤ} {frames : List (Frame n)} (hspaced : limiter.Spaced start frames)
    {upTo later after : List (Record n)} {f g : Record n}
    (htrace : limiter.trace {} frames = upTo ++ f :: (later ++ g :: after)) {o : Fin n → ℚ}
    (ho : f.output = some o) (target : Fin n → ℚ)
    (htarget : ∀ r ∈ later ++ [g], limiter.accepted r = true → r.frame.targets = some target)
    (i : Fin n)
    (henough : ⌈|target i - o i| / (limiter.limits i * limiter.cfg.minDt)⌉₊ ≤
      limiter.acceptedCount (later ++ [g])) :
    ∃ o', g.output = some o' ∧ o' i = target i := by
  have hsplit : limiter.trace {} frames = (upTo ++ [f]) ++ ((later ++ [g]) ++ after) := by
    rw [htrace]
    simp
  obtain ⟨frames₁, frames₂, rfl, hfirst, hsecond⟩ := limiter.trace_split hsplit
  obtain ⟨frames₃, frames₄, rfl, hthird, -⟩ := limiter.trace_split hsecond
  obtain ⟨-, hspaced₂⟩ := Spaced.split limiter hspaced
  obtain ⟨hspaced₃, -⟩ := Spaced.split limiter hspaced₂
  obtain ⟨hf, -⟩ := limiter.output_last hfirst
  obtain ⟨hg, -⟩ := limiter.output_last hthird
  rw [← hthird] at htarget henough
  obtain ⟨o', hlast, hnear⟩ :=
    limiter.run_towards target i (hf.symm.trans ho) hspaced₃ htarget
  refine ⟨o', hg.trans hlast, ?_⟩
  -- The steps add up to the whole distance.
  have hsmall : 0 < limiter.limits i * limiter.cfg.minDt :=
    mul_pos (limiter.limits_pos i) limiter.cfg.minDt_pos
  have hcover : |target i - o i| ≤
      limiter.acceptedCount (limiter.trace (limiter.run {} frames₁) frames₃) *
        (limiter.limits i * limiter.cfg.minDt) := by
    rw [← div_le_iff₀ hsmall]
    exact (Nat.le_ceil _).trans (by exact_mod_cast henough)
  rw [max_eq_left (by linarith)] at hnear
  have hzero : target i - o' i = 0 := abs_nonpos_iff.mp hnear
  linarith

/-- **Rejections end**: among one more frame than the cap, present and finite, one is accepted. -/
theorem some_accepted {start : ℤ} {frames : List (Frame n)} (hspaced : limiter.Spaced start frames)
    {upTo segment after : List (Record n)}
    (htrace : limiter.trace {} frames = upTo ++ (segment ++ after)) {cap : ℤ}
    (hcap : limiter.cfg.maxConsecutiveRejections = some cap)
    (hmany : cap + 1 ≤ presentCount segment) : ∃ r ∈ segment, limiter.accepted r = true := by
  obtain ⟨frames₁, frames₂, rfl, -, hsecond⟩ := limiter.trace_split htrace
  obtain ⟨frames₃, frames₄, rfl, hthird, -⟩ := limiter.trace_split hsecond
  obtain ⟨hspaced₁, hspaced₂⟩ := Spaced.split limiter hspaced
  obtain ⟨hspaced₃, -⟩ := Spaced.split limiter hspaced₂
  by_contra hnone
  push Not at hnone
  have hcount := limiter.rejections_eq (s := limiter.run {} frames₁) hspaced₃
    (by simpa [hthird] using hnone)
  have hpos := limiter.cfg.cap_pos hcap
  have hbefore : ((limiter.run {} frames₁).rejections : ℤ) ≤ cap :=
    limiter.rejections_le hcap (by simp only [Nat.cast_zero]; omega) hspaced₁
  have hafter := limiter.rejections_le hcap hbefore hspaced₃
  rw [hthird] at hcount
  omega

/-- **Bounded motion of the joints**, for every run without a reset whose frames are apart. -/
theorem joint_rate_limiting (start : ℤ) (frames : List (Frame n))
    (hspaced : limiter.Spaced start frames) :
    (∀ upTo f between g after o,
      limiter.trace {} frames = upTo ++ f :: (between ++ g :: after) → f.output = some o →
      ∃ early a held o', upTo ++ [f] = early ++ a :: held ∧ limiter.accepted a = true ∧
        (∀ r ∈ held, limiter.accepted r = false) ∧ g.output = some o' ∧
        ∀ i, |o' i - o i| ≤
          limiter.limits i * seconds (g.frame.realTimeNs - a.frame.realTimeNs)) ∧
    (∀ upTo f g after o o', limiter.trace {} frames = upTo ++ f :: g :: after →
      f.output = some o → g.output = some o' →
      ∀ i, |o' i - o i| ≤ limiter.limits i * limiter.cfg.maxDt) ∧
    (∀ upTo f later g after o target,
      limiter.trace {} frames = upTo ++ f :: (later ++ g :: after) → f.output = some o →
      (∀ r ∈ later ++ [g], limiter.accepted r = true → r.frame.targets = some target) →
      ∀ i, ⌈|target i - o i| / (limiter.limits i * limiter.cfg.minDt)⌉₊ ≤
          limiter.acceptedCount (later ++ [g]) →
        ∃ o', g.output = some o' ∧ o' i = target i) ∧
    (∀ upTo segment after cap, limiter.trace {} frames = upTo ++ (segment ++ after) →
      limiter.cfg.maxConsecutiveRejections = some cap → cap + 1 ≤ presentCount segment →
      ∃ r ∈ segment, limiter.accepted r = true) ∧
    ∀ r ∈ limiter.trace {} frames, limiter.accepted r = false →
      r.output = r.before.lastTargets ∧ r.after.lastTargets = r.before.lastTargets ∧
        r.after.lastTimeNs = r.before.lastTimeNs ∧
        r.after.lastInputTargets = r.before.lastInputTargets := by
  refine ⟨fun _ _ _ _ _ _ htrace ho => limiter.window_bound hspaced htrace ho,
    fun _ _ _ _ _ _ htrace ho ho' => limiter.frame_bound hspaced htrace ho ho',
    fun _ _ _ _ _ _ target htrace ho htarget i =>
      limiter.target_reached hspaced htrace ho target htarget i,
    fun _ _ _ _ htrace hcap hmany => limiter.some_accepted hspaced htrace hcap hmany, ?_⟩
  -- A frame that is not accepted holds everything it remembers.
  intro r hr hrejected
  obtain ⟨s, frame, hreset, rfl⟩ := limiter.exists_of_mem_trace hspaced hr
  rcases limiter.compute_cases s hreset with ⟨-, hheld⟩ | ⟨haccepted, -⟩
  · exact ⟨(limiter.output_eq s frame).trans hheld.lastTargets, hheld.lastTargets,
      hheld.lastTimeNs, hheld.lastInputTargets⟩
  · exact absurd (hrejected.symm.trans haccepted) Bool.false_ne_true

end JointRateLimiter

theorem default_valid : RateLimiterConfig.postInit {} = .ok () := by
  norm_num [RateLimiterConfig.postInit, RateLimiterConfig.checks, RateLimiterConfig.rejectChecks]

/-- A limiter of one joint with the default configuration. -/
def oneJoint : JointRateLimiter 1 where
  cfg := { valid := default_valid }
  jointNames _ := "shoulder_pan"
  nonempty := Nat.one_pos
  known := List.forall_mem_nil _

/-- A target, a dropped frame, and a target that is far away; twenty milliseconds apart. -/
def farTarget : List (Frame 1) :=
  [{ realTimeNs := 0, input := some fun _ => some 0 },
    { realTimeNs := 20000000, input := none },
    { realTimeNs := 40000000, input := some fun _ => some 2 }]

theorem far_target_approached :
    ∃ o o', ((oneJoint.trace {} farTarget).map Record.output) = [some o, some o, some o'] ∧
      o' 0 = 3 / 50 ∧ |o' 0 - o 0| ≤ oneJoint.limits 0 * seconds (40000000 - 0) := by
  have hspaced : oneJoint.Spaced (-1000000) farTarget := by
    refine .cons rfl ?_ (.cons rfl ?_ (.cons rfl ?_ (.nil _))) <;>
      norm_num [oneJoint, seconds]
  obtain ⟨f, f', g, htrace, o, o', ho, ho', hnone, hg, hvalue⟩ : ∃ f f' g,
      oneJoint.trace {} farTarget = [f, f', g] ∧ ∃ o o', f.output = some o ∧ f'.output = some o ∧
        oneJoint.accepted f' = false ∧ g.output = some o' ∧ o' 0 = 3 / 50 :=
    ⟨_, _, _, rfl, _, _, rfl, rfl, rfl, rfl, by decide +kernel⟩
  refine ⟨o, o', by simp [htrace, ho, ho', hg], hvalue, ?_⟩
  obtain ⟨hwindow, -⟩ := oneJoint.joint_rate_limiting (-1000000) farTarget hspaced
  obtain ⟨early, a, held, o'', hsplit, ha, -, hout, hbound⟩ :=
    hwindow [f] f' [] g [] o htrace ho'
  -- The dropped frame was not accepted, so the last accepted one is the first.
  have hfirst : a = f := by
    rcases early with _ | ⟨r, _ | ⟨r', early⟩⟩
    · exact (List.cons.inj hsplit).1.symm
    · have hsecond : f' = a := (List.cons.inj (List.cons.inj hsplit).2).1
      rw [← hsecond, hnone] at ha
      cases ha
    · have hlength := congrArg List.length hsplit
      simp at hlength
  obtain rfl := Option.some_inj.mp (hg.symm.trans hout)
  have hb := hbound 0
  have htimes : f.frame.realTimeNs = 0 ∧ g.frame.realTimeNs = 40000000 := by
    have hframes : (oneJoint.trace {} farTarget).map (fun r => r.frame.realTimeNs) =
        [0, 20000000, 40000000] := rfl
    rw [htrace] at hframes
    simp only [List.map_cons, List.cons.injEq] at hframes
    exact ⟨hframes.1, hframes.2.2.1⟩
  rw [hfirst, htimes.1, htimes.2] at hb
  exact hb

end RateLimiter
