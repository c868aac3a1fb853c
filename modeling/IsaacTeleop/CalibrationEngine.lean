/-
The step machine of one glove calibration attempt.

The engine is single-threaded: it handles commands and ticks, calls the SDK, the export
writer and the clock, and writes events.  Everything that crosses its boundary is
recorded in one trace, oldest first.  The environment answers each call from the trace
before it, so an arbitrary environment stands for every behaviour of SDK, writer and
clock; after each entry another thread may request a cancellation.

* `Machine.handle`, `Machine.tick`, `Machine.requestCancel` — the entry points;
* `run` — a whole run.
-/
import IsaacTeleop.CalibrationProtocol
import IsaacTeleop.Sha256

open ByteText

namespace Calibration

/-- The operations on `double` that the engine uses.  No law is assumed of them, so that
rounding, infinities and NaN are covered. -/
class CppDouble (τ : Type) where
  zero : τ
  milli : τ
  thousand : τ
  sub : τ → τ → τ
  mul : τ → τ → τ
  div : τ → τ → τ
  neg : τ → τ
  round : τ → τ
  lt : τ → τ → Bool
  le : τ → τ → Bool
  isFinite : τ → Bool
  toInt : τ → ℤ

namespace CppDouble

variable {τ : Type} [CppDouble τ]

/-- `std::max` -/
def max (a b : τ) : τ := if lt a b then b else a

/-- `std::min` -/
def min (a b : τ) : τ := if lt b a then b else a

end CppDouble

open CppDouble

structure SdkStatus where
  ok : Bool
  message : ByteText
  deriving DecidableEq, Repr

structure SdkGlove where
  side : Side
  id : UInt32
  deriving DecidableEq, Repr

structure SdkStep (τ : Type) where
  index : UInt32
  title : ByteText
  instruction : ByteText
  timeS : τ
  deriving DecidableEq, Repr

inductive ConnectState
  | connecting
  | connected
  | failed
  deriving DecidableEq, Repr

structure ConnectResult where
  state : ConnectState
  message : ByteText
  deriving DecidableEq, Repr

inductive ContinuousPacing
  | operator
  | window
  deriving DecidableEq, Repr

structure EngineConfig (τ : Type) where
  continuousPacing : ContinuousPacing
  discoveryTimeoutS : τ
  progressIntervalS : τ
  connectRetryS : τ

/-- What the owner of the engine calls. -/
inductive Input
  | handle (command : Command)
  | tick
  | requestCancel
  deriving DecidableEq

/-- One entry of the trace.  A call stands with its answer; a call about a glove also
stands with the side the engine pinned it for, which the SDK does not see. -/
inductive Entry (τ : Type)
  | input (input : Input)
  | cancelRequested
  | clock (now : τ)
  | directoryUsable (dir : ByteText) (usable : Bool)
  | write (dir basename : ByteText) (bytes : List UInt8) (error : Option ByteText)
  | initializeSdk (status : SdkStatus)
  | connect (result : ConnectResult)
  | gloves (landscape : List SdkGlove)
  | stepCount (glove : GloveRef) (status : SdkStatus) (count : UInt32)
  | stepData (glove : GloveRef) (index : ℕ) (status : SdkStatus) (step : SdkStep τ)
  | start (glove : GloveRef) (status : SdkStatus)
  | startStep (glove : GloveRef) (index : ℕ) (status : SdkStatus)
  | finish (glove : GloveRef) (status : SdkStatus)
  | stop (glove : GloveRef) (status : SdkStatus)
  | exportCalibration (glove : GloveRef) (status : SdkStatus) (bytes : List UInt8)
  | shutdown (status : SdkStatus)
  | event (event : Event τ)
  deriving DecidableEq

abbrev Trace (τ : Type) := List (Entry τ)

/-- The SDK, the export writer, the clock and the threads that may cancel. -/
structure Environment (τ : Type) where
  nowS : Trace τ → τ
  directoryUsable : Trace τ → ByteText → Bool
  write : Trace τ → ByteText → ByteText → List UInt8 → Option ByteText
  initializeSdk : Trace τ → SdkStatus
  connect : Trace τ → ConnectResult
  gloves : Trace τ → List SdkGlove
  stepCount : Trace τ → UInt32 → SdkStatus × UInt32
  stepData : Trace τ → UInt32 → ℕ → SdkStatus × SdkStep τ
  start : Trace τ → UInt32 → SdkStatus
  startStep : Trace τ → UInt32 → ℕ → SdkStatus
  finish : Trace τ → UInt32 → SdkStatus
  stop : Trace τ → UInt32 → SdkStatus
  exportCalibration : Trace τ → UInt32 → SdkStatus × List UInt8
  shutdown : Trace τ → SdkStatus
  /-- Another thread calls `request_cancel` right after this trace. -/
  cancels : Trace τ → Bool

inductive State
  | idle
  | discovering
  | awaitingStep
  | capturingStep
  | saving
  | finished
  deriving DecidableEq, Repr

/-- The members of `CalibrationEngine`, apart from the cancellation flag, which other
threads write. -/
structure Engine (τ : Type) where
  state : State
  finished : Bool
  outcome : Outcome
  attempt : ByteText
  outDir : ByteText
  sides : List Side
  pinned : List GloveRef
  sdkInitialized : Bool
  connected : Bool
  discoveryStartedS : τ
  lastConnectS : τ
  lastReportedGloves : List GloveRef
  gloveIndex : ℕ
  calibrating : Bool
  stepIndex : ℕ
  stepCount : ℕ
  promptSeq : ℕ
  currentToken : ByteText
  currentMode : StepMode
  currentDurationS : τ
  pacingS : τ
  stepStartedS : τ
  lastProgressS : τ
  acceptedTokens : List ByteText
  exported : List ResultFile
  deriving DecidableEq

def Engine.init {τ : Type} [CppDouble τ] : Engine τ where
  state := .idle
  finished := false
  outcome := .cancelled
  attempt := []
  outDir := []
  sides := []
  pinned := []
  sdkInitialized := false
  connected := false
  discoveryStartedS := zero
  lastConnectS := zero
  lastReportedGloves := []
  gloveIndex := 0
  calibrating := false
  stepIndex := 0
  stepCount := 0
  promptSeq := 0
  currentToken := []
  currentMode := .hold
  currentDurationS := zero
  pacingS := zero
  stepStartedS := zero
  lastProgressS := zero
  acceptedTokens := []
  exported := []

/-- `m_pinned[m_glove_index]`; the index is in range wherever it is read. -/
def Engine.glove {τ : Type} (self : Engine τ) : GloveRef := self.pinned.getD self.gloveIndex default

/-- The engine with the flag `m_cancel_requested` and the trace so far. -/
structure Machine (τ : Type) where
  engine : Engine τ
  cancelRequested : Bool
  trace : Trace τ

namespace Machine

variable {τ : Type}

def init [CppDouble τ] : Machine τ where
  engine := Engine.init
  cancelRequested := false
  trace := []

/-- `request_cancel` -/
def requestCancel (m : Machine τ) : Machine τ :=
  { m with cancelRequested := true, trace := m.trace ++ [.cancelRequested] }

variable (env : Environment τ)

/-- Add an entry to the trace; a cancellation may arrive with it. -/
def record (m : Machine τ) (entry : Entry τ) : Machine τ :=
  let m := { m with trace := m.trace ++ [entry] }
  if env.cancels m.trace then m.requestCancel else m

/-- `m_sink` -/
def emit (m : Machine τ) (event : Event τ) : Machine τ := m.record env (.event event)

/-- Change the engine's members. -/
def update (m : Machine τ) (f : Engine τ → Engine τ) : Machine τ := { m with engine := f m.engine }

def reject (m : Machine τ) (command attempt : ByteText) (reason : RejectReason)
    (message : ByteText) (token : Option ByteText) : Machine τ :=
  m.emit env (.rejected { attempt := some attempt, command := command, reason := reason
                          message := message, token := token })

def emitStatus (m : Machine τ) (phase : Phase) : Machine τ :=
  m.emit env (.status
    { attempt := m.engine.attempt, phase := phase
      gloves := if m.engine.pinned = [] then m.engine.lastReportedGloves else m.engine.pinned })

@[simp] theorem requestCancel_engine (m : Machine τ) : m.requestCancel.engine = m.engine := rfl

@[simp] theorem record_engine (m : Machine τ) (entry : Entry τ) :
    (m.record env entry).engine = m.engine := by
  rw [record]
  split
  · rfl
  · rfl

@[simp] theorem emit_engine (m : Machine τ) (event : Event τ) :
    (m.emit env event).engine = m.engine := record_engine env m _

@[simp] theorem emitStatus_engine (m : Machine τ) (phase : Phase) :
    (m.emitStatus env phase).engine = m.engine := record_engine env m _

@[simp] theorem update_engine (m : Machine τ) (f : Engine τ → Engine τ) :
    (m.update f).engine = f m.engine := rfl

/-! ### Terminating -/

/-- The locals of `terminate`. -/
structure Teardown (τ : Type) where
  machine : Machine τ
  released : Bool
  outcome : Outcome
  error : Option ErrorInfo

/-- After a call that releases something: a failed one leaves the gloves held, and fails an
outcome that promised them free. -/
def Teardown.release (t : Teardown τ) (m : Machine τ) (status : SdkStatus) (promised : Bool)
    (error : ErrorInfo) : Teardown τ :=
  if !status.ok && promised then
    { machine := m, released := t.released && status.ok, outcome := .failed, error := some error }
  else { t with machine := m, released := t.released && status.ok }

/-- A calibration left running is stopped; a failed stop is no clean cancellation. -/
def stopCalibrating (t : Teardown τ) : Teardown τ :=
  let m := t.machine
  if m.engine.calibrating then
    let glove := m.engine.glove
    let stopped := env.stop m.trace glove.gloveId
    let m := (m.record env (.stop glove stopped)).update fun e => { e with calibrating := false }
    t.release m stopped (decide (t.outcome = .cancelled))
      { code := .sdkError, message := lit "cannot stop calibration: " ++ stopped.message
        side := some glove.side, step := some m.engine.stepIndex }
  else t

/-- The SDK is shut down; a failed shutdown is neither completed nor cancelled. -/
def shutDown (t : Teardown τ) : Teardown τ :=
  let m := t.machine
  if m.engine.sdkInitialized then
    let down := env.shutdown m.trace
    let m := (m.record env (.shutdown down)).update fun e => { e with sdkInitialized := false }
    t.release m down (decide (t.outcome ≠ .failed))
      { code := .sdkError, message := lit "cannot shut down the SDK: " ++ down.message
        side := none, step := none }
  else t

/-- `terminate` -/
def terminate (m : Machine τ) (outcome : Outcome) (error : Option ErrorInfo) : Machine τ :=
  if m.engine.finished then m
  else
    let m := if m.engine.attempt = [] then m else m.emitStatus env .stopping
    let t := shutDown env (stopCalibrating env
      { machine := m, released := true, outcome := outcome, error := error })
    let m := t.machine.update fun e =>
      { e with state := .finished, finished := true, outcome := t.outcome }
    m.emit env (.result
      { attempt := if m.engine.attempt = [] then none else some m.engine.attempt
        outcome := t.outcome
        files := if t.outcome = .completed then m.engine.exported else []
        error := t.error
        released := t.released })

def fail (m : Machine τ) (code : ErrorCode) (message : ByteText) (side : Option Side)
    (step : Option ℕ) : Machine τ :=
  m.terminate env .failed (some { code := code, message := message, side := side, step := step })

/-- `terminate_if_cancelled` -/
def terminateIfCancelled (m : Machine τ) : Bool × Machine τ :=
  if m.engine.finished || !m.cancelRequested then (m.engine.finished, m)
  else (true, m.terminate env .cancelled none)

/-! ### Gloves -/

def gloveText (side : Side) (id : UInt32) : ByteText :=
  sideName side ++ lit " glove (id " ++ decimal id.toNat ++ lit ")"

/-- Why a pinned glove is not in the landscape, if it is not. -/
def gloveProblem (landscape : List SdkGlove) (pinned : GloveRef) : Option (ErrorCode × ByteText) :=
  match landscape.find? fun g => g.side = pinned.side with
  | none =>
    some (.gloveMissing, gloveText pinned.side pinned.gloveId ++ lit " is no longer connected")
  | some sameSide =>
    if sameSide.id ≠ pinned.gloveId then
      some (.gloveReplaced, sideName pinned.side ++ lit " glove changed from id "
        ++ decimal pinned.gloveId.toNat ++ lit " to id " ++ decimal sameSide.id.toNat)
    else none

/-- `check_gloves` -/
def checkGloves (m : Machine τ) : Bool × Machine τ :=
  let landscape := env.gloves m.trace
  let m := m.record env (.gloves landscape)
  match m.engine.pinned.findSome? fun pinned =>
      (gloveProblem landscape pinned).map fun problem => (pinned, problem) with
  | some (pinned, code, message) =>
    (false, m.fail env code message (some pinned.side)
      (if m.engine.calibrating then some m.engine.stepIndex else none))
  | none => (true, m)

variable [CppDouble τ] (config : EngineConfig τ)

/-- `wire_seconds`: whole milliseconds, at least one. -/
def wireSeconds (seconds : τ) : τ :=
  CppDouble.max milli (div (round (mul seconds thousand)) thousand)

/-- `unusable_step_time` -/
def unusableStepTime (timeS : τ) : ByteText :=
  if isFinite timeS then [] else lit "the SDK reported a non-finite step time"

/-- `offer_prompt` -/
def offerPrompt (m : Machine τ) : Machine τ :=
  let glove := m.engine.glove
  let index := m.engine.stepIndex
  let (read, step) := env.stepData m.trace glove.gloveId index
  let m := m.record env (.stepData glove index read step)
  if !read.ok then
    m.fail env .sdkError (lit "cannot read calibration step data: " ++ read.message)
      (some glove.side) (some index)
  else if unusableStepTime step.timeS ≠ [] then
    m.fail env .stepFailed (unusableStepTime step.timeS) (some glove.side) (some index)
  else
    let promptSeq := (m.engine.promptSeq + 1) % 2 ^ 64
    let continuous := lt step.timeS zero
    let mode := if lt zero step.timeS then StepMode.motion else StepMode.hold
    let durationS := if mode = .motion then wireSeconds step.timeS else zero
    let estimatedS := if continuous then wireSeconds (neg step.timeS) else zero
    let windowContinuous := continuous && decide (config.continuousPacing = .window)
    let m := m.update fun e =>
      { e with
        promptSeq := promptSeq
        currentToken := e.attempt ++ lit "-" ++ decimal promptSeq
        currentMode := mode
        currentDurationS := durationS
        pacingS := if mode = .motion then durationS
          else if windowContinuous then estimatedS else zero
        state := .awaitingStep }
    let m := m.emitStatus env .awaitingStep
    m.emit env (.prompt
      { attempt := m.engine.attempt, token := m.engine.currentToken, side := glove.side
        gloveId := glove.gloveId, index := m.engine.stepIndex, count := m.engine.stepCount
        title := step.title, instruction := step.instruction, mode := mode
        durationS := durationS, continuous := continuous, estimatedS := estimatedS })

/-- The loop of `begin_glove` over the steps from `index` on: read each one, and stop at
the first that cannot be used. -/
def checkSteps (glove : GloveRef) : ℕ → ℕ → Machine τ → Bool × Machine τ
  | 0, _, m => (true, m)
  | remaining + 1, index, m =>
    let (read, step) := env.stepData m.trace glove.gloveId index
    let m := m.record env (.stepData glove index read step)
    if !read.ok then
      (false, m.fail env .sdkError (lit "cannot read calibration step data: " ++ read.message)
        (some glove.side) (some index))
    else if unusableStepTime step.timeS ≠ [] then
      (false, m.fail env .stepFailed (unusableStepTime step.timeS) (some glove.side) (some index))
    else checkSteps glove remaining (index + 1) m

/-- The part of `begin_glove` that starts a glove of `count` steps. -/
def startGlove (m : Machine τ) (glove : GloveRef) (count : UInt32) : Machine τ :=
  let started := env.start m.trace glove.gloveId
  let m := m.record env (.start glove started)
  if !started.ok then
    m.fail env .sdkError (lit "cannot start calibration: " ++ started.message)
      (some glove.side) none
  else
    let m := m.update fun e =>
      { e with calibrating := true, stepCount := count.toNat, stepIndex := 0 }
    match checkSteps env glove count.toNat 0 m with
    | (false, m) => m
    | (true, m) => m.offerPrompt env config

/-- `begin_glove` -/
def beginGlove (m : Machine τ) : Machine τ :=
  let glove := m.engine.glove
  let (counted, count) := env.stepCount m.trace glove.gloveId
  let m := m.record env (.stepCount glove counted count)
  if !counted.ok then
    m.fail env .sdkError (lit "cannot read the calibration step count: " ++ counted.message)
      (some glove.side) none
  else if count = 0 then
    m.fail env .sdkError (lit "the SDK reports no calibration steps") (some glove.side) none
  else m.startGlove env config glove count

/-- The end of `finish_glove`: on to the next glove, or done. -/
def nextGlove (m : Machine τ) : Machine τ :=
  let m := m.update fun e => { e with gloveIndex := e.gloveIndex + 1 }
  if m.engine.gloveIndex < m.engine.pinned.length then
    match m.terminateIfCancelled env with
    | (true, m) => m
    | (false, m) => m.beginGlove env config
  else m.terminate env .completed none

/-- The part of `finish_glove` that writes the exported bytes. -/
def saveGlove (m : Machine τ) (glove : GloveRef) (bytes : List UInt8) : Machine τ :=
  let basename := m.engine.attempt ++ lit "_" ++ sideName glove.side ++ lit ".mcal"
  let error := env.write m.trace m.engine.outDir basename bytes
  let m := m.record env (.write m.engine.outDir basename bytes error)
  match error with
  | some error =>
    m.fail env .exportFailed (lit "cannot save the calibration: " ++ error) (some glove.side) none
  | none =>
    let file : ResultFile :=
      { side := glove.side, file := basename, bytes := bytes.length, sha256 := sha256Hex bytes }
    let m := m.update fun e => { e with exported := e.exported ++ [file] }
    let m := m.emit env (.exported
      { attempt := m.engine.attempt, side := glove.side, gloveId := glove.gloveId
        file := file.file, bytes := file.bytes, sha256 := file.sha256 })
    m.nextGlove env config

/-- The part of `finish_glove` that exports a finished glove. -/
def exportGlove (m : Machine τ) (glove : GloveRef) : Machine τ :=
  let (exported, bytes) := env.exportCalibration m.trace glove.gloveId
  let m := m.record env (.exportCalibration glove exported bytes)
  if !exported.ok then
    m.fail env .exportFailed (lit "cannot export the calibration: " ++ exported.message)
      (some glove.side) none
  else if bytes = [] then
    m.fail env .exportFailed (lit "the SDK exported an empty calibration") (some glove.side) none
  else
    match m.terminateIfCancelled env with
    | (true, m) => m
    | (false, m) => m.saveGlove env config glove bytes

/-- `finish_glove` -/
def finishGlove (m : Machine τ) : Machine τ :=
  let glove := m.engine.glove
  match m.checkGloves env with
  | (false, m) => m
  | (true, m) =>
    let finished := env.finish m.trace glove.gloveId
    let m := m.record env (.finish glove finished)
    if !finished.ok then
      m.fail env .sdkError (lit "cannot finish calibration: " ++ finished.message)
        (some glove.side) none
    else
      let m := m.update fun e => { e with calibrating := false, state := .saving }
      let m := m.emitStatus env .saving
      match m.terminateIfCancelled env with
      | (true, m) => m
      | (false, m) => m.exportGlove env config glove

/-- `step_done` -/
def stepDone (m : Machine τ) : Machine τ :=
  let m := m.update fun e => { e with stepIndex := (e.stepIndex + 1) % 2 ^ 32 }
  if m.engine.stepIndex < m.engine.stepCount then m.offerPrompt env config
  else m.finishGlove env config

/-- The progress report of `advance_capture`. -/
def reportProgress (m : Machine τ) (now elapsed : τ) : Machine τ :=
  (m.update fun e => { e with lastProgressS := now }).emit env (.stepProgress
    { attempt := m.engine.attempt, token := m.engine.currentToken, elapsedS := elapsed })

/-- `advance_capture` -/
def advanceCapture (m : Machine τ) : Machine τ :=
  let now := env.nowS m.trace
  let m := m.record env (.clock now)
  let elapsed := CppDouble.min (CppDouble.max (sub now m.engine.stepStartedS) zero) m.engine.pacingS
  let windowOver := le m.engine.pacingS elapsed
  let m :=
    if windowOver || le config.progressIntervalS (sub now m.engine.lastProgressS) then
      m.reportProgress env now elapsed
    else m
  if windowOver then m.stepDone env config else m

/-- The gloves of the requested sides in a landscape. -/
def foundGloves (landscape : List SdkGlove) (sides : List Side) : List GloveRef :=
  sides.filterMap fun side =>
    (landscape.find? fun g => g.side = side).map fun g => { side := side, gloveId := g.id }

/-- The requested sides without a glove. -/
def missingSides (landscape : List SdkGlove) (sides : List Side) : List Side :=
  sides.filter fun side => (landscape.find? fun g => g.side = side).isNone

/-- Discovery progress is reported only when the set of visible gloves changes. -/
def reportGloves (m : Machine τ) (found : List GloveRef) : Machine τ :=
  if found ≠ m.engine.lastReportedGloves then
    (m.update fun e => { e with lastReportedGloves := found }).emitStatus env .discovering
  else m

/-- The end of `poll_discovery`: all gloves are there, or the time is over. -/
def settleDiscovery (m : Machine τ) (now : τ) (found : List GloveRef) (missing : List Side) :
    Machine τ :=
  let m := m.reportGloves env found
  if m.engine.connected && missing.isEmpty then
    (m.update fun e => { e with pinned := found }).beginGlove env config
  else if le config.discoveryTimeoutS (sub now m.engine.discoveryStartedS) then
    let unseen := m.engine.sides.filter fun side => !found.any fun g => g.side = side
    let names := (lit ", ").intercalate (unseen.map sideName)
    m.fail env .noGloves (lit "no " ++ names ++ lit " glove discovered within "
      ++ signed (toInt config.discoveryTimeoutS) ++ lit " s") none none
  else m

/-- The part of `poll_discovery` after the connection attempt. -/
def discover (m : Machine τ) (now : τ) : Machine τ :=
  if m.engine.connected then
    let landscape := env.gloves m.trace
    let m := m.record env (.gloves landscape)
    m.settleDiscovery env config now (foundGloves landscape m.engine.sides)
      (missingSides landscape m.engine.sides)
  else m.settleDiscovery env config now [] []

/-- `poll_discovery` -/
def pollDiscovery (m : Machine τ) : Machine τ :=
  let now := env.nowS m.trace
  let m := m.record env (.clock now)
  if !m.engine.connected && le config.connectRetryS (sub now m.engine.lastConnectS) then
    let m := m.update fun e => { e with lastConnectS := now }
    let connect := env.connect m.trace
    let m := m.record env (.connect connect)
    if connect.state = .failed then
      m.fail env .sdkInitFailed (lit "cannot connect to the Manus host: " ++ connect.message)
        none none
    else
      (m.update fun e => { e with connected := decide (connect.state = .connected) }).discover env
        config now
  else m.discover env config now

/-! ### Commands -/

/-- The part of `begin_attempt` before the SDK is initialized. -/
def openAttempt (m : Machine τ) (command : StartCommand) : Machine τ :=
  let m := m.update fun e =>
    { e with attempt := command.attempt, sides := command.sides, outDir := command.outDir
             state := .discovering }
  let now := env.nowS m.trace
  let m := (m.record env (.clock now)).update fun e =>
    { e with discoveryStartedS := now, lastConnectS := sub now config.connectRetryS }
  -- set before the call, so that a partially initialized SDK is still shut down
  (m.emitStatus env .discovering).update fun e => { e with sdkInitialized := true }

/-- `begin_attempt` -/
def beginAttempt (m : Machine τ) (command : StartCommand) : Machine τ :=
  if m.engine.state ≠ .idle then
    m.reject env (lit "start") command.attempt .busy (lit "an attempt is already active") none
  else
    let usable := env.directoryUsable m.trace command.outDir
    let m := m.record env (.directoryUsable command.outDir usable)
    if !usable then
      m.reject env (lit "start") command.attempt .invalid
        (lit "out_dir is not a writable directory") none
    else
      let m := m.openAttempt env config command
      let init := env.initializeSdk m.trace
      let m := m.record env (.initializeSdk init)
      if !init.ok then
        m.fail env .sdkInitFailed (lit "Manus SDK initialization failed: " ++ init.message)
          none none
      else m

/-- The part of `handle_confirm` that starts the confirmed step. -/
def startConfirmed (m : Machine τ) (token : ByteText) : Machine τ :=
  let glove := m.engine.glove
  let started := env.startStep m.trace glove.gloveId m.engine.stepIndex
  let m := m.record env (.startStep glove m.engine.stepIndex started)
  if !started.ok then
    m.fail env .stepFailed (lit "the SDK refused to start the step: " ++ started.message)
      (some glove.side) (some m.engine.stepIndex)
  else
    let m := m.update fun e => { e with acceptedTokens := e.acceptedTokens ++ [token] }
    let m := m.emit env (.stepAccepted { attempt := m.engine.attempt, token := token })
    -- a cancellation that arrived while the SDK call ran must not advance or export
    match m.terminateIfCancelled env with
    | (true, m) => m
    | (false, m) =>
      if lt zero m.engine.pacingS then
        let m := m.update fun e => { e with state := .capturingStep }
        let now := env.nowS m.trace
        let m := (m.record env (.clock now)).update fun e =>
          { e with stepStartedS := now, lastProgressS := now }
        let m := m.emitStatus env .capturingStep
        m.emit env (.stepProgress
          { attempt := m.engine.attempt, token := m.engine.currentToken, elapsedS := zero })
      else m.stepDone env config

/-- `handle_confirm` -/
def handleConfirm (m : Machine τ) (command : ConfirmCommand) : Machine τ :=
  if m.engine.state = .idle ∨ command.attempt ≠ m.engine.attempt then
    m.reject env (lit "confirm") command.attempt .unknownAttempt (lit "no such attempt")
      (some command.token)
  else if command.token ∈ m.engine.acceptedTokens then
    -- a repeat is acknowledged again without starting another SDK step
    m.emit env (.stepAccepted { attempt := m.engine.attempt, token := command.token })
  else if m.engine.state ≠ .awaitingStep then
    m.reject env (lit "confirm") command.attempt .unexpected
      (lit "no step is awaiting confirmation") (some command.token)
  else if command.token ≠ m.engine.currentToken then
    m.reject env (lit "confirm") command.attempt .staleToken
      (lit "the token does not match the offered step") (some command.token)
  else
    match m.checkGloves env with
    | (false, m) => m
    | (true, m) => m.startConfirmed env config command.token

/-- `handle_cancel` -/
def handleCancel (m : Machine τ) (command : CancelCommand) : Machine τ :=
  if m.engine.state = .idle ∨ command.attempt ≠ m.engine.attempt then
    m.reject env (lit "cancel") command.attempt .unknownAttempt (lit "no such attempt") none
  else (m.requestCancel.terminateIfCancelled env).2

/-! ### Entry points -/

/-- `handle` -/
def handle (m : Machine τ) (command : Command) : Machine τ :=
  if m.engine.finished then m
  else
    match m.terminateIfCancelled env with
    | (true, m) => m
    | (false, m) =>
      match command with
      | .start command => m.beginAttempt env config command
      | .confirm command => m.handleConfirm env config command
      | .cancel command => m.handleCancel env command

/-- `tick` -/
def tick (m : Machine τ) : Machine τ :=
  if m.engine.finished then m
  else
    match m.terminateIfCancelled env with
    | (true, m) => m
    | (false, m) =>
      match m.engine.state with
      | .discovering => m.pollDiscovery env config
      | .awaitingStep => (m.checkGloves env).2
      | .capturingStep =>
        match m.checkGloves env with
        | (false, m) => m
        | (true, m) => m.advanceCapture env config
      | .idle | .saving | .finished => m

/-- One call of the owner, recorded before it runs. -/
def step (m : Machine τ) (input : Input) : Machine τ :=
  let m := m.record env (.input input)
  match input with
  | .handle command => m.handle env config command
  | .tick => m.tick env config
  | .requestCancel => m.requestCancel

end Machine

/-- The machine after the calls `inputs`, in order. -/
def run {τ : Type} [CppDouble τ] (env : Environment τ) (config : EngineConfig τ)
    (inputs : List Input) : Machine τ :=
  inputs.foldl (Machine.step env config) Machine.init

end Calibration
