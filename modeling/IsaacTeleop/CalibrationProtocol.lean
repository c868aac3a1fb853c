/-
The messages between the calibration worker and its supervisor.

* `StartCommand` — carries its sides in processing order;
* `Command`, `Event` — what the worker reads and writes.
-/
import IsaacTeleop.ByteText

open ByteText

namespace Calibration

inductive Side
  | left
  | right
  deriving DecidableEq, Repr

/-- `side_name` -/
def sideName : Side → ByteText
  | .left => lit "left"
  | .right => lit "right"

/-- A start command as the parser builds it: at least one side, left before right. -/
structure StartCommand where
  attempt : ByteText
  sides : List Side
  outDir : ByteText
  sides_ne_nil : sides ≠ []
  sides_ordered : sides.Pairwise fun a b => a = .left ∧ b = .right
  deriving DecidableEq

structure ConfirmCommand where
  attempt : ByteText
  token : ByteText
  deriving DecidableEq, Repr

structure CancelCommand where
  attempt : ByteText
  deriving DecidableEq, Repr

inductive Command
  | start (command : StartCommand)
  | confirm (command : ConfirmCommand)
  | cancel (command : CancelCommand)
  deriving DecidableEq

inductive RejectReason
  | invalid
  | unknownAttempt
  | staleToken
  | unexpected
  | busy
  deriving DecidableEq, Repr

inductive Phase
  | discovering
  | awaitingStep
  | capturingStep
  | saving
  | stopping
  deriving DecidableEq, Repr

inductive StepMode
  | hold
  | motion
  deriving DecidableEq, Repr

inductive Outcome
  | completed
  | cancelled
  | failed
  deriving DecidableEq, Repr

inductive ErrorCode
  | sdkInitFailed
  | noGloves
  | gloveMissing
  | gloveReplaced
  | sdkError
  | stepFailed
  | exportFailed
  | protocolError
  | internal
  deriving DecidableEq, Repr

structure GloveRef where
  side : Side
  gloveId : UInt32
  deriving DecidableEq, Repr

instance : Inhabited GloveRef := ⟨⟨.left, 0⟩⟩

structure ReadyEvent where
  workerVersion : ByteText
  sdkVersion : Option ByteText
  deriving DecidableEq, Repr

structure StatusEvent where
  attempt : ByteText
  phase : Phase
  gloves : List GloveRef
  deriving DecidableEq, Repr

/-- A prompt; `τ` is the type of seconds. -/
structure PromptEvent (τ : Type) where
  attempt : ByteText
  token : ByteText
  side : Side
  gloveId : UInt32
  index : ℕ
  count : ℕ
  title : ByteText
  instruction : ByteText
  mode : StepMode
  durationS : τ
  continuous : Bool
  estimatedS : τ
  deriving DecidableEq, Repr

structure StepAcceptedEvent where
  attempt : ByteText
  token : ByteText
  deriving DecidableEq, Repr

structure StepProgressEvent (τ : Type) where
  attempt : ByteText
  token : ByteText
  elapsedS : τ
  deriving DecidableEq, Repr

structure RejectedEvent where
  attempt : Option ByteText
  command : ByteText
  reason : RejectReason
  message : ByteText
  token : Option ByteText
  deriving DecidableEq, Repr

structure ExportedEvent where
  attempt : ByteText
  side : Side
  gloveId : UInt32
  file : ByteText
  bytes : ℕ
  sha256 : ByteText
  deriving DecidableEq, Repr

structure ResultFile where
  side : Side
  file : ByteText
  bytes : ℕ
  sha256 : ByteText
  deriving DecidableEq, Repr

structure ErrorInfo where
  code : ErrorCode
  message : ByteText
  side : Option Side
  step : Option ℕ
  deriving DecidableEq, Repr

structure ResultEvent where
  attempt : Option ByteText
  outcome : Outcome
  files : List ResultFile
  error : Option ErrorInfo
  released : Bool
  deriving DecidableEq, Repr

inductive Event (τ : Type)
  | ready (event : ReadyEvent)
  | status (event : StatusEvent)
  | prompt (event : PromptEvent τ)
  | stepAccepted (event : StepAcceptedEvent)
  | stepProgress (event : StepProgressEvent τ)
  | rejected (event : RejectedEvent)
  | exported (event : ExportedEvent)
  | result (event : ResultEvent)
  deriving DecidableEq, Repr

end Calibration
