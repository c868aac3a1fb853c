/-
One run of the calibration worker, as its supervisor sees it.

A `CalibrationAttempt` collects evidence from the worker's lines, from its process and from
the user, and turns it into one terminal outcome.  Its coroutines share the object and
interleave at their `await`s; the object carries where each of them stands.

* `Attempt.handle`, `Attempt.readEvent` — the reader of the worker's lines;
* `Attempt.confirm`, `Attempt.cancel` — the user;
* `Attempt.decide`, `Attempt.finish` — the outcome.
-/
import IsaacTeleop.StateExcept
import IsaacTeleop.WorkerProtocol

open ByteText PyStr

namespace ManusCalibration

open Calibration (Side Outcome RejectReason)

inductive AttemptState
  | new
  | starting
  | running
  | finishing
  | done
  deriving DecidableEq, Repr

inductive OutcomeKind
  | completed
  | cancelled
  | failed
  | uncertain
  deriving DecidableEq, Repr

/-- Terminal result of an attempt; `files` lists the exported files, only for `completed`. -/
structure CalibrationOutcome where
  kind : OutcomeKind
  attempt : PyStr
  sides : List Side
  message : PyStr
  files : List ExportedFile
  error : Option WorkerError
  exitCode : Option ℤ
  forcedTermination : Bool
  logTail : List PyStr
  deriving DecidableEq, Repr

/-- The launch settings that an attempt reads.  How long a grace period lasts is left to the
scheduler: it may end at any time. -/
structure Settings (φ : Type) where
  executable : PyStr
  outDir : PyStr
  readyTimeoutS : φ
  startupTimeoutS : φ
  confirmTimeoutS : φ
  finishTimeoutS : φ
  logTailLines : ℕ
  /-- `_PROGRESS_SLACK_S` -/
  progressSlackS : φ

/-- The worker process: `returncode` is set once the process is reaped. -/
structure Process where
  pid : ℕ
  returncode : Option ℤ
  deriving DecidableEq, Repr

/-- How a confirmation that was written to the worker ended. -/
inductive ConfirmEnd
  | accepted
  | refused (message : PyStr)
  | attemptEnded
  deriving DecidableEq, Repr

/-- Where the coroutine of `start` stands, with its local `out_dir`. -/
inductive StartPlace
  | notCalled
  | launching (outDir : PyStr)
  | connecting (outDir : PyStr)
  | waitingReady (outDir : PyStr)
  /-- the `start` line is written and `drain` has not returned -/
  | draining
  | ended
  deriving DecidableEq, Repr

/-- Where the task of `_read_events` stands. -/
inductive ReaderPlace
  | notStarted
  | reading
  | ended
  deriving DecidableEq, Repr

/-- Where the task of `_supervise` stands. -/
inductive SupervisePlace
  | notStarted
  /-- for the reader, a cancellation or the result -/
  | waiting
  /-- for the reader, with a timeout -/
  | grace
  /-- for the process to exit by itself -/
  | exiting
  /-- after SIGTERM -/
  | terminating
  /-- after SIGKILL -/
  | killing
  /-- for the other tasks, when the process is stopped -/
  | settling (forced : Bool)
  | ended
  /-- ended by a `CancelledError` -/
  | cancelled
  deriving DecidableEq, Repr

/-- `CalibrationAttempt`.  A confirmation future is named by its token, and a dict over the
sides is a function. -/
structure Attempt (φ : Type) where
  attemptId : PyStr
  state : AttemptState
  sides : List Side
  proc : Option Process
  /-- there is a writer -/
  writer : Bool
  /-- what the writer was given -/
  sent : List ByteText
  tail : List PyStr
  outcome : Option CalibrationOutcome
  ready : Bool
  cancelRequested : Bool
  resultSeen : Bool
  startSent : Bool
  startRejection : Option PyStr
  userCancel : Bool
  abortReason : Option PyStr
  violation : Option PyStr
  deadlineAt : Option φ
  deadlineSpan : φ
  deadlineWhat : PyStr
  unreaped : Bool
  result : Option Result
  exports : Side → Option Exported
  seenTokens : List PyStr
  prompt : Option (Prompt φ)
  pendingConfirm : Option PyStr
  acceptedToken : Option PyStr
  /-- the confirmations that ended -/
  confirmed : List (PyStr × ConfirmEnd)
  /-- the events that the listener was given -/
  notified : List (WorkerEvent φ)
  startAt : StartPlace
  readerAt : ReaderPlace
  superviseAt : SupervisePlace

namespace Attempt

variable {φ : Type}

/-- `__init__` -/
def init [PyFloat φ] (attemptId : PyStr) : Attempt φ where
  attemptId := attemptId
  state := .new
  sides := []
  proc := none
  writer := false
  sent := []
  tail := []
  outcome := none
  ready := false
  cancelRequested := false
  resultSeen := false
  startSent := false
  startRejection := none
  userCancel := false
  abortReason := none
  violation := none
  deadlineAt := none
  deadlineSpan := PyFloat.zero
  deadlineWhat := []
  unreaped := false
  result := none
  exports := fun _ => none
  seenTokens := []
  prompt := none
  pendingConfirm := none
  acceptedToken := none
  confirmed := []
  notified := []
  startAt := .notCalled
  readerAt := .notStarted
  superviseAt := .notStarted

/-- `_send`; the transport may be closing. -/
def send (a : Attempt φ) (closing : Bool) (line : ByteText) : Attempt φ :=
  if !a.writer || closing then a else { a with sent := a.sent ++ [line] }

/-- `_abort` -/
def abort (a : Attempt φ) (reason : PyStr) : Attempt φ :=
  { a with abortReason := a.abortReason.or (some reason), cancelRequested := true }

/-- `_violate` -/
def violate (a : Attempt φ) (message : PyStr) : Attempt φ :=
  { a with violation := a.violation.or (some message) }.abort
    (ofString "protocol violation: " ++ message)

/-- `_expect` -/
def expect [PyFloat φ] (a : Attempt φ) (now : φ) (what : PyStr) (span : φ) : Attempt φ :=
  { a with deadlineWhat := what, deadlineSpan := span, deadlineAt := some (PyFloat.add now span) }

/-- `_touch` -/
def touch [PyFloat φ] (a : Attempt φ) (now : φ) : Attempt φ :=
  { a with deadlineAt := a.deadlineAt.map fun _ => PyFloat.add now a.deadlineSpan }

/-! ### The worker's events -/

/-- `_handle` and what it calls: a `ProtocolError` leaves the changes made before it. -/
abbrev Handling (φ α : Type) := Fallible (Attempt φ) PyStr α

open Fallible (raise modify)

/-- `type(event).__name__` -/
def eventName : WorkerEvent φ → PyStr
  | .ready _ => ofString "Ready"
  | .status _ => ofString "Status"
  | .prompt _ => ofString "Prompt"
  | .stepAccepted _ => ofString "StepAccepted"
  | .stepProgress _ => ofString "StepProgress"
  | .rejected _ => ofString "Rejected"
  | .exported _ => ofString "Exported"
  | .result _ => ofString "Result"

/-- `getattr(event, "attempt", default)` -/
def eventAttempt (default : PyStr) : WorkerEvent φ → Option PyStr
  | .ready _ => some default
  | .status e => some e.attempt
  | .prompt e => some e.attempt
  | .stepAccepted e => some e.attempt
  | .stepProgress e => some e.attempt
  | .rejected e => e.attempt
  | .exported e => some e.attempt
  | .result e => e.attempt

/-- `reason.value` -/
def reasonValue (reason : RejectReason) : PyStr :=
  ofString (((rejectReasons.find? fun m => m.2 = reason).map Prod.fst).getD "")

/-- `side.value` -/
def sideValue : Side → PyStr := Calibration.sideValue

/-- `outcome.value` -/
def outcomeValue (outcome : Outcome) : PyStr :=
  ofString (((outcomes.find? fun m => m.2 = outcome).map Prod.fst).getD "")

/-- `_is_idle_cancel_result` -/
def isIdleCancelResult (a : Attempt φ) : WorkerEvent φ → Bool
  | .result e => a.userCancel && e.attempt = none && e.outcome = .cancelled
  | _ => false

/-- `_on_prompt` -/
def onPrompt (prompt : Prompt φ) : Handling φ Unit := do
  let a ← Fallible.read
  if ∃ p, a.prompt = some p ∧ a.acceptedToken ≠ some p.token then
    raise (ofString "prompt offered while the previous one is unconfirmed")
  else if prompt.token ∈ a.seenTokens then raise (ofString "prompt token reused")
  else if prompt.side ∉ a.sides then
    raise (ofString "prompt for a side that was not requested")
  else
    modify fun a =>
      { a with seenTokens := prompt.token :: a.seenTokens, prompt := some prompt
               deadlineAt := none }

/-- `_on_accepted` -/
def onAccepted [PyFloat φ] (settings : Settings φ) (now : φ) (accepted : StepAccepted) :
    Handling φ Unit := do
  let a ← Fallible.read
  if a.pendingConfirm ≠ some accepted.token then
    raise (ofString "step accepted without a matching confirmation")
  else
    modify fun a =>
      let window := (a.prompt.map Prompt.pacingS).getD PyFloat.zero
      { a with pendingConfirm := none, acceptedToken := some accepted.token
               confirmed := a.confirmed ++ [(accepted.token, ConfirmEnd.accepted)] }.expect now
        (ofString "the next step or the result") (PyFloat.add settings.finishTimeoutS window)

/-- `_on_progress` -/
def onProgress [PyFloat φ] (settings : Settings φ) (progress : StepProgress φ) :
    Handling φ Unit := do
  let a ← Fallible.read
  match a.prompt with
  | none => raise (ofString "progress for a step that is not running")
  | some prompt =>
    if progress.token ≠ prompt.token ∨ a.acceptedToken ≠ some prompt.token then
      raise (ofString "progress for a step that is not running")
    else if PyFloat.lt (PyFloat.add prompt.pacingS settings.progressSlackS) progress.elapsedS then
      raise (ofString "progress exceeds the step duration")
    else pure ()

/-- `_on_rejected` -/
def onRejected (rejected : Rejected) : Handling φ Unit :=
  let text := reasonValue rejected.reason ++ ofString ": " ++ rejected.message
  modify fun a =>
    if rejected.command = ofString "start" then
      { a with startRejection := some text }.abort
        (ofString "the worker rejected start (" ++ text ++ ofString ")")
    else
      match a.pendingConfirm with
      | none => a
      | some pending =>
        if rejected.command = ofString "confirm" ∧
            (rejected.token = none ∨ rejected.token = some pending) then
          { a with pendingConfirm := none, deadlineAt := none
                   confirmed := a.confirmed ++ [(pending, ConfirmEnd.refused text)] }
        else a

/-- `_on_exported` -/
def onExported (exported : Exported) : Handling φ Unit := do
  let a ← Fallible.read
  if exported.side ∉ a.sides ∨ (a.exports exported.side).isSome then
    raise (ofString "unexpected export for the " ++ sideValue exported.side ++ ofString " side")
  else
    modify fun a => { a with exports := Function.update a.exports exported.side (some exported) }

/-- The checks of `_handle` before the event is recorded. -/
def checkOrder (event : WorkerEvent φ) : Handling φ Unit := do
  let a ← Fallible.read
  if a.ready = false then
    match event with
    | .ready _ => modify fun a => { a with ready := true }
    | event => raise (ofString "expected ready first, got " ++ eventName event)
  else
    match event with
    | .ready _ => raise (ofString "ready sent twice")
    | event =>
      if a.startSent = false ∧ a.isIdleCancelResult event = false then
        raise (eventName event ++ ofString " before the attempt was started")
      else pure ()

/-- The rest of `_handle`, up to the listener. -/
def recordEvent [PyFloat φ] (settings : Settings φ) (now : φ) :
    WorkerEvent φ → Handling φ Unit
  | .ready _ => pure ()
  | .status _ => pure ()
  | .prompt event => onPrompt event
  | .stepAccepted event => onAccepted settings now event
  | .stepProgress event => onProgress settings event
  | .rejected event => onRejected event
  | .exported event => onExported event
  | .result event =>
    modify fun a => { a with deadlineAt := none, result := some event, resultSeen := true }

/-- `_handle`; the attempt ids are plain text, so that `repr` only quotes them. -/
def handle [PyFloat φ] (settings : Settings φ) (now : φ) (event : WorkerEvent φ) :
    Handling φ Unit := do
  checkOrder event
  let a ← Fallible.read
  match eventAttempt a.attemptId event with
  | some attempt =>
    if attempt ≠ a.attemptId then
      raise (ofString "event for attempt '" ++ attempt ++ ofString "', expected '" ++ a.attemptId
        ++ ofString "'")
    else pure ()
  | none => pure ()
  modify fun a => a.touch now
  recordEvent settings now event
  modify fun a => { a with notified := a.notified ++ [event] }

/-- What `readline` gives. -/
inductive ReadLine
  /-- a line, with its newline unless the stream ended; empty at the end -/
  | line (bytes : ByteText)
  | tooLong
  | connectionError
  deriving DecidableEq, Repr

/-- The reader stops at a violation. -/
def stopReading (a : Attempt φ) (violation : PyStr) : Attempt φ :=
  { a.violate violation with readerAt := .ended }

/-- One turn of `_read_events`. -/
def readEvent [PyFloat φ] (settings : Settings φ) (texts : PyTexts φ) (now : φ)
    (a : Attempt φ) : ReadLine → Attempt φ
  | .tooLong => a.stopReading (ofString "worker line exceeds 65536 bytes")
  | .connectionError => { a with readerAt := .ended }
  | .line line =>
    if line = [] then { a with readerAt := .ended }
    else if line.getLast? ≠ some (byte '\n') then
      a.stopReading (ofString "worker line is not newline-terminated")
    else if a.result.isSome then
      a.stopReading (ofString "worker sent a message after its result")
    else
      match parseEvent texts line.dropLast with
      | .error (.protocolError message) => a.stopReading message
      -- no handler: the task ends with the exception
      | .error .overflowError => { a with readerAt := .ended }
      | .ok event =>
        match handle settings now event a with
        | (.ok (), a) => a
        | (.error message, a) => a.stopReading message

/-! ### Finishing -/

/-- A turn of a coroutine: the attempt after it, the reason for which it closes the owner to
new attempts, and whether it removes the attempt's files. -/
structure Turn (φ : Type) where
  attempt : Attempt φ
  latch : Option PyStr
  removes : Bool

/-- A turn that touches nothing but the attempt. -/
def only (a : Attempt φ) : Turn φ := ⟨a, none, false⟩

/-- `_outcome_of` -/
def outcomeOf (a : Attempt φ) (kind : OutcomeKind) (message : PyStr) (code : Option ℤ)
    (forced : Bool) (error : Option WorkerError) (files : List ExportedFile) :
    CalibrationOutcome where
  kind := kind
  attempt := a.attemptId
  sides := a.sides
  message := message
  files := files
  error := error
  exitCode := code
  forcedTermination := forced
  logTail := a.tail

/-- A `CalibrationOutcome` with its defaults. -/
def bareOutcome (a : Attempt φ) (kind : OutcomeKind) (message : PyStr) : CalibrationOutcome where
  kind := kind
  attempt := a.attemptId
  sides := a.sides
  message := message
  files := []
  error := none
  exitCode := none
  forcedTermination := false
  logTail := []

/-- `_finish` -/
def finish (a : Attempt φ) (outcome : CalibrationOutcome) : Turn φ :=
  if a.outcome.isSome then a.only
  else
    { attempt :=
        { a with
          state := .done, prompt := none, pendingConfirm := none, outcome := some outcome
          confirmed := a.confirmed ++ (a.pendingConfirm.map fun t => (t, .attemptEnded)).toList }
      latch := none
      removes := outcome.kind ≠ .completed && !a.unreaped }

/-- A `WorkerError` with a code and a message only. -/
def workerError (code : String) (message : PyStr) : WorkerError :=
  { code := ofString code, message := message, side := none, step := none }

/-- `str` of a return code -/
def codeText : Option ℤ → PyStr
  | none => ofString "None"
  | some (.ofNat n) => ofString (toString n)
  | some (.negSucc n) => ofString ("-" ++ toString (n + 1))

/-- `{f.side: f for f in files}`: the last file of a side stays. -/
def filesBySide (files : List ExportedFile) (side : Side) : Option ExportedFile :=
  files.reverse.find? fun f => f.side = side

/-- The file of an export. -/
def exportedFileOf (e : Exported) (side : Side) : ExportedFile :=
  { side := side, file := e.file, bytes := e.bytes, sha256 := e.sha256 }

/-- `exported` in `_completed` -/
def exportsBySide (a : Attempt φ) (side : Side) : Option ExportedFile :=
  (a.exports side).map fun e => exportedFileOf e side

/-- The files match: the two dicts are equal, and their keys are the requested sides. -/
def filesMatch (a : Attempt φ) (result : Result) : Bool :=
  [Side.left, Side.right].all fun side =>
    filesBySide result.files side = a.exportsBySide side
      && (filesBySide result.files side).isSome = decide (side ∈ a.sides)

/-- `_completed` -/
def completed (a : Attempt φ) (result : Result) (code : Option ℤ) (forced : Bool) :
    CalibrationOutcome :=
  if a.filesMatch result then
    a.outcomeOf .completed (ofString "calibration saved") code forced none
      (a.sides.filterMap a.exportsBySide)
  else
    a.outcomeOf .uncertain
      (ofString "worker's completed result does not match the files it exported") code forced
      (some (workerError "protocol_error" (ofString "result files differ from exported files"))) []

/-- The branches of `_decide` for a worker that ended without a result. -/
def decideWithoutResult (a : Attempt φ) (code : Option ℤ) (forced : Bool) :
    CalibrationOutcome :=
  if a.startSent then
    let reason := a.abortReason.getD
      (ofString "worker ended without reporting a result (exit code " ++ codeText code ++
        ofString ")")
    a.outcomeOf .uncertain
      (reason ++ ofString "; the worker was stopped and its SDK state is unknown") code forced
      (some (workerError "worker_exit" (ofString "no result; exit code " ++ codeText code))) []
  else if a.userCancel then
    a.outcomeOf .cancelled (ofString "cancelled before the worker started") code forced none []
  else
    a.outcomeOf .failed
      (a.abortReason.getD
        (ofString "worker exited before it was started (exit code " ++ codeText code ++
          ofString ")"))
      code forced
      (some (workerError "worker_exit"
        (a.abortReason.getD (ofString "worker exited before start")))) []

/-- The branches of `_decide` for a worker that released the SDK and reported a result. -/
def decideWithResult (a : Attempt φ) (result : Result) (code : Option ℤ) (forced : Bool) :
    CalibrationOutcome :=
  if forced then
    a.outcomeOf .uncertain
      (ofString "worker reported " ++ outcomeValue result.outcome ++
        ofString " but had to be terminated afterwards") code forced none []
  else if result.outcome = .failed then
    match result.error with
    | some error => a.outcomeOf .failed error.message code forced (some error) []
    -- the assertion fails, and `_finalize` catches it
    | none =>
      a.outcomeOf .uncertain (ofString "internal error finishing the attempt: ") code forced
        none []
  else if code ≠ some 0 then
    a.outcomeOf .uncertain
      (ofString "worker reported " ++ outcomeValue result.outcome ++
        ofString " but exited with code " ++ codeText code) code forced none []
  else if result.outcome = .cancelled then
    a.outcomeOf .cancelled (ofString "cancelled") code forced none []
  else a.completed result code forced

/-- The result says that the SDK was not released. -/
def unreleasedResult (a : Attempt φ) : Option Result := a.result.filter fun r => !r.released

def unreapedMessage (a : Attempt φ) : PyStr :=
  ofString "the worker (pid " ++
    (a.proc.elim (ofString "?") fun proc => ofString (toString proc.pid)) ++
    ofString ") could not be stopped and may still be using the gloves; " ++
    ofString "restart this program once it has exited"

def unreleasedMessage (result : Result) : PyStr :=
  ofString "the worker could not release the SDK" ++
    (result.error.elim [] fun error => ofString ": " ++ error.message) ++
    ofString "; restart this program once the gloves are known " ++ ofString "to be free"

/-- `_decide`: the outcome, and what it stores in `owner.unreleased`. -/
def decide (a : Attempt φ) (code : Option ℤ) (forced : Bool) :
    CalibrationOutcome × Option PyStr :=
  if a.unreaped then
    let message := a.unreapedMessage
    (a.outcomeOf .uncertain message code forced (some (workerError "worker_unreaped" message)) [],
      some message)
  else
    match a.startRejection with
    | some rejection =>
      (a.outcomeOf .failed (ofString "the worker rejected start: " ++ rejection) code forced
        (some (workerError "start_rejected" rejection)) [], none)
    | none =>
      match a.unreleasedResult with
      | some result =>
        let message := unreleasedMessage result
        (a.outcomeOf .uncertain message code forced
          (some (workerError "worker_unreleased" message)) [], some message)
      | none =>
        match a.violation with
        | some violation =>
          -- before the start the worker has not opened the SDK
          (a.outcomeOf (if a.startSent then .uncertain else .failed)
            (ofString "worker broke the protocol (" ++ violation ++ ofString ")") code forced
            (some (workerError "protocol_error" violation)) [], none)
        | none =>
          match a.result with
          | none => (a.decideWithoutResult code forced, none)
          | some result => (a.decideWithResult result code forced, none)

/-- `_finalize` -/
def finalize (a : Attempt φ) (forced : Bool) : Turn φ :=
  let decision := a.decide (a.proc.bind Process.returncode) forced
  { a.finish decision.1 with latch := decision.2 }

/-! ### The user -/

/-- `confirm`, up to its first `await`: what reaches the worker. -/
def confirm [PyFloat φ] (settings : Settings φ) (a : Attempt φ) (token : PyStr) (now : φ)
    (closing : Bool) : Attempt φ :=
  if a.acceptedToken = some token ∨ a.pendingConfirm = some token then a
  else if a.state ≠ .running then a
  else if (a.prompt.map Prompt.token) ≠ some token ∨ a.pendingConfirm.isSome then a
  else
    ({ a with pendingConfirm := some token }.expect now (ofString "the SDK to start the step")
      settings.confirmTimeoutS).send closing (Calibration.encodeConfirm a.attemptId token)

/-- `cancel` -/
def cancel (a : Attempt φ) (closing : Bool) : Turn φ :=
  if a.state = .done ∨ a.cancelRequested then a.only
  else if a.state = .new then
    a.finish (a.bareOutcome .cancelled (ofString "cancelled before start"))
  else
    let a := { a with userCancel := true, deadlineAt := none, cancelRequested := true }
    if a.startSent then (a.send closing (Calibration.encodeCancel a.attemptId)).only
    else (a.abort (ofString "cancelled before the worker was started")).only

end Attempt

end ManusCalibration
