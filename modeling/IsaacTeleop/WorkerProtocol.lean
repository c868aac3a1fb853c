/-
The supervisor's side of the worker protocol, in Python.

`parseEvent` reads one line of the worker into its typed event, and raises `ProtocolError` for
any line that is not exactly a documented message.

* `WorkerEvent` — the typed events;
* `parseEvent` — one line;
* `parseEvent_error_of_failed` — only a failed result carries an error, and always one.
-/
import IsaacTeleop.CalibrationCommands
import IsaacTeleop.PythonJson

open ByteText PyStr

namespace ManusCalibration

open Calibration (Side Phase StepMode Outcome RejectReason)

def protocolVersion : ℤ := 1
def maxLineBytes : ℕ := 65536

/-! ### Typed events -/

structure Glove where
  side : Side
  gloveId : ℕ
  deriving DecidableEq, Repr

/-- One MCAL file as the worker reports it: its basename, size and SHA-256. -/
structure ExportedFile where
  side : Side
  file : PyStr
  bytes : ℕ
  sha256 : PyStr
  deriving DecidableEq, Repr

structure WorkerError where
  code : PyStr
  message : PyStr
  side : Option Side
  step : Option ℕ
  deriving DecidableEq, Repr

structure Ready where
  workerVersion : PyStr
  sdkVersion : Option PyStr
  deriving DecidableEq, Repr

structure Status where
  attempt : PyStr
  phase : Phase
  gloves : List Glove
  deriving DecidableEq, Repr

structure Prompt (φ : Type) where
  attempt : PyStr
  token : PyStr
  side : Side
  gloveId : ℕ
  index : ℕ
  count : ℕ
  title : PyStr
  instruction : PyStr
  mode : StepMode
  durationS : φ
  continuous : Bool
  estimatedS : φ
  deriving DecidableEq, Repr

/-- `pacing_s` -/
def Prompt.pacingS {φ : Type} (prompt : Prompt φ) : φ :=
  if prompt.continuous then prompt.estimatedS else prompt.durationS

structure StepAccepted where
  attempt : PyStr
  token : PyStr
  deriving DecidableEq, Repr

structure StepProgress (φ : Type) where
  attempt : PyStr
  token : PyStr
  elapsedS : φ
  deriving DecidableEq, Repr

structure Rejected where
  attempt : Option PyStr
  command : PyStr
  reason : RejectReason
  message : PyStr
  token : Option PyStr
  deriving DecidableEq, Repr

structure Exported where
  attempt : PyStr
  side : Side
  gloveId : ℕ
  file : PyStr
  bytes : ℕ
  sha256 : PyStr
  deriving DecidableEq, Repr

structure Result where
  attempt : Option PyStr
  outcome : Outcome
  files : List ExportedFile
  error : Option WorkerError
  released : Bool
  deriving DecidableEq, Repr

inductive WorkerEvent (φ : Type)
  | ready (event : Ready)
  | status (event : Status)
  | prompt (event : Prompt φ)
  | stepAccepted (event : StepAccepted)
  | stepProgress (event : StepProgress φ)
  | rejected (event : Rejected)
  | exported (event : Exported)
  | result (event : Result)
  deriving DecidableEq, Repr

/-! ### Enumerations -/

/-- The members of an enumeration with their values. -/
abbrev EnumTable (α : Type) := List (String × α)

def sides : EnumTable Side := [("left", .left), ("right", .right)]

def phases : EnumTable Phase :=
  [("discovering", .discovering), ("awaiting_step", .awaitingStep),
    ("capturing_step", .capturingStep), ("saving", .saving), ("stopping", .stopping)]

def stepModes : EnumTable StepMode := [("hold", .hold), ("motion", .motion)]

def outcomes : EnumTable Outcome :=
  [("completed", .completed), ("cancelled", .cancelled), ("failed", .failed)]

def rejectReasons : EnumTable RejectReason :=
  [("invalid", .invalid), ("unknown_attempt", .unknownAttempt), ("stale_token", .staleToken),
    ("unexpected", .unexpected), ("busy", .busy)]

def errorCodes : List String :=
  ["sdk_init_failed", "no_gloves", "glove_missing", "glove_replaced", "sdk_error", "step_failed",
    "export_failed", "protocol_error", "internal"]

/-! ### Validation -/

/-- The texts that the interpreter writes: of its exceptions, and the `repr` of values. -/
structure PyTexts (φ : Type) where
  jsonError : PyStr → PyStr
  utf8Error : ByteText → PyStr
  repr : PyJson φ → PyStr
  /-- `repr` of the sorted list of some names -/
  reprNames : List PyStr → PyStr
  /-- the `:g` format -/
  formatG : φ → PyStr

/-- What ends a call early: a `ProtocolError`, or an exception that the supervisor does not
expect there. -/
inductive Raised
  | protocolError (message : PyStr)
  | overflowError
  deriving DecidableEq, Repr

abbrev Members (φ : Type) := List (PyStr × PyJson φ)

variable {φ : Type} {α : Type}

/-- `_fail` -/
def fail (context : PyStr) (problem : PyStr) : Except Raised α :=
  .error (.protocolError (context ++ ofString ": " ++ problem))

/-- `data[key]`; the key is present wherever it is read. -/
def item (data : Members φ) (key : String) : PyJson φ := (data.lookup (ofString key)).getD .null

def hasKey (data : Members φ) (key : String) : Bool := (data.lookup (ofString key)).isSome

/-- `_keys` -/
def keys (texts : PyTexts φ) (data : Members φ) (required optional : List String)
    (context : PyStr) : Except Raised Unit :=
  let present := data.map Prod.fst
  let missing := (required.map ofString).filter (· ∉ present)
  let unknown := present.filter (· ∉ (required ++ optional).map ofString)
  if missing ≠ [] then fail context (ofString "missing key(s) " ++ texts.reprNames missing)
  else if unknown ≠ [] then fail context (ofString "unknown key(s) " ++ texts.reprNames unknown)
  else .ok ()

/-- `_str` -/
def str (data : Members φ) (key : String) (context : PyStr) (nonempty : Bool) :
    Except Raised PyStr :=
  let problem := ofString key ++ ofString " must be " ++
    ofString (if nonempty then "a nonempty " else "a ") ++ ofString "string"
  match item data key with
  | .str value => if nonempty ∧ value = [] then fail context problem else .ok value
  | _ => fail context problem

/-- `_opt_str` -/
def optStr (data : Members φ) (key : String) (context : PyStr) :
    Except Raised (Option PyStr) :=
  match item data key with
  | .null => .ok none
  | _ => (str data key context false).map some

/-- `_uint`; a boolean is no `int` here. -/
def uint (data : Members φ) (key : String) (context : PyStr) : Except Raised ℕ :=
  match item data key with
  | .int (.ofNat value) => .ok value
  | _ => fail context (ofString key ++ ofString " must be a nonnegative integer")

/-- `_seconds`; `math.isfinite` converts an `int`, which may overflow. -/
def seconds [PyFloat φ] (data : Members φ) (key : String) (context : PyStr) :
    Except Raised φ :=
  let check (value : φ) : Except Raised φ :=
    if PyFloat.isFinite value = false ∨ PyFloat.lt value PyFloat.zero then
      fail context (ofString key ++ ofString " must be a finite nonnegative number")
    else .ok value
  match item data key with
  | .float value => check value
  | .int value =>
    match PyFloat.ofInt value with
    | some value => check value
    | none => .error .overflowError
  | _ => fail context (ofString key ++ ofString " must be a finite nonnegative number")

/-- The member of an enumeration with a value. -/
def enumMember (table : EnumTable α) (value : PyJson φ) : Option α :=
  match value with
  | .str s => (table.find? fun m => ofString m.1 = s).map Prod.snd
  | _ => none

/-- `_enum` -/
def enum (texts : PyTexts φ) (table : EnumTable α) (value : PyJson φ) (context : PyStr) :
    Except Raised α :=
  match enumMember table value with
  | some member => .ok member
  | none => fail context (texts.repr value ++ ofString " is not one of " ++
      texts.repr (.list (table.map fun m => .str (ofString m.1))))

/-- `_attempt`, which must be a string -/
def attempt (data : Members φ) (context : PyStr) : Except Raised PyStr :=
  let problem := ofString "attempt must be 1-64 characters of [A-Za-z0-9_-]"
  match item data "attempt" with
  | .str value => if Calibration.attemptMatches value then .ok value else fail context problem
  | _ => fail context problem

/-- `_attempt` with `nullable` -/
def attemptOrNone (data : Members φ) (context : PyStr) : Except Raised (Option PyStr) :=
  match item data "attempt" with
  | .null => .ok none
  | _ => (attempt data context).map some

def isAsciiAlnum (c : ℕ) : Bool :=
  (ch 'A' ≤ c && c ≤ ch 'Z') || (ch 'a' ≤ c && c ≤ ch 'z') || (ch '0' ≤ c && c ≤ ch '9')

/-- `_FILE_RE.fullmatch` -/
def fileMatches : PyStr → Bool
  | [] => false
  | c :: rest =>
    isAsciiAlnum c && rest.length ≤ 127 &&
      rest.all fun c => isAsciiAlnum c || c = ch '_' || c = ch '.' || c = ch '-'

/-- `_SHA256_RE.fullmatch` -/
def shaMatches (value : PyStr) : Bool :=
  value.length = 64 &&
    value.all fun c => (ch '0' ≤ c && c ≤ ch '9') || (ch 'a' ≤ c && c ≤ ch 'f')

/-- `_file_name` -/
def fileName (texts : PyTexts φ) (value : PyJson φ) (context : PyStr) : Except Raised PyStr :=
  let problem := ofString "file must be a plain basename, got " ++ texts.repr value
  match value with
  | .str s =>
    if fileMatches s ∧ ¬ [ch '.', ch '.'] <:+: s then .ok s else fail context problem
  | _ => fail context problem

/-- `_sha` -/
def sha (value : PyJson φ) (context : PyStr) : Except Raised PyStr :=
  let problem := ofString "sha256 must be 64 lowercase hex characters"
  match value with
  | .str s => if shaMatches s then .ok s else fail context problem
  | _ => fail context problem

/-- One item of `gloves`. -/
def glove (texts : PyTexts φ) (value : PyJson φ) (context : PyStr) : Except Raised Glove :=
  match value with
  | .dict item => do
    let context := context ++ ofString ".gloves[]"
    keys texts item ["side", "glove_id"] [] context
    let side ← enum texts sides (ManusCalibration.item item "side") (context ++ ofString ".side")
    let gloveId ← uint item "glove_id" context
    return { side, gloveId }
  | _ => fail context (ofString "each glove must be an object")

/-- `_gloves` -/
def gloves (texts : PyTexts φ) (value : PyJson φ) (context : PyStr) :
    Except Raised (List Glove) :=
  match value with
  | .list items => do
    let gloves ← items.mapM fun item => glove texts item context
    if (gloves.map Glove.side).Nodup then return gloves
    else fail context (ofString "gloves lists a side twice")
  | _ => fail context (ofString "gloves must be an array")

/-- One item of `files`. -/
def exportedFile (texts : PyTexts φ) (value : PyJson φ) (context : PyStr) :
    Except Raised ExportedFile :=
  match value with
  | .dict item => do
    let context := context ++ ofString ".files[]"
    keys texts item ["side", "file", "bytes", "sha256"] [] context
    let side ← enum texts sides (ManusCalibration.item item "side") (context ++ ofString ".side")
    let file ← fileName texts (ManusCalibration.item item "file") context
    let bytes ← uint item "bytes" context
    let sha256 ← sha (ManusCalibration.item item "sha256") context
    return { side, file, bytes, sha256 }
  | _ => fail context (ofString "each file must be an object")

/-- `_exported_files`, with no check that a side is listed once. -/
def exportedFiles (texts : PyTexts φ) (value : PyJson φ) (context : PyStr) :
    Except Raised (List ExportedFile) :=
  match value with
  | .list items => items.mapM fun item => exportedFile texts item context
  | _ => fail context (ofString "files must be an array")

/-- `_error` -/
def error (texts : PyTexts φ) (value : PyJson φ) (context : PyStr) :
    Except Raised WorkerError :=
  match value with
  | .dict data => do
    keys texts data ["code", "message"] ["side", "step"] (context ++ ofString ".error")
    let code ← match item data "code" with
      | .str code =>
        if code ∈ errorCodes.map ofString then .ok code
        else fail context (ofString "unknown error code " ++ texts.repr (.str code))
      | code => fail context (ofString "unknown error code " ++ texts.repr code)
    let step ← match item data "step" with
      | .null => .ok none
      | .int (.ofNat step) => .ok (some step)
      | _ => fail context (ofString "error.step must be a nonnegative integer")
    let message ← str data "message" (context ++ ofString ".error") false
    let side ← match item data "side" with
      | .null => .ok none
      | side => (enum texts sides side (context ++ ofString ".error.side")).map some
    return { code, message, side, step }
  | _ => fail context (ofString "error must be an object")

/-! ### The messages -/

variable [PyFloat φ] (texts : PyTexts φ) (d : Members φ)

/-- `_parse_ready` -/
def parseReady : Except Raised Ready := do
  let context := ofString "ready"
  keys texts d ["v", "type", "worker_version", "sdk_version"] [] context
  let workerVersion ← str d "worker_version" context false
  let sdkVersion ← optStr d "sdk_version" context
  return { workerVersion, sdkVersion }

/-- `_parse_status` -/
def parseStatus : Except Raised Status := do
  let context := ofString "status"
  keys texts d ["v", "type", "attempt", "phase", "gloves"] [] context
  let attempt ← attempt d context
  let phase ← enum texts phases (item d "phase") (ofString "status.phase")
  let gloves ← gloves texts (item d "gloves") context
  return { attempt, phase, gloves }

/-- The checks of `_parse_prompt` on the estimate. -/
def checkEstimate (mode : StepMode) (continuous : Bool) (estimated : φ) : Except Raised Unit :=
  let context := ofString "prompt"
  if continuous ∧ (mode ≠ .hold ∨ PyFloat.eq estimated PyFloat.zero) then
    fail context (ofString "a continuous step is a hold with a positive estimated_s")
  else if ¬ continuous ∧ PyFloat.eq estimated PyFloat.zero = false then
    fail context (ofString "estimated_s must be 0 unless the step is continuous")
  else .ok ()

/-- `_parse_prompt` -/
def parsePrompt : Except Raised (Prompt φ) := do
  let context := ofString "prompt"
  keys texts d
    ["v", "type", "attempt", "token", "side", "glove_id", "index", "count", "title",
      "instruction", "mode", "duration_s", "continuous", "estimated_s"] [] context
  let count ← uint d "count" context
  let index ← uint d "index" context
  if count = 0 ∨ count ≤ index then
    fail context (ofString "index must be below a positive count")
  let mode ← enum texts stepModes (item d "mode") (ofString "prompt.mode")
  let durationS ← seconds d "duration_s" context
  if decide (mode = .hold) ≠ PyFloat.eq durationS PyFloat.zero then
    fail context (ofString "duration_s must be 0 for hold and positive for motion")
  let continuous ← match item d "continuous" with
    | .bool continuous => .ok continuous
    | _ => fail context (ofString "continuous must be a boolean")
  let estimatedS ← seconds d "estimated_s" context
  checkEstimate mode continuous estimatedS
  let attempt ← attempt d context
  let token ← str d "token" context true
  let side ← enum texts sides (item d "side") (ofString "prompt.side")
  let gloveId ← uint d "glove_id" context
  let title ← str d "title" context false
  let instruction ← str d "instruction" context false
  return { attempt, token, side, gloveId, index, count, title, instruction, mode, durationS
           continuous, estimatedS }

/-- `_parse_step_accepted` -/
def parseStepAccepted : Except Raised StepAccepted := do
  let context := ofString "step_accepted"
  keys texts d ["v", "type", "attempt", "token"] [] context
  let attempt ← attempt d context
  let token ← str d "token" context true
  return { attempt, token }

/-- `_parse_step_progress` -/
def parseStepProgress : Except Raised (StepProgress φ) := do
  let context := ofString "step_progress"
  keys texts d ["v", "type", "attempt", "token", "elapsed_s"] [] context
  let attempt ← attempt d context
  let token ← str d "token" context true
  let elapsedS ← seconds d "elapsed_s" context
  return { attempt, token, elapsedS }

/-- `_parse_rejected` -/
def parseRejected : Except Raised Rejected := do
  let context := ofString "rejected"
  keys texts d ["v", "type", "attempt", "command", "reason", "message"] ["token"] context
  let token ← match item d "token" with
    | .null => .ok none
    | .str (c :: rest) => .ok (some (c :: rest))
    | _ => fail context (ofString "token must be a nonempty string")
  let attempt ← attemptOrNone d context
  let command ← str d "command" context true
  let reason ← enum texts rejectReasons (item d "reason") (ofString "rejected.reason")
  let message ← str d "message" context false
  return { attempt, command, reason, message, token }

/-- `_parse_exported` -/
def parseExported : Except Raised Exported := do
  let context := ofString "exported"
  keys texts d ["v", "type", "attempt", "side", "glove_id", "file", "bytes", "sha256"] [] context
  let attempt ← attempt d context
  let side ← enum texts sides (item d "side") (ofString "exported.side")
  let gloveId ← uint d "glove_id" context
  let file ← fileName texts (item d "file") context
  let bytes ← uint d "bytes" context
  let sha256 ← sha (item d "sha256") context
  return { attempt, side, gloveId, file, bytes, sha256 }

/-- `_parse_result` -/
def parseResult : Except Raised Result := do
  let context := ofString "result"
  keys texts d ["v", "type", "attempt", "outcome", "released"] ["files", "error"] context
  let outcome ← enum texts outcomes (item d "outcome") (ofString "result.outcome")
  let released ← match item d "released" with
    | .bool released => .ok released
    | _ => fail context (ofString "released must be a boolean")
  -- files belong to completed results only, and an error to failed ones
  if hasKey d "files" ≠ decide (outcome = .completed) then
    fail context (ofString "files must be present exactly for a completed result")
  if hasKey d "error" ≠ decide (outcome = .failed) then
    fail context (ofString "error must be present exactly for a failed result")
  let attempt ← attemptOrNone d context
  let files ← if hasKey d "files" then exportedFiles texts (item d "files") context else .ok []
  let error ← if hasKey d "error" then (error texts (item d "error") context).map some
    else .ok none
  return { attempt, outcome, files, error, released }

/-- `_PARSERS` -/
def parsers : List (String × Except Raised (WorkerEvent φ)) :=
  [("ready", (parseReady texts d).map .ready),
    ("status", (parseStatus texts d).map .status),
    ("prompt", (parsePrompt texts d).map .prompt),
    ("step_accepted", (parseStepAccepted texts d).map .stepAccepted),
    ("step_progress", (parseStepProgress texts d).map .stepProgress),
    ("rejected", (parseRejected texts d).map .rejected),
    ("exported", (parseExported texts d).map .exported),
    ("result", (parseResult texts d).map .result)]

/-- The checks of `parse_event` on the object of the line. -/
def parseObject : Except Raised (WorkerEvent φ) :=
  match item d "v" with
  | .int version =>
    if version = protocolVersion then
      let type := item d "type"
      let parser := match type with
        | .str type => ((parsers texts d).find? fun p => ofString p.1 = type).map Prod.snd
        | _ => none
      match parser with
      | some event => event
      | none =>
        .error (.protocolError (ofString "unknown message type " ++ texts.repr type))
    else .error (.protocolError (ofString "expected protocol version 1"))
  | _ => .error (.protocolError (ofString "expected protocol version 1"))

/-- `parse_event` -/
def parseEvent (line : ByteText) : Except Raised (WorkerEvent φ) :=
  if maxLineBytes < line.length then
    .error (.protocolError (ofString "line exceeds 65536 bytes"))
  else
    match PyStr.decode line with
    | none => .error (.protocolError (ofString "line is not UTF-8: " ++ texts.utf8Error line))
    | some text =>
      match PythonJson.loads text with
      | none => .error (.protocolError (ofString "line is not JSON: " ++ texts.jsonError text))
      | some (.dict data) => parseObject texts data
      | some _ => .error (.protocolError (ofString "line must be a JSON object"))

end ManusCalibration
