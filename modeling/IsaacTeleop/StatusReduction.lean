/-
Provider and device statuses, and the reduction of what was polled to them.

A refresh polls the plugin processes, the plugins' device reports, the OpenXR
session and the controllers.  Each reduction takes a current status and a polled
object, whose attributes may be of any type or raise when read, and returns the
next status; only a `BaseException` gets out of them.

* `reduceReport` — a plugin's device report;
* `reduceProcess`, `pollProcess` — a plugin's process;
* `reduceOpenxr`, `reduceOpenxrControllers` — the OpenXR session and controllers.
-/
import IsaacTeleop.OrderedDict
import IsaacTeleop.StateExcept
import Mathlib

inductive ProviderType
  | plugin
  | openxrRuntime
  deriving DecidableEq, Repr

inductive ProviderState
  | initializing
  | available
  | failed
  | stopped
  deriving DecidableEq, Repr

inductive DeviceState
  | initializing
  | unknown
  | connected
  | disconnected
  | degraded
  | failed
  | unavailable
  | disabled
  deriving DecidableEq, Repr

inductive StatusReason
  | none
  | providerInitializing
  | providerFailed
  | providerStopped
  | noReport
  | staleReport
  | malformedReport
  | unsupportedSchemaVersion
  | noHardwareSignal
  | calibrationFailed
  | noCurrentData
  | deviceError
  | disabledByConfiguration
  | processExited
  | processSignaled
  | processObservationError
  | startupFailed
  | runtimeUpdateFailed
  | openxrSessionReady
  | externalOpenxrHealthUnknown
  | openxrSessionLost
  | openxrInstanceLost
  | openxrPollError
  deriving DecidableEq, Repr

/-- What identifies a provider; no operation but `rebuild` changes it. -/
structure ProviderInfo where
  id : String
  type : ProviderType
  name : String
  deriving DecidableEq, Repr

structure ProviderStatus extends ProviderInfo where
  status : ProviderState
  reason : StatusReason
  error : String
  pid : Option ℤ := .none
  exitCode : Option ℤ := .none
  termSignal : Option ℤ := .none
  deriving DecidableEq, Repr

/-- What identifies a device and ties it to its provider. -/
structure DeviceInfo where
  id : String
  path : String
  type : String
  description : String
  providerId : String
  deriving DecidableEq, Repr

structure DeviceStatus extends DeviceInfo where
  status : DeviceState
  reason : StatusReason
  error : String
  deriving DecidableEq, Repr

structure StatusSnapshot where
  updatedAtNs : ℤ
  providers : List ProviderStatus
  devices : List DeviceStatus
  deriving DecidableEq, Repr

namespace StatusMonitoring

def schemaVersion : ℤ := 1
def reportStaleAfterNs : ℤ := 3000000000
def openxrProviderId : String := "openxr/runtime"
def openxrDeviceId : String := "openxr/headset"
def openxrControllerTrackingLossDelayNs : ℤ := 1000000000
def pluginStatusCollectionSuffix : String := "/device_status"
def openxrIdentifierMaxBytes : ℕ := 255

inductive ControllerSide
  | left
  | right
  deriving DecidableEq, Repr

def ControllerSide.deviceId : ControllerSide → String
  | .left => "openxr/controller/left"
  | .right => "openxr/controller/right"

def ControllerSide.path : ControllerSide → String
  | .left => "/controller/left"
  | .right => "/controller/right"

def ControllerSide.title : ControllerSide → String
  | .left => "Left"
  | .right => "Right"

/-- `_OPENXR_CONTROLLER_SIDE_BY_ID` -/
def controllerSideById (deviceId : String) : Option ControllerSide :=
  if deviceId = ControllerSide.left.deviceId then some .left
  else if deviceId = ControllerSide.right.deviceId then some .right
  else none

/-! ### Polled objects -/

/-- An exception with its text, or a `BaseException` that no handler here catches. -/
inductive Raised
  | exception (text : String)
  | baseException
  deriving DecidableEq, Repr

/-- What polling an object or reading one of its attributes gives. -/
abbrev Polled (α : Type) := Except Raised α

/-- Python's `repr` of a string, used in error texts only. -/
class PythonRepr where
  repr : String → String

/-- An arbitrary value, seen through `isinstance` checks and `repr`. -/
structure PyObject where
  isNone : Bool
  int? : Option ℤ
  str? : Option String
  repr : String
  deriving DecidableEq, Repr

/-- `ProcessSnapshot` of a plugin; enum values by their names. -/
structure ProcessSnapshot where
  state : String
  reason : String
  error : String
  pid : Option ℤ
  exitCode : Option ℤ
  termSignal : Option ℤ
  errorCode : Option ℤ
  deriving DecidableEq, Repr

structure ReportEntry where
  path : Polled PyObject
  state : Polled String
  reason : Polled String
  error : Polled PyObject

/-- A plugin's device report; any of its attributes may raise when read. -/
structure Report where
  schemaVersion : Polled PyObject
  reportTimeNs : Polled PyObject
  devices : Polled (List ReportEntry)

structure OpenxrSnapshot where
  state : String
  headsetState : String
  reason : String
  error : PyObject
  resultCode : PyObject

structure ControllerSample where
  aimValid : Polled Bool
  gripValid : Polled Bool

/-- `_PLUGIN_DEVICE_REASON_MAP` -/
def pluginDeviceReason : String → Option StatusReason
  | "NONE" => some .none
  | "NO_HARDWARE_SIGNAL" => some .noHardwareSignal
  | "CALIBRATION_FAILED" => some .calibrationFailed
  | "NO_CURRENT_DATA" => some .noCurrentData
  | "DEVICE_ERROR" => some .deviceError
  | "DISABLED_BY_CONFIGURATION" => some .disabledByConfiguration
  | _ => none

/-- `state_map` of `_reduce_report` -/
def pluginDeviceState : String → Option DeviceState
  | "UNKNOWN" => some .unknown
  | "CONNECTED" => some .connected
  | "DISCONNECTED" => some .disconnected
  | "DEGRADED" => some .degraded
  | "FAILED" => some .failed
  | "DISABLED" => some .disabled
  | _ => none

/-- `_VALID_PLUGIN_DEVICE_STATE_REASON_PAIRS` -/
def validPluginDeviceStateReasonPairs : List (String × String) :=
  [("UNKNOWN", "NO_HARDWARE_SIGNAL"), ("UNKNOWN", "NO_CURRENT_DATA"),
    ("UNKNOWN", "DEVICE_ERROR"), ("CONNECTED", "NONE"), ("DISCONNECTED", "NO_HARDWARE_SIGNAL"),
    ("DEGRADED", "CALIBRATION_FAILED"), ("DEGRADED", "NO_CURRENT_DATA"),
    ("DEGRADED", "DEVICE_ERROR"), ("FAILED", "DEVICE_ERROR"),
    ("DISABLED", "DISABLED_BY_CONFIGURATION")]

/-! ### Reductions -/

/-- Give every device the same status, reason and error. -/
def setDevices (devices : List DeviceStatus) (status : DeviceState) (reason : StatusReason)
    (error : String) : List DeviceStatus :=
  devices.map fun device => { device with status := status, reason := reason, error := error }

/-- `_unknown_devices` -/
def unknownDevices (devices : List DeviceStatus) (reason : StatusReason) (error : String) :
    List DeviceStatus :=
  setDevices devices .unknown reason error

/-- `_provider_precedence` -/
def providerPrecedence (devices : List DeviceStatus) (provider : ProviderStatus) :
    Option (List DeviceStatus) :=
  match provider.status with
  | .initializing => some (setDevices devices .initializing .providerInitializing provider.error)
  | .failed => some (setDevices devices .unavailable .providerFailed provider.error)
  | .stopped => some (setDevices devices .unavailable .providerStopped provider.error)
  | .available => none

section Report

variable [PythonRepr]

/-- The first loop of `_reduce_report`: the entries by path. -/
def collectEntries (expectedPaths : List String) :
    List ReportEntry → OrderedDict String ReportEntry → Polled (OrderedDict String ReportEntry)
  | [], entriesByPath => .ok entriesByPath
  | entry :: rest, entriesByPath =>
    match entry.path with
    | .error e => .error e
    | .ok object =>
      match object.str? with
      | none => .error (.exception "plugin status report contains an empty device path")
      | some path =>
        if path = "" then
          .error (.exception "plugin status report contains an empty device path")
        else if path ∈ entriesByPath.keys then
          .error (.exception
            ("plugin status report contains duplicate device path " ++ object.repr))
        else if path ∉ expectedPaths then
          .error (.exception ("plugin status report contains unknown device path " ++ object.repr))
        else collectEntries expectedPaths rest (entriesByPath.insert path entry)

/-- One round of the second loop: the device under its own entry. -/
def reduceEntry (device : DeviceStatus) (entry : ReportEntry) : Polled DeviceStatus := do
  let stateName ← entry.state
  match pluginDeviceState stateName with
  | none => .error (.exception
      ("plugin status report contains invalid state " ++ PythonRepr.repr stateName))
  | some state =>
    let reasonName ← entry.reason
    match pluginDeviceReason reasonName with
    | none => .error (.exception
        ("plugin status report contains invalid reason " ++ PythonRepr.repr reasonName))
    | some reason =>
      if (stateName, reasonName) ∉ validPluginDeviceStateReasonPairs then
        .error (.exception ("plugin status report contains invalid state/reason pair "
          ++ stateName ++ "/" ++ reasonName))
      else
        let entryError ← entry.error
        match entryError.str? with
        | none => .error (.exception ("plugin status report error for "
            ++ PythonRepr.repr device.path ++ " is not a string"))
        | some error => return { device with status := state, reason := reason, error := error }

/-- The second loop of `_reduce_report`. -/
def reduceEntries (entriesByPath : OrderedDict String ReportEntry) :
    List DeviceStatus → Polled (List DeviceStatus)
  | [] => .ok []
  | device :: rest =>
    match entriesByPath.get? device.path with
    | none => .error (.exception (PythonRepr.repr device.path))
    | some entry => do
      let reduced ← reduceEntry device entry
      let others ← reduceEntries entriesByPath rest
      return reduced :: others

/-- The `try` body of `_reduce_report`. -/
def reduceReportBody (devices : List DeviceStatus) (report : Report) (nowNs : ℤ) :
    Polled (List DeviceStatus) := do
  let version ← report.schemaVersion
  if version.int? ≠ some schemaVersion then
    return unknownDevices devices .unsupportedSchemaVersion
      ("unsupported plugin status schema version " ++ version.repr)
  let reportTime ← report.reportTimeNs
  match reportTime.int? with
  | none => .error (.exception ("invalid report_time_ns " ++ reportTime.repr))
  | some reportTimeNs =>
    if reportTimeNs < 0 ∨ reportTimeNs > nowNs then
      .error (.exception ("invalid report_time_ns " ++ reportTime.repr))
    else
      let ageNs := nowNs - reportTimeNs
      if ageNs > reportStaleAfterNs then
        return unknownDevices devices .staleReport
          ("plugin status report is stale by " ++ toString ageNs ++ " ns")
      let expectedPaths := (devices.map fun device => device.path).eraseDups
      let entries ← report.devices
      let entriesByPath ← collectEntries expectedPaths entries ∅
      let missingPaths := expectedPaths.filter fun path => path ∉ entriesByPath.keys
      if missingPaths ≠ [] then
        let listed := (missingPaths.mergeSort fun a b => decide (a ≤ b)).map PythonRepr.repr
        .error (.exception ("plugin status report is missing device paths ["
          ++ ", ".intercalate listed ++ "]"))
      else reduceEntries entriesByPath devices

/-- `_reduce_report` -/
def reduceReport (devices : List DeviceStatus) (report : Option Report) (nowNs : ℤ) :
    Polled (List DeviceStatus) :=
  match report with
  | none => .ok (unknownDevices devices .noReport "")
  | some report =>
    match reduceReportBody devices report nowNs with
    | .ok reduced => .ok reduced
    | .error (.exception text) => .ok (unknownDevices devices .malformedReport text)
    | .error .baseException => .error .baseException

end Report

/-- `_reduce_process` -/
def reduceProcess (provider : ProviderStatus) (process : ProcessSnapshot) : ProviderStatus :=
  let pid := process.pid.filter fun p => decide (p ≥ 0)
  if process.state = "RUNNING" then
    { provider with status := .available, reason := .none, error := "", pid := pid,
                    exitCode := none, termSignal := none }
  else if process.state = "STOPPED" then
    { provider with status := .stopped, reason := .providerStopped, error := process.error,
                    pid := pid, exitCode := process.exitCode, termSignal := process.termSignal }
  else
    let details := if process.error = "" then process.reason else process.error
    let (reason, details) :=
      if process.state = "EXITED" then
        (StatusReason.processExited, match process.exitCode with
          | some code => "process exited with code " ++ toString code ++ ": " ++ details
          | none => details)
      else if process.state = "SIGNALED" then
        (StatusReason.processSignaled, match process.termSignal with
          | some signal => "process terminated by signal " ++ toString signal ++ ": " ++ details
          | none => details)
      else
        (StatusReason.processObservationError, match process.errorCode with
          | some code => "process observation error " ++ toString code ++ ": " ++ details
          | none => details)
    { provider with status := .failed, reason := reason, error := details, pid := pid,
                    exitCode := process.exitCode, termSignal := process.termSignal }

/-- `_poll_process`, given what polling the process gave. -/
def pollProcess (provider : ProviderStatus) (process : Polled ProcessSnapshot) :
    Polled ProviderStatus :=
  match process with
  | .ok snapshot => .ok (reduceProcess provider snapshot)
  | .error (.exception text) =>
    .ok { provider with status := .failed, reason := .processObservationError, error := text }
  | .error .baseException => .error .baseException

/-- `reason_map` of `_reduce_openxr` -/
def openxrFailureReason : String → Option StatusReason
  | "SESSION_LOST" => some .openxrSessionLost
  | "INSTANCE_LOST" => some .openxrInstanceLost
  | "POLL_ERROR" => some .openxrPollError
  | _ => none

/-- `_reduce_openxr` -/
def reduceOpenxr [PythonRepr] (provider : ProviderStatus) (headset : DeviceStatus)
    (snapshot : OpenxrSnapshot) : Polled (ProviderStatus × DeviceStatus) :=
  match snapshot.error.str? with
  | none => .error (.exception "OpenXR provider snapshot error is not a string")
  | some error =>
    if snapshot.resultCode.isNone = false ∧ snapshot.resultCode.int? = none then
      .error (.exception "OpenXR provider snapshot result_code is not an integer")
    else if snapshot.state = "FAILED" then
      match openxrFailureReason snapshot.reason with
      | none => .error (.exception ("failed OpenXR provider snapshot has invalid reason "
          ++ PythonRepr.repr snapshot.reason))
      | some reason =>
        .ok ({ provider with status := .failed, reason := reason, error := error },
          { headset with status := .unavailable, reason := reason, error := error })
    else if snapshot.state ≠ "AVAILABLE" then
      .error (.exception ("OpenXR provider snapshot has invalid state "
        ++ PythonRepr.repr snapshot.state))
    else if snapshot.headsetState = "DISCONNECTED" then
      if snapshot.reason ≠ "TRACKING_UNAVAILABLE" then
        .error (.exception ("disconnected OpenXR headset snapshot has invalid reason "
          ++ PythonRepr.repr snapshot.reason))
      else
        .ok ({ provider with status := .available, reason := .none, error := "" },
          { headset with status := .disconnected, reason := .noCurrentData, error := error })
    else if snapshot.headsetState ≠ "CONNECTED" ∨ snapshot.reason ≠ "NONE" then
      .error (.exception "connected OpenXR headset snapshot must report AVAILABLE/NONE")
    else
      .ok ({ provider with status := .available, reason := .none, error := "" },
        { headset with status := .connected, reason := .openxrSessionReady, error := "" })

/-- Both poses of one sample; `None` has no valid pose. -/
def posesValid : Option ControllerSample → Polled (Bool × Bool)
  | none => .ok (false, false)
  | some sample => do
    let aimValid ← sample.aimValid
    let gripValid ← sample.gripValid
    return (aimValid, gripValid)

/-- The per-side latches `_controller_untracked_since_ns`. -/
abbrev UntrackedSince := ControllerSide → Option ℤ

/-- One controller device of `_reduce_openxr_controllers`. -/
def reduceController (device : DeviceStatus) (side : ControllerSide)
    (snapshot : Option ControllerSample) (nowNs : ℤ) :
    Fallible UntrackedSince Raised DeviceStatus :=
  fun untracked =>
    match posesValid snapshot with
    | .error .baseException => (.error .baseException, untracked)
    | .error (.exception text) =>
      (.ok { device with status := .unknown, reason := .openxrPollError, error := text },
        Function.update untracked side none)
    | .ok (aimValid, gripValid) =>
      if aimValid && gripValid then
        (.ok { device with status := .connected, reason := .none, error := "" },
          Function.update untracked side none)
      else
        match untracked side with
        | none => (.ok device, Function.update untracked side (some nowNs))
        | some sinceNs =>
          if nowNs - sinceNs < openxrControllerTrackingLossDelayNs then (.ok device, untracked)
          else
            let (status, detail) := match snapshot with
              | none => (DeviceState.disconnected, "controller is inactive")
              | some _ =>
                let missing := (if aimValid then [] else ["aim"])
                  ++ (if gripValid then [] else ["grip"])
                (DeviceState.degraded, " and ".intercalate missing ++ " pose tracking unavailable")
            (.ok { device with status := status, reason := .noCurrentData,
                               error := detail ++ " for at least 1 second" }, untracked)

/-- One round of `_reduce_openxr_controllers`; the headset is kept. -/
def reduceOpenxrDevice (snapshots : ControllerSide → Option ControllerSample) (nowNs : ℤ)
    (device : DeviceStatus) : Fallible UntrackedSince Raised DeviceStatus :=
  match controllerSideById device.id with
  | none => pure device
  | some side => reduceController device side (snapshots side) nowNs

/-- `_reduce_openxr_controllers` -/
def reduceOpenxrControllers (snapshots : ControllerSide → Option ControllerSample) (nowNs : ℤ) :
    List DeviceStatus → Fallible UntrackedSince Raised (List DeviceStatus)
  | [] => pure []
  | device :: rest => do
    let reduced ← reduceOpenxrDevice snapshots nowNs device
    let others ← reduceOpenxrControllers snapshots nowNs rest
    return reduced :: others

end StatusMonitoring
