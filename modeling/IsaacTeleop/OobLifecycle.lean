/-
The recovery lifecycle of an out-of-band headset.

One task owns one headset: it waits for the headset on ADB, opens the teleop page on it,
dispatches CONNECT, watches the stream, and recovers what it can.  A pass of its loop awaits
helpers that query ADB, the hub, the page's DevTools monitor and coturn; the environment
answers each of them as it likes and may let it raise.  While a helper is awaited, the
monitor's own task may report a terminal banner.

* `Call`, `Reply` — what the lifecycle asks of its environment, and `Note`, what it does alone;
* `Lifecycle` — its state;
* `pass` — one pass of the loop, in both modes;
* `run` — the task.

Times are exact numbers of seconds.  What is only reported is left out: the texts and flags
of the published snapshots, the USB health report, and the log.
-/
import IsaacTeleop.ObservedCalls

open Observed

namespace OobLifecycle

/-! ### What the environment answers -/

/-- The classes of exceptions that the lifecycle tells apart. -/
inductive Failure
  | oobAdbError
  /-- A subclass of `OobAdbError`. -/
  | headsetNotAwake
  /-- A subclass of `OobAdbError`. -/
  | transportDisrupted (reason : String) (adbReady networkPresent : Bool)
  | timeout
  /-- An `OSError`, a `RuntimeError` or an expired subprocess. -/
  | osError
  /-- Any other `Exception`. -/
  | exception
  /-- `asyncio.CancelledError` -/
  | cancelled
  /-- The `asyncio.CancelledError` by which `asyncio.timeout` ends its body. -/
  | expired
  deriving DecidableEq, Repr

/-- It is an `Exception`, as `asyncio.CancelledError` is not. -/
def Failure.isException : Failure → Bool
  | .cancelled | .expired => false
  | _ => true

/-- It is an `OobAdbError`. -/
def Failure.isOobAdbError : Failure → Bool
  | .oobAdbError | .headsetNotAwake | .transportDisrupted .. => true
  | _ => false

inductive Health
  | starting
  | degraded
  | browserReady
  | active
  deriving DecidableEq, Repr

/-- The `state` of a published snapshot. -/
inductive Stage
  | waitingForAdb
  | preparingDevice
  | rebuildingUsb
  | checkingUsbLink
  | usbLinkChecked
  | checkingUsbWake
  | checkingUsbTransfer
  | usbHealthBlocked
  | automatingBrowser
  | clientLoaded
  | connectDispatched
  | verifyingBrowser
  | verifyingExistingBrowser
  | waitingForAwake
  | active
  | degraded
  deriving DecidableEq, Repr

/-- `adb.AdbDevices`; no serial is empty. -/
structure AdbDevices where
  devices : List (String × String)
  diagnostic : String
  deriving DecidableEq, Repr

def AdbDevices.ready (devices : AdbDevices) : List String :=
  (devices.devices.filter fun device => device.2 = "device").map Prod.fst

/-- `sorted(devices.devices)` -/
def AdbDevices.sorted (devices : AdbDevices) : List (String × String) :=
  devices.devices.insertionSort fun a b => a.1 < b.1 ∨ a.1 = b.1 ∧ a.2 ≤ b.2

/-- `dict(devices.devices).get(serial)`: the last entry counts. -/
def AdbDevices.state? (devices : AdbDevices) (serial : String) : Option String :=
  devices.devices.reverse.lookup serial

/-- `adb.HeadsetNetworkState` -/
inductive NetworkState
  | adbUnavailable
  | noNetwork
  | networkPresent
  deriving DecidableEq, Repr

/-- A headset in the hub's snapshot, or the report of a probed browser.  A field is `none` when
the source's value is falsy. -/
structure Headset where
  clientId : String
  streaming : Bool
  streamPhase : Option String
  terminalEventId : Option String
  /-- In epoch milliseconds. -/
  lastMetricsAt : Option ℚ
  deriving DecidableEq, Repr

def Headset.phase (headset : Headset) : String :=
  headset.streamPhase.getD (if headset.streaming then "streaming" else "idle")

/-- The helpers that click CONNECT: in the surviving tab, or in a page that they open. -/
inductive Helper
  | attachExistingOobTab
  | runOobConnect
  deriving DecidableEq, Repr

/-- The key of a same-tab click: `grace:…`, `terminal:…` or `cdp:…:…`. -/
inductive ClickKey
  | grace (generation : ℕ)
  | terminal (event : String)
  | cdp (generation seq : ℕ)
  deriving DecidableEq, Repr

/-- What the lifecycle does without a call. -/
inductive Note
  /-- `_restart_episode` -/
  | episodeStarted
  /-- A pass finds that the timeout of the episode is over. -/
  | episodeExpired
  /-- `_rebuild_usb` returns. -/
  | usbRebuilt
  /-- A disruption or a failure makes a USB repair void. -/
  | repairForgotten
  /-- Fresh metrics of a repaired page end its preservation. -/
  | streamResumed
  /-- `_automate` is entered in this state. -/
  | automate (preservingBrowser : Bool) (clientGraceDeadline : Option ℚ)
  /-- A same-tab CONNECT is attempted. -/
  | sameTabConnect (key : ClickKey)
  /-- It is refused: the headset is asleep. -/
  | headsetAsleep (key : ClickKey)
  deriving DecidableEq, Repr

inductive Call
  /-- Not a call. -/
  | note (note : Note)
  /-- Not a call: a pass begins in this state. -/
  | pass (preservingBrowser : Bool) (selected : Option String)
  /-- Not a call: `_rebuild_usb` is entered. -/
  | rebuildUsb
  | clock
  | time
  | sleep (seconds : ℚ)
  | publish (health : Health) (stage : Stage)
  | getSnapshot
  | probeBrowser (generation : ℕ) (after : ℚ) (clientId : Option String)
  | enumerateAdbDevices
  | probeHeadsetNetwork (serial : Option String)
  | headsetWakefulness
  | assertHeadsetAwake (requireAwake : Bool)
  | assertSupportedHeadset
  | clearHeadsetBrowserCache
  | monitorDone
  | awaitMonitor
  | teardownAdbForwardCdp
  /-- `attach_existing_oob_tab` without a click. -/
  | attachMonitor
  /-- Until the page's control is actionable, until the click, after the click, and until the
  outcome of the click is seen. -/
  | findPage (helper : Helper)
  | click (helper : Helper)
  | clickAgain (helper : Helper)
  | awaitOutcome (helper : Helper)
  | closeStaleTeleopTabs
  | adbForwardRemove
  | adbReverse (port : ℕ)
  | adbReverseRemove (port : ℕ)
  | adbReverseList
  | probeAdbReverseRules (ports : List ℕ)
  | hostListenerProbe (port : ℕ)
  | startCoturn (port : ℕ)
  | stopCoturn
  | coturnPoll
  | verifyCoturnListening (port : ℕ)
  | adbDevicesListing
  | inspectLink
  | measureTransfer
  /-- The shield around the cleanup is awaited. -/
  | shield
  deriving DecidableEq, Repr

/-- What a call answers, as far as the call is one that answers it. -/
structure Reply where
  /-- The awaited helper raises this. -/
  failure : Option Failure
  /-- The monitor's task reports this banner meanwhile. -/
  banner : Option String
  devices : AdbDevices
  network : NetworkState
  /-- The diagnostic of the network probe. -/
  diagnostic : String
  headsets : List Headset
  report : Option Headset
  /-- A truth value: the task is done, the process listens, the command succeeded, the headset
  is `Awake`, the transfer completed. -/
  flag : Bool
  /-- The missing reverse rules. -/
  missingPorts : List ℕ
  /-- The output of `adb reverse --list`. -/
  rules : Option String
  /-- `coturn.poll()` -/
  exitCode : Option ℤ
  /-- The negotiated speed. -/
  speed : Option ℚ
  time : ℚ
  deriving DecidableEq, Repr

abbrev Happening : Type := Event Call Reply Failure

/-! ### The state -/

inductive UsbHealthPolicy
  | off
  | warn
  | block
  deriving DecidableEq, Repr

/-- `RecoveryConfig` and the arguments of the constructor. -/
structure Config where
  usbLocal : Bool
  turnPort : Option ℕ
  resolvedPort : ℕ
  /-- `usb_backend_port()` -/
  usbBackendPort : ℕ
  usbHealthPolicy : UsbHealthPolicy
  metricsStaleSec : ℚ
  timeoutSec : ℚ
  intervalSec : ℚ
  clientReconnectEnabled : Bool
  clientReconnectMaxAttempts : ℤ
  clientReconnectDelayMs : ℤ
  deriving DecidableEq, Repr

def Config.clientRecoveryGraceSec (config : Config) : ℚ :=
  if !config.clientReconnectEnabled then config.intervalSec
  else max config.intervalSec
    (config.clientReconnectMaxAttempts * config.clientReconnectDelayMs / 1000 + 10)

/-- The ports whose reverse rules the lifecycle owns. -/
def Config.ownedPorts (config : Config) : List ℕ :=
  match config.usbLocal, config.turnPort with
  | true, some turnPort => [config.resolvedPort, config.usbBackendPort, turnPort]
  | _, _ => []

/-- The signature of a hard disruption. -/
inductive Disruption
  | transport (stage : Stage) (reason : String) (adbReady networkPresent : Bool)
  | topology (rules : Option String) (coturn : Option ℤ)
  deriving DecidableEq, Repr

structure Lifecycle where
  selected : Option String
  identityVerified : Bool
  cacheCleared : Bool
  usbWakeConfirmed : Option Bool
  usbWaitingForAwake : Bool
  browserWaitingForAwake : Bool
  /-- The speed of the link that was looked at last. -/
  usbLinkSpeed : Option ℚ
  usbTransferCompleted : Bool
  generation : ℕ
  /-- `monitor` is not `None`. -/
  monitor : Bool
  /-- `coturn` is not `None`. -/
  coturn : Bool
  browserClient : Option String
  browserReady : Bool
  clientLoaded : Bool
  connectDispatched : Bool
  lastStreamAt : Option ℚ
  connectAt : Option ℚ
  browserProbeAfter : Option ℚ
  transportLost : Bool
  restoreExistingBrowser : Bool
  repairStartedAt : Option ℚ
  clientGraceDeadline : Option ℚ
  transportDisruptionSignature : Option Disruption
  handledTerminalEvents : List String
  softClickKeys : List ClickKey
  sameTabWakeBlocked : Bool
  pendingCdpTerminalError : Option String
  cdpTerminalErrorSeq : ℕ
  lastNetworkState : Option NetworkState
  episodeStart : ℚ
  readyCount : ℕ
  lastObservation : Option (List (String × String) × String)
  lastHealth : Option Health
  /-- The clients, the reverse rules and coturn's exit code. -/
  prerequisiteSignature : Option (List String × Option String × Option ℤ)
  /-- `snapshot` is not empty. -/
  published : Bool
  deriving DecidableEq, Repr

/-- A new lifecycle: `ANDROID_SERIAL` and the clock's time. -/
def Lifecycle.init (androidSerial : Option String) (now : ℚ) : Lifecycle where
  selected := androidSerial
  identityVerified := false
  cacheCleared := false
  usbWakeConfirmed := none
  usbWaitingForAwake := false
  browserWaitingForAwake := false
  usbLinkSpeed := none
  usbTransferCompleted := false
  generation := 0
  monitor := false
  coturn := false
  browserClient := none
  browserReady := false
  clientLoaded := false
  connectDispatched := false
  lastStreamAt := none
  connectAt := none
  browserProbeAfter := none
  transportLost := false
  restoreExistingBrowser := false
  repairStartedAt := none
  clientGraceDeadline := none
  transportDisruptionSignature := none
  handledTerminalEvents := []
  softClickKeys := []
  sameTabWakeBlocked := false
  pendingCdpTerminalError := none
  cdpTerminalErrorSeq := 0
  lastNetworkState := none
  episodeStart := now
  readyCount := 0
  lastObservation := none
  lastHealth := none
  prerequisiteSignature := none
  published := false

/-- `preserving_browser` of a pass. -/
def Lifecycle.preservingBrowser (s : Lifecycle) : Bool :=
  s.transportLost && s.restoreExistingBrowser

def Lifecycle.selectedReady (s : Lifecycle) (devices : AdbDevices) : Bool :=
  s.selected.any fun serial => serial ∈ devices.ready

abbrev LifecycleM (α : Type) : Type := Program Lifecycle Call Reply Failure α

section Programs

variable (env : List Happening → Reply) (config : Config)

/-! ### Calls -/

/-- A note in the trace. -/
def mark (c : Call) : LifecycleM Unit := do
  let _ ← call (fun events => .ok (env events)) c
  pure ()

def note (n : Note) : LifecycleM Unit := mark env (.note n)

/-- A call that is not awaited: it does not raise, and no other task runs meanwhile. -/
def look (c : Call) : LifecycleM Reply := call (fun events => .ok (env events)) c

/-- `_on_cdp_terminal_error` -/
def Lifecycle.onCdpTerminalError (banner : Option String) (s : Lifecycle) : Lifecycle :=
  match banner with
  | none => s
  | some banner => { s with pendingCdpTerminalError := some banner }

/-- An awaited call whose exceptions are all caught. -/
def observe (c : Call) : LifecycleM Reply := do
  let reply ← call (fun events => .ok (env events)) c
  modify (Lifecycle.onCdpTerminalError reply.banner)
  pure reply

/-- An awaited call. -/
def ask (c : Call) : LifecycleM Reply := do
  let reply ← observe env c
  match reply.failure with
  | none => pure reply
  | some e => Fallible.raise e

/-- An awaited call whose answer is not used. -/
def perform (c : Call) : LifecycleM Unit := do
  let _ ← ask env c
  pure ()

/-- `try x except Exception`, which gives `none`. -/
def swallow {α : Type} (x : LifecycleM α) : LifecycleM (Option α) := do
  match ← attempt x with
  | .ok a => pure (some a)
  | .error e => if e.isException then pure none else Fallible.raise e

/-- `self.clock()` -/
def clock : LifecycleM ℚ := do
  let reply ← look env .clock
  pure reply.time

/-- `time.time()` -/
def wallTime : LifecycleM ℚ := do
  let reply ← look env .time
  pure reply.time

/-! ### Episodes and publications -/

def restartEpisode : LifecycleM Unit := do
  let now ← clock env
  modify fun s => { s with episodeStart := now }
  note env .episodeStarted

def episodeExpired : LifecycleM Bool := do
  let now ← clock env
  let s ← get
  let expired : Bool := s.episodeStart + config.timeoutSec ≤ now
  doIf expired (note env .episodeExpired)
  pure expired

def boundedClientGraceDeadline : LifecycleM ℚ := do
  let now ← clock env
  let s ← get
  let desired := now + config.clientRecoveryGraceSec
  let latest := s.episodeStart + config.timeoutSec - config.intervalSec
  pure (min desired (max now latest))

def publish (health : Health) (stage : Stage) : LifecycleM Unit := do
  let s ← get
  doIf (health = .degraded && (s.lastHealth = some .browserReady || s.lastHealth = some .active))
    (restartEpisode env)
  modify fun s => { s with lastHealth := some health, published := true }
  perform env (.publish health stage)

def sleepInterval : LifecycleM Unit := perform env (.sleep config.intervalSec)

/-- The sleep of `_transport_retry_interval()`. -/
def sleepTransportRetry : LifecycleM Unit := do
  let s ← get
  perform env (.sleep (if s.restoreExistingBrowser then min config.intervalSec 1
    else config.intervalSec))

def rememberBrowserWakeFailure (e : Failure) : LifecycleM Unit :=
  match e with
  | .headsetNotAwake => modify fun s => { s with browserWaitingForAwake := true }
  | .timeout => do
    let wake ← swallow (ask env .headsetWakefulness)
    modify fun s => { s with browserWaitingForAwake := !wake.any Reply.flag }
  | _ => pure ()

/-- Whether the pass is over. -/
def observeExpiredWake : LifecycleM Bool := do
  let s ← get
  if !(s.sameTabWakeBlocked || s.browserWaitingForAwake ||
      (config.usbLocal && config.usbHealthPolicy ≠ .off && s.usbWaitingForAwake)) then
    pure false
  else do
    let wake ← swallow (ask env .headsetWakefulness)
    if wake.any Reply.flag then do
      modify fun s => { s with
        usbWaitingForAwake := false
        browserWaitingForAwake := false
        sameTabWakeBlocked := false }
      restartEpisode env
      pure true
    else do
      publish env .degraded .waitingForAwake
      sleepInterval env config
      pure true

/-! ### Losing the transport -/

def stopMonitor : LifecycleM Unit := do
  let s ← get
  doIf s.monitor do
    -- Whatever the cancelled task raises is dropped.
    let _ ← observe env .awaitMonitor
    perform env .teardownAdbForwardCdp
    modify fun s => { s with monitor := false }

/-- The preserving flags after a loss: those of an earlier loss stay. -/
def Lifecycle.rememberLoss (usbLocal : Bool) (s : Lifecycle) : Lifecycle :=
  if s.transportLost then s
  else
    let restore := s.browserReady || s.connectDispatched || s.lastStreamAt.isSome
    { s with
      restoreExistingBrowser := restore
      transportLost := usbLocal && restore
      repairStartedAt := none
      clientGraceDeadline := none }

def rememberTransportLoss : LifecycleM Unit := do
  modify fun s => { s with
    usbWaitingForAwake := false
    browserWaitingForAwake := false
    sameTabWakeBlocked := false
    usbWakeConfirmed := none }
  modify (Lifecycle.rememberLoss config.usbLocal)
  stopMonitor env
  modify fun s => { s with
    pendingCdpTerminalError := none
    browserReady := false
    browserClient := none
    clientLoaded := false
    connectDispatched := false }

def invalidateCompletedRepair (signature : Disruption) : LifecycleM Unit := do
  let s ← get
  doIf (s.transportDisruptionSignature ≠ some signature) do
    modify fun s => { s with
      transportDisruptionSignature := some signature
      repairStartedAt := none
      clientGraceDeadline := none }
    note env .repairForgotten
    restartEpisode env

def enterTransportRecovery (reason : String) (stage : Stage) (adbReady networkPresent : Bool)
    (transportVerified : Bool) : LifecycleM Unit := do
  -- `_browser_reports_streaming` decides only whether the loss is announced.
  doIf (!(adbReady && !networkPresent) && config.usbLocal && transportVerified)
    (perform env .getSnapshot)
  rememberTransportLoss env config
  let s ← get
  doIf s.transportLost
    (invalidateCompletedRepair env (.transport stage reason adbReady networkPresent))
  publish env .degraded stage

/-! ### The USB substrate -/

def cleanupOwnedRules : LifecycleM Unit := do
  let s ← get
  doIf s.selected.isSome do
    -- A failed command is logged, and the shielded task goes on when its owner is cancelled.
    let _ ← observe env .adbForwardRemove
    forEach (fun port => do
      let _ ← observe env (.adbReverseRemove port)
      pure ()) config.ownedPorts

def shieldedCleanup : LifecycleM Unit := do
  cleanupOwnedRules env config
  perform env .shield

def startCoturn (turnPort : ℕ) : LifecycleM Unit := do
  let s ← get
  doIf s.coturn (perform env .stopCoturn)
  let started ← ask env (.startCoturn turnPort)
  modify fun s => { s with coturn := started.flag }
  if !started.flag then Fallible.raise .oobAdbError
  else do
    let listening ← ask env (.verifyCoturnListening turnPort)
    doIf (!listening.flag) (Fallible.raise .oobAdbError)

/-- Whether a process was launched. -/
def ensureCoturn : LifecycleM Bool :=
  match config.usbLocal, config.turnPort with
  | true, some turnPort => do
    let s ← get
    let poll ← look env .coturnPoll
    if s.coturn && poll.exitCode.isNone then do
      let listening ← ask env (.verifyCoturnListening turnPort)
      if listening.flag then pure false
      else do
        startCoturn env turnPort
        pure true
    else do
      startCoturn env turnPort
      pure true
  | _, _ => pure false

/-- The `try` block of `_rebuild_usb`. -/
def rebuildRules (turnPort : ℕ) : LifecycleM Unit := do
  let ports := [config.resolvedPort, config.usbBackendPort, turnPort]
  stopMonitor env
  perform env .adbForwardRemove
  forEach (fun port => perform env (.adbReverseRemove port)) ports
  forEach (fun port => do
    let probe ← ask env (.hostListenerProbe port)
    doIf (!probe.flag) (Fallible.raise .oobAdbError)) (ports.take 2)
  let _ ← ensureCoturn env config
  forEach (fun port => do
    let proc ← ask env (.adbReverse port)
    doIf (!proc.flag) (Fallible.raise .oobAdbError)) ports
  let verification ← ask env (.probeAdbReverseRules ports)
  doIf (!verification.flag || !verification.missingPorts.isEmpty) (Fallible.raise .oobAdbError)

def rebuildUsb : LifecycleM Unit := do
  mark env .rebuildUsb
  match config.turnPort with
  | none => Fallible.raise .exception
  | some turnPort => do
    publish env .degraded .rebuildingUsb
    match ← attempt (rebuildRules env config turnPort) with
    | .error e => do
      shieldedCleanup env config
      Fallible.raise e
    | .ok _ => do
      let s ← get
      publish env .degraded
        (if s.restoreExistingBrowser then .verifyingExistingBrowser else .automatingBrowser)
      modify fun s => { s with transportDisruptionSignature := none, prerequisiteSignature := none }
      note env .usbRebuilt

def checkUsbPrerequisites : LifecycleM Unit :=
  match config.usbLocal, config.turnPort with
  | false, _ => pure ()
  | true, turnPort => do
    let restarted ← attempt (ensureCoturn env config)
    match restarted with
    | .error e =>
      if e.isOobAdbError then
        Fallible.raise (.transportDisrupted "TURN prerequisite unavailable" true true)
      else Fallible.raise e
    | .ok restarted => do
      let verification ← ask env (.probeAdbReverseRules
        ([config.resolvedPort, config.usbBackendPort] ++ turnPort.toList))
      if !verification.flag then
        Fallible.raise (.transportDisrupted "ADB unavailable while verifying reverse rules"
          false false)
      else if !verification.missingPorts.isEmpty then
        Fallible.raise (.transportDisrupted "USB reverse rules missing" true true)
      else
        doIf restarted (Fallible.raise
          (.transportDisrupted "coturn restarted; renewing browser connection" true true))

/-! ### USB health -/

/-- The negotiated speed of the selected headset's link, if it can be told. -/
def inspectUsbLink : LifecycleM (Option ℚ) := do
  let link ← attempt do
    let listing ← ask env .adbDevicesListing
    doIf (!listing.flag) (Fallible.raise .oobAdbError)
    ask env .inspectLink
  match link with
  | .ok link => pure link.speed
  | .error e =>
    if e.isOobAdbError || e = .osError || e = .timeout then pure none else Fallible.raise e

def checkUsbLink : LifecycleM Unit := do
  publish env .degraded .checkingUsbLink
  let speed ← inspectUsbLink env
  modify fun s => { s with usbLinkSpeed := speed }
  publish env .degraded .usbLinkChecked

def confirmUsbAwake : LifecycleM Unit := do
  modify fun s => { s with usbWakeConfirmed := some false, usbWaitingForAwake := false }
  publish env .degraded .checkingUsbWake
  match ← attempt (perform env (.assertHeadsetAwake true)) with
  | .error e => do
    modify fun s => { s with usbWaitingForAwake := true }
    Fallible.raise e
  | .ok _ => modify fun s => { s with usbWakeConfirmed := some true }

def checkUsbTransfer : LifecycleM Unit := do
  let s ← get
  if s.usbWakeConfirmed ≠ some true then Fallible.raise .oobAdbError
  else do
    publish env .degraded .checkingUsbTransfer
    match ← attempt (ask env .measureTransfer) with
    | .ok transfer => modify fun s => { s with usbTransferCompleted := transfer.flag }
    | .error e =>
      if e = .osError || e = .timeout then
        modify fun s => { s with usbTransferCompleted := false }
      else do
        modify fun s => { s with usbTransferCompleted := false }
        Fallible.raise e

def Lifecycle.usbLaunchAllowed (policy : UsbHealthPolicy) (s : Lifecycle) : Bool :=
  let degraded := s.usbLinkSpeed.all (· < 5000) || !s.usbTransferCompleted
  policy ≠ .block || !degraded

/-! ### The browser -/

def prepareDevice : LifecycleM Unit := do
  let s ← get
  doIf (!s.identityVerified) do
    perform env .assertSupportedHeadset
    modify fun s => { s with identityVerified := true }
  perform env (.assertHeadsetAwake false)
  doIf (!s.cacheCleared) do
    let _ ← swallow (perform env .clearHeadsetBrowserCache)
    modify fun s => { s with cacheCleared := true }

/-- The helpers that click CONNECT call back when the page is loaded and when they clicked; the
second callback is awaited only after they clicked once more. -/
def clickConnect (helper : Helper) (onClientLoaded dispatched publishDispatched : LifecycleM Unit) :
    LifecycleM Unit := do
  perform env (.findPage helper)
  onClientLoaded
  perform env (.click helper)
  dispatched
  tryFinally (perform env (.clickAgain helper)) publishDispatched
  perform env (.awaitOutcome helper)

/-- `on_client_loaded` -/
def onClientLoaded : LifecycleM Unit := do
  modify fun s => { s with clientLoaded := true }
  publish env .degraded .clientLoaded

/-- `on_dispatched`, without what is awaited later. -/
def onDispatched : LifecycleM Unit := do
  let now ← wallTime env
  modify fun s => { s with connectAt := some now, connectDispatched := true }

def verifyBrowser : LifecycleM Unit := do
  let s ← get
  let done ← look env .monitorDone
  if s.monitor && done.flag then
    if config.usbLocal then
      Fallible.raise (.transportDisrupted "CDP monitor ended while verifying the browser"
        true true)
    else Fallible.raise .oobAdbError
  else
    match s.browserProbeAfter with
    | none => Fallible.raise .exception
    | some after => do
      let probe ← ask env (.probeBrowser s.generation after none)
      match probe.report with
      | none => publish env .degraded .verifyingBrowser
      | some report => do
        modify fun s => { s with
          browserClient := some report.clientId
          browserReady := true
          clientLoaded := true }
        publish env .browserReady .active

/-- What `_automate` forgets before it opens a page. -/
def Lifecycle.automating (s : Lifecycle) : Lifecycle :=
  { s with
    pendingCdpTerminalError := none
    sameTabWakeBlocked := false
    transportLost := false
    restoreExistingBrowser := false
    repairStartedAt := none
    clientGraceDeadline := none
    transportDisruptionSignature := none
    generation := s.generation + 1
    browserReady := false
    browserClient := none
    clientLoaded := false
    connectDispatched := false }

/-- `_automate`, once the page is being opened. -/
def openPage : LifecycleM Unit := do
  let before ← wallTime env
  modify fun s => { s with browserProbeAfter := some before }
  publish env .degraded .automatingBrowser
  clickConnect env .runOobConnect (onClientLoaded env) (onDispatched env)
    (publish env .degraded .connectDispatched)
  modify fun s => { s with monitor := true }
  let s ← get
  doIf (!s.connectDispatched) do
    onDispatched env
    publish env .degraded .connectDispatched
  publish env .degraded .verifyingBrowser
  verifyBrowser env config

def automate : LifecycleM Unit := do
  let s ← get
  note env (.automate s.preservingBrowser s.clientGraceDeadline)
  stopMonitor env
  modify Lifecycle.automating
  openPage env config

/-- Whether the page is monitored. -/
def attachExistingMonitor : LifecycleM Bool := do
  let s ← get
  let done ← look env .monitorDone
  if s.monitor && !done.flag then pure true
  else do
    modify fun s => { s with monitor := false }
    match ← attempt (perform env .attachMonitor) with
    | .ok _ => do
      modify fun s => { s with monitor := true }
      pure true
    | .error e => if e.isOobAdbError then pure false else Fallible.raise e

/-- The awaited part of `on_dispatched` in the surviving tab. -/
def publishSameTabDispatched : LifecycleM Unit := do
  let s ← get
  doIf (!s.clientLoaded) (onClientLoaded env)
  publish env .degraded .connectDispatched

/-- After a same-tab click: `none` when the headset is asleep, else whether it was dispatched. -/
def sameTabResult (key : ClickKey) : Except Failure Unit → LifecycleM (Option Bool)
  | .ok _ => do
    modify fun s => { s with monitor := true, sameTabWakeBlocked := false }
    let s ← get
    doIf (!s.connectDispatched) do
      onDispatched env
      publishSameTabDispatched env
    let deadline ← boundedClientGraceDeadline env config
    modify fun s => { s with clientGraceDeadline := some deadline }
    publish env .degraded .verifyingExistingBrowser
    pure (some true)
  | .error .headsetNotAwake => do
    modify fun s => { s with
      monitor := false
      connectDispatched := false
      softClickKeys := s.softClickKeys.erase key
      sameTabWakeBlocked := true }
    note env (.headsetAsleep key)
    publish env .degraded .waitingForAwake
    pure none
  | .error e =>
    if e.isOobAdbError then do
      modify fun s => { s with
        monitor := false
        connectDispatched := false
        sameTabWakeBlocked := false }
      pure (some false)
    else Fallible.raise e

def sameTabConnect (key : ClickKey) : LifecycleM (Option Bool) := do
  let s ← get
  if key ∈ s.softClickKeys then pure (some false)
  else do
    modify fun s => { s with softClickKeys := key :: s.softClickKeys }
    note env (.sameTabConnect key)
    stopMonitor env
    modify fun s => { s with connectDispatched := false }
    let result ← attempt (clickConnect env .attachExistingOobTab (onClientLoaded env)
      (onDispatched env) (publishSameTabDispatched env))
    sameTabResult env config key result

def fallbackToFreshBrowser : LifecycleM Unit := do
  match ← attempt (automate env config) with
  | .ok _ => pure ()
  | .error e => do
    let s ← get
    doIf ((e = .headsetNotAwake || e = .timeout) && !s.connectDispatched)
      (rememberBrowserWakeFailure env e)
    Fallible.raise e

/-! ### Recovering a surviving page -/

/-- Metrics that are younger than the repair and not stale. -/
def Config.freshPostRepair (config : Config) (repairStartedAt now : ℚ) (report : Headset) : Bool :=
  report.lastMetricsAt.any fun metricsAt =>
    repairStartedAt * 1000 < metricsAt && now * 1000 - metricsAt < config.metricsStaleSec * 1000

/-- What a report of the surviving page establishes. -/
def Lifecycle.browserFound (report : Headset) (s : Lifecycle) : Lifecycle :=
  { s with browserClient := some report.clientId, browserReady := true, clientLoaded := true }

/-- The stream is back: preservation ends. -/
def Lifecycle.streamResumed (now : ℚ) (s : Lifecycle) : Lifecycle :=
  { s with
    lastStreamAt := some now
    transportLost := false
    restoreExistingBrowser := false
    transportDisruptionSignature := none }

/-- A same-tab click at the end of the grace, and a fresh page when it fails. -/
def clickOrFallback : LifecycleM Unit := do
  let s ← get
  match ← sameTabConnect env config (.grace s.generation) with
  | some false => fallbackToFreshBrowser env config
  | _ => pure ()

/-- The end of `_recover_existing_browser` for a page without a fresh stream.  Only a dispatched
click moves the deadline, and then this is not reached. -/
def awaitStream (phase : String) (deadline : ℚ) : LifecycleM Unit := do
  let now ← clock env
  let s ← get
  if phase = "terminal" && !s.connectDispatched && deadline ≤ now then
    fallbackToFreshBrowser env config
  else if deadline ≤ now && phase ≠ "terminal" && !s.connectDispatched then
    clickOrFallback env config
  else do
    let _ ← attachExistingMonitor env
    publish env .browserReady .verifyingExistingBrowser

/-- `_recover_existing_browser` with a report. -/
def recoverReported (repairStartedAt deadline : ℚ) (cdpAttached : Bool) (report : Headset) :
    LifecycleM Unit := do
  modify (Lifecycle.browserFound report)
  let now ← wallTime env
  let fresh := report.streaming && config.freshPostRepair repairStartedAt now report
  if fresh && cdpAttached then do
    modify (Lifecycle.streamResumed now)
    note env .streamResumed
    modify fun s => { s with connectDispatched := true }
    publish env .active .active
  else if fresh then publish env .degraded .verifyingExistingBrowser
  else do
    let s ← get
    match report.terminalEventId with
    | some event =>
      if event ∈ s.handledTerminalEvents then awaitStream env config report.phase deadline
      else do
        match ← sameTabConnect env config (.terminal event) with
        | none => pure ()
        | some clicked => do
          modify fun s => { s with handledTerminalEvents := event :: s.handledTerminalEvents }
          if clicked then pure () else awaitStream env config report.phase deadline
    | none => awaitStream env config report.phase deadline

def recoverExistingBrowser : LifecycleM Unit := do
  let s ← get
  match s.repairStartedAt, s.clientGraceDeadline with
  | some repairStartedAt, some deadline => do
    let cdpAttached ← attachExistingMonitor env
    let probe ← ask env (.probeBrowser s.generation 0 none)
    match probe.report with
    | none => do
      let now ← clock env
      if now < deadline then publish env .degraded .verifyingExistingBrowser
      else clickOrFallback env config
    | some report => recoverReported env config repairStartedAt deadline cdpAttached report
  | _, _ => Fallible.raise .exception

def observePassiveRecovery : LifecycleM Unit := do
  let s ← get
  match s.repairStartedAt with
  | none => Fallible.raise .exception
  | some repairStartedAt => do
    let probe ← ask env (.probeBrowser s.generation 0 s.browserClient)
    match probe.report with
    | none => publish env .degraded .verifyingExistingBrowser
    | some report => do
      modify (Lifecycle.browserFound report)
      let now ← wallTime env
      if report.streaming && config.freshPostRepair repairStartedAt now report then do
        modify (Lifecycle.streamResumed now)
        note env .streamResumed
        publish env .active .active
      else publish env .degraded .verifyingExistingBrowser

/-! ### Watching the stream -/

/-- A failed same-tab CONNECT: the surviving page is preserved, on a transport that counts as
repaired now. -/
def preserveBrowser : LifecycleM Unit := do
  let now ← wallTime env
  let deadline ← boundedClientGraceDeadline env config
  modify fun s => { s with
    transportLost := true
    restoreExistingBrowser := true
    repairStartedAt := some now
    clientGraceDeadline := some deadline }

def handleCdpTerminalError (banner : String) : LifecycleM Unit := do
  modify fun s => { s with cdpTerminalErrorSeq := s.cdpTerminalErrorSeq + 1 }
  let s ← get
  if config.usbLocal then
    Fallible.raise (.transportDisrupted ("Browser reported a terminal stream error: " ++ banner)
      true true)
  else do
    match ← sameTabConnect env config (.cdp s.generation s.cdpTerminalErrorSeq) with
    | none => modify fun s => { s with pendingCdpTerminalError := some banner }
    | some true => pure ()
    | some false => preserveBrowser env config

/-- `_observe_stream` for a client without an unhandled terminal event. -/
def observeMetrics (client : Headset) : LifecycleM Unit := do
  let now ← wallTime env
  let s ← get
  let fresh := client.lastMetricsAt.any fun metricsAt =>
    now * 1000 - metricsAt < config.metricsStaleSec * 1000
  let afterConnect := client.lastMetricsAt.any fun metricsAt =>
    s.connectAt.any fun connectAt => connectAt * 1000 < metricsAt
  doIf (client.streaming && !fresh) do
    let probe ← ask env (.probeBrowser s.generation 0 s.browserClient)
    doIf probe.report.isNone <|
      if config.usbLocal then
        Fallible.raise (.transportDisrupted
          "Browser control heartbeat lost while metrics were stale" true true)
      else do
        modify fun s => { s with browserReady := false }
        Fallible.raise .oobAdbError
  if client.streaming && fresh && afterConnect then do
    modify fun s => { s with lastStreamAt := some now }
    publish env .active .active
  else publish env .browserReady .active

/-- `_observe_stream` for a client that the hub still has. -/
def observeClient (client : Headset) : LifecycleM Unit := do
  let s ← get
  if config.usbLocal && client.phase = "retrying" && !s.restoreExistingBrowser then
    Fallible.raise (.transportDisrupted "Browser is retrying after a stream transport disruption"
      true true)
  else
    match client.terminalEventId with
    | none => observeMetrics env config client
    | some event =>
      if event ∈ s.handledTerminalEvents then observeMetrics env config client
      else if config.usbLocal then
        Fallible.raise (.transportDisrupted ("Browser stream reached terminal event " ++ event)
          true true)
      else do
        match ← sameTabConnect env config (.terminal event) with
        | none => pure ()
        | some clicked => do
          modify fun s => { s with handledTerminalEvents := event :: s.handledTerminalEvents }
          doIf (!clicked) (preserveBrowser env config)

def observeStream : LifecycleM Unit := do
  let state ← ask env .getSnapshot
  let s ← get
  match state.headsets.find? fun headset => some headset.clientId = s.browserClient with
  | none =>
    if config.usbLocal then
      Fallible.raise (.transportDisrupted "Browser OOB control client disconnected" true true)
    else do
      modify fun s => { s with browserReady := false }
      Fallible.raise .oobAdbError
  | some client => do
    let done ← look env .monitorDone
    doIf done.flag (modify fun s => { s with monitor := false })
    let s ← get
    doIf (!s.monitor) do
      let attached ← attachExistingMonitor env
      doIf (config.usbLocal && !attached)
        (Fallible.raise (.transportDisrupted "CDP monitor unavailable for the existing browser"
          true true))
    observeClient env config client

/-! ### One pass -/

/-- Pin the only headset there is. -/
def selectDevice (devices : AdbDevices) : LifecycleM Unit := do
  let s ← get
  if s.selected.isSome then pure ()
  else
    match devices.devices with
    | [] => pure ()
    | [device] => modify fun s => { s with selected := some device.1 }
    | _ => Fallible.raise .oobAdbError

def noteObservation (devices : AdbDevices) : LifecycleM Unit := do
  let s ← get
  let observation := (devices.sorted, devices.diagnostic)
  doIf (s.lastObservation ≠ some observation) do
    restartEpisode env
    modify fun s => { s with readyCount := 0, lastObservation := some observation }

def Lifecycle.waitReason (s : Lifecycle) (devices : AdbDevices) : String :=
  match s.selected with
  | some serial =>
    if devices.state? serial = some "unauthorized" then
      "Selected headset unauthorized; accept the USB debugging prompt"
    else if devices.state? serial = some "offline" then
      "Selected headset offline; reconnect the USB cable"
    else "Waiting for selected headset to reconnect"
  | none =>
    let states := devices.devices.map Prod.snd
    if "unauthorized" ∈ states then "Headset unauthorized; accept the USB debugging prompt"
    else if "offline" ∈ states then "Headset offline; reconnect the USB cable"
    else if devices.diagnostic = "" then "Waiting for selected headset"
    else devices.diagnostic

/-- The selected headset is not ready. -/
def waitForAdb (devices : AdbDevices) : LifecycleM Unit := do
  modify fun s => { s with readyCount := 0 }
  let s ← get
  enterTransportRecovery env config (s.waitReason devices) .waitingForAdb false false false
  sleepTransportRetry env config

def listReverseRules : LifecycleM (Option String) :=
  if config.usbLocal then do
    let listing ← ask env .adbReverseList
    pure listing.rules
  else pure none

/-- Another topology invalidates a repair; another set of clients restarts the episode. -/
def compareSignature (preservingBrowser : Bool)
    (signature : List String × Option String × Option ℤ) : LifecycleM Unit := do
  let s ← get
  match s.prerequisiteSignature with
  | none => pure ()
  | some old =>
    if signature = old then pure ()
    else if preservingBrowser && signature.2 ≠ old.2 then
      invalidateCompletedRepair env (.topology signature.2.1 signature.2.2)
    else restartEpisode env

/-- The clients, rules and coturn that a repair rests on are looked at again. -/
def observePrerequisites (preservingBrowser : Bool) : LifecycleM Unit := do
  let state ← ask env .getSnapshot
  let clients := (state.headsets.map Headset.clientId).insertionSort (· ≤ ·)
  let rules ← listReverseRules env config
  let s ← get
  let poll ← look env .coturnPoll
  let signature := (clients, rules, if s.coturn then poll.exitCode else none)
  compareSignature env preservingBrowser signature
  modify fun s => { s with prerequisiteSignature := some signature }

/-- A preserved page after the episode, unless the headset is asleep. -/
def observePreserved : LifecycleM Unit := do
  let s ← get
  if s.repairStartedAt.isSome then observePassiveRecovery env config
  else publish env .degraded .verifyingExistingBrowser

/-- A preserved page after the episode. -/
def observeExpired : LifecycleM Unit := do
  let ended ← observeExpiredWake env config
  doIf (!ended) do
    observePreserved env config
    sleepTransportRetry env config

/-- The `try` block of the preserving branch. -/
def repairAndRecover : LifecycleM Unit := do
  let s ← get
  doIf s.repairStartedAt.isNone do
    publish env .degraded .rebuildingUsb
    perform env (.assertHeadsetAwake false)
    doIf (config.usbHealthPolicy ≠ .off) (checkUsbLink env)
    rebuildUsb env config
    let now ← wallTime env
    let deadline ← boundedClientGraceDeadline env config
    modify fun s => { s with repairStartedAt := some now, clientGraceDeadline := some deadline }
  recoverExistingBrowser env config

/-- The `except Exception` of the preserving branch. -/
def repairFailed : LifecycleM Unit := do
  modify fun s => { s with repairStartedAt := none, clientGraceDeadline := none }
  note env .repairForgotten
  let s ← get
  publish env .degraded (if s.browserWaitingForAwake then .waitingForAwake else .rebuildingUsb)

/-- The preserving branch without its sleep. -/
def tryRepair : LifecycleM Unit := do
  match ← attempt (repairAndRecover env config) with
  | .ok _ => pure ()
  | .error e => if e.isException then repairFailed env else Fallible.raise e

/-- A preserved page within the episode. -/
def preserve : LifecycleM Unit := do
  tryRepair env config
  sleepTransportRetry env config

/-- The body under `asyncio.timeout`; whether the pass is over. -/
def bootstrapBody : LifecycleM Bool := do
  doIf config.usbLocal (modify fun s => { s with
    usbWakeConfirmed := some false
    usbWaitingForAwake := false })
  prepareDevice env
  if !config.usbLocal then do
    automate env config
    pure false
  else do
    doIf (config.usbHealthPolicy ≠ .off) (checkUsbLink env)
    rebuildUsb env config
    doIf (config.usbHealthPolicy ≠ .off) do
      confirmUsbAwake env
      checkUsbTransfer env
    let s ← get
    if config.usbHealthPolicy ≠ .off && !s.usbLaunchAllowed config.usbHealthPolicy then do
      publish env .degraded .usbHealthBlocked
      sleepInterval env config
      pure true
    else do
      automate env config
      pure false

/-- `asyncio.timeout` -/
def withTimeout {α : Type} (x : LifecycleM α) : LifecycleM α := do
  match ← attempt x with
  | .ok a => pure a
  | .error .expired => Fallible.raise .timeout
  | .error e => Fallible.raise e

def bootstrap : LifecycleM Bool := do
  modify fun s => { s with browserWaitingForAwake := false }
  publish env .degraded .preparingDevice
  withTimeout (bootstrapBody env config)

/-- What a pass without a preserved page does; whether the pass is over. -/
def dispatch : LifecycleM Bool := do
  let s ← get
  match s.pendingCdpTerminalError with
  | some banner => do
    modify fun s => { s with pendingCdpTerminalError := none }
    handleCdpTerminalError env config banner
    pure false
  | none =>
    if s.browserReady then do
      observeStream env config
      pure false
    else if s.connectDispatched then do
      verifyBrowser env config
      pure false
    else bootstrap env config

/-- What becomes of a CONNECT when a pass fails. -/
def abandonConnect (freshBootstrap : Bool) (e : Failure) : LifecycleM Unit := do
  let s ← get
  if s.connectDispatched && e = .timeout then publish env .degraded .verifyingBrowser
  else do
    modify fun s => { s with connectDispatched := false }
    doIf (e = .headsetNotAwake || (freshBootstrap && e = .timeout))
      (rememberBrowserWakeFailure env e)
    let s ← get
    publish env .degraded (if s.browserWaitingForAwake then .waitingForAwake else .degraded)

/-- The `except Exception` of a pass. -/
def passFailed (e : Failure) : LifecycleM Unit := do
  let s ← get
  stopMonitor env
  modify fun s => { s with browserReady := false, browserClient := none }
  abandonConnect env (!s.browserReady && !s.connectDispatched) e
  sleepInterval env config

def passRaised (transportVerified : Bool) : Failure → LifecycleM Unit
  | .transportDisrupted reason adbReady networkPresent =>
    enterTransportRecovery env config reason .rebuildingUsb adbReady networkPresent
      transportVerified
  | e => if e.isException then passFailed env config e else Fallible.raise e

/-- A pass without a preserved page. -/
def work : LifecycleM Unit := do
  let s ← get
  let verifies := s.browserReady || s.connectDispatched
  match ← attempt (doIf verifies (checkUsbPrerequisites env config)) with
  | .error e => passRaised env config false e
  | .ok _ => do
    match ← attempt (dispatch env config) with
    | .error e => passRaised env config verifies e
    | .ok ended => doIf (!ended) (sleepInterval env config)

/-- The headset is ready and has a network. -/
def connected : LifecycleM Unit := do
  let s ← get
  let preservingBrowser := s.preservingBrowser
  doIf (!s.browserReady || preservingBrowser) (observePrerequisites env config preservingBrowser)
  let expired ← episodeExpired env config
  if preservingBrowser then
    if expired then observeExpired env config else preserve env config
  else do
    let s ← get
    if expired && !s.browserReady && !s.connectDispatched then do
      let ended ← observeExpiredWake env config
      doIf (!ended) do
        publish env .degraded .waitingForAdb
        sleepInterval env config
    else work env config

def observeNetwork : LifecycleM Unit := do
  let s ← get
  let network ← ask env (.probeHeadsetNetwork s.selected)
  doIf (s.lastNetworkState ≠ some network.network) do
    restartEpisode env
    modify fun s => { s with lastNetworkState := some network.network }
  match network.network with
  | .adbUnavailable => do
    enterTransportRecovery env config ("ADB unavailable: " ++ network.diagnostic) .waitingForAdb
      false false false
    sleepTransportRetry env config
  | .noNetwork => do
    enterTransportRecovery env config "Headset has no non-loopback network" .preparingDevice
      true false false
    sleepTransportRetry env config
  | .networkPresent => connected env config

/-- The selected headset is ready: twice in a row, unless a page is to be restored. -/
def deviceReady : LifecycleM Unit := do
  modify fun s => { s with readyCount := s.readyCount + 1 }
  let s ← get
  if s.readyCount < 2 && !s.restoreExistingBrowser then sleepTransportRetry env config
  else observeNetwork env config

def pass : LifecycleM Unit := do
  let s ← get
  mark env (.pass s.preservingBrowser s.selected)
  let reply ← ask env .enumerateAdbDevices
  selectDevice reply.devices
  noteObservation env reply.devices
  let s ← get
  if s.selectedReady reply.devices then deviceReady env config
  else waitForAdb env config reply.devices

/-! ### The task -/

def closeTeleopTab : LifecycleM Unit := do
  let s ← get
  doIf s.selected.isSome do
    let _ ← swallow (perform env .closeStaleTeleopTabs)
    pure ()

def cleanup : LifecycleM Unit := do
  stopMonitor env
  closeTeleopTab env
  shieldedCleanup env config
  let s ← get
  doIf s.coturn (perform env .stopCoturn)

def passes : ℕ → LifecycleM Unit
  | 0 => pure ()
  | n + 1 => do
    passes n
    pass env config

/-- The first `n` passes of the task, with its cleanup when one of them raises. -/
def run (n : ℕ) : LifecycleM Unit := do
  let result ← attempt do
    let s ← get
    doIf (!s.published) (publish env .starting .waitingForAdb)
    passes env config n
  match result with
  | .ok _ => pure ()
  | .error e => do
    cleanup env config
    Fallible.raise e

end Programs

end OobLifecycle
