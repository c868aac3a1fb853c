/-
The status monitor: a startup inventory and one published snapshot of it.

`rebuild` validates and installs the inventory, every refresh regroups the devices
by provider, reduces what it polled and publishes one new snapshot, and the terminal
marks overwrite the statuses.  An operation that raises publishes nothing.

* `StatusMonitor.rebuild`, `StatusMonitor.bindPluginContext`,
  `StatusMonitor.markAvailable` — startup;
* `StatusMonitor.refresh`, `StatusMonitor.refreshPluginProcesses` — running;
* `StatusMonitor.markStartupFailed`, `StatusMonitor.markRuntimeFailed`,
  `StatusMonitor.markStopped` — the terminal marks.
-/
import IsaacTeleop.StatusReduction

open StatusMonitoring

/-- A device of a plugin manifest; the path need not be a string. -/
structure DeviceDescriptor where
  path : Option String
  type : String
  description : String
  deriving DecidableEq, Repr

structure PluginProviderSpec where
  pluginRootId : String
  name : String
  devices : List DeviceDescriptor
  deriving DecidableEq, Repr

def PluginProviderSpec.providerId (self : PluginProviderSpec) : String :=
  "plugin/" ++ self.pluginRootId

/-- `_PluginRuntime`; `bound` says that its context is not `None`. -/
structure PluginRuntime where
  spec : PluginProviderSpec
  bound : Bool := false
  deriving DecidableEq, Repr

/-- The fields of `StatusMonitor`, apart from its locks. -/
structure StatusMonitor where
  snapshot : StatusSnapshot
  providersById : OrderedDict String ProviderStatus
  devicesById : OrderedDict String DeviceStatus
  pluginRuntimes : List PluginRuntime
  externalOpenxr : Bool
  runtimeFailed : Bool
  controllerUntrackedSinceNs : UntrackedSince

/-- What one refresh can poll: by provider id the process and the report, the owned
OpenXR session (`none` when there is none) and the controllers, if any are given. -/
structure Observations where
  process : String → Polled ProcessSnapshot
  report : String → Polled (Option Report)
  openxr : Option (Polled OpenxrSnapshot)
  controllers : Option (ControllerSide → Option ControllerSample)

/-- Why `rebuild` raises a `ValueError`. -/
inductive InventoryError
  | emptyRootId
  | collectionIdTooLong (collectionId : String)
  | duplicateProviderId (providerId : String)
  | emptyDevicePath
  | duplicateManifestPath (path : String)
  | duplicateDeviceId (deviceId : String)
  | openxrConflict
  deriving DecidableEq, Repr

namespace StatusMonitor

/-- `StatusMonitor()` -/
def init : StatusMonitor where
  snapshot := { updatedAtNs := 0, providers := [], devices := [] }
  providersById := ∅
  devicesById := ∅
  pluginRuntimes := []
  externalOpenxr := false
  runtimeFailed := false
  controllerUntrackedSinceNs _ := none

/-- `_replace_snapshot` -/
def replaceSnapshot (self : StatusMonitor) (snapshot : StatusSnapshot) : StatusMonitor :=
  { self with
    snapshot := snapshot
    providersById := snapshot.providers.foldl (fun d p => d.insert p.id p) ∅
    devicesById := snapshot.devices.foldl (fun d device => d.insert device.id device) ∅ }

/-- `get_provider_status` -/
def getProviderStatus (self : StatusMonitor) (providerId : String) : Option ProviderStatus :=
  self.providersById.get? providerId

/-- `get_device_status` -/
def getDeviceStatus (self : StatusMonitor) (deviceId : String) : Option DeviceStatus :=
  self.devicesById.get? deviceId

/-! ### Startup -/

/-- The inventory under construction: the collected lists and the ids in use. -/
structure Draft where
  providers : List ProviderStatus
  devices : List DeviceStatus
  deriving DecidableEq, Repr

def Draft.providerIds (self : Draft) : List String := self.providers.map fun p => p.id

def Draft.deviceIds (self : Draft) : List String := self.devices.map fun d => d.id

def initializingProvider (info : ProviderInfo) : ProviderStatus :=
  { info with status := .initializing, reason := .providerInitializing, error := "" }

def initializingDevice (info : DeviceInfo) : DeviceStatus :=
  { info with status := .initializing, reason := .providerInitializing, error := "" }

@[simp] theorem initializingProvider_info (info : ProviderInfo) :
    (initializingProvider info).toProviderInfo = info := rfl

@[simp] theorem initializingDevice_info (info : DeviceInfo) :
    (initializingDevice info).toDeviceInfo = info := rfl

/-- The loop over one plugin's devices; `manifestPaths` holds the paths seen. -/
def addPluginDevices (spec : PluginProviderSpec) :
    List DeviceDescriptor → List String → Draft → Except InventoryError Draft
  | [], _, draft => .ok draft
  | descriptor :: rest, manifestPaths, draft =>
    match descriptor.path with
    | none => .error .emptyDevicePath
    | some path =>
      if path = "" then .error .emptyDevicePath
      else if path ∈ manifestPaths then .error (.duplicateManifestPath path)
      else
        let deviceId := spec.pluginRootId ++ path
        if deviceId = "" ∨ deviceId ∈ draft.deviceIds then .error (.duplicateDeviceId deviceId)
        else
          let device := initializingDevice
            { id := deviceId, path := path, type := descriptor.type
              description := descriptor.description, providerId := spec.providerId }
          addPluginDevices spec rest (manifestPaths ++ [path])
            { draft with devices := draft.devices ++ [device] }

/-- The loop over the plugins. -/
def addPlugins : List PluginProviderSpec → Draft → Except InventoryError Draft
  | [], draft => .ok draft
  | spec :: rest, draft =>
    let collectionId := spec.pluginRootId ++ pluginStatusCollectionSuffix
    if spec.pluginRootId = "" then .error .emptyRootId
    else if collectionId.utf8ByteSize > openxrIdentifierMaxBytes then
      .error (.collectionIdTooLong collectionId)
    else if spec.providerId = "" ∨ spec.providerId ∈ draft.providerIds then
      .error (.duplicateProviderId spec.providerId)
    else
      let provider := initializingProvider
        { id := spec.providerId, type := .plugin, name := spec.name }
      match addPluginDevices spec spec.devices []
          { draft with providers := draft.providers ++ [provider] } with
      | .error e => .error e
      | .ok draft' => addPlugins rest draft'

def headsetInfo : DeviceInfo where
  id := openxrDeviceId
  path := "/headset"
  type := "headset"
  description := "OpenXR headset"
  providerId := openxrProviderId

def controllerInfo (side : ControllerSide) : DeviceInfo where
  id := side.deviceId
  path := side.path
  type := "controller"
  description := side.title ++ " OpenXR controller"
  providerId := openxrProviderId

/-- The devices of the OpenXR provider. -/
def openxrDevices (includeControllers : Bool) : List DeviceInfo :=
  headsetInfo :: if includeControllers then [controllerInfo .left, controllerInfo .right] else []

def addOpenxr (includeControllers : Bool) (draft : Draft) : Except InventoryError Draft :=
  if openxrProviderId ∈ draft.providerIds ∨
      ∃ info ∈ openxrDevices includeControllers, info.id ∈ draft.deviceIds then
    .error .openxrConflict
  else
    .ok { providers := draft.providers ++ [initializingProvider
            { id := openxrProviderId, type := .openxrRuntime, name := "OpenXR Runtime" }]
          devices := draft.devices ++ (openxrDevices includeControllers).map initializingDevice }

/-- The validated inventory of `rebuild`. -/
def buildInventory (pluginSpecs : List PluginProviderSpec) (includeOpenxr : Bool)
    (includeControllers : Bool) : Except InventoryError Draft :=
  match addPlugins pluginSpecs { providers := [], devices := [] } with
  | .error e => .error e
  | .ok draft => if includeOpenxr then addOpenxr includeControllers draft else .ok draft

/-- `rebuild`; a refused inventory changes nothing. -/
def rebuild (pluginSpecs : List PluginProviderSpec) (includeOpenxr externalOpenxr : Bool)
    (includeControllers : Bool) (nowNs : ℤ) : Fallible StatusMonitor InventoryError Unit :=
  fun self =>
    match buildInventory pluginSpecs includeOpenxr includeControllers with
    | .error e => (.error e, self)
    | .ok draft =>
      let self := { self with
        pluginRuntimes := pluginSpecs.map fun spec => { spec := spec }
        externalOpenxr := externalOpenxr
        runtimeFailed := false
        controllerUntrackedSinceNs := fun _ => none }
      (.ok (), self.replaceSnapshot
        { updatedAtNs := nowNs, providers := draft.providers, devices := draft.devices })

/-- `bind_plugin_context`, on the first runtime of that provider. -/
def bindPluginContext [PythonRepr] (providerId : String) (bound : Bool) :
    Fallible StatusMonitor Raised Unit :=
  fun self =>
    match self.pluginRuntimes.findIdx? fun runtime => runtime.spec.providerId = providerId with
    | none =>
      (.error (.exception ("unknown plugin provider " ++ PythonRepr.repr providerId)), self)
    | some i =>
      (.ok (), { self with pluginRuntimes := self.pluginRuntimes.modify i fun runtime =>
        { runtime with bound := bound } })

/-- The device part of `mark_available`. -/
def availableDevice (externalOpenxr : Bool) (device : DeviceStatus) : DeviceStatus :=
  if device.providerId = openxrProviderId then
    if device.id ≠ openxrDeviceId then
      { device with status := .unknown, reason := .noCurrentData
                    error := "waiting for the first controller tracking sample" }
    else
      { device with
        status := if externalOpenxr then .unknown else .connected
        reason := if externalOpenxr then .externalOpenxrHealthUnknown else .openxrSessionReady
        error := "" }
  else { device with status := .unknown, reason := .noReport, error := "" }

/-- `mark_available` -/
def markAvailable (nowNs : ℤ) (self : StatusMonitor) : StatusMonitor :=
  self.replaceSnapshot
    { updatedAtNs := nowNs
      providers := self.snapshot.providers.map fun provider =>
        { provider with status := .available, reason := .none, error := "" }
      devices := self.snapshot.devices.map (availableDevice self.externalOpenxr) }

/-! ### Refreshing -/

/-- The two dictionaries a refresh works on. -/
structure Work where
  providersById : OrderedDict String ProviderStatus
  devicesByProvider : OrderedDict String (List DeviceStatus)

def Work.of (snapshot : StatusSnapshot) : Work where
  providersById := snapshot.providers.foldl (fun d p => d.insert p.id p) ∅
  devicesByProvider := snapshot.providers.foldl (fun d p =>
    d.insert p.id (snapshot.devices.filter fun device => device.providerId = p.id)) ∅

/-- `d[key]`, a `KeyError` when it is missing. -/
def lookup {α : Type} (d : OrderedDict String α) (key : String) : Polled α :=
  match d.get? key with
  | some a => .ok a
  | none => .error (.exception key)

/-- `runtime.context.get_process_snapshot()` -/
def processOf (obs : Observations) (runtime : PluginRuntime) : Polled ProcessSnapshot :=
  if runtime.bound then obs.process runtime.spec.providerId
  else .error (.exception "'NoneType' object has no attribute 'get_process_snapshot'")

/-- Poll one plugin's process; the flag says that the provider's state decided its
devices. -/
def refreshProcess (obs : Observations) (work : Work) (runtime : PluginRuntime) :
    Polled (Work × Bool) := do
  let providerId := runtime.spec.providerId
  let current ← lookup work.providersById providerId
  let provider ← pollProcess current (processOf obs runtime)
  let work := { work with providersById := work.providersById.insert providerId provider }
  let devices ← lookup work.devicesByProvider providerId
  match providerPrecedence devices provider with
  | some precedenceDevices =>
    return ({ work with devicesByProvider :=
      work.devicesByProvider.insert providerId precedenceDevices }, true)
  | none => return (work, false)

/-- The devices of an available plugin under what polling its report gave. -/
def reportDevices [PythonRepr] (report : Polled (Option Report)) (devices : List DeviceStatus)
    (nowNs : ℤ) : Polled (List DeviceStatus) :=
  match report with
  | .error .baseException => .error .baseException
  | .error (.exception text) => .ok (unknownDevices devices .malformedReport text)
  | .ok report => reduceReport devices report nowNs

/-- One round of the plugin loop of `_refresh`. -/
def refreshPlugin [PythonRepr] (obs : Observations) (nowNs : ℤ) (work : Work)
    (runtime : PluginRuntime) : Polled Work := do
  let providerId := runtime.spec.providerId
  let (work, decided) ← refreshProcess obs work runtime
  if decided then return work
  let devices ← lookup work.devicesByProvider providerId
  let reduced ← reportDevices (obs.report providerId) devices nowNs
  return { work with devicesByProvider := work.devicesByProvider.insert providerId reduced }

/-- One round of the plugin loop of `_refresh_plugin_processes`. -/
def refreshPluginProcess (obs : Observations) (work : Work) (runtime : PluginRuntime) :
    Polled Work := do
  let (work, _) ← refreshProcess obs work runtime
  return work

/-- What polling the owned OpenXR session makes of provider and headset. -/
def pollOpenxr [PythonRepr] (openxr : Option (Polled OpenxrSnapshot)) (provider : ProviderStatus)
    (headset : DeviceStatus) : Polled (ProviderStatus × DeviceStatus) :=
  let polled : Polled (ProviderStatus × DeviceStatus) := match openxr with
    | none => .error (.exception "owned OpenXR session is unavailable")
    | some (.error e) => .error e
    | some (.ok snapshot) => reduceOpenxr provider headset snapshot
  match polled with
  | .ok reduced => .ok reduced
  | .error .baseException => .error .baseException
  | .error (.exception text) =>
    .ok ({ provider with status := .failed, reason := .openxrPollError, error := text },
      { headset with status := .unavailable, reason := .openxrPollError, error := text })

/-- The OpenXR poll of `_refresh`: an owned session whose provider has not failed. -/
def refreshOpenxr [PythonRepr] (externalOpenxr : Bool) (obs : Observations) (work : Work) :
    Polled Work :=
  match work.providersById.get? openxrProviderId with
  | none => .ok work
  | some provider =>
    if externalOpenxr then .ok work
    else do
      let devices ← lookup work.devicesByProvider openxrProviderId
      match devices.find? fun device => device.id = openxrDeviceId with
      | none => .error (.exception "")
      | some headset =>
        if provider.status = .failed then return work
        let (provider, headset) ← pollOpenxr obs.openxr provider headset
        return { providersById := work.providersById.insert openxrProviderId provider
                 devicesByProvider := work.devicesByProvider.insert openxrProviderId
                   (devices.map fun device =>
                     if device.id = openxrDeviceId then headset else device) }

/-- The last OpenXR step of `_refresh`: a failed provider decides its devices, else the
controller samples do. -/
def settleOpenxr (obs : Observations) (nowNs : ℤ) (work : Work) :
    Fallible UntrackedSince Raised Work :=
  match work.providersById.get? openxrProviderId with
  | none => pure work
  | some provider => do
    let devices ← Fallible.lift (lookup work.devicesByProvider openxrProviderId)
    if provider.status = .failed then
      let unavailable := setDevices devices .unavailable provider.reason provider.error
      return { work with devicesByProvider :=
        work.devicesByProvider.insert openxrProviderId unavailable }
    match obs.controllers with
    | none => return work
    | some snapshots =>
      let reduced ← reduceOpenxrControllers snapshots nowNs devices
      return { work with devicesByProvider :=
        work.devicesByProvider.insert openxrProviderId reduced }

/-- The snapshot a refresh publishes: providers in their old order, each followed by
its devices. -/
def regroup (nowNs : ℤ) (snapshot : StatusSnapshot) (work : Work) : Polled StatusSnapshot := do
  let providers ← snapshot.providers.mapM fun provider => lookup work.providersById provider.id
  let groups ← providers.mapM fun provider => lookup work.devicesByProvider provider.id
  return { updatedAtNs := nowNs, providers := providers, devices := groups.flatten }

/-- `_refresh` -/
def refresh [PythonRepr] (obs : Observations) (nowNs : ℤ) : Fallible StatusMonitor Raised Unit :=
  fun self =>
    if self.runtimeFailed then (.ok (), self)
    else
      let plugins := do
        let work ← self.pluginRuntimes.foldlM (refreshPlugin obs nowNs) (Work.of self.snapshot)
        refreshOpenxr self.externalOpenxr obs work
      match plugins with
      | .error e => (.error e, self)
      | .ok work =>
        let (settled, untracked) := settleOpenxr obs nowNs work self.controllerUntrackedSinceNs
        let self := { self with controllerUntrackedSinceNs := untracked }
        match settled >>= regroup nowNs self.snapshot with
        | .error e => (.error e, self)
        | .ok snapshot => (.ok (), self.replaceSnapshot snapshot)

/-- `_refresh_plugin_processes` -/
def refreshPluginProcesses (obs : Observations) (nowNs : ℤ) :
    Fallible StatusMonitor Raised Unit :=
  fun self =>
    if self.runtimeFailed then (.ok (), self)
    else
      let published := do
        let work ← self.pluginRuntimes.foldlM (refreshPluginProcess obs) (Work.of self.snapshot)
        regroup nowNs self.snapshot work
      match published with
      | .error e => (.error e, self)
      | .ok snapshot => (.ok (), self.replaceSnapshot snapshot)

/-! ### Terminal marks -/

/-- `_mark_terminal` -/
def markTerminal (state : ProviderState) (reason : StatusReason) (error : String)
    (deviceReason : Option StatusReason) (preserveFailed : Bool) (nowNs : ℤ)
    (self : StatusMonitor) : StatusMonitor :=
  let providers := self.snapshot.providers.map fun provider =>
    if preserveFailed && decide (provider.status = .failed) then provider
    else { provider with status := state, reason := reason, error := error }
  let preservedProviderIds : List String := (providers.filter fun provider =>
    preserveFailed && decide (provider.status = .failed)).map fun provider => provider.id
  let deviceReason := match deviceReason with
    | some reason => reason
    | none => if state = .failed then .providerFailed else .providerStopped
  let devices := self.snapshot.devices.map fun device =>
    if device.providerId ∈ preservedProviderIds then device
    else { device with status := .unavailable, reason := deviceReason, error := error }
  self.replaceSnapshot { updatedAtNs := nowNs, providers := providers, devices := devices }

/-- `mark_startup_failed` -/
def markStartupFailed (error : String) (nowNs : ℤ) (self : StatusMonitor) : StatusMonitor :=
  self.markTerminal .failed .startupFailed error none false nowNs

/-- `mark_runtime_failed` -/
def markRuntimeFailed (error : String) (nowNs : ℤ) (self : StatusMonitor) : StatusMonitor :=
  { self with runtimeFailed := true }.markTerminal .failed .runtimeUpdateFailed error
    (some .runtimeUpdateFailed) false nowNs

/-- `mark_stopped` -/
def markStopped (nowNs : ℤ) (self : StatusMonitor) : StatusMonitor :=
  self.markTerminal .stopped .providerStopped "" none true nowNs

end StatusMonitor
