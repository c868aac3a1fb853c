/-
One refresh of the status monitor.

A refresh works on two dictionaries, changes the entries of one provider at a time and
regroups them at the end.  Along it the entries keep what identifies them and the
devices of a failed or stopped provider become unavailable.

* `reduceReport_infos`, `pollOpenxr_reduced`, … — the reductions change statuses only;
* `WorkOk` — the invariant of a refresh in progress;
* `foldlM_rounds`, `refreshOpenxr_ok`, `settleOpenxr_ok` — its steps;
* `regroup_consistent` — the snapshot it publishes.
-/
import IsaacTeleop.StatusMonitor

open StatusMonitoring

namespace StatusMonitor

/-! ### The reductions change statuses only -/

/-- What identifies the devices of a list. -/
def infos (devices : List DeviceStatus) : List DeviceInfo := devices.map fun d => d.toDeviceInfo

/-- A sequence that returned: both parts did. -/
theorem polled_bind_inv {α β : Type} {x : Polled α} {f : α → Polled β} {b : β}
    (h : (x >>= f) = .ok b) : ∃ a, x = .ok a ∧ f a = .ok b :=
  match x, h with
  | .ok a, h => ⟨a, rfl, h⟩

theorem infos_setDevices (devices : List DeviceStatus) (status : DeviceState)
    (reason : StatusReason) (error : String) :
    infos (setDevices devices status reason error) = infos devices := by
  rw [infos, setDevices, List.map_map]
  rfl

theorem setDevices_status {devices : List DeviceStatus} {status : DeviceState}
    {reason : StatusReason} {error : String} {d : DeviceStatus}
    (h : d ∈ setDevices devices status reason error) : d.status = status := by
  obtain ⟨d', -, rfl⟩ := List.mem_map.mp h
  rfl

theorem pollProcess_info {provider provider' : ProviderStatus} {process : Polled ProcessSnapshot}
    (h : pollProcess provider process = .ok provider') :
    provider'.toProviderInfo = provider.toProviderInfo := by
  match process with
  | .error .baseException => cases h
  | .error (.exception text) =>
    cases h
    rfl
  | .ok snapshot =>
    cases h
    rw [reduceProcess]
    dsimp only
    split
    case isTrue => rfl
    case isFalse =>
      split
      case isTrue => rfl
      case isFalse => rfl

section Reports

variable [PythonRepr]

theorem reduceEntry_info {device device' : DeviceStatus} {entry : ReportEntry}
    (h : reduceEntry device entry = .ok device') :
    device'.toDeviceInfo = device.toDeviceInfo := by
  rw [reduceEntry] at h
  obtain ⟨stateName, -, h⟩ := polled_bind_inv h
  cases hstate : pluginDeviceState stateName with
  | none =>
    rw [hstate] at h
    cases h
  | some state =>
    rw [hstate] at h
    obtain ⟨reasonName, -, h⟩ := polled_bind_inv h
    cases hreason : pluginDeviceReason reasonName with
    | none =>
      rw [hreason] at h
      cases h
    | some reason =>
      rw [hreason] at h
      dsimp only at h
      split at h
      case isTrue => cases h
      case isFalse =>
        obtain ⟨entryError, -, h⟩ := polled_bind_inv h
        cases hstr : entryError.str? with
        | none =>
          rw [hstr] at h
          cases h
        | some error =>
          rw [hstr] at h
          cases h
          rfl

theorem reduceEntries_infos {entries : OrderedDict String ReportEntry}
    {devices devices' : List DeviceStatus} (h : reduceEntries entries devices = .ok devices') :
    infos devices' = infos devices := by
  induction devices generalizing devices' with
  | nil =>
    cases h
    rfl
  | cons device rest ih =>
    rw [reduceEntries] at h
    cases hget : entries.get? device.path with
    | none =>
      rw [hget] at h
      cases h
    | some entry =>
      rw [hget] at h
      obtain ⟨reduced, hreduced, h⟩ := polled_bind_inv h
      obtain ⟨others, hothers, h⟩ := polled_bind_inv h
      cases h
      show reduced.toDeviceInfo :: infos others = device.toDeviceInfo :: infos rest
      rw [reduceEntry_info hreduced, ih hothers]

theorem reduceReportBody_infos {devices devices' : List DeviceStatus} {report : Report} {nowNs : ℤ}
    (h : reduceReportBody devices report nowNs = .ok devices') :
    infos devices' = infos devices := by
  rw [reduceReportBody] at h
  obtain ⟨version, -, h⟩ := polled_bind_inv h
  split at h
  case isTrue =>
    cases h
    exact infos_setDevices _ _ _ _
  case isFalse =>
    obtain ⟨reportTime, -, h⟩ := polled_bind_inv h
    cases hint : reportTime.int? with
    | none =>
      rw [hint] at h
      cases h
    | some reportTimeNs =>
      rw [hint] at h
      dsimp only at h
      split at h
      case isTrue => cases h
      case isFalse =>
        split at h
        case isTrue =>
          cases h
          exact infos_setDevices _ _ _ _
        case isFalse =>
          obtain ⟨entries, -, h⟩ := polled_bind_inv h
          obtain ⟨entriesByPath, -, h⟩ := polled_bind_inv h
          split at h
          case isTrue => cases h
          case isFalse => exact reduceEntries_infos h

/-- **A report changes statuses only.** -/
theorem reduceReport_infos {devices devices' : List DeviceStatus} {report : Option Report}
    {nowNs : ℤ} (h : reduceReport devices report nowNs = .ok devices') :
    infos devices' = infos devices := by
  cases report with
  | none =>
    cases h
    exact infos_setDevices _ _ _ _
  | some report =>
    rw [reduceReport] at h
    match hbody : reduceReportBody devices report nowNs with
    | .ok reduced =>
      rw [hbody] at h
      cases h
      exact reduceReportBody_infos hbody
    | .error (.exception text) =>
      rw [hbody] at h
      cases h
      exact infos_setDevices _ _ _ _
    | .error .baseException =>
      rw [hbody] at h
      cases h

theorem reportDevices_infos {report : Polled (Option Report)} {devices devices' : List DeviceStatus}
    {nowNs : ℤ} (h : reportDevices report devices nowNs = .ok devices') :
    infos devices' = infos devices := by
  match report with
  | .error .baseException => cases h
  | .error (.exception text) =>
    cases h
    exact infos_setDevices _ _ _ _
  | .ok report => exact reduceReport_infos h

/-- What a poll of the OpenXR session leaves: the same provider and headset, and a
failed or available provider. -/
def OpenxrReduced (provider : ProviderStatus) (headset : DeviceStatus)
    (reduced : ProviderStatus × DeviceStatus) : Prop :=
  reduced.1.toProviderInfo = provider.toProviderInfo ∧
    reduced.2.toDeviceInfo = headset.toDeviceInfo ∧
    (reduced.1.status = .failed ∨ reduced.1.status = .available)

theorem reduceOpenxr_reduced {provider : ProviderStatus} {headset : DeviceStatus}
    {snapshot : OpenxrSnapshot} {reduced : ProviderStatus × DeviceStatus}
    (h : reduceOpenxr provider headset snapshot = .ok reduced) :
    OpenxrReduced provider headset reduced := by
  rw [reduceOpenxr] at h
  cases herror : snapshot.error.str? with
  | none =>
    rw [herror] at h
    cases h
  | some error =>
    rw [herror] at h
    dsimp only at h
    split at h
    case isTrue => cases h
    case isFalse =>
      split at h
      case isTrue =>
        -- A failure needs a reason that the reducer knows.
        cases hreason : openxrFailureReason snapshot.reason with
        | none =>
          rw [hreason] at h
          cases h
        | some reason =>
          rw [hreason] at h
          cases h
          exact ⟨rfl, rfl, Or.inl rfl⟩
      case isFalse =>
        split at h
        case isTrue => cases h
        case isFalse =>
          split at h
          case isTrue =>
            split at h
            case isTrue => cases h
            case isFalse =>
              cases h
              exact ⟨rfl, rfl, Or.inr rfl⟩
          case isFalse =>
            split at h
            case isTrue => cases h
            case isFalse =>
              cases h
              exact ⟨rfl, rfl, Or.inr rfl⟩

/-- **A poll of the OpenXR session changes statuses only.** -/
theorem pollOpenxr_reduced {openxr : Option (Polled OpenxrSnapshot)} {provider : ProviderStatus}
    {headset : DeviceStatus} {reduced : ProviderStatus × DeviceStatus}
    (h : pollOpenxr openxr provider headset = .ok reduced) :
    OpenxrReduced provider headset reduced := by
  match openxr with
  | none =>
    cases h
    exact ⟨rfl, rfl, Or.inl rfl⟩
  | some (.error .baseException) => cases h
  | some (.error (.exception text)) =>
    cases h
    exact ⟨rfl, rfl, Or.inl rfl⟩
  | some (.ok snapshot) =>
    rw [pollOpenxr] at h
    match hred : reduceOpenxr provider headset snapshot with
    | .ok reduced' =>
      rw [hred] at h
      cases h
      exact reduceOpenxr_reduced hred
    | .error .baseException =>
      rw [hred] at h
      cases h
    | .error (.exception text) =>
      rw [hred] at h
      cases h
      exact ⟨rfl, rfl, Or.inl rfl⟩

end Reports

theorem reduceController_info (device : DeviceStatus) (side : ControllerSide)
    (snapshot : Option ControllerSample) (nowNs : ℤ) (untracked : UntrackedSince) :
    Fallible.wp (reduceController device side snapshot nowNs)
      (fun d _ => d.toDeviceInfo = device.toDeviceInfo) (fun _ _ => True) untracked := by
  unfold Fallible.wp reduceController
  match posesValid snapshot with
  | .error .baseException => trivial
  | .error (.exception text) => rfl
  | .ok (aimValid, gripValid) =>
    dsimp only
    cases aimValid && gripValid with
    | true => rfl
    | false =>
      cases untracked side with
      | none => rfl
      | some sinceNs =>
        dsimp only
        by_cases hdelay : nowNs - sinceNs < openxrControllerTrackingLossDelayNs
        · simp [hdelay]
        · simp [hdelay]

/-- **The controller samples change statuses only.** -/
theorem reduceOpenxrControllers_infos (snapshots : ControllerSide → Option ControllerSample)
    (nowNs : ℤ) (devices : List DeviceStatus) (untracked : UntrackedSince) :
    Fallible.wp (reduceOpenxrControllers snapshots nowNs devices)
      (fun ds _ => infos ds = infos devices) (fun _ _ => True) untracked := by
  induction devices generalizing untracked with
  | nil => exact Fallible.wp_pure rfl
  | cons device rest ih =>
    have hhead : Fallible.wp (reduceOpenxrDevice snapshots nowNs device)
        (fun d _ => d.toDeviceInfo = device.toDeviceInfo) (fun _ _ => True) untracked := by
      rw [reduceOpenxrDevice]
      cases controllerSideById device.id with
      | none => exact Fallible.wp_pure rfl
      | some side => exact reduceController_info device side (snapshots side) nowNs untracked
    rw [reduceOpenxrControllers]
    refine Fallible.wp_bind (Fallible.wp_mono hhead ?_ (fun _ _ h => h))
    intro reduced untracked₁ hreduced
    refine Fallible.wp_bind (Fallible.wp_mono (ih untracked₁) ?_ (fun _ _ h => h))
    intro others untracked₂ hothers
    refine Fallible.wp_pure ?_
    show reduced.toDeviceInfo :: infos others = device.toDeviceInfo :: infos rest
    rw [hreduced, hothers]

/-! ### Inventories -/

/-- What identifies the providers and devices of a snapshot, in order. -/
structure Inventory where
  providers : List ProviderInfo
  devices : List DeviceInfo
  deriving DecidableEq, Repr

def inventory (snapshot : StatusSnapshot) : Inventory where
  providers := snapshot.providers.map fun p => p.toProviderInfo
  devices := infos snapshot.devices

/-- Distinct ids, and the devices stand provider by provider. -/
structure Inventory.WellFormed (inv : Inventory) : Prop where
  providerIds : (inv.providers.map fun p => p.id).Nodup
  deviceIds : (inv.devices.map fun d => d.id).Nodup
  grouped : inv.providers.flatMap (fun p => inv.devices.filter fun d => d.providerId = p.id)
    = inv.devices

theorem provider_id_eq {p q : ProviderStatus} (h : p.toProviderInfo = q.toProviderInfo) :
    p.id = q.id :=
  congrArg ProviderInfo.id h

theorem nodup_providers {snapshot : StatusSnapshot} (h : (inventory snapshot).WellFormed) :
    (snapshot.providers.map fun p => p.id).Nodup := by
  have hids := h.providerIds
  rw [inventory, List.map_map] at hids
  exact hids

theorem nodup_devices {snapshot : StatusSnapshot} (h : (inventory snapshot).WellFormed) :
    (snapshot.devices.map fun d => d.id).Nodup := by
  have hids := h.deviceIds
  rw [inventory, infos, List.map_map] at hids
  exact hids

/-- Every device belongs to a listed provider. -/
theorem provider_of_device {snapshot : StatusSnapshot} (h : (inventory snapshot).WellFormed)
    {d : DeviceStatus} (hd : d ∈ snapshot.devices) :
    ∃ p ∈ snapshot.providers, p.id = d.providerId := by
  have hinfo : d.toDeviceInfo ∈ (inventory snapshot).devices := List.mem_map.mpr ⟨d, hd, rfl⟩
  rw [← h.grouped] at hinfo
  obtain ⟨info, hp, hfilter⟩ := List.mem_flatMap.mp hinfo
  obtain ⟨p, hpmem, rfl⟩ := List.mem_map.mp hp
  have hid : d.providerId = p.id := by simpa using (List.mem_filter.mp hfilter).2
  exact ⟨p, hpmem, hid.symm⟩

theorem infos_filter (devices : List DeviceStatus) (providerId : String) :
    infos (devices.filter fun d => d.providerId = providerId)
      = (infos devices).filter fun d => d.providerId = providerId := by
  rw [infos, infos, List.filter_map]
  rfl

/-! ### A refresh in progress -/

section Refresh

variable (T : ProviderState → Prop)

/-- The devices of every provider whose state is in `T` are unavailable. -/
def Consistent (snapshot : StatusSnapshot) : Prop :=
  ∀ p ∈ snapshot.providers, T p.status → ∀ d ∈ snapshot.devices, d.providerId = p.id →
    d.status = .unavailable

/-- The OpenXR provider is in `T` only by having failed. -/
def OpenxrOk (snapshot : StatusSnapshot) : Prop :=
  ∀ p ∈ snapshot.providers, p.id = openxrProviderId → T p.status → p.status = .failed

/-- Between the steps of a refresh of `snapshot`: the entries keep what identifies
them, and the plugins' devices follow their providers; the OpenXR devices are brought
in line at the end. -/
structure WorkOk (snapshot : StatusSnapshot) (work : Work) : Prop where
  provider_info : ∀ q ∈ snapshot.providers, ∀ p, work.providersById.get? q.id = some p →
    p.toProviderInfo = q.toProviderInfo
  device_infos : ∀ id ds, work.devicesByProvider.get? id = some ds →
    infos ds = infos (snapshot.devices.filter fun d => d.providerId = id)
  consistent : ∀ id p ds, id ≠ openxrProviderId → work.providersById.get? id = some p →
    work.devicesByProvider.get? id = some ds → T p.status → ∀ d ∈ ds, d.status = .unavailable
  openxr : ∀ p, work.providersById.get? openxrProviderId = some p → T p.status →
    p.status = .failed

variable {T}

theorem workOf_provider {snapshot : StatusSnapshot} (hwf : (inventory snapshot).WellFormed)
    {p : ProviderStatus} (hp : p ∈ snapshot.providers) :
    (Work.of snapshot).providersById.get? p.id = some p :=
  OrderedDict.get?_foldl_insert_of_mem (fun p : ProviderStatus => p.id) (fun p => p)
    (nodup_providers hwf) hp ∅

theorem mem_of_workOf_provider {snapshot : StatusSnapshot} {id : String} {p : ProviderStatus}
    (hp : (Work.of snapshot).providersById.get? id = some p) :
    p ∈ snapshot.providers ∧ p.id = id := by
  rcases OrderedDict.get?_foldl_insert (fun p : ProviderStatus => p.id) (fun p => p) hp
    with hnone | ⟨q, hq, hid, rfl⟩
  · cases hnone
  · exact ⟨hq, hid⟩

theorem workOf_devices {snapshot : StatusSnapshot} {id : String} {ds : List DeviceStatus}
    (hds : (Work.of snapshot).devicesByProvider.get? id = some ds) :
    ds = snapshot.devices.filter fun d => d.providerId = id := by
  rcases OrderedDict.get?_foldl_insert (fun p : ProviderStatus => p.id)
      (fun p => snapshot.devices.filter fun d : DeviceStatus => d.providerId = p.id) hds
    with hnone | ⟨q, -, rfl, rfl⟩
  · cases hnone
  · rfl

/-- At the start of a refresh the devices of every entry follow it. -/
theorem workOf_consistent {snapshot : StatusSnapshot} (hcons : Consistent T snapshot) {id : String}
    {p : ProviderStatus} {ds : List DeviceStatus}
    (hp : (Work.of snapshot).providersById.get? id = some p)
    (hds : (Work.of snapshot).devicesByProvider.get? id = some ds) (hT : T p.status) :
    ∀ d ∈ ds, d.status = .unavailable := by
  intro d hd
  obtain ⟨hmem, rfl⟩ := mem_of_workOf_provider hp
  rw [workOf_devices hds] at hd
  obtain ⟨hmem', hid⟩ := List.mem_filter.mp hd
  exact hcons p hmem hT d hmem' (by simpa using hid)

theorem workOk_of {snapshot : StatusSnapshot} (hwf : (inventory snapshot).WellFormed)
    (hcons : Consistent T snapshot) (hopenxr : OpenxrOk T snapshot) :
    WorkOk T snapshot (Work.of snapshot) := by
  constructor
  · intro q hq p hp
    rw [workOf_provider hwf hq, Option.some_inj] at hp
    rw [hp]
  · intro id ds hds
    rw [workOf_devices hds]
  · intro id p ds _ hp hds hT
    exact workOf_consistent hcons hp hds hT
  · intro p hp hT
    obtain ⟨hmem, hid⟩ := mem_of_workOf_provider hp
    exact hopenxr p hmem hid hT

theorem lookup_ok {α : Type} {d : OrderedDict String α} {key : String} {a : α}
    (h : lookup d key = .ok a) : d.get? key = some a := by
  rw [lookup] at h
  cases hget : d.get? key with
  | none =>
    rw [hget] at h
    cases h
  | some b =>
    rw [hget] at h
    cases h
    rfl

theorem plugin_ne_openxr (spec : PluginProviderSpec) : spec.providerId ≠ openxrProviderId := by
  intro h
  have hhead := congrArg (fun s : String => s.toList.head?) h
  simp [PluginProviderSpec.providerId, openxrProviderId] at hhead

/-- `work'` differs from `work` in the entries of `id` only. -/
structure Sets (work work' : Work) (id : String) (provider : ProviderStatus)
    (devices : List DeviceStatus) : Prop where
  provider : ∀ i, work'.providersById.get? i =
    if i = id then some provider else work.providersById.get? i
  devices : ∀ i, work'.devicesByProvider.get? i =
    if i = id then some devices else work.devicesByProvider.get? i

/-- Replacing the entries of one provider by a provider of the same identity, with
devices that follow it; the OpenXR devices may follow later. -/
theorem WorkOk.set {snapshot : StatusSnapshot} {work work' : Work}
    (h : WorkOk T snapshot work) {id : String} {provider current : ProviderStatus}
    {devices : List DeviceStatus} (hset : Sets work work' id provider devices)
    (hcurrent : work.providersById.get? id = some current)
    (hinfo : provider.toProviderInfo = current.toProviderInfo)
    (hinfos : infos devices = infos (snapshot.devices.filter fun d => d.providerId = id))
    (hplugin : id ≠ openxrProviderId → T provider.status → ∀ d ∈ devices, d.status = .unavailable)
    (hopenxr : id = openxrProviderId → T provider.status → provider.status = .failed) :
    WorkOk T snapshot work' := by
  constructor
  · intro q hq p hp
    rw [hset.provider] at hp
    by_cases hqid : q.id = id
    · rw [if_pos hqid, Option.some_inj] at hp
      rw [← hp, hinfo]
      exact h.provider_info q hq current (hqid ▸ hcurrent)
    · rw [if_neg hqid] at hp
      exact h.provider_info q hq p hp
  · intro id' ds hds
    rw [hset.devices] at hds
    by_cases hid' : id' = id
    · subst hid'
      rw [if_pos rfl, Option.some_inj] at hds
      rw [← hds, hinfos]
    · rw [if_neg hid'] at hds
      exact h.device_infos id' ds hds
  · -- Only the provider that was set can have become terminal.
    intro id' p ds hne hp hds hT
    rw [hset.provider] at hp
    rw [hset.devices] at hds
    by_cases hid' : id' = id
    · rw [if_pos hid', Option.some_inj] at hp hds
      subst hp hds hid'
      exact hplugin hne hT
    · rw [if_neg hid'] at hp hds
      exact h.consistent id' p ds hne hp hds hT
  · intro p hp hT
    rw [hset.provider] at hp
    by_cases hid : openxrProviderId = id
    · rw [if_pos hid, Option.some_inj] at hp
      rw [← hp] at hT ⊢
      exact hopenxr hid.symm hT
    · rw [if_neg hid] at hp
      exact h.openxr p hp hT

theorem providerPrecedence_some {devices devices' : List DeviceStatus} {provider : ProviderStatus}
    (h : providerPrecedence devices provider = some devices') :
    infos devices' = infos devices ∧ (provider.status = .failed ∨ provider.status = .stopped →
      ∀ d ∈ devices', d.status = .unavailable) := by
  rw [providerPrecedence] at h
  cases hstatus : provider.status with
  | initializing =>
    rw [hstatus] at h
    cases h
    refine ⟨infos_setDevices _ _ _ _, ?_⟩
    rintro (hf | hs)
    · cases hf
    · cases hs
  | failed =>
    rw [hstatus] at h
    cases h
    exact ⟨infos_setDevices _ _ _ _, fun _ d hd => setDevices_status hd⟩
  | stopped =>
    rw [hstatus] at h
    cases h
    exact ⟨infos_setDevices _ _ _ _, fun _ d hd => setDevices_status hd⟩
  | available =>
    rw [hstatus] at h
    cases h

theorem providerPrecedence_none {devices : List DeviceStatus} {provider : ProviderStatus}
    (h : providerPrecedence devices provider = none) : provider.status = .available := by
  rw [providerPrecedence] at h
  cases hstatus : provider.status with
  | available => rfl
  | initializing =>
    rw [hstatus] at h
    cases h
  | failed =>
    rw [hstatus] at h
    cases h
  | stopped =>
    rw [hstatus] at h
    cases h

/-- What one round of either plugin loop does: the polled provider and its devices take
the places of the old ones. -/
structure PluginRound (work work' : Work) (id : String) (provider : ProviderStatus)
    (devices : List DeviceStatus) : Prop where
  sets : Sets work work' id provider devices
  info : ∃ current, work.providersById.get? id = some current ∧
    provider.toProviderInfo = current.toProviderInfo
  infos : ∃ current, work.devicesByProvider.get? id = some current ∧
    StatusMonitor.infos devices = StatusMonitor.infos current
  terminal : provider.status = .failed ∨ provider.status = .stopped →
    ∀ d ∈ devices, d.status = .unavailable

/-- A process poll is such a round, and an undecided one leaves an available provider. -/
theorem refreshProcess_round {obs : Observations} {work work' : Work} {runtime : PluginRuntime}
    {decided : Bool} (h : refreshProcess obs work runtime = .ok (work', decided)) :
    ∃ provider devices, PluginRound work work' runtime.spec.providerId provider devices ∧
      (decided = false → provider.status = .available) := by
  rw [refreshProcess] at h
  obtain ⟨current, hcurrent, h⟩ := polled_bind_inv h
  obtain ⟨provider, hprovider, h⟩ := polled_bind_inv h
  obtain ⟨devices, hdevices, h⟩ := polled_bind_inv h
  have hcurrent' := lookup_ok hcurrent
  have hdevices' := lookup_ok hdevices
  have hinfo := pollProcess_info hprovider
  -- A provider that is not available decides for its devices; otherwise they stay as they are.
  cases hprec : providerPrecedence devices provider with
  | some precedenceDevices =>
    rw [hprec] at h
    cases h
    obtain ⟨hinfos, hstatus⟩ := providerPrecedence_some hprec
    refine ⟨provider, precedenceDevices, ⟨?_, ⟨current, hcurrent', hinfo⟩,
      ⟨devices, hdevices', hinfos⟩, hstatus⟩, ?_⟩
    · exact ⟨fun i => OrderedDict.get?_insert _ _ _ _, fun i => OrderedDict.get?_insert _ _ _ _⟩
    · intro hd
      cases hd
  | none =>
    rw [hprec] at h
    cases h
    have havailable := providerPrecedence_none hprec
    refine ⟨provider, devices, ⟨?_, ⟨current, hcurrent', hinfo⟩, ⟨devices, hdevices', rfl⟩, ?_⟩,
      fun _ => havailable⟩
    · refine ⟨fun i => OrderedDict.get?_insert _ _ _ _, fun i => ?_⟩
      by_cases hi : i = runtime.spec.providerId
      · rw [if_pos hi, hi]
        exact hdevices'
      · rw [if_neg hi]
    · rw [havailable]
      rintro (hf | hs)
      · cases hf
      · cases hs

theorem refreshPluginProcess_round {obs : Observations} {work work' : Work}
    {runtime : PluginRuntime} (h : refreshPluginProcess obs work runtime = .ok work') :
    ∃ provider devices, PluginRound work work' runtime.spec.providerId provider devices := by
  obtain ⟨⟨work₁, decided⟩, hprocess, h⟩ := polled_bind_inv h
  cases h
  obtain ⟨provider, devices, hround, -⟩ := refreshProcess_round hprocess
  exact ⟨provider, devices, hround⟩

theorem refreshPlugin_round [PythonRepr] {obs : Observations} {nowNs : ℤ} {work work' : Work}
    {runtime : PluginRuntime} (h : refreshPlugin obs nowNs work runtime = .ok work') :
    ∃ provider devices, PluginRound work work' runtime.spec.providerId provider devices := by
  rw [refreshPlugin] at h
  obtain ⟨⟨work₁, decided⟩, hprocess, h⟩ := polled_bind_inv h
  obtain ⟨provider, devices, hround, havailable⟩ := refreshProcess_round hprocess
  cases decided with
  | true =>
    cases h
    exact ⟨provider, devices, hround⟩
  | false =>
    -- the provider is available, so the report decides the devices
    obtain ⟨devices', hdevices', h⟩ := polled_bind_inv h
    have hlook := lookup_ok hdevices'
    rw [hround.sets.devices, if_pos rfl, Option.some_inj] at hlook
    subst hlook
    obtain ⟨reduced, hreduced, h⟩ := polled_bind_inv h
    cases h
    obtain ⟨current, hcurrent, hinfos⟩ := hround.infos
    refine ⟨provider, reduced, ?_, hround.info,
      ⟨current, hcurrent, (reportDevices_infos hreduced).trans hinfos⟩, ?_⟩
    · refine ⟨hround.sets.provider, fun i => ?_⟩
      rw [OrderedDict.get?_insert, hround.sets.devices]
      by_cases hi : i = runtime.spec.providerId
      · rw [if_pos hi, if_pos hi]
      · rw [if_neg hi, if_neg hi, if_neg hi]
    · rw [havailable rfl]
      rintro (hf | hs)
      · cases hf
      · cases hs

section Plugins

variable {snapshot : StatusSnapshot} {work work' : Work} {id : String} {provider : ProviderStatus}
  {devices : List DeviceStatus}

theorem PluginRound.ok (hround : PluginRound work work' id provider devices)
    (hT : ∀ s, T s → s = .failed ∨ s = .stopped) (hid : id ≠ openxrProviderId)
    (hok : WorkOk T snapshot work) : WorkOk T snapshot work' := by
  obtain ⟨current, hcurrent, hinfo⟩ := hround.info
  obtain ⟨currentDevices, hdevices, hinfos⟩ := hround.infos
  refine hok.set hround.sets hcurrent hinfo (hinfos.trans (hok.device_infos _ _ hdevices)) ?_ ?_
  · intro _ ht
    exact hround.terminal (hT _ ht)
  · intro h
    exact absurd h hid

/-- The same entries for the OpenXR provider. -/
def KeepsOpenxr (work work' : Work) : Prop :=
  work'.providersById.get? openxrProviderId = work.providersById.get? openxrProviderId ∧
    work'.devicesByProvider.get? openxrProviderId = work.devicesByProvider.get? openxrProviderId

theorem PluginRound.keepsOpenxr (hround : PluginRound work work' id provider devices)
    (hid : id ≠ openxrProviderId) : KeepsOpenxr work work' := by
  constructor
  · rw [hround.sets.provider, if_neg (Ne.symm hid)]
  · rw [hround.sets.devices, if_neg (Ne.symm hid)]

/-- **The plugin loop**, for either kind of round. -/
theorem foldlM_rounds {round : Work → PluginRuntime → Polled Work}
    (hround : ∀ work work' runtime, round work runtime = .ok work' →
      ∃ provider devices, PluginRound work work' runtime.spec.providerId provider devices)
    (hT : ∀ s, T s → s = .failed ∨ s = .stopped) (runtimes : List PluginRuntime)
    (hok : WorkOk T snapshot work) (h : runtimes.foldlM round work = .ok work') :
    WorkOk T snapshot work' ∧ KeepsOpenxr work work' := by
  induction runtimes generalizing work with
  | nil =>
    cases h
    exact ⟨hok, rfl, rfl⟩
  | cons runtime rest ih =>
    rw [List.foldlM_cons] at h
    obtain ⟨work₁, hwork₁, h⟩ := polled_bind_inv h
    obtain ⟨provider, devices, hr⟩ := hround work work₁ runtime hwork₁
    have hid := plugin_ne_openxr runtime.spec
    obtain ⟨hok', hkeep⟩ := ih (hr.ok hT hid hok) h
    have hkeep₁ := hr.keepsOpenxr hid
    exact ⟨hok', hkeep.1.trans hkeep₁.1, hkeep.2.trans hkeep₁.2⟩

end Plugins

/-- The OpenXR devices follow their provider. -/
def OpenxrDone (T : ProviderState → Prop) (work : Work) : Prop :=
  ∀ p ds, work.providersById.get? openxrProviderId = some p →
    work.devicesByProvider.get? openxrProviderId = some ds → T p.status →
    ∀ d ∈ ds, d.status = .unavailable

/-- Putting the polled headset in the place of the old one keeps the identities. -/
theorem infos_replace {devices : List DeviceStatus} {headset headset' : DeviceStatus}
    (hnodup : ((infos devices).map fun d => d.id).Nodup) (hmem : headset ∈ devices)
    (hid : headset.id = openxrDeviceId) (hinfo : headset'.toDeviceInfo = headset.toDeviceInfo) :
    infos (devices.map fun d => if d.id = openxrDeviceId then headset' else d)
      = infos devices := by
  rw [infos, infos, List.map_map]
  refine List.map_congr_left fun d hd => ?_
  show (if d.id = openxrDeviceId then headset' else d).toDeviceInfo = d.toDeviceInfo
  by_cases hdid : d.id = openxrDeviceId
  · rw [if_pos hdid, hinfo]
    -- distinct ids: a device with the headset's id is the headset
    exact List.inj_on_of_nodup_map hnodup (List.mem_map.mpr ⟨headset, hmem, rfl⟩)
      (List.mem_map.mpr ⟨d, hd, rfl⟩) (hid.trans hdid.symm)
  · rw [if_neg hdid]

theorem nodup_filter_ids {snapshot : StatusSnapshot} (hwf : (inventory snapshot).WellFormed)
    (providerId : String) :
    ((infos (snapshot.devices.filter fun d => d.providerId = providerId)).map
      fun d => d.id).Nodup := by
  rw [infos_filter]
  exact hwf.deviceIds.sublist (List.filter_sublist.map _)

/-- The poll of the OpenXR session: a failed provider is left alone, and any other is
polled to failed or available. -/
theorem refreshOpenxr_ok [PythonRepr] {snapshot : StatusSnapshot} {work work' : Work}
    {obs : Observations} {externalOpenxr : Bool} (hT : ∀ s, T s → s = .failed ∨ s = .stopped)
    (hwf : (inventory snapshot).WellFormed) (hok : WorkOk T snapshot work)
    (h : refreshOpenxr externalOpenxr obs work = .ok work') :
    WorkOk T snapshot work' ∧
      ∀ p, work.providersById.get? openxrProviderId = some p → p.status = .failed →
        work'.providersById.get? openxrProviderId = some p := by
  rw [refreshOpenxr] at h
  cases hprov : work.providersById.get? openxrProviderId with
  | none =>
    rw [hprov] at h
    cases h
    exact ⟨hok, fun p hp => (by cases hp)⟩
  | some provider =>
    rw [hprov] at h
    cases externalOpenxr with
    | true =>
      cases h
      exact ⟨hok, fun p hp _ => hprov.trans hp⟩
    | false =>
      obtain ⟨devices, hdevices, h⟩ := polled_bind_inv h
      have hinfos := hok.device_infos _ _ (lookup_ok hdevices)
      cases hfind : devices.find? fun device => device.id = openxrDeviceId with
      | none =>
        rw [hfind] at h
        cases h
      | some headset =>
        rw [hfind] at h
        dsimp only at h
        -- A failed provider is not polled again.
        by_cases hfailed : provider.status = .failed
        · rw [if_pos hfailed] at h
          cases h
          exact ⟨hok, fun p hp _ => hprov.trans hp⟩
        · rw [if_neg hfailed] at h
          obtain ⟨⟨provider', headset'⟩, hpoll, h⟩ := polled_bind_inv h
          cases h
          obtain ⟨hpinfo, hhinfo, hstatus⟩ := pollOpenxr_reduced hpoll
          have hnodup : ((infos devices).map fun d => d.id).Nodup := by
            rw [hinfos]
            exact nodup_filter_ids hwf _
          have hheadset : headset.id = openxrDeviceId := by
            simpa using List.find?_some hfind
          refine ⟨hok.set ⟨fun i => OrderedDict.get?_insert _ _ _ _,
            fun i => OrderedDict.get?_insert _ _ _ _⟩ hprov hpinfo ?_
            (fun hne => absurd rfl hne) ?_, ?_⟩
          · rw [infos_replace hnodup (List.mem_of_find?_eq_some hfind) hheadset hhinfo]
            exact hinfos
          · -- A poll leaves the provider failed or available, and only the first is terminal.
            intro _ ht
            rcases hstatus with hf | ha
            · exact hf
            · rw [ha] at ht
              rcases hT _ ht with hf | hs
              · cases hf
              · cases hs
          · intro p hp hpf
            obtain rfl := Option.some_inj.mp hp
            exact absurd hpf hfailed

/-- Setting the devices of a provider that is kept. -/
theorem sets_devices {work : Work} {id : String} {provider : ProviderStatus}
    (hprov : work.providersById.get? id = some provider) (devices : List DeviceStatus) :
    Sets work ⟨work.providersById, work.devicesByProvider.insert id devices⟩ id provider
      devices := by
  refine ⟨fun i => ?_, fun i => OrderedDict.get?_insert _ _ _ _⟩
  by_cases hi : i = id
  · rw [if_pos hi, hi]
    exact hprov
  · rw [if_neg hi]

/-- What the last OpenXR step leaves: the providers as they were and the OpenXR devices
in line with theirs. -/
structure Settled (T : ProviderState → Prop) (snapshot : StatusSnapshot) (work work' : Work) :
    Prop where
  ok : WorkOk T snapshot work'
  done : OpenxrDone T work'
  providers : work'.providersById = work.providersById

theorem settled_insert {snapshot : StatusSnapshot} {work : Work} {provider : ProviderStatus}
    {devices devices' : List DeviceStatus} (hok : WorkOk T snapshot work)
    (hprov : work.providersById.get? openxrProviderId = some provider)
    (hdevices : work.devicesByProvider.get? openxrProviderId = some devices)
    (hinfos : infos devices' = infos devices)
    (hstatus : T provider.status → ∀ d ∈ devices', d.status = .unavailable) :
    Settled T snapshot work
      ⟨work.providersById, work.devicesByProvider.insert openxrProviderId devices'⟩ := by
  have hset := sets_devices hprov devices'
  refine ⟨hok.set hset hprov rfl (hinfos.trans (hok.device_infos _ _ hdevices))
    (fun hne => absurd rfl hne) (fun _ => hok.openxr provider hprov), ?_, rfl⟩
  intro p ds hp hds
  rw [hset.provider, if_pos rfl, Option.some_inj] at hp
  rw [hset.devices, if_pos rfl, Option.some_inj] at hds
  rw [← hp, ← hds]
  exact hstatus

/-- **The last OpenXR step** brings the OpenXR devices in line. -/
theorem settleOpenxr_ok {snapshot : StatusSnapshot} {work : Work} (hok : WorkOk T snapshot work)
    (obs : Observations) (nowNs : ℤ) (untracked : UntrackedSince) :
    Fallible.wp (settleOpenxr obs nowNs work) (fun work' _ => Settled T snapshot work work')
      (fun _ _ => True) untracked := by
  rw [settleOpenxr]
  cases hprov : work.providersById.get? openxrProviderId with
  | none =>
    refine Fallible.wp_pure ⟨hok, fun p ds hp => ?_, rfl⟩
    rw [hprov] at hp
    cases hp
  | some provider =>
    refine Fallible.wp_bind ?_
    cases hlook : lookup work.devicesByProvider openxrProviderId with
    | error e => exact Fallible.wp_raise trivial
    | ok devices =>
      have hdevices := lookup_ok hlook
      show Fallible.wp _ _ _ untracked
      by_cases hfailed : provider.status = .failed
      · simp only [if_pos hfailed]
        refine Fallible.wp_pure (settled_insert hok hprov hdevices (infos_setDevices _ _ _ _) ?_)
        intro _ d hd
        exact setDevices_status hd
      · -- a provider that has not failed is not in `T` here
        have hnot : ¬T provider.status := fun ht => hfailed (hok.openxr provider hprov ht)
        simp only [if_neg hfailed]
        cases obs.controllers with
        | none =>
          refine Fallible.wp_pure ⟨hok, fun p ds hp _ ht => ?_, rfl⟩
          rw [hprov, Option.some_inj] at hp
          exact absurd (hp ▸ ht) hnot
        | some snapshots =>
          refine Fallible.wp_bind (Fallible.wp_mono
            (reduceOpenxrControllers_infos snapshots nowNs devices untracked) ?_
            (fun _ _ h => h))
          intro reduced untracked' hinfos
          exact Fallible.wp_pure (settled_insert hok hprov hdevices hinfos fun ht =>
            absurd ht hnot)

/-! ### Publishing -/

theorem mapM_ok {α β : Type} {f : α → Polled β} {l : List α} {r : List β}
    (h : l.mapM f = .ok r) : List.Forall₂ (fun a b => f a = .ok b) l r := by
  induction l generalizing r with
  | nil =>
    cases h
    exact .nil
  | cons a rest ih =>
    rw [List.mapM_cons] at h
    obtain ⟨b, hb, h⟩ := polled_bind_inv h
    obtain ⟨bs, hbs, h⟩ := polled_bind_inv h
    cases h
    exact .cons hb (ih hbs)

theorem forall₂_mem_right {α β : Type} {R : α → β → Prop} {l : List α} {r : List β}
    (h : List.Forall₂ R l r) {b : β} (hb : b ∈ r) : ∃ a ∈ l, R a b := by
  induction h with
  | nil => cases hb
  | cons hab hrest ih =>
    rcases List.mem_cons.mp hb with rfl | hb
    · exact ⟨_, List.mem_cons_self, hab⟩
    · obtain ⟨a, ha, hR⟩ := ih hb
      exact ⟨a, List.mem_cons_of_mem _ ha, hR⟩

/-- What a regrouping publishes: each provider with its entry, and the entries' devices. -/
theorem regroup_ok {nowNs : ℤ} {snapshot snapshot' : StatusSnapshot} {work : Work}
    (h : regroup nowNs snapshot work = .ok snapshot') :
    ∃ groups, List.Forall₂ (fun p p' => work.providersById.get? p.id = some p')
        snapshot.providers snapshot'.providers ∧
      List.Forall₂ (fun p ds => work.devicesByProvider.get? p.id = some ds)
        snapshot'.providers groups ∧
      snapshot'.devices = groups.flatten := by
  rw [regroup] at h
  obtain ⟨providers, hproviders, h⟩ := polled_bind_inv h
  obtain ⟨groups, hgroups, h⟩ := polled_bind_inv h
  cases h
  exact ⟨groups, (mapM_ok hproviders).imp fun _ _ h => lookup_ok h,
    (mapM_ok hgroups).imp fun _ _ h => lookup_ok h, rfl⟩

section Publish

variable {snapshot snapshot' : StatusSnapshot} {work : Work} {nowNs : ℤ}

theorem providers_published (hok : WorkOk T snapshot work) {providers : List ProviderStatus}
    (h : List.Forall₂ (fun p p' => work.providersById.get? p.id = some p') snapshot.providers
      providers) :
    providers.map (fun p => p.toProviderInfo)
      = snapshot.providers.map fun p => p.toProviderInfo := by
  have hinfo : List.Forall₂ (fun p p' : ProviderStatus => p'.toProviderInfo = p.toProviderInfo)
      snapshot.providers providers := by
    refine List.forall₂_iff_zip.mpr ⟨h.length_eq, ?_⟩
    intro p p' hmem
    exact hok.provider_info p (List.of_mem_zip hmem).1 p' (List.forall₂_iff_zip.mp h |>.2 hmem)
  clear h
  generalize snapshot.providers = old at hinfo
  induction hinfo with
  | nil => rfl
  | cons heq _ ih => rw [List.map_cons, List.map_cons, heq, ih]

theorem devices_published (hok : WorkOk T snapshot work) {providers : List ProviderStatus}
    {groups : List (List DeviceStatus)}
    (h : List.Forall₂ (fun p ds => work.devicesByProvider.get? p.id = some ds) providers groups) :
    infos groups.flatten = (providers.map fun p => p.toProviderInfo).flatMap fun p =>
      (infos snapshot.devices).filter fun d => d.providerId = p.id := by
  induction h with
  | nil => rfl
  | @cons p ds ps gs hds _ ih =>
    rw [List.flatten_cons, List.map_cons, List.flatMap_cons, ← ih, ← infos_filter,
      ← hok.device_infos _ _ hds]
    exact List.map_append

/-- A provider whose entry is the provider itself is published as it was. -/
theorem mem_published {providers : List ProviderStatus}
    (h : List.Forall₂ (fun p p' => work.providersById.get? p.id = some p') snapshot.providers
      providers) {p : ProviderStatus} (hp : p ∈ snapshot.providers)
    (hentry : work.providersById.get? p.id = some p) : p ∈ providers := by
  obtain ⟨p', hp', hget⟩ := forall₂_mem_right h.flip hp
  rw [hentry, Option.some_inj] at hget
  rw [hget]
  exact hp'

/-- A published provider is its own entry. -/
theorem published_entry (hok : WorkOk T snapshot work)
    (h : List.Forall₂ (fun p p' => work.providersById.get? p.id = some p') snapshot.providers
      snapshot'.providers) {p : ProviderStatus} (hp : p ∈ snapshot'.providers) :
    work.providersById.get? p.id = some p := by
  obtain ⟨q, hq, hget⟩ := forall₂_mem_right h hp
  rw [provider_id_eq (hok.provider_info q hq p hget)]
  exact hget

/-- **A published snapshot** has the old inventory, and its devices follow their
providers. -/
theorem regroup_consistent (hwf : (inventory snapshot).WellFormed) (hok : WorkOk T snapshot work)
    (hdone : OpenxrDone T work) (h : regroup nowNs snapshot work = .ok snapshot') :
    inventory snapshot' = inventory snapshot ∧ Consistent T snapshot' ∧ OpenxrOk T snapshot' := by
  obtain ⟨groups, hproviders, hgroups, hdevices⟩ := regroup_ok h
  have hinfo := providers_published hok hproviders
  refine ⟨?_, ?_, ?_⟩
  · show Inventory.mk (snapshot'.providers.map _) (infos snapshot'.devices) = inventory snapshot
    rw [hdevices, devices_published hok hgroups, hinfo]
    exact congrArg (Inventory.mk _) hwf.grouped
  · intro p hp ht d hd hid
    rw [hdevices, List.mem_flatten] at hd
    obtain ⟨ds, hds, hd⟩ := hd
    obtain ⟨q, hq, hget⟩ := forall₂_mem_right hgroups hds
    -- the group is that of the device's own provider
    have hdq : d.providerId = q.id := by
      have hmem : d.toDeviceInfo ∈ infos ds := List.mem_map.mpr ⟨d, hd, rfl⟩
      rw [hok.device_infos _ _ hget, infos_filter] at hmem
      simpa using (List.mem_filter.mp hmem).2
    have hpq : q.id = p.id := hdq.symm.trans hid
    have hentry := published_entry hok hproviders hp
    rw [hpq] at hget
    by_cases hopenxr : p.id = openxrProviderId
    · rw [hopenxr] at hget hentry
      exact hdone p ds hentry hget ht d hd
    · exact hok.consistent p.id p ds hopenxr hentry hget ht d hd
  · intro p hp hid ht
    have hentry := published_entry hok hproviders hp
    rw [hid] at hentry
    exact hok.openxr p hentry ht

end Publish

end Refresh

end StatusMonitor
