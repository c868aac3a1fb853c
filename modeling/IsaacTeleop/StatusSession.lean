/-
Consistency of the status monitor over whole session runs.

Every published snapshot lists the providers and devices that the last `rebuild`
installed, in the same order; the lookups by id agree with it; and the devices of a
failed or stopped provider are unavailable.

* `buildInventory_ok` — an accepted inventory is well formed;
* `Sound` — the invariant of the monitor, and one lemma for each operation;
* `drive_ok` — one operation of a session keeps the invariant;
* `status_consistent_over_runs` — every run of a session.
-/
import IsaacTeleop.StatusConsistency

open StatusMonitoring

namespace StatusMonitor

/-! ### Accepted inventories -/

/-- A draft with distinct ids, devices grouped by provider, all of it initializing. -/
structure Draft.Ok (draft : Draft) : Prop where
  wellFormed : (inventory ⟨0, draft.providers, draft.devices⟩).WellFormed
  providers : ∀ p ∈ draft.providers, p.status = .initializing

/-- Appending a provider with a fresh id and its devices keeps an inventory grouped. -/
theorem grouped_append {providers : List ProviderInfo} {devices added : List DeviceInfo}
    {provider : ProviderInfo}
    (hgrouped : providers.flatMap (fun p => devices.filter fun d => d.providerId = p.id) = devices)
    (hfresh : provider.id ∉ providers.map fun p => p.id)
    (hadded : ∀ d ∈ added, d.providerId = provider.id) :
    (providers ++ [provider]).flatMap
      (fun p => (devices ++ added).filter fun d => d.providerId = p.id) = devices ++ added := by
  -- The new devices belong to no old provider.
  have hold : ∀ p ∈ providers, (devices ++ added).filter (fun d => d.providerId = p.id)
      = devices.filter fun d => d.providerId = p.id := by
    intro p hp
    have hnone : added.filter (fun d => d.providerId = p.id) = [] := by
      refine List.filter_eq_nil_iff.mpr fun d hd => ?_
      have hne : provider.id ≠ p.id := fun h => hfresh (List.mem_map.mpr ⟨p, hp, h.symm⟩)
      simpa [hadded d hd] using hne
    rw [List.filter_append, hnone, List.append_nil]
  -- No old device belongs to the new one.
  have hnew : (devices ++ added).filter (fun d => d.providerId = provider.id) = added := by
    have hnone : devices.filter (fun d => d.providerId = provider.id) = [] := by
      refine List.filter_eq_nil_iff.mpr fun d hd => ?_
      rw [← hgrouped] at hd
      obtain ⟨p, hp, hd⟩ := List.mem_flatMap.mp hd
      have hid : d.providerId = p.id := by simpa using (List.mem_filter.mp hd).2
      have hne : p.id ≠ provider.id := fun h => hfresh (List.mem_map.mpr ⟨p, hp, h⟩)
      simpa [hid] using hne
    have hall : added.filter (fun d => d.providerId = provider.id) = added :=
      List.filter_eq_self.mpr fun d hd => by simpa using hadded d hd
    rw [List.filter_append, hnone, hall, List.nil_append]
  rw [List.flatMap_append, List.flatMap_congr hold, hgrouped, List.flatMap_singleton, hnew]

/-- Adding one provider with its devices. -/
theorem Draft.Ok.append {draft : Draft} (h : draft.Ok) {provider : ProviderInfo}
    {added : List DeviceInfo} (hfresh : provider.id ∉ draft.providerIds)
    (hids : (draft.deviceIds ++ added.map fun d => d.id).Nodup)
    (hadded : ∀ d ∈ added, d.providerId = provider.id) :
    Draft.Ok ⟨draft.providers ++ [initializingProvider provider],
      draft.devices ++ added.map initializingDevice⟩ := by
  have hfresh' :
      provider.id ∉ (draft.providers.map fun p => p.toProviderInfo).map fun p => p.id := by
    rw [List.map_map]
    exact hfresh
  have hinfos : infos (added.map initializingDevice) = added := by
    rw [infos, List.map_map]
    exact List.map_id _
  refine ⟨⟨?_, ?_, ?_⟩, ?_⟩
  · -- The new provider has a new id.
    have hnodup := h.wellFormed.providerIds
    show ((List.map _ (draft.providers ++ [initializingProvider provider])).map _).Nodup
    rw [List.map_append, List.map_append]
    refine List.nodup_append.mpr ⟨hnodup, by simp, ?_⟩
    intro a ha b hb hab
    obtain rfl : b = provider.id := by simpa using hb
    exact hfresh' (hab ▸ ha)
  · show ((infos (draft.devices ++ added.map initializingDevice)).map _).Nodup
    rw [infos, List.map_append, List.map_append]
    have hold : (draft.devices.map fun d => d.toDeviceInfo).map (fun d => d.id)
        = draft.deviceIds := by
      rw [List.map_map]
      rfl
    rw [hold]
    show (draft.deviceIds ++ (infos (added.map initializingDevice)).map _).Nodup
    rw [hinfos]
    exact hids
  · show (List.map _ (draft.providers ++ [initializingProvider provider])).flatMap
        (fun p => (infos (draft.devices ++ _)).filter _) = infos (draft.devices ++ _)
    -- Its devices stand behind all others, so the grouping is kept.
    have happ : infos (draft.devices ++ added.map initializingDevice)
        = infos draft.devices ++ added := by
      rw [infos, List.map_append]
      exact congrArg (infos draft.devices ++ ·) hinfos
    rw [happ, List.map_append]
    exact grouped_append h.wellFormed.grouped hfresh' hadded
  · intro p hp
    rcases List.mem_append.mp hp with hp | hp
    · exact h.providers p hp
    · obtain rfl := List.mem_singleton.mp hp
      rfl

/-- What the loop over one plugin's devices adds. -/
theorem addPluginDevices_ok {spec : PluginProviderSpec} {descriptors : List DeviceDescriptor}
    {manifestPaths : List String} {draft draft' : Draft} (hnodup : draft.deviceIds.Nodup)
    (h : addPluginDevices spec descriptors manifestPaths draft = .ok draft') :
    ∃ added : List DeviceInfo,
      draft' = ⟨draft.providers, draft.devices ++ added.map initializingDevice⟩ ∧
      (draft.deviceIds ++ added.map fun d => d.id).Nodup ∧
      ∀ d ∈ added, d.providerId = spec.providerId := by
  induction descriptors generalizing manifestPaths draft with
  | nil =>
    cases h
    refine ⟨[], ?_, ?_, fun d hd => (by cases hd)⟩
    · rw [List.map_nil, List.append_nil]
    · rw [List.map_nil, List.append_nil]
      exact hnodup
  | cons descriptor rest ih =>
    rw [addPluginDevices] at h
    cases hpath : descriptor.path with
    | none =>
      rw [hpath] at h
      cases h
    | some path =>
      rw [hpath] at h
      dsimp only at h
      by_cases hempty : path = ""
      · rw [if_pos hempty] at h
        cases h
      rw [if_neg hempty] at h
      by_cases hseen : path ∈ manifestPaths
      · rw [if_pos hseen] at h
        cases h
      rw [if_neg hseen] at h
      by_cases hused : spec.pluginRootId ++ path = "" ∨ spec.pluginRootId ++ path ∈ draft.deviceIds
      · rw [if_pos hused] at h
        cases h
      rw [if_neg hused] at h
      -- the device just added, then those of the rest
      have hfresh : spec.pluginRootId ++ path ∉ draft.deviceIds := fun hmem => hused (Or.inr hmem)
      have hnodup' : (draft.deviceIds ++ [spec.pluginRootId ++ path]).Nodup := by
        refine List.nodup_append.mpr ⟨hnodup, by simp, ?_⟩
        intro a ha b hb hab
        obtain rfl := List.mem_singleton.mp hb
        exact hfresh (hab ▸ ha)
      obtain ⟨added, rfl, hids, hadded⟩ := ih (by simpa [Draft.deviceIds] using hnodup') h
      refine ⟨⟨spec.pluginRootId ++ path, path, descriptor.type, descriptor.description,
        spec.providerId⟩ :: added, ?_, ?_, ?_⟩
      · simp
      · simpa [Draft.deviceIds] using hids
      · intro d hd
        rcases List.mem_cons.mp hd with rfl | hd
        · rfl
        · exact hadded d hd

theorem deviceIds_nodup {draft : Draft} (h : draft.Ok) : draft.deviceIds.Nodup :=
  nodup_devices h.wellFormed

theorem addPlugins_ok {specs : List PluginProviderSpec} {draft draft' : Draft} (hok : draft.Ok)
    (h : addPlugins specs draft = .ok draft') : draft'.Ok := by
  induction specs generalizing draft with
  | nil =>
    cases h
    exact hok
  | cons spec rest ih =>
    rw [addPlugins] at h
    dsimp only at h
    split at h
    case isTrue => cases h
    case isFalse =>
      split at h
      case isTrue => cases h
      case isFalse =>
        split at h
        case isTrue => cases h
        case isFalse hused =>
          split at h
          case h_1 => cases h
          -- The provider's id and the ids of its devices are new.
          case h_2 draft₁ hadd =>
            have hnodup := deviceIds_nodup hok
            obtain ⟨added, rfl, hids, hadded⟩ := addPluginDevices_ok (by exact hnodup) hadd
            exact ih (hok.append (fun hmem => hused (Or.inr hmem)) hids hadded) h

theorem openxrDevices_ids_nodup (includeControllers : Bool) :
    ((openxrDevices includeControllers).map fun d => d.id).Nodup := by
  cases includeControllers with
  | false => decide
  | true => decide

theorem addOpenxr_ok {includeControllers : Bool} {draft draft' : Draft} (hok : draft.Ok)
    (h : addOpenxr includeControllers draft = .ok draft') : draft'.Ok := by
  rw [addOpenxr] at h
  split at h
  case isTrue => cases h
  case isFalse hconflict =>
    cases h
    refine hok.append (fun hmem => hconflict (Or.inl hmem)) ?_ ?_
    · refine List.nodup_append.mpr ⟨deviceIds_nodup hok, openxrDevices_ids_nodup _, ?_⟩
      intro a ha b hb hab
      obtain ⟨info, hinfo, rfl⟩ := List.mem_map.mp hb
      exact hconflict (Or.inr ⟨info, hinfo, hab ▸ ha⟩)
    · intro d hd
      cases includeControllers with
      | false =>
        obtain rfl := List.mem_singleton.mp hd
        rfl
      | true =>
        rcases List.mem_cons.mp hd with rfl | hd
        · rfl
        rcases List.mem_cons.mp hd with rfl | hd
        · rfl
        obtain rfl := List.mem_singleton.mp hd
        rfl

/-- **An accepted inventory is well formed.** -/
theorem buildInventory_ok {specs : List PluginProviderSpec} {includeOpenxr : Bool}
    {includeControllers : Bool} {draft : Draft}
    (h : buildInventory specs includeOpenxr includeControllers = .ok draft) : draft.Ok := by
  have hempty : Draft.Ok ⟨[], []⟩ :=
    ⟨⟨List.nodup_nil, List.nodup_nil, rfl⟩, fun p hp => (by cases hp)⟩
  rw [buildInventory] at h
  cases hplugins : addPlugins specs ⟨[], []⟩ with
  | error e =>
    rw [hplugins] at h
    cases h
  | ok draft₁ =>
    rw [hplugins] at h
    have hok := addPlugins_ok hempty hplugins
    cases includeOpenxr with
    | true => exact addOpenxr_ok hok h
    | false =>
      cases h
      exact hok

/-! ### The operations -/

section Operations

/-- The devices of every provider in `T` are unavailable, and the lookups by id agree with
the snapshot. -/
structure Sound (T : ProviderState → Prop) (monitor : StatusMonitor) : Prop where
  wellFormed : (inventory monitor.snapshot).WellFormed
  consistent : Consistent T monitor.snapshot
  getProviderStatus : ∀ id, monitor.getProviderStatus id
    = monitor.snapshot.providers.find? fun p => p.id = id
  getDeviceStatus : ∀ id, monitor.getDeviceStatus id
    = monitor.snapshot.devices.find? fun d => d.id = id

variable {T : ProviderState → Prop} {self : StatusMonitor}

theorem sound_replaceSnapshot {snapshot : StatusSnapshot} (hwf : (inventory snapshot).WellFormed)
    (hcons : Consistent T snapshot) (self : StatusMonitor) :
    Sound T (self.replaceSnapshot snapshot) :=
  ⟨hwf, hcons, fun id => OrderedDict.get?_index (nodup_providers hwf) id,
    fun id => OrderedDict.get?_index (nodup_devices hwf) id⟩

/-- A replaced snapshot of the same inventory. -/
theorem Sound.replaceSnapshot (h : Sound T self) {snapshot : StatusSnapshot}
    (hinv : inventory snapshot = inventory self.snapshot) (hcons : Consistent T snapshot)
    (self' : StatusMonitor) :
    Sound T (self'.replaceSnapshot snapshot) :=
  sound_replaceSnapshot (hinv ▸ h.wellFormed) hcons self'

theorem sound_init : Sound T init :=
  ⟨⟨List.nodup_nil, List.nodup_nil, rfl⟩, fun p hp => (by cases hp), fun _ => rfl, fun _ => rfl⟩

/-- **An accepted `rebuild`** installs a well-formed inventory, all of it initializing. -/
theorem rebuild_ok (hT : ∀ s, T s → s = .failed ∨ s = .stopped) {specs : List PluginProviderSpec}
    {includeOpenxr externalOpenxr : Bool} {includeControllers : Bool} {nowNs : ℤ}
    {self' : StatusMonitor}
    (h : rebuild specs includeOpenxr externalOpenxr includeControllers nowNs self
      = (.ok (), self')) :
    Sound T self' := by
  rw [rebuild] at h
  cases hbuild : buildInventory specs includeOpenxr includeControllers with
  | error e =>
    rw [hbuild] at h
    cases h
  | ok draft =>
    rw [hbuild] at h
    cases h
    have hok := buildInventory_ok hbuild
    have hwf := hok.wellFormed
    refine sound_replaceSnapshot (by exact hwf) ?_ _
    intro p hp ht
    rw [hok.providers p hp] at ht
    rcases hT _ ht with hf | hs
    · cases hf
    · cases hs

/-- A refused `rebuild` changes nothing. -/
theorem rebuild_error {specs : List PluginProviderSpec} {includeOpenxr externalOpenxr : Bool}
    {includeControllers : Bool} {nowNs : ℤ} {self' : StatusMonitor} {e : InventoryError}
    (h : rebuild specs includeOpenxr externalOpenxr includeControllers nowNs self
      = (.error e, self')) : self' = self := by
  rw [rebuild] at h
  cases hbuild : buildInventory specs includeOpenxr includeControllers with
  | error e' =>
    rw [hbuild] at h
    cases h
    rfl
  | ok draft =>
    rw [hbuild] at h
    cases h

theorem bindPluginContext_snapshot [PythonRepr] (providerId : String) (bound : Bool)
    (self : StatusMonitor) :
    (bindPluginContext providerId bound self).2.snapshot = self.snapshot ∧
      (bindPluginContext providerId bound self).2.providersById = self.providersById ∧
      (bindPluginContext providerId bound self).2.devicesById = self.devicesById := by
  rw [bindPluginContext]
  split
  · exact ⟨rfl, rfl, rfl⟩
  · exact ⟨rfl, rfl, rfl⟩

/-- Only the published parts of a monitor count. -/
theorem Sound.congr (h : Sound T self) {self' : StatusMonitor}
    (hsnapshot : self'.snapshot = self.snapshot)
    (hproviders : self'.providersById = self.providersById)
    (hdevices : self'.devicesById = self.devicesById) : Sound T self' := by
  refine ⟨hsnapshot ▸ h.wellFormed, hsnapshot ▸ h.consistent, ?_, ?_⟩
  · intro id
    rw [StatusMonitor.getProviderStatus, hproviders, hsnapshot]
    exact h.getProviderStatus id
  · intro id
    rw [StatusMonitor.getDeviceStatus, hdevices, hsnapshot]
    exact h.getDeviceStatus id

theorem bindPluginContext_ok [PythonRepr] (h : Sound T self) (providerId : String) (bound : Bool) :
    Sound T (bindPluginContext providerId bound self).2 := by
  obtain ⟨hsnapshot, hproviders, hdevices⟩ := bindPluginContext_snapshot providerId bound self
  exact h.congr hsnapshot hproviders hdevices

theorem availableDevice_info (externalOpenxr : Bool) (device : DeviceStatus) :
    (availableDevice externalOpenxr device).toDeviceInfo = device.toDeviceInfo := by
  rw [availableDevice]
  split
  · split
    · rfl
    · rfl
  · rfl

theorem markAvailable_inventory (nowNs : ℤ) (self : StatusMonitor) :
    inventory (markAvailable nowNs self).snapshot = inventory self.snapshot := by
  show Inventory.mk (List.map _ (List.map _ _)) (infos (List.map _ _)) = _
  rw [infos, List.map_map, List.map_map]
  refine congrArg₂ Inventory.mk rfl ?_
  exact List.map_congr_left fun d _ => availableDevice_info _ d

theorem markAvailable_status {nowNs : ℤ} {p : ProviderStatus}
    (h : p ∈ (markAvailable nowNs self).snapshot.providers) : p.status = .available := by
  obtain ⟨p', -, rfl⟩ := List.mem_map.mp h
  rfl

theorem markAvailable_ok (hT : ∀ s, T s → s = .failed ∨ s = .stopped) (h : Sound T self)
    (nowNs : ℤ) : Sound T (markAvailable nowNs self) ∧
      OpenxrOk T (markAvailable nowNs self).snapshot := by
  have hnot : ∀ p ∈ (markAvailable nowNs self).snapshot.providers, ¬T p.status := by
    intro p hp ht
    rw [markAvailable_status hp] at ht
    rcases hT _ ht with hf | hs
    · cases hf
    · cases hs
  refine ⟨h.replaceSnapshot (markAvailable_inventory nowNs self) ?_ self, ?_⟩
  · intro p hp ht
    exact absurd ht (hnot p hp)
  · intro p hp _ ht
    exact absurd ht (hnot p hp)

section Terminal

variable (state : ProviderState) (reason : StatusReason) (error : String)
  (deviceReason : Option StatusReason) (preserveFailed : Bool) (nowNs : ℤ)

theorem markTerminal_inventory (self : StatusMonitor) :
    inventory (self.markTerminal state reason error deviceReason preserveFailed nowNs).snapshot
      = inventory self.snapshot := by
  show Inventory.mk (List.map _ (List.map _ _)) (infos (List.map _ _)) = _
  rw [infos, List.map_map, List.map_map]
  refine congrArg₂ Inventory.mk ?_ ?_
  · refine List.map_congr_left fun p _ => ?_
    show ProviderStatus.toProviderInfo (if _ then p else _) = p.toProviderInfo
    split
    · rfl
    · rfl
  · refine List.map_congr_left fun d _ => ?_
    show DeviceStatus.toDeviceInfo (if _ then d else _) = d.toDeviceInfo
    split
    · rfl
    · rfl

variable {state reason error deviceReason preserveFailed nowNs}

/-- A provider after a terminal mark: a failed one that was preserved, or a marked one. -/
theorem markTerminal_provider {p : ProviderStatus}
    (h : p ∈
      (self.markTerminal state reason error deviceReason preserveFailed nowNs).snapshot.providers) :
    (preserveFailed = true ∧ p.status = .failed ∧ p ∈ self.snapshot.providers) ∨
      p.status = state := by
  obtain ⟨q, hq, rfl⟩ := List.mem_map.mp h
  by_cases hkeep : (preserveFailed && decide (q.status = .failed)) = true
  · rw [if_pos hkeep]
    rw [Bool.and_eq_true, decide_eq_true_eq] at hkeep
    exact Or.inl ⟨hkeep.1, hkeep.2, hq⟩
  · rw [if_neg hkeep]
    exact Or.inr rfl

/-- A device after a terminal mark: one of a preserved provider, or unavailable. -/
theorem markTerminal_device {d : DeviceStatus}
    (h : d ∈
      (self.markTerminal state reason error deviceReason preserveFailed nowNs).snapshot.devices) :
    (preserveFailed = true ∧ d ∈ self.snapshot.devices ∧
        ∃ p ∈ (self.markTerminal state reason error deviceReason preserveFailed
          nowNs).snapshot.providers, p.status = .failed ∧ p.id = d.providerId) ∨
      d.status = .unavailable := by
  obtain ⟨d', hd', rfl⟩ := List.mem_map.mp h
  split
  · rename_i hkeep
    obtain ⟨p, hp, hid⟩ := List.mem_map.mp hkeep
    obtain ⟨hp, hfailed⟩ := List.mem_filter.mp hp
    rw [Bool.and_eq_true, decide_eq_true_eq] at hfailed
    exact Or.inl ⟨hfailed.1, hd', p, hp, hfailed.2, hid⟩
  · exact Or.inr rfl

/-- **A terminal mark** keeps the devices in line; a mark that preserves failed providers
must not itself be a failure. -/
theorem markTerminal_ok (h : Sound T self) (hstate : preserveFailed = true → state ≠ .failed) :
    Sound T (self.markTerminal state reason error deviceReason preserveFailed nowNs) := by
  have hinv := markTerminal_inventory state reason error deviceReason preserveFailed nowNs self
  refine h.replaceSnapshot hinv ?_ self
  intro p hp ht d hd hid
  rcases markTerminal_device hd with ⟨hpreserve, hd', q, hq, hfailed, hqid⟩ | hunavailable
  · -- the device's preserved provider is `p`
    have hnodup := nodup_providers (hinv ▸ h.wellFormed)
    obtain rfl : q = p := List.inj_on_of_nodup_map hnodup hq hp (hqid.trans hid)
    rcases markTerminal_provider hq with ⟨-, -, hold⟩ | hmarked
    · exact h.consistent q hold ht d hd' hid
    · exact absurd (hmarked.symm.trans hfailed) (hstate hpreserve)
  · exact hunavailable

end Terminal

theorem markStartupFailed_ok (h : Sound T self) (error : String) (nowNs : ℤ) :
    Sound T (markStartupFailed error nowNs self) :=
  markTerminal_ok h fun hp => (by cases hp)

theorem markRuntimeFailed_ok (h : Sound T self) (error : String) (nowNs : ℤ) :
    Sound T (markRuntimeFailed error nowNs self) := by
  have hflag : Sound T { self with runtimeFailed := true } := h.congr rfl rfl rfl
  exact markTerminal_ok hflag fun hp => (by cases hp)

theorem markRuntimeFailed_status {error : String} {nowNs : ℤ} {p : ProviderStatus}
    (h : p ∈ (markRuntimeFailed error nowNs self).snapshot.providers) : p.status = .failed := by
  rcases markTerminal_provider h with ⟨-, hfailed, -⟩ | hmarked
  · exact hfailed
  · exact hmarked

theorem markStopped_ok (h : Sound T self) (nowNs : ℤ) : Sound T (markStopped nowNs self) :=
  markTerminal_ok h fun _ hs => (by cases hs)

/-- What a refresh leaves, published or not: the old inventory, devices in line with their
providers, and a failed OpenXR provider as it was. -/
structure Refreshed (T : ProviderState → Prop) (monitor monitor' : StatusMonitor) : Prop where
  inventory : StatusMonitor.inventory monitor'.snapshot = StatusMonitor.inventory monitor.snapshot
  sound : Sound T monitor'
  openxr : OpenxrOk T monitor'.snapshot
  latch : ∀ p ∈ monitor.snapshot.providers, p.id = openxrProviderId → p.status = .failed →
    p ∈ monitor'.snapshot.providers

/-- Nothing was published. -/
theorem refreshed_unpublished (h : Sound T self) (hopenxr : OpenxrOk T self.snapshot)
    {self' : StatusMonitor} (hsnapshot : self'.snapshot = self.snapshot)
    (hproviders : self'.providersById = self.providersById)
    (hdevices : self'.devicesById = self.devicesById) : Refreshed T self self' := by
  refine ⟨?_, h.congr hsnapshot hproviders hdevices, hsnapshot ▸ hopenxr, ?_⟩
  · rw [hsnapshot]
  · intro p hp _ _
    rw [hsnapshot]
    exact hp

/-- A regrouped snapshot was published. -/
theorem refreshed_published (h : Sound T self) {work : Work} {nowNs : ℤ} {snapshot : StatusSnapshot}
    (hok : WorkOk T self.snapshot work) (hdone : OpenxrDone T work)
    (hlatch : ∀ p ∈ self.snapshot.providers, p.id = openxrProviderId → p.status = .failed →
      work.providersById.get? openxrProviderId = some p)
    (hregroup : regroup nowNs self.snapshot work = .ok snapshot) (self' : StatusMonitor) :
    Refreshed T self (self'.replaceSnapshot snapshot) := by
  obtain ⟨hinv, hcons, hopenxr⟩ := regroup_consistent h.wellFormed hok hdone hregroup
  refine ⟨hinv, h.replaceSnapshot hinv hcons self', hopenxr, ?_⟩
  intro p hp hid hfailed
  obtain ⟨-, hproviders, -, -⟩ := regroup_ok hregroup
  exact mem_published hproviders hp (hid ▸ hlatch p hp hid hfailed)

theorem refreshPluginProcesses_ok (hT : ∀ s, T s → s = .failed ∨ s = .stopped) (h : Sound T self)
    (hopenxr : OpenxrOk T self.snapshot) (obs : Observations) (nowNs : ℤ) :
    Refreshed T self (refreshPluginProcesses obs nowNs self).2 := by
  rw [refreshPluginProcesses]
  split
  · exact refreshed_unpublished h hopenxr rfl rfl rfl
  · dsimp only
    split
    · exact refreshed_unpublished h hopenxr rfl rfl rfl
    · rename_i snapshot hpublished
      obtain ⟨work, hfold, hregroup⟩ := polled_bind_inv hpublished
      obtain ⟨hok, hkeep⟩ := foldlM_rounds (fun _ _ _ hr => refreshPluginProcess_round hr) hT _
        (workOk_of h.wellFormed h.consistent hopenxr) hfold
      refine refreshed_published h hok ?_ ?_ hregroup self
      · -- the plugin loop leaves the OpenXR entries alone
        intro p ds hp hds
        rw [hkeep.1] at hp
        rw [hkeep.2] at hds
        exact workOf_consistent h.consistent hp hds
      · intro p hp hid _
        rw [hkeep.1, ← hid]
        exact workOf_provider h.wellFormed hp

theorem refresh_ok [PythonRepr] (hT : ∀ s, T s → s = .failed ∨ s = .stopped) (h : Sound T self)
    (hopenxr : OpenxrOk T self.snapshot) (obs : Observations) (nowNs : ℤ) :
    Refreshed T self (refresh obs nowNs self).2 := by
  rw [refresh]
  split
  · exact refreshed_unpublished h hopenxr rfl rfl rfl
  · dsimp only
    split
    · exact refreshed_unpublished h hopenxr rfl rfl rfl
    · rename_i work hplugins
      obtain ⟨work₁, hfold, hpoll⟩ := polled_bind_inv hplugins
      obtain ⟨hok₁, hkeep⟩ := foldlM_rounds (fun _ _ _ hr => refreshPlugin_round hr) hT _
        (workOk_of h.wellFormed h.consistent hopenxr) hfold
      obtain ⟨hok, hlatch⟩ := refreshOpenxr_ok hT h.wellFormed hok₁ hpoll
      -- The controllers change devices only.
      have hsettle := settleOpenxr_ok hok obs nowNs self.controllerUntrackedSinceNs
      split
      · exact refreshed_unpublished h hopenxr rfl rfl rfl
      · rename_i snapshot hpublished
        obtain ⟨work', hsettled, hregroup⟩ := polled_bind_inv hpublished
        have hwork' := Fallible.wp_ok hsettle (Prod.ext hsettled rfl)
        refine refreshed_published h hwork'.ok hwork'.done ?_ hregroup _
        intro p hp hid hfailed
        rw [hwork'.providers]
        refine hlatch p ?_ hfailed
        rw [hkeep.1, ← hid]
        exact workOf_provider h.wellFormed hp

end Operations

/-! ### Runs -/

/-- The operations of the monitor with what they are given and what they poll. -/
inductive Op
  | rebuild (pluginSpecs : List PluginProviderSpec) (includeOpenxr externalOpenxr : Bool)
      (includeControllers : Bool) (nowNs : ℤ)
  | bindPluginContext (providerId : String) (bound : Bool)
  | markAvailable (nowNs : ℤ)
  | refresh (obs : Observations) (nowNs : ℤ)
  | refreshPluginProcesses (obs : Observations) (nowNs : ℤ)
  | markStartupFailed (error : String) (nowNs : ℤ)
  | markRuntimeFailed (error : String) (nowNs : ℤ)
  | markStopped (nowNs : ℤ)

/-- The monitor after an operation, whether it returned or raised. -/
def perform [PythonRepr] (self : StatusMonitor) : Op → StatusMonitor
  | .rebuild specs includeOpenxr externalOpenxr includeControllers nowNs =>
    (rebuild specs includeOpenxr externalOpenxr includeControllers nowNs self).2
  | .bindPluginContext providerId bound => (bindPluginContext providerId bound self).2
  | .markAvailable nowNs => markAvailable nowNs self
  | .refresh obs nowNs => (refresh obs nowNs self).2
  | .refreshPluginProcesses obs nowNs => (refreshPluginProcesses obs nowNs self).2
  | .markStartupFailed error nowNs => markStartupFailed error nowNs self
  | .markRuntimeFailed error nowNs => markRuntimeFailed error nowNs self
  | .markStopped nowNs => markStopped nowNs self

/-- Where `TeleopSession` stands: between runs, in `__enter__`, or in the context. -/
inductive Phase
  | ended
  | starting
  | running
  deriving DecidableEq, Repr

/-- The order in which `TeleopSession` calls the operations: `__enter__` rebuilds, once or
again with the resolved plugins, binds the started plugins and marks them available;
steps refresh; and a failed `__enter__` or an `__exit__` ends the run. -/
def Phase.next : Phase → Op → Option Phase
  | .ended, .rebuild .. => some .starting
  | .starting, .rebuild .. => some .starting
  | .starting, .bindPluginContext .. => some .starting
  | .starting, .markAvailable _ => some .running
  | .running, .refresh .. => some .running
  | .running, .refreshPluginProcesses .. => some .running
  | .running, .markRuntimeFailed .. => some .running
  | _, .markStartupFailed .. => some .ended
  | _, .markStopped _ => some .ended
  | _, _ => none

/-- What an allowed operation says about the phases around it. -/
theorem Phase.next_inv {phase next : Phase} {op : Op} (h : phase.next op = some next) :
    match op with
    | .rebuild .. | .bindPluginContext .. => next = .starting
    | .markAvailable _ => next = .running
    | .refresh .. | .refreshPluginProcesses .. | .markRuntimeFailed .. => phase = .running
    | .markStartupFailed .. | .markStopped _ => next = .ended := by
  cases op <;> cases phase <;> cases h <;> rfl

structure Session where
  phase : Phase
  monitor : StatusMonitor
  /-- The snapshot published by the last accepted `rebuild`. -/
  installed : StatusSnapshot

namespace Session

def init : Session where
  phase := .ended
  monitor := StatusMonitor.init
  installed := StatusMonitor.init.snapshot

/-- The session after an allowed operation; a refused `rebuild` leaves it where it was. -/
def call [PythonRepr] (self : Session) (phase : Phase) : Op → Session
  | .rebuild specs includeOpenxr externalOpenxr includeControllers nowNs =>
    match StatusMonitor.rebuild specs includeOpenxr externalOpenxr includeControllers nowNs
        self.monitor with
    | (.ok (), monitor) => { phase := phase, monitor := monitor, installed := monitor.snapshot }
    | (.error _, monitor) => { self with monitor := monitor }
  | op => { self with phase := phase, monitor := self.monitor.perform op }

def drive [PythonRepr] (self : Session) (op : Op) : Option Session :=
  (self.phase.next op).map fun phase => self.call phase op

def run [PythonRepr] : Session → List Op → Option Session
  | self, [] => some self
  | self, op :: rest => (self.drive op).bind fun next => next.run rest

end Session

/-- A provider in one of these states has no device that can be used. -/
def Terminal (state : ProviderState) : Prop := state = .failed ∨ state = .stopped

/-- The invariant of a session.  While it runs, the OpenXR provider is never stopped: a
refresh would reduce the controllers of a stopped provider. -/
structure Session.Ok (session : Session) : Prop where
  sound : Sound Terminal session.monitor
  installed : inventory session.monitor.snapshot = inventory session.installed
  openxr : session.phase = .running → OpenxrOk Terminal session.monitor.snapshot

theorem markRuntimeFailed_openxrOk {T : ProviderState → Prop} (self : StatusMonitor)
    (error : String) (nowNs : ℤ) : OpenxrOk T (markRuntimeFailed error nowNs self).snapshot :=
  fun _ hp _ _ => markRuntimeFailed_status hp

theorem Session.init_ok : Session.init.Ok :=
  ⟨sound_init, rfl, fun hp => (by cases hp)⟩

/-- A refresh of either kind, which happens only in a running session. -/
theorem Session.Ok.refreshed {session : Session} (h : session.Ok) {monitor : StatusMonitor}
    (hr : Refreshed Terminal session.monitor monitor) (phase : Phase) :
    Session.Ok ⟨phase, monitor, session.installed⟩ :=
  ⟨hr.sound, hr.inventory.trans h.installed, fun _ => hr.openxr⟩

/-- A mark that keeps the inventory and ends the run. -/
theorem Session.Ok.ended {session : Session} (h : session.Ok) {monitor : StatusMonitor}
    (hsound : Sound Terminal monitor)
    (hinv : inventory monitor.snapshot = inventory session.monitor.snapshot) :
    Session.Ok ⟨.ended, monitor, session.installed⟩ :=
  ⟨hsound, hinv.trans h.installed, fun hp => (by cases hp)⟩

/-- **One operation of a session.** -/
theorem drive_ok [PythonRepr] {session session' : Session} {op : Op} (h : session.Ok)
    (hdrive : session.drive op = some session') : session'.Ok := by
  obtain ⟨phase, hnext, rfl⟩ := Option.map_eq_some_iff.mp hdrive
  have hterminal : ∀ s, Terminal s → s = .failed ∨ s = .stopped := fun _ hs => hs
  cases op with
  | rebuild specs includeOpenxr externalOpenxr includeControllers nowNs =>
    rw [Session.call]
    split
    · rename_i monitor hrebuild
      obtain rfl : phase = .starting := Phase.next_inv hnext
      exact ⟨rebuild_ok hterminal hrebuild, rfl, fun hp => (by cases hp)⟩
    · -- A rebuild that raises leaves the old monitor installed.
      rename_i e monitor hrebuild
      obtain rfl := rebuild_error hrebuild
      exact ⟨h.sound, h.installed, h.openxr⟩
  | bindPluginContext providerId bound =>
    obtain rfl : phase = .starting := Phase.next_inv hnext
    refine ⟨bindPluginContext_ok h.sound providerId bound, ?_, fun hp => (by cases hp)⟩
    show inventory (bindPluginContext providerId bound session.monitor).2.snapshot = _
    rw [(bindPluginContext_snapshot providerId bound session.monitor).1]
    exact h.installed
  | markAvailable nowNs =>
    obtain ⟨hsound, hopenxr⟩ := markAvailable_ok hterminal h.sound nowNs
    exact ⟨hsound, (markAvailable_inventory nowNs session.monitor).trans h.installed,
      fun _ => hopenxr⟩
  | refresh obs nowNs =>
    -- The wrapper refreshes a running session only.
    have hrunning : session.phase = .running := Phase.next_inv hnext
    exact h.refreshed (refresh_ok hterminal h.sound (h.openxr hrunning) obs nowNs) phase
  | refreshPluginProcesses obs nowNs =>
    have hrunning : session.phase = .running := Phase.next_inv hnext
    exact h.refreshed
      (refreshPluginProcesses_ok hterminal h.sound (h.openxr hrunning) obs nowNs) phase
  | markRuntimeFailed error nowNs =>
    exact ⟨markRuntimeFailed_ok h.sound error nowNs,
      (markTerminal_inventory _ _ _ _ _ _ _).trans h.installed,
      fun _ => markRuntimeFailed_openxrOk session.monitor error nowNs⟩
  | markStartupFailed error nowNs =>
    obtain rfl : phase = .ended := Phase.next_inv hnext
    exact h.ended (markStartupFailed_ok h.sound error nowNs) (markTerminal_inventory _ _ _ _ _ _ _)
  | markStopped nowNs =>
    obtain rfl : phase = .ended := Phase.next_inv hnext
    exact h.ended (markStopped_ok h.sound nowNs) (markTerminal_inventory _ _ _ _ _ _ _)

theorem run_ok [PythonRepr] {ops : List Op} {session session' : Session} (h : session.Ok)
    (hrun : session.run ops = some session') : session'.Ok := by
  induction ops generalizing session with
  | nil =>
    cases hrun
    exact h
  | cons op rest ih =>
    obtain ⟨next, hdrive, hrest⟩ := Option.bind_eq_some_iff.mp hrun
    exact ih (drive_ok h hdrive) hrest

/-- **Consistency over whole runs.**  Whatever a session polled and whichever of its
operations raised, the published snapshot has the providers and devices that the last
`rebuild` installed, each once and in that order, the lookups by id agree with it, and
every device of a failed or stopped provider is unavailable. -/
theorem status_consistent_over_runs [PythonRepr] (ops : List Op) (session : Session)
    (hrun : Session.init.run ops = some session) :
    inventory session.monitor.snapshot = inventory session.installed ∧
      (session.monitor.snapshot.providers.map fun p => p.id).Nodup ∧
      (session.monitor.snapshot.devices.map fun d => d.id).Nodup ∧
      (∀ id, session.monitor.getProviderStatus id
        = session.monitor.snapshot.providers.find? fun p => p.id = id) ∧
      (∀ id, session.monitor.getDeviceStatus id
        = session.monitor.snapshot.devices.find? fun d => d.id = id) ∧
      ∀ p ∈ session.monitor.snapshot.providers, p.status = .failed ∨ p.status = .stopped →
        ∀ d ∈ session.monitor.snapshot.devices, d.providerId = p.id → d.status = .unavailable := by
  have hok := run_ok Session.init_ok hrun
  have hwf := hok.sound.wellFormed
  exact ⟨hok.installed, nodup_providers hwf, nodup_devices hwf, hok.sound.getProviderStatus,
    hok.sound.getDeviceStatus, hok.sound.consistent⟩

/-! ### A run that loses its plugin and its OpenXR session -/

/-- Python's `repr` on strings without quotes or escapes. -/
@[reducible]
def quotedRepr : PythonRepr := ⟨fun s => "'" ++ s ++ "'"⟩

def glovePlugin : PluginProviderSpec where
  pluginRootId := "manus"
  name := "Manus"
  devices := [{ path := some "/glove/left", type := "glove", description := "Left glove" }]

/-- The plugin's process has exited and the OpenXR session is lost. -/
def lostObservations : Observations where
  process _ := .ok { state := "EXITED", reason := "", error := "", pid := none, exitCode := some 1,
                     termSignal := none, errorCode := none }
  report _ := .ok none
  openxr := some (.error (.exception "session lost"))
  controllers := some fun _ => none

def lostRun : List Op :=
  [.rebuild [glovePlugin] true false true 0, .bindPluginContext "plugin/manus" true,
    .markAvailable 1, .refresh lostObservations 2, .markStopped 3]

theorem lost_run_consistent :
    ∃ session, @Session.run quotedRepr Session.init lostRun = some session ∧
    (session.monitor.snapshot.providers.map fun p => p.status) = [.failed, .failed] ∧
    inventory session.monitor.snapshot = inventory session.installed := by
  have hsome : (@Session.run quotedRepr Session.init lostRun).isSome = true := by decide
  obtain ⟨session, hrun⟩ := Option.isSome_iff_exists.mp hsome
  have hstatus : (@Session.run quotedRepr Session.init lostRun).map (fun session =>
      session.monitor.snapshot.providers.map fun p => p.status) = some [.failed, .failed] := by
    decide
  rw [hrun, Option.map_some, Option.some_inj] at hstatus
  exact ⟨session, hrun, hstatus,
    (@status_consistent_over_runs quotedRepr lostRun session hrun).1⟩

end StatusMonitor
