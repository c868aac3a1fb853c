/-
Tracking loss of the OpenXR controllers over runs of `refresh`.

The status of a controller is debounced: it stays as it was until its side has been
untracked for a delay.  Every refresh acts on a controller device and its latch through the
side's own sample only, and device and latch then simulate a debounced alarm.

* `stepController` — one refresh, seen from one side;
* `stepController_debounce` — it simulates `Debounce.step`;
* `refresh_controller`, `refreshAll_controller` — a refresh and a run of refreshes;
* `controller_tracking_loss` — every run after `mark_available`.
-/
import IsaacTeleop.Debounce
import IsaacTeleop.StatusSession

open StatusMonitoring

/-! ### One side -/

/-- What a refresh is given for one side; `none` if it is given no controllers. -/
def Observations.sample (obs : Observations) (side : ControllerSide) :
    Option (Option ControllerSample) :=
  obs.controllers.map fun snapshots => snapshots side

/-- Both poses of the side were read and are valid. -/
def Observations.FullyValid (obs : Observations) (side : ControllerSide) : Prop :=
  ∃ sample, obs.sample side = some sample ∧ posesValid sample = .ok (true, true)

/-- The side's sample was read without error and is not fully valid. -/
def Observations.Untracked (obs : Observations) (side : ControllerSide) : Prop :=
  ∃ sample aimValid gripValid, obs.sample side = some sample ∧
    posesValid sample = .ok (aimValid, gripValid) ∧ (aimValid && gripValid) = false

namespace StatusMonitor

/-- The device and its latch after a refresh with this sample; a raised `BaseException`
changes neither. -/
def stepController (side : ControllerSide) (s : DeviceStatus × Option ℤ)
    (e : Option (Option ControllerSample) × ℤ) : DeviceStatus × Option ℤ :=
  match e.1 with
  | none => s
  | some sample =>
    let (reduced, untracked) := reduceController s.1 side sample e.2 fun _ => s.2
    (reduced.toOption.getD s.1, untracked side)

/-- A lost controller. -/
def Lost (device : DeviceStatus) : Prop :=
  device.status = .disconnected ∨ device.status = .degraded

instance (device : DeviceStatus) : Decidable (Lost device) :=
  inferInstanceAs (Decidable (_ ∨ _))

/-- Device and latch as a debounced alarm. -/
def alarm (s : DeviceStatus × Option ℤ) : Debounce ℤ := ⟨s.2, decide (Lost s.1)⟩

/-- What a sample says of the side's tracking. -/
def verdict : Option (Option ControllerSample) → Debounce.Verdict
  | none => .missing
  | some sample =>
    match posesValid sample with
    | .ok (aimValid, gripValid) => if aimValid && gripValid then .clear else .fault
    | .error (.exception _) => .clear
    | .error .baseException => .missing

/-- **One refresh, seen from one side, is one step of the debounced alarm.** -/
theorem stepController_debounce (side : ControllerSide) (s : DeviceStatus × Option ℤ)
    (e : Option (Option ControllerSample) × ℤ) :
    alarm (stepController side s e)
      = Debounce.step openxrControllerTrackingLossDelayNs (alarm s) (verdict e.1, e.2) := by
  obtain ⟨device, since⟩ := s
  obtain ⟨sample, nowNs⟩ := e
  cases sample with
  | none => rfl
  | some sample =>
    unfold stepController verdict reduceController
    dsimp only
    match hposes : posesValid sample with
    | .error .baseException => rfl
    | .error (.exception text) =>
      dsimp only
      rw [alarm, Function.update_self]
      rfl
    | .ok (aimValid, gripValid) =>
      dsimp only
      cases hvalid : aimValid && gripValid with
      | true =>
        rw [if_pos rfl, if_pos rfl, alarm]
        dsimp only
        rw [Function.update_self]
        rfl
      | false =>
        -- An untracked sample starts the debounce, or is measured against its start.
        cases since with
        | none =>
          simp only [Bool.false_eq_true, if_false]
          rw [alarm, Function.update_self]
          rfl
        | some sinceNs =>
          simp only [Bool.false_eq_true, if_false, Debounce.step, alarm]
          by_cases hdelay : nowNs - sinceNs < openxrControllerTrackingLossDelayNs
          · simp only [if_pos hdelay]
            rfl
          · simp only [if_neg hdelay]
            cases sample with
            | none => rfl
            | some sample => rfl

theorem stepController_info (side : ControllerSide) (s : DeviceStatus × Option ℤ)
    (e : Option (Option ControllerSample) × ℤ) :
    (stepController side s e).1.toDeviceInfo = s.1.toDeviceInfo := by
  obtain ⟨sample, nowNs⟩ := e
  cases sample with
  | none => rfl
  | some sample =>
    have hinfo := reduceController_info s.1 side sample nowNs fun _ => s.2
    unfold Fallible.wp at hinfo
    unfold stepController
    dsimp only
    match hreduce : reduceController s.1 side sample nowNs fun _ => s.2 with
    | (.ok device', untracked') =>
      rw [hreduce] at hinfo
      exact hinfo
    | (.error e, untracked') => rfl

/-- A device reduced by a sample, with the latch of its side; the other latches are kept. -/
structure Reduces (side : ControllerSide) (sample : Option ControllerSample) (nowNs : ℤ)
    (device device' : DeviceStatus) (untracked untracked' : UntrackedSince) : Prop where
  step : (device', untracked' side)
    = stepController side (device, untracked side) (some sample, nowNs)
  others : ∀ other, other ≠ side → untracked' other = untracked other
  readable : posesValid sample ≠ .error .baseException

theorem reduceController_reduces (device : DeviceStatus) (side : ControllerSide)
    (sample : Option ControllerSample) (nowNs : ℤ) (untracked : UntrackedSince) :
    Fallible.wp (reduceController device side sample nowNs)
      (fun device' untracked' => Reduces side sample nowNs device device' untracked untracked')
      (fun _ _ => True) untracked := by
  have hother : ∀ (value : Option ℤ) (other : ControllerSide), other ≠ side →
      Function.update untracked side value other = untracked other := fun value other hne =>
    Function.update_of_ne hne _ _
  unfold Fallible.wp
  match hreduce : reduceController device side sample nowNs untracked with
  | (.error e, untracked') => trivial
  | (.ok device', untracked') =>
    unfold reduceController at hreduce
    -- The branches of the code in their order: not readable, valid, not valid.
    match hposes : posesValid sample with
    | .error .baseException =>
      rw [hposes] at hreduce
      cases hreduce
    | .error (.exception text) =>
      rw [hposes] at hreduce
      cases hreduce
      refine ⟨?_, hother none, by simp [hposes]⟩
      unfold stepController reduceController
      simp only [hposes, Function.update_self]
      rfl
    | .ok (aimValid, gripValid) =>
      rw [hposes] at hreduce
      dsimp only at hreduce
      have hreadable : posesValid sample ≠ .error .baseException := by simp [hposes]
      cases hvalid : aimValid && gripValid with
      | true =>
        rw [if_pos hvalid] at hreduce
        cases hreduce
        refine ⟨?_, hother none, hreadable⟩
        unfold stepController reduceController
        simp only [hposes, hvalid, if_true, Function.update_self]
        rfl
      | false =>
        rw [if_neg (by simp [hvalid])] at hreduce
        -- A sample that is not valid starts the clock of its side, or is judged by it.
        cases hsince : untracked side with
        | none =>
          rw [hsince] at hreduce
          cases hreduce
          refine ⟨?_, hother _, hreadable⟩
          unfold stepController reduceController
          simp only [hposes, hvalid, hsince, Bool.false_eq_true, if_false, Function.update_self]
          rfl
        | some sinceNs =>
          rw [hsince] at hreduce
          dsimp only at hreduce
          by_cases hdelay : nowNs - sinceNs < openxrControllerTrackingLossDelayNs
          · rw [if_pos hdelay] at hreduce
            cases hreduce
            refine ⟨?_, fun _ _ => rfl, hreadable⟩
            unfold stepController reduceController
            simp only [hposes, hvalid, hsince, Bool.false_eq_true, if_false, if_pos hdelay]
            rfl
          · rw [if_neg hdelay] at hreduce
            cases hreduce
            refine ⟨?_, fun _ _ => rfl, hreadable⟩
            unfold stepController reduceController
            simp only [hposes, hvalid, hsince, Bool.false_eq_true, if_false, if_neg hdelay]
            rfl

theorem controllerSideById_deviceId (side : ControllerSide) :
    controllerSideById side.deviceId = some side := by
  cases side with
  | left => rfl
  | right => rfl

theorem controllerSideById_eq_some {deviceId : String} {side : ControllerSide}
    (h : controllerSideById deviceId = some side) : deviceId = side.deviceId := by
  rw [controllerSideById] at h
  split at h
  case isTrue hid =>
    cases h
    exact hid
  case isFalse =>
    split at h
    case isTrue hid =>
      cases h
      exact hid
    case isFalse => cases h

/-- **The loop over the devices**: a controller and its latch take the step of their own side,
and a side without a device keeps its latch. -/
theorem reduceOpenxrControllers_reduces (snapshots : ControllerSide → Option ControllerSample)
    (nowNs : ℤ) (devices : List DeviceStatus) (hnodup : (devices.map fun d => d.id).Nodup)
    (untracked : UntrackedSince) :
    Fallible.wp (reduceOpenxrControllers snapshots nowNs devices)
      (fun reduced untracked' =>
        (∀ side, ∀ device ∈ devices, device.id = side.deviceId → ∃ device' ∈ reduced,
          (device', untracked' side)
            = stepController side (device, untracked side) (some (snapshots side), nowNs) ∧
          posesValid (snapshots side) ≠ .error .baseException) ∧
        ∀ side, (∀ device ∈ devices, device.id ≠ side.deviceId) →
          untracked' side = untracked side)
      (fun _ _ => True) untracked := by
  induction devices generalizing untracked with
  | nil => exact Fallible.wp_pure ⟨fun _ _ hd => (by cases hd), fun _ _ => rfl⟩
  | cons device rest ih =>
    rw [List.map_cons, List.nodup_cons] at hnodup
    obtain ⟨hnew, hnodup⟩ := hnodup
    have hfresh : ∀ other ∈ rest, other.id ≠ device.id := fun other hother heq =>
      hnew (List.mem_map.mpr ⟨other, hother, heq⟩)
    rw [reduceOpenxrControllers]
    refine Fallible.wp_bind ?_
    rw [reduceOpenxrDevice]
    cases hside : controllerSideById device.id with
    | none =>
      -- the headset, or a device of no side: it is kept
      refine Fallible.wp_pure (Fallible.wp_bind (Fallible.wp_mono (ih hnodup untracked) ?_
        (fun _ _ h => h)))
      rintro others untracked' ⟨hsteps, hkept⟩
      refine Fallible.wp_pure ⟨fun side d hd hid => ?_, fun side hnone => ?_⟩
      · rcases List.mem_cons.mp hd with rfl | hd
        · rw [hid, controllerSideById_deviceId] at hside
          cases hside
        · obtain ⟨device', hmem, hstep⟩ := hsteps side d hd hid
          exact ⟨device', List.mem_cons_of_mem _ hmem, hstep⟩
      · exact hkept side fun d hd => hnone d (List.mem_cons_of_mem _ hd)
    | some own =>
      have hown := controllerSideById_eq_some hside
      have hrest : ∀ d ∈ rest, d.id ≠ own.deviceId := fun d hd => hown ▸ hfresh d hd
      refine Fallible.wp_mono (reduceController_reduces device own (snapshots own) nowNs untracked)
        ?_ (fun _ _ h => h)
      intro device' untracked₁ hreduces
      refine Fallible.wp_bind (Fallible.wp_mono (ih hnodup untracked₁) ?_ (fun _ _ h => h))
      rintro others untracked' ⟨hsteps, hkept⟩
      refine Fallible.wp_pure ⟨fun side d hd hid => ?_, fun side hnone => ?_⟩
      · rcases List.mem_cons.mp hd with rfl | hd
        · obtain rfl : side = own := by
            rw [hid, controllerSideById_deviceId] at hside
            exact Option.some.inj hside
          refine ⟨device', List.mem_cons_self, ?_, hreduces.readable⟩
          rw [hkept side hrest]
          exact hreduces.step
        · have hne : side ≠ own := by
            rintro rfl
            exact hrest d hd hid
          obtain ⟨d', hmem, hstep, hread⟩ := hsteps side d hd hid
          refine ⟨d', List.mem_cons_of_mem _ hmem, ?_, hread⟩
          rw [hstep, hreduces.others side hne]
      · have hne : side ≠ own := by
          rintro rfl
          exact hnone device List.mem_cons_self hown
        rw [hkept side fun d hd => hnone d (List.mem_cons_of_mem _ hd), hreduces.others side hne]

/-! ### One refresh -/

/-- The parts of a refresh that returned. -/
theorem refresh_inv [PythonRepr] {obs : Observations} {nowNs : ℤ} {self self' : StatusMonitor}
    (h : refresh obs nowNs self = (.ok (), self')) (hrunning : self.runtimeFailed = false) :
    ∃ work₁ work₂ work₃ untracked snapshot,
      self.pluginRuntimes.foldlM (refreshPlugin obs nowNs) (Work.of self.snapshot) = .ok work₁ ∧
      refreshOpenxr self.externalOpenxr obs work₁ = .ok work₂ ∧
      settleOpenxr obs nowNs work₂ self.controllerUntrackedSinceNs = (.ok work₃, untracked) ∧
      regroup nowNs self.snapshot work₃ = .ok snapshot ∧
      self' = { self with controllerUntrackedSinceNs := untracked }.replaceSnapshot snapshot := by
  have hnot : ¬ self.runtimeFailed = true := by
    rw [hrunning]
    exact Bool.false_ne_true
  rw [refresh, if_neg hnot] at h
  dsimp only at h
  split at h
  case h_1 => cases h
  case h_2 work₂ hplugins =>
    obtain ⟨work₁, hfold, hopenxr⟩ := polled_bind_inv hplugins
    -- The untracked times are kept even when the snapshot cannot be published.
    cases hsettle : settleOpenxr obs nowNs work₂ self.controllerUntrackedSinceNs with
    | mk settled untracked =>
      rw [hsettle] at h
      dsimp only at h
      split at h
      case h_1 => cases h
      case h_2 snapshot hpublished =>
        obtain ⟨work₃, rfl, hregroup⟩ := polled_bind_inv hpublished
        cases h
        exact ⟨work₁, work₂, work₃, untracked, snapshot, hfold, hopenxr, hsettle, hregroup,
          rfl⟩

/-- The OpenXR poll leaves every device but the headset. -/
theorem refreshOpenxr_keeps [PythonRepr] {externalOpenxr : Bool} {obs : Observations}
    {work work' : Work} (h : refreshOpenxr externalOpenxr obs work = .ok work')
    {devices : List DeviceStatus}
    (hdevices : work.devicesByProvider.get? openxrProviderId = some devices) :
    ∃ devices', work'.devicesByProvider.get? openxrProviderId = some devices' ∧
      ∀ device ∈ devices, device.id ≠ openxrDeviceId → device ∈ devices' := by
  rw [refreshOpenxr] at h
  split at h
  case h_1 =>
    cases h
    exact ⟨devices, hdevices, fun device hmem _ => hmem⟩
  case h_2 provider hprovider =>
    split at h
    case isTrue =>
      cases h
      exact ⟨devices, hdevices, fun device hmem _ => hmem⟩
    case isFalse =>
      obtain ⟨devices₁, hlook, h⟩ := polled_bind_inv h
      obtain rfl := Option.some.inj (hdevices.symm.trans (lookup_ok hlook))
      split at h
      case h_1 => cases h
      case h_2 headset hfind =>
        dsimp only at h
        split at h
        case isTrue =>
          cases h
          exact ⟨devices, hdevices, fun device hmem _ => hmem⟩
        case isFalse =>
          obtain ⟨⟨provider', headset'⟩, -, h⟩ := polled_bind_inv h
          cases h
          refine ⟨_, (OrderedDict.get?_insert _ _ _ _).trans (if_pos rfl),
            fun device hmem hne => ?_⟩
          exact List.mem_map.mpr ⟨device, hmem, if_neg hne⟩

/-- The last OpenXR step on a provider that has not failed: each controller takes the step of
its side. -/
theorem settleOpenxr_controller {obs : Observations} {nowNs : ℤ} {work : Work}
    {provider : ProviderStatus} {devices : List DeviceStatus}
    (hprovider : work.providersById.get? openxrProviderId = some provider)
    (hstatus : provider.status ≠ .failed)
    (hdevices : work.devicesByProvider.get? openxrProviderId = some devices)
    (hnodup : (devices.map fun d => d.id).Nodup) (untracked : UntrackedSince) :
    Fallible.wp (settleOpenxr obs nowNs work)
      (fun work' untracked' => ∀ side, ∀ device ∈ devices, device.id = side.deviceId →
        ∃ devices' device', work'.devicesByProvider.get? openxrProviderId = some devices' ∧
          device' ∈ devices' ∧
          (device', untracked' side)
            = stepController side (device, untracked side) (obs.sample side, nowNs) ∧
          ∀ sample, obs.sample side = some sample → posesValid sample ≠ .error .baseException)
      (fun _ _ => True) untracked := by
  rw [settleOpenxr, hprovider]
  dsimp only
  refine Fallible.wp_bind ?_
  rw [lookup, hdevices]
  show Fallible.wp _ _ _ untracked
  simp only [if_neg hstatus]
  unfold Observations.sample
  cases obs.controllers with
  | none =>
    -- Without a controller map the devices stay as they are.
    refine Fallible.wp_pure fun side device hmem hid => ?_
    exact ⟨devices, device, hdevices, hmem, rfl, fun sample hsample => (by cases hsample)⟩
  | some snapshots =>
    refine Fallible.wp_bind (Fallible.wp_mono
      (reduceOpenxrControllers_reduces snapshots nowNs devices hnodup untracked) ?_
      (fun _ _ h => h))
    rintro reduced untracked' ⟨hsteps, -⟩
    refine Fallible.wp_pure fun side device hmem hid => ?_
    obtain ⟨device', hmem', hstep, hread⟩ := hsteps side device hmem hid
    refine ⟨reduced, device', (OrderedDict.get?_insert _ _ _ _).trans (if_pos rfl), hmem', hstep,
      ?_⟩
    intro sample hsample
    obtain rfl := Option.some.inj hsample
    exact hread

/-- A running monitor, and a provider of OpenXR that has not failed. -/
structure Running (monitor : StatusMonitor) : Prop where
  sound : Sound Terminal monitor
  openxr : OpenxrOk Terminal monitor.snapshot
  runtime : monitor.runtimeFailed = false

def OpenxrNotFailed (self : StatusMonitor) : Prop :=
  ∀ p ∈ self.snapshot.providers, p.id = openxrProviderId → p.status ≠ .failed

theorem terminal_cases : ∀ s, Terminal s → s = .failed ∨ s = .stopped := fun _ hs => hs

/-- A refresh leaves a running monitor running. -/
theorem Running.refresh [PythonRepr] {self self' : StatusMonitor} {obs : Observations} {nowNs : ℤ}
    (h : Running self) (hok : StatusMonitor.refresh obs nowNs self = (.ok (), self')) :
    Running self' := by
  have hrefreshed := refresh_ok terminal_cases h.sound h.openxr obs nowNs
  rw [hok] at hrefreshed
  obtain ⟨_, _, _, _, _, -, -, -, -, rfl⟩ := refresh_inv hok h.runtime
  exact ⟨hrefreshed.sound, hrefreshed.openxr, h.runtime⟩

/-- A failed provider stays failed. -/
theorem notFailed_of_refresh [PythonRepr] {self self' : StatusMonitor} {obs : Observations}
    {nowNs : ℤ} (h : Running self)
    (hok : StatusMonitor.refresh obs nowNs self = (.ok (), self'))
    (hnot : OpenxrNotFailed self') : OpenxrNotFailed self := by
  have hrefreshed := refresh_ok terminal_cases h.sound h.openxr obs nowNs
  rw [hok] at hrefreshed
  intro p hp hid hfailed
  exact hnot p (hrefreshed.latch p hp hid hfailed) hid hfailed

/-- **One refresh, for one controller device and its latch.** -/
theorem refresh_controller [PythonRepr] {self self' : StatusMonitor} {obs : Observations}
    {nowNs : ℤ} (h : Running self)
    (hok : StatusMonitor.refresh obs nowNs self = (.ok (), self'))
    (hnot : OpenxrNotFailed self') {side : ControllerSide} {device : DeviceStatus}
    (hdevice : device ∈ self.snapshot.devices) (hid : device.id = side.deviceId)
    (hopenxr : device.providerId = openxrProviderId) :
    ∃ device' ∈ self'.snapshot.devices,
      (device', self'.controllerUntrackedSinceNs side)
        = stepController side (device, self.controllerUntrackedSinceNs side)
            (obs.sample side, nowNs) ∧
      ∀ sample, obs.sample side = some sample → posesValid sample ≠ .error .baseException := by
  obtain ⟨work₁, work₂, work₃, untracked, snapshot, hfold, hpoll, hsettle, hregroup, rfl⟩ :=
    refresh_inv hok h.runtime
  obtain ⟨hok₁, hkeep⟩ := foldlM_rounds (fun _ _ _ hr => refreshPlugin_round hr) terminal_cases _
    (workOk_of h.sound.wellFormed h.sound.consistent h.openxr) hfold
  obtain ⟨hok₂, -⟩ := refreshOpenxr_ok terminal_cases h.sound.wellFormed hok₁ hpoll
  have hsettled := Fallible.wp_ok
    (settleOpenxr_ok hok₂ obs nowNs self.controllerUntrackedSinceNs) hsettle
  obtain ⟨groups, hproviders, hgroups, hdevices⟩ := regroup_ok hregroup
  -- the provider of the device, as it is published
  obtain ⟨p, hp, hpid⟩ := provider_of_device h.sound.wellFormed hdevice
  rw [hopenxr] at hpid
  obtain ⟨p', hp', hentry⟩ := forall₂_mem_right hproviders.flip hp
  have hpid' : p'.id = openxrProviderId := by
    rw [provider_id_eq (hsettled.ok.provider_info p hp p' hentry), hpid]
  have hstatus : p'.status ≠ .failed := hnot p' hp' hpid'
  rw [hpid, hsettled.providers] at hentry
  -- the device in its group, before and after the poll
  have hgroup : ∃ group, (Work.of self.snapshot).devicesByProvider.get? openxrProviderId
      = some group ∧ device ∈ group := by
    refine ⟨self.snapshot.devices.filter fun d => d.providerId = openxrProviderId, ?_,
      List.mem_filter.mpr ⟨hdevice, by simpa using hopenxr⟩⟩
    have hget := OrderedDict.get?_foldl_insert_of_mem (fun p : ProviderStatus => p.id)
      (fun p => self.snapshot.devices.filter fun device : DeviceStatus => device.providerId = p.id)
      (nodup_providers h.sound.wellFormed) hp ∅
    rw [hpid] at hget
    exact hget
  obtain ⟨group, hgroup, hmem⟩ := hgroup
  rw [← hkeep.2] at hgroup
  obtain ⟨group', hgroup', hkept⟩ := refreshOpenxr_keeps hpoll hgroup
  have hne : device.id ≠ openxrDeviceId := by
    rw [hid]
    cases side with
    | left => decide
    | right => decide
  have hnodup : (group'.map fun d => d.id).Nodup := by
    have hids := nodup_filter_ids h.sound.wellFormed openxrProviderId
    rw [← hok₂.device_infos _ _ hgroup', infos, List.map_map] at hids
    exact hids
  obtain ⟨reduced, device', hreduced, hmem', hstep, hread⟩ := Fallible.wp_ok
    (settleOpenxr_controller hentry hstatus hgroup' hnodup self.controllerUntrackedSinceNs)
    hsettle side device (hkept device hmem hne) hid
  refine ⟨device', ?_, hstep, hread⟩
  obtain ⟨published, hpublished, hget⟩ := forall₂_mem_right hgroups.flip hp'
  rw [hpid', hreduced, Option.some_inj] at hget
  show device' ∈ snapshot.devices
  rw [hdevices]
  exact List.mem_flatten.mpr ⟨published, hpublished, hget ▸ hmem'⟩

/-! ### Runs of refreshes -/

/-- Refreshes one after another, each with what it polls and its time; `none` if one of them
raised. -/
def refreshAll [PythonRepr] : List (Observations × ℤ) → StatusMonitor → Option StatusMonitor
  | [], self => some self
  | (obs, nowNs) :: rest, self =>
    match refresh obs nowNs self with
    | (.ok (), self') => refreshAll rest self'
    | (.error _, _) => none

/-- What a run of refreshes has for one side. -/
def sideSamples (side : ControllerSide) (refreshes : List (Observations × ℤ)) :
    List (Option (Option ControllerSample) × ℤ) :=
  refreshes.map fun r => (r.1.sample side, r.2)

theorem refreshAll_cons [PythonRepr] {obs : Observations} {nowNs : ℤ}
    {rest : List (Observations × ℤ)} {self monitor : StatusMonitor}
    (h : refreshAll ((obs, nowNs) :: rest) self = some monitor) :
    ∃ self', refresh obs nowNs self = (.ok (), self') ∧ refreshAll rest self' = some monitor := by
  rw [refreshAll] at h
  split at h
  case h_1 self' hok => exact ⟨self', hok, h⟩
  case h_2 => cases h

theorem Running.refreshAll [PythonRepr] {refreshes : List (Observations × ℤ)}
    {self monitor : StatusMonitor} (h : Running self)
    (hrun : StatusMonitor.refreshAll refreshes self = some monitor) :
    Running monitor ∧ inventory monitor.snapshot = inventory self.snapshot ∧
      (OpenxrNotFailed monitor → OpenxrNotFailed self) := by
  induction refreshes generalizing self with
  | nil =>
    cases hrun
    exact ⟨h, rfl, id⟩
  | cons r rest ih =>
    obtain ⟨self', hok, hrest⟩ := refreshAll_cons hrun
    obtain ⟨hrunning, hinv, hnot⟩ := ih (h.refresh hok) hrest
    have hrefreshed := refresh_ok terminal_cases h.sound h.openxr r.1 r.2
    rw [hok] at hrefreshed
    exact ⟨hrunning, hinv.trans hrefreshed.inventory,
      fun hfinal => notFailed_of_refresh h hok (hnot hfinal)⟩

/-- **A run of refreshes, for one controller device and its latch.** -/
theorem refreshAll_controller [PythonRepr] {refreshes : List (Observations × ℤ)}
    {self monitor : StatusMonitor} (h : Running self)
    (hrun : refreshAll refreshes self = some monitor) (hnot : OpenxrNotFailed monitor)
    {side : ControllerSide} {device : DeviceStatus} (hdevice : device ∈ self.snapshot.devices)
    (hid : device.id = side.deviceId) (hopenxr : device.providerId = openxrProviderId) :
    ∃ device' ∈ monitor.snapshot.devices,
      (device', monitor.controllerUntrackedSinceNs side)
        = (sideSamples side refreshes).foldl (stepController side)
            (device, self.controllerUntrackedSinceNs side) ∧
      ∀ r ∈ refreshes, ∀ sample, r.1.sample side = some sample →
        posesValid sample ≠ .error .baseException := by
  induction refreshes generalizing self device with
  | nil =>
    cases hrun
    exact ⟨device, hdevice, rfl, fun r hr => (by cases hr)⟩
  | cons r rest ih =>
    obtain ⟨self', hok, hrest⟩ := refreshAll_cons hrun
    have hrunning := h.refresh hok
    have hnot' := (hrunning.refreshAll hrest).2.2 hnot
    obtain ⟨device', hdevice', hstep, hread⟩ :=
      refresh_controller h hok hnot' hdevice hid hopenxr
    -- A refresh keeps the identity of the device, so the next one finds it again.
    have hinfo : device'.toDeviceInfo = device.toDeviceInfo := by
      have hfst : device' = (stepController side (device, self.controllerUntrackedSinceNs side)
          (r.1.sample side, r.2)).1 := congrArg Prod.fst hstep
      rw [hfst]
      exact stepController_info side _ _
    obtain ⟨final, hfinal, hsteps, hreads⟩ := ih hrunning hrest hdevice'
      ((congrArg DeviceInfo.id hinfo).trans hid)
      ((congrArg DeviceInfo.providerId hinfo).trans hopenxr)
    refine ⟨final, hfinal, ?_, ?_⟩
    · rw [hsteps, hstep]
      rfl
    · intro r' hr'
      rcases List.mem_cons.mp hr' with rfl | hr'
      · exact hread
      · exact hreads r' hr'

theorem foldl_stepController_info (side : ControllerSide)
    (samples : List (Option (Option ControllerSample) × ℤ)) (s : DeviceStatus × Option ℤ) :
    (samples.foldl (stepController side) s).1.toDeviceInfo = s.1.toDeviceInfo := by
  induction samples generalizing s with
  | nil => rfl
  | cons e rest ih => exact (ih _).trans (stepController_info side s e)

/-- **A run of refreshes simulates the debounced alarm.** -/
theorem alarm_foldl (side : ControllerSide)
    (samples : List (Option (Option ControllerSample) × ℤ)) (s : DeviceStatus × Option ℤ) :
    alarm (samples.foldl (stepController side) s)
      = (samples.map fun e => (verdict e.1, e.2)).foldl
          (Debounce.step openxrControllerTrackingLossDelayNs) (alarm s) := by
  induction samples generalizing s with
  | nil => rfl
  | cons e rest ih =>
    rw [List.foldl_cons, List.map_cons, List.foldl_cons, ih, stepController_debounce]

/-! ### The history of one side -/

/-- What the refreshes say of one side's tracking. -/
def verdicts (side : ControllerSide) (refreshes : List (Observations × ℤ)) :
    List (Debounce.Verdict × ℤ) :=
  refreshes.map fun r => (verdict (r.1.sample side), r.2)

/-- Two refreshes that read the side as untracked lie the delay apart, and from the first of
them on every refresh that was given controllers did. -/
def TrackingLost (side : ControllerSide) (refreshes : List (Observations × ℤ)) : Prop :=
  ∃ (i j : ℕ) (obs obs' : Observations) (s t : ℤ), i ≤ j ∧ refreshes[i]? = some (obs, s) ∧
    obs.Untracked side ∧ refreshes[j]? = some (obs', t) ∧ obs'.Untracked side ∧
    openxrControllerTrackingLossDelayNs ≤ t - s ∧
    ∀ (k : ℕ) (obs : Observations) (t : ℤ), i ≤ k → refreshes[k]? = some (obs, t) →
      obs.controllers = none ∨ obs.Untracked side

theorem verdict_eq_fault {obs : Observations} {side : ControllerSide} :
    verdict (obs.sample side) = .fault ↔ obs.Untracked side := by
  unfold Observations.Untracked verdict
  constructor
  · intro h
    split at h
    case h_1 => cases h
    case h_2 sample hsample =>
      split at h
      case h_1 aimValid gripValid hposes =>
        split at h
        case isTrue => cases h
        case isFalse hvalid =>
          exact ⟨sample, aimValid, gripValid, hsample, hposes, by simpa using hvalid⟩
      case h_2 => cases h
      case h_3 => cases h
  · rintro ⟨sample, aimValid, gripValid, hsample, hposes, hvalid⟩
    rw [hsample]
    dsimp only
    rw [hposes]
    dsimp only
    rw [hvalid, if_neg Bool.false_ne_true]

/-- A verdict that is not clear, on a side that can be read. -/
theorem verdict_ne_clear {obs : Observations} {side : ControllerSide}
    (hread : ∀ sample, obs.sample side = some sample → posesValid sample ≠ .error .baseException) :
    verdict (obs.sample side) ≠ .clear ↔ obs.controllers = none ∨ obs.Untracked side := by
  rw [← verdict_eq_fault]
  constructor
  · intro h
    cases hsample : obs.sample side with
    | none => exact Or.inl (Option.map_eq_none_iff.mp hsample)
    | some sample =>
      refine Or.inr ?_
      rw [hsample] at h
      unfold verdict at h ⊢
      dsimp only at h ⊢
      split at h
      case h_1 aimValid gripValid hposes =>
        split at h
        case isTrue => exact absurd rfl h
        case isFalse hvalid => rw [if_neg hvalid]
      case h_2 => exact absurd rfl h
      -- An interruption would have ended the refresh.
      case h_3 hposes => exact absurd hposes (hread sample hsample)
  · rintro (hnone | hfault)
    · have hmissing : verdict (obs.sample side) = .missing := by
        rw [Observations.sample, hnone]
        rfl
      rw [hmissing]
      decide
    · rw [hfault]
      decide

/-- A side that was given and can be read is observed. -/
theorem verdict_ne_missing {obs : Observations} {side : ControllerSide}
    (hread : ∀ sample, obs.sample side = some sample → posesValid sample ≠ .error .baseException)
    (hgiven : obs.controllers ≠ none) : verdict (obs.sample side) ≠ .missing := by
  intro hmissing
  have hne : verdict (obs.sample side) ≠ .clear := by
    rw [hmissing]
    decide
  rcases (verdict_ne_clear hread).mp hne with hnone | huntracked
  · exact hgiven hnone
  · rw [verdict_eq_fault.mpr huntracked] at hmissing
    cases hmissing

theorem verdicts_fault {side : ControllerSide} {refreshes : List (Observations × ℤ)} {i : ℕ}
    {s : ℤ} : (verdicts side refreshes)[i]? = some (.fault, s) ↔
      ∃ obs, refreshes[i]? = some (obs, s) ∧ obs.Untracked side := by
  rw [verdicts, List.getElem?_map, Option.map_eq_some_iff]
  constructor
  · rintro ⟨⟨obs, t⟩, hget, heq⟩
    obtain ⟨hverdict, rfl⟩ := Prod.mk.inj heq
    exact ⟨obs, hget, verdict_eq_fault.mp hverdict⟩
  · rintro ⟨obs, hget, huntracked⟩
    exact ⟨(obs, s), hget, by rw [verdict_eq_fault.mpr huntracked]⟩

/-- Quiet verdicts, on a side that can be read. -/
theorem verdicts_quietFrom {side : ControllerSide} {refreshes : List (Observations × ℤ)}
    (hread : ∀ r ∈ refreshes, ∀ sample, r.1.sample side = some sample →
      posesValid sample ≠ .error .baseException) {i : ℕ} :
    Debounce.QuietFrom (verdicts side refreshes) i ↔ ∀ k obs t, i ≤ k →
      refreshes[k]? = some (obs, t) → obs.controllers = none ∨ obs.Untracked side := by
  constructor
  · intro hquiet k obs t hik hget
    refine (verdict_ne_clear (hread _ (List.mem_of_getElem? hget))).mp fun hclear => ?_
    refine hquiet k t hik ?_
    rw [verdicts, List.getElem?_map, hget, Option.map_some, hclear]
  · intro hall k t hik hget
    rw [verdicts, List.getElem?_map, Option.map_eq_some_iff] at hget
    obtain ⟨⟨obs, u⟩, hget, heq⟩ := hget
    obtain ⟨hclear, rfl⟩ := Prod.mk.inj heq
    exact (verdict_ne_clear (hread _ (List.mem_of_getElem? hget))).mpr
      (hall k obs u hik hget) hclear

theorem verdicts_times (side : ControllerSide) (refreshes : List (Observations × ℤ)) :
    (verdicts side refreshes).map Prod.snd = refreshes.map Prod.snd := by
  rw [verdicts, List.map_map]
  rfl

theorem delay_pos : 0 < openxrControllerTrackingLossDelayNs := by decide

/-! ### After `mark_available` -/

/-- Latches and failure are reset. -/
def Reset (monitor : StatusMonitor) : Prop :=
  monitor.runtimeFailed = false ∧ ∀ side, monitor.controllerUntrackedSinceNs side = none

theorem rebuild_reset {specs : List PluginProviderSpec} {includeOpenxr externalOpenxr : Bool}
    {includeControllers : Bool} {nowNs : ℤ} {self self' : StatusMonitor}
    (h : rebuild specs includeOpenxr externalOpenxr includeControllers nowNs self
      = (.ok (), self')) : Reset self' := by
  rw [rebuild] at h
  split at h
  case h_1 => cases h
  case h_2 =>
    cases h
    exact ⟨rfl, fun _ => rfl⟩

theorem bindPluginContext_reset [PythonRepr] {self : StatusMonitor} (h : Reset self)
    (providerId : String) (bound : Bool) : Reset (bindPluginContext providerId bound self).2 := by
  rw [bindPluginContext]
  split
  case h_1 => exact h
  case h_2 => exact h

theorem call_reset [PythonRepr] {session : Session} {phase : Phase} {op : Op}
    (h : session.phase = .starting → Reset session.monitor)
    (hallowed : session.phase.next op = some phase)
    (hphase : (session.call phase op).phase = .starting) :
    Reset (session.call phase op).monitor := by
  cases op with
  | rebuild specs includeOpenxr externalOpenxr includeControllers nowNs =>
    rw [Session.call] at hphase ⊢
    split at hphase
    case h_1 monitor hrebuild => exact rebuild_reset hrebuild
    case h_2 e monitor hrebuild =>
      -- a refused inventory: the session was starting before
      obtain rfl := rebuild_error hrebuild
      exact h hphase
  | bindPluginContext providerId bound =>
    have hstarting : session.phase = .starting := by
      cases hp : session.phase with
      | starting => rfl
      | ended =>
        rw [hp] at hallowed
        cases hallowed
      | running =>
        rw [hp] at hallowed
        cases hallowed
    exact bindPluginContext_reset (h hstarting) providerId bound
  | markAvailable nowNs =>
    have hnext : phase = .running := Phase.next_inv hallowed
    cases hnext.symm.trans hphase
  | refresh obs nowNs =>
    have hrunning : session.phase = .running := Phase.next_inv hallowed
    rw [hrunning] at hallowed
    cases (Option.some.inj hallowed).trans hphase
  | refreshPluginProcesses obs nowNs =>
    have hrunning : session.phase = .running := Phase.next_inv hallowed
    rw [hrunning] at hallowed
    cases (Option.some.inj hallowed).trans hphase
  | markRuntimeFailed error nowNs =>
    have hrunning : session.phase = .running := Phase.next_inv hallowed
    rw [hrunning] at hallowed
    cases (Option.some.inj hallowed).trans hphase
  | markStartupFailed error nowNs =>
    have hnext : phase = .ended := Phase.next_inv hallowed
    cases hnext.symm.trans hphase
  | markStopped nowNs =>
    have hnext : phase = .ended := Phase.next_inv hallowed
    cases hnext.symm.trans hphase

/-- Before a session is available, the last `rebuild` has reset latches and failure. -/
theorem starting_reset [PythonRepr] {ops : List Op} {session session' : Session}
    (h : session.phase = .starting → Reset session.monitor)
    (hrun : session.run ops = some session') (hphase : session'.phase = .starting) :
    Reset session'.monitor := by
  induction ops generalizing session with
  | nil =>
    cases hrun
    exact h hphase
  | cons op rest ih =>
    obtain ⟨next, hdrive, hrest⟩ := Option.bind_eq_some_iff.mp hrun
    refine ih (fun hnext => ?_) hrest
    obtain ⟨phase, hallowed, rfl⟩ := Option.map_eq_some_iff.mp hdrive
    exact call_reset h hallowed hnext

/-- `mark_available` on a session that is starting. -/
theorem running_markAvailable [PythonRepr] {before : List Op} {session : Session}
    (hbefore : Session.init.run before = some session) (hstarting : session.phase = .starting)
    (availableNs : ℤ) :
    Running (markAvailable availableNs session.monitor) ∧
      ∀ side, (markAvailable availableNs session.monitor).controllerUntrackedSinceNs side
        = none := by
  have hok := run_ok Session.init_ok hbefore
  obtain ⟨hruntime, hlatches⟩ :=
    starting_reset (fun hphase => (by cases hphase)) hbefore hstarting
  obtain ⟨hsound, hopenxr⟩ := markAvailable_ok terminal_cases hok.sound availableNs
  exact ⟨⟨hsound, hopenxr, hruntime⟩, hlatches⟩

/-- After `mark_available` a controller is unknown. -/
theorem markAvailable_controller {availableNs : ℤ} {self : StatusMonitor} {side : ControllerSide}
    {device : DeviceStatus} (hdevice : device ∈ (markAvailable availableNs self).snapshot.devices)
    (hid : device.id = side.deviceId) (hopenxr : device.providerId = openxrProviderId) :
    device.status = .unknown := by
  obtain ⟨old, -, rfl⟩ := List.mem_map.mp hdevice
  have hinfo := availableDevice_info self.externalOpenxr old
  have hid' : old.id = side.deviceId := (congrArg DeviceInfo.id hinfo).symm.trans hid
  have hopenxr' : old.providerId = openxrProviderId :=
    (congrArg DeviceInfo.providerId hinfo).symm.trans hopenxr
  have hne : old.id ≠ openxrDeviceId := by
    rw [hid']
    cases side with
    | left => decide
    | right => decide
  rw [availableDevice, if_pos hopenxr', if_pos hne]

/-- A sample with both poses valid connects the controller. -/
theorem stepController_valid (side : ControllerSide) (s : DeviceStatus × Option ℤ)
    {sample : Option ControllerSample} (hvalid : posesValid sample = .ok (true, true))
    (nowNs : ℤ) : (stepController side s (some sample, nowNs)).1.status = .connected := by
  unfold stepController reduceController
  dsimp only
  rw [hvalid]
  rfl

section History

variable [PythonRepr] {self monitor : StatusMonitor} {refreshes : List (Observations × ℤ)}
  {side : ControllerSide} {device : DeviceStatus}

/-- **The history of one side decides its device.** -/
theorem controller_history (h : Running self) (hrun : refreshAll refreshes self = some monitor)
    (hnot : OpenxrNotFailed monitor) (hdevice : device ∈ monitor.snapshot.devices)
    (hid : device.id = side.deviceId) (hopenxr : device.providerId = openxrProviderId) :
    ∃ start ∈ self.snapshot.devices, start.id = side.deviceId ∧
      start.providerId = openxrProviderId ∧
      (device, monitor.controllerUntrackedSinceNs side)
        = (sideSamples side refreshes).foldl (stepController side)
            (start, self.controllerUntrackedSinceNs side) ∧
      ∀ r ∈ refreshes, ∀ sample, r.1.sample side = some sample →
        posesValid sample ≠ .error .baseException := by
  obtain ⟨hrunning, hinv, -⟩ := h.refreshAll hrun
  -- the same device at the start
  have hmem : device.toDeviceInfo ∈ infos self.snapshot.devices := by
    have hdevices : infos monitor.snapshot.devices = infos self.snapshot.devices :=
      congrArg Inventory.devices hinv
    rw [← hdevices]
    exact List.mem_map.mpr ⟨device, hdevice, rfl⟩
  obtain ⟨start, hstart, hinfo⟩ := List.mem_map.mp hmem
  have hstartId : start.id = side.deviceId := (congrArg DeviceInfo.id hinfo).trans hid
  have hstartOpenxr : start.providerId = openxrProviderId :=
    (congrArg DeviceInfo.providerId hinfo).trans hopenxr
  obtain ⟨final, hfinal, hsteps, hread⟩ :=
    refreshAll_controller h hrun hnot hstart hstartId hstartOpenxr
  have hfinalId : final.id = device.id := by
    have hfst : final = ((sideSamples side refreshes).foldl (stepController side)
        (start, self.controllerUntrackedSinceNs side)).1 := congrArg Prod.fst hsteps
    rw [hfst, hid, ← hstartId]
    exact congrArg DeviceInfo.id (foldl_stepController_info side _ _)
  obtain rfl := List.inj_on_of_nodup_map (nodup_devices hrunning.sound.wellFormed) hfinal hdevice
    hfinalId
  exact ⟨start, hstart, hstartId, hstartOpenxr, hsteps, hread⟩

end History

/-- **Tracking loss over runs.**  Take any session that is starting, `mark_available`, and any
run of refreshes that return, with times that do not decrease, after which the OpenXR provider
has not failed.  A controller is disconnected or degraded exactly if `TrackingLost` holds of its
side's samples; where every refresh is given controllers, this says that the side was untracked
at every refresh from one the delay before the last; a last sample with both poses valid means
connected; and any other run with the same times and the same samples of this side leaves the
very same device. -/
theorem controller_tracking_loss [PythonRepr] (before : List Op) (session : Session)
    (hbefore : Session.init.run before = some session) (hstarting : session.phase = .starting)
    (availableNs : ℤ) (refreshes : List (Observations × ℤ)) (monitor : StatusMonitor)
    (hrun : refreshAll refreshes (markAvailable availableNs session.monitor) = some monitor)
    (hmono : (refreshes.map Prod.snd).Pairwise (· ≤ ·)) (hnot : OpenxrNotFailed monitor)
    (side : ControllerSide) (device : DeviceStatus) (hdevice : device ∈ monitor.snapshot.devices)
    (hid : device.id = side.deviceId) (hopenxr : device.providerId = openxrProviderId) :
    (Lost device ↔ TrackingLost side refreshes) ∧
    (∀ k obs now, refreshes[k]? = some (obs, now) → refreshes.length = k + 1 →
      (∀ r ∈ refreshes, r.1.controllers ≠ none) →
      (Lost device ↔ ∃ (j : ℕ) (obs' : Observations) (s : ℤ), j ≤ k ∧
        refreshes[j]? = some (obs', s) ∧ openxrControllerTrackingLossDelayNs ≤ now - s ∧
        ∀ m, j ≤ m → m ≤ k → ∃ (obs : Observations) (t : ℤ), refreshes[m]? = some (obs, t) ∧
          obs.Untracked side)) ∧
    (∀ obs now, refreshes.getLast? = some (obs, now) → obs.FullyValid side →
      device.status = .connected) ∧
    (∀ refreshes' monitor' device', sideSamples side refreshes' = sideSamples side refreshes →
      refreshAll refreshes' (markAvailable availableNs session.monitor) = some monitor' →
      OpenxrNotFailed monitor' → device' ∈ monitor'.snapshot.devices →
      device'.id = side.deviceId → device'.providerId = openxrProviderId → device' = device) := by
  obtain ⟨hrunning, hlatches⟩ := running_markAvailable hbefore hstarting availableNs
  obtain ⟨start, hstart, hstartId, hstartOpenxr, hsteps, hread⟩ :=
    controller_history hrunning hrun hnot hdevice hid hopenxr
  rw [hlatches side] at hsteps
  have hunknown := markAvailable_controller hstart hstartId hstartOpenxr
  -- A controller that has just been made available raises no alarm.
  have hrest : alarm (start, none) = Debounce.rest := by
    have hlost : ¬ Lost start := by
      rw [Lost, hunknown]
      decide
    rw [alarm, decide_eq_false hlost]
    rfl
  -- So what the monitor shows is the debounced alarm over the verdicts of the refreshes.
  have halarm : alarm (device, monitor.controllerUntrackedSinceNs side)
      = Debounce.run openxrControllerTrackingLossDelayNs (verdicts side refreshes) := by
    rw [hsteps, alarm_foldl, hrest, sideSamples, List.map_map]
    rfl
  have hlost : Lost device ↔ (Debounce.run openxrControllerTrackingLossDelayNs
      (verdicts side refreshes)).raised = true := by
    rw [← halarm]
    exact decide_eq_true_iff.symm
  have hmono' : ((verdicts side refreshes).map Prod.snd).Pairwise (· ≤ ·) := by
    rw [verdicts_times]
    exact hmono
  refine ⟨?_, ?_, ?_, ?_⟩
  · -- Two faults lie the delay apart, and nothing since the first was clear.
    rw [hlost, Debounce.raised_iff delay_pos hmono']
    constructor
    · rintro ⟨i, j, s, t, hij, hi, hj, hlong, hquiet⟩
      obtain ⟨obs, hi, huntracked⟩ := verdicts_fault.mp hi
      obtain ⟨obs', hj, huntracked'⟩ := verdicts_fault.mp hj
      exact ⟨i, j, obs, obs', s, t, hij, hi, huntracked, hj, huntracked', hlong,
        (verdicts_quietFrom hread).mp hquiet⟩
    · rintro ⟨i, j, obs, obs', s, t, hij, hi, huntracked, hj, huntracked', hlong, hquiet⟩
      exact ⟨i, j, s, t, hij, verdicts_fault.mpr ⟨obs, hi, huntracked⟩,
        verdicts_fault.mpr ⟨obs', hj, huntracked'⟩, hlong, (verdicts_quietFrom hread).mpr hquiet⟩
  · -- With a map in every refresh no verdict is missing, so the faults follow each other.
    intro k obs now hlast hlength hgiven
    have hlast' : (verdicts side refreshes)[k]? = some (verdict (obs.sample side), now) := by
      rw [verdicts, List.getElem?_map, hlast]
      rfl
    have hobserved : ∀ e ∈ verdicts side refreshes, e.1 ≠ .missing := by
      intro e he
      obtain ⟨r, hr, rfl⟩ := List.mem_map.mp he
      exact verdict_ne_missing (hread r hr) (hgiven r hr)
    rw [hlost, Debounce.raised_iff_of_observed delay_pos hmono' hobserved hlast'
      (by rw [verdicts, List.length_map, hlength])]
    simp only [verdicts_fault]
    constructor
    · rintro ⟨j, s, hjk, ⟨obs', hj, -⟩, hlong, hall⟩
      refine ⟨j, obs', s, hjk, hj, hlong, fun m hjm hmk => ?_⟩
      obtain ⟨t, obs, hm⟩ := hall m hjm hmk
      exact ⟨obs, t, hm⟩
    · rintro ⟨j, obs', s, hjk, hj, hlong, hall⟩
      refine ⟨j, s, hjk, ?_, hlong, fun m hjm hmk => ?_⟩
      · obtain ⟨obs₁, t, hj₁, huntracked⟩ := hall j le_rfl hjk
        obtain ⟨rfl, rfl⟩ := Prod.mk.inj (Option.some.inj (hj₁.symm.trans hj))
        exact ⟨obs₁, hj₁, huntracked⟩
      · obtain ⟨obs, t, hm⟩ := hall m hjm hmk
        exact ⟨t, obs, hm⟩
  · -- A fully valid sample settles the device, whatever came before.
    rintro obs now hlast ⟨sample, hsample, hvalid⟩
    obtain ⟨earlier, rfl⟩ := List.getLast?_eq_some_iff.mp hlast
    have hfst : device = ((sideSamples side (earlier ++ [(obs, now)])).foldl
        (stepController side) (start, none)).1 := congrArg Prod.fst hsteps
    rw [hfst, sideSamples, List.map_append, List.foldl_append, List.map_singleton,
      List.foldl_cons, List.foldl_nil, hsample]
    exact stepController_valid side _ hvalid now
  · -- Both runs fold the same samples over the same device.
    intro refreshes' monitor' device' hsame hrun' hnot' hdevice' hid' hopenxr'
    obtain ⟨start', hstart', hstartId', -, hsteps', -⟩ :=
      controller_history hrunning hrun' hnot' hdevice' hid' hopenxr'
    obtain rfl := List.inj_on_of_nodup_map (nodup_devices hrunning.sound.wellFormed) hstart'
      hstart (hstartId'.trans hstartId.symm)
    rw [hlatches side, hsame, ← hsteps] at hsteps'
    exact congrArg Prod.fst hsteps'

/-! ### An inactive left controller -/

/-- An external OpenXR session; the refresh is given these controllers. -/
def controllersOnly (controllers : Option (ControllerSide → Option ControllerSample)) :
    Observations where
  process _ := .error (.exception "")
  report _ := .ok none
  openxr := none
  controllers := controllers

def startup : List Op := [.rebuild [] true true true 0]

/-- The monitor of a session that has just become available. -/
def availableMonitor : StatusMonitor :=
  markAvailable 1 (@perform quotedRepr init (.rebuild [] true true true 0))

theorem startup_run : ∃ session, @Session.run quotedRepr Session.init startup = some session ∧
    session.phase = .starting ∧ markAvailable 1 session.monitor = availableMonitor :=
  ⟨_, rfl, rfl, rfl⟩

/-- Refreshes that find the controllers inactive, or are given none, at these times. -/
def inactiveAt (times : List (Bool × ℤ)) : List (Observations × ℤ) :=
  times.map fun e => (controllersOnly (if e.1 then some fun _ => none else none), e.2)

/-- The published statuses after a run of refreshes. -/
def published (refreshes : List (Observations × ℤ)) :
    Option (List ProviderState × List (String × String × DeviceState)) :=
  (@refreshAll quotedRepr refreshes availableMonitor).map fun monitor =>
    (monitor.snapshot.providers.map fun p => p.status,
      monitor.snapshot.devices.map fun d => (d.id, d.providerId, d.status))

/-- The left controller of a run whose published statuses are known. -/
theorem left_device {refreshes : List (Observations × ℤ)}
    {devices : List (String × String × DeviceState)} {status : DeviceState}
    (h : published refreshes = some ([.available], devices))
    (hmem : (ControllerSide.left.deviceId, openxrProviderId, status) ∈ devices) :
    ∃ monitor device, @refreshAll quotedRepr refreshes availableMonitor = some monitor ∧
      OpenxrNotFailed monitor ∧ device ∈ monitor.snapshot.devices ∧
      device.id = ControllerSide.left.deviceId ∧ device.providerId = openxrProviderId ∧
      device.status = status := by
  obtain ⟨monitor, hrun, hpublished⟩ := Option.map_eq_some_iff.mp h
  obtain ⟨hproviders, rfl⟩ := Prod.mk.inj hpublished
  obtain ⟨device, hdevice, heq⟩ := List.mem_map.mp hmem
  obtain ⟨hid, heq⟩ := Prod.mk.inj heq
  obtain ⟨hopenxr, hstatus⟩ := Prod.mk.inj heq
  refine ⟨monitor, device, hrun, fun p hp _ hfailed => ?_, hdevice, hid, hopenxr, hstatus⟩
  have hmem : p.status ∈ [ProviderState.available] :=
    hproviders ▸ List.mem_map.mpr ⟨p, hp, rfl⟩
  rw [hfailed] at hmem
  revert hmem
  decide

theorem inactive_untracked (side : ControllerSide) :
    (controllersOnly (some fun _ => none)).Untracked side :=
  ⟨none, false, false, rfl, rfl, rfl⟩

theorem inactive_left_lost : ∃ monitor device,
    @refreshAll quotedRepr (inactiveAt [(true, 0), (true, 1000000000)]) availableMonitor
      = some monitor ∧ device ∈ monitor.snapshot.devices ∧
    device.id = ControllerSide.left.deviceId ∧ Lost device := by
  obtain ⟨session, hbefore, hstarting, hmonitor⟩ := startup_run
  obtain ⟨monitor, device, hrun, hnot, hdevice, hid, hopenxr, -⟩ :=
    @left_device (inactiveAt [(true, 0), (true, 1000000000)])
      [(openxrDeviceId, openxrProviderId, .unknown),
        (ControllerSide.left.deviceId, openxrProviderId, .disconnected),
        (ControllerSide.right.deviceId, openxrProviderId, .disconnected)]
      .disconnected (by decide) (by decide)
  refine ⟨monitor, device, hrun, hdevice, hid, ?_⟩
  refine (@controller_tracking_loss quotedRepr startup session hbefore hstarting 1 _ monitor
    (hmonitor ▸ hrun) (by decide) hnot .left device hdevice hid hopenxr).1.mpr ?_
  -- Both refreshes are untracked and lie the delay apart.
  refine ⟨0, 1, _, _, 0, 1000000000, by decide, rfl, inactive_untracked .left, rfl,
    inactive_untracked .left, by decide, fun k obs t _ hget => Or.inr ?_⟩
  match k with
  | 0 =>
    cases hget
    exact inactive_untracked .left
  | 1 =>
    cases hget
    exact inactive_untracked .left
  | k + 2 => cases hget

/-- A refresh without controllers is no sample: it does not end a stretch of untracked samples,
so that the left controller is lost although it was not read at the second refresh; and it does
not start one, so that the left controller is not lost although it was absent throughout. -/
theorem missing_controllers_keep_latch :
    (∃ monitor device, @refreshAll quotedRepr
        (inactiveAt [(true, 0), (false, 5), (true, 1000000000)]) availableMonitor = some monitor ∧
      OpenxrNotFailed monitor ∧ device ∈ monitor.snapshot.devices ∧
      device.id = ControllerSide.left.deviceId ∧ device.providerId = openxrProviderId ∧
      Lost device ∧
      ¬ ∃ (j : ℕ) (obs : Observations) (s : ℤ), j ≤ 2 ∧
        (inactiveAt [(true, 0), (false, 5), (true, 1000000000)])[j]? = some (obs, s) ∧
        openxrControllerTrackingLossDelayNs ≤ 1000000000 - s ∧
        ∀ m, j ≤ m → m ≤ 2 → ∃ (obs : Observations) (t : ℤ),
          (inactiveAt [(true, 0), (false, 5), (true, 1000000000)])[m]? = some (obs, t) ∧
          obs.Untracked .left) ∧
    (∃ monitor device, @refreshAll quotedRepr
        (inactiveAt [(false, 0), (true, 1000000000)]) availableMonitor = some monitor ∧
      OpenxrNotFailed monitor ∧ device ∈ monitor.snapshot.devices ∧
      device.id = ControllerSide.left.deviceId ∧ device.providerId = openxrProviderId ∧
      ¬ Lost device) := by
  constructor
  · obtain ⟨monitor, device, hrun, hnot, hdevice, hid, hopenxr, hstatus⟩ :=
      @left_device (inactiveAt [(true, 0), (false, 5), (true, 1000000000)])
        [(openxrDeviceId, openxrProviderId, .unknown),
          (ControllerSide.left.deviceId, openxrProviderId, .disconnected),
          (ControllerSide.right.deviceId, openxrProviderId, .disconnected)]
        .disconnected (by decide) (by decide)
    refine ⟨monitor, device, hrun, hnot, hdevice, hid, hopenxr, Or.inl hstatus, ?_⟩
    rintro ⟨j, obs, s, hj, hget, hlong, hall⟩
    -- Only the first refresh lies the delay before the last one.
    have hj0 : j = 0 := by
      match j with
      | 0 => rfl
      | 1 =>
        cases hget
        revert hlong
        decide
      | 2 =>
        cases hget
        revert hlong
        decide
    -- The refresh without a map stands between the two.
    obtain ⟨obs', t, hget', sample, aimValid, gripValid, hsample, -⟩ := hall 1 (by omega) (by omega)
    cases hget'
    cases hsample
  · obtain ⟨monitor, device, hrun, hnot, hdevice, hid, hopenxr, hstatus⟩ :=
      @left_device (inactiveAt [(false, 0), (true, 1000000000)])
        [(openxrDeviceId, openxrProviderId, .unknown),
          (ControllerSide.left.deviceId, openxrProviderId, .unknown),
          (ControllerSide.right.deviceId, openxrProviderId, .unknown)]
        .unknown (by decide) (by decide)
    refine ⟨monitor, device, hrun, hnot, hdevice, hid, hopenxr, ?_⟩
    rw [Lost, hstatus]
    decide

end StatusMonitor
