/-
Terminal failures of the status monitor are latched.

A runtime failure freezes every status until the next `rebuild` or `mark_available`,
and a failed OpenXR provider stays failed, with its reason and error, until then.

* `markStopped_failed` — stopping a monitor whose providers all failed;
* `latched_runtime`, `latched_openxr` — the two latches over later operations;
* `terminal_failures_latched` — both, from every reachable state.
-/
import IsaacTeleop.StatusSession

open StatusMonitoring

namespace StatusMonitor

/-- The operations that must not lift a latch. -/
def Op.Latched : Op → Prop
  | .refresh .. => True
  | .refreshPluginProcesses .. => True
  | .markStopped _ => True
  | _ => False

variable [PythonRepr]

/-! ### The runtime failure -/

/-- A monitor after `mark_runtime_failed`. -/
structure RuntimeFailed (monitor : StatusMonitor) : Prop where
  flag : monitor.runtimeFailed = true
  wellFormed : (inventory monitor.snapshot).WellFormed
  failed : ∀ p ∈ monitor.snapshot.providers, p.status = .failed

variable {self : StatusMonitor}

omit [PythonRepr] in
/-- Stopping a monitor whose providers have all failed changes no status. -/
theorem markStopped_failed (h : RuntimeFailed self) (nowNs : ℤ) :
    (markStopped nowNs self).snapshot.providers = self.snapshot.providers ∧
      (markStopped nowNs self).snapshot.devices = self.snapshot.devices := by
  have hproviders : (markStopped nowNs self).snapshot.providers = self.snapshot.providers := by
    show self.snapshot.providers.map _ = _
    conv_rhs => rw [← List.map_id self.snapshot.providers]
    refine List.map_congr_left fun p hp => ?_
    show (if _ then p else _) = p
    rw [if_pos]
    rw [Bool.true_and, decide_eq_true_eq]
    exact h.failed p hp
  refine ⟨hproviders, ?_⟩
  show self.snapshot.devices.map _ = _
  conv_rhs => rw [← List.map_id self.snapshot.devices]
  refine List.map_congr_left fun d hd => ?_
  show (if _ then d else _) = d
  rw [if_pos]
  -- the device's provider has failed, so it is among the preserved ones
  obtain ⟨p, hp, hid⟩ := provider_of_device h.wellFormed hd
  have hp' : p ∈ (markStopped nowNs self).snapshot.providers := by
    rw [hproviders]
    exact hp
  refine List.mem_map.mpr ⟨p, List.mem_filter.mpr ⟨hp', ?_⟩, hid⟩
  rw [Bool.true_and, decide_eq_true_eq]
  exact h.failed p hp

theorem runtimeFailed_perform (h : RuntimeFailed self) {op : Op} (hop : op.Latched) :
    RuntimeFailed (self.perform op) ∧
      (self.perform op).snapshot.providers = self.snapshot.providers ∧
      (self.perform op).snapshot.devices = self.snapshot.devices := by
  cases op with
  | refresh obs nowNs =>
    have hself : self.perform (.refresh obs nowNs) = self := by
      rw [perform, refresh, if_pos h.flag]
    rw [hself]
    exact ⟨h, rfl, rfl⟩
  | refreshPluginProcesses obs nowNs =>
    have hself : self.perform (.refreshPluginProcesses obs nowNs) = self := by
      rw [perform, refreshPluginProcesses, if_pos h.flag]
    rw [hself]
    exact ⟨h, rfl, rfl⟩
  | markStopped nowNs =>
    obtain ⟨hproviders, hdevices⟩ := markStopped_failed h nowNs
    refine ⟨⟨h.flag, ?_, ?_⟩, hproviders, hdevices⟩
    · show (inventory (markStopped nowNs self).snapshot).WellFormed
      rw [inventory, hproviders, hdevices]
      exact h.wellFormed
    · intro p hp
      exact h.failed p (hproviders ▸ hp)
  | _ => exact absurd hop id

/-- **The runtime latch.** -/
theorem latched_runtime (h : RuntimeFailed self) {later : List Op}
    (hlater : ∀ op ∈ later, op.Latched) :
    (later.foldl perform self).snapshot.providers = self.snapshot.providers ∧
      (later.foldl perform self).snapshot.devices = self.snapshot.devices := by
  induction later generalizing self with
  | nil => exact ⟨rfl, rfl⟩
  | cons op rest ih =>
    obtain ⟨hop, hproviders, hdevices⟩ :=
      runtimeFailed_perform h (hlater op List.mem_cons_self)
    obtain ⟨hp, hd⟩ := ih hop fun op' hop' => hlater op' (List.mem_cons_of_mem _ hop')
    exact ⟨hp.trans hproviders, hd.trans hdevices⟩

omit [PythonRepr] in
theorem markRuntimeFailed_runtimeFailed {T : ProviderState → Prop} (h : Sound T self)
    (error : String) (nowNs : ℤ) : RuntimeFailed (markRuntimeFailed error nowNs self) :=
  ⟨rfl, (markRuntimeFailed_ok h error nowNs).wellFormed, fun _ hp => markRuntimeFailed_status hp⟩

/-! ### The OpenXR failure -/

/-- The state whose devices every reachable monitor keeps unavailable.  A stopped OpenXR
provider may be refreshed in an arbitrary run, so this is about failures only. -/
def Failed (state : ProviderState) : Prop := state = .failed

omit [PythonRepr] in
theorem failed_openxrOk (snapshot : StatusSnapshot) : OpenxrOk Failed snapshot :=
  fun _ _ _ hf => hf

/-- Any operation, in any order. -/
theorem perform_sound (h : Sound Failed self) (op : Op) : Sound Failed (self.perform op) := by
  have hfailed : ∀ s, Failed s → s = .failed ∨ s = .stopped := fun _ hs => Or.inl hs
  cases op with
  | rebuild specs includeOpenxr externalOpenxr includeControllers nowNs =>
    rw [perform]
    rcases hr : rebuild specs includeOpenxr externalOpenxr includeControllers nowNs self
      with ⟨e | _, self'⟩
    · rw [rebuild_error hr]
      exact h
    · exact rebuild_ok hfailed hr
  | bindPluginContext providerId bound => exact bindPluginContext_ok h providerId bound
  | markAvailable nowNs => exact (markAvailable_ok hfailed h nowNs).1
  | refresh obs nowNs => exact (refresh_ok hfailed h (failed_openxrOk _) obs nowNs).sound
  | refreshPluginProcesses obs nowNs =>
    exact (refreshPluginProcesses_ok hfailed h (failed_openxrOk _) obs nowNs).sound
  | markStartupFailed error nowNs => exact markStartupFailed_ok h error nowNs
  | markRuntimeFailed error nowNs => exact markRuntimeFailed_ok h error nowNs
  | markStopped nowNs => exact markStopped_ok h nowNs

theorem foldl_perform_sound (h : Sound Failed self) (ops : List Op) :
    Sound Failed (ops.foldl perform self) := by
  induction ops generalizing self with
  | nil => exact h
  | cons op rest ih => exact ih (perform_sound h op)

omit [PythonRepr] in
/-- The lookup by id finds exactly the published provider. -/
theorem getProviderStatus_eq_some {T : ProviderState → Prop} (h : Sound T self) {id : String}
    {p : ProviderStatus} :
    self.getProviderStatus id = some p ↔ p ∈ self.snapshot.providers ∧ p.id = id := by
  rw [h.getProviderStatus]
  constructor
  · intro hfind
    exact ⟨List.mem_of_find?_eq_some hfind, by simpa using List.find?_some hfind⟩
  · rintro ⟨hp, rfl⟩
    obtain ⟨q, hq⟩ := Option.isSome_iff_exists.mp
      (List.find?_isSome.mpr ⟨p, hp, decide_eq_true rfl⟩ :
        (self.snapshot.providers.find? fun q => q.id = p.id).isSome = true)
    have hid : q.id = p.id := by simpa using List.find?_some hq
    rw [hq, List.inj_on_of_nodup_map (nodup_providers h.wellFormed)
      (List.mem_of_find?_eq_some hq) hp hid]

/-- One later operation leaves a failed OpenXR provider as it was. -/
theorem openxr_failed_perform (h : Sound Failed self) {op : Op} (hop : op.Latched)
    {p : ProviderStatus} (hp : p ∈ self.snapshot.providers) (hid : p.id = openxrProviderId)
    (hpf : p.status = .failed) : p ∈ (self.perform op).snapshot.providers := by
  have hfailed : ∀ s, Failed s → s = .failed ∨ s = .stopped := fun _ hs => Or.inl hs
  cases op with
  | refresh obs nowNs =>
    exact (refresh_ok hfailed h (failed_openxrOk _) obs nowNs).latch p hp hid hpf
  | refreshPluginProcesses obs nowNs =>
    exact (refreshPluginProcesses_ok hfailed h (failed_openxrOk _) obs nowNs).latch p hp hid hpf
  | markStopped nowNs =>
    refine List.mem_map.mpr ⟨p, hp, ?_⟩
    rw [if_pos]
    rw [Bool.true_and, decide_eq_true_eq]
    exact hpf
  | _ => exact absurd hop id

/-- **The OpenXR latch.** -/
theorem latched_openxr (h : Sound Failed self) {later : List Op}
    (hlater : ∀ op ∈ later, op.Latched) {p : ProviderStatus} (hp : p ∈ self.snapshot.providers)
    (hid : p.id = openxrProviderId) (hpf : p.status = .failed) :
    p ∈ (later.foldl perform self).snapshot.providers := by
  induction later generalizing self with
  | nil => exact hp
  | cons op rest ih =>
    have hop := hlater op List.mem_cons_self
    exact ih (perform_sound h op) (fun op' hop' => hlater op' (List.mem_cons_of_mem _ hop'))
      (openxr_failed_perform h hop hp hid hpf)

/-- **Terminal failures are latched.**  From every state that any operations lead to: after
a runtime failure, refreshes and a stop change no provider and no device; and a failed
OpenXR provider stays as it is, with its devices unavailable. -/
theorem terminal_failures_latched (history later : List Op) (hlater : ∀ op ∈ later, op.Latched) :
    (∀ error nowNs,
      let failed := markRuntimeFailed error nowNs (history.foldl perform init)
      (later.foldl perform failed).snapshot.providers = failed.snapshot.providers ∧
        (later.foldl perform failed).snapshot.devices = failed.snapshot.devices) ∧
    ∀ p, (history.foldl perform init).getProviderStatus openxrProviderId = some p →
      p.status = .failed →
      let monitor := later.foldl perform (history.foldl perform init)
      monitor.getProviderStatus openxrProviderId = some p ∧
        ∀ d ∈ monitor.snapshot.devices, d.providerId = openxrProviderId →
          d.status = .unavailable := by
  have hsound := foldl_perform_sound sound_init history
  constructor
  · intro error nowNs
    exact latched_runtime (markRuntimeFailed_runtimeFailed hsound error nowNs) hlater
  · intro p hp hpf
    obtain ⟨hmem, hid⟩ := (getProviderStatus_eq_some hsound).mp hp
    have hlatched := latched_openxr hsound hlater hmem hid hpf
    have hsound' := foldl_perform_sound hsound later
    refine ⟨(getProviderStatus_eq_some hsound').mpr ⟨hlatched, hid⟩, ?_⟩
    intro d hd hdid
    exact hsound'.consistent p hlatched hpf d hd (hdid.trans hid.symm)

/-- The plugin runs again and the OpenXR session answers, too late. -/
def recoveredObservations : Observations where
  process _ := .ok { state := "RUNNING", reason := "", error := "", pid := some 7, exitCode := none,
                     termSignal := none, errorCode := none }
  report _ := .ok none
  openxr := some (.ok { state := "AVAILABLE", headsetState := "CONNECTED", reason := "NONE"
                        error := ⟨false, none, some "", "''"⟩
                        resultCode := ⟨true, none, none, "None"⟩ })
  controllers := none

def lostHistory : List Op :=
  [.rebuild [glovePlugin] true false true 0, .bindPluginContext "plugin/manus" true,
    .markAvailable 1, .refresh lostObservations 2]

def recoveredLater : List Op :=
  [.refresh recoveredObservations 3, .refreshPluginProcesses recoveredObservations 4,
    .markStopped 5]

omit [PythonRepr] in
theorem lost_openxr_latched : ∃ p,
    (lostHistory.foldl (@perform quotedRepr) init).getProviderStatus openxrProviderId = some p ∧
      p.status = .failed ∧
      (recoveredLater.foldl (@perform quotedRepr)
        (lostHistory.foldl (@perform quotedRepr) init)).getProviderStatus openxrProviderId
          = some p := by
  have hfailed : ((lostHistory.foldl (@perform quotedRepr) init).getProviderStatus
      openxrProviderId).map (fun p => p.status) = some .failed := by
    decide
  obtain ⟨p, hp, hstatus⟩ := Option.map_eq_some_iff.mp hfailed
  have hlater : ∀ op ∈ recoveredLater, op.Latched := by
    intro op hop
    simp only [recoveredLater, List.mem_cons, List.not_mem_nil, or_false] at hop
    rcases hop with rfl | rfl | rfl
    · trivial
    · trivial
    · trivial
  exact ⟨p, hp, hstatus,
    ((@terminal_failures_latched quotedRepr lostHistory recoveredLater hlater).2 p hp hstatus).1⟩

end StatusMonitor
