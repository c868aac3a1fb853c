/-
Recovery over Wi-Fi.

Without `usb_local` there is no USB substrate: no pass touches a reverse rule or coturn.  A
failed same-tab CONNECT preserves the page on a transport that counts as repaired.  While a
page is preserved, a lost transport or a failed recovery forgets that repair, and then every
later pass takes the branch that rebuilds USB: over Wi-Fi it always fails, and the page is
preserved for good.

* `Watch` — what the trace says about the passes that began with a preserved page;
* `Steady` — programs that change nothing of this;
* `pass_spec`, `run_spec` — one pass, and the whole task;
* `wifi_recovery` — every run, for every environment.
-/
import IsaacTeleop.OobLifecycle

open Observed

namespace OobLifecycle

/-! ### What the trace says -/

/-- A command that changes the reverse rules or starts coturn. -/
def Call.touchesUsb : Call → Bool
  | .adbReverse _ | .adbReverseRemove _ | .startCoturn _ => true
  | _ => false

/-- The lifecycle catches it where the helper is called, or does not look for it. -/
def Call.handles : Call → Failure → Bool
  | .note _, _ | .clock, _ | .time, _ | .monitorDone, _ | .coturnPoll, _ => true
  | .awaitMonitor, _ | .headsetWakefulness, _ | .closeStaleTeleopTabs, _ => true
  -- the cleanup logs it, and over Wi-Fi nothing else asks for it before a rebuild
  | .adbForwardRemove, _ => true
  | .attachMonitor, e | .findPage .attachExistingOobTab, e | .click .attachExistingOobTab, e
  | .clickAgain .attachExistingOobTab, e | .awaitOutcome .attachExistingOobTab, e =>
    e.isOobAdbError
  | _, _ => false

structure Watch where
  /-- The current pass began with a preserved page. -/
  preserving : Bool
  /-- The headset that was selected then. -/
  selected : Option String
  /-- A fresh page is being opened in this pass. -/
  automating : Bool
  /-- In a pass that began with a preserved page, the headset was not ready or its network was
  gone. -/
  lost : Bool
  /-- In a pass that began with a preserved page, a helper failed before a fresh page was
  opened. -/
  failed : Bool
  /-- `_rebuild_usb` was entered. -/
  rebuilt : Bool
  deriving DecidableEq, Repr

def Watch.init : Watch where
  preserving := false
  selected := none
  automating := false
  lost := false
  failed := false
  rebuilt := false

def Watch.watching (l : Watch) : Bool := l.preserving && !l.automating

/-- A helper raises `e`. -/
def Watch.raised (l : Watch) (c : Call) (e : Failure) : Watch :=
  { l with failed := l.failed || (l.watching && e.isException && !c.handles e) }

/-- A helper returns. -/
def Watch.returned (l : Watch) (c : Call) (reply : Reply) : Watch :=
  match c with
  | .enumerateAdbDevices =>
    { l with lost := l.lost ||
        (l.watching && !l.selected.any fun serial => serial ∈ reply.devices.ready) }
  | .probeHeadsetNetwork _ =>
    { l with lost := l.lost || (l.watching && reply.network ≠ .networkPresent) }
  | _ => l

def Watch.answered (l : Watch) (c : Call) (reply : Reply) : Watch :=
  match reply.failure with
  | some e => l.raised c e
  | none => l.returned c reply

/-- What one event adds. -/
def Watch.observe (l : Watch) : Happening → Watch
  | (.pass preserving selected, _) => { l with preserving, selected, automating := false }
  | (.rebuildUsb, _) => { l with rebuilt := true }
  | (.publish health stage, .ok reply) =>
    { l with automating := l.automating || stage = Stage.automatingBrowser }.answered
      (.publish health stage) reply
  | (c, .ok reply) => l.answered c reply
  | (_, .error _) => l

/-- What a trace says. -/
def Watch.of (events : List Happening) : Watch := events.foldl Watch.observe Watch.init

/-- In the passes that began with a preserved page, the headset stayed ready and on its network,
and no helper failed before a fresh page was opened. -/
def Undisturbed (events : List Happening) : Prop :=
  (Watch.of events).lost = false ∧ (Watch.of events).failed = false

instance (events : List Happening) : Decidable (Undisturbed events) :=
  inferInstanceAs (Decidable (_ ∧ _))

/-! ### Steady programs -/

/-- Over Wi-Fi nothing is known of rules and coturn. -/
structure Lifecycle.NoUsb (s : Lifecycle) : Prop where
  coturn : s.coturn = false
  signature : ∀ signature, s.prerequisiteSignature = some signature → signature.2 = (none, none)

/-- `s'` differs from `s` in nothing that decides how a preserved page is recovered. -/
structure Same (s s' : Lifecycle) : Prop where
  transportLost : s'.transportLost = s.transportLost
  restore : s'.restoreExistingBrowser = s.restoreExistingBrowser
  repair : s'.repairStartedAt = s.repairStartedAt
  signature : s'.transportDisruptionSignature = s.transportDisruptionSignature
  deadline : s.clientGraceDeadline.isSome → s'.clientGraceDeadline.isSome
  selected : s.selected.isSome → s'.selected = s.selected
  noUsb : s.NoUsb → s'.NoUsb

/-- `l'` differs from `l` at most in a helper that failed. -/
structure Kept (l l' : Watch) : Prop where
  preserving : l'.preserving = l.preserving
  selected : l'.selected = l.selected
  automating : l'.automating = l.automating
  lost : l'.lost = l.lost
  rebuilt : l'.rebuilt = l.rebuilt
  failed : l.failed = true → l'.failed = true

/-- The events that leave USB alone are accepted, and watched. -/
def Watch.next (l : Watch) (event : Happening) : Option Watch :=
  if event.1.touchesUsb then none else some (l.observe event)

/-- Nothing that decides how a preserved page is recovered makes `P` false. -/
def Stable (P : Lifecycle → Watch → Prop) : Prop :=
  ∀ s s' l l', Same s s' → Kept l l' → P s l → P s' l'

/-- If a pass is watched, a raise that `caught` does not name is noted as a failure. -/
def Noted (caught : Failure → Bool) (e : Failure) (l : Watch) : Prop :=
  l.watching = true → e.isException = true → caught e = false → l.failed = true

abbrev Spec (P : Lifecycle → Watch → Prop) {α : Type} (x : LifecycleM α)
    (Q : α → Lifecycle → Watch → Prop) (R : Failure → Lifecycle → Watch → Prop) : Prop :=
  Triple Watch.next Watch.init P x Q R

/-- A program that keeps whatever is stable. -/
def Steady (caught : Failure → Bool) {α : Type} (x : LifecycleM α) : Prop :=
  ∀ P, Stable P → Spec P x (fun _ => P) fun e s l => P s l ∧ Noted caught e l

/-- Nothing is caught. -/
def uncaught : Failure → Bool := fun _ => false

theorem Same.refl (s : Lifecycle) : Same s s :=
  ⟨rfl, rfl, rfl, rfl, id, fun _ => rfl, id⟩

theorem Kept.refl (l : Watch) : Kept l l := ⟨rfl, rfl, rfl, rfl, rfl, id⟩

theorem Watch.raised_kept (l : Watch) (c : Call) (e : Failure) : Kept l (l.raised c e) :=
  ⟨rfl, rfl, rfl, rfl, rfl, fun h => by simp [Watch.raised, h]⟩

theorem Watch.raised_noted {l : Watch} {c : Call} {e : Failure} {κ : Failure → Bool}
    (hc : c.handles e = true → κ e = true) : Noted κ e (l.raised c e) := by
  intro hwatching hexception hcaught
  have hwatching' : l.watching = true := hwatching
  cases hhandles : c.handles e with
  | true =>
    rw [hc hhandles] at hcaught
    cases hcaught
  | false => simp [Watch.raised, hwatching', hexception, hhandles]

/-- Calls that a trace is not read for, beyond their failures. -/
def Call.Plain : Call → Prop
  | .pass .. | .rebuildUsb | .enumerateAdbDevices | .probeHeadsetNetwork _ => False
  | .publish _ stage => stage ≠ .automatingBrowser
  | c => c.touchesUsb = false

instance (c : Call) : Decidable c.Plain :=
  match c with
  | .pass .. | .rebuildUsb | .enumerateAdbDevices | .probeHeadsetNetwork _ => instDecidableFalse
  | .publish _ stage => inferInstanceAs (Decidable (stage ≠ .automatingBrowser))
  | .note _ | .clock | .time | .sleep _ | .getSnapshot | .probeBrowser .. | .headsetWakefulness
  | .assertHeadsetAwake _ | .assertSupportedHeadset | .clearHeadsetBrowserCache | .monitorDone
  | .awaitMonitor | .teardownAdbForwardCdp | .attachMonitor | .findPage _ | .click _
  | .clickAgain _ | .awaitOutcome _ | .closeStaleTeleopTabs | .adbForwardRemove | .adbReverse _
  | .adbReverseRemove _ | .adbReverseList | .probeAdbReverseRules _ | .hostListenerProbe _
  | .startCoturn _ | .stopCoturn | .coturnPoll | .verifyCoturnListening _ | .adbDevicesListing
  | .inspectLink | .measureTransfer | .shield => instDecidableEqBool _ _

theorem Watch.next_plain {c : Call} (hc : c.Plain) (l : Watch) (reply : Reply) :
    l.next (c, .ok reply) = some (match reply.failure with
      | some e => l.raised c e
      | none => l) := by
  cases c with
  | pass | rebuildUsb | enumerateAdbDevices | probeHeadsetNetwork | adbReverse | adbReverseRemove
  | startCoturn => cases hc
  | publish health stage =>
    have hstage : (stage = Stage.automatingBrowser) = False := eq_false hc
    simp only [Watch.next, Call.touchesUsb, Watch.observe, hstage, Bool.or_false, decide_false,
      Watch.answered, Watch.returned, Bool.false_eq_true, if_false]
  | _ => rfl

namespace Steady

variable {env : List Happening → Reply} {config : Config} {κ : Failure → Bool}
variable {α β : Type} {x : LifecycleM α}

theorem pure (a : α) : Steady κ (Pure.pure a : LifecycleM α) :=
  fun _ _ => Triple.pure fun _ _ => id

theorem bind {f : α → LifecycleM β} (hx : Steady κ x) (hf : ∀ a, Steady κ (f a)) :
    Steady κ (x >>= f) :=
  fun P hP => Triple.bind (hx P hP) fun a => hf a P hP

theorem get : Steady κ (Observed.get : LifecycleM Lifecycle) :=
  fun _ _ => Triple.get fun _ _ => id

theorem modify {f : Lifecycle → Lifecycle} (hf : ∀ s, Same s (f s)) :
    Steady κ (Observed.modify f : LifecycleM Unit) :=
  fun _ hP => Triple.modify fun s l h => hP s (f s) l l (hf s) (Kept.refl l) h

theorem raise {e : Failure} (he : e.isException = true → κ e = true) :
    Steady κ (Fallible.raise e : LifecycleM α) := by
  refine fun _ _ => Triple.raise fun _ _ h => ⟨h, fun _ hexception hcaught => ?_⟩
  rw [he hexception] at hcaught
  cases hcaught

theorem doIf {condition : Bool} {x : LifecycleM Unit} (hx : condition = true → Steady κ x) :
    Steady κ (Observed.doIf condition x) :=
  fun P hP => Triple.doIf (fun h => hx h P hP) fun _ _ _ => id

theorem ite {condition : Prop} [Decidable condition] {y : LifecycleM α}
    (hx : condition → Steady κ x) (hy : ¬condition → Steady κ y) :
    Steady κ (if condition then x else y) := by
  split
  case isTrue h => exact hx h
  case isFalse h => exact hy h

/-- A handler for `e`: it runs after `e` was noted, and what it raises itself is noted. -/
def Handler (caught : Failure → Bool) (e : Failure) (caught' : Failure → Bool)
    (y : LifecycleM β) : Prop :=
  ∀ P, Stable P → Spec (fun s l => P s l ∧ Noted caught e l) y (fun _ => P)
    fun e' s l => P s l ∧ Noted caught' e' l

variable {κ' : Failure → Bool} {e : Failure}

theorem attempt {f : Except Failure α → LifecycleM β} (hx : Steady κ x)
    (hok : ∀ a, Steady κ' (f (.ok a))) (herror : ∀ e, Handler κ e κ' (f (.error e))) :
    Steady κ' (Observed.attempt x >>= f) := by
  intro P hP
  refine Triple.bind (Triple.attempt (hx P hP)) fun result => ?_
  cases result with
  | ok a => exact hok a P hP
  | error e => exact herror e P hP

theorem noted_stable {P : Lifecycle → Watch → Prop} (hP : Stable P) :
    Stable fun s l => P s l ∧ Noted κ e l := by
  rintro s s' l l' hs hl ⟨h, hnoted⟩
  refine ⟨hP s s' l l' hs hl h, fun hwatching hexception hcaught => ?_⟩
  refine hl.failed (hnoted ?_ hexception hcaught)
  unfold Watch.watching at hwatching ⊢
  rwa [hl.preserving, hl.automating] at hwatching

theorem handler {y : LifecycleM β} (hy : Steady κ' y) : Handler κ e κ' y :=
  fun P hP => (hy P hP).pre fun _ _ h => h.1

/-- The exception goes on. -/
theorem reraise (h : e.isException = true → κ e = true → κ' e = true) :
    Handler κ e κ' (Fallible.raise e : LifecycleM β) := by
  intro P _
  refine Triple.raise fun s l hnoted => ⟨hnoted.1, fun hwatching hexception hcaught' => ?_⟩
  refine hnoted.2 hwatching hexception ?_
  cases hcaught : κ e with
  | false => rfl
  | true =>
    rw [h hexception hcaught] at hcaught'
    cases hcaught'

/-- The exception goes on after a cleanup. -/
theorem bind_reraise {y : LifecycleM Unit} (hy : Steady κ' y)
    (h : e.isException = true → κ e = true → κ' e = true) :
    Handler κ e κ' (y >>= fun _ => (Fallible.raise e : LifecycleM β)) := by
  intro P hP
  refine Triple.bind (Q := fun _ s l => P s l ∧ Noted κ e l) ?_ fun _ => reraise h P hP
  refine (hy _ (noted_stable hP)).post (fun _ _ _ => id) ?_
  exact fun _ _ _ hraise => ⟨hraise.1.1, hraise.2⟩

theorem tryFinally {cleanup : LifecycleM Unit} (hx : Steady κ x)
    (hcleanup : Steady κ cleanup) : Steady κ (Observed.tryFinally x cleanup) := by
  refine attempt hx (fun a => ?_) fun e => ?_
  · exact bind hcleanup fun _ => pure a
  · exact bind_reraise hcleanup fun _ => id

theorem swallow (hx : Steady κ x) : Steady κ' (OobLifecycle.swallow x) := by
  refine attempt hx (fun a => pure (some a)) fun e => ?_
  show Handler κ e κ' (if e.isException = true then _ else _)
  split
  · exact handler (pure none)
  case isFalse hexception => exact reraise fun h => absurd h hexception

/-- The fields that decide how a preserved page is recovered. -/
def core (s : Lifecycle) : (Bool × Bool × Option ℚ × Option Disruption) × Option ℚ × Option String ×
    Bool × Option (List String × Option String × Option ℤ) :=
  ((s.transportLost, s.restoreExistingBrowser, s.repairStartedAt, s.transportDisruptionSignature),
    s.clientGraceDeadline, s.selected, s.coturn, s.prerequisiteSignature)

theorem same_of_core {s s' : Lifecycle} (h : core s' = core s) : Same s s' := by
  simp only [core, Prod.mk.injEq] at h
  obtain ⟨⟨hlost, hrestore, hrepair, hsignature⟩, hdeadline, hselected, hcoturn, hprerequisite⟩ := h
  refine ⟨hlost, hrestore, hrepair, hsignature, ?_, fun _ => hselected, fun hs => ⟨?_, ?_⟩⟩
  · rw [hdeadline]
    exact id
  · rw [hcoturn]
    exact hs.coturn
  · rw [hprerequisite]
    exact hs.signature

theorem modify_core {f : Lifecycle → Lifecycle} (hf : ∀ s, core (f s) = core s) :
    Steady κ (Observed.modify f : LifecycleM Unit) :=
  modify fun s => same_of_core (hf s)

/-! ### Calls -/

theorem look {c : Call} (hc : c.Plain) : Steady κ (OobLifecycle.look env c) := by
  intro P hP
  refine Triple.call_ok fun s l reply h => ⟨_, Watch.next_plain hc l reply, ?_⟩
  cases reply.failure with
  | none => exact h
  | some e => exact hP s s l _ (Same.refl s) (Watch.raised_kept l c e) h

theorem onCdpTerminalError (banner : Option String) :
    Steady κ (Observed.modify (Lifecycle.onCdpTerminalError banner) : LifecycleM Unit) := by
  refine modify_core fun s => ?_
  cases banner with
  | none => rfl
  | some banner => rfl

theorem observe {c : Call} (hc : c.Plain) : Steady κ (OobLifecycle.observe env c) :=
  bind (look hc) fun reply => bind (onCdpTerminalError reply.banner) fun _ => pure reply

/-- **An awaited call**, with the exceptions that its caller catches. -/
theorem ask {c : Call} (hc : c.Plain) (hcaught : ∀ e, c.handles e = true → κ e = true) :
    Steady κ (OobLifecycle.ask env c) := by
  intro P hP
  -- When the helper raises, the event has already noted it.
  refine Triple.bind (Q := fun reply s l => P s l ∧ ∀ e, reply.failure = some e → Noted κ e l)
    ?_ fun reply => ?_
  · refine Triple.bind (Q := fun reply s l => P s l ∧ ∀ e, reply.failure = some e →
      Noted κ e l) ?_ fun reply => ?_
    · refine Triple.call_ok fun s l reply h => ⟨_, Watch.next_plain hc l reply, ?_⟩
      cases hfailure : reply.failure with
      | none => exact ⟨h, fun e he => nomatch he⟩
      | some e =>
        refine ⟨hP s s l _ (Same.refl s) (Watch.raised_kept l c e) h, fun e' he' => ?_⟩
        cases he'
        exact Watch.raised_noted (hcaught e)
    · refine Triple.bind (Q := fun _ s l => P s l ∧ ∀ e, reply.failure = some e →
        Noted κ e l) ?_ fun _ => Triple.pure fun _ _ => id
      refine Triple.modify fun s l h => ⟨?_, h.2⟩
      refine hP s _ l l (same_of_core ?_) (Kept.refl l) h.1
      cases reply.banner with
      | none => rfl
      | some banner => rfl
  · cases hfailure : reply.failure with
    | none => exact Triple.pure fun s l h => h.1
    | some e => exact Triple.raise fun s l h => ⟨h.1, h.2 e rfl⟩

theorem perform {c : Call} (hc : c.Plain) (hcaught : ∀ e, c.handles e = true → κ e = true) :
    Steady κ (OobLifecycle.perform env c) :=
  bind (ask hc hcaught) fun _ => pure ()

theorem note {n : Note} : Steady κ (OobLifecycle.note env n) :=
  bind (look rfl) fun _ => pure ()

theorem clock : Steady κ (OobLifecycle.clock env) :=
  bind (look rfl) fun reply => pure reply.time

theorem wallTime : Steady κ (OobLifecycle.wallTime env) :=
  bind (look rfl) fun reply => pure reply.time

theorem restartEpisode : Steady κ (OobLifecycle.restartEpisode env) :=
  bind clock fun _ => bind (modify_core fun _ => rfl) fun _ => note

theorem episodeExpired : Steady κ (OobLifecycle.episodeExpired env config) :=
  bind clock fun _ => bind get fun _ => bind (doIf fun _ => note) fun _ => pure _

theorem boundedClientGraceDeadline :
    Steady κ (OobLifecycle.boundedClientGraceDeadline env config) :=
  bind clock fun _ => bind get fun _ => pure _

theorem publish {health : Health} {stage : Stage} (hstage : stage ≠ .automatingBrowser) :
    Steady κ (OobLifecycle.publish env health stage) := by
  refine bind get fun _ => bind (doIf fun _ => restartEpisode) fun _ => ?_
  refine bind (modify_core fun _ => rfl) fun _ => ?_
  exact perform hstage fun _ h => nomatch h

theorem sleepInterval : Steady κ (OobLifecycle.sleepInterval env config) :=
  perform rfl fun _ h => nomatch h

theorem sleepTransportRetry : Steady κ (OobLifecycle.sleepTransportRetry env config) :=
  bind get fun _ => perform rfl fun _ h => nomatch h

theorem stopMonitor : Steady κ (OobLifecycle.stopMonitor env) := by
  refine bind get fun _ => doIf fun _ => bind (observe rfl) fun _ => ?_
  exact bind (perform rfl fun _ h => nomatch h) fun _ => modify_core fun _ => rfl

theorem headsetWakefulness :
    Steady κ (OobLifecycle.swallow (OobLifecycle.ask env .headsetWakefulness)) :=
  swallow (κ := fun _ => true) (ask rfl fun _ _ => rfl)

theorem rememberBrowserWakeFailure {e : Failure} :
    Steady κ (OobLifecycle.rememberBrowserWakeFailure env e) := by
  unfold OobLifecycle.rememberBrowserWakeFailure
  cases e with
  | headsetNotAwake => exact modify_core fun _ => rfl
  | timeout => exact bind headsetWakefulness fun _ => modify_core fun _ => rfl
  | _ => exact pure ()

theorem observeExpiredWake : Steady κ (OobLifecycle.observeExpiredWake env config) := by
  refine bind get fun _ => ite (fun _ => pure false) fun _ => ?_
  refine bind headsetWakefulness fun _ => ite (fun _ => ?_) fun _ => ?_
  · exact bind (modify_core fun _ => rfl) fun _ => bind restartEpisode fun _ => pure true
  · refine bind (publish nofun) fun _ => ?_
    exact bind sleepInterval fun _ => pure true

/-! ### Pages -/

theorem onClientLoaded : Steady κ (OobLifecycle.onClientLoaded env) :=
  bind (modify_core fun _ => rfl) fun _ => publish nofun

theorem onDispatched : Steady κ (OobLifecycle.onDispatched env) :=
  bind wallTime fun _ => modify_core fun _ => rfl

theorem clickConnect {helper : Helper} {loaded dispatched published : LifecycleM Unit}
    (hcaught : ∀ e, e.isOobAdbError = true → κ e = true) (hloaded : Steady κ loaded)
    (hdispatched : Steady κ dispatched) (hpublished : Steady κ published) :
    Steady κ (OobLifecycle.clickConnect env helper loaded dispatched published) := by
  have hhandles : ∀ c ∈ [Call.findPage helper, .click helper, .clickAgain helper,
      .awaitOutcome helper], ∀ e, c.handles e = true → κ e = true := by
    intro c hc e he
    refine hcaught e ?_
    cases helper with
    | attachExistingOobTab =>
      simp only [List.mem_cons, List.not_mem_nil, or_false] at hc
      rcases hc with rfl | rfl | rfl | rfl
      all_goals exact he
    | runOobConnect =>
      simp only [List.mem_cons, List.not_mem_nil, or_false] at hc
      rcases hc with rfl | rfl | rfl | rfl
      all_goals cases he
  refine bind (perform rfl (hhandles _ (by simp))) fun _ => bind hloaded fun _ => ?_
  refine bind (perform rfl (hhandles _ (by simp))) fun _ => bind hdispatched fun _ => ?_
  refine bind (tryFinally (perform rfl (hhandles _ (by simp))) hpublished) fun _ => ?_
  exact perform rfl (hhandles _ (by simp))

theorem attachExistingMonitor : Steady κ (OobLifecycle.attachExistingMonitor env) := by
  refine bind get fun _ => bind (look rfl) fun _ => ite (fun _ => pure true) fun _ => ?_
  refine bind (modify_core fun _ => rfl) fun _ => ?_
  refine attempt (κ := Failure.isOobAdbError) (perform rfl fun _ => id) (fun _ => ?_) fun e => ?_
  · exact bind (modify_core fun _ => rfl) fun _ => pure true
  · show Handler _ e κ (if e.isOobAdbError = true then _ else _)
    split
    · exact handler (pure false)
    case isFalse h => exact reraise fun _ h' => absurd h' h

theorem publishSameTabDispatched : Steady κ (OobLifecycle.publishSameTabDispatched env) :=
  bind get fun _ => bind (doIf fun _ => onClientLoaded) fun _ => publish nofun

/-- The grace of a dispatched click moves the deadline. -/
theorem setDeadline (deadline : ℚ) :
    Steady κ (Observed.modify fun s => { s with clientGraceDeadline := some deadline } :
      LifecycleM Unit) :=
  modify fun _ => ⟨rfl, rfl, rfl, rfl, fun _ => rfl, fun _ => rfl, fun h => ⟨h.coturn, h.signature⟩⟩

theorem sameTabConnect {key : ClickKey} : Steady κ (OobLifecycle.sameTabConnect env config key) := by
  refine bind get fun _ => ite (fun _ => pure _) fun _ => ?_
  refine bind (modify_core fun _ => rfl) fun _ => bind note fun _ => bind stopMonitor fun _ => ?_
  refine bind (modify_core fun _ => rfl) fun _ => ?_
  refine attempt (κ := Failure.isOobAdbError) (clickConnect (fun _ => id) onClientLoaded
    onDispatched publishSameTabDispatched) (fun _ => ?_) fun e => ?_
  · refine bind (modify_core fun _ => rfl) fun _ => bind get fun _ => ?_
    refine bind (doIf fun _ => bind onDispatched fun _ => publishSameTabDispatched) fun _ => ?_
    refine bind boundedClientGraceDeadline fun deadline => bind (setDeadline deadline) fun _ => ?_
    exact bind (publish nofun) fun _ => pure _
  · cases e with
    | headsetNotAwake =>
      refine handler (bind (modify_core fun _ => rfl) fun _ => bind note fun _ => ?_)
      exact bind (publish nofun) fun _ => pure _
    | oobAdbError | transportDisrupted =>
      exact handler (bind (modify_core fun _ => rfl) fun _ => pure _)
    | timeout | osError | exception | cancelled | expired => exact reraise fun _ h => nomatch h

theorem prepareDevice : Steady κ (OobLifecycle.prepareDevice env) := by
  refine bind get fun _ => bind (doIf fun _ => ?_) fun _ => ?_
  · exact bind (perform rfl fun _ h => nomatch h) fun _ => modify_core fun _ => rfl
  · refine bind (perform rfl fun _ h => nomatch h) fun _ => doIf fun _ => ?_
    refine bind (swallow (κ := uncaught) (perform rfl fun _ h => nomatch h)) fun _ => ?_
    exact modify_core fun _ => rfl

theorem inspectUsbLink : Steady κ (OobLifecycle.inspectUsbLink env) := by
  refine attempt (κ := fun e => e.isOobAdbError || e = .osError || e = .timeout) ?_
    (fun link => pure link.speed) fun e => ?_
  · refine bind (ask rfl fun _ h => nomatch h) fun _ => ?_
    exact bind (doIf fun _ => raise fun _ => rfl) fun _ => ask rfl fun _ h => nomatch h
  · show Handler _ e κ (if _ then _ else _)
    split
    · exact handler (pure none)
    case isFalse h => exact reraise fun _ h' => absurd h' h

theorem checkUsbLink : Steady κ (OobLifecycle.checkUsbLink env) := by
  refine bind (publish nofun) fun _ => bind inspectUsbLink fun _ => ?_
  exact bind (modify_core fun _ => rfl) fun _ => publish nofun

/-- Over Wi-Fi, no monitored page that ends is a disruption of USB. -/
theorem verifyBrowser (hcaught : ∀ e, κ e = true) :
    Steady κ (OobLifecycle.verifyBrowser env config) := by
  refine bind get fun s => bind (look rfl) fun _ => ite (fun _ => ?_) fun _ => ?_
  · exact ite (fun _ => raise fun _ => hcaught _) fun _ => raise fun _ => hcaught _
  · cases s.browserProbeAfter with
    | none => exact raise fun _ => hcaught _
    | some after =>
      refine bind (ask rfl fun _ _ => hcaught _) fun probe => ?_
      cases probe.report with
      | none => exact publish nofun
      | some report => exact bind (modify_core fun _ => rfl) fun _ => publish nofun

end Steady

/-! ### What holds between passes -/

/-- No page is preserved, and none was lost while it was. -/
structure Loose (s : Lifecycle) (l : Watch) : Prop where
  noUsb : s.NoUsb
  transportLost : s.transportLost = false
  signature : s.transportDisruptionSignature = none
  lost : l.lost = false
  rebuilt : l.rebuilt = false

/-- A page is preserved. -/
structure Preserving (s : Lifecycle) : Prop where
  noUsb : s.NoUsb
  transportLost : s.transportLost = true
  restore : s.restoreExistingBrowser = true
  selected : s.selected.isSome

/-- A page is preserved on a transport that counts as repaired. -/
structure Repaired (s : Lifecycle) (l : Watch) : Prop extends Preserving s where
  repair : s.repairStartedAt.isSome
  deadline : s.clientGraceDeadline.isSome
  signature : s.transportDisruptionSignature = none
  lost : l.lost = false
  rebuilt : l.rebuilt = false

/-- A page is preserved, and the next step is to rebuild USB. -/
structure Stuck (s : Lifecycle) (l : Watch) : Prop extends Preserving s where
  repair : s.repairStartedAt = none
  disturbed : l.lost = true ∨ l.failed = true

/-- The loss of a preserved page's transport has been seen. -/
structure Losing (s : Lifecycle) (l : Watch) : Prop extends Preserving s where
  repair : s.repairStartedAt = none ∨ s.transportDisruptionSignature = none
  lost : l.lost = true

/-- **The invariant** between two passes. -/
def Inv (s : Lifecycle) (l : Watch) : Prop := Loose s l ∨ Repaired s l ∨ Stuck s l

/-- What a run that ended leaves. -/
def Ended (l : Watch) : Prop := l.lost = false → l.failed = false → l.rebuilt = false

theorem Preserving.same {s s' : Lifecycle} (h : Preserving s) (hs : Same s s') : Preserving s' where
  noUsb := hs.noUsb h.noUsb
  transportLost := hs.transportLost.trans h.transportLost
  restore := hs.restore.trans h.restore
  selected := by
    rw [hs.selected h.selected]
    exact h.selected

theorem Loose.stable : Stable Loose := fun _ _ _ _ hs hl h =>
  { noUsb := hs.noUsb h.noUsb
    transportLost := hs.transportLost.trans h.transportLost
    signature := hs.signature.trans h.signature
    lost := hl.lost.trans h.lost
    rebuilt := hl.rebuilt.trans h.rebuilt }

theorem Repaired.stable : Stable Repaired := fun _ _ _ _ hs hl h =>
  { toPreserving := h.toPreserving.same hs
    repair := by
      rw [hs.repair]
      exact h.repair
    deadline := hs.deadline h.deadline
    signature := hs.signature.trans h.signature
    lost := hl.lost.trans h.lost
    rebuilt := hl.rebuilt.trans h.rebuilt }

theorem Stuck.stable : Stable Stuck := fun _ _ _ _ hs hl h =>
  { toPreserving := h.toPreserving.same hs
    repair := hs.repair.trans h.repair
    disturbed := h.disturbed.imp (fun hlost => hl.lost.trans hlost) hl.failed }

theorem Losing.stable : Stable Losing := fun _ _ _ _ hs hl h =>
  { toPreserving := h.toPreserving.same hs
    repair := h.repair.imp (fun hrepair => hs.repair.trans hrepair)
      fun hsignature => hs.signature.trans hsignature
    lost := hl.lost.trans h.lost }

theorem Inv.stable : Stable Inv := fun s s' l l' hs hl h =>
  h.imp (Loose.stable s s' l l' hs hl)
    (Or.imp (Repaired.stable s s' l l' hs hl) (Stuck.stable s s' l l' hs hl))

theorem Inv.ended {s : Lifecycle} {l : Watch} (h : Inv s l) : Ended l := by
  intro hlost hfailed
  rcases h with h | h | h
  · exact h.rebuilt
  · exact h.rebuilt
  · rcases h.disturbed with h | h
    · rw [hlost] at h
      cases h
    · rw [hfailed] at h
      cases h

theorem Losing.ended {s : Lifecycle} {l : Watch} (h : Losing s l) : Ended l := by
  intro hlost
  rw [h.lost] at hlost
  cases hlost

section Passes

variable {env : List Happening → Reply} {config : Config} {α β : Type} {x : LifecycleM α}
variable {P : Lifecycle → Watch → Prop}

/-- A steady program, without what is noted of its exceptions. -/
theorem Steady.spec {κ : Failure → Bool} (hx : Steady κ x) (hP : Stable P) :
    Spec P x (fun _ => P) fun _ => P :=
  (hx P hP).post (fun _ _ _ => id) fun _ _ _ h => h.1

/-- A steady program, and then another. -/
theorem Steady.andThen {κ : Failure → Bool} {f : α → LifecycleM β}
    {Q : β → Lifecycle → Watch → Prop} {R : Failure → Lifecycle → Watch → Prop}
    (hx : Steady κ x) (hP : Stable P) (hf : ∀ a, Spec P (f a) Q R)
    (hR : ∀ e s l, P s l → R e s l) : Spec P (x >>= f) Q R :=
  Triple.bind ((hx.spec hP).post (fun _ _ _ => id) hR) hf

/-! ### Losing the transport -/

theorem rememberTransportLoss_losing : Spec Losing (rememberTransportLoss env config)
    (fun _ => Losing) fun _ => Losing := by
  refine Steady.andThen (κ := uncaught) (Steady.modify_core fun _ => rfl) Losing.stable
    (fun _ => ?_) fun _ _ _ => id
  refine Triple.bind (Q := fun _ => Losing) (Triple.modify fun s l h => ?_) fun _ => ?_
  · simp only [Lifecycle.rememberLoss, h.transportLost, if_true]
    exact h
  · refine Steady.spec (κ := uncaught) ?_ Losing.stable
    exact Steady.bind Steady.stopMonitor fun _ => Steady.modify_core fun _ => rfl

/-- The repair is forgotten, unless it was before. -/
theorem invalidateCompletedRepair_losing {signature : Disruption} :
    Spec Losing (invalidateCompletedRepair env signature) (fun _ => Stuck) fun _ => Stuck := by
  refine Triple.get_bind fun s₀ => Triple.doIf (fun _ => ?_) fun hsame s l h => ?_
  · refine Triple.bind (Q := fun _ => Stuck) (Triple.modify fun s l h => ?_) fun _ =>
      (Steady.bind (κ := uncaught) Steady.note fun _ => Steady.restartEpisode).spec Stuck.stable
    have hnoUsb := h.1.noUsb
    exact ⟨⟨⟨hnoUsb.coturn, hnoUsb.signature⟩, h.1.transportLost, h.1.restore, h.1.selected⟩, rfl,
      .inl h.1.lost⟩
  · obtain ⟨h, rfl⟩ := h
    have hsignature : s.transportDisruptionSignature = some signature := by simpa using hsame
    refine ⟨h.toPreserving, h.repair.resolve_right ?_, .inl h.lost⟩
    rw [hsignature]
    exact nofun

variable (hwifi : config.usbLocal = false)

include hwifi

theorem rememberTransportLoss_loose : Spec Loose (rememberTransportLoss env config)
    (fun _ => Loose) fun _ => Loose := by
  refine Steady.andThen (κ := uncaught) (Steady.modify_core fun _ => rfl) Loose.stable
    (fun _ => ?_) fun _ _ _ => id
  refine Triple.bind (Q := fun _ => Loose) (Triple.modify fun s l h => ?_) fun _ => ?_
  · rw [hwifi]
    simp only [Lifecycle.rememberLoss, h.transportLost, Bool.false_and, Bool.false_eq_true, if_false]
    exact ⟨⟨h.noUsb.coturn, h.noUsb.signature⟩, rfl, h.signature, h.lost, h.rebuilt⟩
  · refine Steady.spec (κ := uncaught) ?_ Loose.stable
    exact Steady.bind Steady.stopMonitor fun _ => Steady.modify_core fun _ => rfl

/-- Over Wi-Fi a loss without a preserved page does not preserve one. -/
theorem enterTransportRecovery_loose {reason : String} {stage : Stage}
    {adbReady network verified : Bool}
    (hstage : stage ≠ .automatingBrowser) :
    Spec Loose (enterTransportRecovery env config reason stage adbReady network verified)
      (fun _ => Loose) fun _ => Loose := by
  refine Triple.bind (Q := fun _ => Loose) ?_ fun _ => ?_
  · refine Triple.doIf (fun h => ?_) fun _ _ _ => id
    rw [hwifi, Bool.and_false, Bool.false_and] at h
    cases h
  · refine Triple.bind (rememberTransportLoss_loose hwifi) fun _ => Triple.get_bind fun s₀ => ?_
    refine Triple.bind (Q := fun _ => Loose) ?_ fun _ =>
      (Steady.publish (κ := uncaught) hstage).spec Loose.stable
    refine Triple.doIf (fun h => ?_) fun _ s l h => h.1
    refine Triple.pure_pre (φ := False) (fun s l hs => ?_) False.elim
    obtain ⟨hloose, rfl⟩ := hs
    rw [hloose.transportLost] at h
    cases h

/-- **A lost transport forgets the repair of a preserved page.** -/
theorem enterTransportRecovery_losing {reason : String} {stage : Stage}
    {adbReady network verified : Bool}
    (hstage : stage ≠ .automatingBrowser) :
    Spec Losing (enterTransportRecovery env config reason stage adbReady network verified)
      (fun _ => Stuck) fun _ _ l => Ended l := by
  have hstuck : ∀ s l, Stuck s l → Ended l := fun s l h => Inv.ended (.inr (.inr h))
  refine Triple.bind (Q := fun _ => Losing) ?_ fun _ => ?_
  · refine Triple.doIf (fun h => ?_) fun _ _ _ => id
    rw [hwifi, Bool.and_false, Bool.false_and] at h
    cases h
  · refine Triple.bind (rememberTransportLoss_losing.post (fun _ _ _ => id)
      fun _ _ _ h => h.ended) fun _ => Triple.get_bind fun s₀ => ?_
    refine Triple.bind (Q := fun _ => Stuck) ?_ fun _ =>
      ((Steady.publish (κ := uncaught) hstage).spec Stuck.stable).post (fun _ _ _ => id)
        fun _ s l => hstuck s l
    refine Triple.doIf (fun _ => ?_) fun hlost s l h => ?_
    · exact (invalidateCompletedRepair_losing.pre fun s l h => h.1).post (fun _ _ _ => id)
        fun _ s l => hstuck s l
    · obtain ⟨h, rfl⟩ := h
      rw [h.transportLost] at hlost
      cases hlost

omit hwifi

/-! ### Fresh pages -/

/-- The publication from which on failures do not matter. -/
theorem publishAutomating_spec : Spec Loose (publish env .degraded .automatingBrowser)
    (fun _ => Loose) fun _ => Loose := by
  refine Steady.andThen (κ := uncaught) Steady.get Loose.stable (fun s₀ => ?_) fun _ _ _ => id
  refine Steady.andThen (κ := uncaught) (Steady.doIf fun _ => Steady.restartEpisode)
    Loose.stable (fun _ => ?_) fun _ _ _ => id
  refine Steady.andThen (κ := uncaught) (Steady.modify_core fun _ => rfl) Loose.stable
    (fun _ => ?_) fun _ _ _ => id
  refine Triple.bind (Q := fun _ => Loose) ?_ fun _ => Triple.pure fun _ _ => id
  refine Triple.bind (Q := fun _ => Loose) ?_ fun reply => ?_
  · refine Triple.bind (Q := fun _ => Loose) ?_ fun reply => ?_
    · refine Triple.call_ok fun s l reply h => ⟨_, rfl, ?_⟩
      show Loose s (Watch.answered _ _ _)
      unfold Watch.answered
      cases reply.failure with
      | none => exact { h with }
      | some e => exact { h with }
    · exact (Steady.bind (κ := uncaught) (Steady.onCdpTerminalError reply.banner)
        fun _ => Steady.pure reply).spec Loose.stable
  · cases reply.failure with
    | none => exact Triple.pure fun _ _ => id
    | some e => exact Triple.raise fun _ _ => id

theorem openPage_spec : Spec Loose (openPage env config) (fun _ => Loose) fun _ => Loose := by
  refine Steady.andThen (κ := uncaught) Steady.wallTime Loose.stable (fun _ => ?_)
    fun _ _ _ => id
  refine Steady.andThen (κ := uncaught) (Steady.modify_core fun _ => rfl) Loose.stable
    (fun _ => ?_) fun _ _ _ => id
  refine Triple.bind publishAutomating_spec fun _ => ?_
  refine Steady.spec (κ := fun _ => true) ?_ Loose.stable
  refine Steady.bind (Steady.clickConnect (fun _ _ => rfl) Steady.onClientLoaded
    Steady.onDispatched (Steady.publish nofun)) fun _ => ?_
  refine Steady.bind (Steady.modify_core fun _ => rfl) fun _ => Steady.bind Steady.get fun _ => ?_
  refine Steady.bind (Steady.doIf fun _ => Steady.bind Steady.onDispatched fun _ =>
    Steady.publish nofun) fun _ => ?_
  exact Steady.bind (Steady.publish nofun) fun _ => Steady.verifyBrowser fun _ => rfl

theorem automating_loose {s : Lifecycle} {l : Watch} (hnoUsb : s.NoUsb) (hlost : l.lost = false)
    (hrebuilt : l.rebuilt = false) : Loose s.automating l :=
  ⟨⟨hnoUsb.coturn, hnoUsb.signature⟩, rfl, rfl, hlost, hrebuilt⟩

/-! ### A preserved page on a repaired transport -/

/-- The pass began with the preserved page. -/
def Recovering (s : Lifecycle) (l : Watch) : Prop := Repaired s l ∧ l.watching = true

theorem Recovering.stable : Stable Recovering := by
  rintro s s' l l' hs hl ⟨h, hwatching⟩
  refine ⟨Repaired.stable s s' l l' hs hl h, ?_⟩
  unfold Watch.watching at hwatching ⊢
  rwa [hl.preserving, hl.automating]

/-- Either the page stays preserved, and a failure is noted, or a stream or a fresh page ends the
preservation. -/
def Recovers (x : LifecycleM α) : Prop :=
  Spec Recovering x (fun _ s l => Recovering s l ∨ Loose s l)
    fun e s l => Recovering s l ∧ Noted uncaught e l ∨ Loose s l

theorem Steady.recovers (hx : Steady uncaught x) : Recovers x :=
  (hx Recovering Recovering.stable).post (fun _ _ _ => .inl) fun _ _ _ => .inl

theorem Recovers.after {f : α → LifecycleM β} (hx : Steady uncaught x) (hf : ∀ a, Recovers (f a)) :
    Recovers (x >>= f) :=
  Triple.bind ((hx Recovering Recovering.stable).post (fun _ _ _ => id) fun _ _ _ => .inl) hf

theorem Recovers.ite {condition : Prop} [Decidable condition] {y : LifecycleM α}
    (hx : Recovers x) (hy : Recovers y) : Recovers (if condition then x else y) := by
  split
  · exact hx
  · exact hy

/-- The preservation ends. -/
theorem Recovers.release {f : Lifecycle → Lifecycle} {y : LifecycleM β}
    (hf : ∀ s l, Repaired s l → Loose (f s) l) (hy : Spec Loose y (fun _ => Loose) fun _ => Loose) :
    Recovers (modify f >>= fun _ => y) := by
  refine Triple.bind (Q := fun _ => Loose) (Triple.modify fun s l h => hf s l h.1) fun _ => ?_
  exact hy.post (fun _ _ _ => .inr) fun _ _ _ => .inr

theorem automate_recovers : Recovers (automate env config) := by
  refine Recovers.after Steady.get fun _ => Recovers.after Steady.note fun _ => ?_
  refine Recovers.after Steady.stopMonitor fun _ => Recovers.release (fun s l h => ?_) openPage_spec
  exact automating_loose h.noUsb h.lost h.rebuilt

theorem fallbackToFreshBrowser_recovers : Recovers (fallbackToFreshBrowser env config) := by
  refine Triple.bind (Triple.attempt automate_recovers) fun result => ?_
  cases result with
  | ok _ => exact Triple.pure fun _ _ => id
  | error e =>
    have hstable : Stable fun s l => Recovering s l ∧ Noted uncaught e l ∨ Loose s l :=
      fun s s' l l' hs hl h => h.imp (Steady.noted_stable Recovering.stable s s' l l' hs hl)
        (Loose.stable s s' l l' hs hl)
    refine Triple.bind (Triple.get fun _ _ => id) fun s => Triple.bind ?_ fun _ =>
      Triple.raise fun _ _ => id
    have hsteady : Steady uncaught (doIf ((e = .headsetNotAwake || e = .timeout) &&
        !s.connectDispatched) (rememberBrowserWakeFailure env e)) :=
      Steady.doIf fun _ => Steady.rememberBrowserWakeFailure
    refine (hsteady _ hstable).post (fun _ _ _ => id) fun e' s l h => ?_
    exact h.1.imp_left fun hrecovering => ⟨hrecovering.1, h.2⟩

theorem clickOrFallback_recovers : Recovers (clickOrFallback env config) := by
  refine Recovers.after Steady.get fun s => Recovers.after Steady.sameTabConnect fun clicked => ?_
  match clicked with
  | some false => exact fallbackToFreshBrowser_recovers
  | none => exact (Steady.pure ()).recovers
  | some true => exact (Steady.pure ()).recovers

theorem awaitStream_recovers {phase : String} {deadline : ℚ} :
    Recovers (awaitStream env config phase deadline) := by
  refine Recovers.after Steady.clock fun _ => Recovers.after Steady.get fun _ => ?_
  refine Recovers.ite fallbackToFreshBrowser_recovers ?_
  refine Recovers.ite clickOrFallback_recovers ?_
  exact Recovers.after Steady.attachExistingMonitor fun _ => Steady.recovers (Steady.publish nofun)

theorem streamResumed_loose {s : Lifecycle} {l : Watch} {now : ℚ} (h : Repaired s l) :
    Loose (s.streamResumed now) l :=
  ⟨⟨h.noUsb.coturn, h.noUsb.signature⟩, rfl, rfl, h.lost, h.rebuilt⟩

theorem recoverReported_recovers {repairStartedAt deadline : ℚ} {cdpAttached : Bool}
    {report : Headset} :
    Recovers (recoverReported env config repairStartedAt deadline cdpAttached report) := by
  refine Recovers.after (Steady.modify_core fun _ => rfl) fun _ => ?_
  refine Recovers.after Steady.wallTime fun now => Recovers.ite ?_ (Recovers.ite ?_ ?_)
  · refine Recovers.release (fun _ _ h => streamResumed_loose h) ?_
    refine Steady.spec (κ := uncaught) (Steady.bind Steady.note fun _ => ?_) Loose.stable
    exact Steady.bind (Steady.modify_core fun _ => rfl) fun _ => Steady.publish nofun
  · exact Steady.recovers (Steady.publish nofun)
  · refine Recovers.after Steady.get fun s => ?_
    cases report.terminalEventId with
    | none => exact awaitStream_recovers
    | some event =>
      refine Recovers.ite awaitStream_recovers ?_
      refine Recovers.after Steady.sameTabConnect fun clicked => ?_
      cases clicked with
      | none => exact (Steady.pure ()).recovers
      | some clicked =>
        refine Recovers.after (Steady.modify_core fun _ => rfl) fun _ => ?_
        exact Recovers.ite (Steady.pure ()).recovers awaitStream_recovers

theorem recoverExistingBrowser_recovers : Recovers (recoverExistingBrowser env config) := by
  refine Triple.get_bind fun s₀ => ?_
  refine Triple.pure_pre (φ := s₀.repairStartedAt.isSome ∧ s₀.clientGraceDeadline.isSome) ?_
    fun hrepair => ?_
  · rintro s l ⟨h, rfl⟩
    exact ⟨h.1.repair, h.1.deadline⟩
  · obtain ⟨repairStartedAt, hrepairAt⟩ := Option.isSome_iff_exists.mp hrepair.1
    obtain ⟨deadline, hdeadline⟩ := Option.isSome_iff_exists.mp hrepair.2
    rw [hrepairAt, hdeadline]
    refine Triple.pre (P := Recovering) ?_ fun _ _ h => h.1
    refine Recovers.after Steady.attachExistingMonitor fun cdpAttached => ?_
    refine Recovers.after (Steady.ask rfl fun _ h => nomatch h) fun probe => ?_
    cases probe.report with
    | none =>
      refine Recovers.after Steady.clock fun now => Recovers.ite ?_ clickOrFallback_recovers
      exact Steady.recovers (Steady.publish nofun)
    | some report => exact recoverReported_recovers

theorem observePassiveRecovery_recovers : Recovers (observePassiveRecovery env config) := by
  refine Triple.get_bind fun s₀ => ?_
  refine Triple.pure_pre (φ := s₀.repairStartedAt.isSome) ?_ fun hrepair => ?_
  · rintro s l ⟨h, rfl⟩
    exact h.1.repair
  · obtain ⟨repairStartedAt, hrepairAt⟩ := Option.isSome_iff_exists.mp hrepair
    rw [hrepairAt]
    refine Triple.pre (P := Recovering) ?_ fun _ _ h => h.1
    refine Recovers.after (Steady.ask rfl fun _ h => nomatch h) fun probe => ?_
    cases probe.report with
    | none => exact Steady.recovers (Steady.publish nofun)
    | some report =>
      refine Recovers.after (Steady.modify_core fun _ => rfl) fun _ => ?_
      refine Recovers.after Steady.wallTime fun now => Recovers.ite ?_ ?_
      · refine Recovers.release (fun _ _ h => streamResumed_loose h) ?_
        refine Steady.spec (κ := uncaught) (Steady.bind Steady.note fun _ => ?_) Loose.stable
        exact Steady.publish nofun
      · exact Steady.recovers (Steady.publish nofun)

/-! ### The preserving branch -/

/-- The pass began with a preserved page. -/
def Held (s : Lifecycle) (l : Watch) : Prop := Recovering s l ∨ Stuck s l

theorem Held.stable : Stable Held := fun s s' l l' hs hl h =>
  h.imp (Recovering.stable s s' l l' hs hl) (Stuck.stable s s' l l' hs hl)

theorem Held.inv {s : Lifecycle} {l : Watch} (h : Held s l) : Inv s l :=
  .inr (h.imp And.left id)

theorem Recovers.inv (hx : Recovers x) : Spec Recovering x (fun _ => Inv) fun _ _ l => Ended l := by
  have hloose : ∀ {s l}, Loose s l → Inv s l := .inl
  have hrepaired : ∀ {s l}, Recovering s l → Inv s l := fun h => .inr (.inl h.1)
  refine hx.post (fun _ s l h => h.elim hrepaired hloose) fun _ s l h => ?_
  exact (h.elim (fun h => hrepaired h.1) hloose : Inv s l).ended

theorem Steady.inv (hx : Steady uncaught x) : Spec Inv x (fun _ => Inv) fun _ _ l => Ended l :=
  (hx.spec Inv.stable).post (fun _ _ _ => id) fun _ _ _ h => h.ended

theorem observePreserved_spec : Spec Held (observePreserved env config) (fun _ => Inv)
    fun _ _ l => Ended l := by
  refine Triple.get_bind fun s₀ => ?_
  have hcases : ∀ s l, Held s l ∧ s = s₀ → (Recovering s l ∧ s = s₀) ∨ (Stuck s l ∧ s = s₀) :=
    fun s l h => h.1.imp (fun h' => ⟨h', h.2⟩) fun h' => ⟨h', h.2⟩
  refine Triple.or_pre hcases ?_ ?_
  · split
    · exact observePassiveRecovery_recovers.inv.pre fun _ _ h => h.1
    case isFalse hrepair =>
      refine Triple.pure_pre (φ := False) (fun s l h => hrepair ?_) False.elim
      rw [← h.2]
      exact h.1.1.repair
  · split
    case isTrue hrepair =>
      refine Triple.pure_pre (φ := False) (fun s l h => ?_) False.elim
      rw [← h.2, h.1.repair] at hrepair
      cases hrepair
    · refine Triple.pre (P := Inv) (Steady.inv (Steady.publish nofun)) fun _ _ h => ?_
      exact .inr (.inr h.1)

theorem observeExpired_spec : Spec Held (observeExpired env config) (fun _ => Inv)
    fun _ _ l => Ended l := by
  refine Steady.andThen (κ := uncaught) Steady.observeExpiredWake Held.stable (fun ended => ?_)
    fun _ _ _ h => h.inv.ended
  refine Triple.doIf (fun _ => ?_) fun _ _ _ h => h.inv
  exact Triple.bind observePreserved_spec fun _ => Steady.inv Steady.sleepTransportRetry

/-- The exception handler forgets the repair. -/
theorem repairFailed_spec {P : Lifecycle → Watch → Prop} (hP : ∀ s l, P s l → Inv
    { s with repairStartedAt := none, clientGraceDeadline := none } l) :
    Spec P (repairFailed env) (fun _ => Inv) fun _ _ l => Ended l := by
  refine Triple.bind (Q := fun _ => Inv) (Triple.modify hP) fun _ => ?_
  refine Steady.inv (Steady.bind Steady.note fun _ => Steady.bind Steady.get fun s =>
    Steady.publish ?_)
  split
  · exact nofun
  · exact nofun

theorem tryRepair_recovering : Spec Recovering (tryRepair env config) (fun _ => Inv)
    fun _ _ l => Ended l := by
  have hrepair : Recovers (repairAndRecover env config) := by
    refine Triple.get_bind fun s₀ => ?_
    refine Triple.bind (Q := fun _ => Recovering) ?_ fun _ => recoverExistingBrowser_recovers
    refine Triple.doIf (fun hnone => ?_) fun _ _ _ h => h.1
    refine Triple.pure_pre (φ := False) (fun s l h => ?_) False.elim
    obtain ⟨h, rfl⟩ := h
    rw [← Option.not_isSome, h.1.repair] at hnone
    cases hnone
  refine Triple.bind (Triple.attempt hrepair) fun result => ?_
  cases result with
  | ok _ =>
    refine Triple.pure fun s l h => ?_
    exact h.elim (fun h => .inr (.inl h.1)) .inl
  | error e =>
    show Spec _ (if e.isException = true then _ else _) _ _
    split
    case isTrue hexception =>
      refine repairFailed_spec fun s l h => ?_
      rcases h with ⟨h, hnoted⟩ | h
      · -- The failure was noted, since the pass was watched.
        have hp := h.1.toPreserving
        exact .inr (.inr ⟨⟨⟨hp.noUsb.coturn, hp.noUsb.signature⟩, hp.transportLost, hp.restore,
          hp.selected⟩, rfl, .inr (hnoted h.2 hexception rfl)⟩)
      · exact .inl ⟨⟨h.noUsb.coturn, h.noUsb.signature⟩, h.transportLost, h.signature, h.lost,
          h.rebuilt⟩
    · refine Triple.raise fun s l h => ?_
      have hinv : Inv s l := h.elim (fun h => .inr (.inl h.1.1)) .inl
      exact hinv.ended

variable (hturn : config.turnPort = none)

include hturn

/-- **Without a TURN port USB cannot be rebuilt.** -/
theorem rebuildUsb_stuck : Spec Stuck (rebuildUsb env config) (fun _ _ _ => False) fun _ => Stuck := by
  refine Triple.bind (Q := fun _ => Stuck) ?_ fun _ => ?_
  · refine Triple.bind (Q := fun _ => Stuck) ?_ fun _ => Triple.pure fun _ _ => id
    exact Triple.call_ok fun s l reply h => ⟨_, rfl, ⟨h.toPreserving, h.repair, h.disturbed⟩⟩
  · rw [hturn]
    exact Triple.raise fun _ _ => id

theorem repairAndRecover_stuck : Spec Stuck (repairAndRecover env config) (fun _ _ _ => False)
    fun _ => Stuck := by
  refine Triple.get_bind fun s₀ => Triple.bind (Q := fun _ _ _ => False) ?_ fun _ => ?_
  · refine Triple.doIf (fun _ => Triple.pre (P := Stuck) ?_ fun _ _ h => h.1) fun hsome s l h => ?_
    · refine Steady.andThen (κ := uncaught) (Steady.publish nofun) Stuck.stable (fun _ => ?_)
        fun _ _ _ => id
      refine Steady.andThen (κ := uncaught) (Steady.perform rfl fun _ h => nomatch h)
        Stuck.stable (fun _ => ?_) fun _ _ _ => id
      refine Steady.andThen (κ := uncaught) (Steady.doIf fun _ => Steady.checkUsbLink)
        Stuck.stable (fun _ => ?_) fun _ _ _ => id
      refine Triple.bind (rebuildUsb_stuck hturn) fun _ => ?_
      exact Triple.pure_pre (φ := False) (fun _ _ => id) False.elim
    · obtain ⟨h, rfl⟩ := h
      rw [h.repair] at hsome
      cases hsome
  · exact Triple.pure_pre (φ := False) (fun _ _ => id) False.elim

theorem tryRepair_stuck : Spec Stuck (tryRepair env config) (fun _ => Inv)
    fun _ _ l => Ended l := by
  refine Triple.bind (Triple.attempt (repairAndRecover_stuck hturn)) fun result => ?_
  cases result with
  | ok _ => exact Triple.pure_pre (φ := False) (fun _ _ => id) False.elim
  | error e =>
    show Spec _ (if e.isException = true then _ else _) _ _
    split
    · refine repairFailed_spec fun s l (h : Stuck s l) => ?_
      have hp := h.toPreserving
      exact .inr (.inr ⟨⟨⟨hp.noUsb.coturn, hp.noUsb.signature⟩, hp.transportLost, hp.restore,
        hp.selected⟩, rfl, h.disturbed⟩)
    · exact Triple.raise fun s l (h : Stuck s l) => Inv.ended (.inr (.inr h))

theorem preserve_spec : Spec Held (preserve env config) (fun _ => Inv) fun _ _ l => Ended l := by
  refine Triple.bind ?_ fun _ => Steady.inv Steady.sleepTransportRetry
  exact Triple.or_pre (fun _ _ => id) tryRepair_recovering (tryRepair_stuck hturn)

omit hturn

/-! ### Passes without a preserved page -/

/-- The headset is ready, and no page is preserved. -/
def Ready (s : Lifecycle) (l : Watch) : Prop := Loose s l ∧ s.selected.isSome

theorem Ready.stable : Stable Ready := by
  rintro s s' l l' hs hl ⟨h, hselected⟩
  refine ⟨Loose.stable s s' l l' hs hl h, ?_⟩
  rw [hs.selected hselected]
  exact hselected

theorem Ready.inv {s : Lifecycle} {l : Watch} (h : Ready s l) : Inv s l := .inl h.1

/-- The pass ends well, or raises without a preserved page. -/
def Settles (x : LifecycleM α) : Prop := Spec Ready x (fun _ => Inv) fun _ => Loose

theorem Steady.settles {κ : Failure → Bool} (hx : Steady κ x) : Settles x :=
  (hx.spec Ready.stable).post (fun _ _ _ h => h.inv) fun _ _ _ h => h.1

theorem Settles.after {κ : Failure → Bool} {f : α → LifecycleM β} (hx : Steady κ x)
    (hf : ∀ a, Settles (f a)) : Settles (x >>= f) :=
  hx.andThen Ready.stable hf fun _ _ _ h => h.1

theorem Settles.map {y : β} (hx : Settles x) : Settles (x >>= fun _ => (pure y : LifecycleM β)) :=
  Triple.bind hx fun _ => Triple.pure fun _ _ => id

theorem Settles.ite {condition : Prop} [Decidable condition] {y : LifecycleM α}
    (hx : Settles x) (hy : Settles y) : Settles (if condition then x else y) := by
  split
  · exact hx
  · exact hy

/-- **A failed same-tab CONNECT preserves the page on a repaired transport.** -/
theorem preserveBrowser_settles : Settles (preserveBrowser env config) := by
  refine Settles.after (κ := uncaught) Steady.wallTime fun now => ?_
  refine Settles.after (κ := uncaught) Steady.boundedClientGraceDeadline fun deadline => ?_
  refine Triple.modify fun s l h => .inr (.inl ?_)
  have hloose := h.1
  exact ⟨⟨⟨hloose.noUsb.coturn, hloose.noUsb.signature⟩, rfl, rfl, h.2⟩, rfl, rfl,
    hloose.signature, hloose.lost, hloose.rebuilt⟩

theorem automate_settles : Settles (automate env config) := by
  refine Settles.after (κ := uncaught) Steady.get fun _ => ?_
  refine Settles.after (κ := uncaught) Steady.note fun _ => ?_
  refine Settles.after (κ := uncaught) Steady.stopMonitor fun _ => ?_
  refine Triple.bind (Q := fun _ => Loose) (Triple.modify fun s l h => ?_) fun _ =>
    openPage_spec.post (fun _ _ _ => .inl) fun _ _ _ => id
  exact automating_loose h.1.noUsb h.1.lost h.1.rebuilt

/-- Every exception may leave a program that is not watched. -/
theorem Steady.raiseAny {e : Failure} : Steady (fun _ => true) (Fallible.raise e : LifecycleM α) :=
  Steady.raise fun _ => rfl

theorem observeMetrics_settles {client : Headset} : Settles (observeMetrics env config client) := by
  refine Settles.after (κ := uncaught) Steady.wallTime fun now => ?_
  refine Settles.after (κ := uncaught) Steady.get fun s => ?_
  refine Settles.after (κ := fun _ => true) (Steady.doIf fun _ => ?_) fun _ => ?_
  · refine Steady.bind (Steady.ask rfl fun _ h => nomatch h) fun probe => Steady.doIf fun _ => ?_
    refine Steady.ite (fun _ => Steady.raiseAny) fun _ => ?_
    exact Steady.bind (Steady.modify_core fun _ => rfl) fun _ => Steady.raiseAny
  · refine Settles.ite ?_ (Steady.settles (κ := uncaught) (Steady.publish nofun))
    refine Settles.after (κ := uncaught) (Steady.modify_core fun _ => rfl) fun _ => ?_
    exact Steady.settles (κ := uncaught) (Steady.publish nofun)

theorem observeClient_settles {client : Headset} : Settles (observeClient env config client) := by
  refine Settles.after (κ := uncaught) Steady.get fun s => ?_
  refine Settles.ite Steady.raiseAny.settles ?_
  cases client.terminalEventId with
  | none => exact observeMetrics_settles
  | some event =>
    refine Settles.ite observeMetrics_settles (Settles.ite Steady.raiseAny.settles ?_)
    refine Settles.after (κ := uncaught) Steady.sameTabConnect fun clicked => ?_
    cases clicked with
    | none => exact Steady.settles (κ := uncaught) (Steady.pure ())
    | some clicked =>
      refine Settles.after (κ := uncaught) (Steady.modify_core fun _ => rfl) fun _ => ?_
      exact Triple.doIf (fun _ => preserveBrowser_settles) fun _ _ _ h => h.inv

theorem observeStream_settles : Settles (observeStream env config) := by
  refine Settles.after (κ := uncaught) (Steady.ask rfl fun _ h => nomatch h) fun state => ?_
  refine Settles.after (κ := uncaught) Steady.get fun s => ?_
  cases state.headsets.find? fun headset => some headset.clientId = s.browserClient with
  | none =>
    refine Settles.ite Steady.raiseAny.settles ?_
    exact Settles.after (κ := uncaught) (Steady.modify_core fun _ => rfl) fun _ =>
      Steady.raiseAny.settles
  | some client =>
    refine Settles.after (κ := uncaught) (Steady.look rfl) fun done => ?_
    refine Settles.after (κ := uncaught)
      (Steady.doIf fun _ => Steady.modify_core fun _ => rfl) fun _ => ?_
    refine Settles.after (κ := uncaught) Steady.get fun s => ?_
    refine Settles.after (κ := fun _ => true) (Steady.doIf fun _ => ?_) fun _ =>
      observeClient_settles
    exact Steady.bind Steady.attachExistingMonitor fun attached =>
      Steady.doIf fun _ => Steady.raiseAny

theorem handleCdpTerminalError_settles {banner : String} :
    Settles (handleCdpTerminalError env config banner) := by
  refine Settles.after (κ := uncaught) (Steady.modify_core fun _ => rfl) fun _ => ?_
  refine Settles.after (κ := uncaught) Steady.get fun s => ?_
  refine Settles.ite Steady.raiseAny.settles ?_
  refine Settles.after (κ := uncaught) Steady.sameTabConnect fun clicked => ?_
  match clicked with
  | none => exact Steady.settles (κ := uncaught) (Steady.modify_core fun _ => rfl)
  | some true => exact Steady.settles (κ := uncaught) (Steady.pure ())
  | some false => exact preserveBrowser_settles

include hwifi

/-- **Over Wi-Fi a page is opened without touching USB.** -/
theorem bootstrap_settles : Settles (bootstrap env config) := by
  have hbody : Settles (bootstrapBody env config) := by
    unfold bootstrapBody
    rw [hwifi]
    refine Settles.after (κ := uncaught) (Steady.doIf fun h => nomatch h) fun _ => ?_
    refine Settles.after (κ := uncaught) Steady.prepareDevice fun _ => ?_
    exact automate_settles.map
  refine Settles.after (κ := uncaught) (Steady.modify_core fun _ => rfl) fun _ => ?_
  refine Settles.after (κ := uncaught) (Steady.publish nofun) fun _ => ?_
  refine Triple.bind (Triple.attempt hbody) fun result => ?_
  cases result with
  | ok ended => exact Triple.pure fun _ _ => id
  | error e =>
    cases e with
    | _ => exact Triple.raise fun _ _ => id

theorem dispatch_settles : Settles (dispatch env config) := by
  refine Settles.after (κ := uncaught) Steady.get fun s => ?_
  cases s.pendingCdpTerminalError with
  | some banner =>
    refine Settles.after (κ := uncaught) (Steady.modify_core fun _ => rfl) fun _ => ?_
    exact handleCdpTerminalError_settles.map
  | none =>
    refine Settles.ite observeStream_settles.map (Settles.ite ?_ (bootstrap_settles hwifi))
    exact Settles.map (Steady.settles (Steady.verifyBrowser (κ := fun _ => true) fun _ => rfl))

theorem passRaised_spec {verified : Bool} {e : Failure} :
    Spec Loose (passRaised env config verified e) (fun _ => Inv) fun _ _ l => Ended l := by
  have hloose : ∀ s l, Loose s l → Inv s l := fun _ _ => .inl
  -- A failure that is not a disruption is published, and the pass ends.
  have hfailed : ∀ e, Spec Loose (passFailed env config e) (fun _ => Inv) fun _ _ l => Ended l := by
    intro e
    refine Triple.pre (P := Inv) (Steady.inv ?_) hloose
    refine Steady.bind Steady.get fun s => Steady.bind Steady.stopMonitor fun _ => ?_
    refine Steady.bind (Steady.modify_core fun _ => rfl) fun _ =>
      Steady.bind ?_ fun _ => Steady.sleepInterval
    refine Steady.bind Steady.get fun _ => Steady.ite (fun _ => Steady.publish nofun) fun _ => ?_
    refine Steady.bind (Steady.modify_core fun _ => rfl) fun _ =>
      Steady.bind (Steady.doIf fun _ => Steady.rememberBrowserWakeFailure) fun _ => ?_
    refine Steady.bind Steady.get fun s => Steady.publish ?_
    split
    · exact nofun
    · exact nofun
  cases e with
  | transportDisrupted reason adbReady networkPresent =>
    refine Triple.post (Q := fun _ => Loose) (R := fun _ => Loose)
      (enterTransportRecovery_loose hwifi ?_) (fun _ => hloose) fun _ s l h => (hloose s l h).ended
    exact nofun
  | cancelled => exact Triple.raise fun s l h => (hloose s l h).ended
  | expired => exact Triple.raise fun s l h => (hloose s l h).ended
  | oobAdbError | headsetNotAwake | timeout | osError | exception => exact hfailed _

theorem work_spec : Spec Ready (work env config) (fun _ => Inv) fun _ _ l => Ended l := by
  have hprerequisites : checkUsbPrerequisites env config = pure () := by
    unfold checkUsbPrerequisites
    rw [hwifi]
  refine Steady.andThen (κ := uncaught) Steady.get Ready.stable (fun s => ?_)
    fun _ _ _ h => h.inv.ended
  rw [hprerequisites]
  refine Triple.bind (Triple.attempt (Q := fun _ => Ready) (R := fun _ => Loose)
    (Triple.doIf (fun _ => Triple.pure fun _ _ => id) fun _ _ _ => id)) fun result => ?_
  cases result with
  | error e => exact passRaised_spec hwifi
  | ok _ =>
    refine Triple.bind (Triple.attempt (dispatch_settles hwifi)) fun result => ?_
    cases result with
    | error e => exact passRaised_spec hwifi
    | ok ended =>
      exact Triple.doIf (fun _ => Steady.inv Steady.sleepInterval) fun _ _ _ => id

/-! ### One pass -/

omit hwifi in
/-- An awaited call that the trace is read for. -/
theorem ask_returned {c : Call} (hc : ∀ l reply, Watch.next l (c, .ok reply) =
    some (l.answered c reply)) (hP : Stable P) :
    Spec P (ask env c) (fun reply s l => ∃ l₀, P s l₀ ∧ l = l₀.returned c reply) fun _ => P := by
  refine Triple.bind (Q := fun reply s l => ∃ l₀, P s l₀ ∧ l = l₀.answered c reply) ?_ fun reply => ?_
  · refine Triple.bind (Q := fun reply s l => ∃ l₀, P s l₀ ∧ l = l₀.answered c reply) ?_
      fun reply => ?_
    · exact Triple.call_ok fun s l reply h => ⟨_, hc l reply, l, h, rfl⟩
    · refine Triple.bind (Q := fun _ s l => ∃ l₀, P s l₀ ∧ l = l₀.answered c reply) ?_ fun _ =>
        Triple.pure fun _ _ => id
      refine Triple.modify fun s l h => ?_
      obtain ⟨l₀, h, hl⟩ := h
      refine ⟨l₀, hP s _ l₀ l₀ (Steady.same_of_core ?_) (Kept.refl l₀) h, hl⟩
      cases reply.banner with
      | none => rfl
      | some banner => rfl
  · unfold Watch.answered
    cases reply.failure with
    | none => exact Triple.pure fun _ _ => id
    | some e =>
      refine Triple.raise fun s l h => ?_
      obtain ⟨l₀, h, rfl⟩ := h
      exact hP s s l₀ _ (Same.refl s) (Watch.raised_kept l₀ c e) h

/-- The rules and coturn that do not exist do not change. -/
theorem observePrerequisites_spec {preserving : Bool} (hP : Stable P)
    (hnoUsb : ∀ s l, P s l → s.NoUsb) :
    Spec P (observePrerequisites env config preserving) (fun _ => P) fun _ => P := by
  refine Steady.andThen (κ := uncaught) (Steady.ask rfl fun _ h => nomatch h) hP
    (fun state => ?_) fun _ _ _ => id
  -- Over Wi-Fi no reverse rule is listed.
  have hrules : listReverseRules env config = pure none := by
    unfold listReverseRules
    rw [hwifi]
    rfl
  rw [hrules]
  refine Triple.bind (Q := fun rules s l => P s l ∧ rules = none)
    (Triple.pure fun _ _ h => ⟨h, rfl⟩) fun rules => ?_
  refine Triple.pure_pre (fun _ _ h => h.2) fun hnone => ?_
  subst hnone
  refine Triple.pre (P := P) (Triple.get_bind fun s₀ => ?_) fun _ _ h => h.1
  refine Triple.pure_pre (φ := s₀.NoUsb) (fun s l h => h.2 ▸ hnoUsb s l h.1) fun hs₀ => ?_
  refine Triple.pre (P := P) ?_ fun _ _ h => h.1
  refine Steady.andThen (κ := uncaught) (Steady.look rfl) hP (fun poll => ?_) fun _ _ _ => id
  rw [hs₀.coturn]
  refine Triple.bind (Q := fun _ => P) ?_ fun _ => Triple.modify fun s l h => ?_
  · refine Triple.get_bind fun s₁ => ?_
    refine Triple.pure_pre (φ := s₁.NoUsb) (fun s l h => h.2 ▸ hnoUsb s l h.1) fun hs₁ => ?_
    refine Triple.pre (P := P) (Steady.spec (κ := uncaught) ?_ hP) fun _ _ h => h.1
    cases hold : s₁.prerequisiteSignature with
    | none => exact Steady.pure ()
    | some old =>
      -- So the topology has not changed, and only the host's state can restart the episode.
      have htopology : old.2 = (none, none) := hs₁.signature old hold
      refine Steady.ite (fun _ => Steady.pure ()) fun _ => Steady.ite (fun h => ?_) fun _ =>
        Steady.restartEpisode
      simp [htopology] at h
  · refine hP s _ l l ⟨rfl, rfl, rfl, rfl, id, fun _ => rfl, fun h => ⟨h.coturn, ?_⟩⟩ (Kept.refl l) h
    intro signature hsignature
    cases hsignature
    rfl

theorem connected_ready : Spec Ready (connected env config) (fun _ => Inv) fun _ _ l => Ended l := by
  refine Triple.get_bind fun s₀ => ?_
  refine Triple.pure_pre (φ := s₀.preservingBrowser = false) (fun s l h => ?_) fun hpreserving => ?_
  · rw [← h.2, Lifecycle.preservingBrowser, h.1.1.transportLost]
    rfl
  rw [hpreserving]
  refine Triple.pre (P := Ready) ?_ fun _ _ h => h.1
  have hended : ∀ s l, Ready s l → Ended l := fun _ _ h => h.inv.ended
  refine Triple.bind (Q := fun _ => Ready) (Triple.doIf (fun _ => ?_) fun _ _ _ => id) fun _ => ?_
  · exact (observePrerequisites_spec hwifi Ready.stable fun s l h => h.1.noUsb).post
      (fun _ _ _ => id) fun _ _ _ h => h.inv.ended
  · refine Steady.andThen (κ := uncaught) Steady.episodeExpired Ready.stable (fun expired => ?_)
      fun _ => hended
    refine Steady.andThen (κ := uncaught) Steady.get Ready.stable (fun s => ?_)
      fun _ => hended
    show Spec Ready (if _ then _ else _) _ _
    split
    · refine Triple.pre (P := Inv) (Steady.inv ?_) fun _ _ h => h.inv
      refine Steady.bind Steady.observeExpiredWake fun ended => Steady.doIf fun _ => ?_
      exact Steady.bind (Steady.publish nofun) fun _ => Steady.sleepInterval
    · exact work_spec hwifi

include hturn

theorem connected_held : Spec Held (connected env config) (fun _ => Inv) fun _ _ l => Ended l := by
  refine Triple.get_bind fun s₀ => ?_
  refine Triple.pure_pre (φ := s₀.preservingBrowser = true) (fun s l h => ?_) fun hpreserving => ?_
  · have hp : Preserving s := h.1.elim (fun h => h.1.toPreserving) fun h => h.toPreserving
    rw [← h.2, Lifecycle.preservingBrowser, hp.transportLost, hp.restore]
    rfl
  rw [hpreserving]
  refine Triple.pre (P := Held) ?_ fun _ _ h => h.1
  refine Triple.bind (Q := fun _ => Held) (Triple.doIf (fun _ => ?_) fun _ _ _ => id) fun _ => ?_
  · refine (observePrerequisites_spec hwifi Held.stable fun s l h => ?_).post
      (fun _ _ _ => id) fun _ _ _ h => h.inv.ended
    exact h.elim (fun h => h.1.noUsb) fun h => h.noUsb
  · refine Steady.andThen (κ := uncaught) Steady.episodeExpired Held.stable (fun expired => ?_)
      fun _ _ _ h => h.inv.ended
    show Spec Held (if expired = true then _ else _) _ _
    split
    · exact observeExpired_spec
    · exact preserve_spec hturn

omit hwifi hturn in
theorem selectDevice_spec {devices : AdbDevices} (hP : Stable P) :
    Spec P (selectDevice devices) (fun _ => P) fun _ => P := by
  refine Triple.get_bind fun s₀ => ?_
  show Spec _ (if s₀.selected.isSome = true then _ else _) _ _
  split
  · exact Triple.pure fun _ _ h => h.1
  case isFalse hnone =>
    split
    · exact Triple.pure fun _ _ h => h.1
    · refine Triple.modify fun s l h => ?_
      obtain ⟨h, rfl⟩ := h
      exact hP s _ l l ⟨rfl, rfl, rfl, rfl, id, fun hsome => absurd hsome hnone,
        fun h => ⟨h.coturn, h.signature⟩⟩ (Kept.refl l) h
    · exact Triple.raise fun _ _ h => h.1

omit hwifi hturn in
theorem Steady.noteObservation {devices : AdbDevices} :
    Steady uncaught (OobLifecycle.noteObservation env devices) := by
  refine Steady.bind Steady.get fun _ => Steady.doIf fun _ => ?_
  exact Steady.bind Steady.restartEpisode fun _ => Steady.modify_core fun _ => rfl

/-- The trace follows a pass that began with a preserved page. -/
structure Watched (s : Lifecycle) (l : Watch) : Prop where
  held : Held s l
  watching : l.watching = true
  selected : l.selected = s.selected

omit hwifi hturn in
theorem Held.preserving {s : Lifecycle} {l : Watch} (h : Held s l) : Preserving s :=
  h.elim (fun h => h.1.toPreserving) fun h => h.toPreserving

omit hwifi hturn in
theorem Watched.stable : Stable Watched := fun s s' l l' hs hl h =>
  { held := Held.stable s s' l l' hs hl h.held
    watching := by
      have hwatching := h.watching
      unfold Watch.watching at hwatching ⊢
      rwa [hl.preserving, hl.automating]
    selected := by rw [hl.selected, hs.selected h.held.preserving.selected, h.selected] }

omit hwifi hturn in
theorem Held.losing {s : Lifecycle} {l : Watch} (h : Held s l) : Losing s { l with lost := true } where
  toPreserving := h.preserving
  repair := h.symm.imp (fun h => h.repair) fun h => h.1.signature
  lost := rfl

/-- **The network of a preserved page** is there, or its repair is forgotten. -/
theorem observeNetwork_watched : Spec Watched (observeNetwork env config) (fun _ => Inv)
    fun _ _ l => Ended l := by
  have hstuck : ∀ s l, Stuck s l → Inv s l := fun _ _ h => .inr (.inr h)
  refine Steady.andThen (κ := uncaught) Steady.get Watched.stable (fun s₀ => ?_)
    fun _ _ _ h => h.held.inv.ended
  refine Triple.bind ((ask_returned (fun _ _ => rfl) Watched.stable).post (fun _ _ _ => id)
    fun _ _ _ h => h.held.inv.ended) fun network => ?_
  have hnote : ∀ {κ}, Steady κ (doIf (s₀.lastNetworkState ≠ some network.network) (do
      restartEpisode env
      modify fun s => { s with lastNetworkState := some network.network })) :=
    Steady.doIf fun _ => Steady.bind Steady.restartEpisode fun _ => Steady.modify_core fun _ => rfl
  -- A network that is gone is a loss that the trace shows.
  have hlosing : network.network ≠ .networkPresent → ∀ s l,
      (∃ l₀, Watched s l₀ ∧ l = l₀.returned (.probeHeadsetNetwork s₀.selected) network) →
        Losing s l := by
    rintro hgone s _ ⟨l₀, h, rfl⟩
    have hlost := h.held.losing
    rw [Watch.returned, h.watching, decide_eq_true hgone, Bool.and_true, Bool.or_true]
    exact hlost
  cases hnetwork : network.network with
  | networkPresent =>
    refine Triple.pre (P := Watched) ?_ ?_
    · rw [hnetwork] at hnote
      refine hnote.andThen (κ := uncaught) Watched.stable (fun _ => ?_)
        fun _ _ _ h => h.held.inv.ended
      exact (connected_held hwifi hturn).pre fun _ _ h => h.held
    · rintro s _ ⟨l₀, h, rfl⟩
      rw [Watch.returned, hnetwork]
      simpa using h
  | adbUnavailable =>
    refine Triple.pre (P := Losing) ?_ (hlosing (by rw [hnetwork]; exact nofun))
    rw [hnetwork] at hnote
    refine hnote.andThen (κ := uncaught) Losing.stable (fun _ => ?_) fun _ _ _ h => h.ended
    refine Triple.bind (Q := fun _ => Inv) ?_ fun _ => Steady.inv Steady.sleepTransportRetry
    refine Triple.post (enterTransportRecovery_losing hwifi ?_) (fun _ => hstuck) fun _ _ _ => id
    exact nofun
  | noNetwork =>
    refine Triple.pre (P := Losing) ?_ (hlosing (by rw [hnetwork]; exact nofun))
    rw [hnetwork] at hnote
    refine hnote.andThen (κ := uncaught) Losing.stable (fun _ => ?_) fun _ _ _ h => h.ended
    refine Triple.bind (Q := fun _ => Inv) ?_ fun _ => Steady.inv Steady.sleepTransportRetry
    refine Triple.post (enterTransportRecovery_losing hwifi ?_) (fun _ => hstuck) fun _ _ _ => id
    exact nofun

omit hturn in
theorem observeNetwork_ready : Spec (fun s l => Ready s l ∧ l.watching = false)
    (observeNetwork env config) (fun _ => Inv) fun _ _ l => Ended l := by
  have hstable : Stable fun s l => Ready s l ∧ l.watching = false := by
    rintro s s' l l' hs hl ⟨h, hwatching⟩
    refine ⟨Ready.stable s s' l l' hs hl h, ?_⟩
    unfold Watch.watching at hwatching ⊢
    rwa [hl.preserving, hl.automating]
  have hloose : ∀ s l, Loose s l → Inv s l := fun _ _ => .inl
  have hended : ∀ s l, Ready s l → Ended l := fun _ _ h => h.inv.ended
  refine Steady.andThen (κ := uncaught) Steady.get hstable (fun s₀ => ?_)
    fun _ s l h => hended s l h.1
  refine Triple.bind ((ask_returned (fun _ _ => rfl) hstable).post (fun _ _ _ => id)
    fun _ s l h => hended s l h.1) fun network => ?_
  refine Triple.pre (P := Ready) ?_ ?_
  · refine Steady.andThen (κ := uncaught) (Steady.doIf fun _ => Steady.bind
      Steady.restartEpisode fun _ => Steady.modify_core fun _ => rfl) Ready.stable (fun _ => ?_)
      fun _ => hended
    -- Only a network that is there leads on to the headset.
    cases network.network with
    | networkPresent => exact connected_ready hwifi
    | adbUnavailable | noNetwork =>
      refine Triple.bind (Q := fun _ => Inv) ?_ fun _ => Steady.inv Steady.sleepTransportRetry
      refine Triple.conseq (enterTransportRecovery_loose hwifi ?_) (fun _ _ h => h.1)
        (fun _ => hloose) fun _ s l h => (hloose s l h).ended
      exact nofun
  · rintro s _ ⟨l₀, h, rfl⟩
    rw [Watch.returned, h.2, Bool.false_and, Bool.or_false]
    exact h.1

omit hwifi hturn in
theorem deviceReady_spec (hP : Stable P) (hinv : ∀ s l, P s l → Inv s l)
    (hnetwork : Spec P (observeNetwork env config) (fun _ => Inv) fun _ _ l => Ended l) :
    Spec P (deviceReady env config) (fun _ => Inv) fun _ _ l => Ended l := by
  refine Steady.andThen (κ := uncaught) (Steady.modify_core fun _ => rfl) hP (fun _ => ?_)
    fun _ s l h => (hinv s l h).ended
  refine Steady.andThen (κ := uncaught) Steady.get hP (fun s => ?_)
    fun _ s l h => (hinv s l h).ended
  show Spec P (if _ then _ else _) _ _
  split
  · exact (Steady.inv Steady.sleepTransportRetry).pre hinv
  · exact hnetwork

omit hwifi hturn in
/-- The pass goes on from `P` when the selected headset is ready, and from `P'` when not. -/
theorem choose_spec {devices : AdbDevices} {P' : Lifecycle → Watch → Prop}
    (hready : Spec P (deviceReady env config) (fun _ => Inv) fun _ _ l => Ended l)
    (hwait : Spec P' (waitForAdb env config devices) (fun _ => Inv) fun _ _ l => Ended l)
    {D : Lifecycle → Watch → Prop}
    (hP : ∀ s l, D s l → s.selectedReady devices = true → P s l)
    (hP' : ∀ s l, D s l → s.selectedReady devices = false → P' s l) :
    Spec D (do
      let s ← get
      if s.selectedReady devices then deviceReady env config
      else waitForAdb env config devices) (fun _ => Inv) fun _ _ l => Ended l := by
  refine Triple.get_bind fun s₀ => ?_
  show Spec _ (if s₀.selectedReady devices = true then _ else _) _ _
  split
  case isTrue h => exact hready.pre fun s l hs => hP s l hs.1 (hs.2 ▸ h)
  case isFalse h =>
    exact hwait.pre fun s l hs => hP' s l hs.1 (hs.2 ▸ Bool.eq_false_of_not_eq_true h)

omit hturn in
theorem waitForAdb_loose {devices : AdbDevices} : Spec Loose (waitForAdb env config devices)
    (fun _ => Inv) fun _ _ l => Ended l := by
  have hloose : ∀ s l, Loose s l → Inv s l := fun _ _ => .inl
  refine Steady.andThen (κ := uncaught) (Steady.modify_core fun _ => rfl) Loose.stable
    (fun _ => ?_) fun _ s l h => (hloose s l h).ended
  refine Steady.andThen (κ := uncaught) Steady.get Loose.stable (fun s => ?_)
    fun _ s l h => (hloose s l h).ended
  refine Triple.bind (Q := fun _ => Inv) ?_ fun _ => Steady.inv Steady.sleepTransportRetry
  refine Triple.post (enterTransportRecovery_loose hwifi ?_) (fun _ => hloose)
    fun _ s l h => (hloose s l h).ended
  exact nofun

omit hturn in
theorem waitForAdb_losing {devices : AdbDevices} : Spec Losing (waitForAdb env config devices)
    (fun _ => Inv) fun _ _ l => Ended l := by
  refine Steady.andThen (κ := uncaught) (Steady.modify_core fun _ => rfl) Losing.stable
    (fun _ => ?_) fun _ _ _ h => h.ended
  refine Steady.andThen (κ := uncaught) Steady.get Losing.stable (fun s => ?_)
    fun _ _ _ h => h.ended
  refine Triple.bind (Q := fun _ => Inv) ?_ fun _ => Steady.inv Steady.sleepTransportRetry
  refine Triple.post (enterTransportRecovery_losing hwifi ?_) (fun _ _ _ h => .inr (.inr h))
    fun _ _ _ => id
  exact nofun

/-- The trace does not follow a pass that began without a preserved page. -/
def Free (s : Lifecycle) (l : Watch) : Prop := Loose s l ∧ l.watching = false

omit hwifi hturn in
theorem Free.stable : Stable Free := by
  rintro s s' l l' hs hl ⟨h, hwatching⟩
  refine ⟨Loose.stable s s' l l' hs hl h, ?_⟩
  unfold Watch.watching at hwatching ⊢
  rwa [hl.preserving, hl.automating]

omit hwifi hturn in
/-- The beginning of a pass. -/
theorem markPass_spec {s₀ : Lifecycle} : Spec (fun s l => Inv s l ∧ s = s₀)
    (mark env (.pass s₀.preservingBrowser s₀.selected)) (fun _ s l => Free s l ∨ Watched s l)
    fun _ _ _ => False := by
  refine Triple.bind (Q := fun _ s l => Free s l ∨ Watched s l) ?_ fun _ => Triple.pure fun _ _ => id
  refine Triple.call_ok fun s l reply h => ⟨_, rfl, ?_⟩
  obtain ⟨h, rfl⟩ := h
  rcases h with h | h | h
  · refine .inl ⟨⟨h.noUsb, h.transportLost, h.signature, h.lost, h.rebuilt⟩, ?_⟩
    simp [Watch.observe, Watch.watching, Lifecycle.preservingBrowser, h.transportLost]
  · have hwatching : s.preservingBrowser = true := by
      simp [Lifecycle.preservingBrowser, h.transportLost, h.restore]
    refine .inr ⟨.inl ⟨⟨h.toPreserving, h.repair, h.deadline, h.signature, h.lost, h.rebuilt⟩, ?_⟩,
      ?_, rfl⟩
    · simp [Watch.observe, Watch.watching, hwatching]
    · simp [Watch.observe, Watch.watching, hwatching]
  · have hwatching : s.preservingBrowser = true := by
      simp [Lifecycle.preservingBrowser, h.transportLost, h.restore]
    refine .inr ⟨.inr ⟨h.toPreserving, h.repair, h.disturbed⟩, ?_, rfl⟩
    simp [Watch.observe, Watch.watching, hwatching]

/-- What a pass does once it has begun. -/
def passBody (env : List Happening → Reply) (config : Config) : LifecycleM Unit := do
  let reply ← ask env .enumerateAdbDevices
  selectDevice reply.devices
  noteObservation env reply.devices
  let s ← get
  if s.selectedReady reply.devices then deviceReady env config
  else waitForAdb env config reply.devices

omit hturn in
theorem passBody_free : Spec Free (passBody env config) (fun _ => Inv) fun _ _ l => Ended l := by
  have hended : ∀ s l, Free s l → Ended l := fun s l h => Inv.ended (s := s) (.inl h.1)
  refine Triple.bind (Q := fun _ => Free) ?_ fun reply => ?_
  · refine (ask_returned (fun _ _ => rfl) Free.stable).post ?_ fun _ => hended
    rintro reply s _ ⟨l₀, h, rfl⟩
    rw [Watch.returned, h.2, Bool.false_and, Bool.or_false]
    exact h
  · refine Triple.bind ((selectDevice_spec Free.stable).post (fun _ _ _ => id) fun _ => hended)
      fun _ => Steady.noteObservation.andThen Free.stable (fun _ => ?_) fun _ => hended
    have hstable : Stable fun s l => Ready s l ∧ l.watching = false := by
      rintro s s' l l' hs hl ⟨h, hwatching⟩
      exact ⟨Ready.stable s s' l l' hs hl h, (Free.stable s s' l l' hs hl ⟨h.1, hwatching⟩).2⟩
    refine choose_spec (deviceReady_spec hstable (fun _ _ h => h.1.inv) (observeNetwork_ready hwifi))
      (waitForAdb_loose hwifi) (fun s l h hready => ⟨⟨h.1, ?_⟩, h.2⟩) fun s l h _ => h.1
    cases hselected : s.selected with
    | none => simp [Lifecycle.selectedReady, hselected] at hready
    | some serial => rfl

theorem passBody_watched : Spec Watched (passBody env config) (fun _ => Inv)
    fun _ _ l => Ended l := by
  refine Triple.bind ((ask_returned (fun _ _ => rfl) Watched.stable).post (fun _ _ _ => id)
    fun _ _ _ h => h.held.inv.ended) fun reply => ?_
  -- Either the selected headset is ready, or the trace shows that it is not.
  refine Triple.pre (P := fun s l => (Watched s l ∧ s.selectedReady reply.devices = true) ∨
    (Losing s l ∧ s.selectedReady reply.devices = false)) ?_ ?_
  · have hstable : Stable fun s l => (Watched s l ∧ s.selectedReady reply.devices = true) ∨
        (Losing s l ∧ s.selectedReady reply.devices = false) := by
      rintro s s' l l' hs hl h
      refine h.imp (fun h => ⟨Watched.stable s s' l l' hs hl h.1, ?_⟩)
        fun h => ⟨Losing.stable s s' l l' hs hl h.1, ?_⟩
      · rw [Lifecycle.selectedReady, hs.selected h.1.held.preserving.selected]
        exact h.2
      · rw [Lifecycle.selectedReady, hs.selected h.1.selected]
        exact h.2
    have hended : ∀ s l, (Watched s l ∧ s.selectedReady reply.devices = true) ∨
        (Losing s l ∧ s.selectedReady reply.devices = false) → Ended l := fun s l h =>
      h.elim (fun h => h.1.held.inv.ended) fun h => h.1.ended
    refine Triple.bind ((selectDevice_spec hstable).post (fun _ _ _ => id) fun _ => hended)
      fun _ => Steady.noteObservation.andThen hstable (fun _ => ?_) fun _ => hended
    refine choose_spec (deviceReady_spec Watched.stable (fun _ _ h => h.held.inv)
      (observeNetwork_watched hwifi hturn)) (waitForAdb_losing hwifi) ?_ ?_
    · rintro s l (h | h) hready
      · exact h.1
      · rw [h.2] at hready
        cases hready
    · rintro s l (h | h) hready
      · rw [h.2] at hready
        cases hready
      · exact h.1
  · rintro s _ ⟨l₀, h, rfl⟩
    have hreturned : l₀.returned .enumerateAdbDevices reply =
        { l₀ with lost := l₀.lost || !s.selectedReady reply.devices } := by
      rw [Watch.returned, h.watching, Lifecycle.selectedReady, ← h.selected, Bool.true_and]
    rw [hreturned]
    cases hready : s.selectedReady reply.devices with
    | true =>
      refine .inl ⟨?_, rfl⟩
      rw [Bool.not_true, Bool.or_false]
      exact h
    | false =>
      refine .inr ⟨?_, rfl⟩
      rw [Bool.not_false, Bool.or_true]
      exact h.held.losing

/-- **One pass** keeps the invariant. -/
theorem pass_spec : Spec Inv (pass env config) (fun _ => Inv) fun _ _ l => Ended l := by
  refine Triple.get_bind fun s₀ => ?_
  refine Triple.bind (markPass_spec.post (fun _ _ _ => id) fun _ _ _ h => h.elim) fun _ => ?_
  exact Triple.or_pre (fun _ _ => id) (passBody_free hwifi) (passBody_watched hwifi hturn)

theorem passes_spec (n : ℕ) : Spec Inv (passes env config n) (fun _ => Inv)
    fun _ _ l => Ended l := by
  induction n with
  | zero => exact Triple.pure fun _ _ => id
  | succ n ih => exact Triple.bind ih fun _ => pass_spec hwifi hturn

omit hturn in
theorem cleanup_spec : Spec (fun _ l => Ended l) (cleanup env config) (fun _ _ l => Ended l)
    fun _ _ l => Ended l := by
  have hstable : Stable fun (_ : Lifecycle) l => Ended l := by
    intro s s' l l' _ hl h hlost hfailed
    rw [hl.rebuilt]
    refine h (hl.lost ▸ hlost) (Bool.eq_false_of_not_eq_true fun hf => ?_)
    rw [hl.failed hf] at hfailed
    cases hfailed
  have hports : config.ownedPorts = [] := by
    unfold Config.ownedPorts
    rw [hwifi]
  refine Steady.spec (κ := uncaught) ?_ hstable
  refine Steady.bind Steady.stopMonitor fun _ => Steady.bind ?_ fun _ => Steady.bind ?_ fun _ => ?_
  · refine Steady.bind Steady.get fun _ => Steady.doIf fun _ => ?_
    exact Steady.bind (Steady.swallow (κ := fun _ => true) (Steady.perform rfl fun _ _ => rfl))
      fun _ => Steady.pure ()
  · refine Steady.bind ?_ fun _ => Steady.perform rfl fun _ h => nomatch h
    refine Steady.bind Steady.get fun _ => Steady.doIf fun _ => ?_
    rw [hports]
    exact Steady.bind (Steady.observe rfl) fun _ => Steady.pure ()
  · exact Steady.bind Steady.get fun _ => Steady.doIf fun _ =>
      Steady.perform rfl fun _ h => nomatch h

/-- **The whole task** keeps the invariant, and what it leaves when it ends. -/
theorem run_spec (n : ℕ) : Spec Inv (run env config n) (fun _ => Inv) fun _ _ l => Ended l := by
  refine Triple.bind (Triple.attempt (Q := fun _ => Inv) (R := fun _ _ l => Ended l) ?_)
    fun result => ?_
  · refine Triple.get_bind fun s₀ => Triple.pre (P := Inv) ?_ fun _ _ h => h.1
    refine Triple.bind (Q := fun _ => Inv) ?_ fun _ => passes_spec hwifi hturn n
    exact Triple.doIf (fun _ => Steady.inv (Steady.publish nofun)) fun _ _ _ => id
  · cases result with
    | ok _ => exact Triple.pure fun _ _ => id
    | error e =>
      exact Triple.bind (cleanup_spec hwifi) fun _ => Triple.raise fun _ _ => id

end Passes

/-! ### Every run -/

theorem Watch.answered_rebuilt (l : Watch) (c : Call) (reply : Reply) :
    (l.answered c reply).rebuilt = l.rebuilt := by
  unfold Watch.answered
  cases reply.failure with
  | some e => rfl
  | none =>
    cases c with
    | _ => rfl

/-- Only an entry into `_rebuild_usb` is counted as one. -/
theorem Watch.observe_rebuilt {l : Watch} {event : Happening}
    (h : (l.observe event).rebuilt = false) : l.rebuilt = false ∧ event.1 ≠ .rebuildUsb := by
  obtain ⟨c, answer⟩ := event
  cases c with
  | rebuildUsb => cases h
  | pass => exact ⟨h, nofun⟩
  | publish health stage =>
    refine ⟨?_, nofun⟩
    cases answer with
    | error e => exact h
    | ok reply =>
      rw [Watch.observe, Watch.answered_rebuilt] at h
      exact h
  | _ =>
    refine ⟨?_, nofun⟩
    cases answer with
    | error e => exact h
    | ok reply => exact (Watch.answered_rebuilt _ _ reply).symm.trans h

/-- What an accepted trace says. -/
theorem accepts_of {events : List Happening} {l : Watch}
    (h : Monitor.Accepts Watch.next Watch.init events l) :
    l = Watch.of events ∧ (l.rebuilt = false → ∀ event ∈ events, event.1 ≠ .rebuildUsb) := by
  refine Monitor.induction (P := fun events l => l = Watch.of events ∧
    (l.rebuilt = false → ∀ event ∈ events, event.1 ≠ .rebuildUsb)) ⟨rfl, by simp⟩ ?_ h
  rintro t l₁ event l₂ ⟨hl₁, hbefore⟩ hnext
  have hl₂ : l₂ = l₁.observe event := by
    unfold Watch.next at hnext
    split at hnext
    · cases hnext
    · exact (Option.some.inj hnext).symm
  subst hl₂
  refine ⟨?_, fun hrebuilt => ?_⟩
  · rw [hl₁, Watch.of, Watch.of, List.foldl_append]
    rfl
  · obtain ⟨hl, hevent⟩ := Watch.observe_rebuilt hrebuilt
    intro event' hmem
    rcases List.mem_append.mp hmem with hmem | hmem
    · exact hbefore hl event' hmem
    · rw [List.mem_singleton.mp hmem]
      exact hevent

theorem touchesUsb_of_accepts {events : List Happening} {l : Watch}
    (h : Monitor.Accepts Watch.next Watch.init events l) :
    ∀ event ∈ events, event.1.touchesUsb = false := by
  refine fun event hevent => Bool.eq_false_of_not_eq_true ?_
  refine Monitor.never (P := fun _ => True) (Q := fun event : Happening => event.1.touchesUsb = true)
    trivial (fun l₁ event l₂ _ hnext => ⟨trivial, fun htouches => ?_⟩) h event hevent
  rw [Watch.next, if_pos htouches] at hnext
  cases hnext

theorem Inv.init (androidSerial : Option String) (now : ℚ) :
    Inv (Lifecycle.init androidSerial now) Watch.init :=
  .inl ⟨⟨rfl, nofun⟩, rfl, rfl, rfl, rfl⟩

/-- **Recovery over Wi-Fi.**  No run touches a reverse rule or starts coturn.  As long as no pass
that began with a preserved page saw its transport lost or a helper fail, `_rebuild_usb` is not
entered.  Once such a pass saw the transport lost, the page is preserved for good. -/
theorem wifi_recovery (env : List Happening → Reply) (config : Config)
    (hwifi : config.usbLocal = false) (hturn : config.turnPort = none)
    (androidSerial : Option String) (now : ℚ) (n : ℕ) :
    let outcome := run env config n ⟨Lifecycle.init androidSerial now, []⟩
    (∀ event ∈ outcome.2.events, event.1.touchesUsb = false) ∧
      (Undisturbed outcome.2.events → ∀ event ∈ outcome.2.events, event.1 ≠ .rebuildUsb) ∧
      (outcome.1 = .ok () → (Watch.of outcome.2.events).lost = true →
        outcome.2.state.preservingBrowser = true) := by
  have hrun := @run_spec env _ hwifi hturn n ⟨Lifecycle.init androidSerial now, []⟩
    ⟨Watch.init, rfl, Inv.init androidSerial now⟩
  unfold Fallible.wp at hrun
  intro outcome
  have houtcome : run env config n ⟨Lifecycle.init androidSerial now, []⟩ = outcome := rfl
  -- The run is only known through its monitor from here.
  clear_value outcome
  rw [houtcome] at hrun
  rcases outcome with ⟨e | a, w⟩
  · obtain ⟨l, haccepts, hended⟩ := hrun
    obtain ⟨rfl, hrebuilt⟩ := accepts_of haccepts
    refine ⟨touchesUsb_of_accepts haccepts, fun hundisturbed => ?_, nofun⟩
    exact hrebuilt (hended hundisturbed.1 hundisturbed.2)
  · obtain ⟨l, haccepts, hinv⟩ := hrun
    obtain ⟨rfl, hrebuilt⟩ := accepts_of haccepts
    refine ⟨touchesUsb_of_accepts haccepts, fun hundisturbed => ?_, fun _ hlost => ?_⟩
    · exact hrebuilt (hinv.ended hundisturbed.1 hundisturbed.2)
    · rcases hinv with h | h | h
      · rw [h.lost] at hlost
        cases hlost
      · rw [h.lost] at hlost
        cases hlost
      · rw [Lifecycle.preservingBrowser, h.transportLost, h.restore]
        rfl

/-! ### A headset that goes away and comes back -/

/-- The page, with a terminal stream. -/
def page : Headset where
  clientId := "page"
  streaming := false
  streamPhase := some "terminal"
  terminalEventId := some "e1"
  lastMetricsAt := none

/-- The headset is ready and on its network, and the page reports. -/
def wellReply : Reply where
  failure := none
  banner := none
  devices := ⟨[("headset", "device")], ""⟩
  network := .networkPresent
  diagnostic := ""
  headsets := [page]
  report := some page
  flag := false
  missingPorts := []
  rules := none
  exitCode := none
  speed := none
  time := 0

def wifiConfig : Config where
  usbLocal := false
  turnPort := none
  resolvedPort := 48322
  usbBackendPort := 48323
  usbHealthPolicy := .warn
  metricsStaleSec := 5
  timeoutSec := 60
  intervalSec := 5
  clientReconnectEnabled := true
  clientReconnectMaxAttempts := 10
  clientReconnectDelayMs := 3000

/-- The same-tab click fails, and ADB loses the headset at the next look. -/
def clickFailsEnv (losesHeadset : Bool) : List Happening → Reply := fun events =>
  if events.length = 42 then { wellReply with failure := some .oobAdbError }
  else if losesHeadset && events.length = 47 then { wellReply with devices := ⟨[], ""⟩ }
  else wellReply

/-- A page whose headset went away after a failed click: `_rebuild_usb` is entered over Wi-Fi. -/
theorem lost_page_rebuilds_usb :
    Call.rebuildUsb ∈ (run (clickFailsEnv true) wifiConfig 5
      ⟨Lifecycle.init (some "headset") 0, []⟩).2.events.map Prod.fst := by
  decide +kernel

/-- The same page, when its headset stays. -/
theorem kept_page_avoids_usb :
    let outcome := run (clickFailsEnv false) wifiConfig 5 ⟨Lifecycle.init (some "headset") 0, []⟩
    Undisturbed outcome.2.events ∧ outcome.2.state.preservingBrowser = true ∧
      ∀ event ∈ outcome.2.events, event.1 ≠ .rebuildUsb := by
  have hrun := wifi_recovery (clickFailsEnv false) wifiConfig rfl rfl (some "headset") 0 5
  have hundisturbed : Undisturbed (run (clickFailsEnv false) wifiConfig 5
      ⟨Lifecycle.init (some "headset") 0, []⟩).2.events := by
    decide +kernel
  refine ⟨hundisturbed, ?_, hrun.2.1 hundisturbed⟩
  decide +kernel

end OobLifecycle
