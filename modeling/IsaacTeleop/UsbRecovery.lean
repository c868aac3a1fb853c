/-
Recovery over USB.

With `usb_local`, a lost transport preserves the page that survives in the headset.  The
browser is relaunched only when USB was rebuilt, the grace of the page is over and the episode
is not; the grace is a deadline that each repair and each dispatched click computes anew.

* `Course` — what the trace says about repairs, episodes and clicks;
* `Calm` — steps that change nothing of this;
* `Tracked` — what the state knows about the trace;
* `pass_tracked`, `run_tracked` — one pass, and the whole task;
* `relaunch_after_grace` — every run, for every environment.
-/
import IsaacTeleop.OobLifecycle

open Observed

namespace OobLifecycle

/-! ### What the trace says -/

structure Course where
  /-- The current pass began with a preserved page. -/
  preserving : Bool
  /-- A pass began with a preserved page, and no fresh stream was seen since. -/
  recovering : Bool
  /-- USB was rebuilt, in this pass or while the page is preserved, and no disruption or failure
  made the repair void. -/
  repaired : Bool
  /-- The timeout of the episode was seen to be over. -/
  expired : Bool
  /-- The last reading of the clock. -/
  clock : Option ℚ
  /-- No reading of the clock was before an earlier one. -/
  forward : Bool
  /-- The keys of the same-tab clicks that the headset's sleep did not refuse. -/
  spent : List ClickKey
  deriving DecidableEq, Repr

def Course.init : Course where
  preserving := false
  recovering := false
  repaired := false
  expired := false
  clock := none
  forward := true
  spent := []

def Course.noted (l : Course) : Note → Course
  | .episodeStarted => { l with expired := false }
  | .episodeExpired => { l with expired := true }
  | .usbRebuilt => { l with repaired := true }
  | .repairForgotten => { l with repaired := false }
  | .streamResumed => { l with recovering := false }
  | .automate .. => l
  | .sameTabConnect key => { l with spent := key :: l.spent }
  | .headsetAsleep key => { l with spent := l.spent.erase key }

def Course.began (l : Course) (preserving : Bool) : Course :=
  { l with
    preserving
    recovering := l.recovering || preserving
    repaired := l.repaired && l.preserving && preserving }

def Course.read (l : Course) (now : ℚ) : Course :=
  { l with clock := some now, forward := l.forward && l.clock.all fun t => t ≤ now }

/-- What one event adds. -/
def Course.observe (l : Course) : Happening → Course
  | (.note n, _) => l.noted n
  | (.pass preserving _, _) => l.began preserving
  | (.rebuildUsb, _) => { l with repaired := false }
  | (.clock, .ok reply) => l.read reply.time
  | _ => l

/-- What a trace says. -/
def Course.of (events : List Happening) : Course := events.foldl Course.observe Course.init

/-- The browser may be relaunched: USB is repaired, the episode was not seen to be over, and for
a page that is preserved, or was and did not stream since, the deadline is over. -/
def Course.permits (l : Course) (preserving : Bool) (deadline : Option ℚ) : Bool :=
  l.repaired && !l.expired && (!preserving || deadline.isSome) &&
    (!(preserving || l.recovering) || deadline.all fun d => l.clock.any fun t => d ≤ t)

/-- The readings of the clock. -/
def readings (events : List Happening) : List ℚ :=
  events.filterMap fun
    | (.clock, .ok reply) => some reply.time
    | _ => none

/-- How often a same-tab CONNECT with this key was attempted. -/
def attempts (key : ClickKey) (events : List Happening) : ℕ :=
  events.countP fun event => event.1 = .note (.sameTabConnect key)

/-- How often it was refused because the headset was asleep. -/
def refusals (key : ClickKey) (events : List Happening) : ℕ :=
  events.countP fun event => event.1 = .note (.headsetAsleep key)

/-! ### The monitor -/

/-- What must not happen: a relaunch that is not permitted, as long as the clock only went forward,
and a second click with a spent key. -/
def Course.refuses (l : Course) : Call → Bool
  | .note (.automate preserving deadline) => l.forward && !l.permits preserving deadline
  | .note (.sameTabConnect key) => key ∈ l.spent
  | _ => false

def Course.next (l : Course) (event : Happening) : Option Course :=
  if l.refuses event.1 then none else some (l.observe event)

abbrev Follows (P : Lifecycle → Course → Prop) {α : Type} (x : LifecycleM α)
    (Q : α → Lifecycle → Course → Prop) (R : Failure → Lifecycle → Course → Prop) : Prop :=
  Triple Course.next Course.init P x Q R

/-- What neither a calm step of the state nor of the trace changes. -/
def shape (s : Lifecycle) (l : Course) :
    (Bool × Option ℚ × Option ℚ) × Bool × Bool × Bool :=
  ((s.preservingBrowser, s.repairStartedAt, s.clientGraceDeadline),
    l.preserving, l.recovering, l.repaired)

/-- A step that changes nothing of the preservation, the repair and its deadline.  It may read
the clock and begin another episode, and it may use a click key. -/
structure Calm (s : Lifecycle) (l : Course) (s' : Lifecycle) (l' : Course) : Prop where
  shape : shape s' l' = shape s l
  keys : l.spent = s.softClickKeys → l'.spent = s'.softClickKeys
  forward : l'.forward = true → l.forward = true
  clock : l'.forward = true → ∀ t, l.clock = some t → ∃ t', l'.clock = some t' ∧ t ≤ t'
  expired : l'.expired = true → l.expired = true ∧ s'.episodeStart = s.episodeStart

/-- A calm step that leaves the page's progress alone. -/
structure Quiet (s : Lifecycle) (l : Course) (s' : Lifecycle) (l' : Course) : Prop
    extends Calm s l s' l' where
  ready : s'.browserReady = s.browserReady
  dispatched : s'.connectDispatched = s.connectDispatched

/-- Nothing that a calm step may change makes `P` false. -/
def Lasting (P : Lifecycle → Course → Prop) : Prop :=
  ∀ s l s' l', Calm s l s' l' → P s l → P s' l'

/-- A program of calm steps. -/
abbrev IsCalm {α : Type} (x : LifecycleM α) : Prop := Keeps Course.next Course.init Calm x

/-- A program of quiet steps. -/
abbrev IsQuiet {α : Type} (x : LifecycleM α) : Prop := Keeps Course.next Course.init Quiet x

/-- The fields that a calm step of the state leaves alone. -/
def still (s : Lifecycle) : (Bool × Bool × Option ℚ × Option ℚ) × ℚ × List ClickKey :=
  ((s.transportLost, s.restoreExistingBrowser, s.repairStartedAt, s.clientGraceDeadline),
    s.episodeStart, s.softClickKeys)

theorem Calm.of_still {s s' : Lifecycle} (l : Course) (h : still s' = still s) :
    Calm s l s' l := by
  simp only [still, Prod.mk.injEq] at h
  obtain ⟨⟨hlost, hrestore, hrepair, hdeadline⟩, hstart, hkeys⟩ := h
  refine ⟨?_, fun h => h.trans hkeys.symm, id, fun _ t ht => ⟨t, ht, le_refl t⟩,
    fun h => ⟨h, hstart⟩⟩
  simp only [OobLifecycle.shape, Lifecycle.preservingBrowser, hlost, hrestore, hrepair, hdeadline]

theorem Calm.refl (s : Lifecycle) (l : Course) : Calm s l s l := .of_still l rfl

/-- Calls that the trace is not read for. -/
def Call.Unread : Call → Prop
  | .note _ | .pass .. | .rebuildUsb | .clock => False
  | _ => True

instance (c : Call) : Decidable c.Unread := by
  cases c <;> unfold Call.Unread <;> infer_instance

theorem Course.next_unread {c : Call} (hc : c.Unread) (l : Course)
    (answer : Except Failure Reply) : l.next (c, answer) = some l := by
  cases c with
  | note | pass | rebuildUsb | clock => cases hc
  | _ => rfl

/-- Reading the clock is calm. -/
theorem Calm.read (s : Lifecycle) (l : Course) (now : ℚ) : Calm s l s (l.read now) := by
  refine ⟨rfl, id, fun h => ?_, fun h t ht => ⟨now, rfl, ?_⟩, fun h => ⟨h, rfl⟩⟩
  · simp only [Course.read, Bool.and_eq_true] at h
    exact h.1
  · simp only [Course.read, ht, Option.all_some, Bool.and_eq_true, decide_eq_true_eq] at h
    exact h.2

/-! ### Calm programs -/

namespace IsCalm

variable {env : List Happening → Reply} {config : Config} {α : Type} {x : LifecycleM α}

theorem of_quiet (hx : IsQuiet x) : IsCalm x := hx.mono fun _ _ _ _ h => h.toCalm

theorem set {f : Lifecycle → Lifecycle} (hf : ∀ s, still (f s) = still s) :
    IsCalm (modify f : LifecycleM Unit) :=
  Keeps.modify fun s l => .of_still l (hf s)

theorem swallow (hx : IsCalm x) : IsCalm (OobLifecycle.swallow x) := by
  refine Keeps.bind (Keeps.attempt hx) fun result => ?_
  cases result with
  | ok a => exact Keeps.pure (some a)
  | error e => exact Keeps.ite (fun _ => Keeps.pure none) fun _ => Keeps.raise e

theorem quietLook {c : Call} (hc : c.Unread) : IsQuiet (OobLifecycle.look env c) :=
  Keeps.call_ok fun s l _ => ⟨l, Course.next_unread hc l _, .refl s l, rfl, rfl⟩

theorem quietBanner (banner : Option String) :
    IsQuiet (modify (Lifecycle.onCdpTerminalError banner) : LifecycleM Unit) := by
  refine Keeps.modify fun s l => ?_
  cases banner with
  | none => exact ⟨.refl s l, rfl, rfl⟩
  | some banner => exact ⟨.of_still l rfl, rfl, rfl⟩

theorem quietObserve {c : Call} (hc : c.Unread) : IsQuiet (OobLifecycle.observe env c) :=
  Keeps.bind (quietLook hc) fun reply => Keeps.bind (quietBanner reply.banner) fun _ =>
    Keeps.pure reply

theorem quietAsk {c : Call} (hc : c.Unread) : IsQuiet (OobLifecycle.ask env c) := by
  refine Keeps.bind (quietObserve hc) fun reply => ?_
  cases reply.failure with
  | none => exact Keeps.pure reply
  | some e => exact Keeps.raise e

theorem quietPerform {c : Call} (hc : c.Unread) : IsQuiet (OobLifecycle.perform env c) :=
  Keeps.bind (quietAsk hc) fun _ => Keeps.pure ()

theorem look {c : Call} (hc : c.Unread) : IsCalm (OobLifecycle.look env c) :=
  of_quiet (quietLook hc)

theorem observe {c : Call} (hc : c.Unread) : IsCalm (OobLifecycle.observe env c) :=
  of_quiet (quietObserve hc)

theorem ask {c : Call} (hc : c.Unread) : IsCalm (OobLifecycle.ask env c) := of_quiet (quietAsk hc)

theorem perform {c : Call} (hc : c.Unread) : IsCalm (OobLifecycle.perform env c) :=
  of_quiet (quietPerform hc)

theorem clock : IsCalm (OobLifecycle.clock env) :=
  Keeps.bind (Keeps.call_ok fun s l reply => ⟨l.read reply.time, rfl, .read s l reply.time⟩)
    fun reply => Keeps.pure reply.time

theorem wallTime : IsCalm (OobLifecycle.wallTime env) :=
  Keeps.bind (look trivial) fun reply => Keeps.pure reply.time

/-- A change of the state that is noted: only both together are calm. -/
theorem setNoted {f : Lifecycle → Lifecycle} {n : Note}
    (h : ∀ s l, l.refuses (.note n) = false ∧ Calm s l (f s) (l.noted n)) :
    IsCalm (do modify f; OobLifecycle.note env n) := by
  intro P hP
  refine Triple.bind (Q := fun _ s' l => ∃ s, s' = f s ∧ P s l) (Triple.modify fun s l hs =>
    ⟨s, rfl, hs⟩) fun _ => ?_
  refine Triple.bind (Q := fun _ => P) (Triple.call_ok fun s' l reply hs => ?_) fun _ =>
    Triple.pure fun _ _ => id
  obtain ⟨s, rfl, hs⟩ := hs
  obtain ⟨haccepts, hcalm⟩ := h s l
  refine ⟨l.noted n, ?_, hP _ _ _ _ hcalm hs⟩
  rw [Course.next, haccepts]
  rfl

theorem restartEpisode : IsCalm (OobLifecycle.restartEpisode env) := by
  refine Keeps.bind clock fun now => setNoted fun s l => ⟨rfl, rfl, id, id, ?_, nofun⟩
  exact fun _ t ht => ⟨t, ht, le_refl t⟩

theorem boundedClientGraceDeadline : IsCalm (OobLifecycle.boundedClientGraceDeadline env config) :=
  Keeps.bind clock fun _ => Keeps.bind Keeps.get fun _ => Keeps.pure _

theorem publish {health : Health} {stage : Stage} :
    IsCalm (OobLifecycle.publish env health stage) := by
  refine Keeps.bind Keeps.get fun _ => Keeps.bind (Keeps.doIf fun _ => restartEpisode) fun _ => ?_
  exact Keeps.bind (set fun _ => rfl) fun _ => perform trivial

theorem sleepInterval : IsCalm (OobLifecycle.sleepInterval env config) := perform trivial

theorem sleepTransportRetry : IsCalm (OobLifecycle.sleepTransportRetry env config) :=
  Keeps.bind Keeps.get fun _ => perform trivial

theorem rememberBrowserWakeFailure {e : Failure} :
    IsCalm (OobLifecycle.rememberBrowserWakeFailure env e) := by
  unfold OobLifecycle.rememberBrowserWakeFailure
  cases e with
  | headsetNotAwake => exact set fun _ => rfl
  | timeout => exact Keeps.bind (swallow (ask trivial)) fun _ => set fun _ => rfl
  | _ => exact Keeps.pure ()

theorem observeExpiredWake : IsCalm (OobLifecycle.observeExpiredWake env config) := by
  refine Keeps.bind Keeps.get fun _ => Keeps.ite (fun _ => Keeps.pure false) fun _ => ?_
  refine Keeps.bind (swallow (ask trivial)) fun _ => Keeps.ite (fun _ => ?_) fun _ => ?_
  · exact Keeps.bind (set fun _ => rfl) fun _ => Keeps.bind restartEpisode fun _ => Keeps.pure true
  · exact Keeps.bind publish fun _ => Keeps.bind sleepInterval fun _ => Keeps.pure true

theorem stopMonitor : IsCalm (OobLifecycle.stopMonitor env) := by
  refine Keeps.bind Keeps.get fun _ => Keeps.doIf fun _ => Keeps.bind (observe trivial) fun _ => ?_
  exact Keeps.bind (perform trivial) fun _ => set fun _ => rfl

/-! ### Rules and coturn -/

theorem cleanupOwnedRules : IsCalm (OobLifecycle.cleanupOwnedRules env config) := by
  refine Keeps.bind Keeps.get fun _ => Keeps.doIf fun _ => Keeps.bind (observe trivial) fun _ => ?_
  exact Keeps.forEach fun _ => Keeps.bind (observe trivial) fun _ => Keeps.pure ()

theorem shieldedCleanup : IsCalm (OobLifecycle.shieldedCleanup env config) :=
  Keeps.bind cleanupOwnedRules fun _ => perform trivial

theorem quietStartCoturn {port : ℕ} : IsQuiet (OobLifecycle.startCoturn env port) := by
  refine Keeps.bind Keeps.get fun _ => Keeps.bind (Keeps.doIf fun _ => quietPerform trivial)
    fun _ => Keeps.bind (quietAsk trivial) fun started => ?_
  refine Keeps.bind (Keeps.modify fun s l => ⟨.of_still l rfl, rfl, rfl⟩) fun _ => ?_
  refine Keeps.ite (fun _ => Keeps.raise _) fun _ => ?_
  exact Keeps.bind (quietAsk trivial) fun _ => Keeps.doIf fun _ => Keeps.raise _

theorem quietEnsureCoturn : IsQuiet (OobLifecycle.ensureCoturn env config) := by
  have hstart : ∀ port, IsQuiet (do OobLifecycle.startCoturn env port; pure true) :=
    fun port => Keeps.bind quietStartCoturn fun _ => Keeps.pure true
  unfold OobLifecycle.ensureCoturn
  split
  · refine Keeps.bind Keeps.get fun _ => Keeps.bind (quietLook trivial) fun _ => ?_
    refine Keeps.ite (fun _ => Keeps.bind (quietAsk trivial) fun _ => ?_) fun _ => hstart _
    exact Keeps.ite (fun _ => Keeps.pure false) fun _ => hstart _
  · exact Keeps.pure false

theorem rebuildRules {port : ℕ} : IsCalm (OobLifecycle.rebuildRules env config port) := by
  refine Keeps.bind stopMonitor fun _ => Keeps.bind (perform trivial) fun _ => ?_
  refine Keeps.bind (Keeps.forEach fun _ => perform trivial) fun _ => ?_
  refine Keeps.bind (Keeps.forEach fun _ => Keeps.bind (ask trivial) fun _ =>
    Keeps.doIf fun _ => Keeps.raise _) fun _ => ?_
  refine Keeps.bind (of_quiet quietEnsureCoturn) fun _ => ?_
  refine Keeps.bind (Keeps.forEach fun _ => Keeps.bind (ask trivial) fun _ =>
    Keeps.doIf fun _ => Keeps.raise _) fun _ => ?_
  exact Keeps.bind (ask trivial) fun _ => Keeps.doIf fun _ => Keeps.raise _

theorem quietCheckUsbPrerequisites : IsQuiet (OobLifecycle.checkUsbPrerequisites env config) := by
  unfold OobLifecycle.checkUsbPrerequisites
  split
  · exact Keeps.pure ()
  · refine Keeps.bind (Keeps.attempt quietEnsureCoturn) fun restarted => ?_
    cases restarted with
    | error e => exact Keeps.ite (fun _ => Keeps.raise _) fun _ => Keeps.raise e
    | ok restarted =>
      refine Keeps.bind (quietAsk trivial) fun verification => ?_
      refine Keeps.ite (fun _ => Keeps.raise _) fun _ => ?_
      exact Keeps.ite (fun _ => Keeps.raise _) fun _ => Keeps.doIf fun _ => Keeps.raise _

/-! ### USB health -/

theorem inspectUsbLink : IsCalm (OobLifecycle.inspectUsbLink env) := by
  refine Keeps.bind (Keeps.attempt ?_) fun link => ?_
  · refine Keeps.bind (ask trivial) fun _ => ?_
    exact Keeps.bind (Keeps.doIf fun _ => Keeps.raise _) fun _ => ask trivial
  · cases link with
    | ok link => exact Keeps.pure link.speed
    | error e => exact Keeps.ite (fun _ => Keeps.pure none) fun _ => Keeps.raise e

theorem checkUsbLink : IsCalm (OobLifecycle.checkUsbLink env) := by
  refine Keeps.bind publish fun _ => Keeps.bind inspectUsbLink fun _ => ?_
  exact Keeps.bind (set fun _ => rfl) fun _ => publish

theorem confirmUsbAwake : IsCalm (OobLifecycle.confirmUsbAwake env) := by
  refine Keeps.bind (set fun _ => rfl) fun _ => Keeps.bind publish fun _ => ?_
  refine Keeps.bind (Keeps.attempt (perform trivial)) fun result => ?_
  cases result with
  | error e => exact Keeps.bind (set fun _ => rfl) fun _ => Keeps.raise e
  | ok _ => exact set fun _ => rfl

theorem checkUsbTransfer : IsCalm (OobLifecycle.checkUsbTransfer env) := by
  refine Keeps.bind Keeps.get fun _ => Keeps.ite (fun _ => Keeps.raise _) fun _ => ?_
  refine Keeps.bind publish fun _ => Keeps.bind (Keeps.attempt (ask trivial)) fun result => ?_
  cases result with
  | ok transfer => exact set fun _ => rfl
  | error e =>
    refine Keeps.ite (fun _ => set fun _ => rfl) fun _ => ?_
    exact Keeps.bind (set fun _ => rfl) fun _ => Keeps.raise e

/-! ### Pages -/

theorem prepareDevice : IsCalm (OobLifecycle.prepareDevice env) := by
  refine Keeps.bind Keeps.get fun _ => Keeps.bind (Keeps.doIf fun _ => ?_) fun _ => ?_
  · exact Keeps.bind (perform trivial) fun _ => set fun _ => rfl
  · refine Keeps.bind (perform trivial) fun _ => Keeps.doIf fun _ => ?_
    exact Keeps.bind (swallow (perform trivial)) fun _ => set fun _ => rfl

theorem onClientLoaded : IsCalm (OobLifecycle.onClientLoaded env) :=
  Keeps.bind (set fun _ => rfl) fun _ => publish

theorem onDispatched : IsCalm (OobLifecycle.onDispatched env) :=
  Keeps.bind wallTime fun _ => set fun _ => rfl

theorem clickConnect {helper : Helper} {loaded dispatched published : LifecycleM Unit}
    (hloaded : IsCalm loaded) (hdispatched : IsCalm dispatched) (hpublished : IsCalm published) :
    IsCalm (OobLifecycle.clickConnect env helper loaded dispatched published) := by
  refine Keeps.bind (perform trivial) fun _ => Keeps.bind hloaded fun _ => ?_
  refine Keeps.bind (perform trivial) fun _ => Keeps.bind hdispatched fun _ => ?_
  exact Keeps.bind (Keeps.tryFinally (perform trivial) hpublished) fun _ => perform trivial

theorem verifyBrowser : IsCalm (OobLifecycle.verifyBrowser env config) := by
  refine Keeps.bind Keeps.get fun s => Keeps.bind (look trivial) fun _ => ?_
  refine Keeps.ite (fun _ => Keeps.ite (fun _ => Keeps.raise _) fun _ => Keeps.raise _) fun _ => ?_
  cases s.browserProbeAfter with
  | none => exact Keeps.raise _
  | some after =>
    refine Keeps.bind (ask trivial) fun probe => ?_
    cases probe.report with
    | none => exact publish
    | some report => exact Keeps.bind (set fun _ => rfl) fun _ => publish

theorem openPage : IsCalm (OobLifecycle.openPage env config) := by
  refine Keeps.bind wallTime fun _ => Keeps.bind (set fun _ => rfl) fun _ => ?_
  refine Keeps.bind publish fun _ => ?_
  refine Keeps.bind (clickConnect onClientLoaded onDispatched publish) fun _ => ?_
  refine Keeps.bind (set fun _ => rfl) fun _ => Keeps.bind Keeps.get fun _ => ?_
  refine Keeps.bind (Keeps.doIf fun _ => Keeps.bind onDispatched fun _ => publish) fun _ => ?_
  exact Keeps.bind publish fun _ => verifyBrowser

theorem attachExistingMonitor : IsCalm (OobLifecycle.attachExistingMonitor env) := by
  refine Keeps.bind Keeps.get fun _ => Keeps.bind (look trivial) fun _ => ?_
  refine Keeps.ite (fun _ => Keeps.pure true) fun _ => Keeps.bind (set fun _ => rfl) fun _ => ?_
  refine Keeps.bind (Keeps.attempt (perform trivial)) fun result => ?_
  cases result with
  | ok _ => exact Keeps.bind (set fun _ => rfl) fun _ => Keeps.pure true
  | error e => exact Keeps.ite (fun _ => Keeps.pure false) fun _ => Keeps.raise e

theorem publishSameTabDispatched : IsCalm (OobLifecycle.publishSameTabDispatched env) :=
  Keeps.bind Keeps.get fun _ => Keeps.bind (Keeps.doIf fun _ => onClientLoaded) fun _ => publish

end IsCalm

/-! ### What the state knows about the trace -/

/-- Between passes, and while one is under way. -/
structure Tracked (config : Config) (s : Lifecycle) (l : Course) : Prop where
  keys : l.spent = s.softClickKeys
  /-- A repair that the state keeps was made while this page is preserved. -/
  repaired : s.preservingBrowser = true → s.repairStartedAt.isSome →
    l.repaired = true ∧ l.preserving = true
  /-- Once a fresh page was opened, no deadline is in force. -/
  released : l.recovering = true → s.preservingBrowser = false → s.clientGraceDeadline = none
  expired : l.forward = true → l.expired = true →
    ∃ t, l.clock = some t ∧ s.episodeStart + config.timeoutSec ≤ t

/-- The episode was not seen to be over, as far as the clock goes forward. -/
def InTime (l : Course) : Prop := l.forward = true → l.expired = false

/-- The page is preserved or not, as it was when the pass began. -/
structure Began (config : Config) (preserving : Bool) (s : Lifecycle) (l : Course) : Prop
    extends Tracked config s l where
  began : l.preserving = preserving
  preservingBrowser : s.preservingBrowser = preserving

/-- The page is preserved, within the episode. -/
structure Preserved (config : Config) (s : Lifecycle) (l : Course) : Prop
    extends Tracked config s l where
  preserving : s.preservingBrowser = true
  began : l.preserving = true
  inTime : InTime l

/-- The page is preserved on a repaired transport, with this deadline. -/
structure Graced (config : Config) (deadline : ℚ) (s : Lifecycle) (l : Course) : Prop
    extends Preserved config s l where
  repair : s.repairStartedAt.isSome
  inForce : s.clientGraceDeadline = some deadline

/-- The deadline is over. -/
structure Due (config : Config) (deadline : ℚ) (s : Lifecycle) (l : Course) : Prop
    extends Graced config deadline s l where
  passed : l.forward = true → ∃ t, l.clock = some t ∧ deadline ≤ t

section Lasting

variable {config : Config} {deadline : ℚ} {s s' : Lifecycle} {l l' : Course}

theorem Calm.preservingBrowser (h : Calm s l s' l') :
    s'.preservingBrowser = s.preservingBrowser :=
  congrArg (fun shape => shape.1.1) h.shape

theorem Calm.repairStartedAt (h : Calm s l s' l') : s'.repairStartedAt = s.repairStartedAt :=
  congrArg (fun shape => shape.1.2.1) h.shape

theorem Calm.clientGraceDeadline (h : Calm s l s' l') :
    s'.clientGraceDeadline = s.clientGraceDeadline :=
  congrArg (fun shape => shape.1.2.2) h.shape

theorem Calm.preserving (h : Calm s l s' l') : l'.preserving = l.preserving :=
  congrArg (fun shape => shape.2.1) h.shape

theorem Calm.recovering (h : Calm s l s' l') : l'.recovering = l.recovering :=
  congrArg (fun shape => shape.2.2.1) h.shape

theorem Calm.repaired (h : Calm s l s' l') : l'.repaired = l.repaired :=
  congrArg (fun shape => shape.2.2.2) h.shape

/-- A time that the clock has passed stays passed. -/
theorem Calm.passed {time : ℚ} (h : Calm s l s' l') (hforward : l'.forward = true)
    (hpassed : ∃ t, l.clock = some t ∧ time ≤ t) : ∃ t, l'.clock = some t ∧ time ≤ t := by
  obtain ⟨t, ht, hle⟩ := hpassed
  obtain ⟨t', ht', hle'⟩ := h.clock hforward t ht
  exact ⟨t', ht', le_trans hle hle'⟩

theorem InTime.calm (h : Calm s l s' l') (hin : InTime l) : InTime l' := by
  intro hforward
  by_contra hexpired
  have hbefore := (h.expired (Bool.eq_true_of_not_eq_false hexpired)).1
  rw [hin (h.forward hforward)] at hbefore
  cases hbefore

theorem Tracked.lasting : Lasting (Tracked config) := by
  intro s l s' l' h htracked
  refine ⟨h.keys htracked.keys, ?_, ?_, fun hforward hexpired => ?_⟩
  · rw [h.preservingBrowser, h.repairStartedAt, h.repaired, h.preserving]
    exact htracked.repaired
  · rw [h.recovering, h.preservingBrowser, h.clientGraceDeadline]
    exact htracked.released
  · obtain ⟨hbefore, hstart⟩ := h.expired hexpired
    rw [hstart]
    exact h.passed hforward (htracked.expired (h.forward hforward) hbefore)

theorem Began.lasting {preserving : Bool} : Lasting (Began config preserving) :=
  fun s l s' l' h hbegan => ⟨Tracked.lasting s l s' l' h hbegan.toTracked,
    h.preserving.trans hbegan.began, h.preservingBrowser.trans hbegan.preservingBrowser⟩

theorem Preserved.lasting : Lasting (Preserved config) := fun s l s' l' h hpreserved =>
  ⟨Tracked.lasting s l s' l' h hpreserved.toTracked,
    h.preservingBrowser.trans hpreserved.preserving, h.preserving.trans hpreserved.began,
    hpreserved.inTime.calm h⟩

theorem Graced.lasting : Lasting (Graced config deadline) := fun s l s' l' h hgraced =>
  ⟨Preserved.lasting s l s' l' h hgraced.toPreserved,
    by rw [h.repairStartedAt]; exact hgraced.repair, h.clientGraceDeadline.trans hgraced.inForce⟩

theorem Due.lasting : Lasting (Due config deadline) := fun s l s' l' h hdue =>
  ⟨Graced.lasting s l s' l' h hdue.toGraced, fun hforward =>
    h.passed hforward (hdue.passed (h.forward hforward))⟩

end Lasting

section Programs

variable {env : List Happening → Reply} {config : Config} {α β : Type} {x : LifecycleM α}
variable {P : Lifecycle → Course → Prop} {Q : α → Lifecycle → Course → Prop}
variable {R : Failure → Lifecycle → Course → Prop}

/-! ### Losing the transport -/

/-- A calm program keeps what lasts. -/
theorem IsCalm.keeps (hx : IsCalm x) (hP : Lasting P) : Follows P x (fun _ => P) fun _ => P :=
  hx P hP

/-- A calm program, and then another. -/
theorem IsCalm.next {f : α → LifecycleM β} {Q : β → Lifecycle → Course → Prop} (hx : IsCalm x)
    (hP : Lasting P) (hR : ∀ e s l, P s l → R e s l) (hf : ∀ a, Follows P (f a) Q R) :
    Follows P (x >>= f) Q R :=
  Keeps.andThen hx hP hR hf

/-- A note that the monitor accepts. -/
theorem note_follows {n : Note} {Q : Unit → Lifecycle → Course → Prop}
    (h : ∀ s l, P s l → l.refuses (.note n) = false ∧ Q () s (l.noted n)) :
    Follows P (note env n) Q R := by
  refine Triple.bind (Q := fun _ => Q ()) (Triple.call_ok fun s l reply hs => ?_) fun _ =>
    Triple.pure fun _ _ => id
  obtain ⟨haccepts, hQ⟩ := h s l hs
  refine ⟨l.noted n, ?_, hQ⟩
  rw [Course.next, haccepts]
  rfl

/-- A change of the state that is noted. -/
theorem modify_noted {f : Lifecycle → Lifecycle} {n : Note} {y : LifecycleM α}
    {K : Lifecycle → Course → Prop}
    (h : ∀ s l, P s l → l.refuses (.note n) = false ∧ K (f s) (l.noted n))
    (hy : Follows K y Q R) : Follows P (do modify f; note env n; y) Q R := by
  refine Triple.bind (Q := fun _ s l => l.refuses (.note n) = false ∧ K s (l.noted n))
    (Triple.modify h) fun _ => ?_
  exact Triple.bind (Q := fun _ => K) (note_follows fun _ _ => id) fun _ => hy

/-- A new loss forgets an earlier repair; a loss of a preserved page changes nothing. -/
theorem Tracked.rememberLoss {s : Lifecycle} {l : Course} (h : Tracked config s l)
    (usbLocal : Bool) : Tracked config (s.rememberLoss usbLocal) l := by
  unfold Lifecycle.rememberLoss
  split
  · exact h
  · exact ⟨h.keys, nofun, fun _ _ => rfl, h.expired⟩

theorem rememberTransportLoss_tracked : Follows (Tracked config) (rememberTransportLoss env config)
    (fun _ => Tracked config) fun _ => Tracked config := by
  refine IsCalm.next (IsCalm.set fun _ => rfl) Tracked.lasting (fun _ _ _ => id) fun _ => ?_
  refine Triple.bind (Q := fun _ => Tracked config) (Triple.modify fun s l h => ?_) fun _ => ?_
  · exact h.rememberLoss config.usbLocal
  · refine IsCalm.next IsCalm.stopMonitor Tracked.lasting (fun _ _ _ => id) fun _ => ?_
    exact IsCalm.keeps (IsCalm.set fun _ => rfl) Tracked.lasting

/-- Without a repair, and with no deadline. -/
theorem Tracked.forgotten {s : Lifecycle} {l : Course} (h : Tracked config s l)
    (signature : Option Disruption) : Tracked config { s with
      transportDisruptionSignature := signature
      repairStartedAt := none
      clientGraceDeadline := none } (l.noted .repairForgotten) :=
  ⟨h.keys, nofun, fun _ _ => rfl, h.expired⟩

theorem invalidateCompletedRepair_keeps {signature : Disruption} (hP : Lasting P)
    (hforgotten : ∀ s l signature, P s l → P { s with
      transportDisruptionSignature := signature
      repairStartedAt := none
      clientGraceDeadline := none } (l.noted .repairForgotten)) :
    Follows P (invalidateCompletedRepair env signature) (fun _ => P) fun _ => P := by
  refine Triple.get_bind fun s₀ => Triple.pre (P := P) ?_ fun _ _ h => h.1
  refine Triple.doIf (fun _ => ?_) fun _ _ _ => id
  refine modify_noted (fun s l h => ⟨rfl, hforgotten s l _ h⟩) ?_
  exact IsCalm.restartEpisode.keeps hP

theorem enterTransportRecovery_tracked {reason : String} {stage : Stage}
    {adbReady network verified : Bool} : Follows (Tracked config)
      (enterTransportRecovery env config reason stage adbReady network verified)
      (fun _ => Tracked config) fun _ => Tracked config := by
  refine IsCalm.next (Keeps.doIf fun _ => IsCalm.perform trivial) Tracked.lasting
    (fun _ _ _ => id) fun _ => ?_
  refine Triple.bind rememberTransportLoss_tracked fun _ => Triple.get_bind fun s₀ => ?_
  refine Triple.pre (P := Tracked config) ?_ fun _ _ h => h.1
  refine Triple.bind (Triple.doIf (fun _ => ?_) fun _ _ _ => id) fun _ =>
    IsCalm.publish.keeps Tracked.lasting
  exact invalidateCompletedRepair_keeps Tracked.lasting fun _ _ signature h => h.forgotten signature

/-! ### Relaunching -/

/-- Nothing forbids a relaunch. -/
structure Launchable (config : Config) (s : Lifecycle) (l : Course) : Prop
    extends Tracked config s l where
  permitted : l.forward = true → l.permits s.preservingBrowser s.clientGraceDeadline = true

/-- **The grace is over:** the preserved page may be given up. -/
theorem Due.launchable {deadline : ℚ} {s : Lifecycle} {l : Course} (h : Due config deadline s l) :
    Launchable config s l where
  toTracked := h.toTracked
  permitted := by
    intro hforward
    obtain ⟨t, ht, hpassed⟩ := h.passed hforward
    simp only [Course.permits, (h.repaired h.preserving h.repair).1, h.inTime hforward, h.inForce,
      ht, Bool.not_false, Bool.and_true, Option.isSome_some, Bool.or_true, Option.all_some,
      Option.any_some, hpassed, decide_true]

/-- A fresh page that no preserved one precedes. -/
theorem Tracked.launchable {s : Lifecycle} {l : Course} (h : Tracked config s l)
    (hreleased : s.preservingBrowser = false) (hrepaired : l.repaired = true) (hin : InTime l) :
    Launchable config s l where
  toTracked := h
  permitted := by
    intro hforward
    simp only [Course.permits, hrepaired, hin hforward, hreleased, Bool.not_false, Bool.and_true,
      Bool.true_or, Bool.false_or, Bool.true_and]
    cases hrecovering : l.recovering with
    | false => rfl
    | true =>
      rw [h.released hrecovering hreleased]
      rfl

theorem Tracked.automating {s : Lifecycle} {l : Course} (h : Tracked config s l) :
    Tracked config s.automating l :=
  ⟨h.keys, nofun, fun _ _ => rfl, h.expired⟩

theorem automate_tracked : Follows (Launchable config) (automate env config)
    (fun _ => Tracked config) fun _ => Tracked config := by
  refine Triple.get_bind fun s₀ => ?_
  refine Triple.bind (Q := fun _ => Tracked config) (note_follows fun s l h => ?_) fun _ => ?_
  · obtain ⟨h, rfl⟩ := h
    refine ⟨?_, h.toTracked⟩
    cases hforward : l.forward with
    | false => simp [Course.refuses, hforward]
    | true => simp [Course.refuses, h.permitted hforward]
  · refine IsCalm.next IsCalm.stopMonitor Tracked.lasting (fun _ _ _ => id) fun _ => ?_
    refine Triple.bind (Q := fun _ => Tracked config) (Triple.modify fun s l => ?_) fun _ => ?_
    · exact Tracked.automating
    · exact IsCalm.openPage.keeps Tracked.lasting

theorem fallbackToFreshBrowser_tracked : Follows (Launchable config)
    (fallbackToFreshBrowser env config) (fun _ => Tracked config) fun _ => Tracked config := by
  refine Triple.bind (Triple.attempt automate_tracked) fun result => ?_
  cases result with
  | ok _ => exact Triple.pure fun _ _ => id
  | error e =>
    refine IsCalm.keeps (P := Tracked config) ?_ Tracked.lasting
    refine Keeps.bind Keeps.get fun _ => Keeps.bind (Keeps.doIf fun _ => ?_) fun _ => Keeps.raise e
    exact IsCalm.rememberBrowserWakeFailure

/-! ### Clicking in the surviving page -/

/-- After a click the preserved page has another deadline, its key back, or nothing new. -/
theorem sameTabResult_follows {key : ClickKey} {result : Except Failure Unit} (hP : Lasting P)
    (hpreserved : ∀ s l, P s l → Tracked config s l ∧ s.preservingBrowser = true) :
    Follows P (sameTabResult env config key result)
      (fun clicked s l => Tracked config s l ∧ (clicked = some false → P s l))
      fun _ => Tracked config := by
  have htracked : ∀ (e : Failure) s l, P s l → Tracked config s l := fun _ s l h =>
    (hpreserved s l h).1
  unfold sameTabResult
  split
  · refine IsCalm.next (IsCalm.set fun _ => rfl) hP htracked fun _ => ?_
    refine IsCalm.next Keeps.get hP htracked fun _ => ?_
    refine IsCalm.next (Keeps.doIf fun _ => Keeps.bind IsCalm.onDispatched fun _ =>
      IsCalm.publishSameTabDispatched) hP htracked fun _ => ?_
    refine IsCalm.next IsCalm.boundedClientGraceDeadline hP htracked fun deadline => ?_
    refine Triple.bind (Q := fun _ => Tracked config) (Triple.modify fun s l h => ?_) fun _ => ?_
    · -- A grace is granted while the browser is preserved, so nothing is owed for its release.
      obtain ⟨h, hpreserving⟩ := hpreserved s l h
      refine ⟨h.keys, h.repaired, fun _ hreleased => ?_, h.expired⟩
      have hreleased' : s.preservingBrowser = false := hreleased
      rw [hpreserving] at hreleased'
      cases hreleased'
    · refine IsCalm.next IsCalm.publish Tracked.lasting (fun _ _ _ => id) fun _ => ?_
      exact Triple.pure fun s l h => ⟨h, nofun⟩
  · -- The headset was asleep: the key is given back to be clicked again.
    refine modify_noted (K := P) (fun s l h => ⟨rfl, hP s l _ _ ?_ h⟩) ?_
    · refine ⟨rfl, fun hkeys => ?_, id, fun _ t ht => ⟨t, ht, le_refl t⟩, fun h => ⟨h, rfl⟩⟩
      exact congrArg (fun keys => keys.erase key) hkeys
    · refine IsCalm.next IsCalm.publish hP htracked fun _ => ?_
      exact Triple.pure fun s l h => ⟨htracked .headsetNotAwake s l h, nofun⟩
  · split
    · refine IsCalm.next (IsCalm.set fun _ => rfl) hP htracked fun _ => ?_
      exact Triple.pure fun s l h => ⟨htracked .oobAdbError s l h, fun _ => h⟩
    · exact Triple.raise fun s l h => htracked .oobAdbError s l h

/-- **A click in the surviving page:** its key is not spent, and when the click fails nothing of
the preservation has changed. -/
theorem sameTabConnect_follows {key : ClickKey} (hP : Lasting P)
    (hpreserved : ∀ s l, P s l → Tracked config s l ∧ s.preservingBrowser = true) :
    Follows P (sameTabConnect env config key)
      (fun clicked s l => Tracked config s l ∧ (clicked = some false → P s l))
      fun _ => Tracked config := by
  have htracked : ∀ (e : Failure) s l, P s l → Tracked config s l := fun _ s l h =>
    (hpreserved s l h).1
  refine Triple.get_bind fun s₀ => ?_
  split
  · exact Triple.pure fun s l h => ⟨htracked .oobAdbError s l h.1, fun _ => h.1⟩
  -- The key is spent before the click is tried.
  case isFalse hkey =>
    refine modify_noted (K := P) (fun s l h => ?_) ?_
    · obtain ⟨h, rfl⟩ := h
      refine ⟨?_, hP s l _ _ ?_ h⟩
      · rw [← (hpreserved s l h).1.keys] at hkey
        exact decide_eq_false hkey
      · refine ⟨rfl, fun hkeys => ?_, id, fun _ t ht => ⟨t, ht, le_refl t⟩, fun h => ⟨h, rfl⟩⟩
        exact congrArg (List.cons key) hkeys
    · refine IsCalm.next IsCalm.stopMonitor hP htracked fun _ => ?_
      refine IsCalm.next (IsCalm.set fun _ => rfl) hP htracked fun _ => ?_
      refine IsCalm.next (Keeps.attempt ?_) hP htracked fun result =>
        sameTabResult_follows hP hpreserved
      exact IsCalm.clickConnect IsCalm.onClientLoaded IsCalm.onDispatched
        IsCalm.publishSameTabDispatched

/-! ### Recovering a surviving page -/

theorem clickOrFallback_tracked {deadline : ℚ} : Follows (Due config deadline)
    (clickOrFallback env config) (fun _ => Tracked config) fun _ => Tracked config := by
  refine Triple.get_bind fun s₀ => Triple.pre (P := Due config deadline) ?_ fun _ _ h => h.1
  refine Triple.bind (sameTabConnect_follows Due.lasting fun s l h => ⟨h.toTracked, h.preserving⟩)
    fun clicked => ?_
  split
  · refine fallbackToFreshBrowser_tracked.pre fun s l h => ?_
    exact (h.2 rfl).launchable
  · exact Triple.pure fun s l h => h.1

/-- The clock is read: when it shows a time after the deadline, the grace is over. -/
theorem clock_due {deadline : ℚ} : Follows (Graced config deadline) (clock env)
    (fun now s l => Graced config deadline s l ∧ (deadline ≤ now → Due config deadline s l))
    fun _ => Graced config deadline := by
  refine Triple.bind (Q := fun reply s l => Graced config deadline s l ∧
    l.clock = some reply.time) (Triple.call_ok fun s l reply h => ?_) fun reply => ?_
  · exact ⟨l.read reply.time, rfl, Graced.lasting _ _ _ _ (.read s l reply.time) h, rfl⟩
  · exact Triple.pure fun s l h => ⟨h.1, fun hpassed => ⟨h.1, fun _ => ⟨reply.time, h.2, hpassed⟩⟩⟩

theorem awaitStream_tracked {phase : String} {deadline : ℚ} : Follows (Graced config deadline)
    (awaitStream env config phase deadline) (fun _ => Tracked config) fun _ => Tracked config := by
  refine Triple.bind (clock_due.post (fun _ _ _ => id) fun _ _ _ h => h.toTracked) fun now => ?_
  refine Triple.get_bind fun s₀ => ?_
  split
  case isTrue hover =>
    refine fallbackToFreshBrowser_tracked.pre fun s l h => (h.1.2 ?_).launchable
    simp only [Bool.and_eq_true, decide_eq_true_eq] at hover
    exact hover.2
  case isFalse =>
    split
    case isTrue hover =>
      refine clickOrFallback_tracked.pre fun s l h => h.1.2 ?_
      simp only [Bool.and_eq_true, decide_eq_true_eq] at hover
      exact hover.1.1
    case isFalse =>
      refine (IsCalm.keeps (P := Tracked config) ?_ Tracked.lasting).pre fun _ _ h =>
        h.1.1.toTracked
      exact Keeps.bind IsCalm.attachExistingMonitor fun _ => IsCalm.publish

/-- Preservation ends with a fresh stream. -/
theorem streamResumed_tracked {now : ℚ} {y : LifecycleM Unit} (hy : IsCalm y) :
    Follows (Tracked config) (do modify (Lifecycle.streamResumed now); note env .streamResumed; y)
      (fun _ => Tracked config) fun _ => Tracked config := by
  refine modify_noted (K := Tracked config) (fun s l h => ⟨rfl, ?_⟩) (hy.keeps Tracked.lasting)
  exact ⟨h.keys, nofun, nofun, h.expired⟩

theorem recoverReported_tracked {repairStartedAt deadline : ℚ} {cdpAttached : Bool}
    {report : Headset} : Follows (Graced config deadline)
      (recoverReported env config repairStartedAt deadline cdpAttached report)
      (fun _ => Tracked config) fun _ => Tracked config := by
  have htracked : ∀ (e : Failure) s l, Graced config deadline s l → Tracked config s l :=
    fun _ _ _ h => h.toTracked
  refine IsCalm.next (IsCalm.set fun _ => rfl) Graced.lasting htracked fun _ => ?_
  refine IsCalm.next IsCalm.wallTime Graced.lasting htracked fun now => ?_
  dsimp only
  split
  · refine Triple.pre (streamResumed_tracked ?_) fun _ _ h => h.toTracked
    exact Keeps.bind (IsCalm.set fun _ => rfl) fun _ => IsCalm.publish
  · split
    · exact (IsCalm.publish.keeps Tracked.lasting).pre fun _ _ h => h.toTracked
    · refine IsCalm.next Keeps.get Graced.lasting htracked fun s => ?_
      split
      · split
        · exact awaitStream_tracked
        · refine Triple.bind (sameTabConnect_follows Graced.lasting fun s l h =>
            ⟨h.toTracked, h.preserving⟩) fun clicked => ?_
          cases clicked with
          | none => exact Triple.pure fun _ _ h => h.1
          | some clicked =>
            cases clicked with
            | true =>
              -- A click was made, and the grace of this repair is used up.
              refine (IsCalm.keeps (P := Tracked config) ?_ Tracked.lasting).pre fun _ _ h => h.1
              exact Keeps.bind (IsCalm.set fun _ => rfl) fun _ => Keeps.pure ()
            | false =>
              -- No click: the grace goes on and the stream is waited for.
              refine Triple.pre (P := Graced config deadline) ?_ fun _ _ h => h.2 rfl
              exact IsCalm.next (IsCalm.set fun _ => rfl) Graced.lasting htracked fun _ =>
                awaitStream_tracked
      · exact awaitStream_tracked

theorem recoverExistingBrowser_tracked : Follows (Preserved config)
    (recoverExistingBrowser env config) (fun _ => Tracked config) fun _ => Tracked config := by
  refine Triple.get_bind fun s₀ => ?_
  split
  case h_1 repairStartedAt deadline hrepair hdeadline =>
    refine Triple.pre (P := Graced config deadline) ?_ fun s l h => ?_
    · have htracked : ∀ (e : Failure) s l, Graced config deadline s l → Tracked config s l :=
        fun _ _ _ h => h.toTracked
      refine IsCalm.next IsCalm.attachExistingMonitor Graced.lasting htracked fun cdpAttached => ?_
      refine IsCalm.next (IsCalm.ask trivial) Graced.lasting htracked fun probe => ?_
      split
      · refine Triple.bind (clock_due.post (fun _ _ _ => id) fun _ _ _ h => h.toTracked)
          fun now => ?_
        split
        · exact (IsCalm.publish.keeps Tracked.lasting).pre fun _ _ h => h.1.toTracked
        case isFalse hpassed =>
          exact clickOrFallback_tracked.pre fun _ _ h => h.2 (not_lt.mp hpassed)
      · exact recoverReported_tracked
    · obtain ⟨h, rfl⟩ := h
      exact ⟨h, by rw [hrepair]; rfl, hdeadline⟩
  case h_2 => exact Triple.raise fun _ _ h => h.1.toTracked

theorem observePassiveRecovery_tracked : Follows (Tracked config)
    (observePassiveRecovery env config) (fun _ => Tracked config) fun _ => Tracked config := by
  refine IsCalm.next Keeps.get Tracked.lasting (fun _ _ _ => id) fun s₀ => ?_
  split
  · exact Triple.raise fun _ _ => id
  · refine IsCalm.next (IsCalm.ask trivial) Tracked.lasting (fun _ _ _ => id) fun probe => ?_
    split
    · exact IsCalm.publish.keeps Tracked.lasting
    · refine IsCalm.next (IsCalm.set fun _ => rfl) Tracked.lasting (fun _ _ _ => id) fun _ => ?_
      refine IsCalm.next IsCalm.wallTime Tracked.lasting (fun _ _ _ => id) fun now => ?_
      split
      · exact streamResumed_tracked IsCalm.publish
      · exact IsCalm.publish.keeps Tracked.lasting

/-! ### Rebuilding USB -/

/-- No repair is kept that a new one could replace. -/
structure Unrepaired (P : Lifecycle → Course → Prop) (s : Lifecycle) (l : Course) : Prop where
  holds : P s l
  repair : s.preservingBrowser = true → s.repairStartedAt = none

theorem Unrepaired.lasting (hP : Lasting P) : Lasting (Unrepaired P) := by
  intro s l s' l' h hunrepaired
  refine ⟨hP s l s' l' h hunrepaired.holds, ?_⟩
  rw [h.preservingBrowser, h.repairStartedAt]
  exact hunrepaired.repair

/-- **A completed repair** is on the trace; one that fails leaves none. -/
theorem rebuildUsb_follows (hP : Lasting P)
    (hrepaired : ∀ s l repaired, Unrepaired P s l → P s { l with repaired }) :
    Follows (Unrepaired P) (rebuildUsb env config)
      (fun _ s l => Unrepaired P s l ∧ l.repaired = true) fun _ => P := by
  have hholds : ∀ (e : Failure) s l, Unrepaired P s l → P s l := fun _ _ _ h => h.holds
  have hlasting := Unrepaired.lasting hP
  refine Triple.bind (Q := fun _ => Unrepaired P) ?_ fun _ => ?_
  · refine Triple.bind (Q := fun _ => Unrepaired P) (Triple.call_ok fun s l reply h => ?_)
      fun _ => Triple.pure fun _ _ => id
    exact ⟨{ l with repaired := false }, rfl, hrepaired s l false h, h.repair⟩
  · split
    · exact Triple.raise (hholds .exception)
    · refine IsCalm.next IsCalm.publish hlasting hholds fun _ => ?_
      refine IsCalm.next (Keeps.attempt IsCalm.rebuildRules) hlasting hholds fun result => ?_
      cases result with
      | error e =>
        refine IsCalm.next IsCalm.shieldedCleanup hlasting hholds fun _ => ?_
        exact Triple.raise (hholds e)
      | ok _ =>
        refine IsCalm.next Keeps.get hlasting hholds fun s => ?_
        refine IsCalm.next IsCalm.publish hlasting hholds fun _ => ?_
        refine IsCalm.next (IsCalm.set fun _ => rfl) hlasting hholds fun _ => ?_
        exact note_follows fun s l h => ⟨rfl, ⟨hrepaired s l true h, h.repair⟩, rfl⟩

/-! ### The preserving branch -/

theorem Preserved.repaired_eq {s : Lifecycle} {l : Course} (repaired : Bool)
    (h : Unrepaired (Preserved config) s l) : Preserved config s { l with repaired } := by
  have hpreserved := h.holds
  refine ⟨⟨hpreserved.keys, fun hpreserving hrepair => ?_, hpreserved.released,
    hpreserved.expired⟩, hpreserved.preserving, hpreserved.began, hpreserved.inTime⟩
  rw [h.repair hpreserving] at hrepair
  cases hrepair

theorem repairAndRecover_tracked : Follows (Preserved config) (repairAndRecover env config)
    (fun _ => Tracked config) fun _ => Tracked config := by
  have htracked : ∀ (e : Failure) s l, Unrepaired (Preserved config) s l → Tracked config s l :=
    fun _ _ _ h => h.holds.toTracked
  have hlasting : Lasting (Unrepaired (Preserved config)) := Unrepaired.lasting Preserved.lasting
  have hlasting' : Lasting fun s l => Unrepaired (Preserved config) s l ∧ l.repaired = true :=
    fun s l s' l' h hs => ⟨hlasting s l s' l' h hs.1, h.repaired.trans hs.2⟩
  refine Triple.get_bind fun s₀ => ?_
  refine Triple.bind (Q := fun _ => Preserved config) ?_ fun _ => recoverExistingBrowser_tracked
  refine Triple.doIf (fun hrepair => ?_) fun _ _ _ h => h.1
  refine Triple.pre (P := Unrepaired (Preserved config)) ?_ fun s l h => ?_
  · refine IsCalm.next IsCalm.publish hlasting htracked fun _ => ?_
    refine IsCalm.next (IsCalm.perform trivial) hlasting htracked fun _ => ?_
    refine IsCalm.next (Keeps.doIf fun _ => IsCalm.checkUsbLink) hlasting htracked fun _ => ?_
    refine Triple.bind ((rebuildUsb_follows Preserved.lasting fun s l repaired =>
      Preserved.repaired_eq repaired).post (fun _ _ _ => id) fun _ _ _ h => h.toTracked) fun _ => ?_
    refine IsCalm.next IsCalm.wallTime hlasting' (fun e s l h => htracked e s l h.1) fun now => ?_
    refine IsCalm.next IsCalm.boundedClientGraceDeadline hlasting' (fun e s l h =>
      htracked e s l h.1) fun deadline => ?_
    refine Triple.modify fun s l h => ?_
    -- The repair has been noted before its deadline is stored.
    obtain ⟨⟨h, -⟩, hrepaired⟩ := h
    refine ⟨⟨h.keys, fun _ _ => ⟨hrepaired, h.began⟩, fun _ hreleased => ?_, h.expired⟩,
      h.preserving, h.began, h.inTime⟩
    have hreleased' : s.preservingBrowser = false := hreleased
    rw [h.preserving] at hreleased'
    cases hreleased'
  · obtain ⟨h, rfl⟩ := h
    exact ⟨h, fun _ => Option.isNone_iff_eq_none.mp hrepair⟩

theorem repairFailed_tracked : Follows (Tracked config) (repairFailed env)
    (fun _ => Tracked config) fun _ => Tracked config := by
  refine modify_noted (K := Tracked config) (fun s l h => ⟨rfl, ?_⟩) ?_
  · exact ⟨h.keys, nofun, fun _ _ => rfl, h.expired⟩
  · refine IsCalm.keeps ?_ Tracked.lasting
    exact Keeps.bind Keeps.get fun _ => IsCalm.publish

theorem preserve_tracked : Follows (Preserved config) (preserve env config)
    (fun _ => Tracked config) fun _ => Tracked config := by
  refine Triple.bind (Q := fun _ => Tracked config) ?_ fun _ =>
    IsCalm.sleepTransportRetry.keeps Tracked.lasting
  refine Triple.bind (Triple.attempt repairAndRecover_tracked) fun result => ?_
  cases result with
  | ok _ => exact Triple.pure fun _ _ => id
  | error e =>
    show Follows (Tracked config) (if e.isException = true then _ else _) _ _
    split
    · exact repairFailed_tracked
    · exact Triple.raise fun _ _ => id

theorem observeExpired_tracked : Follows (Tracked config) (observeExpired env config)
    (fun _ => Tracked config) fun _ => Tracked config := by
  refine IsCalm.next IsCalm.observeExpiredWake Tracked.lasting (fun _ _ _ => id) fun ended => ?_
  refine Triple.doIf (fun _ => ?_) fun _ _ _ => id
  refine Triple.bind (Q := fun _ => Tracked config) ?_ fun _ =>
    IsCalm.sleepTransportRetry.keeps Tracked.lasting
  refine IsCalm.next Keeps.get Tracked.lasting (fun _ _ _ => id) fun s => ?_
  split
  · exact observePassiveRecovery_tracked
  · exact IsCalm.publish.keeps Tracked.lasting

/-! ### Passes without a preserved page -/

/-- No page is preserved, within the episode. -/
structure Fresh (config : Config) (s : Lifecycle) (l : Course) : Prop
    extends Tracked config s l where
  unpreserved : s.preservingBrowser = false
  inTime : InTime l

theorem Fresh.lasting : Lasting (Fresh config) := fun s l s' l' h hfresh =>
  ⟨Tracked.lasting s l s' l' h hfresh.toTracked, h.preservingBrowser.trans hfresh.unpreserved,
    hfresh.inTime.calm h⟩

theorem Fresh.repaired_eq {s : Lifecycle} {l : Course} (h : Fresh config s l) (repaired : Bool) :
    Fresh config s { l with repaired } := by
  refine ⟨⟨h.keys, fun hpreserving _ => ?_, h.released, h.expired⟩, h.unpreserved, h.inTime⟩
  rw [h.unpreserved] at hpreserving
  cases hpreserving

section UsbLocal

variable (husb : config.usbLocal = true)

include husb

/-- **A new page** is opened after USB was rebuilt. -/
theorem bootstrap_tracked : Follows (Fresh config) (bootstrap env config)
    (fun _ => Tracked config) fun _ => Tracked config := by
  have htracked : ∀ (e : Failure) s l, Fresh config s l → Tracked config s l :=
    fun _ _ _ h => h.toTracked
  have hlasting : Lasting fun s l => Unrepaired (Fresh config) s l ∧ l.repaired = true :=
    fun s l s' l' h hs => ⟨Unrepaired.lasting Fresh.lasting s l s' l' h hs.1,
      h.repaired.trans hs.2⟩
  have htracked' : ∀ (e : Failure) s l, Unrepaired (Fresh config) s l ∧ l.repaired = true →
      Tracked config s l := fun _ _ _ h => h.1.holds.toTracked
  -- The pass: what is checked before the repair, the repair, and what is started behind it.
  have hbody : Follows (Fresh config) (bootstrapBody env config) (fun _ => Tracked config)
      fun _ => Tracked config := by
    unfold bootstrapBody
    rw [husb]
    refine IsCalm.next (Keeps.doIf fun _ => IsCalm.set fun _ => rfl) Fresh.lasting htracked
      fun _ => ?_
    refine IsCalm.next IsCalm.prepareDevice Fresh.lasting htracked fun _ => ?_
    refine IsCalm.next (Keeps.doIf fun _ => IsCalm.checkUsbLink) Fresh.lasting htracked fun _ => ?_
    refine Triple.bind (((rebuildUsb_follows Fresh.lasting fun s l repaired h =>
      h.holds.repaired_eq repaired).pre fun s l h => ⟨h, fun hpreserving => ?_⟩).post
      (fun _ _ _ => id) fun _ _ _ h => h.toTracked) fun _ => ?_
    · rw [h.unpreserved] at hpreserving
      cases hpreserving
    · refine IsCalm.next (Keeps.doIf fun _ => Keeps.bind IsCalm.confirmUsbAwake fun _ =>
        IsCalm.checkUsbTransfer) hlasting htracked' fun _ => ?_
      refine IsCalm.next Keeps.get hlasting htracked' fun s => ?_
      split
      · refine (IsCalm.keeps (P := Tracked config) ?_ Tracked.lasting).pre (htracked' .exception)
        exact Keeps.bind IsCalm.publish fun _ => Keeps.bind IsCalm.sleepInterval fun _ =>
          Keeps.pure true
      · refine Triple.bind (automate_tracked.pre fun s l h => ?_) fun _ =>
          Triple.pure fun _ _ => id
        exact h.1.holds.launchable h.1.holds.unpreserved h.2 h.1.holds.inTime
  refine IsCalm.next (IsCalm.set fun _ => rfl) Fresh.lasting htracked fun _ => ?_
  refine IsCalm.next IsCalm.publish Fresh.lasting htracked fun _ => ?_
  refine Triple.bind (Triple.attempt hbody) fun result => ?_
  split
  · exact Triple.pure fun _ _ => id
  · exact Triple.raise fun _ _ => id
  · exact Triple.raise fun _ _ => id

/-- Over USB, a banner is a disruption. -/
theorem IsCalm.handleCdpTerminalError {banner : String} :
    IsCalm (OobLifecycle.handleCdpTerminalError env config banner) := by
  unfold OobLifecycle.handleCdpTerminalError
  rw [husb]
  exact Keeps.bind (set fun _ => rfl) fun _ => Keeps.bind Keeps.get fun _ => Keeps.raise _

theorem IsCalm.observeMetrics {client : Headset} :
    IsCalm (OobLifecycle.observeMetrics env config client) := by
  unfold OobLifecycle.observeMetrics
  rw [husb]
  refine Keeps.bind wallTime fun now => Keeps.bind Keeps.get fun s => ?_
  refine Keeps.bind (Keeps.doIf fun _ => Keeps.bind (ask trivial) fun probe =>
    Keeps.doIf fun _ => Keeps.raise _) fun _ => ?_
  refine Keeps.ite (fun _ => ?_) fun _ => publish
  exact Keeps.bind (set fun _ => rfl) fun _ => publish

/-- Over USB, a terminal event is a disruption. -/
theorem IsCalm.observeClient {client : Headset} :
    IsCalm (OobLifecycle.observeClient env config client) := by
  unfold OobLifecycle.observeClient
  rw [husb]
  refine Keeps.bind Keeps.get fun s => Keeps.ite (fun _ => Keeps.raise _) fun _ => ?_
  split
  · exact observeMetrics husb
  · refine Keeps.ite (fun _ => observeMetrics husb) fun _ => ?_
    exact Keeps.raise _

theorem IsCalm.observeStream : IsCalm (OobLifecycle.observeStream env config) := by
  unfold OobLifecycle.observeStream
  refine Keeps.bind (ask trivial) fun state => Keeps.bind Keeps.get fun s => ?_
  split
  · rw [husb]
    exact Keeps.raise _
  · refine Keeps.bind (look trivial) fun done => ?_
    refine Keeps.bind (Keeps.doIf fun _ => set fun _ => rfl) fun _ => ?_
    refine Keeps.bind Keeps.get fun s => ?_
    refine Keeps.bind (Keeps.doIf fun _ => ?_) fun _ => observeClient husb
    exact Keeps.bind attachExistingMonitor fun _ => Keeps.doIf fun _ => Keeps.raise _

/-- A page that is neither ready nor connected is opened within the episode. -/
structure Working (config : Config) (s : Lifecycle) (l : Course) : Prop
    extends Tracked config s l where
  unpreserved : s.preservingBrowser = false
  inTime : (s.browserReady || s.connectDispatched) = false → InTime l

omit husb in
theorem Working.quiet (s : Lifecycle) (l : Course) (s' : Lifecycle) (l' : Course)
    (h : Quiet s l s' l') (hworking : Working config s l) : Working config s' l' := by
  refine ⟨Tracked.lasting s l s' l' h.toCalm hworking.toTracked,
    h.preservingBrowser.trans hworking.unpreserved, ?_⟩
  rw [h.ready, h.dispatched]
  exact fun hidle => (hworking.inTime hidle).calm h.toCalm

theorem dispatch_tracked : Follows (Working config) (dispatch env config)
    (fun _ => Tracked config) fun _ => Tracked config := by
  refine Triple.get_bind fun s₀ => ?_
  have hcalm : ∀ {y : LifecycleM Bool}, IsCalm y → Follows (fun s l => Working config s l ∧ s = s₀)
      y (fun _ => Tracked config) fun _ => Tracked config := fun hy =>
    (hy.keeps Tracked.lasting).pre fun _ _ h => h.1.toTracked
  split
  · refine hcalm (Keeps.bind (IsCalm.set fun _ => rfl) fun _ => ?_)
    exact Keeps.bind (IsCalm.handleCdpTerminalError husb) fun _ => Keeps.pure false
  · split
    · exact hcalm (Keeps.bind (IsCalm.observeStream husb) fun _ => Keeps.pure false)
    case isFalse hready =>
      split
      · exact hcalm (Keeps.bind IsCalm.verifyBrowser fun _ => Keeps.pure false)
      case isFalse hdispatched =>
        refine (bootstrap_tracked husb).pre fun s l h => ?_
        obtain ⟨h, rfl⟩ := h
        refine ⟨h.toTracked, h.unpreserved, h.inTime ?_⟩
        rw [Bool.eq_false_of_not_eq_true hready, Bool.eq_false_of_not_eq_true hdispatched]
        rfl

omit husb in
theorem IsCalm.passFailed {e : Failure} : IsCalm (OobLifecycle.passFailed env config e) := by
  refine Keeps.bind Keeps.get fun s => Keeps.bind stopMonitor fun _ => ?_
  refine Keeps.bind (set fun _ => rfl) fun _ => Keeps.bind ?_ fun _ => sleepInterval
  refine Keeps.bind Keeps.get fun s => Keeps.ite (fun _ => publish) fun _ => ?_
  refine Keeps.bind (set fun _ => rfl) fun _ => ?_
  refine Keeps.bind (Keeps.doIf fun _ => rememberBrowserWakeFailure) fun _ => ?_
  exact Keeps.bind Keeps.get fun _ => publish

omit husb in
theorem passRaised_tracked {verified : Bool} {e : Failure} : Follows (Tracked config)
    (passRaised env config verified e) (fun _ => Tracked config) fun _ => Tracked config := by
  unfold passRaised
  split
  · exact enterTransportRecovery_tracked
  · split
    · exact IsCalm.passFailed.keeps Tracked.lasting
    · exact Triple.raise fun _ _ => id

theorem work_tracked : Follows (Working config) (work env config)
    (fun _ => Tracked config) fun _ => Tracked config := by
  refine Triple.get_bind fun s₀ => Triple.pre (P := Working config) ?_ fun _ _ h => h.1
  refine Triple.bind (Triple.attempt ((Keeps.doIf fun _ => IsCalm.quietCheckUsbPrerequisites)
    (Working config) Working.quiet)) fun result => ?_
  cases result with
  | error e => exact passRaised_tracked.pre fun _ _ h => h.toTracked
  | ok _ =>
    refine Triple.bind (Triple.attempt (dispatch_tracked husb)) fun result => ?_
    cases result with
    | error e => exact passRaised_tracked
    | ok ended => exact (Keeps.doIf fun _ => IsCalm.sleepInterval) (Tracked config) Tracked.lasting

/-! ### One pass -/

section Looking

variable {preserving : Bool}

omit husb in
/-- **The timeout is looked at:** if it is not over now, it was not over before. -/
theorem episodeExpired_follows : Follows (Began config preserving) (episodeExpired env config)
    (fun expired s l => Began config preserving s l ∧ (expired = false → InTime l))
    fun _ => Began config preserving := by
  refine Triple.bind (Q := fun now s l => Began config preserving s l ∧ l.clock = some now) ?_
    fun now => ?_
  · refine Triple.bind (Q := fun reply s l => Began config preserving s l ∧
      l.clock = some reply.time) (Triple.call_ok fun s l reply h => ?_) fun reply =>
      Triple.pure fun _ _ => id
    exact ⟨l.read reply.time, rfl, Began.lasting _ _ _ _ (.read s l reply.time) h, rfl⟩
  · refine Triple.get_bind fun s₀ => ?_
    refine Triple.bind (Q := fun _ s l => Began config preserving s l ∧
      (decide (s₀.episodeStart + config.timeoutSec ≤ now) = false → InTime l)) ?_ fun _ =>
      Triple.pure fun _ _ => id
    refine Triple.doIf (fun hexpired => note_follows fun s l h => ?_) fun hwithin s l h => ?_
    · obtain ⟨⟨h, hclock⟩, rfl⟩ := h
      refine ⟨rfl, ⟨⟨h.keys, h.repaired, h.released, fun _ _ => ?_⟩, h.began,
        h.preservingBrowser⟩, fun hwithin => ?_⟩
      · exact ⟨now, hclock, of_decide_eq_true hexpired⟩
      · rw [hexpired] at hwithin
        cases hwithin
    · obtain ⟨⟨h, hclock⟩, rfl⟩ := h
      refine ⟨h, fun _ hforward => ?_⟩
      -- An earlier look would have been at an earlier time of the same episode.
      by_contra hexpired
      obtain ⟨t, ht, hover⟩ := h.expired hforward (Bool.eq_true_of_not_eq_false hexpired)
      rw [hclock] at ht
      cases ht
      exact of_decide_eq_false hwithin hover

omit husb in
theorem compareSignature_began {signature : List String × Option String × Option ℤ}
    {preserving' : Bool} : Follows (Began config preserving)
      (compareSignature env preserving' signature) (fun _ => Began config preserving) fun _ =>
      Began config preserving := by
  refine IsCalm.next Keeps.get Began.lasting (fun _ _ _ => id) fun s => ?_
  split
  · exact Triple.pure fun _ _ => id
  · split
    · exact Triple.pure fun _ _ => id
    · split
      · refine invalidateCompletedRepair_keeps Began.lasting fun s l signature h => ?_
        exact ⟨h.toTracked.forgotten signature, h.began, h.preservingBrowser⟩
      · exact IsCalm.restartEpisode.keeps Began.lasting

omit husb in
theorem observePrerequisites_began {preserving' : Bool} : Follows (Began config preserving)
    (observePrerequisites env config preserving') (fun _ => Began config preserving) fun _ =>
      Began config preserving := by
  have hrules : IsCalm (listReverseRules env config) :=
    Keeps.ite (fun _ => Keeps.bind (IsCalm.ask trivial) fun _ => Keeps.pure _) fun _ =>
      Keeps.pure none
  refine IsCalm.next (IsCalm.ask trivial) Began.lasting (fun _ _ _ => id) fun state => ?_
  refine IsCalm.next hrules Began.lasting (fun _ _ _ => id) fun rules => ?_
  refine IsCalm.next Keeps.get Began.lasting (fun _ _ _ => id) fun s => ?_
  refine IsCalm.next (IsCalm.look trivial) Began.lasting (fun _ _ _ => id) fun poll => ?_
  refine Triple.bind compareSignature_began fun _ => ?_
  exact IsCalm.keeps (IsCalm.set fun _ => rfl) Began.lasting

theorem connected_tracked : Follows (Began config preserving) (connected env config)
    (fun _ => Tracked config) fun _ => Tracked config := by
  refine Triple.get_bind fun s₀ => ?_
  refine Triple.pure_pre (φ := s₀.preservingBrowser = preserving) ?_ fun hpreserving => ?_
  · rintro s l ⟨h, rfl⟩
    exact h.preservingBrowser
  rw [hpreserving]
  refine Triple.pre (P := Began config preserving) ?_ fun _ _ h => h.1
  refine Triple.bind ((Triple.doIf (fun _ => observePrerequisites_began) fun _ _ _ => id).post
    (fun _ _ _ => id) fun _ _ _ h => h.toTracked) fun _ => ?_
  refine Triple.bind (episodeExpired_follows.post (fun _ _ _ => id) fun _ _ _ h => h.toTracked)
    fun expired => ?_
  cases preserving with
  | true =>
    cases expired with
    | true => exact observeExpired_tracked.pre fun _ _ h => h.1.toTracked
    | false =>
      -- With the browser not preserved: an idle pass only observes, another one works within the
      -- deadline.
      refine preserve_tracked.pre fun s l h => ?_
      exact ⟨h.1.toTracked, h.1.preservingBrowser, h.1.began, h.2 rfl⟩
  | false =>
    refine Triple.get_bind fun s => ?_
    split
    · refine (IsCalm.keeps (P := Tracked config) ?_ Tracked.lasting).pre fun _ _ h =>
        h.1.1.toTracked
      refine Keeps.bind IsCalm.observeExpiredWake fun _ => Keeps.doIf fun _ => ?_
      exact Keeps.bind IsCalm.publish fun _ => IsCalm.sleepInterval
    case isFalse hwork =>
      refine (work_tracked husb).pre fun s l h => ?_
      obtain ⟨⟨h, hin⟩, rfl⟩ := h
      refine ⟨h.toTracked, h.preservingBrowser, fun hidle => hin ?_⟩
      rw [Bool.or_eq_false_iff] at hidle
      simpa [hidle.1, hidle.2] using hwork

theorem observeNetwork_tracked : Follows (Began config preserving) (observeNetwork env config)
    (fun _ => Tracked config) fun _ => Tracked config := by
  have htracked : ∀ (e : Failure) s l, Began config preserving s l → Tracked config s l :=
    fun _ _ _ h => h.toTracked
  have hlost : ∀ {reason : String} {stage : Stage} {adbReady network : Bool},
      Follows (Began config preserving) (do
        enterTransportRecovery env config reason stage adbReady network false
        sleepTransportRetry env config) (fun _ => Tracked config) fun _ => Tracked config :=
    fun {_ _ _ _} => Triple.bind (enterTransportRecovery_tracked.pre fun _ _ h => h.toTracked)
      fun _ => IsCalm.sleepTransportRetry.keeps Tracked.lasting
  refine IsCalm.next Keeps.get Began.lasting htracked fun s => ?_
  refine IsCalm.next (IsCalm.ask trivial) Began.lasting htracked fun network => ?_
  refine IsCalm.next (Keeps.doIf fun _ => Keeps.bind IsCalm.restartEpisode fun _ =>
    IsCalm.set fun _ => rfl) Began.lasting htracked fun _ => ?_
  split
  · exact hlost
  · exact hlost
  · exact connected_tracked husb

theorem deviceReady_tracked : Follows (Began config preserving) (deviceReady env config)
    (fun _ => Tracked config) fun _ => Tracked config := by
  have htracked : ∀ (e : Failure) s l, Began config preserving s l → Tracked config s l :=
    fun _ _ _ h => h.toTracked
  refine IsCalm.next (IsCalm.set fun _ => rfl) Began.lasting htracked fun _ => ?_
  refine IsCalm.next Keeps.get Began.lasting htracked fun s => ?_
  split
  · exact (IsCalm.sleepTransportRetry.keeps Tracked.lasting).pre fun _ _ h => h.toTracked
  · exact observeNetwork_tracked husb

end Looking

omit husb in
theorem IsCalm.selectDevice {devices : AdbDevices} :
    IsCalm (OobLifecycle.selectDevice devices) := by
  refine Keeps.bind Keeps.get fun s => Keeps.ite (fun _ => Keeps.pure ()) fun _ => ?_
  split
  · exact Keeps.pure ()
  · exact set fun _ => rfl
  · exact Keeps.raise _

omit husb in
theorem IsCalm.noteObservation {devices : AdbDevices} :
    IsCalm (OobLifecycle.noteObservation env devices) := by
  refine Keeps.bind Keeps.get fun s => Keeps.doIf fun _ => ?_
  exact Keeps.bind restartEpisode fun _ => set fun _ => rfl

omit husb in
theorem waitForAdb_tracked {devices : AdbDevices} : Follows (Tracked config)
    (waitForAdb env config devices) (fun _ => Tracked config) fun _ => Tracked config := by
  refine IsCalm.next (IsCalm.set fun _ => rfl) Tracked.lasting (fun _ _ _ => id) fun _ => ?_
  refine IsCalm.next Keeps.get Tracked.lasting (fun _ _ _ => id) fun s => ?_
  refine Triple.bind enterTransportRecovery_tracked fun _ => ?_
  exact IsCalm.sleepTransportRetry.keeps Tracked.lasting

omit husb in
/-- The pass begins: a repair counts on only for a page that is still preserved. -/
theorem Tracked.begin {s : Lifecycle} {l : Course} (h : Tracked config s l) :
    Began config s.preservingBrowser s (l.began s.preservingBrowser) := by
  refine ⟨⟨h.keys, fun hpreserving hrepair => ?_, fun hrecovering hreleased => ?_, h.expired⟩,
    rfl, rfl⟩
  · obtain ⟨hrepaired, hbegan⟩ := h.repaired hpreserving hrepair
    simp [Course.began, hrepaired, hbegan, hpreserving]
  · refine h.released ?_ hreleased
    simpa [Course.began, hreleased] using hrecovering

/-- **One pass** keeps what the state knows. -/
theorem pass_tracked : Follows (Tracked config) (pass env config) (fun _ => Tracked config)
    fun _ => Tracked config := by
  refine Triple.get_bind fun s₀ => ?_
  have htracked : ∀ (e : Failure) s l, Began config s₀.preservingBrowser s l → Tracked config s l :=
    fun _ _ _ h => h.toTracked
  refine Triple.bind (Q := fun _ => Began config s₀.preservingBrowser) ?_ fun _ => ?_
  · refine Triple.bind (Q := fun _ => Began config s₀.preservingBrowser)
      (Triple.call_ok fun s l reply h => ?_) fun _ => Triple.pure fun _ _ => id
    obtain ⟨h, rfl⟩ := h
    exact ⟨l.began s.preservingBrowser, rfl, h.begin⟩
  · refine IsCalm.next (IsCalm.ask trivial) Began.lasting htracked fun reply => ?_
    refine IsCalm.next IsCalm.selectDevice Began.lasting htracked fun _ => ?_
    refine IsCalm.next IsCalm.noteObservation Began.lasting htracked fun _ => ?_
    refine IsCalm.next Keeps.get Began.lasting htracked fun s => ?_
    split
    · exact deviceReady_tracked husb
    · exact waitForAdb_tracked.pre fun _ _ h => h.toTracked

/-! ### The task -/

theorem passes_tracked (n : ℕ) : Follows (Tracked config) (passes env config n)
    (fun _ => Tracked config) fun _ => Tracked config := by
  induction n with
  | zero => exact Triple.pure fun _ _ => id
  | succ n ih => exact Triple.bind ih fun _ => pass_tracked husb

omit husb in
theorem IsCalm.cleanup : IsCalm (OobLifecycle.cleanup env config) := by
  refine Keeps.bind stopMonitor fun _ => Keeps.bind ?_ fun _ => ?_
  · refine Keeps.bind Keeps.get fun s => Keeps.doIf fun _ => ?_
    exact Keeps.bind (swallow (perform trivial)) fun _ => Keeps.pure ()
  · refine Keeps.bind shieldedCleanup fun _ => Keeps.bind Keeps.get fun s => ?_
    exact Keeps.doIf fun _ => perform trivial

/-- **The whole task** keeps it too. -/
theorem run_tracked (n : ℕ) : Follows (Tracked config) (run env config n)
    (fun _ => Tracked config) fun _ => Tracked config := by
  refine Triple.bind (Triple.attempt (Q := fun _ => Tracked config)
    (R := fun _ => Tracked config) ?_) fun result => ?_
  · refine IsCalm.next Keeps.get Tracked.lasting (fun _ _ _ => id) fun s => ?_
    refine IsCalm.next (Keeps.doIf fun _ => IsCalm.publish) Tracked.lasting (fun _ _ _ => id)
      fun _ => passes_tracked husb n
  · cases result with
    | ok _ => exact Triple.pure fun _ _ => id
    | error e =>
      refine IsCalm.next IsCalm.cleanup Tracked.lasting (fun _ _ _ => id) fun _ => ?_
      exact Triple.raise fun _ _ => id

end UsbLocal

end Programs

/-! ### Every run -/

/-- The events of the first `n` passes of a new lifecycle. -/
def trace (env : List Happening → Reply) (config : Config) (androidSerial : Option String) (now : ℚ)
    (n : ℕ) : List Happening :=
  (run env config n ⟨Lifecycle.init androidSerial now, []⟩).2.events

theorem Course.next_eq_some {l l' : Course} {event : Happening} (h : l.next event = some l') :
    l.refuses event.1 = false ∧ l' = l.observe event := by
  unfold Course.next at h
  split at h
  · cases h
  case isFalse hrefuses => exact ⟨Bool.eq_false_of_not_eq_true hrefuses, (Option.some.inj h).symm⟩

theorem Course.of_snoc (events : List Happening) (event : Happening) :
    Course.of (events ++ [event]) = (Course.of events).observe event := by
  rw [Course.of, List.foldl_append]
  rfl

/-- The monitor ends in what the trace says. -/
theorem course_of_accepts {events : List Happening} {l : Course}
    (h : Monitor.Accepts Course.next Course.init events l) : l = Course.of events := by
  refine Monitor.induction (P := fun events l => l = Course.of events) rfl ?_ h
  intro events l event l' hl hnext
  rw [(Course.next_eq_some hnext).2, hl, Course.of_snoc]

/-- The readings of a longer trace. -/
theorem readings_snoc (events : List Happening) (event : Happening) :
    readings (events ++ [event]) = readings events ∧
        ((Course.of events).observe event).clock = (Course.of events).clock ∧
        ((Course.of events).observe event).forward = (Course.of events).forward ∨
      ∃ now, readings (events ++ [event]) = readings events ++ [now] ∧
        (Course.of events).observe event = (Course.of events).read now := by
  have happend : readings (events ++ [event]) = readings events ++ readings [event] :=
    List.filterMap_append
  have hnone (h : readings [event] = []) : readings (events ++ [event]) = readings events := by
    rw [happend, h, List.append_nil]
  obtain ⟨c, answer⟩ := event
  cases c with
  | clock =>
    cases answer with
    | ok reply => exact .inr ⟨reply.time, happend, rfl⟩
    | error e => exact .inl ⟨hnone rfl, rfl, rfl⟩
  | note n => exact .inl ⟨hnone rfl, by cases n <;> exact ⟨rfl, rfl⟩⟩
  | _ => exact .inl ⟨hnone rfl, rfl, rfl⟩

/-- A trace whose readings do not decrease. -/
theorem forward_of_readings (events : List Happening) :
    (Course.of events).clock = (readings events).getLast? ∧
      ((readings events).Pairwise (· ≤ ·) → (Course.of events).forward = true) := by
  induction events using List.reverseRecOn with
  | nil => exact ⟨rfl, fun _ => rfl⟩
  | append_singleton events event ih =>
    rw [Course.of_snoc]
    rcases readings_snoc events event with ⟨hreadings, hclock, hforward⟩ | ⟨now, hreadings, hread⟩
    · rw [hreadings, hclock, hforward]
      exact ih
    · rw [hreadings, hread]
      refine ⟨by simp [Course.read], fun hpairwise => ?_⟩
      rw [List.pairwise_append] at hpairwise
      obtain ⟨hbefore, -, hlast⟩ := hpairwise
      simp only [Course.read, ih.2 hbefore, Bool.true_and, ih.1]
      cases hlast? : (readings events).getLast? with
      | none => rfl
      | some t => exact decide_eq_true (hlast t (List.mem_of_getLast? hlast?) now (by simp))

/-- Each key is spent by one attempt more than were refused. -/
theorem attempts_le {events : List Happening} {l : Course} (key : ClickKey)
    (h : Monitor.Accepts Course.next Course.init events l) :
    l.spent.Nodup ∧ attempts key events ≤ refusals key events + l.spent.count key := by
  refine Monitor.induction (P := fun events l => l.spent.Nodup ∧
    attempts key events ≤ refusals key events + l.spent.count key) ⟨List.nodup_nil, le_refl 0⟩ ?_ h
  intro events l event l' hl hnext
  obtain ⟨hrefuses, rfl⟩ := Course.next_eq_some hnext
  obtain ⟨hnodup, hle⟩ := hl
  obtain ⟨c, answer⟩ := event
  have hattempts : attempts key (events ++ [(c, answer)]) =
      attempts key events + if c = .note (.sameTabConnect key) then 1 else 0 := by
    simp [attempts, List.countP_append, List.countP_singleton]
  have hrefusals : refusals key (events ++ [(c, answer)]) =
      refusals key events + if c = .note (.headsetAsleep key) then 1 else 0 := by
    simp [refusals, List.countP_append, List.countP_singleton]
  rw [hattempts, hrefusals]
  cases c with
  | note n =>
    cases n with
    | sameTabConnect key' =>
      -- A click spends its key, and only a key that is not spent.
      have hfresh : key' ∉ l.spent := of_decide_eq_false hrefuses
      refine ⟨List.nodup_cons.mpr ⟨hfresh, hnodup⟩, ?_⟩
      simp only [Course.observe, Course.noted, List.count_cons, Call.note.injEq,
        Note.sameTabConnect.injEq, reduceCtorEq, if_false, beq_iff_eq]
      omega
    | headsetAsleep key' =>
      -- A refusal gives the key back.
      refine ⟨hnodup.erase key', ?_⟩
      simp only [Course.observe, Course.noted, Call.note.injEq, Note.headsetAsleep.injEq,
        reduceCtorEq, if_false, List.count_erase, beq_iff_eq]
      split
      all_goals omega
    | _ => exact ⟨hnodup, by simpa [Course.observe, Course.noted] using hle⟩
  | clock =>
    cases answer with
    | ok reply => exact ⟨hnodup, by simpa [Course.observe, Course.read] using hle⟩
    | error e => exact ⟨hnodup, by simpa [Course.observe] using hle⟩
  | _ => exact ⟨hnodup, by simpa [Course.observe, Course.began] using hle⟩

theorem Tracked.init {config : Config} (androidSerial : Option String) (now : ℚ) :
    Tracked config (Lifecycle.init androidSerial now) Course.init :=
  ⟨rfl, nofun, fun _ _ => rfl, nofun⟩

/-- The monitor accepts every run. -/
theorem trace_accepted (env : List Happening → Reply) {config : Config}
    (husb : config.usbLocal = true) (androidSerial : Option String) (now : ℚ) (n : ℕ) :
    ∃ l, Monitor.Accepts Course.next Course.init (trace env config androidSerial now n) l := by
  have htask : Follows (Tracked config) (run env config n) (fun _ => Tracked config)
      fun _ => Tracked config := run_tracked husb n
  have hrun := htask ⟨Lifecycle.init androidSerial now, []⟩
    ⟨Course.init, rfl, Tracked.init androidSerial now⟩
  unfold Fallible.wp at hrun
  unfold trace
  rcases hresult : run env config n ⟨Lifecycle.init androidSerial now, []⟩ with ⟨e | a, w⟩
  all_goals
    rw [hresult] at hrun
    obtain ⟨l, haccepts, -⟩ := hrun
    exact ⟨l, haccepts⟩

/-- **A surviving browser is relaunched only after its grace:** over USB, whatever the environment
does and as long as the clock does not go back, `_automate` is entered only when USB was rebuilt,
before the episode was seen to be over, and for a page that is preserved, or was and did not stream
since, at or after the deadline in force.  Each key has at most one same-tab CONNECT that the
headset's sleep did not refuse. -/
theorem relaunch_after_grace (env : List Happening → Reply) (config : Config)
    (husb : config.usbLocal = true) (androidSerial : Option String) (now : ℚ) (n : ℕ) :
    ((readings (trace env config androidSerial now n)).Pairwise (· ≤ ·) →
      ∀ before after preserving deadline answer, trace env config androidSerial now n =
        before ++ (.note (.automate preserving deadline), answer) :: after →
          (Course.of before).permits preserving deadline = true) ∧
      ∀ key, attempts key (trace env config androidSerial now n) ≤
        refusals key (trace env config androidSerial now n) + 1 := by
  obtain ⟨l, haccepts⟩ := trace_accepted env husb androidSerial now n
  refine ⟨fun hpairwise before after preserving deadline answer hsplit => ?_, fun key => ?_⟩
  · rw [hsplit] at haccepts hpairwise
    obtain ⟨l₁, hbefore, hrest⟩ := Monitor.accepts_append.mp haccepts
    obtain ⟨l₂, hnext, -⟩ := Monitor.accepts_cons.mp hrest
    have hpairwise' : (readings before).Pairwise (· ≤ ·) := by
      rw [readings, List.filterMap_append] at hpairwise
      exact (List.pairwise_append.mp hpairwise).1
    have hforward := (forward_of_readings before).2 hpairwise'
    have hrefuses := (Course.next_eq_some hnext).1
    rw [course_of_accepts hbefore] at hrefuses
    simpa [Course.refuses, hforward] using hrefuses
  · obtain ⟨hnodup, hle⟩ := attempts_le key haccepts
    have hcount := List.nodup_iff_count_le_one.mp hnodup key
    omega

/-- The headset is ready, USB can be rebuilt, and no page reports or is monitored for long. -/
def usbReply : Reply where
  failure := none
  banner := none
  devices := ⟨[("headset", "device")], ""⟩
  network := .networkPresent
  diagnostic := ""
  headsets := []
  report := none
  flag := true
  missingPorts := []
  rules := none
  exitCode := none
  speed := none
  time := 0

def usbConfig : Config where
  usbLocal := true
  turnPort := some 3478
  resolvedPort := 48322
  usbBackendPort := 48323
  usbHealthPolicy := .off
  metricsStaleSec := 5
  timeoutSec := 60
  intervalSec := 5
  clientReconnectEnabled := true
  clientReconnectMaxAttempts := 10
  clientReconnectDelayMs := 3000

/-- The fourth pass is 45 seconds later, and its same-tab click finds no page. -/
def graceEnv : List Happening → Reply := fun events =>
  if events.length < 87 then usbReply
  else { usbReply with
    time := 45
    failure := if events.length = 101 then some .oobAdbError else none }

/-- The relaunch of a page whose grace of 40 seconds is over. -/
theorem silent_page_relaunched :
    (readings (trace graceEnv usbConfig (some "headset") 0 4)).Pairwise (· ≤ ·) ∧
      (Course.of ((trace graceEnv usbConfig (some "headset") 0 4).take 102)).permits true
        (some 40) = true := by
  have hreadings : (readings (trace graceEnv usbConfig (some "headset") 0 4)).Pairwise
      (· ≤ ·) := by
    decide +kernel
  refine ⟨hreadings, ?_⟩
  have hevent : (trace graceEnv usbConfig (some "headset") 0 4)[102]? =
      some (.note (.automate true (some 40)), .ok { usbReply with time := 45 }) := by
    decide +kernel
  refine (relaunch_after_grace graceEnv usbConfig rfl (some "headset") 0 4).1 hreadings _
    ((trace graceEnv usbConfig (some "headset") 0 4).drop 103) true (some 40)
    (.ok { usbReply with time := 45 }) ?_
  have hsplit := (List.take_append_drop 102 (trace graceEnv usbConfig (some "headset") 0 4)).symm
  rw [List.drop_eq_getElem?_toList_append, hevent] at hsplit
  exact hsplit

end OobLifecycle
