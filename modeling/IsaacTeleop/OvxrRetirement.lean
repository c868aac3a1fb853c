/-
Retirement of an OVXR session.

Whatever the interleaving, the frame pump is closed at most once, by the worker, and after
the borrowers of an exposed session were declared quiesced.  A ledger follows what a run
shows to the outside and refuses every other order; the threads are related to it by an
invariant.

* `Ledger.next` — the orders that are allowed;
* `Inv` — the invariant of the threads, and one lemma for each of them;
* `retirement_safe` — every interleaving.
-/
import IsaacTeleop.OvxrSession
import IsaacTeleop.TraceMonitor

namespace OvxrSession

variable {H E : Type}

/-! ### The ledger -/

inductive Stage
  | running
  | decided
  | closed
  | finished
  deriving DecidableEq, Repr

/-- What matters of a session's past. -/
structure Ledger where
  exposed : Bool
  quiesced : Bool
  failed : Bool
  stage : Stage
  deriving DecidableEq, Repr

def Ledger.init : Ledger := ⟨false, false, false, .running⟩

/-- What may happen next. -/
def Ledger.next (l : Ledger) : Observation H → Option Ledger
  | .startReturned false => some l
  | .startReturned true | .handlesReturned _ =>
    if l.stage = .running then some { l with exposed := true } else none
  | .quiesced => some { l with quiesced := true }
  | .decided exposed =>
    if l.stage = .running ∧ exposed = l.exposed then some { l with stage := .decided } else none
  | .pumpClosed .worker =>
    if l.stage = .decided ∧ (l.exposed = true → l.quiesced = true) then
      some { l with stage := .closed }
    else none
  | .pumpClosed _ => none
  | .failed => if l.stage = .finished then none else some { l with failed := true }
  | .finished => if l.stage = .closed then some { l with stage := .finished } else none
  | .closeReturned true =>
    if l.stage = .finished ∧ l.failed = false then some l else none
  | .closeReturned false => some l

/-- What hands the handles to borrowers. -/
def Observation.Exposes : Observation H → Prop
  | .startReturned true | .handlesReturned _ => True
  | _ => False

def Observation.closesPump : Observation H → Bool
  | .pumpClosed _ => true
  | _ => false

section Next

variable {t t' : List (Observation H)} {l l' : Ledger} {o : Observation H}

theorem Ledger.next_exposed (h : l.next o = some l') :
    (o.Exposes ∧ l.stage = .running ∧ l'.exposed = true) ∨
      (¬o.Exposes ∧ l'.exposed = l.exposed) := by
  unfold Ledger.next at h
  grind [Observation.Exposes]

theorem Ledger.next_quiesced (h : l.next o = some l') :
    (o = .quiesced ∧ l'.quiesced = true) ∨ (o ≠ .quiesced ∧ l'.quiesced = l.quiesced) := by
  unfold Ledger.next at h
  grind

theorem Ledger.next_failed (h : l.next o = some l') :
    (o = .failed ∧ l.stage ≠ .finished ∧ l'.failed = true) ∨
      (o ≠ .failed ∧ l'.failed = l.failed) := by
  unfold Ledger.next at h
  grind

/-- The stages follow each other in one order. -/
theorem Ledger.next_stage (h : l.next o = some l') :
    (o = .decided l.exposed ∧ l.stage = .running ∧ l'.stage = .decided) ∨
      (o = .pumpClosed .worker ∧ l.stage = .decided ∧ l'.stage = .closed) ∨
      (o = .finished ∧ l.stage = .closed ∧ l'.stage = .finished) ∨
      (o.closesPump = false ∧ o ≠ .finished ∧ l'.stage = l.stage) := by
  unfold Ledger.next at h
  split at h <;> grind [Observation.closesPump]

/-- How a ledger summarizes its trace. -/
structure Ledger.Summary (trace : List (Observation H)) (l : Ledger) : Prop where
  exposed : ∀ o ∈ trace, o.Exposes → l.exposed = true
  quiesced : l.quiesced = true → .quiesced ∈ trace
  failed : .failed ∈ trace → l.failed = true
  closes : trace.filter Observation.closesPump =
    if l.stage = .running ∨ l.stage = .decided then [] else [.pumpClosed .worker]
  finished : l.stage = .finished → .finished ∈ trace

theorem Ledger.summary (h : Monitor.Accepts Ledger.next Ledger.init t l) :
    Ledger.Summary t l := by
  -- By the observations, each field from what one observation may change.
  refine Monitor.induction ?_ ?_ h
  · constructor <;> simp [Ledger.init]
  · intro t l o l' hl hnext
    constructor
    · intro o' ho' hexposes
      have hkept := Ledger.next_exposed hnext
      have hold := hl.exposed o'
      grind
    · intro hquiesced
      have hkept := Ledger.next_quiesced hnext
      have hold := hl.quiesced
      grind
    · intro hfailed
      have hkept := Ledger.next_failed hnext
      have hold := hl.failed
      grind
    · have hkept := Ledger.next_stage hnext
      have hold := hl.closes
      rw [List.filter_append, hold]
      grind [Observation.closesPump]
    · intro hstage
      have hkept := Ledger.next_stage hnext
      have hold := hl.finished
      grind

/-- Once the worker has decided, nothing is exposed. -/
theorem Ledger.not_exposes_of_decided (hstage : l.stage ≠ .running)
    (h : Monitor.Accepts Ledger.next l t l') : ∀ o ∈ t, ¬o.Exposes := by
  refine Monitor.never (P := fun l => l.stage ≠ .running) hstage ?_ h
  intro l o l' hl hnext
  have hexposed := Ledger.next_exposed hnext
  have hkept := Ledger.next_stage hnext
  grind

/-- Once the worker has finished, nothing fails. -/
theorem Ledger.not_failed_of_finished (hstage : l.stage = .finished)
    (h : Monitor.Accepts Ledger.next l t l') : .failed ∉ t := by
  have hnever : ∀ o ∈ t, ¬o = .failed := by
    refine Monitor.never (P := fun l => l.stage = .finished) hstage ?_ h
    intro l o l' hl hnext
    have hfailed := Ledger.next_failed hnext
    have hkept := Ledger.next_stage hnext
    grind
  exact fun hmem => hnever _ hmem rfl

/-- The traces that the ledger allows. -/
structure Retires (trace : List (Observation H)) : Prop where
  /-- The pump is closed at most once, by the worker. -/
  single : trace.filter Observation.closesPump = [] ∨
    trace.filter Observation.closesPump = [.pumpClosed .worker]
  /-- After the borrowers of an exposed session were declared quiesced. -/
  borrowers : ∀ t t' by_, trace = t ++ .pumpClosed by_ :: t' →
    (∃ o ∈ trace, o.Exposes) → .quiesced ∈ t
  /-- Nothing is exposed once the worker has decided otherwise. -/
  decision : ∀ t t', trace = t ++ .decided false :: t' → ∀ o ∈ t', ¬o.Exposes
  /-- `close` of a started session returns normally after the worker without an error. -/
  returned : ∀ t t', trace = t ++ .closeReturned true :: t' →
    .finished ∈ t ∧ .failed ∉ trace

theorem Ledger.retires (h : Monitor.Accepts Ledger.next Ledger.init t l) : Retires t := by
  constructor
  · have hcloses := (Ledger.summary h).closes
    split at hcloses
    · exact .inl hcloses
    · exact .inr hcloses
  · rintro u u' by_ rfl ⟨o, ho, hexposes⟩
    obtain ⟨l₁, hu, hrest⟩ := Monitor.accepts_append.mp h
    obtain ⟨l₂, hnext, hu'⟩ := Monitor.accepts_cons.mp hrest
    have hsummary := Ledger.summary hu
    -- The ledger takes a decision only when what was exposed is quiesced.
    have hallowed : l₂.stage ≠ .running ∧ (l₁.exposed = true → l₁.quiesced = true) := by
      unfold Ledger.next at hnext
      grind
    rcases List.mem_append.mp ho with hmem | hmem
    · exact hsummary.quiesced (hallowed.2 (hsummary.exposed o hmem hexposes))
    · rcases List.mem_cons.mp hmem with rfl | hmem
      · exact absurd hexposes (by simp [Observation.Exposes])
      · exact absurd hexposes (Ledger.not_exposes_of_decided hallowed.1 hu' o hmem)
  · rintro u u' rfl
    obtain ⟨l₁, -, hrest⟩ := Monitor.accepts_append.mp h
    obtain ⟨l₂, hnext, hu'⟩ := Monitor.accepts_cons.mp hrest
    refine Ledger.not_exposes_of_decided ?_ hu'
    have hstage := Ledger.next_stage hnext
    grind [Ledger.next]
  · rintro u u' rfl
    obtain ⟨l₁, hu, hrest⟩ := Monitor.accepts_append.mp h
    obtain ⟨l₂, hnext, hu'⟩ := Monitor.accepts_cons.mp hrest
    have hsummary := Ledger.summary hu
    -- Success is reported by a ledger that is finished and has not failed, before or after.
    have hallowed : l₁.stage = .finished ∧ l₁.failed = false ∧ l₂ = l₁ := by
      unfold Ledger.next at hnext
      grind
    obtain ⟨hfinished, hfailed, rfl⟩ := hallowed
    refine ⟨hsummary.finished hfinished, fun hmem => ?_⟩
    rcases List.mem_append.mp hmem with hmem | hmem
    · rw [hsummary.failed hmem] at hfailed
      contradiction
    · rcases List.mem_cons.mp hmem with heq | hmem
      · cases heq
      · exact Ledger.not_failed_of_finished hfinished hu' hmem

end Next

/-! ### The invariant -/

/-- What the worker has shown so far. -/
def WorkerPc.stage : WorkerPc E → Stage
  | .quiescing | .closing => .decided
  | .retiring | .closeFailing _ | .closeRecording _ | .ending => .closed
  | .finished => .finished
  | _ => .running

/-- The worker has left its loop. -/
def WorkerPc.Stopping : WorkerPc E → Prop
  | .recording _ | .deciding | .quiescing | .closing | .retiring | .closeFailing _
  | .closeRecording _ | .ending | .finished => True
  | _ => False

def AppPc.Locked : AppPc E → Prop
  | .bootstrapped | .checking | .exposing => True
  | _ => False

def HostPc.Locked : HostPc → Prop
  | .handlesLocked | .handlesOpen | .renderLocked _ | .admitted _ | .declined => True
  | _ => False

/-- `start` before its worker, or `close` without one. -/
def AppPc.Unstarted : AppPc E → Prop
  | .offered | .spawning | .aborting | .abortingHost | .hostAborted => True
  | _ => False

/-- `close` has seen the end of the worker. -/
def AppPc.Settled : AppPc E → Prop
  | .stoppingRuntime | .runtimeStopped | .joined _ => True
  | _ => False

/-- The ledger of a state. -/
def State.ledger (s : State H E) : Ledger :=
  ⟨s.borrowersExposed, s.borrowersQuiesced, s.workerError.isSome, s.worker.stage⟩

structure Inv (s : State H E) : Prop where
  accepts : Monitor.Accepts Ledger.next Ledger.init s.trace s.ledger
  stopping : s.worker.Stopping → s.shutdownRequested = true
  closing : s.worker = .closing → s.borrowersExposed = true → s.borrowersQuiesced = true
  closed : s.phase = .closed → s.started = true → s.worker = .finished
  absent : s.started = false → s.worker = .absent
  unstarted : s.app.Unstarted → s.started = false
  spawning : s.app = .spawning → s.phase ≠ .closed
  settled : s.app.Settled → s.started = true → s.worker = .finished
  appLock : s.app.Locked → s.lock = some .app
  workerLock : s.worker = .publishing → s.lock = some .worker
  hostLock : ∀ h, (s.hosts h).Locked → s.lock = some (.host h)
  /-- A section that exposes borrowers ends before the worker decides. -/
  appExposes : s.app = .exposing → s.worker.stage = .running
  hostExposes : ∀ h, s.hosts h = .handlesOpen → s.worker.stage = .running

theorem Inv.init : Inv (State.init : State H E) := by
  constructor <;> simp [State.init, Monitor.Accepts, State.ledger, Ledger.init, WorkerPc.stage,
    WorkerPc.Stopping, AppPc.Unstarted, AppPc.Settled, AppPc.Locked, HostPc.Locked]

theorem WorkerPc.stage_of_not_stopping {pc : WorkerPc E} (h : ¬pc.Stopping) :
    pc.stage = .running := by
  cases pc <;> simp_all [WorkerPc.Stopping, WorkerPc.stage]

theorem WorkerPc.eq_finished {pc : WorkerPc E} (h : pc.stage = .finished) : pc = .finished := by
  cases pc <;> first | rfl | cases h

/-- A trace grows by what the ledger allows. -/
theorem Inv.accepts_observe {s : State H E} (hi : Inv s) {o : Observation H} {l : Ledger}
    (h : s.ledger.next o = some l) :
    Monitor.Accepts Ledger.next Ledger.init (s.trace ++ [o]) l :=
  Monitor.accepts_snoc.mpr ⟨s.ledger, hi.accepts, h⟩

theorem Inv.requestWorkerShutdown {s : State H E} (hi : Inv s) : Inv s.requestWorkerShutdown := by
  unfold State.requestWorkerShutdown
  split
  · exact hi
  · exact { hi with stopping := fun _ => rfl }

theorem Inv.callStart {s : State H E} (hi : Inv s) (checks : Outcome E) :
    Inv (callStart s checks) := by
  unfold OvxrSession.callStart
  split
  · exact hi
  · rename_i hopen
    push Not at hopen
    split
    · exact hi
    · exact { hi with
        unstarted := fun _ => by simpa using hopen.2
        spawning := nofun
        settled := nofun
        appLock := nofun
        appExposes := nofun }

theorem Inv.callClose {s : State H E} (hi : Inv s) : Inv (callClose s) := by
  unfold OvxrSession.callClose
  split
  · rename_i hclosed
    exact { hi with
      unstarted := nofun
      spawning := nofun
      settled := fun _ => hi.closed hclosed
      appLock := nofun
      appExposes := nofun }
  · split
    · rename_i hstarted
      exact { hi with
        unstarted := fun _ => hstarted
        spawning := nofun
        settled := nofun
        appLock := nofun
        appExposes := nofun }
    · exact { hi with
        unstarted := nofun
        spawning := nofun
        settled := nofun
        appLock := nofun
        appExposes := nofun }

/-- An observation that leaves the ledger as it is. -/
theorem Inv.observe {s : State H E} (hi : Inv s) {o : Observation H}
    (h : s.ledger.next o = some s.ledger) : Inv (s.observe o) :=
  { hi with accepts := hi.accepts_observe h }

/-- Borrowers may be exposed until the worker has decided. -/
theorem Inv.accepts_exposed {s : State H E} (hi : Inv s) (hrunning : s.worker.stage = .running)
    {o : Observation H} (ho : o.Exposes) :
    Monitor.Accepts Ledger.next Ledger.init (s.trace ++ [o])
      { s.ledger with exposed := true } := by
  refine hi.accepts_observe ?_
  unfold Observation.Exposes at ho
  split at ho
  · exact if_pos hrunning
  · exact if_pos hrunning
  · exact ho.elim

/-- Nobody is in a section while the lock is free. -/
theorem Inv.free_of_lock {s : State H E} (hi : Inv s) (hfree : s.lock = none) :
    ¬s.app.Locked ∧ s.worker ≠ .publishing ∧ ∀ h, ¬(s.hosts h).Locked := by
  refine ⟨fun h => ?_, fun h => ?_, fun host h => ?_⟩
  · have hheld := hi.appLock h
    rw [hfree] at hheld
    cases hheld
  · have hheld := hi.workerLock h
    rw [hfree] at hheld
    cases hheld
  · have hheld := hi.hostLock host h
    rw [hfree] at hheld
    cases hheld

/-! ### The application thread -/

/-- Between its sections the application thread owes nothing. -/
def AppPc.Quiet (pc : AppPc E) : Prop := ¬pc.Unstarted ∧ ¬pc.Settled ∧ ¬pc.Locked

theorem Inv.setApp {s : State H E} (hi : Inv s) {p : AppPc E} (hpc : p.Quiet) :
    Inv { s with app := p } :=
  { hi with
    unstarted := fun h => absurd h hpc.1
    settled := fun h => absurd h hpc.2.1
    appLock := fun h => absurd h hpc.2.2
    spawning := fun h => absurd (show AppPc.Unstarted p by rw [show p = .spawning from h]; trivial)
      hpc.1
    appExposes := fun h => absurd (show AppPc.Locked p by rw [show p = .exposing from h]; trivial)
      hpc.2.2 }

/-- The application thread takes the lock. -/
theorem Inv.takeApp {s : State H E} (hi : Inv s) (hfree : s.lock = none) {pc : AppPc E}
    (hpc : pc = .bootstrapped ∨ pc = .checking) :
    Inv { s with lock := some .app, app := pc } := by
  obtain ⟨-, hworker, hhosts⟩ := hi.free_of_lock hfree
  refine { hi with
    unstarted := fun h => ?_
    spawning := fun h => ?_
    settled := fun h => ?_
    appLock := fun _ => rfl
    workerLock := fun h => absurd h hworker
    hostLock := fun h hlocked => absurd hlocked (hhosts h)
    appExposes := fun h => ?_ }
  · rcases hpc with rfl | rfl <;> exact h.elim
  · rcases hpc with rfl | rfl <;> cases h
  · rcases hpc with rfl | rfl <;> exact h.elim
  · rcases hpc with rfl | rfl <;> cases h

/-- The application thread leaves its section. -/
theorem Inv.releaseApp {s : State H E} (hi : Inv s) (hlock : s.lock = none ∨ s.lock = some .app)
    {pc : AppPc E} (hpc : pc.Quiet) : Inv { s with lock := none, app := pc } := by
  refine { hi.setApp hpc with
    appLock := fun h => absurd h hpc.2.2
    workerLock := fun h => ?_
    hostLock := fun h hlocked => ?_ }
  · have hheld := hi.workerLock h
    rcases hlock with hlock | hlock <;>
    · rw [hlock] at hheld
      cases hheld
  · have hheld := hi.hostLock h hlocked
    rcases hlock with hlock | hlock <;>
    · rw [hlock] at hheld
      cases hheld

theorem AppPc.quiet_idle : (AppPc.idle : AppPc E).Quiet := ⟨id, id, id⟩

theorem Inv.abandonStart {s : State H E} (hi : Inv s)
    (hlock : s.lock = none ∨ s.lock = some .app) : Inv (abandonStart s) := by
  refine hi.requestWorkerShutdown.releaseApp ?_ AppPc.quiet_idle
  unfold State.requestWorkerShutdown
  split <;> exact hlock

/-- `close` returns normally only when no error was recorded. -/
theorem Inv.returnClose {s : State H E} (hi : Inv s) (wakeError : Option E)
    (hfinished : s.started = true → s.worker = .finished) : Inv (returnClose s wakeError) := by
  unfold OvxrSession.returnClose
  split
  · exact hi.setApp AppPc.quiet_idle
  · rename_i herror
    refine (hi.setApp AppPc.quiet_idle).observe ?_
    have hnone : s.workerError.isSome = false := by
      simp only [Bool.or_eq_true, not_or] at herror
      simpa using herror.1
    cases hstarted : s.started with
    | false => rfl
    | true =>
      have hworker := hfinished hstarted
      simp [Ledger.next, State.ledger, hnone, hworker, WorkerPc.stage]

/-! ### The steps of `start` -/

section Start

variable {s s' : State H E} {outcome : Outcome E}

theorem Inv.stepOffered (hi : Inv s) (hpc : s.app = .offered)
    (h : appStep s outcome = some s') : Inv s' := by
  -- there is no worker yet
  have hstarted := hi.unstarted (by rw [hpc]; trivial)
  simp only [OvxrSession.appStep, hpc] at h
  cases h
  exact { hi with
    closed := nofun
    unstarted := fun _ => hstarted
    spawning := fun _ => nofun
    settled := nofun
    appLock := nofun
    appExposes := nofun }

/-- The worker begins: it has told nothing yet, and the trace stays accepted. -/
theorem Inv.spawn (hi : Inv s) (hpc : s.app = .spawning) :
    Inv { s with started := true, worker := .attaching, app := .awaitingBootstrap } := by
  have habsent := hi.absent (hi.unstarted (by rw [hpc]; trivial))
  have haccepts := hi.accepts
  unfold State.ledger at haccepts
  rw [habsent] at haccepts
  exact {
    accepts := haccepts
    stopping := nofun
    closing := nofun
    closed := fun h => absurd h (hi.spawning hpc)
    absent := nofun
    unstarted := nofun
    spawning := nofun
    settled := nofun
    appLock := nofun
    workerLock := nofun
    hostLock := hi.hostLock
    appExposes := nofun
    hostExposes := fun _ _ => rfl }

theorem Inv.stepSpawning (hi : Inv s) (hpc : s.app = .spawning)
    (h : appStep s outcome = some s') : Inv s' := by
  have hstarted := hi.unstarted (by rw [hpc]; trivial)
  simp only [OvxrSession.appStep, hpc] at h
  split at h
  · cases h
    exact { hi with
      unstarted := fun _ => hstarted
      spawning := nofun
      settled := nofun
      appLock := nofun
      appExposes := nofun }
  · cases h
    exact hi.spawn hpc

theorem Inv.stepAborting (hi : Inv s) (hpc : s.app = .aborting)
    (h : appStep s outcome = some s') : Inv s' := by
  have hstarted := hi.unstarted (by rw [hpc]; trivial)
  simp only [OvxrSession.appStep, hpc] at h
  cases h
  refine { hi.setApp AppPc.quiet_idle with
    closed := fun _ h => ?_
    spawning := nofun }
  rw [show s.started = true from h] at hstarted
  cases hstarted

theorem Inv.stepAwaitingBootstrap (hi : Inv s) (hpc : s.app = .awaitingBootstrap)
    (h : appStep s outcome = some s') : Inv s' := by
  simp only [OvxrSession.appStep, hpc] at h
  split at h
  · cases h
  rename_i hfree
  have hfree : s.lock = none := not_not.mp hfree
  split at h
  · cases h
    exact hi.abandonStart (.inl hfree)
  split at h
  · cases h
    exact hi
  split at h
  · cases h
    exact hi.abandonStart (.inl hfree)
  · cases h
    exact hi.takeApp hfree (.inl rfl)

theorem Inv.stepBootstrapped (hi : Inv s) (hpc : s.app = .bootstrapped)
    (h : appStep s outcome = some s') : Inv s' := by
  have hlock := hi.appLock (by rw [hpc]; trivial)
  simp only [OvxrSession.appStep, hpc] at h
  split at h
  · cases h
    exact { hi with
      unstarted := nofun
      spawning := nofun
      settled := nofun
      appLock := fun _ => hlock
      appExposes := nofun }
  · cases h
    exact hi.releaseApp (.inr hlock) ⟨id, id, id⟩

theorem Inv.stepAwaitingReady (hi : Inv s) (hpc : s.app = .awaitingReady)
    (h : appStep s outcome = some s') : Inv s' := by
  simp only [OvxrSession.appStep, hpc] at h
  split at h
  · cases h
  rename_i hfree
  have hfree : s.lock = none := not_not.mp hfree
  split at h
  · cases h
    exact hi.abandonStart (.inl hfree)
  split at h
  · cases h
    exact hi.takeApp hfree (.inr rfl)
  · cases h
    exact hi

theorem Inv.stepChecking (hi : Inv s) (hpc : s.app = .checking)
    (h : appStep s outcome = some s') : Inv s' := by
  have hlock := hi.appLock (by rw [hpc]; trivial)
  simp only [OvxrSession.appStep, hpc] at h
  split at h
  · cases h
    exact hi.abandonStart (.inr hlock)
  split at h
  · cases h
    exact (hi.releaseApp (.inr hlock) AppPc.quiet_idle).observe rfl
  · rename_i hopen
    push Not at hopen
    cases h
    -- no shutdown was requested, so the worker is still in its loop
    have hrunning : s.worker.stage = .running :=
      WorkerPc.stage_of_not_stopping fun hstop => hopen.2 (hi.stopping hstop)
    exact { hi with
      unstarted := nofun
      spawning := nofun
      settled := nofun
      appLock := fun _ => hlock
      appExposes := fun _ => hrunning }

theorem Inv.stepExposing (hi : Inv s) (hpc : s.app = .exposing)
    (h : appStep s outcome = some s') : Inv s' := by
  have hlock := hi.appLock (by rw [hpc]; trivial)
  -- the lock has been held since the check, so the worker cannot have decided
  have hrunning := hi.appExposes hpc
  simp only [OvxrSession.appStep, hpc] at h
  cases h
  refine { hi.releaseApp (.inr hlock) AppPc.quiet_idle with
    accepts := hi.accepts_exposed hrunning trivial
    closing := fun h => ?_ }
  rw [show s.worker = .closing from h] at hrunning
  cases hrunning

end Start

/-! ### The steps of `close` -/

section Close

variable {s s' : State H E} {outcome : Outcome E}

theorem Inv.stepStoppingRuntime (hi : Inv s) (hpc : s.app = .stoppingRuntime)
    (h : appStep s outcome = some s') : Inv s' := by
  have hfinished := hi.settled (by rw [hpc]; trivial)
  simp only [OvxrSession.appStep, hpc] at h
  split at h
  · cases h
    exact hi.setApp AppPc.quiet_idle
  · cases h
    exact { hi with
      unstarted := nofun
      spawning := nofun
      settled := fun _ => hfinished
      appLock := nofun
      appExposes := nofun }

theorem Inv.stepAbortingHost (hi : Inv s) (hpc : s.app = .abortingHost)
    (h : appStep s outcome = some s') : Inv s' := by
  have hstarted := hi.unstarted (by rw [hpc]; trivial)
  simp only [OvxrSession.appStep, hpc] at h
  split at h
  · cases h
    exact hi.setApp AppPc.quiet_idle
  · cases h
    exact { hi with
      unstarted := fun _ => hstarted
      spawning := nofun
      settled := nofun
      appLock := nofun
      appExposes := nofun }

theorem Inv.stepHostAborted (hi : Inv s) (hpc : s.app = .hostAborted)
    (h : appStep s outcome = some s') : Inv s' := by
  have hstarted := hi.unstarted (by rw [hpc]; trivial)
  simp only [OvxrSession.appStep, hpc] at h
  cases h
  refine { (hi.setApp AppPc.quiet_idle).observe rfl with
    closed := fun _ h => ?_
    spawning := nofun }
  rw [show s.started = true from h] at hstarted
  cases hstarted

theorem Inv.stepRequesting (hi : Inv s) (hpc : s.app = .requesting)
    (h : appStep s outcome = some s') : Inv s' := by
  simp only [OvxrSession.appStep, hpc] at h
  split at h
  · cases h
  · cases h
    exact hi.requestWorkerShutdown.setApp ⟨id, id, id⟩

theorem Inv.stepWaking (hi : Inv s) (hpc : s.app = .waking)
    (h : appStep s outcome = some s') : Inv s' := by
  simp only [OvxrSession.appStep, hpc] at h
  split at h
  · cases h
    exact hi.setApp ⟨id, id, id⟩
  · cases h
    exact hi.setApp ⟨id, id, id⟩

theorem Inv.stepQuiescing (hi : Inv s) {wakeError : Option E} (hpc : s.app = .quiescing wakeError)
    (h : appStep s outcome = some s') : Inv s' := by
  simp only [OvxrSession.appStep, hpc] at h
  cases h
  exact { hi.setApp (p := .joining wakeError) ⟨id, id, id⟩ with
    accepts := hi.accepts_observe rfl
    closing := fun _ _ => rfl }

theorem Inv.stepJoining (hi : Inv s) {wakeError : Option E} (hpc : s.app = .joining wakeError)
    (h : appStep s outcome = some s') : Inv s' := by
  simp only [OvxrSession.appStep, hpc] at h
  split at h
  · rename_i hfinished
    cases h
    exact { hi with
      unstarted := nofun
      spawning := nofun
      settled := fun _ _ => hfinished
      appLock := nofun
      appExposes := nofun }
  · cases h
    exact hi.setApp AppPc.quiet_idle
  · cases h

end Close

/-- **Every step of the application thread.** -/
theorem Inv.appStep {s s' : State H E} {outcome : Outcome E} (hi : Inv s)
    (h : appStep s outcome = some s') : Inv s' := by
  cases hpc : s.app with
  | idle => simp only [OvxrSession.appStep, hpc, reduceCtorEq] at h
  | offered => exact hi.stepOffered hpc h
  | spawning => exact hi.stepSpawning hpc h
  | aborting => exact hi.stepAborting hpc h
  | awaitingBootstrap => exact hi.stepAwaitingBootstrap hpc h
  | bootstrapped => exact hi.stepBootstrapped hpc h
  | awaitingReady => exact hi.stepAwaitingReady hpc h
  | checking => exact hi.stepChecking hpc h
  | exposing => exact hi.stepExposing hpc h
  | stoppingRuntime => exact hi.stepStoppingRuntime hpc h
  | runtimeStopped =>
    simp only [OvxrSession.appStep, hpc] at h
    cases h
    exact hi.returnClose none (hi.settled (by rw [hpc]; trivial))
  | abortingHost => exact hi.stepAbortingHost hpc h
  | hostAborted => exact hi.stepHostAborted hpc h
  | requesting => exact hi.stepRequesting hpc h
  | waking => exact hi.stepWaking hpc h
  | quiescing wakeError => exact hi.stepQuiescing hpc h
  | joining wakeError => exact hi.stepJoining hpc h
  | joined wakeError =>
    simp only [OvxrSession.appStep, hpc] at h
    cases h
    exact hi.returnClose wakeError (hi.settled (by rw [hpc]; trivial))

/-! ### The worker -/

theorem Inv.started_of_worker {s : State H E} (hi : Inv s) (h : s.worker ≠ .absent) :
    s.started = true := by
  by_contra hstarted
  exact h (hi.absent (by simpa using hstarted))

/-- The worker goes on, and may record an error. -/
theorem Inv.moveWorker {s : State H E} (hi : Inv s) (hstarted : s.started = true)
    (hunfinished : s.worker ≠ .finished) {pc : WorkerPc E} {error : Option E}
    {trace : List (Observation H)}
    (haccepts : Monitor.Accepts Ledger.next Ledger.init trace
      ⟨s.borrowersExposed, s.borrowersQuiesced, error.isSome, pc.stage⟩)
    (hstop : pc.Stopping → s.shutdownRequested = true)
    (hclosing : pc = .closing → s.borrowersExposed = true → s.borrowersQuiesced = true)
    (hlock : pc = .publishing → s.lock = some .worker)
    (hexposes : s.app = .exposing ∨ (∃ h, s.hosts h = .handlesOpen) → pc.stage = .running) :
    Inv { s with workerError := error, worker := pc, trace := trace } := by
  refine { hi with
    accepts := haccepts
    stopping := hstop
    closing := hclosing
    closed := fun hclosed _ => absurd (hi.closed hclosed hstarted) hunfinished
    absent := fun h => ?_
    settled := fun hsettled _ => absurd (hi.settled hsettled hstarted) hunfinished
    workerLock := hlock
    appExposes := fun h => hexposes (.inl h)
    hostExposes := fun h hopen => hexposes (.inr ⟨h, hopen⟩) }
  rw [show s.started = false from h] at hstarted
  cases hstarted

/-- The worker is in its loop, or has left it for a requested shutdown. -/
structure Runs (s : State H E) : Prop where
  present : s.worker ≠ .absent
  running : s.worker.stage = .running

theorem Runs.of_eq {s : State H E} {pc : WorkerPc E} (h : s.worker = pc) (hpresent : pc ≠ .absent)
    (hrunning : pc.stage = .running) : Runs s :=
  ⟨h ▸ hpresent, h ▸ hrunning⟩

theorem Runs.unfinished {s : State H E} (hr : Runs s) : s.worker ≠ .finished := by
  intro h
  have hrunning := hr.running
  rw [h] at hrunning
  cases hrunning

theorem Inv.setWorker {s : State H E} (hi : Inv s) (hr : Runs s) {p : WorkerPc E}
    (hstage : p.stage = .running) (hstop : p.Stopping → s.shutdownRequested = true)
    (hlock : p = .publishing → s.lock = some .worker) : Inv { s with worker := p } := by
  refine hi.moveWorker (hi.started_of_worker hr.present) hr.unfinished ?_ hstop ?_ hlock
    fun _ => hstage
  · have haccepts := hi.accepts
    unfold State.ledger at haccepts
    rw [hr.running, ← hstage] at haccepts
    exact haccepts
  · rintro rfl
    cases hstage

theorem Inv.pumpCall {s : State H E} (hi : Inv s) (hr : Runs s) (outcome : Outcome E)
    {next : Bool → WorkerPc E} (hnext : ∀ flag, (next flag).stage = .running ∧
      ¬(next flag).Stopping ∧ next flag ≠ .publishing) :
    Inv (pumpCall s outcome next) := by
  unfold OvxrSession.pumpCall
  split
  · exact hi.setWorker hr rfl nofun nofun
  · rename_i flag
    obtain ⟨hstage, hstop, hpc⟩ := hnext flag
    exact hi.setWorker hr hstage (fun h => absurd h hstop) fun h => absurd h hpc
  · obtain ⟨hstage, hstop, hpc⟩ := hnext true
    exact hi.setWorker hr hstage (fun h => absurd h hstop) fun h => absurd h hpc

/-- The worker has decided, and takes its way out. -/
structure Leaves (s : State H E) : Prop where
  decided : s.worker.stage ≠ .running
  unfinished : s.worker ≠ .finished

theorem Leaves.of_eq {s : State H E} {pc : WorkerPc E} (h : s.worker = pc)
    (hdecided : pc.stage ≠ .running) (hunfinished : pc ≠ .finished) : Leaves s :=
  ⟨h ▸ hdecided, h ▸ hunfinished⟩

theorem Inv.shutdown_of_leaves {s : State H E} (hi : Inv s) (hd : Leaves s) :
    s.shutdownRequested = true := by
  refine hi.stopping ?_
  by_contra hnot
  exact hd.decided (WorkerPc.stage_of_not_stopping hnot)

theorem Inv.advance {s : State H E} (hi : Inv s) (hd : Leaves s) {p : WorkerPc E}
    {error : Option E} {trace : List (Observation H)}
    (haccepts : Monitor.Accepts Ledger.next Ledger.init trace
      ⟨s.borrowersExposed, s.borrowersQuiesced, error.isSome, p.stage⟩)
    (hclosing : p = .closing → s.borrowersQuiesced = true) (hpc : p ≠ .publishing) :
    Inv { s with workerError := error, worker := p, trace := trace } := by
  refine hi.moveWorker (hi.started_of_worker ?_) hd.unfinished haccepts
    (fun _ => hi.shutdown_of_leaves hd) (fun h _ => hclosing h) (fun h => absurd h hpc) ?_
  · intro h
    exact hd.decided (by rw [h]; rfl)
  · rintro (h | ⟨host, h⟩)
    · exact absurd (hi.appExposes h) hd.decided
    · exact absurd (hi.hostExposes host h) hd.decided

theorem Inv.takeWorker {s : State H E} (hi : Inv s) (hfree : s.lock = none) :
    Inv { s with lock := some .worker } := by
  obtain ⟨happ, -, hhosts⟩ := hi.free_of_lock hfree
  exact { hi with
    appLock := fun h => absurd h happ
    workerLock := fun _ => rfl
    hostLock := fun h hlocked => absurd hlocked (hhosts h) }

theorem Inv.releaseWorker {s : State H E} (hi : Inv s) (hlock : s.lock = some .worker)
    (hpc : s.worker ≠ .publishing) : Inv { s with lock := none } := by
  refine { hi with
    appLock := fun h => ?_
    workerLock := fun h => absurd h hpc
    hostLock := fun h hlocked => ?_ }
  · have hheld := hi.appLock h
    rw [hlock] at hheld
    cases hheld
  · have hheld := hi.hostLock h hlocked
    rw [hlock] at hheld
    cases hheld

/-- The shutdown event is set outside of the lock as well. -/
theorem Inv.setShutdown {s : State H E} (hi : Inv s) : Inv { s with shutdownRequested := true } :=
  { hi with stopping := fun _ => rfl }

theorem Inv.accepts_stage {s : State H E} (hi : Inv s) {pc : WorkerPc E} (hpc : s.worker = pc)
    {stage : Stage} (hstage : stage = pc.stage) :
    Monitor.Accepts Ledger.next Ledger.init s.trace
      ⟨s.borrowersExposed, s.borrowersQuiesced, s.workerError.isSome, stage⟩ := by
  have haccepts := hi.accepts
  unfold State.ledger at haccepts
  rw [hpc, ← hstage] at haccepts
  exact haccepts

/-- A failure of the worker is recorded before it ends. -/
theorem Inv.accepts_failed {s : State H E} (hi : Inv s) (hunfinished : s.worker ≠ .finished)
    (error : E) {stage : Stage} (hstage : stage = s.worker.stage) :
    Monitor.Accepts Ledger.next Ledger.init (s.trace ++ [.failed])
      ⟨s.borrowersExposed, s.borrowersQuiesced, (s.recordError error).workerError.isSome,
        stage⟩ := by
  have hstill : s.ledger.stage ≠ .finished := fun h => hunfinished (WorkerPc.eq_finished h)
  have hsome : (s.recordError error).workerError.isSome = true := by
    unfold State.recordError
    cases s.workerError <;> rfl
  rw [hsome, hstage]
  exact hi.accepts_observe (if_neg hstill)

theorem section_eq_some {s next s' : State H E} (h : section_ s next = some s') :
    s.lock = none ∧ s' = next := by
  unfold section_ at h
  split at h
  · cases h
  · rename_i hfree
    exact ⟨not_not.mp hfree, (Option.some.inj h).symm⟩

/-- The worker leaves its loop when it reads the shutdown. -/
theorem Inv.pollShutdown {s : State H E} (hi : Inv s) (hr : Runs s) {pc : WorkerPc E}
    (hstage : pc.stage = .running) (hstop : ¬pc.Stopping) (hpc : pc ≠ .publishing) :
    Inv { s with worker := if s.shutdownRequested then .deciding else pc } := by
  split
  · rename_i hshutdown
    exact hi.setWorker hr rfl (fun _ => hshutdown) nofun
  · exact hi.setWorker hr hstage (fun h => absurd h hstop) fun h => absurd h hpc

/-! ### The steps of `run` -/

section Run

variable {s s' : State H E} {outcome : Outcome E}

theorem Inv.stepOpening (hi : Inv s) (hpc : s.worker = .opening)
    (h : workerStep s outcome = some s') : Inv s' := by
  have hr : Runs s := .of_eq hpc nofun rfl
  simp only [OvxrSession.workerStep, hpc] at h
  obtain ⟨hfree, rfl⟩ := section_eq_some h
  split
  · rename_i hshutdown
    exact hi.setWorker hr rfl (fun _ => hshutdown) nofun
  · exact (hi.takeWorker hfree).setWorker ⟨hr.present, hr.running⟩ rfl nofun fun _ => rfl

/-- The worker has read the handles: READY is stored, and the lock is free again. -/
theorem Inv.publish (hi : Inv s) (hpc : s.worker = .publishing) (handles : Bool) :
    Inv { s with handles := handles, phase := .ready, lock := none, worker := .polling } := by
  have hr : Runs s := .of_eq hpc nofun rfl
  have hfree := (hi.setWorker (p := .polling) hr rfl nofun nofun).releaseWorker
    (hi.workerLock hpc) nofun
  exact { hfree with
    closed := nofun
    spawning := fun _ => nofun }

theorem Inv.stepPublishing (hi : Inv s) (hpc : s.worker = .publishing)
    (h : workerStep s outcome = some s') : Inv s' := by
  have hr : Runs s := .of_eq hpc nofun rfl
  simp only [OvxrSession.workerStep, hpc] at h
  split at h
  · rename_i error
    cases h
    exact (hi.setWorker (p := .failing error) hr rfl nofun nofun).releaseWorker
      (hi.workerLock hpc) nofun
  · cases h
    exact hi.publish hpc _
  · cases h
    exact hi.publish hpc _

theorem Inv.stepPolling (hi : Inv s) (hpc : s.worker = .polling)
    (h : workerStep s outcome = some s') : Inv s' := by
  have hr : Runs s := .of_eq hpc nofun rfl
  simp only [OvxrSession.workerStep, hpc] at h
  obtain ⟨-, rfl⟩ := section_eq_some h
  split
  · rename_i hshutdown
    exact hi.setWorker hr rfl (fun _ => hshutdown) nofun
  · exact { hi.setWorker (p := .rendering s.pendingOrdinal) hr rfl nofun nofun with }

theorem Inv.stepRendered (hi : Inv s) {began : Bool} (hpc : s.worker = .rendered began)
    (h : workerStep s outcome = some s') : Inv s' := by
  have hr : Runs s := .of_eq hpc nofun rfl
  simp only [OvxrSession.workerStep, hpc] at h
  cases h
  split
  · exact hi.setWorker hr rfl nofun nofun
  · exact hi.setWorker hr rfl nofun nofun

theorem Inv.stepFetching (hi : Inv s) {began : Bool} (hpc : s.worker = .fetching began)
    (h : workerStep s outcome = some s') : Inv s' := by
  simp only [OvxrSession.workerStep, hpc] at h
  cases h
  refine hi.pumpCall (.of_eq hpc nofun rfl) outcome fun found => ?_
  cases found with
  | false => exact ⟨rfl, id, nofun⟩
  | true => exact ⟨rfl, id, nofun⟩

theorem Inv.stepPacing (hi : Inv s) {began : Bool} (hpc : s.worker = .pacing began)
    (h : workerStep s outcome = some s') : Inv s' := by
  have hr : Runs s := .of_eq hpc nofun rfl
  simp only [OvxrSession.workerStep, hpc] at h
  split at h
  · cases h
    exact hi.setWorker hr rfl nofun nofun
  · obtain ⟨-, rfl⟩ := section_eq_some h
    exact hi.setWorker hr rfl nofun nofun

theorem Inv.stepRecording (hi : Inv s) {error : E} (hpc : s.worker = .recording error)
    (h : workerStep s outcome = some s') : Inv s' := by
  have hr : Runs s := .of_eq hpc nofun rfl
  have hshutdown := hi.stopping (by rw [hpc]; trivial)
  simp only [OvxrSession.workerStep, hpc] at h
  obtain ⟨-, rfl⟩ := section_eq_some h
  exact hi.moveWorker (hi.started_of_worker hr.present) hr.unfinished
    (hi.accepts_failed hr.unfinished error hr.running.symm) (fun _ => hshutdown) nofun nofun
    fun _ => rfl

end Run

/-! ### The steps of the `finally` block -/

section Finally

variable {s s' : State H E} {outcome : Outcome E}

theorem Inv.stepDeciding (hi : Inv s) (hpc : s.worker = .deciding)
    (h : workerStep s outcome = some s') : Inv s' := by
  have hr : Runs s := .of_eq hpc nofun rfl
  have hshutdown := hi.stopping (by rw [hpc]; trivial)
  simp only [OvxrSession.workerStep, hpc] at h
  obtain ⟨hfree, rfl⟩ := section_eq_some h
  obtain ⟨happ, -, hhosts⟩ := hi.free_of_lock hfree
  have hnext : Ledger.next (H := H) s.ledger (.decided s.borrowersExposed) =
      some { s.ledger with stage := .decided } := if_pos ⟨hr.running, rfl⟩
  refine hi.moveWorker (hi.started_of_worker hr.present) hr.unfinished ?_ (fun _ => hshutdown)
    ?_ ?_ ?_
  · refine hi.accepts_observe (hnext.trans ?_)
    split <;> rfl
  · intro hclosing hexposed
    rw [if_pos hexposed] at hclosing
    cases hclosing
  · intro h
    split at h <;> cases h
  · -- the lock was free, so nobody is about to expose borrowers
    rintro (h | ⟨host, h⟩)
    · exact absurd (by rw [h]; trivial) happ
    · exact absurd (by rw [h]; trivial) (hhosts host)

theorem Inv.stepWorkerQuiescing (hi : Inv s) (hpc : s.worker = .quiescing)
    (h : workerStep s outcome = some s') : Inv s' := by
  simp only [OvxrSession.workerStep, hpc] at h
  split at h
  · rename_i hquiesced
    cases h
    exact hi.advance (.of_eq hpc nofun nofun) (hi.accepts_stage hpc rfl) (fun _ => hquiesced) nofun
  · cases h

theorem Inv.stepClosing (hi : Inv s) (hpc : s.worker = .closing)
    (h : workerStep s outcome = some s') : Inv s' := by
  -- borrowers are quiet or were never exposed, which is what the monitor asks for here
  have hnext : Ledger.next (H := H) s.ledger (.pumpClosed .worker) =
      some { s.ledger with stage := .closed } :=
    if_pos ⟨by rw [State.ledger, hpc]; rfl, hi.closing hpc⟩
  simp only [OvxrSession.workerStep, hpc] at h
  split at h
  · cases h
    exact hi.advance (.of_eq hpc nofun nofun) (hi.accepts_observe hnext) nofun nofun
  · cases h
    exact hi.advance (.of_eq hpc nofun nofun) (hi.accepts_observe hnext) nofun nofun

theorem Inv.stepCloseRecording (hi : Inv s) {error : E} (hpc : s.worker = .closeRecording error)
    (h : workerStep s outcome = some s') : Inv s' := by
  simp only [OvxrSession.workerStep, hpc] at h
  obtain ⟨-, rfl⟩ := section_eq_some h
  exact hi.advance (.of_eq hpc nofun nofun)
    (hi.accepts_failed (by rw [hpc]; nofun) error (by rw [hpc]; rfl)) nofun nofun

theorem Inv.stepEnding (hi : Inv s) (hpc : s.worker = .ending)
    (h : workerStep s outcome = some s') : Inv s' := by
  have hstarted := hi.started_of_worker (by rw [hpc]; nofun)
  have hnext : Ledger.next (H := H) s.ledger .finished =
      some { s.ledger with stage := .finished } :=
    if_pos (by rw [State.ledger, hpc]; rfl)
  simp only [OvxrSession.workerStep, hpc] at h
  obtain ⟨-, rfl⟩ := section_eq_some h
  refine { hi.advance (p := .finished) (.of_eq hpc nofun nofun) (hi.accepts_observe hnext)
      nofun nofun with
    closed := fun _ _ => rfl
    spawning := fun h => ?_ }
  have hunstarted := hi.unstarted (by rw [show s.app = .spawning from h]; trivial)
  rw [hstarted] at hunstarted
  cases hunstarted

end Finally

/-- **Every step of the worker.** -/
theorem Inv.workerStep {s s' : State H E} {outcome : Outcome E} (hi : Inv s)
    (h : workerStep s outcome = some s') : Inv s' := by
  cases hpc : s.worker with
  | absent | finished => simp only [OvxrSession.workerStep, hpc, reduceCtorEq] at h
  | attaching | creating | bootstrapping | rendering =>
    -- a call of the pump goes on or fails, and both are in the loop
    simp only [OvxrSession.workerStep, hpc] at h
    cases h
    exact hi.pumpCall (.of_eq hpc nofun rfl) outcome fun _ => ⟨rfl, id, nofun⟩
  | announcing =>
    simp only [OvxrSession.workerStep, hpc] at h
    obtain ⟨-, rfl⟩ := section_eq_some h
    exact { hi.setWorker (p := .attached) (.of_eq hpc nofun rfl) rfl nofun nofun with }
  | attached =>
    simp only [OvxrSession.workerStep, hpc] at h
    cases h
    exact hi.pollShutdown (.of_eq hpc nofun rfl) rfl id nofun
  | created =>
    simp only [OvxrSession.workerStep, hpc] at h
    obtain ⟨-, rfl⟩ := section_eq_some h
    exact hi.pollShutdown (.of_eq hpc nofun rfl) rfl id nofun
  | opening => exact hi.stepOpening hpc h
  | publishing => exact hi.stepPublishing hpc h
  | polling => exact hi.stepPolling hpc h
  | rendered began => exact hi.stepRendered hpc h
  | fetching began => exact hi.stepFetching hpc h
  | storing began =>
    simp only [OvxrSession.workerStep, hpc] at h
    obtain ⟨-, rfl⟩ := section_eq_some h
    exact { hi.setWorker (p := .pacing began) (.of_eq hpc nofun rfl) rfl nofun nofun with }
  | pacing began => exact hi.stepPacing hpc h
  | failing error =>
    have hr : Runs s := .of_eq hpc nofun rfl
    simp only [OvxrSession.workerStep, hpc] at h
    cases h
    exact hi.setShutdown.setWorker ⟨hr.present, hr.running⟩ rfl (fun _ => rfl) nofun
  | recording error => exact hi.stepRecording hpc h
  | deciding => exact hi.stepDeciding hpc h
  | quiescing => exact hi.stepWorkerQuiescing hpc h
  | closing => exact hi.stepClosing hpc h
  | retiring =>
    simp only [OvxrSession.workerStep, hpc] at h
    cases h
    exact { hi.advance (p := .ending) (.of_eq hpc nofun nofun) (hi.accepts_stage hpc rfl)
      nofun nofun with }
  | closeFailing error =>
    simp only [OvxrSession.workerStep, hpc] at h
    cases h
    exact hi.setShutdown.advance (.of_eq hpc nofun nofun) (hi.accepts_stage hpc rfl) nofun nofun
  | closeRecording error => exact hi.stepCloseRecording hpc h
  | ending => exact hi.stepEnding hpc h

/-! ### Other host threads -/

section Host

variable [DecidableEq H] {s s' : State H E} {h : H} {pc : HostPc}

theorem Inv.setHost (hi : Inv s) (hlock : pc.Locked → s.lock = some (.host h))
    (hexposes : pc = .handlesOpen → s.worker.stage = .running) : Inv (setHost s h pc) := by
  refine { hi with
    hostLock := fun other => ?_
    hostExposes := fun other => ?_ }
  · show HostPc.Locked (Function.update s.hosts h pc other) → _
    rcases eq_or_ne other h with rfl | hother
    · rw [Function.update_self]
      exact hlock
    · rw [Function.update_of_ne hother]
      exact hi.hostLock other
  · show Function.update s.hosts h pc other = .handlesOpen → _
    rcases eq_or_ne other h with rfl | hother
    · rw [Function.update_self]
      exact hexposes
    · rw [Function.update_of_ne hother]
      exact hi.hostExposes other

theorem Inv.setHost_unlocked (hi : Inv s) (hpc : ¬pc.Locked) :
    Inv (OvxrSession.setHost s h pc) := by
  refine hi.setHost (fun hlocked => absurd hlocked hpc) ?_
  rintro rfl
  exact absurd trivial hpc

theorem Inv.takeHost (hi : Inv s) (hfree : s.lock = none) (hpc : pc ≠ .handlesOpen) :
    Inv (OvxrSession.setHost { s with lock := some (.host h) } h pc) := by
  obtain ⟨happ, hworker, hhosts⟩ := hi.free_of_lock hfree
  refine Inv.setHost ?_ (fun _ => rfl) fun hopen => absurd hopen hpc
  exact { hi with
    appLock := fun hlocked => absurd hlocked happ
    workerLock := fun hlocked => absurd hlocked hworker
    hostLock := fun other hlocked => absurd hlocked (hhosts other) }

theorem Inv.releaseHost (hi : Inv s) (hlock : s.lock = some (.host h)) (hpc : ¬pc.Locked) :
    Inv (OvxrSession.setHost (release s) h pc) := by
  -- the other threads are outside of their sections
  have hset : Inv (OvxrSession.setHost s h pc) := hi.setHost_unlocked hpc
  refine { hset with
    appLock := fun hlocked => ?_
    workerLock := fun hlocked => ?_
    hostLock := fun other hlocked => ?_ }
  · have hheld := hi.appLock hlocked
    rw [hlock] at hheld
    cases hheld
  · have hheld := hi.workerLock hlocked
    rw [hlock] at hheld
    cases hheld
  · have hheld : s.lock = some (.host other) := hset.hostLock other hlocked
    rw [hlock] at hheld
    cases hheld
    have hlocked : HostPc.Locked (Function.update s.hosts h pc h) := hlocked
    rw [Function.update_self] at hlocked
    exact absurd hlocked hpc

theorem Inv.enterOpen {p : HostPc} (hi : Inv s) (hpc : p ≠ .handlesOpen)
    (hs : enterOpen s h p = some s') : Inv s' := by
  unfold OvxrSession.enterOpen at hs
  split at hs
  · cases hs
  · rename_i hfree
    push Not at hfree
    split at hs
    · cases hs
      exact hi
    · cases hs
      exact hi.takeHost hfree.1 hpc

theorem Inv.hostStep {outcome : Outcome E} (hi : Inv s) (hs : hostStep s h outcome = some s') :
    Inv s' := by
  unfold OvxrSession.hostStep at hs
  split at hs
  case h_1 => cases hs
  case h_2 hpc =>
    have hlock := hi.hostLock h (by rw [hpc]; trivial)
    split at hs
    · cases hs
      exact hi.releaseHost hlock id
    · rename_i hshutdown
      cases hs
      -- No shutdown was read under the lock, so the worker is in its loop.
      have hrunning : s.worker.stage = .running :=
        WorkerPc.stage_of_not_stopping fun hstop => hshutdown (hi.stopping hstop)
      exact hi.setHost (fun _ => hlock) fun _ => hrunning
  case h_3 hpc =>
    have hlock := hi.hostLock h (by rw [hpc]; trivial)
    -- The lock has been held since, so the borrower is told to the monitor in time.
    have hrunning := hi.hostExposes h hpc
    split at hs
    · cases hs
      have hreleased : Inv (OvxrSession.setHost (release s) h .idle) := hi.releaseHost hlock id
      refine { hreleased with
        accepts := hi.accepts_exposed hrunning trivial
        closing := fun hclosing => ?_ }
      rw [show s.worker = .closing from hclosing] at hrunning
      cases hrunning
    · cases hs
      exact hi.releaseHost hlock id
  case h_4 hpc =>
    have hlock := hi.hostLock h (by rw [hpc]; trivial)
    split at hs
    · cases hs
      exact hi.releaseHost hlock id
    · split at hs
      · cases hs
        exact hi.releaseHost hlock id
      · cases hs
        have hreleased : Inv (OvxrSession.setHost (release s) h .publishing) :=
          hi.releaseHost hlock id
        exact { hreleased with }
  case h_5 hpc =>
    split at hs
    · rename_i ordinal
      cases hs
      have hset : Inv (OvxrSession.setHost s h (.admitting ordinal)) := hi.setHost_unlocked id
      exact { hset with }
    · cases hs
      exact hi.setHost_unlocked id
    · cases hs
  case h_6 ordinal hpc =>
    split at hs
    · cases hs
    · rename_i hfree
      cases hs
      refine hi.takeHost (not_not.mp hfree) ?_
      split <;> nofun
  case h_7 ordinal hpc =>
    have hlock := hi.hostLock h (by rw [hpc]; trivial)
    cases hs
    have hreleased : Inv (OvxrSession.setHost (release s) h
        (if s.workerError.isSome then .restoring else .idle)) := by
      refine hi.releaseHost hlock ?_
      split <;> exact id
    exact { hreleased with }
  case h_8 hpc =>
    have hlock := hi.hostLock h (by rw [hpc]; trivial)
    cases hs
    refine hi.releaseHost hlock ?_
    split <;> exact id
  case h_9 hpc =>
    split at hs
    · cases hs
    · cases hs
      have hset : Inv (OvxrSession.setHost s h .idle) := hi.setHost_unlocked id
      exact { hset with }

/-! ### Every interleaving -/

theorem Inv.step {e : Event H E} (hi : Inv s) (hs : step s e = some s') : Inv s' := by
  cases e with
  | start checks =>
    simp only [OvxrSession.step] at hs
    split at hs
    · cases hs
      exact hi.callStart checks
    · cases hs
  | close =>
    simp only [OvxrSession.step] at hs
    split at hs
    · cases hs
      exact hi.callClose
    · cases hs
  | app outcome => exact hi.appStep hs
  | worker outcome => exact hi.workerStep hs
  | pumpShutdown =>
    simp only [OvxrSession.step] at hs
    split at hs
    · cases hs
      exact hi.requestWorkerShutdown
    · cases hs
  | externalHandles h => exact hi.enterOpen (p := .handlesLocked) nofun hs
  | requestRender h force => exact hi.enterOpen (p := .renderLocked force) nofun hs
  | requestShutdown h =>
    simp only [OvxrSession.step] at hs
    split at hs
    · cases hs
      exact hi.requestWorkerShutdown
    · cases hs
  | host h outcome => exact hi.hostStep hs

theorem Inv.run {events : List (Event H E)} (hi : Inv s) (hs : run s events = some s') :
    Inv s' := by
  induction events generalizing s with
  | nil =>
    cases hs
    exact hi
  | cons e rest ih =>
    obtain ⟨s₁, hstep, hrest⟩ := Option.bind_eq_some_iff.mp hs
    exact ih (hi.step hstep) hrest

/-- **Retirement is safe and single:** whatever the threads do and whatever fails, the trace
of a run is one that the ledger allows. -/
theorem retirement_safe {events : List (Event H E)}
    (hs : run (State.init : State H E) events = some s) : Retires s.trace :=
  Ledger.retires (Inv.init.run hs).accepts

end Host

/-- A session that starts, is closed after the application's step, and ends. -/
def orderlyEvents : List (Event Unit Unit) :=
  let app := Event.app (.returned true)
  let worker := Event.worker (.returned true)
  [.start (.returned true), app, app, worker, worker, app, app,
    worker, worker, worker, worker, worker, worker, app, app, app,
    .close, app, app, app, worker, worker, worker, worker, worker, worker, app, app]

theorem orderly_session_retires :
    ∃ s, run (State.init : State Unit Unit) orderlyEvents = some s ∧
      s.trace = [.startReturned true, .quiesced, .decided true, .pumpClosed .worker, .finished,
        .closeReturned true] ∧ Retires s.trace := by
  have htrace : (run (State.init : State Unit Unit) orderlyEvents).map State.trace =
      some [.startReturned true, .quiesced, .decided true, .pumpClosed .worker, .finished,
        .closeReturned true] := by
    decide
  obtain ⟨s, hs, htrace⟩ := Option.map_eq_some_iff.mp htrace
  exact ⟨s, hs, htrace, retirement_safe hs⟩

end OvxrSession
