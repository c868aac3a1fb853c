/-
The lifecycle of a teleop session.

`__enter__` acquires resources on an exit stack, `step` may start the pipelined worker, and
`__exit__` stops the worker before it unwinds the stack.  Any of them may fail at any point,
the worker acts in between, and the session may be entered again.  `TeleopSession.Step` is
one action of the application thread or of a worker; what happened is kept in a trace.

The trace is read by a monitor (`Custody.next`): it holds the entered resources and the
workers whose stop has not returned, and lets only the last entered resource go, and only
when no worker is left.

* `TeleopSession.Step.control` — what the control state knows;
* `TeleopSession.Step.guarded` — every action obeys the monitor;
* `TeleopSession.Reachable.latched` — what happens after an error was latched;
* `TeleopSession.Step.answered` — no action forgets a failure of a worker;
* `TeleopSession.lifecycle_safety` — releases, the latch and the report of worker failures.
-/
import IsaacTeleop.AsyncRetargetRunner
import IsaacTeleop.TraceMonitor

open AsyncRetargetRunner

namespace TeleopLifecycle

variable {Io Time Exc Resource : Type}

/-! ### What is raised, and what happens -/

/-- What a call raises: the wrapped failure of a worker (of the runner with this number), a
runner that was stopped, a nested entry, or anything that the resources, the pipeline or a
join raise. -/
inductive Raise (Exc : Type) where
  | asyncRetargetWorkerError (runner : ℕ) (cause : Exc)
  | asyncRetargetRunnerStopped
  | alreadyActive
  | other (e : Exc)
  deriving DecidableEq

inductive Call where
  | enter
  | step
  | exit
  deriving DecidableEq

/-- What happens in a run; runners are numbered in the order of their creation.  An exit that
unwound the stack records the runner it stopped, the exception of the with-body and what the
unwinding raised. -/
inductive Event (Exc Resource : Type) where
  | entered (resource : Resource)
  | released (resource : Resource)
  | workerStarted (runner : ℕ)
  | stopReturned (runner : ℕ)
  | unwound (runner : Option ℕ) (body : Option Exc) (cleanup : Option (Raise Exc))
  | raised (call : Call) (e : Raise Exc)
  | returned (call : Call)

/-- What the exit of one resource does with the exception it is given. -/
inductive ReleaseOutcome (Exc : Type) where
  | passes
  | suppresses
  | raises (e : Exc)

/-- `ExitStack.__exit__` under way: the callbacks left, the exception in flight, and whether
it is to be raised at the end. -/
structure Unwind (Exc Resource : Type) where
  stack : List Resource
  exc : Option (Raise Exc)
  pendingRaise : Bool := false

/-- The top callback ran. -/
def Unwind.pop (u : Unwind Exc Resource) (outcome : ReleaseOutcome Exc) : Unwind Exc Resource :=
  match outcome with
  | .passes => { u with stack := u.stack.tail }
  | .suppresses => { stack := u.stack.tail, exc := none, pendingRaise := false }
  | .raises e => { stack := u.stack.tail, exc := some (.other e), pendingRaise := true }

/-- What the unwinding raises. -/
def Unwind.failure (u : Unwind Exc Resource) : Option (Raise Exc) :=
  if u.pendingRaise then u.exc else none

/-- `deviceio_session`: none, open, or closed by its exit. -/
inductive DeviceIo where
  | absent
  | opened
  | closed
  deriving DecidableEq

inductive ExecutionMode where
  | sync
  | pipelined
  deriving DecidableEq

/-- Where the application thread is. -/
inductive App (Exc Resource : Type) where
  | idle
  /-- in `_enter_resources`, with what is on the stack -/
  | entering (stack : List Resource)
  /-- in the rollback of a failed entry -/
  | rollingBack (error : Raise Exc) (unwind : Unwind Exc Resource)
  /-- in `_step_pipelined`, the worker found healthy -/
  | checked (runner : ℕ)
  /-- in `_step_pipelined`, the request accepted -/
  | submitted (runner : ℕ)
  /-- in `runner.stop()`, waiting for the thread -/
  | joining (runner : ℕ) (body : Option Exc)
  /-- in the unwinding of `_exit_stack` -/
  | unwinding (runner : Option ℕ) (body : Option Exc) (runnerError : Option (Raise Exc))
      (unwind : Unwind Exc Resource)

structure TeleopSession (Io Time Exc Resource : Type) where
  cleanupError : Option (Raise Exc) := none
  inContext : Bool := false
  exitStack : List Resource := []
  deviceioSession : DeviceIo := .absent
  activeMode : Option ExecutionMode := none
  /-- `_async_runner`, by its number -/
  asyncRunner : Option ℕ := none
  /-- every runner that was created, referenced or not -/
  runners : List (Machine Io Time Exc) := []
  app : App Exc Resource := .idle
  trace : List (Event Exc Resource) := []

namespace TeleopSession

def emit (s : TeleopSession Io Time Exc Resource) (events : List (Event Exc Resource)) :
    TeleopSession Io Time Exc Resource :=
  { s with trace := s.trace ++ events }

/-- The runner with this number is now `m`. -/
def setRunner (s : TeleopSession Io Time Exc Resource) (i : ℕ) (m : Machine Io Time Exc) :
    TeleopSession Io Time Exc Resource :=
  { s with runners := s.runners.set i m }

/-- How a call ends that has nothing left to fail but this. -/
def outcomeOf (call : Call) : Option Exc → Event Exc Resource
  | none => .returned call
  | some e => .raised call (.other e)

/-- `runner.raise_if_failed(only_unreported=True)` in `__exit__`: what is raised later, if no
exception of the body is propagating. -/
def runnerErrorOf (i : ℕ) (r : Runner Io Time Exc) (body : Option Exc) :
    Option (Raise Exc) :=
  match (r.raiseIfFailed true).1, r.exception, body with
  | .error _, some cause, none => some (.asyncRetargetWorkerError i cause)
  | _, _, _ => none

/-- The end of `__exit__`: the failure of the unwinding goes first. -/
def exitEvent (runnerError : Option (Raise Exc)) (unwind : Unwind Exc Resource) :
    Event Exc Resource :=
  match unwind.pendingRaise, unwind.exc, runnerError with
  | true, some e, _ => .raised .exit e
  | _, _, some e => .raised .exit e
  | _, _, none => .returned .exit

/-- A runner just created and started, with its seed frame. -/
def startedRunner (frame : RetargetFrame Io Time) : Machine Io Time Exc where
  runner := ({} : Runner Io Time Exc).start.publishSeed frame
  worker := .waiting

/-- A runner whose thread could not be started. -/
def unstartedRunner : Machine Io Time Exc where
  runner := ({} : Runner Io Time Exc).start
  worker := .created

/-! ### The actions -/

/-- One action of the application thread, or of a worker. -/
inductive Step [Sub Time] :
    TeleopSession Io Time Exc Resource → TeleopSession Io Time Exc Resource → Prop
  -- `__enter__`
  | enterLatched {s e} (ha : s.app = .idle) (hl : s.cleanupError = some e) :
      Step s (s.emit [.raised .enter e])
  | enterActive {s} (ha : s.app = .idle) (hl : s.cleanupError = none)
      (hc : s.inContext = true) : Step s (s.emit [.raised .enter .alreadyActive])
  | enterBegins {s} (ha : s.app = .idle) (hl : s.cleanupError = none)
      (hc : s.inContext = false) : Step s { s with inContext := true, app := .entering [] }
  | acquire {s stack} (resource : Resource) (ha : s.app = .entering stack) :
      Step s ({ s with app := .entering (resource :: stack) }.emit [.entered resource])
  | enterSucceeds {s stack} (mode : ExecutionMode) (ha : s.app = .entering stack) :
      Step s ({ s with
        exitStack := stack
        deviceioSession := .opened
        asyncRunner := none
        activeMode := some mode
        app := .idle }.emit [.returned .enter])
  | enterFails {s stack} (e : Exc) (ha : s.app = .entering stack) :
      Step s { s with app := .rollingBack (.other e) ⟨stack, some (.other e), false⟩ }
  | rollbackReleases {s error u resource rest} (outcome : ReleaseOutcome Exc)
      (ha : s.app = .rollingBack error u) (hu : u.stack = resource :: rest) :
      Step s ({ s with app := .rollingBack error (u.pop outcome) }.emit [.released resource])
  | rollbackEnds {s error u} (ha : s.app = .rollingBack error u) (hu : u.stack = []) :
      Step s ({ s with
        cleanupError := if u.pendingRaise then some error else s.cleanupError
        deviceioSession := .absent
        inContext := false
        app := .idle }.emit [.raised .enter error])
  -- `step`
  | stepLatched {s e} (ha : s.app = .idle) (hl : s.cleanupError = some e) :
      Step s (s.emit [.raised .step e])
  /-- a plugin check, the request or the synchronous execution raises -/
  | stepRaises {s} (e : Exc) (ha : s.app = .idle) (hl : s.cleanupError = none) :
      Step s (s.emit [.raised .step (.other e)])
  | stepSync {s} (ha : s.app = .idle) (hl : s.cleanupError = none)
      (hd : s.deviceioSession = .opened) (hmode : s.activeMode ≠ some .pipelined) :
      Step s (s.emit [.returned .step])
  /-- the seed frame was executed and the worker started; the copy of the frame may raise -/
  | seed {s} (frame : RetargetFrame Io Time) (failure : Option Exc) (ha : s.app = .idle)
      (hl : s.cleanupError = none) (hd : s.deviceioSession = .opened)
      (hmode : s.activeMode ≠ some .sync) (hr : s.asyncRunner = none) :
      Step s ({ s with
        asyncRunner := some s.runners.length
        runners := s.runners ++ [startedRunner frame] }.emit
          [.workerStarted s.runners.length, outcomeOf .step failure])
  /-- the thread could not be started; the runner stays -/
  | seedStartFails {s} (e : Exc) (ha : s.app = .idle) (hl : s.cleanupError = none)
      (hd : s.deviceioSession = .opened) (hmode : s.activeMode ≠ some .sync)
      (hr : s.asyncRunner = none) :
      Step s ({ s with
        asyncRunner := some s.runners.length
        runners := s.runners ++ [unstartedRunner] }.emit [.raised .step (.other e)])
  | stepFailed {s i m cause r} (ha : s.app = .idle) (hl : s.cleanupError = none)
      (hr : s.asyncRunner = some i) (hm : s.runners[i]? = some m)
      (hc : m.runner.exception = some cause)
      (h : m.runner.raiseIfFailed = (.error .workerFailed, r)) :
      Step s ((s.setRunner i { m with runner := r }).emit
        [.raised .step (.asyncRetargetWorkerError i cause)])
  | stepChecked {s i m r} (ha : s.app = .idle) (hl : s.cleanupError = none)
      (hr : s.asyncRunner = some i) (hm : s.runners[i]? = some m)
      (h : m.runner.raiseIfFailed = (.ok (), r)) :
      Step s { s.setRunner i { m with runner := r } with app := .checked i }
  | requestRaises {s i} (e : Exc) (ha : s.app = .checked i) :
      Step s ({ s with app := .idle }.emit [.raised .step (.other e)])
  | submitFailed {s i m cause r} (request : StepRequest Io Time) (ha : s.app = .checked i)
      (hm : s.runners[i]? = some m) (hc : m.runner.exception = some cause)
      (h : m.runner.submit m.history.accepted.length request = (.error .workerFailed, r)) :
      Step s ({ s.setRunner i { m with runner := r } with app := .idle }.emit
        [.raised .step (.asyncRetargetWorkerError i cause)])
  | submitStopped {s i m r} (request : StepRequest Io Time) (ha : s.app = .checked i)
      (hm : s.runners[i]? = some m)
      (h : m.runner.submit m.history.accepted.length request = (.error .stopped, r)) :
      Step s ({ s.setRunner i { m with runner := r } with app := .idle }.emit
        [.raised .step .asyncRetargetRunnerStopped])
  | submit {s i m dropped r} (request : StepRequest Io Time) (ha : s.app = .checked i)
      (hm : s.runners[i]? = some m)
      (h : m.runner.submit m.history.accepted.length request = (.ok dropped, r)) :
      Step s { s.setRunner i (m.accept request dropped r) with app := .submitted i }
  | latestFailed {s i m cause r} (ha : s.app = .submitted i) (hm : s.runners[i]? = some m)
      (hc : m.runner.exception = some cause)
      (h : m.runner.latest = (.error .workerFailed, r)) :
      Step s ({ s.setRunner i { m with runner := r } with app := .idle }.emit
        [.raised .step (.asyncRetargetWorkerError i cause)])
  | latestNone {s i m r} (ha : s.app = .submitted i) (hm : s.runners[i]? = some m)
      (h : m.runner.latest = (.ok none, r)) :
      Step s ({ s.setRunner i { m with runner := r } with app := .idle }.emit
        [.raised .step .asyncRetargetRunnerStopped])
  /-- the latest frame is copied, which may raise, and its reset acknowledged -/
  | latest {s i m frame r} (failure : Option Exc) (ha : s.app = .submitted i)
      (hm : s.runners[i]? = some m) (h : m.runner.latest = (.ok (some frame), r)) :
      Step s ({ s.setRunner i { m with runner :=
          if failure.isSome then r else (r.acknowledgeReset frame.resetGeneration).2 } with
        app := .idle }.emit [outcomeOf .step failure])
  -- `__exit__`
  | exitLatched {s e} (ha : s.app = .idle) (hl : s.cleanupError = some e)
      (hr : ¬ (s.inContext = true ∧ s.asyncRunner.isSome)) :
      Step s (s.emit [.raised .exit e])
  | exitInactive {s} (ha : s.app = .idle) (hl : s.cleanupError = none)
      (hc : s.inContext = false) : Step s (s.emit [.returned .exit])
  | exitStops {s i m} (body : Option Exc) (ha : s.app = .idle) (hc : s.inContext = true)
      (hr : s.asyncRunner = some i) (hm : s.runners[i]? = some m) :
      Step s { s.setRunner i m.setStop with app := .joining i body }
  | joinRaises {s i body} (e : Exc) (ha : s.app = .joining i body) :
      Step s ({ s with cleanupError := some (.other e), app := .idle }.emit
        [.raised .exit (.other e)])
  /-- the thread has ended -/
  | joinReturns {s i body m} (ha : s.app = .joining i body) (hm : s.runners[i]? = some m)
      (hw : m.worker = .exited) :
      Step s ({ s.setRunner i { m with runner := (m.runner.raiseIfFailed true).2 } with
        cleanupError := none
        asyncRunner := none
        activeMode := none
        app := .unwinding (some i) body (runnerErrorOf i m.runner body)
          ⟨s.exitStack, body.map .other, false⟩ }.emit [.stopReturned i])
  | exitUnwinds {s} (body : Option Exc) (ha : s.app = .idle) (hl : s.cleanupError = none)
      (hc : s.inContext = true) (hr : s.asyncRunner = none) :
      Step s { s with
        activeMode := none
        app := .unwinding none body none ⟨s.exitStack, body.map .other, false⟩ }
  | exitReleases {s runner body runnerError u resource rest} (outcome : ReleaseOutcome Exc)
      (ha : s.app = .unwinding runner body runnerError u) (hu : u.stack = resource :: rest) :
      Step s ({ s with
        exitStack := rest
        app := .unwinding runner body runnerError (u.pop outcome) }.emit [.released resource])
  | exitEnds {s runner body runnerError u}
      (ha : s.app = .unwinding runner body runnerError u) (hu : u.stack = []) :
      Step s ({ s with
        cleanupError := if u.pendingRaise then u.exc else s.cleanupError
        deviceioSession := .closed
        inContext := false
        app := .idle }.emit [.unwound runner body u.failure, exitEvent runnerError u])
  -- a worker thread
  | worker {s i m m'} (hm : s.runners[i]? = some m) (h : m.WorkerStep m') :
      Step s (s.setRunner i m')

/-- The sessions reached from a fresh one. -/
def Reachable [Sub Time] (s : TeleopSession Io Time Exc Resource) : Prop :=
  Relation.ReflTransGen Step {} s

/-! ### What the control state knows -/

/-- What each place of the application thread implies: between calls, nothing is left outside
the context, and inside it an error is latched only while a runner waits to be stopped. -/
def Place (s : TeleopSession Io Time Exc Resource) : App Exc Resource → Prop
  | .idle =>
    (s.inContext = false → s.exitStack = [] ∧ s.asyncRunner = none ∧
      s.deviceioSession ≠ .opened) ∧
    (s.inContext = true → s.cleanupError ≠ none → s.asyncRunner ≠ none)
  | .entering _ =>
    s.inContext = true ∧ s.exitStack = [] ∧ s.asyncRunner = none ∧ s.cleanupError = none
  | .rollingBack error _ =>
    s.inContext = true ∧ s.exitStack = [] ∧ s.asyncRunner = none ∧ s.cleanupError = none ∧
      ∃ e, error = .other e
  | .checked i => s.inContext = true ∧ s.asyncRunner = some i ∧ s.cleanupError = none
  | .submitted i => s.inContext = true ∧ s.asyncRunner = some i ∧ s.cleanupError = none
  | .joining i _ => s.inContext = true ∧ s.asyncRunner = some i
  | .unwinding _ _ _ u =>
    s.inContext = true ∧ s.asyncRunner = none ∧ s.cleanupError = none ∧ s.exitStack = u.stack

/-- The control invariant: the place of the application thread, and that a runner which the
session does not hold has no thread left. -/
structure Control (s : TeleopSession Io Time Exc Resource) : Prop where
  place : s.Place s.app
  bound : ∀ i, s.asyncRunner = some i → i < s.runners.length
  dropped : ∀ i m, s.runners[i]? = some m → s.asyncRunner ≠ some i → m.worker = .exited

variable {s s' : TeleopSession Io Time Exc Resource}

theorem Control.init : Control ({} : TeleopSession Io Time Exc Resource) := by
  refine ⟨⟨fun _ => ⟨rfl, rfl, ?_⟩, ?_⟩, ?_, ?_⟩
  · simp
  · simp
  · simp
  · simp

theorem workerStep_not_exited [Sub Time] {m m' : Machine Io Time Exc} (h : m.WorkerStep m') :
    m.worker ≠ .exited := by
  cases h with
  | look hw | abandon hw | take hw | complete x hw | fail e hw | exit hw => simp [hw]

/-- Changing the held runner keeps what the control state knows. -/
theorem Control.setRunner (h : s.Control) {i : ℕ} {m : Machine Io Time Exc}
    (hr : s.asyncRunner = some i) (app : App Exc Resource)
    (hplace : s.Place app) :
    Control { s.setRunner i m with app := app } := by
  refine ⟨?_, ?_, ?_⟩
  · cases app <;> exact hplace
  · intro j hj
    simpa [TeleopSession.setRunner] using h.bound j hj
  · intro j m' hj hne
    have hij : i ≠ j := by
      rintro rfl
      exact hne hr
    refine h.dropped j m' ?_ hne
    simpa [TeleopSession.setRunner, List.getElem?_set, hij] using hj

/-- The trace says nothing about the control state. -/
theorem Control.emit (h : s.Control) (events : List (Event Exc Resource)) :
    (s.emit events).Control := by
  refine ⟨?_, h.bound, h.dropped⟩
  have hplace := h.place
  cases happ : s.app <;> simpa [TeleopSession.emit, Place, happ] using hplace

/-- Inside the context and with no error latched, the application thread may be between
calls. -/
theorem idle_of_active (hc : s.inContext = true) (hl : s.cleanupError = none) :
    s.Place .idle := by
  refine ⟨fun hout => ?_, fun _ hlatched => absurd hl hlatched⟩
  rw [hc] at hout
  cases hout

/-- A runner is created. -/
theorem Control.created (h : s.Control) (ha : s.app = .idle) (hl : s.cleanupError = none)
    (hd : s.deviceioSession = .opened) (hr : s.asyncRunner = none) (m : Machine Io Time Exc) :
    Control { s with
      asyncRunner := some s.runners.length
      runners := s.runners ++ [m] } := by
  have hplace := h.place
  rw [ha] at hplace
  refine ⟨?_, ?_, ?_⟩
  · rw [show ({ s with asyncRunner := some s.runners.length, runners := s.runners ++ [m] } :
      TeleopSession Io Time Exc Resource).app = .idle from ha]
    refine ⟨fun hout => ?_, fun _ hlatched => absurd hl hlatched⟩
    exact absurd hd (hplace.1 hout).2.2
  · intro i hi
    obtain rfl := Option.some.inj hi
    simp
  · -- The other runners were dropped before, as no runner was held.
    intro i m' hi hne
    have hlt : i < s.runners.length := by
      have hle : i < (s.runners ++ [m]).length := (List.getElem?_eq_some_iff.mp hi).1
      have hne' : i ≠ s.runners.length := by
        rintro rfl
        exact hne rfl
      simp only [List.length_append, List.length_singleton] at hle
      omega
    refine h.dropped i m' ?_ (by simp [hr])
    simpa [List.getElem?_append_left hlt] using hi

/-- At a place where the session is held, the control state changes in its place only. -/
theorem Control.moved (h : s.Control) {app app' : App Exc Resource} (ha : s.app = app)
    (hplace : s.Place app → Place { s with app := app' } app') :
    Control { s with app := app' } := by
  have hold := h.place
  rw [ha] at hold
  exact ⟨hplace hold, h.bound, h.dropped⟩

/-- `__enter__` returns: no runner is held, as none was before. -/
theorem Control.enterSucceeds (h : s.Control) {stack : List Resource} (ha : s.app = .entering stack)
    (mode : ExecutionMode) :
    Control { s with
      exitStack := stack
      deviceioSession := .opened
      asyncRunner := none
      activeMode := some mode
      app := .idle } := by
  have hplace := h.place
  rw [ha] at hplace
  obtain ⟨hc, -, hr, hl⟩ := hplace
  refine ⟨idle_of_active hc hl, by simp, ?_⟩
  intro i m hm _
  exact h.dropped i m hm (by simp [hr])

/-- The rollback of a failed `__enter__` ends outside the context. -/
theorem Control.rollbackEnds (h : s.Control) {error : Raise Exc} {u : Unwind Exc Resource}
    (ha : s.app = .rollingBack error u) (latched : Option (Raise Exc)) :
    Control { s with
      cleanupError := latched
      deviceioSession := .absent
      inContext := false
      app := .idle } := by
  have hplace := h.place
  rw [ha] at hplace
  obtain ⟨hc, hstack, hr, hl, -⟩ := hplace
  refine ⟨⟨fun _ => ⟨hstack, hr, by simp⟩, ?_⟩, h.bound, h.dropped⟩
  intro hin
  cases hin

/-- The held runner is found in order: only inside the context is one held. -/
theorem Control.stepChecked (h : s.Control) {i : ℕ} {m : Machine Io Time Exc} (ha : s.app = .idle)
    (hl : s.cleanupError = none) (hr : s.asyncRunner = some i) :
    Control { s.setRunner i m with app := .checked i } := by
  have hplace := h.place
  rw [ha] at hplace
  refine h.setRunner hr _ ⟨?_, hr, hl⟩
  by_contra hout
  have hnone := (hplace.1 (by simpa using hout)).2.1
  rw [hr] at hnone
  cases hnone

/-- The join raises: the error is latched while the runner waits to be stopped. -/
theorem Control.joinRaises (h : s.Control) {i : ℕ} {body : Option Exc}
    (ha : s.app = .joining i body) (e : Raise Exc) :
    Control { s with cleanupError := some e, app := .idle } := by
  have hplace := h.place
  rw [ha] at hplace
  obtain ⟨hc, hr⟩ := hplace
  refine ⟨⟨?_, ?_⟩, h.bound, h.dropped⟩
  · intro hout
    rw [show s.inContext = false from hout] at hc
    cases hc
  · intro _ _
    simp [hr]

/-- The thread has ended, and the session gives its runner up. -/
theorem Control.joinReturns (h : s.Control) {i : ℕ} {body : Option Exc} {m : Machine Io Time Exc}
    (ha : s.app = .joining i body) (hw : m.worker = .exited) (runnerError : Option (Raise Exc)) :
    Control { s.setRunner i m with
      cleanupError := none
      asyncRunner := none
      activeMode := none
      app := .unwinding (some i) body runnerError ⟨s.exitStack, body.map .other, false⟩ } := by
  have hplace := h.place
  rw [ha] at hplace
  obtain ⟨hc, hr⟩ := hplace
  refine ⟨⟨hc, rfl, rfl, rfl⟩, by simp, ?_⟩
  intro j m' hj _
  simp only [TeleopSession.setRunner, List.getElem?_set] at hj
  by_cases hij : i = j
  · -- the runner whose thread has just ended
    subst hij
    have hlt : i < s.runners.length := h.bound i hr
    simp only [if_true, hlt] at hj
    obtain rfl := Option.some.inj hj
    exact hw
  · rw [if_neg hij] at hj
    exact h.dropped j m' hj (by simp [hr, hij])

/-- One resource of the exit stack is let go. -/
theorem Control.exitReleases (h : s.Control) {runner : Option ℕ} {body : Option Exc}
    {runnerError : Option (Raise Exc)} {u : Unwind Exc Resource} {resource : Resource}
    {rest : List Resource} (ha : s.app = .unwinding runner body runnerError u)
    (hu : u.stack = resource :: rest) (outcome : ReleaseOutcome Exc) :
    Control { s with
      exitStack := rest
      app := .unwinding runner body runnerError (u.pop outcome) } := by
  have hplace := h.place
  rw [ha] at hplace
  obtain ⟨hc, hr, hl, hstack⟩ := hplace
  refine ⟨⟨hc, hr, hl, ?_⟩, h.bound, h.dropped⟩
  cases outcome <;> simp [Unwind.pop, hu]

/-- The exit ends outside the context, with nothing on its stack. -/
theorem Control.exitEnds (h : s.Control) {runner : Option ℕ} {body : Option Exc}
    {runnerError : Option (Raise Exc)} {u : Unwind Exc Resource}
    (ha : s.app = .unwinding runner body runnerError u) (hu : u.stack = [])
    (latched : Option (Raise Exc)) :
    Control { s with
      cleanupError := latched
      deviceioSession := .closed
      inContext := false
      app := .idle } := by
  have hplace := h.place
  rw [ha] at hplace
  obtain ⟨hc, hr, hl, hstack⟩ := hplace
  refine ⟨⟨fun _ => ⟨hstack.trans hu, hr, by simp⟩, ?_⟩, h.bound, h.dropped⟩
  intro hin
  cases hin

/-- **What the control state knows is kept by every action.** -/
theorem Step.control [Sub Time] (hs : Step s s') (h : s.Control) : s'.Control := by
  have hplace := h.place
  cases hs with
  | enterLatched ha hl => exact h.emit _
  | enterActive ha hl hc => exact h.emit _
  | enterBegins ha hl hc =>
    rw [ha] at hplace
    obtain ⟨hstack, hr, -⟩ := hplace.1 hc
    exact ⟨⟨rfl, hstack, hr, hl⟩, h.bound, h.dropped⟩
  | acquire resource ha => exact (h.moved ha id).emit _
  | enterSucceeds mode ha => exact (h.enterSucceeds ha mode).emit _
  | enterFails e ha => exact h.moved ha fun ⟨hc, hstack, hr, hl⟩ => ⟨hc, hstack, hr, hl, e, rfl⟩
  | rollbackReleases outcome ha hu => exact (h.moved ha id).emit _
  | rollbackEnds ha hu => exact (h.rollbackEnds ha _).emit _
  | stepLatched ha hl => exact h.emit _
  | stepRaises e ha hl => exact h.emit _
  | stepSync ha hl hd hmode => exact h.emit _
  | seed frame failure ha hl hd hmode hr => exact (h.created ha hl hd hr _).emit _
  | seedStartFails e ha hl hd hmode hr => exact (h.created ha hl hd hr _).emit _
  | @stepFailed i m cause r ha hl hr hm hc hf =>
    have hset := h.setRunner (m := { m with runner := r }) hr s.app hplace
    exact Control.emit (s := s.setRunner i { m with runner := r }) hset _
  | stepChecked ha hl hr hm hf => exact h.stepChecked ha hl hr
  | requestRaises e ha => exact (h.moved ha fun ⟨hc, _, hl⟩ => idle_of_active hc hl).emit _
  | submitFailed request ha hm hc hf =>
    rw [ha] at hplace
    exact (h.setRunner hplace.2.1 _ (idle_of_active hplace.1 hplace.2.2)).emit _
  | submitStopped request ha hm hf =>
    rw [ha] at hplace
    exact (h.setRunner hplace.2.1 _ (idle_of_active hplace.1 hplace.2.2)).emit _
  | submit request ha hm hf =>
    rw [ha] at hplace
    exact h.setRunner hplace.2.1 _ hplace
  | latestFailed ha hm hc hf =>
    rw [ha] at hplace
    exact (h.setRunner hplace.2.1 _ (idle_of_active hplace.1 hplace.2.2)).emit _
  | latestNone ha hm hf =>
    rw [ha] at hplace
    exact (h.setRunner hplace.2.1 _ (idle_of_active hplace.1 hplace.2.2)).emit _
  | latest failure ha hm hf =>
    rw [ha] at hplace
    exact (h.setRunner hplace.2.1 _ (idle_of_active hplace.1 hplace.2.2)).emit _
  | exitLatched ha hl hr => exact h.emit _
  | exitInactive ha hl hc => exact h.emit _
  | exitStops body ha hc hr hm => exact h.setRunner hr _ ⟨hc, hr⟩
  | joinRaises e ha => exact (h.joinRaises ha _).emit _
  | @joinReturns i body m ha hm hw =>
    let stopped := { m with runner := (m.runner.raiseIfFailed true).2 }
    exact (h.joinReturns (m := stopped) ha hw _).emit _
  | exitUnwinds body ha hl hc hr => exact ⟨⟨hc, hr, hl, rfl⟩, h.bound, h.dropped⟩
  | exitReleases outcome ha hu => exact (h.exitReleases ha hu outcome).emit _
  | exitEnds ha hu => exact (h.exitEnds ha hu _).emit _
  | @worker i m m' hm hw =>
    have hr : s.asyncRunner = some i := by
      -- a runner that is not held has no thread left
      by_contra hne
      exact workerStep_not_exited hw (h.dropped i m hm hne)
    exact h.setRunner hr s.app hplace

theorem Reachable.control [Sub Time] (h : Reachable s) : s.Control := by
  induction h with
  | refl => exact Control.init
  | tail _ hs ih => exact hs.control ih

/-! ### Custody of the resources -/

end TeleopSession

/-- The entered resources, the last one first, and the workers whose stop has not returned. -/
structure Custody (Resource : Type) where
  held : List Resource := []
  live : List ℕ := []

/-- Only the resource entered last is let go, and only when no worker is left. -/
def Custody.next [DecidableEq Resource] (c : Custody Resource) :
    Event Exc Resource → Option (Custody Resource)
  | .entered resource => some { c with held := resource :: c.held }
  | .released resource =>
    if c.held.head? = some resource ∧ c.live = [] then some { c with held := c.held.tail }
    else none
  | .workerStarted runner => some { c with live := runner :: c.live }
  | .stopReturned runner => some { c with live := c.live.erase runner }
  | .unwound _ _ _ => some c
  | .raised _ _ => some c
  | .returned _ => some c

namespace TeleopSession

/-- The resources the session answers for, the last one first. -/
def holding (s : TeleopSession Io Time Exc Resource) : List Resource :=
  match s.app with
  | .entering stack => stack
  | .rollingBack _ u => u.stack
  | .unwinding _ _ _ u => u.stack
  | _ => s.exitStack

/-- A thread was started for the runner. -/
def Started (m : Machine Io Time Exc) : Bool :=
  match m.worker with
  | .created => false
  | _ => true

/-- The worker whose stop has not returned. -/
def live (s : TeleopSession Io Time Exc Resource) : List ℕ :=
  (s.asyncRunner.filter fun i => s.runners[i]?.any Started).toList

def custody (s : TeleopSession Io Time Exc Resource) : Custody Resource := ⟨s.holding, s.live⟩

variable {s s' : TeleopSession Io Time Exc Resource}

theorem workerStep_started [Sub Time] {m m' : Machine Io Time Exc} (h : m.WorkerStep m') :
    Started m' = Started m := by
  cases h with
  | look hw | abandon hw | take hw | complete x hw | fail e hw | exit hw =>
    simp [Started, hw, Machine.take, Machine.complete, Machine.fail]

/-- The thread of a changed runner is there as before. -/
theorem live_setRunner {i : ℕ} {m m' : Machine Io Time Exc} (hm : s.runners[i]? = some m)
    (h : Started m' = Started m) : (s.setRunner i m').live = s.live := by
  have hsame : ∀ j : ℕ,
      (s.setRunner i m').runners[j]?.any Started = s.runners[j]?.any Started := by
    intro j
    simp only [TeleopSession.setRunner, List.getElem?_set]
    by_cases hij : i = j
    · subst hij
      obtain ⟨hlt, rfl⟩ := List.getElem?_eq_some_iff.mp hm
      simp [hlt, h]
    · simp [hij]
  simp only [live, hsame]
  rfl

theorem live_of_none (h : s.asyncRunner = none) : s.live = [] := by
  simp [live, h]

/-- The monitor follows the trace and ends in what the session answers for. -/
def Guarded [DecidableEq Resource] (s : TeleopSession Io Time Exc Resource) : Prop :=
  Monitor.Accepts Custody.next {} s.trace s.custody

variable [DecidableEq Resource]

theorem next_outcomeOf (c : Custody Resource) (call : Call) (failure : Option Exc) :
    Custody.next c (outcomeOf call failure) = some c := by
  cases failure with
  | none => rfl
  | some e => rfl

theorem next_exitEvent (c : Custody Resource) (runnerError : Option (Raise Exc))
    (u : Unwind Exc Resource) : Custody.next c (exitEvent runnerError u) = some c := by
  simp only [exitEvent]
  split <;> rfl

/-- What the session answers for, read off its parts. -/
theorem Guarded.accepts (h : s.Guarded) {held : List Resource} {workers : List ℕ}
    (hheld : s.holding = held) (hlive : s.live = workers) :
    Monitor.Accepts Custody.next {} s.trace ⟨held, workers⟩ := by
  rw [Guarded, custody, hheld, hlive] at h
  exact h

/-- An action that tells nothing and keeps the custody. -/
theorem Guarded.silent {held : List Resource} {workers : List ℕ}
    (hs : Monitor.Accepts Custody.next {} s.trace ⟨held, workers⟩)
    (hheld : s.holding = held) (hlive : s.live = workers) : s.Guarded := by
  rw [Guarded, custody, hheld, hlive]
  exact hs

/-- Some events more, and the custody they lead to. -/
theorem Guarded.emit {events : List (Event Exc Resource)} {c : Custody Resource}
    {held : List Resource} {workers : List ℕ}
    (hc : Monitor.Accepts Custody.next {} s.trace c)
    (he : Monitor.Accepts Custody.next c events ⟨held, workers⟩)
    (hheld : s.holding = held) (hlive : s.live = workers) : (s.emit events).Guarded :=
  Guarded.silent (Monitor.accepts_append.mpr ⟨c, hc, he⟩) hheld hlive

/-- A call ends: what it answers is no matter of custody. -/
theorem Guarded.answer {event : Event Exc Resource} {held : List Resource} {workers : List ℕ}
    (hc : Monitor.Accepts Custody.next {} s.trace ⟨held, workers⟩)
    (he : Custody.next ⟨held, workers⟩ event = some ⟨held, workers⟩)
    (hheld : s.holding = held) (hlive : s.live = workers) : (s.emit [event]).Guarded :=
  Guarded.emit hc (Monitor.accepts_cons.mpr ⟨_, he, rfl⟩) hheld hlive

/-- **Every action obeys the monitor.** -/
theorem Step.guarded [Sub Time] (hs : Step s s') (hcontrol : s.Control) (h : s.Guarded) :
    s'.Guarded := by
  have hplace := hcontrol.place
  -- outside the three places with a stack of their own, the exit stack is what is held
  have hidle : s.app = .idle → s.holding = s.exitStack := fun ha => by simp [holding, ha]
  have hchecked : ∀ i, s.app = .checked i → s.holding = s.exitStack :=
    fun i ha => by simp [holding, ha]
  have hsubmitted : ∀ i, s.app = .submitted i → s.holding = s.exitStack :=
    fun i ha => by simp [holding, ha]
  have hjoining : ∀ i body, s.app = .joining i body → s.holding = s.exitStack :=
    fun i body ha => by simp [holding, ha]
  cases hs with
  | enterLatched ha hl => exact Guarded.answer h rfl rfl rfl
  | enterActive ha hl hc => exact Guarded.answer h rfl rfl rfl
  | enterBegins ha hl hc =>
    rw [ha] at hplace
    have hheld : s.holding = [] := by simp [holding, ha, (hplace.1 hc).1]
    exact Guarded.silent (h.accepts hheld rfl) rfl rfl
  | @acquire stack resource ha =>
    have hheld : s.holding = stack := by simp [holding, ha]
    exact Guarded.emit (h.accepts hheld rfl) (Monitor.accepts_cons.mpr ⟨_, rfl, rfl⟩) rfl rfl
  | @enterSucceeds stack mode ha =>
    rw [ha] at hplace
    have hheld : s.holding = stack := by simp [holding, ha]
    have hlive : s.live = [] := live_of_none hplace.2.2.1
    exact Guarded.answer (h.accepts hheld hlive) rfl rfl rfl
  | @enterFails stack e ha =>
    have hheld : s.holding = stack := by simp [holding, ha]
    exact Guarded.silent (h.accepts hheld rfl) rfl rfl
  | @rollbackReleases error u resource rest outcome ha hu =>
    rw [ha] at hplace
    have hheld : s.holding = resource :: rest := by simp [holding, ha, hu]
    have hlive : s.live = [] := live_of_none hplace.2.2.1
    refine Guarded.emit (h.accepts hheld hlive)
      (Monitor.accepts_cons.mpr ⟨⟨rest, []⟩, if_pos ⟨rfl, rfl⟩, rfl⟩) ?_ hlive
    cases outcome <;> simp [holding, Unwind.pop, hu]
  | @rollbackEnds error u ha hu =>
    rw [ha] at hplace
    obtain ⟨-, hstack, hnone, -, -⟩ := hplace
    have hheld : s.holding = [] := by simp [holding, ha, hu]
    exact Guarded.answer (h.accepts hheld (live_of_none hnone)) rfl hstack (live_of_none hnone)
  | stepLatched ha hl => exact Guarded.answer h rfl rfl rfl
  | stepRaises e ha hl => exact Guarded.answer h rfl rfl rfl
  | stepSync ha hl hd hmode => exact Guarded.answer h rfl rfl rfl
  | seed frame failure ha hl hd hmode hr =>
    refine Guarded.emit (h.accepts (hidle ha) (live_of_none hr))
      (Monitor.accepts_cons.mpr ⟨_, rfl, Monitor.accepts_cons.mpr
        ⟨_, next_outcomeOf _ _ _, rfl⟩⟩) ?_ ?_
    · simp [holding, ha]
    · simp [live, Started, startedRunner]
  | seedStartFails e ha hl hd hmode hr =>
    refine Guarded.answer (h.accepts (hidle ha) (live_of_none hr)) rfl ?_ ?_
    · simp [holding, ha]
    · simp [live, Started, unstartedRunner]
  | stepFailed ha hl hr hm hc hf => exact Guarded.answer h rfl rfl (live_setRunner hm rfl)
  | stepChecked ha hl hr hm hf =>
    exact Guarded.silent (h.accepts (hidle ha) rfl) rfl (live_setRunner hm rfl)
  | requestRaises e ha =>
    exact Guarded.answer (h.accepts (hchecked _ ha) rfl) rfl rfl rfl
  | submitFailed request ha hm hc hf =>
    exact Guarded.answer (h.accepts (hchecked _ ha) rfl) rfl rfl (live_setRunner hm rfl)
  | submitStopped request ha hm hf =>
    exact Guarded.answer (h.accepts (hchecked _ ha) rfl) rfl rfl (live_setRunner hm rfl)
  | submit request ha hm hf =>
    exact Guarded.silent (h.accepts (hchecked _ ha) rfl) rfl (live_setRunner hm rfl)
  | latestFailed ha hm hc hf =>
    exact Guarded.answer (h.accepts (hsubmitted _ ha) rfl) rfl rfl (live_setRunner hm rfl)
  | latestNone ha hm hf =>
    exact Guarded.answer (h.accepts (hsubmitted _ ha) rfl) rfl rfl (live_setRunner hm rfl)
  | latest failure ha hm hf =>
    exact Guarded.answer (h.accepts (hsubmitted _ ha) rfl) (next_outcomeOf _ _ _) rfl
      (live_setRunner hm rfl)
  | exitLatched ha hl hr => exact Guarded.answer h rfl rfl rfl
  | exitInactive ha hl hc => exact Guarded.answer h rfl rfl rfl
  | exitStops body ha hc hr hm =>
    exact Guarded.silent (h.accepts (hidle ha) rfl) rfl (live_setRunner hm rfl)
  | joinRaises e ha =>
    exact Guarded.answer (h.accepts (hjoining _ _ ha) rfl) rfl rfl rfl
  | @joinReturns i body m ha hm hw =>
    rw [ha] at hplace
    have hlive : s.live = [i] := by simp [live, hplace.2, hm, Started, hw]
    refine Guarded.emit (h.accepts (hjoining _ _ ha) hlive)
      (Monitor.accepts_cons.mpr ⟨⟨s.exitStack, []⟩, ?_, rfl⟩) rfl rfl
    simp [Custody.next]
  | exitUnwinds body ha hl hc hr =>
    exact Guarded.silent (h.accepts (hidle ha) rfl) rfl rfl
  | @exitReleases runner body runnerError u resource rest outcome ha hu =>
    rw [ha] at hplace
    have hheld : s.holding = resource :: rest := by simp [holding, ha, hu]
    have hlive : s.live = [] := live_of_none hplace.2.1
    refine Guarded.emit (h.accepts hheld hlive)
      (Monitor.accepts_cons.mpr ⟨⟨rest, []⟩, if_pos ⟨rfl, rfl⟩, rfl⟩) ?_ hlive
    cases outcome <;> simp [holding, Unwind.pop, hu]
  | @exitEnds runner body runnerError u ha hu =>
    rw [ha] at hplace
    obtain ⟨-, hnone, -, hstack⟩ := hplace
    have hheld : s.holding = [] := by simp [holding, ha, hu]
    refine Guarded.emit (h.accepts hheld (live_of_none hnone))
      (Monitor.accepts_cons.mpr ⟨_, rfl, Monitor.accepts_cons.mpr
        ⟨_, next_exitEvent _ _ _, rfl⟩⟩) ?_ (live_of_none hnone)
    exact hstack.trans hu
  | worker hm hw =>
    exact Guarded.silent h rfl (live_setRunner hm (workerStep_started hw))

theorem Reachable.guarded [Sub Time] (h : Reachable s) : s.Guarded := by
  induction h with
  | refl => rfl
  | tail hrun hs ih => exact hs.guarded (Reachable.control hrun) ih

/-! ### The latched error -/

omit [DecidableEq Resource]

/-- A call that raises. -/
def Event.Raised (event : Event Exc Resource) : Prop := ∃ call e, event = .raised call e

/-- With an error latched, an action raises, tells nothing, or is the return of a retried
stop. -/
theorem Step.latched [Sub Time] (hs : Step s s') (hcontrol : s.Control)
    (hl : s.cleanupError ≠ none) :
    (s'.cleanupError ≠ none ∧ (s.asyncRunner = none → s'.asyncRunner = none) ∧
      ∃ later, s'.trace = s.trace ++ later ∧ ∀ event ∈ later, Event.Raised event) ∨
    (s.asyncRunner ≠ none ∧ ∃ i, s'.trace = s.trace ++ [.stopReturned i]) := by
  have hplace := hcontrol.place
  have hraise : ∀ {call : Call} {e : Raise Exc} {event : Event Exc Resource},
      event ∈ [.raised call e] → Event.Raised event := by
    intro call e event hmem
    exact ⟨call, e, List.mem_singleton.mp hmem⟩
  cases hs with
  | enterLatched ha hl => exact .inl ⟨by simp [emit, hl], id, _, rfl, fun _ => hraise⟩
  | stepLatched ha hl => exact .inl ⟨by simp [emit, hl], id, _, rfl, fun _ => hraise⟩
  | exitLatched ha hl hr => exact .inl ⟨by simp [emit, hl], id, _, rfl, fun _ => hraise⟩
  | exitStops body ha hc hr hm => exact .inl ⟨hl, id, [], by simp [setRunner], by simp⟩
  | joinRaises e ha => exact .inl ⟨by simp [emit], id, _, rfl, fun _ => hraise⟩
  | @joinReturns i body m ha hm hw =>
    rw [ha] at hplace
    exact .inr ⟨by simp [hplace.2], i, rfl⟩
  | worker hm hw => exact .inl ⟨hl, id, [], by simp [setRunner], by simp⟩
  -- These look at the latch first.
  | enterActive ha hn | enterBegins ha hn | stepRaises e ha hn | stepSync ha hn
  | seed frame failure ha hn | seedStartFails e ha hn | stepFailed ha hn | stepChecked ha hn
  | exitInactive ha hn | exitUnwinds body ha hn => exact absurd hn hl
  | acquire resource ha | enterSucceeds mode ha | enterFails e ha =>
    -- No call is under way while the latch is set.
    rw [ha] at hplace
    exact absurd hplace.2.2.2 hl
  | rollbackReleases outcome ha | rollbackEnds ha =>
    rw [ha] at hplace
    exact absurd hplace.2.2.2.1 hl
  | requestRaises e ha | submitFailed request ha | submitStopped request ha
  | submit request ha | latestFailed ha | latestNone ha | latest failure ha =>
    rw [ha] at hplace
    exact absurd hplace.2.2 hl
  | exitReleases outcome ha | exitEnds ha =>
    rw [ha] at hplace
    exact absurd hplace.2.2.1 hl

/-- The trace only grows. -/
theorem Step.trace_append [Sub Time] (hs : Step s s') :
    ∃ later, s'.trace = s.trace ++ later := by
  cases hs
  all_goals first
    | exact ⟨_, rfl⟩
    | exact ⟨[], by simp [setRunner]⟩

/-- What a run with an error latched has told since. -/
structure LatchedRun (s s' : TeleopSession Io Time Exc Resource)
    (later : List (Event Exc Resource)) : Prop where
  appended : s'.trace = s.trace ++ later
  /-- while no stop has returned, every call raises and the error stays -/
  raising : (∀ i, .stopReturned i ∉ later) →
    s'.cleanupError ≠ none ∧ ∀ event ∈ later, Event.Raised event
  /-- with no runner to stop, that is for good -/
  forever : s.asyncRunner = none → s'.cleanupError ≠ none ∧ s'.asyncRunner = none ∧
    ∀ event ∈ later, Event.Raised event

/-- **A latched error is raised by every later call,** until a retried exit has got the worker
to stop. -/
theorem Reachable.latched [Sub Time] (h : Reachable s) (hl : s.cleanupError ≠ none)
    (hrun : Relation.ReflTransGen Step s s') : ∃ later, LatchedRun s s' later := by
  induction hrun with
  | refl => exact ⟨[], by simp, fun _ => ⟨hl, by simp⟩, fun hr => ⟨hl, hr, by simp⟩⟩
  | @tail s₁ s₂ hbefore hs ih =>
    obtain ⟨later, hold⟩ := ih
    have hcontrol : s₁.Control := Reachable.control (h.trans hbefore)
    obtain ⟨more, hmore⟩ := hs.trace_append
    refine ⟨later ++ more, ?_, ?_, ?_⟩
    · rw [hmore, hold.appended, List.append_assoc]
    · intro hnone
      obtain ⟨hl₁, hlater⟩ := hold.raising fun i hi => hnone i (List.mem_append_left _ hi)
      rcases hs.latched hcontrol hl₁ with ⟨hl₂, -, more', hmore', hraised⟩ | ⟨-, i, hstop⟩
      · obtain rfl : more = more' := List.append_cancel_left (hmore.symm.trans hmore')
        refine ⟨hl₂, ?_⟩
        intro event hevent
        rcases List.mem_append.mp hevent with hevent | hevent
        · exact hlater event hevent
        · exact hraised event hevent
      · -- the stop has returned, which was ruled out
        obtain rfl : more = [.stopReturned i] := List.append_cancel_left (hmore.symm.trans hstop)
        exact absurd (by simp) (hnone i)
    · intro hr
      obtain ⟨hl₁, hr₁, hlater⟩ := hold.forever hr
      rcases hs.latched hcontrol hl₁ with ⟨hl₂, hr₂, more', hmore', hraised⟩ | ⟨hr₂, -⟩
      · obtain rfl : more = more' := List.append_cancel_left (hmore.symm.trans hmore')
        refine ⟨hl₂, hr₂ hr₁, ?_⟩
        intro event hevent
        rcases List.mem_append.mp hevent with hevent | hevent
        · exact hlater event hevent
        · exact hraised event hevent
      · exact absurd hr₁ hr₂

/-! ### The report of a worker failure -/

/-- A step or an exit raised the failure of this runner. -/
def Reported (s : TeleopSession Io Time Exc Resource) (i : ℕ) (cause : Exc) : Prop :=
  .raised .step (.asyncRetargetWorkerError i cause) ∈ s.trace ∨
    .raised .exit (.asyncRetargetWorkerError i cause) ∈ s.trace

/-- The exit that stopped this runner had an exception of the body to let through, or its
unwinding raised. -/
def Excused (s : TeleopSession Io Time Exc Resource) (i : ℕ) : Prop :=
  ∃ body cleanup, .unwound (some i) body cleanup ∈ s.trace ∧
    (body ≠ none ∨ cleanup ≠ none)

/-- The exit under way is to raise the failure, unless the body did raise. -/
def Pending (app : App Exc Resource) (i : ℕ) (cause : Exc) : Prop :=
  match app with
  | .unwinding runner body runnerError _ => runner = some i ∧
      (body = none → runnerError = some (.asyncRetargetWorkerError i cause))
  | _ => False

/-- Every stored failure is reported, or will be. -/
def Answered (s : TeleopSession Io Time Exc Resource) : Prop :=
  ∀ i m cause, s.runners[i]? = some m → m.runner.exception = some cause →
    (s.asyncRunner = some i ∧ (m.runner.exceptionReported = true → s.Reported i cause)) ∨
      (s.asyncRunner ≠ some i ∧
        (s.Reported i cause ∨ s.Excused i ∨ Pending s.app i cause))

theorem Reported.mono {t : TeleopSession Io Time Exc Resource} {i : ℕ} {cause : Exc}
    (htrace : ∀ event ∈ s.trace, event ∈ t.trace) (h : s.Reported i cause) :
    t.Reported i cause :=
  h.imp (htrace _) (htrace _)

theorem Excused.mono {t : TeleopSession Io Time Exc Resource} {i : ℕ}
    (htrace : ∀ event ∈ s.trace, event ∈ t.trace) (h : s.Excused i) : t.Excused i := by
  obtain ⟨body, cleanup, hmem, hwhy⟩ := h
  exact ⟨body, cleanup, htrace _ hmem, hwhy⟩

/-- The same runner is held, a changed runner is that one, and no pending report is
forgotten. -/
theorem Answered.of (h : s.Answered) {t : TeleopSession Io Time Exc Resource}
    (hheld : t.asyncRunner = s.asyncRunner) (htrace : ∀ event ∈ s.trace, event ∈ t.trace)
    (hrunner : ∀ i m cause, t.runners[i]? = some m → m.runner.exception = some cause →
      s.runners[i]? = some m ∨
        (s.asyncRunner = some i ∧ (m.runner.exceptionReported = true → t.Reported i cause)))
    (hpending : ∀ i cause, Pending s.app i cause →
      t.Reported i cause ∨ t.Excused i ∨ Pending t.app i cause) : t.Answered := by
  intro i m cause hm hc
  rw [hheld]
  rcases hrunner i m cause hm hc with hsame | hnew
  · rcases h i m cause hsame hc with ⟨hi, hrep⟩ | ⟨hi, hrep⟩
    · exact .inl ⟨hi, fun hr => (hrep hr).mono htrace⟩
    · refine .inr ⟨hi, ?_⟩
      rcases hrep with hrep | hrep | hrep
      · exact .inl (hrep.mono htrace)
      · exact .inr (.inl (hrep.mono htrace))
      · exact hpending i cause hrep
  · exact .inl hnew

/-- The runners are as they were. -/
theorem Answered.keep (h : s.Answered) {t : TeleopSession Io Time Exc Resource}
    (hheld : t.asyncRunner = s.asyncRunner) (htrace : ∀ event ∈ s.trace, event ∈ t.trace)
    (hrunners : t.runners = s.runners)
    (hpending : ∀ i cause, Pending s.app i cause → Pending t.app i cause) : t.Answered := by
  refine h.of hheld htrace ?_ fun i cause hp => .inr (.inr (hpending i cause hp))
  intro i m cause hm _
  rw [hrunners] at hm
  exact .inl hm

/-- The held runner is changed. -/
theorem Answered.change (h : s.Answered) {t : TeleopSession Io Time Exc Resource} {i : ℕ}
    {m : Machine Io Time Exc} (hr : s.asyncRunner = some i) (hheld : t.asyncRunner = s.asyncRunner)
    (htrace : ∀ event ∈ s.trace, event ∈ t.trace) (hrunners : t.runners = s.runners.set i m)
    (hpending : ∀ j cause, ¬ Pending s.app j cause)
    (hreport : ∀ cause, m.runner.exception = some cause → m.runner.exceptionReported = true →
      t.Reported i cause) : t.Answered := by
  refine h.of hheld htrace ?_ fun j cause hp => absurd hp (hpending j cause)
  intro j m' cause hm hc
  rw [hrunners, List.getElem?_set] at hm
  by_cases hij : i = j
  · subst hij
    split at hm
    · split at hm
      · obtain rfl := Option.some.inj hm
        exact .inr ⟨hr, hreport cause hc⟩
      · cases hm
    · exact .inl hm
  · rw [if_neg hij] at hm
    exact .inl hm

theorem exception_of_raiseIfFailed {r r' : Runner Io Time Exc}
    (h : r.raiseIfFailed = (.ok (), r')) : r'.exception = none := by
  have hkeep := Runner.raiseIfFailed_ok h
  subst hkeep
  by_contra hsome
  simp [Runner.raiseIfFailed, Option.isSome_iff_ne_none.mpr hsome] at h

theorem exception_of_stopped {r r' : Runner Io Time Exc} {id : ℕ}
    {request : StepRequest Io Time} (h : r.submit id request = (.error .stopped, r')) :
    r'.exception = none := by
  rw [Runner.submit] at h
  rcases hr : r.raiseIfFailed with ⟨e | _, r₁⟩
  · -- a failed worker is not taken for a stopped one
    rw [hr] at h
    simp only [Prod.mk.injEq, Except.error.injEq] at h
    obtain ⟨rfl, -⟩ := h
    rw [Runner.raiseIfFailed] at hr
    split at hr
    · cases hr
    · cases hr
  · have hnone := exception_of_raiseIfFailed hr
    rw [hr] at h
    dsimp only at h
    split at h
    · obtain rfl := (Prod.mk.inj h).2
      exact hnone
    · split at h
      · cases h
      · cases h

theorem exception_of_latest {r r' : Runner Io Time Exc}
    {frame : Option (RetargetFrame Io Time)} (h : r.latest = (.ok frame, r')) :
    r'.exception = none := by
  rw [Runner.latest] at h
  rcases hr : r.raiseIfFailed with ⟨e | _, r₁⟩
  · rw [hr] at h
    cases h
  · rw [hr] at h
    obtain rfl := (Prod.mk.inj h).2
    exact exception_of_raiseIfFailed hr

/-- What `raise_if_failed` raises stays stored. -/
theorem exception_raiseIfFailed {r r' : Runner Io Time Exc} {result : Except RunnerError Unit}
    {cause : Exc} (h : r.raiseIfFailed = (result, r')) (hc : r.exception = some cause) :
    r'.exception = some cause := by
  obtain ⟨reported, heq⟩ := r.raiseIfFailed_eq false
  rw [h] at heq
  rw [show r' = _ from heq]
  exact hc

theorem exception_latest {r r' : Runner Io Time Exc}
    {result : Except RunnerError (Option (RetargetFrame Io Time))} {cause : Exc}
    (h : r.latest = (result, r')) (hc : r.exception = some cause) :
    r'.exception = some cause := by
  obtain ⟨reported, heq⟩ := r.latest_eq
  rw [h] at heq
  rw [show r' = _ from heq]
  exact hc

theorem exception_of_submit {r r' : Runner Io Time Exc} {id dropped : ℕ}
    {request : StepRequest Io Time} (h : r.submit id request = (.ok dropped, r')) :
    r'.exception = none := by
  obtain ⟨hnone, -, ⟨-, -, rfl⟩ | ⟨old, -, -, rfl⟩⟩ := Runner.submit_ok h
  · exact hnone
  · exact hnone

theorem exception_acknowledgeReset (r : Runner Io Time Exc) (generation : ℕ) :
    (r.acknowledgeReset generation).2.exception = r.exception := by
  rw [Runner.acknowledgeReset]
  split
  · rfl
  · rfl

/-- What the worker does leaves no failure marked as reported that was not. -/
theorem workerStep_unreported [Sub Time] {m m' : Machine Io Time Exc} {cause : Exc}
    (h : m.WorkerStep m') (hc : m'.runner.exception = some cause)
    (hr : m'.runner.exceptionReported = true) :
    m.runner.exception = some cause ∧ m.runner.exceptionReported = true := by
  cases h with
  | look | abandon | take | complete | exit => exact ⟨hc, hr⟩
  | fail e hw => exact absurd hr (by simp [Machine.fail, Runner.storeException])

/-- The failure found by the stop of a runner is raised at the end of the exit, unless it was
reported before. -/
theorem runnerErrorOf_unreported {r : Runner Io Time Exc} {i : ℕ} {cause : Exc}
    (hc : r.exception = some cause) (hr : r.exceptionReported = false) :
    runnerErrorOf i r none = some (.asyncRetargetWorkerError i cause) := by
  simp [runnerErrorOf, Runner.raiseIfFailed, hc, hr]

/-- The exit raises what it has to report, or excuses itself. -/
theorem exit_reports {i : ℕ} {cause : Exc} {body : Option Exc} {runnerError : Option (Raise Exc)}
    {u : Unwind Exc Resource}
    (h : body = none → runnerError = some (.asyncRetargetWorkerError i cause)) :
    exitEvent runnerError u = .raised .exit (.asyncRetargetWorkerError i cause) ∨
      body ≠ none ∨ u.failure ≠ none := by
  by_cases hb : body = none
  · rw [h hb]
    rcases hp : u.pendingRaise with _ | _
    · simp [exitEvent, hp]
    · rcases he : u.exc with _ | e
      · simp [exitEvent, hp, he]
      · simp [Unwind.failure, hp, he]
  · exact .inr (.inl hb)

/-- A step that raises the failure of a worker has reported it. -/
theorem reported_step {r : Runner Io Time Exc} {i : ℕ} {cause cause' : Exc}
    (hc : r.exception = some cause) (hc' : r.exception = some cause') :
    (s.emit [.raised .step (.asyncRetargetWorkerError i cause)]).Reported i cause' := by
  obtain rfl := Option.some.inj (hc.symm.trans hc')
  exact .inl (List.mem_append_right _ (List.mem_singleton.mpr rfl))

/-- A new runner has no failure to report. -/
theorem Answered.created (h : s.Answered) {t : TeleopSession Io Time Exc Resource}
    {m : Machine Io Time Exc} (hr : s.asyncRunner = none) (ha : s.app = .idle)
    (hheld : t.asyncRunner = some s.runners.length) (hrunners : t.runners = s.runners ++ [m])
    (htrace : ∀ event ∈ s.trace, event ∈ t.trace) (hm : m.runner.exception = none) :
    t.Answered := by
  intro i m' cause hm' hc
  rw [hrunners] at hm'
  -- The new runner has no error yet, so it is one of the old ones.
  have hlt : i < s.runners.length := by
    by_contra hge
    rw [List.getElem?_append_right (by omega)] at hm'
    have hmem : m' = m := by simpa using List.mem_of_getElem? hm'
    rw [hmem, hm] at hc
    cases hc
  rw [List.getElem?_append_left hlt] at hm'
  have hne : t.asyncRunner ≠ some i := by
    rw [hheld]
    simp
    omega
  rcases h i m' cause hm' hc with ⟨hi, -⟩ | ⟨-, hrep | hrep | hrep⟩
  · rw [hr] at hi
    cases hi
  · exact .inr ⟨hne, .inl (hrep.mono htrace)⟩
  · exact .inr ⟨hne, .inr (.inl (hrep.mono htrace))⟩
  · simp [Pending, ha] at hrep

/-- The held runner is given up, its failure reported or pending. -/
theorem Answered.dropped (h : s.Answered) {t : TeleopSession Io Time Exc Resource} {i : ℕ}
    {m m' : Machine Io Time Exc} (hr : s.asyncRunner = some i) (hm : s.runners[i]? = some m)
    (hheld : t.asyncRunner = none) (htrace : ∀ event ∈ s.trace, event ∈ t.trace)
    (hrunners : t.runners = s.runners.set i m')
    (hexc : m'.runner.exception = m.runner.exception)
    (hquiet : ∀ j cause, ¬ Pending s.app j cause)
    (hpending : ∀ cause, m.runner.exception = some cause →
      m.runner.exceptionReported = false → Pending t.app i cause) : t.Answered := by
  intro j m₁ cause hm₁ hc
  refine .inr ⟨by simp [hheld], ?_⟩
  rw [hrunners, List.getElem?_set] at hm₁
  by_cases hij : i = j
  · -- The dropped runner: its error was reported before, or goes with the exit.
    subst hij
    have hlt : i < s.runners.length := (List.getElem?_eq_some_iff.mp hm).1
    rw [if_pos rfl, if_pos hlt] at hm₁
    obtain rfl := Option.some.inj hm₁
    rw [hexc] at hc
    cases hrep : m.runner.exceptionReported with
    | false => exact .inr (.inr (hpending cause hc hrep))
    | true =>
      rcases h i m cause hm hc with ⟨-, hold⟩ | ⟨hne, -⟩
      · exact .inl ((hold hrep).mono htrace)
      · exact absurd hr hne
  · rw [if_neg hij] at hm₁
    rcases h j m₁ cause hm₁ hc with ⟨hj, -⟩ | ⟨-, hold | hold | hold⟩
    · rw [hr] at hj
      exact absurd (Option.some.inj hj) hij
    · exact .inl (hold.mono htrace)
    · exact .inr (.inl (hold.mono htrace))
    · exact absurd hold (hquiet j cause)

/-- While a runner is held, no exit is unwinding. -/
theorem Control.not_pending (h : s.Control) {i : ℕ} (hr : s.asyncRunner = some i) (j : ℕ)
    (cause : Exc) : ¬ Pending s.app j cause := by
  intro hp
  have hplace := h.place
  cases happ : s.app with
  | unwinding runner body runnerError u =>
    rw [happ] at hplace
    rw [hplace.2.1] at hr
    cases hr
  | _ => simp [Pending, happ] at hp

/-- A failure of the held runner that is marked as reported was reported. -/
theorem Answered.held (h : s.Answered) {i : ℕ} {m : Machine Io Time Exc} {cause : Exc}
    (hr : s.asyncRunner = some i) (hm : s.runners[i]? = some m)
    (hc : m.runner.exception = some cause) (hrep : m.runner.exceptionReported = true) :
    s.Reported i cause := by
  rcases h i m cause hm hc with ⟨-, hold⟩ | ⟨hne, -⟩
  · exact hold hrep
  · exact absurd hr hne

/-- A call on the held runner raises its failure. -/
theorem Answered.raised (h : s.Answered) (hcontrol : s.Control) {i : ℕ} {m : Machine Io Time Exc}
    {cause : Exc} {app : App Exc Resource} (hr : s.asyncRunner = some i)
    (hc : m.runner.exception = some cause) :
    ({ s.setRunner i m with app := app }.emit
      [.raised .step (.asyncRetargetWorkerError i cause)]).Answered :=
  h.change hr rfl (fun _ => List.mem_append_left _) rfl (hcontrol.not_pending hr)
    fun _ hc' _ => reported_step hc hc'

/-- A call on the held runner finds no failure. -/
theorem Answered.sound (h : s.Answered) (hcontrol : s.Control) {i : ℕ} {m : Machine Io Time Exc}
    {app : App Exc Resource} (hr : s.asyncRunner = some i) (hnone : m.runner.exception = none)
    (events : List (Event Exc Resource)) :
    ({ s.setRunner i m with app := app }.emit events).Answered := by
  refine h.change hr rfl (fun _ => List.mem_append_left _) rfl (hcontrol.not_pending hr) ?_
  intro cause hc
  rw [hnone] at hc
  cases hc

/-- The end of an exit raises the failure that it found, or is excused. -/
theorem Answered.exitEnds (h : s.Answered) {runner : Option ℕ} {body : Option Exc}
    {runnerError : Option (Raise Exc)} {u : Unwind Exc Resource}
    (ha : s.app = .unwinding runner body runnerError u) (latched : Option (Raise Exc)) :
    ({ s with
      cleanupError := latched
      deviceioSession := .closed
      inContext := false
      app := .idle }.emit [.unwound runner body u.failure, exitEvent runnerError u]).Answered := by
  refine h.of rfl (fun _ => List.mem_append_left _) (fun _ _ _ hm _ => .inl hm) ?_
  intro i cause hp
  rw [ha] at hp
  obtain ⟨rfl, hp⟩ := hp
  rcases exit_reports (u := u) hp with hevent | hwhy
  · refine .inl (.inr (List.mem_append_right _ ?_))
    simp [hevent]
  · refine .inr (.inl ⟨body, u.failure, List.mem_append_right _ ?_, hwhy⟩)
    simp

/-- **No action forgets a failure of a worker.** -/
theorem Step.answered [Sub Time] (hs : Step s s') (hcontrol : s.Control) (h : s.Answered) :
    s'.Answered := by
  have hplace := hcontrol.place
  have hmore : ∀ (events : List (Event Exc Resource)), ∀ event ∈ s.trace,
      event ∈ s.trace ++ events := fun events event => List.mem_append_left _
  cases hs with
  | enterLatched ha hl => exact h.keep rfl (hmore _) rfl fun _ _ => id
  | enterActive ha hl hc => exact h.keep rfl (hmore _) rfl fun _ _ => id
  | enterBegins ha hl hc => exact h.keep rfl (fun _ => id) rfl (by simp [Pending, ha])
  | acquire resource ha => exact h.keep rfl (hmore _) rfl (by simp [Pending, ha])
  | enterSucceeds mode ha =>
    rw [ha] at hplace
    exact h.keep hplace.2.2.1.symm (hmore _) rfl (by simp [Pending, ha])
  | enterFails e ha => exact h.keep rfl (fun _ => id) rfl (by simp [Pending, ha])
  | rollbackReleases outcome ha hu => exact h.keep rfl (hmore _) rfl (by simp [Pending, ha])
  | rollbackEnds ha hu => exact h.keep rfl (hmore _) rfl (by simp [Pending, ha])
  | stepLatched ha hl => exact h.keep rfl (hmore _) rfl fun _ _ => id
  | stepRaises e ha hl => exact h.keep rfl (hmore _) rfl fun _ _ => id
  | stepSync ha hl hd hmode => exact h.keep rfl (hmore _) rfl fun _ _ => id
  | seed frame failure ha hl hd hmode hr => exact h.created hr ha rfl rfl (hmore _) rfl
  | seedStartFails e ha hl hd hmode hr => exact h.created hr ha rfl rfl (hmore _) rfl
  | @stepFailed i m cause r ha hl hr hm hc hf =>
    exact h.raised (m := { m with runner := r }) hcontrol hr (exception_raiseIfFailed hf hc)
  | @stepChecked i m r ha hl hr hm hf =>
    refine h.change hr rfl (fun _ => id) rfl (hcontrol.not_pending hr) ?_
    simp [exception_of_raiseIfFailed hf]
  | requestRaises e ha => exact h.keep rfl (hmore _) rfl (by simp [Pending, ha])
  | @submitFailed i m cause r request ha hm hc hf =>
    rw [ha] at hplace
    obtain ⟨reported, rfl⟩ := Runner.submit_error hf
    exact h.raised hcontrol hplace.2.1 hc
  | submitStopped request ha hm hf =>
    rw [ha] at hplace
    exact h.sound hcontrol hplace.2.1 (exception_of_stopped hf) _
  | @submit i m dropped r request ha hm hf =>
    rw [ha] at hplace
    refine h.change hplace.2.1 rfl (fun _ => id) rfl (hcontrol.not_pending hplace.2.1) ?_
    simp [Machine.accept, exception_of_submit hf]
  | @latestFailed i m cause r ha hm hc hf =>
    rw [ha] at hplace
    exact h.raised (m := { m with runner := r }) hcontrol hplace.2.1 (exception_latest hf hc)
  | latestNone ha hm hf =>
    rw [ha] at hplace
    exact h.sound hcontrol hplace.2.1 (exception_of_latest hf) _
  | @latest i m frame r failure ha hm hf =>
    rw [ha] at hplace
    refine h.sound hcontrol hplace.2.1 ?_ _
    dsimp only
    split
    · exact exception_of_latest hf
    · rw [exception_acknowledgeReset, exception_of_latest hf]
  | exitLatched ha hl hr => exact h.keep rfl (hmore _) rfl fun _ _ => id
  | exitInactive ha hl hc => exact h.keep rfl (hmore _) rfl fun _ _ => id
  | exitStops body ha hc hr hm =>
    exact h.change hr rfl (fun _ => id) rfl (hcontrol.not_pending hr)
      fun _ hexc hrep => h.held hr hm hexc hrep
  | joinRaises e ha => exact h.keep rfl (hmore _) rfl (by simp [Pending, ha])
  | @joinReturns i body m ha hm hw =>
    -- The runner is dropped here, so its error must be pending from now on.
    rw [ha] at hplace
    obtain ⟨reported, heq⟩ := m.runner.raiseIfFailed_eq true
    refine h.dropped hplace.2 hm rfl (hmore _) rfl (by rw [heq]) (hcontrol.not_pending hplace.2) ?_
    intro cause hc hrep
    refine ⟨rfl, ?_⟩
    rintro rfl
    exact runnerErrorOf_unreported hc hrep
  | exitUnwinds body ha hl hc hr => exact h.keep rfl (fun _ => id) rfl (by simp [Pending, ha])
  | exitReleases outcome ha hu =>
    refine h.keep rfl (hmore _) rfl ?_
    intro i cause hp
    rw [ha] at hp
    exact hp
  | exitEnds ha hu => exact h.exitEnds ha _
  | @worker i m m' hm hw =>
    -- Only the worker of the current runner can still move.
    have hr : s.asyncRunner = some i := by
      by_contra hne
      exact workerStep_not_exited hw (hcontrol.dropped i m hm hne)
    refine h.change hr rfl (fun _ => id) rfl (hcontrol.not_pending hr) ?_
    intro cause hc hrep
    obtain ⟨hc₁, hrep₁⟩ := workerStep_unreported hw hc hrep
    exact h.held hr hm hc₁ hrep₁

theorem Reachable.answered [Sub Time] (h : Reachable s) : s.Answered := by
  induction h with
  | refl =>
    intro i m cause hm
    simp at hm
  | tail hrun hs ih => exact hs.answered (Reachable.control hrun) ih

/-! ### The session as a whole -/

/-- No worker is left when a resource is released. -/
theorem Step.released_exited [Sub Time] {resource : Resource} (hs : Step s s')
    (hcontrol : s.Control) (htrace : s'.trace = s.trace ++ [.released resource]) :
    ∀ m ∈ s.runners, m.worker = .exited := by
  have hplace := hcontrol.place
  have hnone : s.asyncRunner = none := by
    cases hs with
    | rollbackReleases outcome ha hu =>
      rw [ha] at hplace
      exact hplace.2.2.1
    | exitReleases outcome ha hu =>
      rw [ha] at hplace
      exact hplace.2.1
    | seed frame failure =>
      simpa [emit] using congrArg List.length htrace
    | exitEnds ha hu => simpa [emit] using congrArg List.length htrace
    | latest failure => cases failure <;> simp [emit, setRunner, outcomeOf] at htrace
    | _ => simp [emit, setRunner] at htrace
  intro m hm
  obtain ⟨i, hi, rfl⟩ := List.mem_iff_getElem.mp hm
  exact hcontrol.dropped i _ (List.getElem?_eq_getElem hi) (by simp [hnone])

/-- **The lifecycle of a session is safe,** in every state that is reached.

The trace obeys the custody monitor: the resource entered last is released first, once, and
only when the stop of every started worker has returned; between calls and outside the
context, nothing is held.  A latched error is raised by every later call until a retried exit
got its worker to stop.  The failure of a worker that the session has given up was raised by
a step or by an exit, unless that exit had another exception to let through. -/
theorem lifecycle_safety [Sub Time] [DecidableEq Resource]
    (s : TeleopSession Io Time Exc Resource) (h : Reachable s) :
    (∃ custody, Monitor.Accepts Custody.next {} s.trace custody ∧
      (s.app = .idle → s.inContext = false → custody = {})) ∧
    (∀ s' resource, Step s s' → s'.trace = s.trace ++ [.released resource] →
      ∀ m ∈ s.runners, m.worker = .exited) ∧
    (s.cleanupError ≠ none → ∀ s', Relation.ReflTransGen Step s s' →
      ∃ later, LatchedRun s s' later) ∧
    (∀ i m cause, s.runners[i]? = some m → m.runner.exception = some cause →
      s.asyncRunner ≠ some i → (∀ body runnerError u,
        s.app ≠ .unwinding (some i) body runnerError u) →
      s.Reported i cause ∨ s.Excused i) := by
  have hcontrol := h.control
  refine ⟨⟨s.custody, h.guarded, ?_⟩, ?_, ?_, ?_⟩
  · intro ha hc
    have hplace := hcontrol.place
    rw [ha] at hplace
    obtain ⟨hstack, hr, -⟩ := hplace.1 hc
    have hheld : s.holding = [] := by simp [holding, ha, hstack]
    rw [custody, hheld, live_of_none hr]
  · intro s' resource hs htrace
    exact hs.released_exited hcontrol htrace
  · intro hl s' hrun
    exact h.latched hl hrun
  · -- The runner is dropped and nothing unwinds with its error, so it was reported or excused.
    intro i m cause hm hc hi happ
    rcases h.answered i m cause hm hc with ⟨hheld, -⟩ | ⟨-, hrep | hexc | hp⟩
    · exact absurd hheld hi
    · exact .inl hrep
    · exact .inr hexc
    · cases ha : s.app with
      | unwinding runner body runnerError u =>
        rw [ha] at hp
        exact absurd (hp.1 ▸ ha) (happ body runnerError u)
      | _ => simp [Pending, ha] at hp

/-- A session with one resource whose first exit was interrupted while it waited for the
worker: the error is latched and everything is kept. -/
def interruptedSession : TeleopSession Unit ℕ Unit Unit where
  cleanupError := some (.other ())
  inContext := true
  exitStack := [()]
  deviceioSession := .opened
  activeMode := some .pipelined
  asyncRunner := some 0
  runners := [(startedRunner ⟨0, (), ⟨⟨0, 0⟩, {}⟩, 0, 0, 0, 0, 0⟩).setStop]
  trace := [.entered (), .returned .enter, .workerStarted 0, .returned .step,
    .raised .exit (.other ())]

theorem interruptedSession_reachable : Reachable interruptedSession := by
  refine .tail (.tail (.tail (.tail (.tail (.tail .refl (.enterBegins rfl rfl rfl))
    (.acquire () rfl)) (.enterSucceeds .pipelined rfl)) (.seed ⟨0, (), ⟨⟨0, 0⟩, {}⟩, 0, 0, 0, 0, 0⟩
      none rfl rfl rfl (by decide) rfl)) (.exitStops none rfl rfl rfl rfl)) ?_
  exact .joinRaises () rfl

/-- An interrupted exit, with the worker and its resource still there. -/
theorem lifecycle_safety_interrupted :
    Reachable interruptedSession ∧ interruptedSession.cleanupError ≠ none ∧
      ∀ s', Relation.ReflTransGen Step interruptedSession s' →
        ∃ later, LatchedRun interruptedSession s' later := by
  have hlatched : interruptedSession.cleanupError ≠ none := by simp [interruptedSession]
  exact ⟨interruptedSession_reachable, hlatched,
    (lifecycle_safety interruptedSession interruptedSession_reachable).2.2.1 hlatched⟩

/-- The retried exit gets the worker to stop and forgets the latched error: the session may be
entered again. -/
theorem reentered_after_latch :
    ¬ ∀ s s' : TeleopSession Unit ℕ Unit Unit, Reachable s → s.cleanupError ≠ none →
      Relation.ReflTransGen Step s s' → ∀ later, s'.trace = s.trace ++ later →
        .returned .step ∉ later ∧ .returned .enter ∉ later := by
  intro hclaim
  have hrun : ∃ s', Relation.ReflTransGen Step interruptedSession s' ∧
      s'.trace = interruptedSession.trace ++
        [.stopReturned 0, .released (), .unwound (some 0) none none, .returned .exit,
          .returned .enter] := by
    have hexited := Relation.ReflTransGen.single
      (Step.worker (s := interruptedSession) (i := 0) rfl (.exit rfl rfl))
    have hjoining := hexited.tail (Step.exitStops none rfl rfl rfl rfl)
    have hstopped := hjoining.tail (Step.joinReturns rfl rfl rfl)
    have hreleased := hstopped.tail (Step.exitReleases .passes rfl rfl)
    have hended := hreleased.tail (Step.exitEnds rfl rfl)
    have hentering := hended.tail (Step.enterBegins rfl rfl rfl)
    exact ⟨_, hentering.tail (Step.enterSucceeds .sync rfl), rfl⟩
  obtain ⟨s', hsteps, htrace⟩ := hrun
  have hlatched : interruptedSession.cleanupError ≠ none := by simp [interruptedSession]
  have h := (hclaim interruptedSession s' interruptedSession_reachable hlatched hsteps _ htrace).2
  simp at h

end TeleopSession

end TeleopLifecycle
