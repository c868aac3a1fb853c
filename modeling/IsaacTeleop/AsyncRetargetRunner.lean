/-
The pipelined retarget runner.

`AsyncRetargetRunner` runs whole session steps on one worker: it holds at most
one running and one pending request, replaces an unstarted request by a newer
one, and publishes completed frames into a latest-result slot.  Resets are
counted in generations, so that a reset stays visible until the application
acknowledges it.

The bottom layer is the runner's own state and its locked operations (`submit`,
`latest`, `acknowledgeReset`, `setStop`, `publish`, ...).  `Machine` adds the
worker's program counter and a history of what happened to each submission;
`Machine.Step` is any action of the application or the worker.

* `Machine.Inv` — the accounting invariant, kept by every step
  (`Machine.Step.inv`);
* `Machine.Inv.taken_sublist` — requests are executed in submission order;
* `Machine.Inv.carried` — a reset that was submitted is never forgotten.

The pacing estimates only decide how long the worker waits before it takes a
request; here the worker may take at any moment, which covers every pacing.
-/
import IsaacTeleop.ComputeContext
import Mathlib

namespace AsyncRetargetRunner

variable {Io Time Exc : Type}

/-- One application-frame request for the worker. -/
structure StepRequest (Io Time : Type) where
  frameId : ℕ
  externalInputs : Option (List (String × Io))
  graphTime : Option GraphTime
  executionEvents : Option ExecutionEvents
  submittedTimeS : Time
  resetRequested : Bool := false

/-- Completed retarget result stored as the latest reusable frame. -/
structure RetargetFrame (Io Time : Type) where
  frameId : ℕ
  outputs : Io
  context : ComputeContext
  submittedTimeS : Time
  startedTimeS : Time
  completedTimeS : Time
  computeDurationS : Time
  resetGeneration : ℕ := 0

/-- What the runner raises on the application thread. -/
inductive RunnerError
  | workerFailed
  | stopped
  | unknownResetGeneration
  deriving DecidableEq, Repr

/-- The caller asked for a reset with this request (`execution_events.reset`). -/
def StepRequest.explicitReset (request : StepRequest Io Time) : Bool :=
  request.executionEvents.any (·.reset)

/-- A replaced request hands its reset on when this holds. -/
def StepRequest.carriesReset (request : StepRequest Io Time) : Bool :=
  request.resetRequested || request.explicitReset

/-- A request object in the runner: `id` is its identity (its rank among the
accepted submissions), `replaced` the unstarted submissions it took the place
of, oldest first.  The code compares identities and never reads `replaced`. -/
structure Submission (Io Time : Type) where
  id : ℕ
  replaced : List ℕ
  request : StepRequest Io Time

/-- The submissions whose resets this one answers for. -/
def Submission.covers (s : Submission Io Time) : List ℕ := s.replaced ++ [s.id]

/-- The condition-protected state of `AsyncRetargetRunner`. -/
structure Runner (Io Time Exc : Type) where
  pending : Option (Submission Io Time) := none
  published : Option (RetargetFrame Io Time) := none
  resetGeneration : ℕ := 0
  acknowledgedResetGeneration : ℕ := 0
  droppedSubmissions : ℕ := 0
  stop : Bool := false
  closed : Bool := false
  exception : Option Exc := none
  exceptionReported : Bool := false

/-! ### Locked operations -/

/-- `_raise_if_failed_locked`. -/
def Runner.raiseIfFailed (r : Runner Io Time Exc) (onlyUnreported : Bool := false) :
    Except RunnerError Unit × Runner Io Time Exc :=
  if r.exception.isSome && !(onlyUnreported && r.exceptionReported) then
    (.error .workerFailed, { r with exceptionReported := true })
  else (.ok (), r)

/-- `submit`: an unstarted pending request is replaced, and its reset is carried
over without overriding the new request's own events. -/
def Runner.submit (r : Runner Io Time Exc) (id : ℕ) (request : StepRequest Io Time) :
    Except RunnerError ℕ × Runner Io Time Exc :=
  match r.raiseIfFailed with
  | (.error e, r) => (.error e, r)
  | (.ok _, r) =>
    if r.stop then (.error .stopped, r)
    else match r.pending with
      | none => (.ok 0, { r with pending := some ⟨id, [], request⟩ })
      | some old =>
        (.ok 1, { r with
          droppedSubmissions := r.droppedSubmissions + 1
          pending := some ⟨id, old.covers,
            if old.request.carriesReset then { request with resetRequested := true }
            else request⟩ })

/-- `latest`: the published frame, its reset flag telling whether a reset is
still unacknowledged. -/
def Runner.latest (r : Runner Io Time Exc) :
    Except RunnerError (Option (RetargetFrame Io Time)) × Runner Io Time Exc :=
  match r.raiseIfFailed with
  | (.error e, r) => (.error e, r)
  | (.ok _, r) => (.ok (r.published.map fun frame =>
      { frame with
        context := { frame.context with
          executionEvents := { frame.context.executionEvents with
            reset := decide (r.acknowledgedResetGeneration < r.resetGeneration) } }
        resetGeneration := r.resetGeneration }), r)

/-- `acknowledge_reset`. -/
def Runner.acknowledgeReset (r : Runner Io Time Exc) (generation : ℕ) :
    Except RunnerError Unit × Runner Io Time Exc :=
  if generation ≤ r.resetGeneration then
    (.ok (), { r with
      acknowledgedResetGeneration := max r.acknowledgedResetGeneration generation })
  else (.error .unknownResetGeneration, r)

/-- The state `start` resets before it launches the worker. -/
def Runner.start (r : Runner Io Time Exc) : Runner Io Time Exc :=
  { r with stop := false, exception := none, exceptionReported := false }

/-- The locked part of `stop`: reject new work and clear unstarted work. -/
def Runner.setStop (r : Runner Io Time Exc) : Runner Io Time Exc :=
  { r with stop := true, closed := true, pending := none }

/-- `publish_seed`. -/
def Runner.publishSeed (r : Runner Io Time Exc) (frame : RetargetFrame Io Time) :
    Runner Io Time Exc :=
  { r with published := some frame }

/-- The worker stores a completed frame. -/
def Runner.publish (r : Runner Io Time Exc) (frame : RetargetFrame Io Time) :
    Runner Io Time Exc :=
  { r with
    resetGeneration :=
      if frame.context.executionEvents.reset then r.resetGeneration + 1 else r.resetGeneration
    published := some frame }

/-- The worker stores the exception of a failed step. -/
def Runner.storeException (r : Runner Io Time Exc) (e : Exc) : Runner Io Time Exc :=
  { r with exception := some e, exceptionReported := false }

/-- One executed step: what `_execute_step_request` leaves in the context.
`decoded` are the events of the control pipeline (or the automatic RUNNING when
there is none), used only when the request has no events of its own. -/
structure Execution (Io Time : Type) where
  outputs : Io
  graphTime : GraphTime
  decoded : ExecutionEvents
  startedTimeS : Time
  completedTimeS : Time

/-- The retained reset is merged only after decoding the current controls. -/
def Execution.context (x : Execution Io Time) (request : StepRequest Io Time) : ComputeContext :=
  let events := request.executionEvents.getD x.decoded
  { graphTime := request.graphTime.getD x.graphTime
    executionEvents :=
      { reset := events.reset || request.resetRequested
        executionState := events.executionState } }

def Execution.frame [Sub Time] (x : Execution Io Time) (request : StepRequest Io Time) :
    RetargetFrame Io Time where
  frameId := request.frameId
  outputs := x.outputs
  context := x.context request
  submittedTimeS := request.submittedTimeS
  startedTimeS := x.startedTimeS
  completedTimeS := x.completedTimeS
  computeDurationS := x.completedTimeS - x.startedTimeS

/-- Executing a request that carries a reset produces a reset context. -/
theorem Execution.reset_of_carries {x : Execution Io Time} {request : StepRequest Io Time}
    (h : request.carriesReset = true) : (x.context request).executionEvents.reset = true := by
  rw [StepRequest.carriesReset, Bool.or_eq_true] at h
  rcases h with hr | he
  · simp [Execution.context, hr]
  · rw [StepRequest.explicitReset, Option.any_eq_true] at he
    obtain ⟨events, hev, hreset⟩ := he
    simp [Execution.context, hev, hreset]

/-! ### The worker and the history -/

/-- Where the worker thread is: not started, waiting for work, waiting out the
pacing delay of a pending request, running a request, or returned. -/
inductive Worker (Io Time : Type)
  | created
  | waiting
  | pacing (candidate : ℕ)
  | running (s : Submission Io Time)
  | exited

def Worker.runningList : Worker Io Time → List (Submission Io Time)
  | .running s => [s]
  | _ => []

/-- What happened so far.  `published` lists the completed requests with the
reset flag of their context. -/
structure History (Io Time : Type) where
  accepted : List (StepRequest Io Time) := []
  submitReturns : List ℕ := []
  dropped : List (Submission Io Time) := []
  discarded : List (Submission Io Time) := []
  failed : List (Submission Io Time) := []
  published : List (Submission Io Time × Bool) := []

/-- Runner, worker and history. -/
structure Machine (Io Time Exc : Type) where
  runner : Runner Io Time Exc := {}
  worker : Worker Io Time := .created
  history : History Io Time := {}

/-- The requests the worker took, in the order it took them. -/
def Machine.taken (m : Machine Io Time Exc) : List (Submission Io Time) :=
  m.history.published.map Prod.fst ++ m.history.failed ++ m.worker.runningList

/-- The published requests whose context carried a reset; entry `g - 1` raised
the reset generation to `g`. -/
def Machine.resets (m : Machine Io Time Exc) : List (Submission Io Time) :=
  (m.history.published.filter Prod.snd).map Prod.fst

/-- The submissions that were not replaced: stopped, taken or pending. -/
def Machine.kept (m : Machine Io Time Exc) : List (Submission Io Time) :=
  m.history.discarded ++ m.taken ++ m.runner.pending.toList

/-- An accepted submission: the runner after `submit`, and the record of it. -/
def Machine.accept (m : Machine Io Time Exc) (request : StepRequest Io Time) (dropped : ℕ)
    (r : Runner Io Time Exc) : Machine Io Time Exc :=
  { m with
    runner := r
    history := { m.history with
      accepted := m.history.accepted ++ [request]
      submitReturns := m.history.submitReturns ++ [dropped]
      dropped := m.history.dropped ++ m.runner.pending.toList } }

def Machine.setStop (m : Machine Io Time Exc) : Machine Io Time Exc :=
  { m with
    runner := m.runner.setStop
    history := { m.history with discarded := m.history.discarded ++ m.runner.pending.toList } }

def Machine.take (m : Machine Io Time Exc) (s : Submission Io Time) : Machine Io Time Exc :=
  { m with runner := { m.runner with pending := none }, worker := .running s }

def Machine.complete [Sub Time] (m : Machine Io Time Exc) (s : Submission Io Time)
    (x : Execution Io Time) : Machine Io Time Exc :=
  { runner := m.runner.publish (x.frame s.request)
    worker := .waiting
    history := { m.history with
      published := m.history.published ++ [(s, (x.context s.request).executionEvents.reset)] } }

def Machine.fail (m : Machine Io Time Exc) (s : Submission Io Time) (e : Exc) :
    Machine Io Time Exc :=
  { runner := m.runner.storeException e
    worker := .exited
    history := { m.history with failed := m.history.failed ++ [s] } }

/-- One action of the worker thread, each atomic under the condition's lock. -/
inductive Machine.WorkerStep [Sub Time] : Machine Io Time Exc → Machine Io Time Exc → Prop
  | look {m s} (hw : m.worker = .waiting) (hs : m.runner.stop = false)
      (hp : m.runner.pending = some s) : WorkerStep m { m with worker := .pacing s.id }
  | abandon {m c} (hw : m.worker = .pacing c)
      (hp : ∀ s, m.runner.pending = some s → s.id ≠ c) :
      WorkerStep m { m with worker := .waiting }
  | take {m s} (hw : m.worker = .pacing s.id) (hp : m.runner.pending = some s) :
      WorkerStep m (m.take s)
  | complete {m s} (x : Execution Io Time) (hw : m.worker = .running s) :
      WorkerStep m (m.complete s x)
  | fail {m s} (e : Exc) (hw : m.worker = .running s) : WorkerStep m (m.fail s e)
  | exit {m} (hw : m.worker = .waiting) (hs : m.runner.stop = true) :
      WorkerStep m { m with worker := .exited }

/-- One action of the application or of the worker. -/
inductive Machine.Step [Sub Time] : Machine Io Time Exc → Machine Io Time Exc → Prop
  | start {m} (hw : m.worker = .created) (hc : m.runner.closed = false) :
      Step m { m with runner := m.runner.start, worker := .waiting }
  | publishSeed {m} (frame : RetargetFrame Io Time) :
      Step m { m with runner := m.runner.publishSeed frame }
  | submit {m} (request : StepRequest Io Time) {dropped r}
      (h : m.runner.submit m.history.accepted.length request = (.ok dropped, r)) :
      Step m (m.accept request dropped r)
  | submitRaises {m} (request : StepRequest Io Time) {e r}
      (h : m.runner.submit m.history.accepted.length request = (.error e, r)) :
      Step m { m with runner := r }
  | latest {m} : Step m { m with runner := m.runner.latest.2 }
  | raiseIfFailed {m} (onlyUnreported : Bool) :
      Step m { m with runner := (m.runner.raiseIfFailed onlyUnreported).2 }
  | acknowledgeReset {m} (generation : ℕ) :
      Step m { m with runner := (m.runner.acknowledgeReset generation).2 }
  | setStop {m} : Step m m.setStop
  | worker {m m'} (h : WorkerStep m m') : Step m m'

/-! ### The accounting invariant -/

/-- What the machine promises about every submission it accepted. -/
structure Machine.Inv (m : Machine Io Time Exc) : Prop where
  /-- every accepted submission has exactly one place -/
  places : ((m.history.dropped ++ m.kept).map Submission.id).Perm
    (List.range m.history.accepted.length)
  /-- requests are taken in submission order, and the pending one is newer -/
  ordered : ((m.taken ++ m.runner.pending.toList).map Submission.id).Pairwise (· < ·)
  /-- a request is executed as submitted, up to a reset carried over to it -/
  faithful : ∀ s ∈ m.history.dropped ++ m.kept, ∃ request,
    m.history.accepted[s.id]? = some request ∧
      (s.request = request ∨ s.request = { request with resetRequested := true })
  droppedCount : m.runner.droppedSubmissions = m.history.dropped.length
  returnsSum : m.history.submitReturns.sum = m.history.dropped.length
  /-- each submission's reset is answered for by one that was not replaced -/
  covered : ∀ i < m.history.accepted.length, ∃ s ∈ m.kept, i ∈ s.covers
  /-- and that one carries it -/
  carries : ∀ s ∈ m.kept, ∀ i ∈ s.covers, ∃ request,
    m.history.accepted[i]? = some request ∧
      (request.carriesReset = true → s.request.carriesReset = true)
  flagged : ∀ p ∈ m.history.published, p.1.request.carriesReset = true → p.2 = true
  generation : m.runner.resetGeneration = m.resets.length
  acknowledged : m.runner.acknowledgedResetGeneration ≤ m.runner.resetGeneration
  /-- a failure ends the worker -/
  failedExits : m.history.failed ≠ [] → m.worker = .exited ∧ m.runner.exception.isSome = true
  /-- only `stop` discards -/
  discardedStops : m.history.discarded ≠ [] → m.runner.stop = true ∧ m.runner.closed = true

theorem Machine.Inv.init : Machine.Inv ({} : Machine Io Time Exc) where
  places := by simp [Machine.kept, Machine.taken, Worker.runningList]
  ordered := by simp [Machine.taken, Worker.runningList]
  faithful := by simp [Machine.kept, Machine.taken, Worker.runningList]
  droppedCount := rfl
  returnsSum := rfl
  covered := by simp
  carries := by simp [Machine.kept, Machine.taken, Worker.runningList]
  flagged := by simp
  generation := rfl
  acknowledged := Nat.le_refl 0
  failedExits h := absurd rfl h
  discardedStops h := absurd rfl h

/-- The runner fields the invariant depends on are the same in `r` and `r'`. -/
structure Runner.SameWork (r r' : Runner Io Time Exc) : Prop where
  pending : r'.pending = r.pending
  dropped : r'.droppedSubmissions = r.droppedSubmissions
  generation : r'.resetGeneration = r.resetGeneration
  stop : r'.stop = r.stop
  closed : r'.closed = r.closed
  exception : r'.exception = r.exception

/-- A step that moves no submission keeps the invariant. -/
theorem Machine.Inv.of_sameWork {m m' : Machine Io Time Exc} (h : m.Inv)
    (hh : m'.history = m.history) (hr : m.runner.SameWork m'.runner)
    (hw : m'.worker.runningList = m.worker.runningList)
    (hx : m.worker = .exited → m'.worker = .exited)
    (hack : m'.runner.acknowledgedResetGeneration ≤ m.runner.resetGeneration) : m'.Inv := by
  -- The invariant reads the history, what is pending and what is running.
  have htaken : m'.taken = m.taken := by rw [Machine.taken, Machine.taken, hh, hw]
  have hkept : m'.kept = m.kept := by rw [Machine.kept, Machine.kept, hh, htaken, hr.pending]
  have hresets : m'.resets = m.resets := by rw [Machine.resets, Machine.resets, hh]
  refine ⟨?_, ?_, ?_, ?_, ?_, ?_, ?_, ?_, ?_, ?_, ?_, ?_⟩
  · rw [hkept, hh]; exact h.places
  · rw [htaken, hr.pending]; exact h.ordered
  · rw [hkept, hh]; exact h.faithful
  · rw [hr.dropped, hh]; exact h.droppedCount
  · rw [hh]; exact h.returnsSum
  · rw [hkept, hh]; exact h.covered
  · rw [hkept, hh]; exact h.carries
  · rw [hh]; exact h.flagged
  · rw [hresets, hr.generation]; exact h.generation
  · rw [hr.generation]; exact hack
  · rw [hh, hr.exception]
    intro hf
    exact ⟨hx (h.failedExits hf).1, (h.failedExits hf).2⟩
  · rw [hh, hr.stop, hr.closed]; exact h.discardedStops

/-- `raise_if_failed` at most records that the failure was reported. -/
theorem Runner.raiseIfFailed_eq (r : Runner Io Time Exc) (b : Bool) :
    ∃ reported, (r.raiseIfFailed b).2 = { r with exceptionReported := reported } := by
  rw [Runner.raiseIfFailed]
  split
  · exact ⟨true, rfl⟩
  · exact ⟨r.exceptionReported, rfl⟩

/-- `raise_if_failed` either raises or changes nothing. -/
theorem Runner.raiseIfFailed_ok {r r' : Runner Io Time Exc} {b : Bool}
    (h : r.raiseIfFailed b = (.ok (), r')) : r' = r := by
  rw [Runner.raiseIfFailed] at h
  split at h
  · cases h
  · exact (Prod.mk.inj h).2.symm

theorem Runner.latest_eq (r : Runner Io Time Exc) :
    ∃ reported, r.latest.2 = { r with exceptionReported := reported } := by
  have heq := r.raiseIfFailed_eq false
  rw [Runner.latest]
  rcases hr : r.raiseIfFailed with ⟨_ | _, r'⟩
  · rw [hr] at heq; exact heq
  · rw [hr] at heq; exact heq

/-- A frame returned by `latest` is the published one, with the current reset
generation and whether it is still unacknowledged. -/
theorem Runner.latest_ok {r r' : Runner Io Time Exc} {frame : RetargetFrame Io Time}
    (h : r.latest = (.ok (some frame), r')) :
    r' = r ∧ (∃ f, r.published = some f ∧ frame.frameId = f.frameId) ∧
      frame.resetGeneration = r.resetGeneration ∧
      frame.context.executionEvents.reset
        = decide (r.acknowledgedResetGeneration < r.resetGeneration) := by
  rw [Runner.latest] at h
  rcases hr : r.raiseIfFailed with ⟨_ | _, r₁⟩
  · rw [hr] at h
    cases h
  · obtain rfl := Runner.raiseIfFailed_ok hr
    rw [hr, Prod.mk.injEq, Except.ok.injEq, Option.map_eq_some_iff] at h
    obtain ⟨⟨f, hf, rfl⟩, rfl⟩ := h
    exact ⟨rfl, ⟨f, hf, rfl⟩, rfl, rfl⟩

theorem Runner.latest_of_published {r : Runner Io Time Exc} {f : RetargetFrame Io Time}
    (hexc : r.exception = none) (hpub : r.published = some f) :
    ∃ frame, r.latest = (.ok (some frame), r) := by
  have hraise : r.raiseIfFailed = (.ok (), r) := by simp [Runner.raiseIfFailed, hexc]
  simp only [Runner.latest, hraise, hpub, Option.map_some]
  exact ⟨_, rfl⟩

/-- What an accepted `submit` did. -/
theorem Runner.submit_ok {r r' : Runner Io Time Exc} {id d : ℕ} {request : StepRequest Io Time}
    (h : r.submit id request = (.ok d, r')) :
    r.exception = none ∧ r.stop = false ∧
    ((r.pending = none ∧ d = 0 ∧ r' = { r with pending := some ⟨id, [], request⟩ }) ∨
     (∃ old, r.pending = some old ∧ d = 1 ∧ r' = { r with
        droppedSubmissions := r.droppedSubmissions + 1
        pending := some ⟨id, old.covers,
          if old.request.carriesReset then { request with resetRequested := true }
          else request⟩ })) := by
  rw [Runner.submit] at h
  rcases hr : r.raiseIfFailed with ⟨_ | _, r₁⟩
  · rw [hr] at h
    cases h
  · have hexc : r.exception = none := by
      rw [Runner.raiseIfFailed] at hr
      split at hr
      · cases hr
      · simp_all
    obtain rfl := Runner.raiseIfFailed_ok hr
    rw [hr] at h
    cases hs : r₁.stop with
    | true =>
      simp only [hs, if_true] at h
      cases h
    | false =>
      refine ⟨hexc, rfl, ?_⟩
      simp only [hs, Bool.false_eq_true, if_false] at h
      rcases hp : r₁.pending with _ | old
      · simp only [hp, Prod.mk.injEq, Except.ok.injEq] at h
        exact Or.inl ⟨rfl, h.1.symm, h.2.symm⟩
      · simp only [hp, Prod.mk.injEq, Except.ok.injEq] at h
        exact Or.inr ⟨old, rfl, h.1.symm, h.2.symm⟩

/-- The new pending submission answers for itself and for what it replaced,
and carries the reset of what it replaced. -/
theorem Runner.submit_new {r r' : Runner Io Time Exc} {n d : ℕ} {request : StepRequest Io Time}
    (h : r.submit n request = (.ok d, r')) :
    ∃ new : Submission Io Time, new.id = n ∧ r'.pending = some new ∧
      new.covers = r.pending.toList.flatMap Submission.covers ++ [n] ∧
      (new.request = request ∨ new.request = { request with resetRequested := true }) ∧
      (∀ old ∈ r.pending.toList, old.request.carriesReset = true →
        new.request.carriesReset = true) ∧
      r'.droppedSubmissions = r.droppedSubmissions + r.pending.toList.length ∧
      d = r.pending.toList.length ∧
      r'.resetGeneration = r.resetGeneration ∧
      r'.acknowledgedResetGeneration = r.acknowledgedResetGeneration ∧
      r'.stop = r.stop ∧ r'.closed = r.closed ∧ r'.exception = r.exception := by
  obtain ⟨-, -, hcase⟩ := Runner.submit_ok h
  -- Nothing was pending, or the pending submission is replaced and its reset taken over.
  rcases hcase with ⟨hp, rfl, rfl⟩ | ⟨old, hp, rfl, rfl⟩
  · refine ⟨⟨n, [], request⟩, rfl, rfl, ?_, Or.inl rfl, ?_, ?_⟩
    · simp [hp, Submission.covers]
    · simp [hp]
    · simp [hp]
  · refine ⟨_, rfl, rfl, ?_, ?_, ?_, ?_⟩
    · simp [hp, Submission.covers]
    · simp only
      split
      · exact Or.inr rfl
      · exact Or.inl rfl
    · intro old' hold' hc
      obtain rfl : old' = old := by simpa [hp, eq_comm] using hold'
      simp only [if_pos hc]
      rfl
    · simp [hp]

theorem Runner.submit_published {r r' : Runner Io Time Exc} {n d : ℕ}
    {request : StepRequest Io Time} (h : r.submit n request = (.ok d, r')) :
    r'.published = r.published := by
  obtain ⟨-, -, ⟨-, -, rfl⟩ | ⟨old, -, -, rfl⟩⟩ := Runner.submit_ok h <;> rfl

/-- A `submit` that raises moves no submission. -/
theorem Runner.submit_error {r r' : Runner Io Time Exc} {id : ℕ} {request : StepRequest Io Time}
    {e : RunnerError} (h : r.submit id request = (.error e, r')) :
    ∃ reported, r' = { r with exceptionReported := reported } := by
  rw [Runner.submit] at h
  rcases hr : r.raiseIfFailed with ⟨_ | _, r₁⟩
  · have heq := Runner.raiseIfFailed_eq r false
    rw [hr] at h heq
    obtain rfl := (Prod.mk.inj h).2
    exact heq
  · obtain rfl := Runner.raiseIfFailed_ok hr
    rw [hr] at h
    cases hs : r₁.stop with
    | true =>
      simp only [hs, if_true, Prod.mk.injEq] at h
      obtain rfl := h.2
      exact ⟨r₁.exceptionReported, by rw [← hs]⟩
    | false =>
      simp only [hs, Bool.false_eq_true, if_false] at h
      rcases hp : r₁.pending with _ | old
      · simp [hp] at h
      · simp [hp] at h

/-! ### Every step keeps the invariant -/

section Step

variable {m : Machine Io Time Exc}

/-- Ids of accepted submissions are below the number accepted. -/
theorem Machine.Inv.id_lt (h : m.Inv) {s : Submission Io Time}
    (hs : s ∈ m.history.dropped ++ m.kept) : s.id < m.history.accepted.length := by
  have hmem : s.id ∈ (m.history.dropped ++ m.kept).map Submission.id := List.mem_map_of_mem hs
  exact List.mem_range.mp (h.places.mem_iff.mp hmem)

/-- Reading an old entry of the extended submission list. -/
theorem accepted_append_old {l : List (StepRequest Io Time)} {i : ℕ}
    {request new : StepRequest Io Time} (h : l[i]? = some request) :
    (l ++ [new])[i]? = some request := by
  have hi : i < l.length := (List.getElem?_eq_some_iff.mp h).choose
  rw [List.getElem?_append_left hi, h]

/-- What a new pending submission must satisfy next to the ones it joins. -/
theorem Machine.Inv.accept (h : m.Inv) {request : StepRequest Io Time} {d : ℕ}
    {r : Runner Io Time Exc}
    (hsub : m.runner.submit m.history.accepted.length request = (.ok d, r)) :
    (m.accept request d r).Inv := by
  obtain ⟨new, hid, hpend, hcov, hreq, hcarry, hdrop, hd, hsame⟩ := Runner.submit_new hsub
  have htaken : (m.accept request d r).taken = m.taken := rfl
  have hkept : (m.accept request d r).kept = m.history.discarded ++ m.taken ++ [new] := by
    rw [Machine.kept, htaken]
    show m.history.discarded ++ m.taken ++ r.pending.toList = _
    rw [hpend]
    rfl
  have hcount : (m.accept request d r).history.accepted
      = m.history.accepted ++ [request] := rfl
  have hdropped : (m.accept request d r).history.dropped
      = m.history.dropped ++ m.runner.pending.toList := rfl
  have hmemNew : (m.history.accepted ++ [request])[new.id]? = some request := by
    rw [hid, List.getElem?_append_right (Nat.le_refl _)]
    simp
  have hkeptOf : ∀ s ∈ m.history.discarded ++ m.taken, s ∈ m.kept := fun s hs =>
    List.mem_append_left _ hs
  have hpendOf : ∀ s ∈ m.runner.pending.toList, s ∈ m.kept := fun s hs =>
    List.mem_append_right _ hs
  refine ⟨?_, ?_, ?_, ?_, ?_, ?_, ?_, h.flagged, ?_, ?_, ?_, ?_⟩
  · -- the new id is the next one, and the replaced pending one moves to `dropped`
    rw [hkept, hdropped, hcount, List.length_append, List.length_singleton, List.range_succ]
    have hperm : ((m.history.dropped ++ m.runner.pending.toList) ++
        (m.history.discarded ++ m.taken ++ [new])).Perm
        ((m.history.dropped ++ m.kept) ++ [new]) := by
      rw [Machine.kept]
      simp only [List.append_assoc]
      refine List.Perm.append_left _ ?_
      rw [← List.append_assoc, ← List.append_assoc, ← List.append_assoc, ← List.append_assoc]
      refine List.Perm.append_right _ ?_
      rw [List.append_assoc]
      exact List.perm_append_comm
    refine (hperm.map Submission.id).trans ?_
    rw [List.map_append, List.map_singleton, hid]
    exact h.places.append_right _
  · show ((m.taken ++ r.pending.toList).map Submission.id).Pairwise (· < ·)
    rw [hpend]
    rw [Option.toList_some, List.map_append, List.pairwise_append]
    refine ⟨?_, by simp, ?_⟩
    · have := h.ordered
      rw [List.map_append, List.pairwise_append] at this
      exact this.1
    · intro a ha b hb
      obtain ⟨s, hs, rfl⟩ := List.mem_map.mp ha
      obtain rfl : b = new.id := by simpa using hb
      rw [hid]
      exact h.id_lt (List.mem_append_right _ (hkeptOf s (List.mem_append_right _ hs)))
  · rw [hkept, hdropped, hcount]
    intro s hs
    rw [← List.append_assoc, List.mem_append, List.mem_singleton] at hs
    rcases hs with hs | rfl
    · have hold : s ∈ m.history.dropped ++ m.kept := by
        rw [List.mem_append, List.mem_append] at hs
        rcases hs with (hs | hs) | hs
        · exact List.mem_append_left _ hs
        · exact List.mem_append_right _ (hpendOf s hs)
        · exact List.mem_append_right _ (hkeptOf s hs)
      obtain ⟨request', hr', heq⟩ := h.faithful s hold
      exact ⟨request', accepted_append_old hr', heq⟩
    · exact ⟨request, hmemNew, hreq⟩
  · show r.droppedSubmissions = _
    rw [hdropped, List.length_append, hdrop, h.droppedCount]
  · show (m.history.submitReturns ++ [d]).sum = _
    rw [List.sum_append, List.sum_singleton, h.returnsSum, hdropped, List.length_append, hd]
  · rw [hkept, hcount, List.length_append, List.length_singleton]
    intro i hi
    rcases Nat.lt_succ_iff_lt_or_eq.mp hi with hlt | rfl
    · obtain ⟨s, hs, hcovs⟩ := h.covered i hlt
      rw [Machine.kept, List.mem_append] at hs
      rcases hs with hs | hs
      · exact ⟨s, List.mem_append_left _ hs, hcovs⟩
      · refine ⟨new, List.mem_append_right _ (List.mem_singleton_self _), ?_⟩
        rw [hcov]
        exact List.mem_append_left _ (List.mem_flatMap.mpr ⟨s, hs, hcovs⟩)
    · refine ⟨new, List.mem_append_right _ (List.mem_singleton_self _), ?_⟩
      rw [hcov]
      exact List.mem_append_right _ (List.mem_singleton_self _)
  · rw [hkept, hcount]
    intro s hs i hi
    rw [List.mem_append, List.mem_singleton] at hs
    rcases hs with hs | rfl
    · obtain ⟨request', hr', himp⟩ := h.carries s (hkeptOf s hs) i hi
      exact ⟨request', accepted_append_old hr', himp⟩
    · rw [hcov, List.mem_append, List.mem_singleton] at hi
      rcases hi with hi | rfl
      · obtain ⟨old, hold, hiold⟩ := List.mem_flatMap.mp hi
        obtain ⟨request', hr', himp⟩ := h.carries old (hpendOf old hold) i hiold
        exact ⟨request', accepted_append_old hr', fun hc => hcarry old hold (himp hc)⟩
      · refine ⟨request, hid ▸ hmemNew, fun hc => ?_⟩
        rcases hreq with heq | heq
        · rw [heq]; exact hc
        · rw [heq]; rfl
  · show r.resetGeneration = m.resets.length
    rw [hsame.1, h.generation]
  · show r.acknowledgedResetGeneration ≤ r.resetGeneration
    rw [hsame.2.1, hsame.1]
    exact h.acknowledged
  · intro hf
    show m.worker = .exited ∧ r.exception.isSome = true
    rw [hsame.2.2.2.2]
    exact h.failedExits hf
  · intro hf
    show r.stop = true ∧ r.closed = true
    rw [hsame.2.2.1, hsame.2.2.2.1]
    exact h.discardedStops hf

/-- A step that only moves submissions between the places of `kept` keeps the
invariant, if it keeps the order in which requests are taken. -/
theorem Machine.Inv.of_kept {m' : Machine Io Time Exc} (h : m.Inv)
    (hacc : m'.history.accepted = m.history.accepted)
    (hdrop : m'.history.dropped = m.history.dropped)
    (hret : m'.history.submitReturns = m.history.submitReturns)
    (hcount : m'.runner.droppedSubmissions = m.runner.droppedSubmissions)
    (hkept : m'.kept.Perm m.kept)
    (hord : (m'.taken ++ m'.runner.pending.toList).Sublist
      (m.taken ++ m.runner.pending.toList))
    (hflag : ∀ p ∈ m'.history.published, p.1.request.carriesReset = true → p.2 = true)
    (hgen : m'.runner.resetGeneration = m'.resets.length)
    (hack : m'.runner.acknowledgedResetGeneration ≤ m'.runner.resetGeneration)
    (hfail : m'.history.failed ≠ [] → m'.worker = .exited ∧ m'.runner.exception.isSome = true)
    (hdisc : m'.history.discarded ≠ [] → m'.runner.stop = true ∧ m'.runner.closed = true) :
    m'.Inv := by
  -- What is kept only changes its place, so every statement about its members carries over.
  have hperm : (m'.history.dropped ++ m'.kept).Perm (m.history.dropped ++ m.kept) := by
    rw [hdrop]
    exact hkept.append_left _
  refine ⟨?_, ?_, ?_, ?_, ?_, ?_, ?_, hflag, hgen, hack, hfail, hdisc⟩
  · rw [hacc]
    exact (hperm.map _).trans h.places
  · exact h.ordered.sublist (hord.map _)
  · rw [hacc]
    intro s hs
    exact h.faithful s (hperm.mem_iff.mp hs)
  · rw [hcount, hdrop]
    exact h.droppedCount
  · rw [hret, hdrop]
    exact h.returnsSum
  · rw [hacc]
    intro i hi
    obtain ⟨s, hs, hcov⟩ := h.covered i hi
    exact ⟨s, hkept.mem_iff.mpr hs, hcov⟩
  · rw [hacc]
    intro s hs
    exact h.carries s (hkept.mem_iff.mp hs)

theorem Machine.Inv.setStop (h : m.Inv) : m.setStop.Inv := by
  refine h.of_kept rfl rfl rfl rfl ?_ ?_ h.flagged h.generation h.acknowledged h.failedExits
    fun _ => ⟨rfl, rfl⟩
  · show ((m.history.discarded ++ m.runner.pending.toList) ++ m.taken ++ []).Perm
      (m.history.discarded ++ m.taken ++ m.runner.pending.toList)
    rw [List.append_nil, List.append_assoc, List.append_assoc]
    exact List.perm_append_comm.append_left _
  · show (m.taken ++ []).Sublist (m.taken ++ m.runner.pending.toList)
    exact (List.Sublist.refl m.taken).append (List.nil_sublist _)

theorem Machine.Inv.take (h : m.Inv) {s : Submission Io Time} (hw : m.worker = .pacing s.id)
    (hp : m.runner.pending = some s) : (m.take s).Inv := by
  have htaken : (m.take s).taken = m.taken ++ [s] := by
    simp [Machine.taken, Machine.take, hw, Worker.runningList]
  refine h.of_kept rfl rfl rfl rfl ?_ ?_ h.flagged h.generation h.acknowledged ?_
    h.discardedStops
  · rw [Machine.kept, Machine.kept, htaken, hp]
    simp [Machine.take]
  · rw [htaken, hp]
    simp [Machine.take]
  · intro hf
    have hex := (h.failedExits hf).1
    rw [hw] at hex
    cases hex

/-- While a request runs, none has failed. -/
theorem Machine.Inv.failed_nil_of_running (h : m.Inv) {s : Submission Io Time}
    (hw : m.worker = .running s) : m.history.failed = [] := by
  by_contra hf
  have hex := (h.failedExits hf).1
  rw [hw] at hex
  cases hex

theorem Machine.Inv.complete [Sub Time] (h : m.Inv) {s : Submission Io Time}
    (hw : m.worker = .running s) (x : Execution Io Time) : (m.complete s x).Inv := by
  have hnone := h.failed_nil_of_running hw
  -- The running submission becomes the last published one.
  have htaken : (m.complete s x).taken = m.taken := by
    simp [Machine.taken, Machine.complete, hw, hnone, Worker.runningList]
  refine h.of_kept rfl rfl rfl rfl ?_ ?_ ?_ ?_ ?_ (fun hf => absurd hnone hf) h.discardedStops
  · rw [Machine.kept, htaken]
    rfl
  · rw [htaken]
    exact List.Sublist.refl _
  · intro p hp hc
    rcases List.mem_append.mp hp with hp | hp
    · exact h.flagged p hp hc
    · obtain rfl := List.mem_singleton.mp hp
      exact Execution.reset_of_carries hc
  · -- The generation counts the published resets.
    show (m.runner.publish (x.frame s.request)).resetGeneration = _
    have hgen := h.generation
    rw [Machine.resets] at hgen
    cases hreset : (x.context s.request).executionEvents.reset with
    | true =>
      simp [Runner.publish, Execution.frame, Machine.resets, Machine.complete, hreset, hgen]
    | false =>
      simp [Runner.publish, Execution.frame, Machine.resets, Machine.complete, hreset, hgen]
  · show m.runner.acknowledgedResetGeneration ≤ (m.runner.publish _).resetGeneration
    have := h.acknowledged
    rw [Runner.publish]
    split
    · exact Nat.le_succ_of_le this
    · exact this

theorem Machine.Inv.fail (h : m.Inv) {s : Submission Io Time} (hw : m.worker = .running s)
    (e : Exc) : (m.fail s e).Inv := by
  have htaken : (m.fail s e).taken = m.taken := by
    simp [Machine.taken, Machine.fail, hw, Worker.runningList]
  refine h.of_kept rfl rfl rfl rfl ?_ ?_ h.flagged h.generation h.acknowledged
    (fun _ => ⟨rfl, rfl⟩) h.discardedStops
  · rw [Machine.kept, htaken]
    rfl
  · rw [htaken]
    exact List.Sublist.refl _

/-- Every action of the worker keeps the accounting invariant. -/
theorem Machine.WorkerStep.inv [Sub Time] {m m' : Machine Io Time Exc}
    (hstep : m.WorkerStep m') (h : m.Inv) : m'.Inv := by
  cases hstep with
  | look hw hs hp =>
    refine h.of_sameWork rfl ⟨rfl, rfl, rfl, rfl, rfl, rfl⟩ ?_ ?_ h.acknowledged
    · rw [hw]; rfl
    · rw [hw]; intro hx; cases hx
  | abandon hw hp =>
    refine h.of_sameWork rfl ⟨rfl, rfl, rfl, rfl, rfl, rfl⟩ ?_ ?_ h.acknowledged
    · rw [hw]; rfl
    · rw [hw]; intro hx; cases hx
  | take hw hp => exact h.take hw hp
  | complete x hw => exact h.complete hw x
  | fail e hw => exact h.fail hw e
  | exit hw hs =>
    refine h.of_sameWork rfl ⟨rfl, rfl, rfl, rfl, rfl, rfl⟩ ?_ (fun _ => rfl) h.acknowledged
    rw [hw]; rfl

/-- **Step lemma.**  Every action keeps the accounting invariant. -/
theorem Machine.Step.inv [Sub Time] {m m' : Machine Io Time Exc} (hstep : m.Step m')
    (h : m.Inv) : m'.Inv := by
  cases hstep with
  | start hw hc =>
    -- a runner that was never started has neither failed nor been stopped
    have hnone : m.history.failed = [] := by
      by_contra hf
      have hex := (h.failedExits hf).1
      rw [hw] at hex
      cases hex
    have hkeep : m.history.discarded = [] := by
      by_contra hd
      have hclosed := (h.discardedStops hd).2
      rw [hc] at hclosed
      cases hclosed
    have htaken : ({ m with runner := m.runner.start, worker := .waiting } :
        Machine Io Time Exc).taken = m.taken := by
      simp [Machine.taken, hw, Worker.runningList]
    refine h.of_kept rfl rfl rfl rfl ?_ ?_ h.flagged h.generation h.acknowledged
      (fun hf => absurd hnone hf) (fun hd => absurd hkeep hd)
    · rw [Machine.kept, htaken]
      rfl
    · rw [htaken]
      exact List.Sublist.refl _
  | publishSeed frame =>
    exact h.of_sameWork rfl ⟨rfl, rfl, rfl, rfl, rfl, rfl⟩ rfl id h.acknowledged
  | submit request hsub => exact h.accept hsub
  | submitRaises request hsub =>
    obtain ⟨reported, rfl⟩ := Runner.submit_error hsub
    exact h.of_sameWork rfl ⟨rfl, rfl, rfl, rfl, rfl, rfl⟩ rfl id h.acknowledged
  | latest =>
    obtain ⟨reported, heq⟩ := m.runner.latest_eq
    rw [heq]
    exact h.of_sameWork rfl ⟨rfl, rfl, rfl, rfl, rfl, rfl⟩ rfl id h.acknowledged
  | raiseIfFailed b =>
    obtain ⟨reported, heq⟩ := m.runner.raiseIfFailed_eq b
    rw [heq]
    exact h.of_sameWork rfl ⟨rfl, rfl, rfl, rfl, rfl, rfl⟩ rfl id h.acknowledged
  | acknowledgeReset g =>
    rw [Runner.acknowledgeReset]
    split
    case isTrue hg =>
      exact h.of_sameWork rfl ⟨rfl, rfl, rfl, rfl, rfl, rfl⟩ rfl id
        (Nat.max_le.mpr ⟨h.acknowledged, hg⟩)
    case isFalse =>
      exact h.of_sameWork rfl ⟨rfl, rfl, rfl, rfl, rfl, rfl⟩ rfl id h.acknowledged
  | setStop => exact h.setStop
  | worker hstep => exact hstep.inv h

end Step

/-! ### What the invariant says about fates and resets -/

section Consequences

variable {m : Machine Io Time Exc}

/-- Submission `i`'s reset travels with `s`. -/
def Submission.Carries (s : Submission Io Time) (i : ℕ) : Prop :=
  i ∈ s.covers ∧ s.request.carriesReset = true

/-- The executed request whose reset raised the generation to `g`. -/
def Machine.resetAt (m : Machine Io Time Exc) (g : ℕ) : Option (Submission Io Time) :=
  if g = 0 then none else m.resets[g - 1]?

theorem Machine.Inv.resetAt_isSome (h : m.Inv) {g : ℕ} (h0 : 0 < g)
    (hg : g ≤ m.runner.resetGeneration) : ∃ s, m.resetAt g = some s := by
  rw [h.generation] at hg
  refine ⟨m.resets[g - 1], ?_⟩
  rw [Machine.resetAt, if_neg (by omega), List.getElem?_eq_getElem]

/-- An entry of `resets` is an executed request whose context had the reset. -/
theorem Machine.resetAt_published {g : ℕ} {s : Submission Io Time}
    (h : m.resetAt g = some s) : (s, true) ∈ m.history.published := by
  rw [Machine.resetAt] at h
  split at h
  · cases h
  · have hmem : s ∈ m.resets := List.mem_of_getElem? h
    obtain ⟨⟨s', b⟩, hp, rfl⟩ := List.mem_map.mp hmem
    obtain ⟨hp, hb⟩ := List.mem_filter.mp hp
    obtain rfl : b = true := hb
    exact hp

/-- Where a published reset sits among the generations. -/
theorem Machine.Inv.resetAt_of_published (h : m.Inv) {s : Submission Io Time}
    (hs : (s, true) ∈ m.history.published) :
    ∃ g, 0 < g ∧ g ≤ m.runner.resetGeneration ∧ m.resetAt g = some s := by
  have hmem : s ∈ m.resets := List.mem_map.mpr ⟨(s, true), List.mem_filter.mpr ⟨hs, rfl⟩, rfl⟩
  obtain ⟨k, hk, hget⟩ := List.getElem_of_mem hmem
  refine ⟨k + 1, Nat.succ_pos k, ?_, ?_⟩
  · rw [h.generation]
    exact hk
  · rw [Machine.resetAt, if_neg (Nat.succ_ne_zero k), Nat.add_sub_cancel,
      List.getElem?_eq_getElem hk, hget]

/-- **No submitted reset is forgotten** while nothing failed and nothing was
discarded: it travels with the pending or the running request, or it has raised
the reset generation. -/
theorem Machine.Inv.carried (h : m.Inv) (hf : m.history.failed = [])
    (hd : m.history.discarded = []) {i : ℕ} {request : StepRequest Io Time}
    (hi : m.history.accepted[i]? = some request) (hreset : request.carriesReset = true) :
    (∃ s, m.runner.pending = some s ∧ s.Carries i) ∨
    (∃ s, m.worker = .running s ∧ s.Carries i) ∨
    (∃ g s, 0 < g ∧ g ≤ m.runner.resetGeneration ∧ m.resetAt g = some s ∧ s.Carries i) := by
  have hlt : i < m.history.accepted.length := (List.getElem?_eq_some_iff.mp hi).choose
  obtain ⟨s, hs, hcov⟩ := h.covered i hlt
  have hcarry : s.Carries i := by
    obtain ⟨request', hi', himp⟩ := h.carries s hs i hcov
    rw [hi, Option.some_inj] at hi'
    exact ⟨hcov, himp (hi' ▸ hreset)⟩
  rw [Machine.kept, Machine.taken, hd, hf] at hs
  simp only [List.nil_append, List.append_nil, List.mem_append] at hs
  -- It was published, is running, or is pending.
  rcases hs with (hs | hs) | hs
  · obtain ⟨⟨s', b⟩, hp, rfl⟩ := List.mem_map.mp hs
    obtain rfl : b = true := h.flagged _ hp hcarry.2
    obtain ⟨g, hg0, hg, hat⟩ := h.resetAt_of_published hp
    exact Or.inr (Or.inr ⟨g, s', hg0, hg, hat, hcarry⟩)
  · cases hw : m.worker with
    | running s' =>
      rw [hw, Worker.runningList, List.mem_singleton] at hs
      exact Or.inr (Or.inl ⟨s', rfl, hs ▸ hcarry⟩)
    | created => rw [hw] at hs; cases hs
    | waiting => rw [hw] at hs; cases hs
    | pacing c => rw [hw] at hs; cases hs
    | exited => rw [hw] at hs; cases hs
  · exact Or.inl ⟨s, Option.mem_toList.mp hs, hcarry⟩

/-- Requests are executed in submission order. -/
theorem Machine.Inv.taken_sublist (h : m.Inv) :
    (m.taken.map Submission.id).Sublist (List.range m.history.accepted.length) := by
  have hord := h.ordered
  rw [List.map_append, List.pairwise_append] at hord
  refine List.sublist_of_subperm_of_pairwise ?_ hord.1 List.pairwise_lt_range
  refine (List.Sublist.subperm ?_).trans h.places.subperm
  refine List.Sublist.map _ ?_
  refine List.Sublist.trans ?_ (List.sublist_append_right _ _)
  rw [Machine.kept, List.append_assoc]
  exact List.Sublist.trans (List.sublist_append_left _ _) (List.sublist_append_right _ _)

end Consequences

end AsyncRetargetRunner
