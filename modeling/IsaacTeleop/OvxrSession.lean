/-
The threads of an OVXR session.

The application thread starts and closes the session, other host threads ask for renders,
handles and shutdown, and one worker owns the frame pump.  They share the fields of the
session and the lock of its condition; the events `_shutdown_requested` and
`_borrowers_quiesced` are set outside of it.

A step is one critical section, one access outside of the lock, or one call of the pump or
the host, which may raise.  Sections that expose borrowers are cut in two where they have
read the shutdown event, since it can be set between the read and what follows.

* `State` — the fields and where each thread stands;
* `appStep`, `workerStep`, `hostStep` — the threads;
* `step`, `run` — their interleavings.
-/
import Mathlib

namespace OvxrSession

inductive Phase
  | new
  | starting
  | ready
  | closed
  deriving DecidableEq, Repr

inductive Thread (H : Type)
  | app
  | worker
  | host (h : H)
  deriving DecidableEq, Repr

/-- How a call of the pump or the host ends, or a wait: a timeout or an interrupt raises. -/
inductive Outcome (E : Type)
  | returned (flag : Bool)
  | published (ordinal : ℤ)
  | raised (error : E)
  deriving DecidableEq, Repr

/-- Where the application thread stands in `start` or `close`. -/
inductive AppPc (E : Type)
  | idle
  /-- `start` has offered the transfer. -/
  | offered
  | spawning
  /-- No thread could be started. -/
  | aborting
  | awaitingBootstrap
  /-- The first wait is over; the lock is held. -/
  | bootstrapped
  | awaitingReady
  /-- The second wait is over; the lock is held. -/
  | checking
  /-- READY and no shutdown were read; the lock is held. -/
  | exposing
  /-- `close` has read CLOSED and stops the runtime again. -/
  | stoppingRuntime
  | runtimeStopped
  /-- `close` without a worker. -/
  | abortingHost
  | hostAborted
  | requesting
  | waking
  | quiescing (wakeError : Option E)
  | joining (wakeError : Option E)
  | joined (wakeError : Option E)
  deriving DecidableEq, Repr

def AppPc.isIdle {E : Type} : AppPc E → Bool
  | .idle => true
  | _ => false

/-- Where the worker stands in `run`. -/
inductive WorkerPc (E : Type)
  | absent
  | attaching
  | announcing
  | attached
  | creating
  | created
  | bootstrapping
  | opening
  /-- Reads the handles under the lock. -/
  | publishing
  | polling
  | rendering (pending : Option ℤ)
  | rendered (began : Bool)
  | fetching (began : Bool)
  | storing (began : Bool)
  | pacing (began : Bool)
  | failing (error : E)
  | recording (error : E)
  /-- The `finally` block. -/
  | deciding
  | quiescing
  | closing
  | retiring
  | closeFailing (error : E)
  | closeRecording (error : E)
  | ending
  /-- CLOSED is stored and announced; `run` only returns. -/
  | finished
  deriving DecidableEq, Repr

/-- Where another host thread stands. -/
inductive HostPc
  | idle
  /-- `external_oxr_handles` has found the session open; the lock is held. -/
  | handlesLocked
  /-- And has read no shutdown; the lock is held. -/
  | handlesOpen
  /-- `request_render` has found the session open; the lock is held. -/
  | renderLocked (force : Bool)
  | publishing
  | admitting (ordinal : ℤ)
  /-- The second section has read no shutdown; the lock is held. -/
  | admitted (ordinal : ℤ)
  /-- The second section has read a shutdown; the lock is held. -/
  | declined
  | restoring
  deriving DecidableEq, Repr

/-- What a run shows to the outside. -/
inductive Observation (H : Type)
  | startReturned (result : Bool)
  | handlesReturned (by_ : H)
  | quiesced
  /-- The worker has read whether borrowers were exposed. -/
  | decided (exposed : Bool)
  | pumpClosed (by_ : Thread H)
  | failed
  | finished
  /-- `close` returned normally; the flag says that the session had a worker. -/
  | closeReturned (started : Bool)
  deriving DecidableEq, Repr

structure State (H E : Type) where
  lock : Option (Thread H)
  phase : Phase
  /-- `_worker` is not `None`. -/
  started : Bool
  bootstrapReady : Bool
  workerError : Option E
  shutdownRequested : Bool
  borrowersQuiesced : Bool
  borrowersExposed : Bool
  retirementComplete : Bool
  pendingOrdinal : Option ℤ
  publicationRequested : Bool
  lastPublishedOrdinal : Option ℤ
  /-- `_worker_handles` is not `None`. -/
  handles : Bool
  app : AppPc E
  worker : WorkerPc E
  hosts : H → HostPc
  trace : List (Observation H)

variable {H E : Type}

/-- `OvxrSession()` -/
def State.init : State H E where
  lock := none
  phase := .new
  started := false
  bootstrapReady := false
  workerError := none
  shutdownRequested := false
  borrowersQuiesced := false
  borrowersExposed := false
  retirementComplete := false
  pendingOrdinal := none
  publicationRequested := true
  lastPublishedOrdinal := none
  handles := false
  app := .idle
  worker := .absent
  hosts _ := .idle
  trace := []

namespace State

def observe (s : State H E) (o : Observation H) : State H E := { s with trace := s.trace ++ [o] }

/-- `_request_worker_shutdown`, under the lock. -/
def requestWorkerShutdown (s : State H E) : State H E :=
  if s.phase = .closed ∨ s.shutdownRequested = true then s
  else { s with shutdownRequested := true }

/-- The section of `_record_worker_failure`. -/
def recordError (s : State H E) (error : E) : State H E :=
  { s with workerError := if s.workerError = none then some error else s.workerError }

end State

open State

/-! ### The application thread -/

/-- The call of `start`; `checks` is how its other checks and the offer end. -/
def callStart (s : State H E) (checks : Outcome E) : State H E :=
  if s.phase = .closed ∨ s.started = true then s
  else
    match checks with
    | .raised _ => s
    | _ => { s with app := .offered }

/-- The call of `close`. -/
def callClose (s : State H E) : State H E :=
  if s.phase = .closed then { s with app := .stoppingRuntime }
  else if s.started = false then { s with app := .abortingHost }
  else { s with app := .requesting }

/-- `wait_for` of `start` leaves by an exception: the shutdown is requested. -/
def abandonStart (s : State H E) : State H E :=
  { s.requestWorkerShutdown with lock := none, app := .idle }

/-- What the first wait of `start` waits for. -/
def bootstrapDone (s : State H E) : Bool :=
  s.bootstrapReady || s.workerError.isSome || s.shutdownRequested

/-- What the second wait of `start` waits for. -/
def readyDone (s : State H E) : Bool :=
  decide (s.phase = .ready) || s.workerError.isSome || s.shutdownRequested

/-- A worker error is raised, otherwise `close` returns. -/
def returnClose (s : State H E) (wakeError : Option E) : State H E :=
  if s.workerError.isSome || wakeError.isSome then { s with app := .idle }
  else { s with app := .idle }.observe (.closeReturned s.started)

/-- The next step of `start` or `close`; `none` if it is blocked. -/
def appStep (s : State H E) (outcome : Outcome E) : Option (State H E) :=
  match s.app with
  | .idle => none
  | .offered => some { s with phase := .starting, app := .spawning }
  | .spawning =>
    match outcome with
    | .raised _ => some { s with app := .aborting }
    | _ => some { s with started := true, worker := .attaching, app := .awaitingBootstrap }
  | .aborting => some { s with phase := .closed, app := .idle }
  | .awaitingBootstrap =>
    if s.lock ≠ none then none
    else
      match outcome with
      | .raised _ => some (abandonStart s)
      | _ =>
        if bootstrapDone s = false then some s
        else if s.workerError.isSome then some (abandonStart s)
        else some { s with lock := some .app, app := .bootstrapped }
  | .bootstrapped =>
    if readyDone s then some { s with app := .checking }
    else some { s with lock := none, app := .awaitingReady }
  | .awaitingReady =>
    if s.lock ≠ none then none
    else
      match outcome with
      | .raised _ => some (abandonStart s)
      | _ =>
        if readyDone s then some { s with lock := some .app, app := .checking }
        else some s
  | .checking =>
    if s.workerError.isSome then some (abandonStart s)
    else if s.phase ≠ .ready ∨ s.shutdownRequested = true then
      some ({ s with lock := none, app := .idle }.observe (.startReturned false))
    else some { s with app := .exposing }
  | .exposing =>
    some ({ s with borrowersExposed := true, lock := none, app := .idle }.observe
      (.startReturned true))
  | .stoppingRuntime =>
    match outcome with
    | .raised _ => some { s with app := .idle }
    | _ => some { s with app := .runtimeStopped }
  | .runtimeStopped => some (returnClose s none)
  | .abortingHost =>
    match outcome with
    | .raised _ => some { s with app := .idle }
    | _ => some { s with app := .hostAborted }
  | .hostAborted =>
    some ({ s with phase := .closed, retirementComplete := true, app := .idle }.observe
      (.closeReturned false))
  | .requesting =>
    if s.lock ≠ none then none else some { s.requestWorkerShutdown with app := .waking }
  | .waking =>
    match outcome with
    | .raised error => some { s with app := .quiescing (some error) }
    | _ => some { s with app := .quiescing none }
  | .quiescing wakeError =>
    some ({ s with borrowersQuiesced := true, app := .joining wakeError }.observe .quiesced)
  | .joining wakeError =>
    match s.worker, outcome with
    | .finished, _ => some { s with app := .joined wakeError }
    -- the timeout, or an interrupt
    | _, .raised _ => some { s with app := .idle }
    | _, _ => none
  | .joined wakeError => some (returnClose s wakeError)

/-! ### The worker -/

/-- A call of the pump: go on with what it returned, or fail. -/
def pumpCall (s : State H E) (outcome : Outcome E) (next : Bool → WorkerPc E) : State H E :=
  match outcome with
  | .raised error => { s with worker := .failing error }
  | .returned flag => { s with worker := next flag }
  | .published _ => { s with worker := next true }

/-- A section of the worker; `none` while another thread holds the lock. -/
def section_ (s : State H E) (next : State H E) : Option (State H E) :=
  if s.lock ≠ none then none else some next

/-- The next step of the worker; `none` if it is blocked or has ended. -/
def workerStep (s : State H E) (outcome : Outcome E) : Option (State H E) :=
  match s.worker with
  | .absent => none
  | .attaching => some (pumpCall s outcome fun _ => .announcing)
  | .announcing => section_ s { s with bootstrapReady := true, worker := .attached }
  | .attached =>
    some { s with worker := if s.shutdownRequested then .deciding else .creating }
  | .creating => some (pumpCall s outcome fun _ => .created)
  | .created =>
    section_ s { s with worker := if s.shutdownRequested then .deciding else .bootstrapping }
  | .bootstrapping => some (pumpCall s outcome fun _ => .opening)
  | .opening =>
    section_ s (if s.shutdownRequested then { s with worker := .deciding }
      else { s with lock := some .worker, worker := .publishing })
  | .publishing =>
    match outcome with
    | .raised error => some { s with lock := none, worker := .failing error }
    | .returned flag =>
      some { s with handles := flag, phase := .ready, lock := none, worker := .polling }
    | .published _ =>
      some { s with handles := true, phase := .ready, lock := none, worker := .polling }
  | .polling =>
    section_ s (if s.shutdownRequested then { s with worker := .deciding }
      else { s with
        pendingOrdinal := none
        publicationRequested := if s.pendingOrdinal = none then s.publicationRequested else true
        worker := .rendering s.pendingOrdinal })
  | .rendering _ => some (pumpCall s outcome .rendered)
  | .rendered began =>
    some { s with worker := if s.handles then .pacing began else .fetching began }
  | .fetching began =>
    some (pumpCall s outcome fun found => if found then .storing began else .pacing began)
  | .storing began => section_ s { s with handles := true, worker := .pacing began }
  | .pacing began => if began then some { s with worker := .polling }
      else section_ s { s with worker := .polling }
  | .failing error => some { s with shutdownRequested := true, worker := .recording error }
  | .recording error =>
    section_ s ({ s.recordError error with worker := .deciding }.observe .failed)
  | .deciding =>
    section_ s ({ s with worker := if s.borrowersExposed then .quiescing else .closing }.observe
      (.decided s.borrowersExposed))
  | .quiescing => if s.borrowersQuiesced then some { s with worker := .closing } else none
  | .closing =>
    match outcome with
    | .raised error => some ({ s with worker := .closeFailing error }.observe (.pumpClosed .worker))
    | _ => some ({ s with worker := .retiring }.observe (.pumpClosed .worker))
  | .retiring => some { s with retirementComplete := true, worker := .ending }
  | .closeFailing error =>
    some { s with shutdownRequested := true, worker := .closeRecording error }
  | .closeRecording error =>
    section_ s ({ s.recordError error with worker := .ending }.observe .failed)
  | .ending => section_ s ({ s with phase := .closed, worker := .finished }.observe .finished)
  | .finished => none

/-- The worker is inside a call of the pump, which may ask for shutdown. -/
def WorkerPc.inPump : WorkerPc E → Bool
  | .attaching | .creating | .bootstrapping | .publishing | .rendering _ | .fetching _
  | .closing => true
  | _ => false

/-! ### Other host threads -/

variable [DecidableEq H]

def setHost (s : State H E) (h : H) (pc : HostPc) : State H E :=
  { s with hosts := Function.update s.hosts h pc }

/-- Release the lock. -/
def release (s : State H E) : State H E := { s with lock := none }

/-- Enter a section that starts with `_raise_worker_error` and `_require_open`. -/
def enterOpen (s : State H E) (h : H) (pc : HostPc) : Option (State H E) :=
  if s.lock ≠ none ∨ s.hosts h ≠ .idle then none
  else if s.workerError.isSome ∨ s.phase = .closed then some s
  else some (setHost { s with lock := some (.host h) } h pc)

/-- The next step of `external_oxr_handles` or `request_render`. -/
def hostStep (s : State H E) (h : H) (outcome : Outcome E) : Option (State H E) :=
  match s.hosts h with
  | .idle => none
  | .handlesLocked =>
    if s.shutdownRequested then some (setHost (release s) h .idle)
    else some (setHost s h .handlesOpen)
  | .handlesOpen =>
    if s.handles then
      some ((setHost { release s with borrowersExposed := true } h .idle).observe
        (.handlesReturned h))
    else some (setHost (release s) h .idle)
  | .renderLocked force =>
    if s.shutdownRequested ∨ s.started = false then some (setHost (release s) h .idle)
    else if force = false ∧ s.lastPublishedOrdinal ≠ none ∧ s.publicationRequested = false then
      some (setHost (release s) h .idle)
    else some (setHost { release s with publicationRequested := false } h .publishing)
  | .publishing =>
    match outcome with
    | .published ordinal =>
      some (setHost { s with lastPublishedOrdinal := some ordinal } h (.admitting ordinal))
    | .raised _ => some (setHost s h .restoring)
    | .returned _ => none
  | .admitting ordinal =>
    if s.lock ≠ none then none
    else some (setHost { s with lock := some (.host h) } h
      (if s.shutdownRequested then .declined else .admitted ordinal))
  | .admitted ordinal =>
    some (setHost { release s with pendingOrdinal := some ordinal } h
      (if s.workerError.isSome then .restoring else .idle))
  | .declined =>
    some (setHost (release s) h (if s.workerError.isSome then .restoring else .idle))
  | .restoring =>
    if s.lock ≠ none then none
    else some (setHost { s with
      publicationRequested := if s.shutdownRequested then s.publicationRequested else true } h
      .idle)

/-! ### Interleavings -/

inductive Event (H E : Type)
  | start (checks : Outcome E)
  | close
  | app (outcome : Outcome E)
  | worker (outcome : Outcome E)
  /-- The pump calls `request_shutdown`. -/
  | pumpShutdown
  | externalHandles (h : H)
  | requestRender (h : H) (force : Bool)
  | requestShutdown (h : H)
  | host (h : H) (outcome : Outcome E)
  deriving DecidableEq, Repr

def step (s : State H E) : Event H E → Option (State H E)
  | .start checks => if s.app.isIdle then some (callStart s checks) else none
  | .close => if s.app.isIdle then some (callClose s) else none
  | .app outcome => appStep s outcome
  | .worker outcome => workerStep s outcome
  | .pumpShutdown =>
    if s.worker.inPump ∧ (s.lock = none ∨ s.lock = some .worker) then
      some s.requestWorkerShutdown
    else none
  | .externalHandles h => enterOpen s h .handlesLocked
  | .requestRender h force => enterOpen s h (.renderLocked force)
  | .requestShutdown h =>
    if s.lock = none ∧ s.hosts h = .idle then some s.requestWorkerShutdown else none
  | .host h outcome => hostStep s h outcome

def run : State H E → List (Event H E) → Option (State H E)
  | s, [] => some s
  | s, e :: rest => (step s e).bind fun s' => run s' rest

end OvxrSession
