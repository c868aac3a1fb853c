/-
The frame pump of an OVXR session.

The render worker owns the pump: it renders frame after frame until one raises, and closes
the pump.  The native context, the host, the stage-ordinal ledger and the frame consumers are
an environment that answers every call as it likes.  Guards of the host do not swallow
exceptions.

* `Call`, `Reply` — what the pump asks of its environment;
* `render`, `close` — the pump;
* `session` — renders, then one close.
-/
import IsaacTeleop.ObservedCalls

open Observed

namespace FramePump

/-- The classes of exceptions that the pump tells apart. -/
inductive Failure
  | exception
  | ovxrError
  /-- A `BaseException` that is no `Exception`. -/
  | interrupt
  deriving DecidableEq, Repr

def Failure.isException : Failure → Bool
  | .exception | .ovxrError => true
  | .interrupt => false

/-- `ovxr.Result` -/
inductive Result
  | success
  | timeout
  | notReady
  | failed (code : ℤ)
  deriving DecidableEq, Repr

/-- The results that do not raise. -/
def Result.accepted : Result → Bool
  | .success | .timeout | .notReady => true
  | .failed _ => false

/-- Plans and ordinals are numbered in the order in which they are given out. -/
inductive Call (C : Type)
  | beginFrame (plan : ℕ)
  | enterPublicationGuard
  | exitPublicationGuard
  | validateFirstPublishedScene (ordinal : ℤ)
  | prepareFrameScene
  | reserve (ordinal : ℕ)
  | bindFrame (plan ordinal : ℕ)
  | resolveExternal (ordinal : ℕ) (expectedPublished : Option Bool)
  | nativeRendererHandle
  | completedOutputs (plan : ℕ)
  | onOutputs (consumer : C)
  | compositionLayers (consumer : C)
  | finishFrame (consumer : C)
  | submitFrame (plan : ℕ) (layers : List ℤ)
  | onFrameSubmitted (consumer : C)
  | cancelFrame (plan : ℕ)
  | closePublication
  | closeConsumer (consumer : C)
  | requestExit
  | enterOwnerLane
  | exitOwnerLane
  | destroy (ordinal : ℕ)
  | closeRuntime
  | closeOnRenderThread
  | closeEnvironmentOnRenderThread
  deriving DecidableEq, Repr

/-- What a call returns, as far as it returns anything. -/
structure Reply where
  result : Result
  /-- Whether the plan of `begin_frame` has step outputs, `bind_frame` sealed the ordinal or
  `submit_frame` submitted a frame. -/
  flag : Bool
  /-- The layers of a consumer. -/
  layers : List ℤ
  deriving DecidableEq, Repr

structure Config (C : Type) where
  frameConsumers : List C
  /-- `prepare_frame_scene` is not `None`. -/
  preparesFrameScene : Bool

structure Pump where
  /-- `_context` is not `None`. -/
  context : Bool
  pendingPlan : Option ℕ
  lastOrdinal : Option ℤ
  firstOrdinalValidated : Bool
  /-- `active_plan` of the current `render`. -/
  activePlan : Option ℕ
  /-- `context_retired` of `close`. -/
  contextRetired : Bool
  /-- How many plans and ordinals were given out. -/
  plans : ℕ
  ordinals : ℕ
  deriving DecidableEq, Repr

def Pump.init (context : Bool) : Pump where
  context := context
  pendingPlan := none
  lastOrdinal := none
  firstOrdinalValidated := false
  activePlan := none
  contextRetired := false
  plans := 0
  ordinals := 0

variable {C : Type}

abbrev Happening (C : Type) : Type := Event (Call C) Reply Failure

abbrev PumpM (C α : Type) : Type := Program Pump (Call C) Reply Failure α

section Programs

variable (env : List (Happening C) → Except Failure Reply) (config : Config C)

/-! ### Pieces of `render` and `close` -/

/-- A call whose return value is not used. -/
def perform (c : Call C) : PumpM C Unit := do
  let _ ← call env c
  pure ()

def guarded {α : Type} (enter exit : Call C) (body : PumpM C α) : PumpM C α := do
  perform env enter
  tryFinally body (perform env exit)

def doIf (condition : Bool) (x : PumpM C Unit) : PumpM C Unit :=
  if condition then x else pure ()

/-- `try x except Exception` with a logged exception. -/
def logExceptions {α : Type} (default : α) (x : PumpM C α) : PumpM C α := do
  match ← attempt x with
  | .ok a => pure a
  | .error e => if e.isException then pure default else Fallible.raise e

/-- `raise error` while a reconciliation may raise, which is only chained. -/
def raiseAfter {α : Type} (reconcile : PumpM C Unit) (error : Failure) : PumpM C α := do
  let _ ← attempt reconcile
  Fallible.raise error

/-- `ordinal_ledger.reserve()` -/
def reserve : PumpM C ℕ := do
  let pump ← get
  perform env (.reserve pump.ordinals)
  modify fun pump => { pump with ordinals := pump.ordinals + 1 }
  pure pump.ordinals

/-- `_finish_frame_outputs` -/
def finishFrameOutputs : PumpM C Unit :=
  forEach (fun consumer => perform env (.finishFrame consumer)) config.frameConsumers

/-- `_on_completed_outputs` -/
def onCompletedOutputs : List C → PumpM C (List ℤ)
  | [] => pure []
  | consumer :: rest => do
    let layers ← logExceptions [] (do
      perform env (.onOutputs consumer)
      let reply ← call env (.compositionLayers consumer)
      pure reply.layers)
    let more ← onCompletedOutputs rest
    pure (layers ++ more)

/-! ### `render` -/

/-- Reserve an ordinal and bind the plan to it. -/
def bindPlan (plan : ℕ) : PumpM C Result := do
  let frameOrdinal ← reserve env
  match ← attempt (call env (.bindFrame plan frameOrdinal)) with
  | .error bindError =>
    raiseAfter (perform env (.resolveExternal frameOrdinal none)) bindError
  | .ok bound => do
    perform env (.resolveExternal frameOrdinal (some bound.flag))
    if bound.result.accepted then pure bound.result else Fallible.raise .exception

def validateFirst (ordinal : ℤ) : PumpM C Unit := do
  let pump ← get
  if pump.firstOrdinalValidated then pure ()
  else do
    perform env (.validateFirstPublishedScene ordinal)
    modify fun pump => { pump with firstOrdinalValidated := true }

/-- What `render` does under the publication guard. -/
def bindScene (ordinal : ℤ) (plan : ℕ) : PumpM C Result := do
  validateFirst env ordinal
  doIf config.preparesFrameScene (perform env .prepareFrameScene)
  bindPlan env plan

/-- Show the outputs of the plan to the consumers; the layers are what they compose. -/
def observeOutputs (plan : ℕ) (stepResult : Bool) : PumpM C (List ℤ) :=
  if config.frameConsumers ≠ [] ∧ stepResult = true then
    tryFinally
      (logExceptions [] (do
        perform env .nativeRendererHandle
        perform env (.completedOutputs plan)
        onCompletedOutputs env config.frameConsumers))
      (finishFrameOutputs env config)
  else pure []

/-- The plan was consumed: forget it. -/
def forgetPlan : PumpM C Unit :=
  modify fun pump => { pump with activePlan := none, pendingPlan := none }

def submitPlan (plan : ℕ) (layers : List ℤ) : PumpM C Unit := do
  let submitted ← call env (.submitFrame plan layers)
  if submitted.result.accepted then do
    doIf (submitted.result = .success ∧ submitted.flag = true ∧ config.frameConsumers ≠ []) (do
      forgetPlan
      forEach (fun consumer => perform env (.onFrameSubmitted consumer)) config.frameConsumers)
    forgetPlan
  else Fallible.raise .exception

/-- The `try` block of `render`. -/
def renderPlan (ordinal : ℤ) (plan : ℕ) (stepResult : Bool) : PumpM C Bool := do
  let result ← guarded env .enterPublicationGuard .exitPublicationGuard
    (bindScene env config ordinal plan)
  if result = .success then do
    let layers ← observeOutputs env config plan stepResult
    submitPlan env config plan layers
    pure true
  else pure true

/-- The `finally` block of `render`. -/
def retirePlan : PumpM C Unit := do
  let pump ← get
  match pump.activePlan with
  | none => pure ()
  | some plan => do
    finishFrameOutputs env config
    perform env (.cancelFrame plan)
    modify fun pump => { pump with pendingPlan := none }

/-- What the `finally` block raises is only noted on what the `try` block raised. -/
def noted {α : Type} (body : PumpM C α) (cleanup : PumpM C Unit) : PumpM C α := do
  let outcome ← attempt body
  let cleaned ← attempt cleanup
  match outcome, cleaned with
  | .error e, _ => Fallible.raise e
  | .ok _, .error e => Fallible.raise e
  | .ok a, .ok _ => pure a

def render (ordinal : ℤ) : PumpM C Bool := do
  let pump ← get
  -- the attribute error of a missing context
  if pump.context = false then Fallible.raise .exception
  else do
    let plan := pump.plans
    let begun ← call env (.beginFrame plan)
    modify fun pump => { pump with
      lastOrdinal := some ordinal
      plans := if begun.result = .success then pump.plans + 1 else pump.plans
      activePlan := if begun.result = .success then some plan else none
      pendingPlan := if begun.result = .success then some plan else pump.pendingPlan }
    if begun.result = .success then
      noted (renderPlan env config ordinal plan begun.flag) (retirePlan env config)
    else if begun.result.accepted then pure false
    else Fallible.raise .exception

def renderReused : PumpM C Bool := do
  let pump ← get
  match pump.lastOrdinal with
  | none => pure false
  | some ordinal => render env config ordinal

/-! ### `close` -/

/-- The first error is kept. -/
def keepFirst {α : Type} (firstError : Option Failure) : Except Failure α → Option Failure
  | .ok _ => firstError
  | .error e => some (firstError.getD e)

/-- Close the consumers, and cancel the plan that is still pending. -/
def retireConsumers (firstError : Option Failure) : PumpM C (Option Failure) := do
  forEach (fun consumer => perform env (.closeConsumer consumer)) config.frameConsumers.reverse
  let pump ← get
  match pump.pendingPlan with
  | none => pure firstError
  | some plan => do
    finishFrameOutputs env config
    match ← attempt (perform env (.cancelFrame plan)) with
    | .error e => pure (some (firstError.getD e))
    | .ok _ => do
      modify fun pump => { pump with pendingPlan := none }
      pure firstError

/-- The call of `destroy`: an `OvxrError` tells that the context was consumed. -/
def destroyContext (ordinal : ℕ) : PumpM C Unit := do
  match ← attempt (perform env (.destroy ordinal)) with
  | .error e =>
    if e = .ovxrError then do
      modify fun pump => { pump with contextRetired := true }
      Fallible.raise e
    else Fallible.raise e
  | .ok _ => modify fun pump => { pump with contextRetired := true }

def destroyUnderOrdinal : PumpM C Unit := do
  let ordinal ← reserve env
  match ← attempt (guarded env .enterOwnerLane .exitOwnerLane (destroyContext env ordinal)) with
  | .error destroyError => raiseAfter (perform env (.resolveExternal ordinal none)) destroyError
  | .ok _ => perform env (.resolveExternal ordinal none)

def retireContext (firstError : Option Failure) : PumpM C (Option Failure) := do
  let exited ← attempt (perform env .requestExit)
  let destroyed ← attempt (guarded env .enterPublicationGuard .exitPublicationGuard
    (destroyUnderOrdinal env))
  modify fun pump =>
    if pump.contextRetired then { pump with context := false, pendingPlan := none } else pump
  pure (keepFirst (keepFirst firstError exited) destroyed)

/-- The cleanups that do not depend on each other. -/
def closeDependents (firstError : Option Failure) : PumpM C Unit := do
  let runtime ← attempt (perform env .closeRuntime)
  let host ← attempt (perform env .closeOnRenderThread)
  let environment ← attempt (perform env .closeEnvironmentOnRenderThread)
  match keepFirst (keepFirst (keepFirst firstError runtime) host) environment with
  | some e => Fallible.raise e
  | none => pure ()

def close : PumpM C Unit := do
  let published ← attempt (guarded env .enterPublicationGuard .exitPublicationGuard
    (perform env .closePublication))
  let firstError := keepFirst none published
  match ← attempt (retireConsumers env config firstError) with
  | .error retirementError => Fallible.raise (firstError.getD retirementError)
  | .ok firstError => do
    let pump ← get
    if pump.context = false then closeDependents env firstError
    else do
      modify fun pump => { pump with contextRetired := false }
      let firstError ← retireContext env firstError
      let pump ← get
      -- an error is kept whenever the context was not retired
      if pump.contextRetired then closeDependents env firstError
      else Fallible.raise (firstError.getD .exception)

/-! ### The worker -/

inductive RenderCall
  | render (ordinal : ℤ)
  | renderReused
  deriving DecidableEq, Repr

def renderAll : List RenderCall → PumpM C Unit
  | [] => pure ()
  | .render ordinal :: rest => do
    let _ ← render env config ordinal
    renderAll rest
  | .renderReused :: rest => do
    let _ ← renderReused env config
    renderAll rest

/-- The worker renders until a frame raises, and closes the pump. -/
def session (calls : List RenderCall) : PumpM C Unit := do
  let _ ← attempt (renderAll env config calls)
  close env config

end Programs

/-- What is left after a session of a pump with or without a context. -/
def afterSession (env : List (Happening C) → Except Failure Reply) (config : Config C)
    (context : Bool) (calls : List RenderCall) : World Pump (Happening C) :=
  (session env config calls ⟨Pump.init context, []⟩).2

end FramePump
