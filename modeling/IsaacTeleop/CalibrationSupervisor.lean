/-
The supervisor of the calibration worker: attempts one after the other.

A `CalibrationWorker` creates attempts; the coroutines of an attempt, the reader of the
worker's lines, the watchdog, the user, the process and the file system take turns in any
order.  A turn that is not possible where its coroutine stands changes nothing, so that every
list of turns is a run.

* `Turns` — everything that one turn can do to an attempt;
* `Attempt.Sound`, `Supervisor.Sound` — what every reachable state satisfies;
* `supervision_sound` — one outcome, success only on complete evidence, one attempt at a
  time, and none after gloves that may still be held.
-/
import IsaacTeleop.CalibrationAttempt

open ByteText PyStr

namespace ManusCalibration

open Calibration (Side)

namespace Attempt

variable {φ : Type}

/-! ### The coroutine of `start` -/

/-- `start`, up to `_launch`; `folder` is the resolved output folder, or why it is unusable. -/
def start (settings : Settings φ) (a : Attempt φ) (sides : List Side)
    (folder : Except PyStr PyStr) : Turn φ :=
  if a.state ≠ .new then a.only
  else
    match Calibration.encodeStart a.attemptId sides (ofString "/") with
    | .error _ => a.only
    | .ok _ =>
      let a := { a with sides := Calibration.orderedSides sides, state := .starting }
      match folder with
      | .error reason =>
        { a with startAt := .ended }.finish
          (a.bareOutcome .failed
            (ofString "cannot use " ++ settings.outDir ++ ofString ": " ++ reason))
      | .ok outDir => only { a with startAt := .launching outDir }

/-- `_finish_failed`, for a worker that could not be launched. -/
def spawnFailed (settings : Settings φ) (a : Attempt φ) (reason : PyStr) : Turn φ :=
  let message := ofString "cannot launch " ++ settings.executable ++ ofString ": " ++ reason
  { a with startAt := .ended }.finish
    (a.outcomeOf .failed message none false (some (workerError "spawn_failed" message)) [])

/-- `create_subprocess_exec` returned, or raised an `OSError`. -/
def launched (settings : Settings φ) (a : Attempt φ) (spawned : Except PyStr ℕ) : Turn φ :=
  match a.startAt with
  | .launching outDir =>
    match spawned with
    | .error reason => a.spawnFailed settings reason
    | .ok pid =>
      only { a with proc := some { pid := pid, returncode := none }
                    startAt := .connecting outDir }
  | _ => a.only

/-- `open_unix_connection` returned, or raised an `OSError`; the tasks of the attempt start. -/
def connected (settings : Settings φ) (a : Attempt φ) (error : Option PyStr) : Turn φ :=
  match a.startAt with
  | .connecting outDir =>
    match error with
    | some reason => a.spawnFailed settings reason
    | none =>
      only { a with writer := true, readerAt := .reading, superviseAt := .waiting
                    startAt := .waitingReady outDir }
  | _ => a.only

/-- The end of `start`. -/
def sentStart [PyFloat φ] (settings : Settings φ) (a : Attempt φ) (now : φ) : Attempt φ :=
  { a with startSent := true, state := .running, startAt := .ended }.expect now
    (ofString "SDK initialisation, connection and discovery") settings.startupTimeoutS

/-- `start`, after `_wait_ready`; `drain` suspends where the transport closes under it. -/
def readyWaited [PyFloat φ] (settings : Settings φ) (texts : PyTexts φ) (a : Attempt φ)
    (timedOut closing suspends : Bool) (now : φ) : Attempt φ :=
  match a.startAt with
  | .waitingReady outDir =>
    if !timedOut && !a.ready && !a.cancelRequested && a.outcome.isNone then a
    else
      let a := if timedOut then
        a.abort (ofString "worker did not report ready within " ++
          texts.formatG settings.readyTimeoutS ++ ofString "s") else a
      if a.state = .done ∨ a.abortReason.isSome ∨ a.cancelRequested then
        { a with startAt := .ended }
      else
        match Calibration.encodeStart a.attemptId a.sides outDir with
        | .error _ => { a with startAt := .ended }
        | .ok line =>
          let a := a.send closing line
          if suspends then { a with startAt := .draining } else a.sentStart settings now
  | _ => a

/-- `drain` returned. -/
def drained [PyFloat φ] (settings : Settings φ) (a : Attempt φ) (now : φ) : Attempt φ :=
  if a.startAt = .draining then a.sentStart settings now else a

/-- Another exception, such as the cancellation of the caller, ends `start`. -/
def startInterrupted (a : Attempt φ) : Attempt φ :=
  if a.startAt = .notCalled then a else { a with startAt := .ended }

/-! ### The other tasks -/

/-- `_drain` keeps a line of the worker's output. -/
def logged (settings : Settings φ) (a : Attempt φ) (line : PyStr) : Attempt φ :=
  let tail := a.tail ++ [line]
  { a with tail := tail.drop (tail.length - settings.logTailLines) }

/-- One turn of `_watchdog`, which lives as long as the supervision waits. -/
def watchdog [PyFloat φ] (texts : PyTexts φ) (a : Attempt φ) (now : φ) : Attempt φ :=
  match a.deadlineAt with
  | some deadline =>
    if (a.superviseAt = .waiting ∨ a.superviseAt = .grace) ∧
        (PyFloat.lt deadline now || PyFloat.eq deadline now) then
      a.abort (ofString "the worker did not respond within " ++ texts.formatG a.deadlineSpan ++
        ofString " s while waiting for " ++ a.deadlineWhat ++
        ofString "; it may be blocked inside the SDK")
    else a
  | none => a

/-- The process is reaped. -/
def exited (a : Attempt φ) (code : ℤ) : Attempt φ :=
  { a with proc := a.proc.map fun p => { p with returncode := p.returncode.or (some code) } }

/-! ### The task of `_supervise` -/

def returncode (a : Attempt φ) : Option ℤ := a.proc.bind Process.returncode

/-- The first `wait` of `_supervise_worker` returned. -/
def wake (a : Attempt φ) : Attempt φ :=
  if a.superviseAt = .waiting ∧ (a.readerAt = .ended ∨ a.cancelRequested ∨ a.resultSeen) then
    if a.readerAt = .ended then { a with state := .finishing, superviseAt := .exiting }
    else { a with superviseAt := .grace }
  else a

/-- The reader ended, or its grace period did. -/
def graceOver (a : Attempt φ) : Attempt φ :=
  if a.superviseAt = .grace then { a with state := .finishing, superviseAt := .exiting } else a

/-- What follows `_stop_process`: the reader is cancelled. -/
def stopped (a : Attempt φ) (forced : Bool) : Attempt φ :=
  { a with unreaped := a.proc.isSome && a.returncode.isNone
           readerAt := .ended, superviseAt := .settling forced }

/-- The process exited by itself, or the exit grace period ended. -/
def exitOver (a : Attempt φ) : Attempt φ :=
  if a.superviseAt = .exiting then
    if a.returncode.isSome then a.stopped false else { a with superviseAt := .terminating }
  else a

/-- The process ended after SIGTERM, or did not in time. -/
def termOver (a : Attempt φ) (timedOut : Bool) : Attempt φ :=
  if a.superviseAt = .terminating then
    if timedOut then { a with superviseAt := .killing }
    else if a.returncode.isSome then a.stopped true
    else a
  else a

/-- The process ended after SIGKILL, or did not in time. -/
def killOver (a : Attempt φ) : Attempt φ :=
  if a.superviseAt = .killing then a.stopped true else a

/-- The last turn of the supervision: the other tasks settled, or did not in time. -/
def settle (a : Attempt φ) (forced : Bool) : Turn φ :=
  { a with superviseAt := .ended }.finalize forced

/-- `_settle_tasks` returned. -/
def settled (a : Attempt φ) : Turn φ :=
  match a.superviseAt with
  | .settling forced => a.settle forced
  | _ => a.only

/-- The supervision is under way. -/
def supervised (a : Attempt φ) : Bool :=
  a.superviseAt ≠ .notStarted && a.superviseAt ≠ .ended && a.superviseAt ≠ .cancelled

/-- `_supervise`, when its task is cancelled. -/
def superviseCancelled (a : Attempt φ) : Turn φ :=
  if a.supervised then
    { a with superviseAt := .cancelled }.finish
      (a.outcomeOf .uncertain (ofString "supervision was cancelled") none true none [])
  else a.only

/-- The file is one of the attempt's: `_remove_exports` matches it. -/
def owns (a : Attempt φ) (file : PyStr) : Bool :=
  (a.attemptId ++ ofString "_").isPrefixOf file

/-- Whose turn it is. -/
inductive Action (φ : Type)
  | start (sides : List Side) (folder : Except PyStr PyStr)
  | launched (spawned : Except PyStr ℕ)
  | connected (error : Option PyStr)
  | readyWaited (timedOut closing suspends : Bool) (now : φ)
  | drained (now : φ)
  | startInterrupted
  | confirm (token : PyStr) (now : φ) (closing : Bool)
  | cancel (closing : Bool)
  | read (line : ReadLine) (now : φ)
  /-- an exception that the reader does not handle, such as a `RecursionError` -/
  | readerRaised
  | logged (line : PyStr)
  | watchdog (now : φ)
  | exited (code : ℤ)
  | wake
  | graceOver
  | exitOver
  | termOver (timedOut : Bool)
  | killOver
  | settled
  | superviseCancelled

/-- One turn. -/
def turn [PyFloat φ] (settings : Settings φ) (texts : PyTexts φ) (a : Attempt φ) :
    Action φ → Turn φ
  | .start sides folder => a.start settings sides folder
  | .launched spawned => a.launched settings spawned
  | .connected error => a.connected settings error
  | .readyWaited timedOut closing suspends now =>
    (a.readyWaited settings texts timedOut closing suspends now).only
  | .drained now => (a.drained settings now).only
  | .startInterrupted => a.startInterrupted.only
  | .confirm token now closing => (a.confirm settings token now closing).only
  | .cancel closing => a.cancel closing
  | .read line now =>
    if a.readerAt = .reading then (readEvent settings texts now a line).only else a.only
  | .readerRaised => if a.readerAt = .reading then only { a with readerAt := .ended } else a.only
  | .logged line => (a.logged settings line).only
  | .watchdog now => (a.watchdog texts now).only
  | .exited code => (a.exited code).only
  | .wake => a.wake.only
  | .graceOver => a.graceOver.only
  | .exitOver => a.exitOver.only
  | .termOver timedOut => (a.termOver timedOut).only
  | .killOver => a.killOver.only
  | .settled => a.settled
  | .superviseCancelled => a.superviseCancelled

end Attempt

/-! ### The worker settings and the attempts -/

/-- `CalibrationWorker`, with the attempts it created and the files in its folder. -/
structure Supervisor (φ : Type) where
  unreleased : Option PyStr
  active : Option ℕ
  attempts : List (Attempt φ)
  folder : List PyStr

inductive Step (φ : Type)
  | newAttempt (attemptId : PyStr)
  /-- a turn of one attempt; `unlinkFails` are the files that the system does not delete -/
  | turn (attempt : ℕ) (action : Attempt.Action φ) (unlinkFails : PyStr → Bool)
  /-- the worker process of an attempt, not yet reaped, writes a file -/
  | wrote (attempt : ℕ) (file : PyStr)

namespace Supervisor

variable {φ : Type} [PyFloat φ]

def init : Supervisor φ := { unreleased := none, active := none, attempts := [], folder := [] }

/-- `new_attempt`; a refused call changes nothing. -/
def newAttempt (s : Supervisor φ) (attemptId : PyStr) : Supervisor φ :=
  if s.unreleased.isSome then s
  else if ∃ a, s.active.bind (s.attempts[·]?) = some a ∧ a.state ≠ .done then s
  else
    { s with attempts := s.attempts ++ [Attempt.init attemptId], active := some s.attempts.length }

/-- Replace an attempt by what its turn made of it. -/
def apply (s : Supervisor φ) (i : ℕ) (t : Attempt.Turn φ) (unlinkFails : PyStr → Bool) :
    Supervisor φ where
  unreleased := t.latch.or s.unreleased
  active := s.active
  attempts := s.attempts.set i t.attempt
  folder :=
    if t.removes then s.folder.filter fun file => !t.attempt.owns file || unlinkFails file
    else s.folder

variable (settings : Settings φ) (texts : PyTexts φ)

def step (s : Supervisor φ) : Step φ → Supervisor φ
  | .newAttempt attemptId => s.newAttempt attemptId
  | .turn i action unlinkFails =>
    match s.attempts[i]? with
    | some a => s.apply i (a.turn settings texts action) unlinkFails
    | none => s
  | .wrote i file =>
    match s.attempts[i]? with
    | some a =>
      if a.proc.isSome ∧ a.returncode = none then { s with folder := file :: s.folder } else s
    | none => s

/-- A whole run. -/
def run (steps : List (Step φ)) : Supervisor φ := steps.foldl (step settings texts) init

end Supervisor

/-! ### What a turn can do -/

/-- How far the supervision has come. -/
def SupervisePlace.rank : SupervisePlace → ℕ
  | .notStarted => 0
  | .waiting => 1
  | .grace => 2
  | .exiting => 3
  | .terminating => 4
  | .killing => 5
  | .settling _ => 6
  | .ended => 7
  | .cancelled => 7

/-- `start` has not yet created the tasks. -/
def StartPlace.early : StartPlace → Bool
  | .launching _ => true
  | .connecting _ => true
  | _ => false

namespace Attempt

variable {φ : Type}

/-- What the reader leaves alone. -/
structure Keeps (a a' : Attempt φ) : Prop where
  outcome : a'.outcome = a.outcome
  superviseAt : a'.superviseAt = a.superviseAt
  unreaped : a'.unreaped = a.unreaped
  sides : a'.sides = a.sides
  returncode : ∀ c, a.returncode = some c → a'.returncode = some c
  done : a'.state = .done → a.state = .done
  new : a'.state = .new → a.state = .new ∧ (a.startAt = .notCalled → a'.startAt = .notCalled)
  early : a'.startAt.early = true → a.startAt.early = true
  cancelRequested : a.cancelRequested = true → a'.cancelRequested = true
  resultSeen : a.resultSeen = true → a'.resultSeen = true
  readerOver : a.readerAt = .ended → a'.readerAt = .ended

/-- A change that the outcome does not rest on. -/
structure Quiet (a a' : Attempt φ) : Prop extends Keeps a a' where
  readerAt : a'.readerAt = a.readerAt
  result : a'.result = a.result
  violation : a'.violation = a.violation
  exports : a'.exports = a.exports
  startRejection : a'.startRejection = a.startRejection

theorem Keeps.refl (a : Attempt φ) : Keeps a a :=
  ⟨rfl, rfl, rfl, rfl, fun _ h => h, fun h => h, fun h => ⟨h, fun h => h⟩, fun h => h, fun h => h,
    fun h => h, fun h => h⟩

theorem Keeps.trans {a b c : Attempt φ} (h : Keeps a b) (h' : Keeps b c) : Keeps a c where
  outcome := h'.outcome.trans h.outcome
  superviseAt := h'.superviseAt.trans h.superviseAt
  unreaped := h'.unreaped.trans h.unreaped
  sides := h'.sides.trans h.sides
  returncode := fun code hcode => h'.returncode code (h.returncode code hcode)
  done := fun hdone => h.done (h'.done hdone)
  new := fun hnew => ⟨(h.new (h'.new hnew).1).1,
    fun hcalled => (h'.new hnew).2 ((h.new (h'.new hnew).1).2 hcalled)⟩
  early := fun he => h.early (h'.early he)
  cancelRequested := fun hc => h'.cancelRequested (h.cancelRequested hc)
  resultSeen := fun hr => h'.resultSeen (h.resultSeen hr)
  readerOver := fun hr => h'.readerOver (h.readerOver hr)

theorem Quiet.refl (a : Attempt φ) : Quiet a a := ⟨Keeps.refl a, rfl, rfl, rfl, rfl, rfl⟩

theorem Quiet.trans {a b c : Attempt φ} (h : Quiet a b) (h' : Quiet b c) : Quiet a c where
  toKeeps := h.toKeeps.trans h'.toKeeps
  readerAt := h'.readerAt.trans h.readerAt
  result := h'.result.trans h.result
  violation := h'.violation.trans h.violation
  exports := h'.exports.trans h.exports
  startRejection := h'.startRejection.trans h.startRejection

/-- **Everything that one turn can do to an attempt.** -/
inductive Turns (a : Attempt φ) : Turn φ → Prop
  | quiet {a' : Attempt φ} (h : Quiet a a') : Turns a a'.only
  | reads {a' : Attempt φ} (hreading : a.readerAt = .reading) (h : Keeps a a') : Turns a a'.only
  | starts (sides : List Side) (place : StartPlace) (hnew : a.state = .new) :
      Turns a (only { a with sides := Calibration.orderedSides sides, state := .starting
                             startAt := place })
  | launches (outDir : PyStr) (pid : ℕ) (hstart : a.startAt = .launching outDir) :
      Turns a (only { a with proc := some { pid := pid, returncode := none }
                             startAt := .connecting outDir })
  | connects (outDir : PyStr) (hstart : a.startAt = .connecting outDir) :
      Turns a (only { a with writer := true, readerAt := .reading, superviseAt := .waiting
                             startAt := .waitingReady outDir })
  | advances (state : AttemptState) (place : SupervisePlace) (hfrom : 1 ≤ a.superviseAt.rank)
      (hrank : a.superviseAt.rank < place.rank) (hto : place.rank ≤ 5)
      (hstate : state = a.state ∨ state = .finishing) :
      Turns a (only { a with state := state, superviseAt := place })
  | stops (forced : Bool) (hfrom : 1 ≤ a.superviseAt.rank) (hto : a.superviseAt.rank ≤ 5) :
      Turns a (a.stopped forced).only
  | settles (forced : Bool) (h : a.superviseAt = .settling forced) : Turns a (a.settle forced)
  | cancels (outcome : CalibrationOutcome) (hkind : outcome.kind ≠ .completed)
      (h : a.supervised = true) :
      Turns a ({ a with superviseAt := .cancelled }.finish outcome)
  | finishes {a₁ : Attempt φ} (h : Turns a a₁.only) (outcome : CalibrationOutcome)
      (hkind : outcome.kind ≠ .completed) : Turns a (a₁.finish outcome)

theorem Turns.refl (a : Attempt φ) : Turns a a.only := .quiet (Quiet.refl a)

/-! ### One lemma for each turn -/

theorem send_quiet (a : Attempt φ) (closing : Bool) (line : ByteText) :
    Quiet a (a.send closing line) := by
  rw [send]
  split
  · exact Quiet.refl a
  · exact { Quiet.refl a with }

theorem abort_quiet (a : Attempt φ) (reason : PyStr) : Quiet a (a.abort reason) :=
  { Quiet.refl a with cancelRequested := fun _ => rfl }

theorem expect_quiet [PyFloat φ] (a : Attempt φ) (now : φ) (what : PyStr) (span : φ) :
    Quiet a (a.expect now what span) :=
  { Quiet.refl a with }

theorem touch_quiet [PyFloat φ] (a : Attempt φ) (now : φ) : Quiet a (a.touch now) :=
  { Quiet.refl a with }

/-- The end of `start` keeps the frame of an attempt whose `start` was called. -/
theorem startOver_quiet (a : Attempt φ) (h : a.startAt ≠ .notCalled) :
    Quiet a { a with startAt := .ended } :=
  { Quiet.refl a with
    new := fun hnew => ⟨hnew, fun hcalled => absurd hcalled h⟩
    early := fun hearly => by cases hearly }

theorem sentStart_quiet [PyFloat φ] (settings : Settings φ) (a : Attempt φ) (now : φ) :
    Quiet a (a.sentStart settings now) :=
  { Quiet.refl a with
    done := fun hdone => by cases hdone
    new := fun hnew => by cases hnew
    early := fun hearly => by cases hearly }

theorem readyWaited_quiet [PyFloat φ] (settings : Settings φ) (texts : PyTexts φ)
    (a : Attempt φ) (timedOut closing suspends : Bool) (now : φ) :
    Quiet a (a.readyWaited settings texts timedOut closing suspends now) := by
  rw [readyWaited]
  split
  · rename_i outDir hplace
    split
    · exact Quiet.refl a
    · -- the turn goes on from the attempt after the check of the timeout
      have haborted : ∀ b : Attempt φ, Quiet a b → b.startAt ≠ .notCalled →
          Quiet a { b with startAt := .ended } :=
        fun b hb hcalled => hb.trans (startOver_quiet b hcalled)
      have hcheck : Quiet a (if timedOut then
          a.abort (ofString "worker did not report ready within " ++
            texts.formatG settings.readyTimeoutS ++ ofString "s") else a) := by
        split
        · exact abort_quiet a _
        · exact Quiet.refl a
      have hcalled : (if timedOut then
          a.abort (ofString "worker did not report ready within " ++
            texts.formatG settings.readyTimeoutS ++ ofString "s") else a).startAt
            ≠ .notCalled := by
        split <;> simp [abort, hplace]
      generalize (if timedOut then
          a.abort (ofString "worker did not report ready within " ++
            texts.formatG settings.readyTimeoutS ++ ofString "s") else a) = b at hcheck hcalled
      dsimp only
      split
      · exact haborted b hcheck hcalled
      · split
        · exact haborted b hcheck hcalled
        · rename_i line _
          have hsent := hcheck.trans (send_quiet b closing line)
          split
          · refine hsent.trans { Quiet.refl _ with new := ?_, early := ?_ }
            · intro hnew
              refine ⟨hnew, fun h => absurd h ?_⟩
              rw [send]
              split
              · exact hcalled
              · exact hcalled
            · intro hearly
              cases hearly
          · exact hsent.trans (sentStart_quiet settings _ now)
  · exact Quiet.refl a

theorem drained_quiet [PyFloat φ] (settings : Settings φ) (a : Attempt φ) (now : φ) :
    Quiet a (a.drained settings now) := by
  rw [drained]
  split
  · exact sentStart_quiet settings a now
  · exact Quiet.refl a

theorem startInterrupted_quiet (a : Attempt φ) : Quiet a a.startInterrupted := by
  rw [startInterrupted]
  split
  · exact Quiet.refl a
  · exact startOver_quiet a ‹_›

theorem confirm_quiet [PyFloat φ] (settings : Settings φ) (a : Attempt φ) (token : PyStr)
    (now : φ) (closing : Bool) : Quiet a (a.confirm settings token now closing) := by
  rw [confirm]
  split
  · exact Quiet.refl a
  · split
    · exact Quiet.refl a
    · split
      · exact Quiet.refl a
      · have hpending : Quiet a { a with pendingConfirm := some token } := { Quiet.refl a with }
        exact (hpending.trans (expect_quiet _ now _ _)).trans (send_quiet _ closing _)

theorem watchdog_quiet [PyFloat φ] (texts : PyTexts φ) (a : Attempt φ) (now : φ) :
    Quiet a (a.watchdog texts now) := by
  rw [watchdog]
  split
  · split
    · exact abort_quiet a _
    · exact Quiet.refl a
  · exact Quiet.refl a

theorem exited_quiet (a : Attempt φ) (code : ℤ) : Quiet a (a.exited code) where
  toKeeps :=
    { Keeps.refl a with
      returncode := by
        intro c hc
        rw [returncode, Option.bind_eq_some_iff] at hc
        obtain ⟨p, hp, hcode⟩ := hc
        simp [exited, returncode, hp, hcode] }
  readerAt := rfl
  result := rfl
  violation := rfl
  exports := rfl
  startRejection := rfl

/-! ### The reader -/

open Fallible (wp wp_bind wp_mono wp_modify wp_raise wp_pure wp_state)

/-- What `_handle` and its parts leave alone, whether or not they raise. -/
def Framed {α : Type} (a : Attempt φ) (x : Handling φ α) : Prop :=
  ∀ b, Keeps a b → wp x (fun _ => Keeps a) (fun _ => Keeps a) b

theorem Framed.bind {α β : Type} {a : Attempt φ} {x : Handling φ α} {f : α → Handling φ β}
    (hx : Framed a x) (hf : ∀ v, Framed a (f v)) : Framed a (x >>= f) :=
  fun b hb => wp_bind (wp_mono (hx b hb) (fun v b' hb' => hf v b' hb') fun _ _ h => h)

theorem Framed.raise {α : Type} {a : Attempt φ} (message : PyStr) :
    Framed a (Fallible.raise message : Handling φ α) :=
  fun _ hb => wp_raise hb

theorem Framed.pure {a : Attempt φ} : Framed a (Pure.pure () : Handling φ Unit) :=
  fun _ hb => wp_pure hb

theorem Framed.modify {a : Attempt φ} {f : Attempt φ → Attempt φ} (h : ∀ b, Keeps b (f b)) :
    Framed a (Fallible.modify f : Handling φ Unit) :=
  fun b hb => wp_modify (hb.trans (h b))

theorem Framed.read {a : Attempt φ} : Framed a (Fallible.read : Handling φ (Attempt φ)) :=
  fun _ hb => hb

theorem framed_onPrompt (a : Attempt φ) (prompt : Prompt φ) : Framed a (onPrompt prompt) := by
  refine Framed.read.bind fun b => ?_
  split
  · exact Framed.raise _
  · split
    · exact Framed.raise _
    · split
      · exact Framed.raise _
      · exact Framed.modify fun c => { Keeps.refl c with }

theorem framed_onAccepted [PyFloat φ] (settings : Settings φ) (now : φ) (a : Attempt φ)
    (accepted : StepAccepted) : Framed a (onAccepted settings now accepted) := by
  refine Framed.read.bind fun b => ?_
  split
  · exact Framed.raise _
  · exact Framed.modify fun c => { Keeps.refl c with }

theorem framed_onProgress [PyFloat φ] (settings : Settings φ) (a : Attempt φ)
    (progress : StepProgress φ) : Framed a (onProgress settings progress) := by
  refine Framed.read.bind fun b => ?_
  split
  · exact Framed.raise _
  · split
    · exact Framed.raise _
    · split
      · exact Framed.raise _
      · exact Framed.pure

theorem framed_onRejected (a : Attempt φ) (rejected : Rejected) :
    Framed a (onRejected rejected : Handling φ Unit) := by
  refine Framed.modify fun c => ?_
  split
  · exact { Keeps.refl c with cancelRequested := fun _ => rfl }
  · split
    · exact Keeps.refl c
    · split
      · exact { Keeps.refl c with }
      · exact Keeps.refl c

theorem framed_onExported (a : Attempt φ) (exported : Exported) :
    Framed a (onExported exported : Handling φ Unit) := by
  refine Framed.read.bind fun b => ?_
  split
  · exact Framed.raise _
  · exact Framed.modify fun c => { Keeps.refl c with }

theorem framed_checkOrder (a : Attempt φ) (event : WorkerEvent φ) :
    Framed a (checkOrder event) := by
  refine Framed.read.bind fun b => ?_
  split
  · split
    · exact Framed.modify fun c => { Keeps.refl c with }
    · exact Framed.raise _
  · split
    · exact Framed.raise _
    · split
      · exact Framed.raise _
      · exact Framed.pure

theorem framed_recordEvent [PyFloat φ] (settings : Settings φ) (now : φ) (a : Attempt φ)
    (event : WorkerEvent φ) : Framed a (recordEvent settings now event) := by
  cases event with
  | ready e => exact Framed.pure
  | status e => exact Framed.pure
  | prompt e => exact framed_onPrompt a e
  | stepAccepted e => exact framed_onAccepted settings now a e
  | stepProgress e => exact framed_onProgress settings a e
  | rejected e => exact framed_onRejected a e
  | exported e => exact framed_onExported a e
  | result e => exact Framed.modify fun c => { Keeps.refl c with resultSeen := fun _ => rfl }

/-- **The reader touches nothing but the evidence it collects.** -/
theorem framed_handle [PyFloat φ] (settings : Settings φ) (now : φ) (a : Attempt φ)
    (event : WorkerEvent φ) : Framed a (handle settings now event) := by
  have hrest : Framed a (do
      Fallible.modify fun a => a.touch now
      recordEvent settings now event
      Fallible.modify fun a => { a with notified := a.notified ++ [event] }) := by
    refine (Framed.modify fun c => (touch_quiet c now).toKeeps).bind fun _ => ?_
    refine (framed_recordEvent settings now a event).bind fun _ => ?_
    exact Framed.modify fun c => { Keeps.refl c with }
  refine (framed_checkOrder a event).bind fun _ => Framed.read.bind fun b => ?_
  dsimp only
  split
  · split
    · exact (Framed.raise _).bind fun _ => hrest
    · exact Framed.pure.bind fun _ => hrest
  · exact Framed.pure.bind fun _ => hrest

theorem stopReading_keeps (a : Attempt φ) (violation : PyStr) :
    Keeps a (a.stopReading violation) :=
  { Keeps.refl a with cancelRequested := fun _ => rfl, readerOver := fun _ => rfl }

theorem readEvent_keeps [PyFloat φ] (settings : Settings φ) (texts : PyTexts φ) (now : φ)
    (a : Attempt φ) (line : ReadLine) : Keeps a (readEvent settings texts now a line) := by
  have hover : Keeps a { a with readerAt := .ended } :=
    { Keeps.refl a with readerOver := fun _ => rfl }
  cases line with
  | tooLong => exact stopReading_keeps a _
  | connectionError => exact hover
  | line bytes =>
    rw [readEvent]
    split
    · exact hover
    split
    · exact stopReading_keeps a _
    split
    · exact stopReading_keeps a _
    split
    · exact stopReading_keeps a _
    · exact hover
    · rename_i event _
      have hhandle := wp_state (framed_handle settings now a event a (Keeps.refl a))
      split
      · rename_i b hb
        rw [hb] at hhandle
        exact hhandle
      · -- The handler refused the event: its effects stay, and the reading stops.
        rename_i message b hb
        rw [hb] at hhandle
        exact Keeps.trans hhandle (stopReading_keeps b message)

/-! ### The turns -/

theorem turns_spawnFailed (settings : Settings φ) (a : Attempt φ) (reason : PyStr)
    (h : a.startAt ≠ .notCalled) : Turns a (a.spawnFailed settings reason) :=
  .finishes (.quiet (startOver_quiet a h)) _ (fun hkind => by cases hkind)

theorem turns_start (settings : Settings φ) (a : Attempt φ) (sides : List Side)
    (folder : Except PyStr PyStr) : Turns a (a.start settings sides folder) := by
  rw [start]
  split
  · exact .refl a
  · rename_i hnew
    split
    · exact .refl a
    · cases folder with
      | error reason =>
        exact .finishes (.starts sides .ended (not_not.mp hnew)) _ (fun hkind => by cases hkind)
      | ok outDir => exact .starts sides (.launching outDir) (not_not.mp hnew)

theorem turns_launched (settings : Settings φ) (a : Attempt φ) (spawned : Except PyStr ℕ) :
    Turns a (a.launched settings spawned) := by
  rw [launched]
  split
  · rename_i outDir hplace
    have hcalled : a.startAt ≠ .notCalled := by simp [hplace]
    cases spawned with
    | error reason => exact turns_spawnFailed settings a reason hcalled
    | ok pid => exact .launches outDir pid hplace
  · exact .refl a

theorem turns_connected (settings : Settings φ) (a : Attempt φ) (error : Option PyStr) :
    Turns a (a.connected settings error) := by
  rw [connected]
  split
  · rename_i outDir hplace
    have hcalled : a.startAt ≠ .notCalled := by simp [hplace]
    cases error with
    | some reason => exact turns_spawnFailed settings a reason hcalled
    | none => exact .connects outDir hplace
  · exact .refl a

theorem turns_cancel (a : Attempt φ) (closing : Bool) : Turns a (a.cancel closing) := by
  rw [cancel]
  split
  · exact .refl a
  · split
    · exact .finishes (.refl a) _ (fun hkind => by cases hkind)
    · have hasked : Quiet a
          { a with userCancel := true, deadlineAt := none, cancelRequested := true } :=
        { Quiet.refl a with cancelRequested := fun _ => rfl }
      dsimp only
      split
      · exact .quiet (hasked.trans (send_quiet _ closing _))
      · exact .quiet (hasked.trans (abort_quiet _ _))

theorem turns_wake (a : Attempt φ) : Turns a a.wake.only := by
  rw [wake]
  split
  · rename_i h
    have hrank : a.superviseAt.rank = 1 := by rw [h.1]; rfl
    split
    · refine .advances .finishing .exiting ?_ ?_ ?_ (.inr rfl)
      · omega
      · rw [hrank]
        decide
      · decide
    · refine .advances a.state .grace ?_ ?_ ?_ (.inl rfl)
      · omega
      · rw [hrank]
        decide
      · decide
  · exact .refl a

theorem turns_graceOver (a : Attempt φ) : Turns a a.graceOver.only := by
  rw [graceOver]
  split
  · rename_i h
    refine .advances .finishing .exiting ?_ ?_ ?_ (.inr rfl)
    · rw [h]
      decide
    · rw [h]
      decide
    · decide
  · exact .refl a

theorem turns_exitOver (a : Attempt φ) : Turns a a.exitOver.only := by
  rw [exitOver]
  split
  · rename_i h
    have hrank : a.superviseAt.rank = 3 := by rw [h]; rfl
    split
    · exact .stops false (by omega) (by omega)
    · refine .advances a.state .terminating ?_ ?_ ?_ (.inl rfl)
      · omega
      · rw [hrank]
        decide
      · decide
  · exact .refl a

theorem turns_termOver (a : Attempt φ) (timedOut : Bool) : Turns a (a.termOver timedOut).only := by
  rw [termOver]
  split
  · rename_i h
    have hrank : a.superviseAt.rank = 4 := by rw [h]; rfl
    split
    · refine .advances a.state .killing ?_ ?_ ?_ (.inl rfl)
      · omega
      · rw [hrank]
        decide
      · decide
    · split
      · exact .stops true (by omega) (by omega)
      · exact .refl a
  · exact .refl a

theorem turns_killOver (a : Attempt φ) : Turns a a.killOver.only := by
  rw [killOver]
  split
  · rename_i h
    have hrank : a.superviseAt.rank = 5 := by rw [h]; rfl
    exact .stops true (by omega) (by omega)
  · exact .refl a

theorem turns_settled (a : Attempt φ) : Turns a a.settled := by
  rw [settled]
  split
  · exact .settles _ ‹_›
  · exact .refl a

theorem turns_superviseCancelled (a : Attempt φ) : Turns a a.superviseCancelled := by
  rw [superviseCancelled]
  split
  · exact .cancels _ (fun hkind => by cases hkind) ‹_›
  · exact .refl a

/-- **A turn does one of these things.** -/
theorem turns_turn [PyFloat φ] (settings : Settings φ) (texts : PyTexts φ) (a : Attempt φ)
    (action : Action φ) : Turns a (a.turn settings texts action) := by
  cases action with
  | start sides folder => exact turns_start settings a sides folder
  | launched spawned => exact turns_launched settings a spawned
  | connected error => exact turns_connected settings a error
  | readyWaited timedOut closing suspends now =>
    exact .quiet (readyWaited_quiet settings texts a timedOut closing suspends now)
  | drained now => exact .quiet (drained_quiet settings a now)
  | startInterrupted => exact .quiet (startInterrupted_quiet a)
  | confirm token now closing => exact .quiet (confirm_quiet settings a token now closing)
  | cancel closing => exact turns_cancel a closing
  | read line now =>
    -- The reader's actions count only while it reads.
    rw [turn]
    split
    · exact .reads ‹_› (readEvent_keeps settings texts now a line)
    · exact .refl a
  | readerRaised =>
    rw [turn]
    split
    · exact .reads ‹_› { Keeps.refl a with readerOver := fun _ => rfl }
    · exact .refl a
  | logged line => exact .quiet { Quiet.refl a with }
  | watchdog now => exact .quiet (watchdog_quiet texts a now)
  | exited code => exact .quiet (exited_quiet a code)
  | wake => exact turns_wake a
  | graceOver => exact turns_graceOver a
  | exitOver => exact turns_exitOver a
  | termOver timedOut => exact turns_termOver a timedOut
  | killOver => exact turns_killOver a
  | settled => exact turns_settled a
  | superviseCancelled => exact turns_superviseCancelled a

end Attempt

end ManusCalibration
