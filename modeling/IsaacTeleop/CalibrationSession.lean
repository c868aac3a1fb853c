/-
What a calibration session is, as a monitor of the engine's trace.

The monitor says in which order the SDK may be called and which events may be written:
one `initialize`, gloves calibrated one at a time in the order of the requested sides,
each step started by the confirmation of its own prompt, a file for each finished glove,
one `shutdown`, and a result that agrees with all of it.

* `Session.next` — the monitor;
* `Session.Change` — what an accepted entry changes;
* `Session.Valid` — what holds of every session the monitor reaches.
-/
import IsaacTeleop.CalibrationEngine
import IsaacTeleop.TraceMonitor

open ByteText

namespace Calibration

variable {τ : Type}

/-! ### The monitor -/

/-- The glove under calibration. -/
structure GloveRun where
  glove : GloveRef
  count : ℕ
  /-- How many times `start_step` was called for it. -/
  started : ℕ
  /-- The token of the prompt that awaits its confirmation. -/
  offered : Option ByteText
  /-- The SDK refused the last `start_step`. -/
  refused : Bool
  deriving DecidableEq

/-- How many prompts were offered for it. -/
def GloveRun.offers (c : GloveRun) : ℕ := c.started + if c.offered = none then 0 else 1

theorem GloveRun.offers_none {c : GloveRun} (h : c.offered = none) : c.offers = c.started := by
  rw [GloveRun.offers, if_pos h, Nat.add_zero]

theorem GloveRun.offers_some {c : GloveRun} {token : ByteText} (h : c.offered = some token) :
    c.offers = c.started + 1 := by
  rw [GloveRun.offers, if_neg]
  rw [h]
  exact Option.some_ne_none token

inductive Stage
  | idle
  | up
  | stopped
  | down
  | reported
  deriving DecidableEq, Repr

structure Session where
  stage : Stage
  lastInput : Option Input
  /-- The command that started the attempt. -/
  command : Option StartCommand
  /-- The glove to be started next, with the step count the SDK reported. -/
  counted : Option (GloveRef × ℕ)
  current : Option GloveRun
  /-- The gloves finished so far, with their step counts. -/
  finished : List (GloveRef × ℕ)
  prompts : ℕ
  accepted : List ByteText
  files : List ResultFile
  /-- No stop and no shutdown failed. -/
  released : Bool
  deriving DecidableEq

/-- The entries that leave the session as it is, acknowledgements apart. -/
def Entry.routine : Entry τ → Bool
  | .cancelRequested | .clock _ | .directoryUsable _ _ | .connect _ | .gloves _ => true
  | .stepData .. | .exportCalibration .. | .write _ _ _ (some _) => true
  | .stepCount _ status _ | .start _ status | .finish _ status => !status.ok
  | .event (.status _) | .event (.stepProgress _) | .event (.rejected _) => true
  | .event (.exported _) => true
  | _ => false

namespace Session

def init : Session where
  stage := .idle
  lastInput := none
  command := none
  counted := none
  current := none
  finished := []
  prompts := 0
  accepted := []
  files := []
  released := true

def attempt (s : Session) : ByteText := (s.command.map fun c => c.attempt).getD []

def sides (s : Session) : List Side := (s.command.map fun c => c.sides).getD []

/-- The token of the `n`-th prompt of an attempt. -/
def promptToken (attempt : ByteText) (n : ℕ) : ByteText := attempt ++ lit "-" ++ decimal n

def require (p : Prop) [Decidable p] (s : Session) : Option Session := if p then some s else none

theorem require_eq_some {p : Prop} [Decidable p] {s s' : Session} :
    require p s = some s' ↔ p ∧ s = s' := by
  by_cases hp : p
  · rw [require, if_pos hp, Option.some_inj]
    exact ⟨fun h => ⟨hp, h⟩, fun h => h.2⟩
  · rw [require, if_neg hp]
    constructor
    · intro h
      cases h
    · exact fun h => absurd h.1 hp

/-- A result that agrees with the session. -/
def ResultOk (s : Session) (r : ResultEvent) : Prop :=
  r.released = s.released ∧
    match r.outcome with
    | .completed => s.released = true ∧ r.error = none ∧ r.files = s.files ∧ s.command ≠ none ∧
        s.files.length = s.sides.length
    | .cancelled => s.released = true ∧ r.error = none ∧ r.files = []
    | .failed => r.error ≠ none ∧ r.files = []

instance (s : Session) (r : ResultEvent) : Decidable (s.ResultOk r) := by
  unfold ResultOk
  cases r.outcome <;> infer_instance

/-- The monitor on an event. -/
def nextEvent (s : Session) : Event τ → Option Session
  | .ready _ => none
  | .status _ | .stepProgress _ | .rejected _ => require (s.stage ≠ .reported) s
  | .prompt p =>
    match s.current with
    | none => none
    | some c =>
      require (s.stage = .up ∧ c.offered = none ∧ c.refused = false ∧ c.started < c.count ∧
          p.attempt = s.attempt ∧ p.side = c.glove.side ∧ p.gloveId = c.glove.gloveId ∧
          p.index = c.started ∧ p.count = c.count ∧
          p.token = promptToken s.attempt (s.prompts + 1))
        { s with prompts := s.prompts + 1, current := some { c with offered := some p.token } }
  | .stepAccepted a => require (s.stage ≠ .reported ∧ a.token ∈ s.accepted) s
  | .exported x =>
    require (s.stage ≠ .reported ∧ s.files.getLast? = some ⟨x.side, x.file, x.bytes, x.sha256⟩) s
  | .result r =>
    require ((s.stage = .idle ∨ s.stage = .down) ∧ s.ResultOk r) { s with stage := .reported }

/-- The monitor: the session after an entry, or `none` if the entry may not stand there. -/
def next (s : Session) : Entry τ → Option Session
  | .input i => some { s with lastInput := some i }
  | .cancelRequested => some s
  | .clock _ | .directoryUsable _ _ => require (s.stage ≠ .reported) s
  | .connect _ | .gloves _ | .stepData .. | .exportCalibration .. => require (s.stage = .up) s
  | .write _ _ _ (some _) => require (s.stage = .up) s
  | .write _ basename bytes none =>
    match s.finished.getLast? with
    | none => none
    | some (glove, _) =>
      require (s.stage = .up ∧ s.finished.length = s.files.length + 1)
        { s with files := s.files ++ [⟨glove.side, basename, bytes.length, sha256Hex bytes⟩] }
  | .initializeSdk _ =>
    match s.lastInput with
    | some (.handle (.start command)) =>
      require (s.stage = .idle) { s with stage := .up, command := some command }
    | _ => none
  | .stepCount glove status count =>
    if status.ok then
      require (s.stage = .up ∧ s.current = none ∧ s.counted = none ∧
          s.files.length = s.finished.length ∧ s.sides[s.finished.length]? = some glove.side)
        { s with counted := some (glove, count.toNat) }
    else require (s.stage = .up) s
  | .start glove status =>
    if status.ok then
      match s.counted with
      | none => none
      | some (counted, count) =>
        require (s.stage = .up ∧ counted = glove)
          { s with counted := none, current := some ⟨glove, count, 0, none, false⟩ }
    else require (s.stage = .up) s
  | .startStep glove index status =>
    match s.current, s.lastInput with
    | some c, some (.handle (.confirm confirm)) =>
      require (s.stage = .up ∧ c.glove = glove ∧ c.started = index ∧
          c.offered = some confirm.token ∧ c.refused = false ∧ confirm.attempt = s.attempt ∧
          confirm.token ∉ s.accepted)
        (if status.ok then
          { s with current := some { c with started := c.started + 1, offered := none }
                   accepted := s.accepted ++ [confirm.token] }
        else
          { s with current := some { c with started := c.started + 1, offered := none
                                            refused := true } })
    | _, _ => none
  | .finish glove status =>
    match s.current with
    | none => none
    | some c =>
      if status.ok then
        require (s.stage = .up ∧ c.glove = glove ∧ c.started = c.count ∧ c.offered = none ∧
            c.refused = false)
          { s with current := none, finished := s.finished ++ [(glove, c.count)] }
      else require (s.stage = .up ∧ c.glove = glove) s
  | .stop glove status =>
    match s.current with
    | none => none
    | some c =>
      require (s.stage = .up ∧ c.glove = glove)
        { s with stage := .stopped, released := s.released && status.ok }
  | .shutdown status =>
    require (s.stage = .stopped ∨ s.stage = .up ∧ s.current = none)
      { s with stage := .down, released := s.released && status.ok }
  | .event event => s.nextEvent event

/-! ### What an accepted entry changes -/

/-- A step can be started: its prompt is confirmed by the command being handled. -/
structure Confirmed (s : Session) (c : GloveRun) (confirm : ConfirmCommand) : Prop where
  up : s.stage = .up
  current : s.current = some c
  input : s.lastInput = some (.handle (.confirm confirm))
  offered : c.offered = some confirm.token
  accepted : c.refused = false
  attempt : confirm.attempt = s.attempt
  fresh : confirm.token ∉ s.accepted

/-- What an accepted entry changes. -/
inductive Change (s : Session) : Entry τ → Session → Prop
  | routine {entry : Entry τ} (routine : entry.routine = true)
      (stage : s.stage ≠ .reported ∨ entry = .cancelRequested) : Change s entry s
  | input (i : Input) : Change s (.input i) { s with lastInput := some i }
  | initialized {command : StartCommand} {status : SdkStatus} (idle : s.stage = .idle)
      (input : s.lastInput = some (.handle (.start command))) :
      Change s (.initializeSdk status) { s with stage := .up, command := some command }
  | counted {glove : GloveRef} {status : SdkStatus} {count : UInt32} (ok : status.ok = true)
      (up : s.stage = .up) (current : s.current = none) (counted : s.counted = none)
      (files : s.files.length = s.finished.length)
      (side : s.sides[s.finished.length]? = some glove.side) :
      Change s (.stepCount glove status count) { s with counted := some (glove, count.toNat) }
  | started {glove : GloveRef} {status : SdkStatus} {count : ℕ} (ok : status.ok = true)
      (up : s.stage = .up) (counted : s.counted = some (glove, count)) :
      Change s (.start glove status)
        { s with counted := none, current := some ⟨glove, count, 0, none, false⟩ }
  | stepStarted {c : GloveRun} {confirm : ConfirmCommand} {status : SdkStatus}
      (ok : status.ok = true) (confirmed : Confirmed s c confirm) :
      Change s (.startStep c.glove c.started status)
        { s with current := some ⟨c.glove, c.count, c.started + 1, none, c.refused⟩
                 accepted := s.accepted ++ [confirm.token] }
  | stepRefused {c : GloveRun} {confirm : ConfirmCommand} {status : SdkStatus}
      (failed : status.ok = false) (confirmed : Confirmed s c confirm) :
      Change s (.startStep c.glove c.started status)
        { s with current := some ⟨c.glove, c.count, c.started + 1, none, true⟩ }
  | finished {c : GloveRun} {status : SdkStatus} (ok : status.ok = true) (up : s.stage = .up)
      (current : s.current = some c) (started : c.started = c.count) (offered : c.offered = none)
      (accepted : c.refused = false) :
      Change s (.finish c.glove status)
        { s with current := none, finished := s.finished ++ [(c.glove, c.count)] }
  | saved {dir basename : ByteText} {bytes : List UInt8} {glove : GloveRef} {count : ℕ}
      (up : s.stage = .up) (last : s.finished.getLast? = some (glove, count))
      (length : s.finished.length = s.files.length + 1) :
      Change s (.write dir basename bytes none)
        { s with files := s.files ++ [⟨glove.side, basename, bytes.length, sha256Hex bytes⟩] }
  | stopped {c : GloveRun} {status : SdkStatus} (up : s.stage = .up)
      (current : s.current = some c) :
      Change s (.stop c.glove status)
        { s with stage := .stopped, released := s.released && status.ok }
  | down {status : SdkStatus} (stage : s.stage = .stopped ∨ s.stage = .up ∧ s.current = none) :
      Change s (.shutdown status)
        { s with stage := .down, released := s.released && status.ok }
  | prompted {c : GloveRun} {p : PromptEvent τ} (up : s.stage = .up) (current : s.current = some c)
      (offered : c.offered = none) (lt : c.started < c.count) (attempt : p.attempt = s.attempt)
      (side : p.side = c.glove.side) (gloveId : p.gloveId = c.glove.gloveId)
      (index : p.index = c.started) (token : p.token = promptToken s.attempt (s.prompts + 1)) :
      Change s (.event (.prompt p))
        { s with prompts := s.prompts + 1, current := some { c with offered := some p.token } }
  | acknowledged {a : StepAcceptedEvent} (stage : s.stage ≠ .reported)
      (mem : a.token ∈ s.accepted) :
      Change s (.event (.stepAccepted a)) s
  | reported {r : ResultEvent} (stage : s.stage = .idle ∨ s.stage = .down) (ok : s.ResultOk r) :
      Change s (.event (.result r)) { s with stage := .reported }

section Change

variable {s s' : Session}

theorem ne_reported_of_up (h : s.stage = .up) : s.stage ≠ .reported := by
  intro hreported
  rw [h] at hreported
  cases hreported

/-- An entry that passes a requirement and leaves the session as it is. -/
theorem Change.pass {entry : Entry τ} (hroutine : entry.routine = true) {p : Prop} [Decidable p]
    (hstage : p → s.stage ≠ .reported) (h : require p s = some s') : Change s entry s' := by
  obtain ⟨hp, rfl⟩ := require_eq_some.mp h
  exact .routine hroutine (Or.inl (hstage hp))

theorem nextEvent_change {event : Event τ} (h : s.nextEvent event = some s') :
    Change s (.event event) s' := by
  cases event with
  | ready _ => cases h
  | status _ => exact .pass rfl id h
  | stepProgress _ => exact .pass rfl id h
  | rejected _ => exact .pass rfl id h
  | exported _ => exact .pass rfl And.left h
  | stepAccepted a =>
    obtain ⟨⟨hstage, hmem⟩, rfl⟩ := require_eq_some.mp h
    exact .acknowledged hstage hmem
  | result r =>
    obtain ⟨⟨hstage, hok⟩, rfl⟩ := require_eq_some.mp h
    exact .reported hstage hok
  | prompt p =>
    rw [nextEvent] at h
    split at h
    · cases h
    · rename_i c hcurrent
      obtain ⟨⟨hup, hoffered, -, hlt, hattempt, hside, hid, hindex, -, htoken⟩, rfl⟩ :=
        require_eq_some.mp h
      exact .prompted hup hcurrent hoffered hlt hattempt hside hid hindex htoken

theorem startStep_change {glove : GloveRef} {index : ℕ} {status : SdkStatus}
    (h : s.next (.startStep glove index status : Entry τ) = some s') :
    Change s (.startStep glove index status : Entry τ) s' := by
  rw [next] at h
  split at h
  · rename_i c confirm hcurrent hinput
    obtain ⟨⟨hup, hglove, hindex, hoffered, hrefused, hattempt, hnew⟩, hs'⟩ :=
      require_eq_some.mp h
    obtain rfl := hglove
    obtain rfl := hindex
    have hconfirmed : Confirmed s c confirm :=
      ⟨hup, hcurrent, hinput, hoffered, hrefused, hattempt, hnew⟩
    split at hs'
    · rename_i hok
      subst hs'
      exact .stepStarted hok hconfirmed
    · rename_i hfailed
      subst hs'
      exact .stepRefused (Bool.not_eq_true _ ▸ hfailed) hconfirmed
  · cases h

theorem stepCount_change {glove : GloveRef} {status : SdkStatus} {count : UInt32}
    (h : s.next (.stepCount glove status count : Entry τ) = some s') :
    Change s (.stepCount glove status count : Entry τ) s' := by
  rw [next] at h
  split at h
  · rename_i hok
    obtain ⟨⟨hup, hcurrent, hcounted, hfiles, hside⟩, rfl⟩ := require_eq_some.mp h
    exact .counted hok hup hcurrent hcounted hfiles hside
  · rename_i hfailed
    exact .pass (by simpa [Entry.routine] using hfailed) ne_reported_of_up h

theorem start_change {glove : GloveRef} {status : SdkStatus}
    (h : s.next (.start glove status : Entry τ) = some s') :
    Change s (.start glove status : Entry τ) s' := by
  rw [next] at h
  split at h
  · rename_i hok
    split at h
    · cases h
    · rename_i counted count hcounted
      obtain ⟨⟨hup, rfl⟩, rfl⟩ := require_eq_some.mp h
      exact .started hok hup hcounted
  · rename_i hfailed
    exact .pass (by simpa [Entry.routine] using hfailed) ne_reported_of_up h

theorem finish_change {glove : GloveRef} {status : SdkStatus}
    (h : s.next (.finish glove status : Entry τ) = some s') :
    Change s (.finish glove status : Entry τ) s' := by
  rw [next] at h
  split at h
  · cases h
  · rename_i c hcurrent
    split at h
    · rename_i hok
      obtain ⟨⟨hup, rfl, hstarted, hoffered, hrefused⟩, rfl⟩ := require_eq_some.mp h
      exact .finished hok hup hcurrent hstarted hoffered hrefused
    · rename_i hfailed
      exact .pass (by simpa [Entry.routine] using hfailed) (fun hp => ne_reported_of_up hp.1) h

/-- **Every accepted entry is one of the changes.** -/
theorem next_change {entry : Entry τ} (h : s.next entry = some s') : Change s entry s' := by
  cases entry with
  | input i =>
    cases h
    exact .input i
  | cancelRequested =>
    cases h
    exact .routine rfl (Or.inr rfl)
  | clock _ => exact .pass rfl id h
  | directoryUsable _ _ => exact .pass rfl id h
  | connect _ => exact .pass rfl ne_reported_of_up h
  | gloves _ => exact .pass rfl ne_reported_of_up h
  | stepData _ _ _ _ => exact .pass rfl ne_reported_of_up h
  | exportCalibration _ _ _ => exact .pass rfl ne_reported_of_up h
  | write _ _ _ error =>
    -- Only a write without an error saves a file.
    cases error with
    | some _ => exact .pass rfl ne_reported_of_up h
    | none =>
      rw [next] at h
      split at h
      · cases h
      · rename_i glove count hlast
        obtain ⟨⟨hup, hlength⟩, rfl⟩ := require_eq_some.mp h
        exact .saved hup hlast hlength
  | initializeSdk _ =>
    rw [next] at h
    split at h
    · rename_i command hinput
      obtain ⟨hidle, rfl⟩ := require_eq_some.mp h
      exact .initialized hidle hinput
    · cases h
  | stepCount glove status count => exact stepCount_change h
  | start glove status => exact start_change h
  | finish glove status => exact finish_change h
  | startStep _ _ _ => exact startStep_change h
  | stop glove status =>
    rw [next] at h
    split at h
    · cases h
    · rename_i c hcurrent
      obtain ⟨⟨hup, rfl⟩, rfl⟩ := require_eq_some.mp h
      exact .stopped hup hcurrent
  | shutdown status =>
    obtain ⟨hstage, rfl⟩ := require_eq_some.mp h
    exact .down hstage
  | event event => exact nextEvent_change h

end Change

/-! ### Valid sessions -/

/-- What holds of every session the monitor reaches. -/
structure Valid (s : Session) : Prop where
  fresh : s.command = none → (s.stage = .idle ∨ s.stage = .reported) ∧ s.current = none ∧
    s.finished = [] ∧ s.prompts = 0 ∧ s.accepted = [] ∧ s.files = [] ∧ s.counted = none ∧
    s.released = true
  idle : s.stage = .idle → s.command = none
  finishedSides : s.finished.map (fun x => x.1.side) = s.sides.take s.finished.length
  fileSides : s.files.map (fun f => f.side) = s.sides.take s.files.length
  files_le : s.files.length ≤ s.finished.length
  le_files : s.finished.length ≤ s.files.length + 1
  countedSide : ∀ x, s.counted = some x → s.sides[s.finished.length]? = some x.1.side ∧
    s.files.length = s.finished.length ∧ s.current = none
  currentSide : ∀ c, s.current = some c → s.sides[s.finished.length]? = some c.glove.side ∧
    s.files.length = s.finished.length ∧ s.counted = none
  currentSteps : ∀ c, s.current = some c → c.offers ≤ c.count
  prompts : s.prompts = (s.finished.map fun x => x.2).sum
    + (s.current.map GloveRun.offers).getD 0
  countedCount : ∀ x, s.counted = some x → x.2 < 2 ^ 32
  finishedCounts : ∀ x ∈ s.finished, x.2 < 2 ^ 32
  currentCount : ∀ c, s.current = some c → c.count < 2 ^ 32

theorem init_valid : Valid init where
  fresh _ := ⟨Or.inl rfl, rfl, rfl, rfl, rfl, rfl, rfl, rfl⟩
  idle _ := rfl
  finishedSides := rfl
  fileSides := rfl
  files_le := Nat.le_refl _
  le_files := Nat.zero_le _
  countedSide _ h := (by cases h)
  currentSide _ h := (by cases h)
  currentSteps _ h := (by cases h)
  prompts := rfl
  countedCount _ h := (by cases h)
  finishedCounts _ h := (by cases h)
  currentCount _ h := (by cases h)

section Valid

variable {s s' : Session}

theorem Valid.up (h : Valid s) (hup : s.stage = .up) : s.command ≠ none := by
  intro hnone
  rcases (h.fresh hnone).1 with hidle | hreported
  · rw [hup] at hidle
    cases hidle
  · exact ne_reported_of_up hup hreported

/-- The prompts of a session with a glove under calibration. -/
theorem Valid.prompts_eq (h : Valid s) {c : GloveRun} (hc : s.current = some c) :
    s.prompts = (s.finished.map fun x => x.2).sum + c.offers := by
  have hprompts := h.prompts
  rw [hc] at hprompts
  exact hprompts

/-- Another state of the glove under calibration, with the prompts it makes. -/
theorem Valid.current (h : Valid s) (hup : s.stage = .up) {c : GloveRun}
    (hc : s.current = some c) (c' : GloveRun) (hglove : c'.glove = c.glove)
    (hcount : c'.count = c.count) (hsteps : c'.offers ≤ c'.count) {prompts : ℕ}
    (accepted : List ByteText)
    (hprompts : prompts = (s.finished.map fun x => x.2).sum + c'.offers) :
    Valid { s with current := some c', prompts := prompts, accepted := accepted } :=
  { h with
    fresh := fun hnone => absurd hnone (h.up hup)
    -- No glove is counted while one is calibrated.
    countedSide := by
      intro x hx
      have hnone := (h.countedSide x hx).2.2
      rw [hc] at hnone
      cases hnone
    currentSide := by
      intro c₁ hc₁
      cases hc₁
      rw [hglove]
      exact h.currentSide c hc
    currentSteps := by
      intro c₁ hc₁
      cases hc₁
      exact hsteps
    prompts := hprompts
    currentCount := by
      intro c₁ hc₁
      cases hc₁
      rw [hcount]
      exact h.currentCount c hc }

/-- Whether the SDK accepts or refuses a step, the offered prompt becomes a started step. -/
theorem Valid.stepped (h : Valid s) {c : GloveRun} {confirm : ConfirmCommand}
    (hconfirmed : Confirmed s c confirm) (refused : Bool) (accepted : List ByteText) :
    Valid { s with current := some ⟨c.glove, c.count, c.started + 1, none, refused⟩
                   accepted := accepted } := by
  have hoffers := GloveRun.offers_some hconfirmed.offered
  refine h.current hconfirmed.up hconfirmed.current ⟨c.glove, c.count, c.started + 1, none, refused⟩
    rfl rfl ?_ accepted ?_
  · have hsteps := h.currentSteps c hconfirmed.current
    rw [hoffers] at hsteps
    exact hsteps
  · have hprompts := h.prompts_eq hconfirmed.current
    rw [hoffers] at hprompts
    exact hprompts

theorem Valid.started (h : Valid s) (hup : s.stage = .up) {glove : GloveRef} {count : ℕ}
    (hcounted : s.counted = some (glove, count)) :
    Valid { s with counted := none, current := some ⟨glove, count, 0, none, false⟩ } := by
  obtain ⟨hside, hfiles, hcurrent⟩ := h.countedSide _ hcounted
  exact
    { h with
      fresh := fun hnone => absurd hnone (h.up hup)
      countedSide := fun x hx => (by cases hx)
      currentSide := by
        intro c hc
        cases hc
        exact ⟨hside, hfiles, rfl⟩
      currentSteps := by
        intro c hc
        cases hc
        exact Nat.zero_le _
      prompts := by
        have hprompts := h.prompts
        rw [hcurrent] at hprompts
        exact hprompts
      countedCount := fun x hx => (by cases hx)
      currentCount := by
        intro c hc
        cases hc
        exact h.countedCount _ hcounted }

theorem Valid.finished (h : Valid s) (hup : s.stage = .up) {c : GloveRun}
    (hcurrent : s.current = some c) (hstarted : c.started = c.count) (hoffered : c.offered = none) :
    Valid { s with current := none, finished := s.finished ++ [(c.glove, c.count)] } := by
  obtain ⟨hside, hfiles, hcounted⟩ := h.currentSide c hcurrent
  exact
    { h with
      fresh := fun hnone => absurd hnone (h.up hup)
      finishedSides := by
        show (s.finished ++ [(c.glove, c.count)]).map _ = s.sides.take (s.finished ++ _).length
        rw [List.map_append, List.length_append, List.length_singleton, h.finishedSides,
          List.take_add_one, hside]
        rfl
      files_le := by
        show s.files.length ≤ (s.finished ++ _).length
        rw [List.length_append]
        omega
      le_files := by
        show (s.finished ++ _).length ≤ s.files.length + 1
        rw [List.length_append, List.length_singleton]
        omega
      countedSide := by
        intro x hx
        rw [hcounted] at hx
        cases hx
      currentSide := fun c' hc' => (by cases hc')
      currentSteps := fun c' hc' => (by cases hc')
      -- The prompts of the finished glove are exactly its steps.
      prompts := by
        show s.prompts = ((s.finished ++ [(c.glove, c.count)]).map fun x => x.2).sum + 0
        rw [List.map_append, List.sum_append, h.prompts_eq hcurrent, GloveRun.offers_none hoffered,
          hstarted]
        rfl
      finishedCounts := by
        intro x hx
        rcases List.mem_append.mp hx with hx | hx
        · exact h.finishedCounts x hx
        · obtain rfl := List.mem_singleton.mp hx
          exact h.currentCount c hcurrent
      currentCount := fun c' hc' => (by cases hc') }

theorem Valid.saved (h : Valid s) (hup : s.stage = .up) {glove : GloveRef} {count : ℕ}
    (hlast : s.finished.getLast? = some (glove, count))
    (hlength : s.finished.length = s.files.length + 1) {file : ResultFile}
    (hfile : file.side = glove.side) : Valid { s with files := s.files ++ [file] } := by
  -- the file belongs to the last finished glove
  have hside : s.sides[s.files.length]? = some glove.side := by
    have hmap : (s.finished.map fun x => x.1.side)[s.files.length]? = some glove.side := by
      rw [List.getLast?_eq_getElem?, hlength, Nat.add_sub_cancel] at hlast
      rw [List.getElem?_map, hlast]
      rfl
    rw [h.finishedSides, List.getElem?_take_of_lt (by omega)] at hmap
    exact hmap
  exact
    { h with
      fresh := fun hnone => absurd hnone (h.up hup)
      fileSides := by
        show (s.files ++ [file]).map _ = s.sides.take (s.files ++ [file]).length
        rw [List.map_append, List.length_append, List.length_singleton, h.fileSides,
          List.take_add_one, hside, List.map_singleton, hfile]
        rfl
      files_le := by
        show (s.files ++ [file]).length ≤ s.finished.length
        rw [List.length_append, List.length_singleton]
        omega
      le_files := by
        show s.finished.length ≤ (s.files ++ [file]).length + 1
        rw [List.length_append]
        omega
      countedSide := by
        intro x hx
        have hcounted := (h.countedSide x hx).2.1
        omega
      currentSide := by
        intro c hc
        have hcurrent := (h.currentSide c hc).2.1
        omega }

theorem Valid.initialized (h : Valid s) (hidle : s.stage = .idle) (command : StartCommand) :
    Valid { s with stage := .up, command := some command } := by
  obtain ⟨-, hcurrent, hfinished, -, -, hfiles, hcounted, -⟩ := h.fresh (h.idle hidle)
  exact
    { h with
      fresh := fun hnone => (by cases hnone)
      idle := fun hidle => (by cases hidle)
      finishedSides := by
        show s.finished.map _ = _
        rw [hfinished]
        rfl
      fileSides := by
        show s.files.map _ = _
        rw [hfiles]
        rfl
      countedSide := by
        intro x hx
        rw [hcounted] at hx
        cases hx
      currentSide := by
        intro c hc
        rw [hcurrent] at hc
        cases hc }

/-- A change of stage and of the release flag while the attempt ends. -/
theorem Valid.closing (h : Valid s) (hcommand : s.command ≠ none) {stage : Stage}
    (hstage : stage ≠ .idle) (released : Bool) :
    Valid { s with stage := stage, released := released } :=
  { h with
    fresh := fun hnone => absurd hnone hcommand
    idle := fun hidle => absurd hidle hstage }

/-- **The monitor reaches valid sessions only.** -/
theorem Valid.change (h : Valid s) {entry : Entry τ} (hchange : Change s entry s') : Valid s' := by
  cases hchange with
  | routine _ _ => exact h
  | acknowledged _ _ => exact h
  | input _ => exact { h with }
  | initialized hidle _ => exact h.initialized hidle _
  | counted _ hup hcurrent _ hfiles hside =>
    exact
      { h with
        fresh := fun hnone => absurd hnone (h.up hup)
        countedSide := by
          intro x hx
          cases hx
          exact ⟨hside, hfiles, hcurrent⟩
        currentSide := by
          intro c hc
          rw [hcurrent] at hc
          cases hc
        countedCount := by
          intro x hx
          cases hx
          exact UInt32.toNat_lt _ }
  | started _ hup hcounted => exact h.started hup hcounted
  | stepStarted _ hconfirmed => exact h.stepped hconfirmed _ _
  | stepRefused _ hconfirmed => exact h.stepped hconfirmed _ _
  | finished _ hup hcurrent hstarted hoffered _ => exact h.finished hup hcurrent hstarted hoffered
  | saved hup hlast hlength => exact h.saved hup hlast hlength rfl
  | stopped hup _ => exact h.closing (h.up hup) (fun h => (by cases h)) _
  | down hstage =>
    refine h.closing ?_ (fun h => (by cases h)) _
    intro hnone
    have hfresh := (h.fresh hnone).1
    rcases hstage with hstopped | ⟨hup, -⟩
    · rw [hstopped] at hfresh
      rcases hfresh with h | h
      · cases h
      · cases h
    · exact h.up hup hnone
  | @prompted c p hup hcurrent hoffered hlt _ _ _ _ _ =>
    -- The prompt is the one after those offered so far.
    have hoffers := h.prompts_eq hcurrent
    rw [GloveRun.offers_none hoffered] at hoffers
    refine h.current hup hcurrent { c with offered := some p.token } rfl rfl ?_ s.accepted ?_
    · rw [GloveRun.offers_some rfl]
      exact hlt
    · rw [GloveRun.offers_some rfl, hoffers]
      rfl
  | reported _ _ =>
    exact
      { h with
        fresh := fun hnone => ⟨Or.inr rfl, (h.fresh hnone).2⟩
        idle := fun hidle => (by cases hidle) }

/-- The sides of a command are at most two. -/
theorem sides_length_le (s : Session) : s.sides.length ≤ 2 := by
  rw [sides]
  cases s.command with
  | none => exact Nat.zero_le _
  | some command =>
    show command.sides.length ≤ 2
    have hordered := command.sides_ordered
    match command.sides, hordered with
    | [], _ => exact Nat.zero_le _
    | [_], _ => exact Nat.le_succ _
    | [_, _], _ => exact Nat.le_refl _
    | a :: b :: c :: _, hordered =>
      rw [List.pairwise_cons, List.pairwise_cons] at hordered
      have hb := (hordered.1 b List.mem_cons_self).2
      have hb' := (hordered.2.1 c List.mem_cons_self).1
      rw [hb] at hb'
      cases hb'

theorem sides_nodup (s : Session) : s.sides.Nodup := by
  rw [sides]
  cases s.command with
  | none => exact List.nodup_nil
  | some command =>
    refine command.sides_ordered.imp ?_
    rintro a b ⟨rfl, rfl⟩ h
    cases h

/-- The prompts of an attempt are far from wrapping their counter around. -/
theorem Valid.prompts_lt (h : Valid s) {c : GloveRun} (hc : s.current = some c) :
    s.prompts < 2 ^ 64 - 1 := by
  have hold := h.prompts_eq hc
  have hoffers := h.currentSteps c hc
  have hcount := h.currentCount c hc
  -- at most one glove was finished before the current one
  have hlength : s.finished.length < 2 := by
    obtain ⟨hlt, -⟩ := List.getElem?_eq_some_iff.mp (h.currentSide c hc).1
    exact Nat.lt_of_lt_of_le hlt (sides_length_le s)
  have hsum : (s.finished.map fun x => x.2).sum < 2 ^ 32 := by
    have hcounts := h.finishedCounts
    match hfinished : s.finished, hlength with
    | [], _ => exact Nat.two_pow_pos 32
    | [x], _ =>
      rw [hfinished] at hcounts
      have hx := hcounts x List.mem_cons_self
      simpa using hx
    | _ :: _ :: _, hlength =>
      rw [List.length_cons, List.length_cons] at hlength
      omega
  omega

end Valid

end Session

end Calibration
