/-
The process of a plugin.

A plugin runs as a child process.  Snapshots, health checks and stops may be called from several
threads; two mutexes order them, and the process mutex is released while a stop sleeps between two
polls, so that another call may reap the child in between.

* `World.advance` — what a thread does next, with the answer of the operating system;
* `World.step` — one step of the whole, with the end of the child as one of them;
* `Inv`, `Inv.step` — mutexes, the log of system calls, the end of the child;
* `Single`, `Single.step` — at most one interrupt, while no stop waits when a kill fails;
* `process_state_machine` — all runs of the threads.
-/
import Mathlib

namespace PluginProcess

/-! ### Snapshots -/

inductive ProcessState
  | running
  | exited
  | signaled
  | stopped
  | error
  deriving DecidableEq

inductive ProcessReason
  | none
  | cleanExit
  | nonzeroExit
  | signal
  | explicitStop
  | waitError
  | signalError
  deriving DecidableEq

structure ProcessSnapshot where
  state : ProcessState := .running
  reason : ProcessReason := .none
  pid : ℤ := -1
  exitCode : Option ℤ := none
  termSignal : Option ℤ := none
  errorCode : Option ℤ := none
  error : String := ""
  deriving DecidableEq

/-- What the C library says about an error and about a signal. -/
structure Libc where
  strerror : ℤ → String
  strsignal : ℤ → Option String

/-- How a process ended, as its wait status tells. -/
inductive WaitStatus
  | exited (code : ℤ)
  | signaled (signal : ℤ)
  | other
  deriving DecidableEq

/-- The snapshot of a child that was reaped. -/
def reapedSnapshot (libc : Libc) (stopRequested : Bool) (status : WaitStatus)
    (snapshot : ProcessSnapshot) : ProcessSnapshot :=
  let cleared := { snapshot with
    exitCode := none, termSignal := none, errorCode := none, error := "" }
  if stopRequested then { cleared with state := .stopped, reason := .explicitStop }
  else
    match status with
    | .exited code =>
      if code = 0 then
        { cleared with state := .exited, reason := .cleanExit, exitCode := some code }
      else { cleared with
        state := .exited, reason := .nonzeroExit, exitCode := some code
        error := "Plugin process unexpectedly exited with code " ++ toString code }
    | .signaled signal => { cleared with
        state := .signaled, reason := .signal, termSignal := some signal
        error := "Plugin process crashed with signal " ++ toString signal ++
          match libc.strsignal signal with
          | none => ""
          | some name => " (" ++ name ++ ")" }
    | .other => { cleared with
        state := .error, reason := .waitError
        error := "Plugin process ended with an unrecognized wait status" }

/-- `waitpid` failed for good. -/
def waitErrorSnapshot (libc : Libc) (errno : ℤ) (snapshot : ProcessSnapshot) : ProcessSnapshot :=
  { snapshot with
    state := .error, reason := .waitError, errorCode := some errno
    error := "Failed to check plugin health: " ++ libc.strerror errno }

/-- `cache_signal_error_locked` -/
def signalErrorSnapshot (libc : Libc) (errno : ℤ) (operation : String)
    (snapshot : ProcessSnapshot) : ProcessSnapshot :=
  { snapshot with
    state := .error, reason := .signalError, errorCode := some errno
    error := "Failed to " ++ operation ++ ": " ++ libc.strerror errno }

/-- `check_health` does not throw. -/
def ProcessSnapshot.healthy (snapshot : ProcessSnapshot) : Bool :=
  match snapshot.state with
  | .exited => snapshot.exitCode.getD 0 = 0
  | .signaled | .error => false
  | .running | .stopped => true

/-! ### Threads -/

/-- The calls; all of them take a snapshot first. -/
inductive Call
  | getProcessSnapshot
  | checkHealth
  | stop
  deriving DecidableEq

/-- Where a thread is. -/
inductive Phase
  | idle
  /-- before the process mutex of `get_process_snapshot` -/
  | wantSnapshot (call : Call)
  | polling (call : Call)
  /-- the health check of `stop` has passed; before the stop mutex -/
  | wantStop
  | wantProcess
  | firstPoll
  /-- before `kill(m_pid, SIGINT)` -/
  | interrupting
  | loopHead
  | loopPoll
  /-- asleep between two polls, without the process mutex -/
  | sleeping
  | lastPoll
  /-- before `kill(m_pid, SIGKILL)` -/
  | killing
  | reaping
  deriving DecidableEq

namespace Phase

def holdsProcess : Phase → Bool
  | polling _ | firstPoll | interrupting | loopHead | loopPoll | lastPoll | killing | reaping =>
    true
  | _ => false

def holdsStop : Phase → Bool
  | wantProcess | firstPoll | interrupting | loopHead | loopPoll | sleeping | lastPoll | killing
  | reaping => true
  | _ => false

/-- Inside a call of `stop`. -/
def stopping : Phase → Bool
  | idle | wantSnapshot .getProcessSnapshot | wantSnapshot .checkHealth
  | polling .getProcessSnapshot | polling .checkHealth => false
  | _ => true

/-- After a SIGINT that was sent. -/
def interrupted : Phase → Bool
  | loopHead | loopPoll | sleeping | lastPoll | killing | reaping => true
  | _ => false

/-- On the way to a SIGINT. -/
def approaching : Phase → Bool
  | wantStop | wantProcess | firstPoll | interrupting => true
  | _ => false

end Phase

/-! ### The operating system -/

inductive Child
  | running
  | ended (status : WaitStatus)
  | reaped
  deriving DecidableEq

inductive WaitAnswer
  /-- `EINTR` -/
  | interrupted
  /-- 0: the child has not ended -/
  | pending
  | child
  | failed (errno : ℤ)
  deriving DecidableEq

inductive Answer
  | wait (answer : WaitAnswer)
  /-- `kill`, with its error -/
  | kill (errno : Option ℤ)
  /-- the deadline of `stop` -/
  | clock (late : Bool)
  /-- nothing is asked -/
  | go
  deriving DecidableEq

inductive Signal
  | sigint
  | sigkill
  deriving DecidableEq

/-- The system calls on the process id. -/
inductive OsCall
  | waited (answer : WaitAnswer)
  | signalled (signal : Signal) (errno : Option ℤ)
  deriving DecidableEq

/-- The child was returned, or the wait failed for good. -/
def OsCall.final : OsCall → Bool
  | waited .child | waited (.failed _) => true
  | _ => false

structure World where
  /-- `m_pid != -1` -/
  hasPid : Bool := true
  stopRequested : Bool := false
  snapshot : ProcessSnapshot := {}
  processMutex : Option ℕ := none
  stopMutex : Option ℕ := none
  phase : ℕ → Phase := fun _ => .idle
  child : Child := .running
  /-- the system calls so far -/
  log : List OsCall := []
  /-- a call of `stop` has begun -/
  stopBegun : Bool := false
  /-- the child ended before that -/
  endedUnasked : Bool := false

namespace World

variable (libc : Libc)

/-- A thread goes on to another phase; it waits for a mutex that the phase holds, and gives up one
that it does not. -/
def enter (t : ℕ) (q : Phase) (s : World) : Option World :=
  if (q.holdsProcess ∧ ¬ (s.phase t).holdsProcess ∧ s.processMutex ≠ none) ∨
      (q.holdsStop ∧ ¬ (s.phase t).holdsStop ∧ s.stopMutex ≠ none) then none
  else some { s with
    phase := Function.update s.phase t q
    processMutex :=
      if q.holdsProcess then some t
      else if (s.phase t).holdsProcess then none else s.processMutex
    stopMutex :=
      if q.holdsStop then some t else if (s.phase t).holdsStop then none else s.stopMutex }

def logged (s : World) (call : OsCall) : World := { s with log := s.log ++ [call] }

/-- One `waitpid` of `refresh_process_snapshot_locked`; whether the loop around it has ended. -/
def refresh (block : Bool) (answer : Answer) (s : World) : Option (Bool × World) :=
  if s.hasPid = false then some (true, s)
  else
    match answer with
    | .wait .interrupted => some (false, s.logged (.waited .interrupted))
    | .wait .pending =>
      if block = false ∧ s.child = .running then some (true, s.logged (.waited .pending)) else none
    | .wait .child =>
      match s.child with
      | .ended status => some (true, { s.logged (.waited .child) with
          hasPid := false
          child := .reaped
          snapshot := reapedSnapshot libc s.stopRequested status s.snapshot })
      | _ => none
    | .wait (.failed errno) => some (true, { s.logged (.waited (.failed errno)) with
        hasPid := false
        snapshot := waitErrorSnapshot libc errno s.snapshot })
    | _ => none

/-- A refresh, and where the thread goes after it. -/
def refreshThen (block : Bool) (answer : Answer) (t : ℕ) (next : World → Phase) (s : World) :
    Option World :=
  match s.refresh libc block answer with
  | none => none
  | some (false, s) => some s
  | some (true, s) => s.enter t (next s)

/-- `kill`, and where the thread goes when it was sent; else the error is cached and thrown. -/
def signalThen (signal : Signal) (operation : String) (answer : Answer) (t : ℕ) (next : Phase)
    (s : World) : Option World :=
  match answer with
  | .kill none => (s.logged (.signalled signal none)).enter t next
  | .kill (some errno) => { s.logged (.signalled signal (some errno)) with
      snapshot := signalErrorSnapshot libc errno operation s.snapshot }.enter t .idle
  | _ => none

/-- After the snapshot of a call. -/
def afterSnapshot (call : Call) (s : World) : Phase :=
  if call = .stop ∧ s.snapshot.healthy then .wantStop else .idle

/-- What a thread does next. -/
def advance (t : ℕ) (answer : Answer) (s : World) : Option World :=
  match s.phase t with
  | .idle => none
  | .wantSnapshot call => s.enter t (.polling call)
  | .polling call => s.refreshThen libc false answer t (afterSnapshot call)
  | .wantStop => s.enter t .wantProcess
  | .wantProcess => s.enter t .firstPoll
  | .firstPoll => s.refreshThen libc false answer t fun s =>
      if s.hasPid then .interrupting else .idle
  | .interrupting => { s with stopRequested := true }.signalThen libc .sigint
      "send SIGINT to plugin process" answer t .loopHead
  | .loopHead =>
    match answer with
    | .clock late => s.enter t (if s.hasPid = true ∧ late = false then .loopPoll else .lastPoll)
    | _ => none
  | .loopPoll => s.refreshThen libc false answer t fun s =>
      if s.hasPid then .sleeping else .loopHead
  | .sleeping => s.enter t .loopHead
  | .lastPoll => s.refreshThen libc false answer t fun s => if s.hasPid then .killing else .idle
  | .killing => s.signalThen libc .sigkill "send SIGKILL to plugin process" answer t .reaping
  | .reaping => s.refreshThen libc true answer t fun _ => .idle

/-- A step of the whole: a call begins, a thread goes on, or the child ends. -/
inductive Action
  | begin (t : ℕ) (call : Call)
  | advance (t : ℕ) (answer : Answer)
  | childEnds (status : WaitStatus)

def step (s : World) : Action → Option World
  | .begin t call =>
    if s.phase t = .idle then
      { s with stopBegun := s.stopBegun || decide (call = Call.stop) }.enter t (.wantSnapshot call)
    else none
  | .advance t answer => s.advance libc t answer
  | .childEnds status =>
    if s.child = .running then
      some { s with child := .ended status, endedUnasked := !s.stopBegun }
    else none

def run (s : World) (actions : List Action) : Option World :=
  actions.foldlM (step libc) s

/-- The signals of one kind that were sent. -/
def sent (signal : Signal) (s : World) : ℕ := s.log.count (.signalled signal none)

end World

/-! ### Mutexes -/

section Mutex

variable {holds : Phase → Bool} {phase : ℕ → Phase} {owner : Option ℕ}

/-- A mutex that is owned by the one thread in a phase that holds it stays so when a thread moves
on, if it was free or already its own. -/
theorem mutex_update (h : ∀ u, holds (phase u) = true ↔ owner = some u) {t : ℕ} {q : Phase}
    (hfree : holds q = true → holds (phase t) = true ∨ owner = none) (u : ℕ) :
    holds (Function.update phase t q u) = true ↔
      (if holds q then some t else if holds (phase t) then none else owner) = some u := by
  by_cases hu : u = t
  · subst hu
    rw [Function.update_self]
    cases hq : holds q with
    | true => simp
    | false =>
      cases ht : holds (phase u) with
      | true => simp
      | false =>
        have howner : owner ≠ some u := mt (h u).mpr (by simp [ht])
        simp [howner]
  · rw [Function.update_of_ne hu, h u]
    cases hq : holds q with
    | true =>
      -- Nobody else held it.
      have hother : owner ≠ some u := by
        intro howner
        rcases hfree hq with ht | hnone
        · have hsame := howner.symm.trans ((h t).mp ht)
          exact hu (Option.some_inj.mp hsame)
        · rw [hnone] at howner
          cases howner
      have hne : (some t : Option ℕ) ≠ some u := fun heq => hu (Option.some_inj.mp heq).symm
      simp [hother, hne]
    | false =>
      cases ht : holds (phase t) with
      | true =>
        have hother : owner ≠ some u := by
          intro howner
          have hsame := howner.symm.trans ((h t).mp ht)
          exact hu (Option.some_inj.mp hsame)
        simp [hother]
      | false => simp

end Mutex

/-! ### Moving on -/

/-- What a move of a thread leaves as it was. -/
structure Moved (s s' : World) (t : ℕ) (q : Phase) : Prop where
  phase : s'.phase = Function.update s.phase t q
  hasPid : s'.hasPid = s.hasPid
  snapshot : s'.snapshot = s.snapshot
  log : s'.log = s.log
  processFree : q.holdsProcess = true → (s.phase t).holdsProcess = true ∨ s.processMutex = none
  stopFree : q.holdsStop = true → (s.phase t).holdsStop = true ∨ s.stopMutex = none

theorem World.moved {s s' : World} {t : ℕ} {q : Phase} (h : s.enter t q = some s') :
    Moved s s' t q := by
  rw [World.enter] at h
  split at h
  · cases h
  rename_i hfree
  rw [not_or] at hfree
  obtain rfl := Option.some_inj.mp h
  refine ⟨rfl, rfl, rfl, rfl, fun hq => ?_, fun hq => ?_⟩
  · by_cases ht : (s.phase t).holdsProcess = true
    · exact .inl ht
    · exact .inr (not_not.mp fun hsome => hfree.1 ⟨hq, ht, hsome⟩)
  · by_cases ht : (s.phase t).holdsStop = true
    · exact .inl ht
    · exact .inr (not_not.mp fun hsome => hfree.2 ⟨hq, ht, hsome⟩)

/-- A system call may be logged after the move that follows it. -/
theorem World.enter_logged (s : World) (c : OsCall) (t : ℕ) (q : Phase) :
    (s.logged c).enter t q = (s.enter t q).map fun s => s.logged c := by
  unfold World.enter World.logged
  dsimp only
  split
  · rfl
  · rfl

theorem World.sent_logged (s : World) (signal : Signal) (c : OsCall) :
    (s.logged c).sent signal = s.sent signal + if c = .signalled signal none then 1 else 0 := by
  simp only [World.logged, World.sent, List.count_append, List.count_singleton, beq_iff_eq]

/-! ### The invariant -/

open World

/-- What holds in every state. -/
structure Inv (s : World) : Prop where
  process : ∀ t, (s.phase t).holdsProcess = true ↔ s.processMutex = some t
  stop : ∀ t, (s.phase t).holdsStop = true ↔ s.stopMutex = some t
  begun : ∀ t, (s.phase t).stopping = true → s.stopBegun = true
  requested : s.stopRequested = true → s.stopBegun = true
  /-- a child that ended unasked is found before a stop is requested -/
  unasked : s.endedUnasked = true →
    s.child ≠ .running ∧ s.stopRequested = false ∧ ∀ t, s.phase t ≠ .interrupting
  stopped : s.snapshot.state = .stopped → s.stopRequested = true
  live : ∀ t, s.phase t = .interrupting ∨ s.phase t = .killing → s.hasPid = true
  open_log : s.hasPid = true → ∀ c ∈ s.log, c.final = false
  closed_log : ∀ c ∈ s.log.dropLast, c.final = false
  kills : s.sent .sigkill ≤ 1
  reaping : s.hasPid = true → s.sent .sigkill = 1 → ∃ t, s.phase t = .reaping

theorem Inv.init (snapshot : ProcessSnapshot) (h : snapshot.state ≠ .stopped) :
    Inv { snapshot := snapshot } where
  process := by simp [Phase.holdsProcess]
  stop := by simp [Phase.holdsStop]
  begun := by simp [Phase.stopping]
  requested := by simp
  unasked := by simp
  stopped := fun hstopped => absurd hstopped h
  live := by simp
  open_log := by simp
  closed_log := by simp
  kills := by simp [sent]
  reaping := by simp [sent]

namespace Inv

variable {s s' : World} {t : ℕ} {q : Phase}

/-- Only one thread is in the sections of the process mutex. -/
theorem alone (h : Inv s) (ht : (s.phase t).holdsProcess = true) {u : ℕ}
    (hu : (s.phase u).holdsProcess = true) : u = t :=
  Option.some_inj.mp (((h.process u).mp hu).symm.trans ((h.process t).mp ht))

theorem alone_stop (h : Inv s) (ht : (s.phase t).holdsStop = true) {u : ℕ}
    (hu : (s.phase u).holdsStop = true) : u = t :=
  Option.some_inj.mp (((h.stop u).mp hu).symm.trans ((h.stop t).mp ht))

/-- **A thread moves on.** -/
theorem enter (h : Inv s) (henter : s.enter t q = some s')
    (hstop : q.stopping = true → s.stopBegun = true)
    (hinterrupt : q = .interrupting → s.endedUnasked = false)
    (hlive : q = .interrupting ∨ q = .killing → s.hasPid = true)
    (hreap : s.phase t = .reaping → q ≠ .reaping → s.hasPid = false) : Inv s' := by
  have hmoved := World.moved henter
  rw [World.enter] at henter
  split at henter
  · cases henter
  obtain rfl := Option.some_inj.mp henter
  refine ⟨mutex_update h.process hmoved.processFree, mutex_update h.stop hmoved.stopFree,
    fun u => ?_, h.requested, fun hended => ?_, h.stopped, fun u => ?_, h.open_log, h.closed_log,
    h.kills, fun hpid hsent => ?_⟩
  · dsimp only
    by_cases hu : u = t
    · subst hu
      rw [Function.update_self]
      exact hstop
    · rw [Function.update_of_ne hu]
      exact h.begun u
  · obtain ⟨hchild, hrequested, hphase⟩ := h.unasked hended
    refine ⟨hchild, hrequested, fun u => ?_⟩
    dsimp only
    by_cases hu : u = t
    · subst hu
      rw [Function.update_self]
      intro hq
      exact Bool.false_ne_true ((hinterrupt hq).symm.trans hended)
    · rw [Function.update_of_ne hu]
      exact hphase u
  · dsimp only
    by_cases hu : u = t
    · subst hu
      rw [Function.update_self]
      exact hlive
    · rw [Function.update_of_ne hu]
      exact h.live u
  · -- The thread that reaps does not leave.
    obtain ⟨u, hu⟩ := h.reaping hpid hsent
    by_cases hut : u = t
    · subst hut
      by_cases hq : q = .reaping
      · exact ⟨u, (Function.update_self ..).trans hq⟩
      · exact absurd (hpid.symm.trans (hreap hu hq)) Bool.noConfusion
    · exact ⟨u, (Function.update_of_ne hut ..).trans hu⟩

/-- A system call that does not end the use of the process id. -/
theorem logged (h : Inv s) (hpid : s.hasPid = true) {c : OsCall} (hfinal : c.final = false)
    (hkill : c = .signalled .sigkill none → s.sent .sigkill = 0 ∧ ∃ t, s.phase t = .reaping) :
    Inv (s.logged c) := by
  have hcount := s.sent_logged .sigkill c
  refine { h with
    open_log := fun _ c' hc' => ?_
    closed_log := fun c' hc' => ?_
    kills := ?_
    reaping := fun _ hsent => ?_ }
  · rcases List.mem_append.mp hc' with hc' | hc'
    · exact h.open_log hpid c' hc'
    · rw [List.mem_singleton.mp hc']
      exact hfinal
  · rw [World.logged, List.dropLast_concat] at hc'
    exact h.open_log hpid c' hc'
  · -- A kill is logged at most once, since none was sent before.
    have hle := h.kills
    rw [hcount]
    split
    · rename_i hc
      rw [(hkill hc).1]
    · omega
  · rw [hcount] at hsent
    split at hsent
    · rename_i hc
      exact (hkill hc).2
    · exact h.reaping hpid hsent

/-- The last system call on the process id. -/
theorem finished (h : Inv s) (hpid : s.hasPid = true) (c : OsCall) (child : Child)
    (snapshot : ProcessSnapshot)
    (hnone : ∀ t, ¬ (s.phase t = .interrupting ∨ s.phase t = .killing))
    (hc : ∀ signal, c ≠ .signalled signal none)
    (hchild : s.endedUnasked = true → child ≠ .running)
    (hstopped : snapshot.state = .stopped → s.stopRequested = true) :
    Inv { s.logged c with hasPid := false, child := child, snapshot := snapshot } := by
  have hcount : (s.logged c).sent .sigkill = s.sent .sigkill := by
    rw [World.sent_logged, if_neg (hc .sigkill), Nat.add_zero]
  refine { h with
    unasked := fun hended => ⟨hchild hended, (h.unasked hended).2⟩
    stopped := hstopped
    live := fun t ht => absurd ht (hnone t)
    open_log := fun hfalse => absurd hfalse Bool.noConfusion
    closed_log := fun c' hc' => ?_
    kills := hcount.trans_le h.kills
    reaping := fun hfalse => absurd hfalse Bool.noConfusion }
  rw [World.logged, List.dropLast_concat] at hc'
  exact h.open_log hpid c' hc'

theorem reapedSnapshot_stopped {libc : Libc} {stopRequested : Bool} {status : WaitStatus}
    {snapshot : ProcessSnapshot}
    (h : (reapedSnapshot libc stopRequested status snapshot).state = .stopped) :
    stopRequested = true := by
  cases stopRequested with
  | true => rfl
  | false =>
    exfalso
    revert h
    simp only [reapedSnapshot, Bool.false_eq_true, if_false]
    cases status with
    | exited code =>
      dsimp only
      split <;> exact fun h => by cases h
    | signaled signal => exact fun h => by cases h
    | other => exact fun h => by cases h

/-- **One poll** by a thread with the process mutex. -/
theorem refresh {libc : Libc} {block done : Bool} {answer : Answer} (h : Inv s)
    (hphase : (s.phase t).holdsProcess = true)
    (hpoll : ¬ (s.phase t = .interrupting ∨ s.phase t = .killing))
    (hrefresh : s.refresh libc block answer = some (done, s')) :
    Inv s' ∧ s'.phase = s.phase ∧ s'.stopBegun = s.stopBegun ∧
      (done = true → s'.hasPid = true → block = false ∧ s'.endedUnasked = false) := by
  unfold World.refresh at hrefresh
  split at hrefresh
  · rename_i hpid
    obtain ⟨rfl, rfl⟩ := Prod.mk.inj (Option.some_inj.mp hrefresh)
    exact ⟨h, rfl, rfl, fun _ htrue => absurd (hpid.symm.trans htrue) Bool.noConfusion⟩
  rename_i hpid
  rw [Bool.not_eq_false] at hpid
  -- No other thread is at a signal, since that needs the process mutex.
  have hnone : ∀ u, ¬ (s.phase u = .interrupting ∨ s.phase u = .killing) := by
    intro u hu
    have hholds : (s.phase u).holdsProcess = true := by
      rcases hu with hu | hu <;> rw [hu] <;> rfl
    rw [h.alone hphase hholds] at hu
    exact hpoll hu
  cases answer with
  | kill => cases hrefresh
  | clock => cases hrefresh
  | go => cases hrefresh
  | wait answer =>
  cases answer with
  | interrupted =>
    obtain ⟨rfl, rfl⟩ := Prod.mk.inj (Option.some_inj.mp hrefresh)
    exact ⟨h.logged hpid rfl fun hc => (by cases hc), rfl, rfl, fun hdone => by cases hdone⟩
  | pending =>
    dsimp only at hrefresh
    split at hrefresh
    · rename_i hpending
      obtain ⟨rfl, rfl⟩ := Prod.mk.inj (Option.some_inj.mp hrefresh)
      refine ⟨h.logged hpid rfl fun hc => (by cases hc), rfl, rfl, fun _ _ => ⟨hpending.1, ?_⟩⟩
      -- The child is running, so it has not ended unasked.
      rw [← Bool.not_eq_true]
      exact fun hended => (h.unasked hended).1 hpending.2
    · cases hrefresh
  | child =>
    dsimp only at hrefresh
    split at hrefresh
    · obtain ⟨rfl, rfl⟩ := Prod.mk.inj (Option.some_inj.mp hrefresh)
      exact ⟨h.finished hpid _ _ _ hnone (fun _ hc => by cases hc) (fun _ hc => by cases hc)
        reapedSnapshot_stopped, rfl, rfl, fun _ hfalse => by cases hfalse⟩
    · cases hrefresh
  | failed errno =>
    obtain ⟨rfl, rfl⟩ := Prod.mk.inj (Option.some_inj.mp hrefresh)
    exact ⟨h.finished hpid _ _ _ hnone (fun _ hc => by cases hc)
      (fun hended => (h.unasked hended).1) (fun hstopped => by cases hstopped), rfl, rfl,
      fun _ hfalse => by cases hfalse⟩

/-- A poll and what the thread does after it. -/
theorem refreshThen {libc : Libc} {block : Bool} {answer : Answer} {next : World → Phase}
    (h : Inv s) (hphase : (s.phase t).holdsProcess = true)
    (hpoll : ¬ (s.phase t = .interrupting ∨ s.phase t = .killing))
    (hthen : s.refreshThen libc block answer t next = some s')
    (hnext : ∀ s₁, (next s₁).stopping = true → s.stopBegun = true)
    (hlive : ∀ s₁, next s₁ = .interrupting ∨ next s₁ = .killing → s₁.hasPid = true)
    (hreap : s.phase t = .reaping → block = true) : Inv s' := by
  rw [World.refreshThen] at hthen
  split at hthen
  · cases hthen
  · rename_i s₁ hrefresh
    obtain rfl := Option.some_inj.mp hthen
    exact (h.refresh hphase hpoll hrefresh).1
  · rename_i s₁ hrefresh
    obtain ⟨h₁, hphase₁, hbegun, hdone⟩ := h.refresh hphase hpoll hrefresh
    refine h₁.enter hthen ?_ ?_ (hlive s₁) ?_
    · rw [hbegun]
      exact hnext s₁
    · exact fun hq => (hdone rfl (hlive s₁ (.inl hq))).2
    · intro hreaping _
      rw [hphase₁] at hreaping
      rw [← Bool.not_eq_true]
      intro hpid
      exact absurd ((hreap hreaping).symm.trans (hdone rfl hpid).1) Bool.noConfusion

/-- **One signal** by a thread that has checked the process id. -/
theorem signalThen {libc : Libc} {signal : Signal} {operation : String} {answer : Answer}
    {next : Phase} (h : Inv s) (hpid : s.hasPid = true) (hphase : s.phase t ≠ .reaping)
    (hbegun : s.stopBegun = true) (hnext : ¬ (next = .interrupting ∨ next = .killing))
    (hkill : signal = .sigkill → s.sent .sigkill = 0 ∧ next = .reaping)
    (hthen : s.signalThen libc signal operation answer t next = some s') : Inv s' := by
  -- A signal that fails sends the thread back to idle.
  have hidle : ∀ {s₁ : World}, Inv s₁ → s₁.phase = s.phase → s₁.enter t .idle = some s' →
      Inv s' := by
    intro s₁ h₁ hsame henter
    refine h₁.enter henter (fun hq => by cases hq) (fun hq => by cases hq) (fun hq => ?_)
      fun hreap => ?_
    · rcases hq with hq | hq <;> cases hq
    · rw [hsame] at hreap
      exact absurd hreap hphase
  cases answer with
  | wait => cases hthen
  | clock => cases hthen
  | go => cases hthen
  | kill errno =>
  cases errno with
  | none =>
    -- The signal was sent: it is logged before the thread goes on.
    simp only [World.signalThen, World.enter_logged] at hthen
    obtain ⟨s₁, henter, rfl⟩ := Option.map_eq_some_iff.mp hthen
    have hmoved := World.moved henter
    have h₁ : Inv s₁ := h.enter henter (fun _ => hbegun) (fun hq => absurd (.inl hq) hnext)
      (fun hq => absurd hq hnext) fun hreap => absurd hreap hphase
    refine h₁.logged (hmoved.hasPid.trans hpid) rfl fun hc => ?_
    obtain ⟨hsent, rfl⟩ := hkill (OsCall.signalled.inj hc).1
    refine ⟨?_, t, ?_⟩
    · rw [World.sent, hmoved.log]
      exact hsent
    · rw [hmoved.phase, Function.update_self]
  | some errno =>
    have hlogged := h.logged hpid (c := .signalled signal (some errno)) rfl
      fun hc => (by cases hc)
    have herror : Inv { s.logged (.signalled signal (some errno)) with
        snapshot := signalErrorSnapshot libc errno operation s.snapshot } :=
      { hlogged with stopped := fun hstopped => by cases hstopped }
    exact hidle herror rfl hthen

/-- A thread goes on. -/
theorem advance {libc : Libc} {answer : Answer} (h : Inv s)
    (hadvance : s.advance libc t answer = some s') : Inv s' := by
  have hbegun := h.begun t
  -- A move without a system call.
  have hmove : ∀ {q : Phase}, s.phase t ≠ .reaping → (q.stopping = true → s.stopBegun = true) →
      q ≠ .interrupting → q ≠ .killing → s.enter t q = some s' → Inv s' := by
    intro q hreap hstop hint hkill henter
    refine h.enter henter hstop (fun hq => absurd hq hint) (fun hq => ?_)
      fun hreaping => absurd hreaping hreap
    rcases hq with hq | hq
    · exact absurd hq hint
    · exact absurd hq hkill
  -- A poll, after which the thread may go to a signal only with a process id.
  have hpoll : ∀ {block : Bool} {next : World → Phase}, (s.phase t).holdsProcess = true →
      ¬ (s.phase t = .interrupting ∨ s.phase t = .killing) →
      (∀ s₁, (next s₁).stopping = true → s.stopBegun = true) →
      (∀ s₁, next s₁ = .interrupting ∨ next s₁ = .killing → s₁.hasPid = true) →
      (s.phase t = .reaping → block = true) →
      s.refreshThen libc block answer t next = some s' → Inv s' :=
    fun hholds hquiet hnext hlive hreap hthen =>
      h.refreshThen hholds hquiet hthen hnext hlive hreap
  unfold World.advance at hadvance
  cases hp : s.phase t with
  | idle =>
    rw [hp] at hadvance
    cases hadvance
  | wantSnapshot call =>
    rw [hp] at hadvance hbegun
    refine hmove (by simp [hp]) (fun hq => hbegun ?_) (by simp) (by simp) hadvance
    cases call <;> exact hq
  | polling call =>
    rw [hp] at hadvance hbegun
    refine hpoll (by rw [hp]; rfl) (by simp [hp]) (fun s₁ hq => ?_) (fun s₁ hq => ?_)
      (by simp [hp]) hadvance
    · simp only [afterSnapshot] at hq
      split at hq
      · rename_i hstop
        exact hbegun (by rw [hstop.1]; rfl)
      · cases hq
    · simp only [afterSnapshot] at hq
      split at hq <;> simp at hq
  | wantStop =>
    rw [hp] at hadvance hbegun
    exact hmove (by simp [hp]) (fun _ => hbegun rfl) (by simp) (by simp) hadvance
  | wantProcess =>
    rw [hp] at hadvance hbegun
    exact hmove (by simp [hp]) (fun _ => hbegun rfl) (by simp) (by simp) hadvance
  | firstPoll =>
    rw [hp] at hadvance hbegun
    refine hpoll (by rw [hp]; rfl) (by simp [hp]) (fun _ _ => hbegun rfl) (fun s₁ hq => ?_)
      (by simp [hp]) hadvance
    cases hpid : s₁.hasPid with
    | true => rfl
    | false => simp [hpid] at hq
  | interrupting =>
    rw [hp] at hadvance hbegun
    have hpid := h.live t (.inl hp)
    -- The stop is requested; this child had not ended before.
    have hrequested : Inv { s with stopRequested := true } :=
      { h with
        requested := fun _ => hbegun rfl
        unasked := fun hended => absurd hp ((h.unasked hended).2.2 t)
        stopped := fun _ => rfl }
    exact hrequested.signalThen hpid (by simp [hp]) (hbegun rfl) (by simp)
      (fun hsignal => by cases hsignal) hadvance
  | loopHead =>
    rw [hp] at hadvance hbegun
    cases answer with
    | clock late =>
      refine hmove (by simp [hp]) (fun _ => hbegun rfl) ?_ ?_ hadvance
      · split <;> simp
      · split <;> simp
    | _ => cases hadvance
  | loopPoll =>
    rw [hp] at hadvance hbegun
    refine hpoll (by rw [hp]; rfl) (by simp [hp]) (fun _ _ => hbegun rfl) (fun s₁ hq => ?_)
      (by simp [hp]) hadvance
    split at hq <;> simp at hq
  | sleeping =>
    rw [hp] at hadvance hbegun
    exact hmove (by simp [hp]) (fun _ => hbegun rfl) (by simp) (by simp) hadvance
  | lastPoll =>
    rw [hp] at hadvance hbegun
    refine hpoll (by rw [hp]; rfl) (by simp [hp]) (fun _ _ => hbegun rfl) (fun s₁ hq => ?_)
      (by simp [hp]) hadvance
    cases hpid : s₁.hasPid with
    | true => rfl
    | false => simp [hpid] at hq
  | killing =>
    rw [hp] at hadvance hbegun
    have hpid := h.live t (.inr hp)
    -- Nobody is reaping, so nothing was killed yet.
    have hsent : s.sent .sigkill = 0 := by
      have hle := h.kills
      by_contra hne
      obtain ⟨u, hu⟩ := h.reaping hpid (by omega)
      have hut := h.alone (t := t) (by rw [hp]; rfl) (u := u) (by rw [hu]; rfl)
      rw [hut, hp] at hu
      cases hu
    exact h.signalThen hpid (by simp [hp]) (hbegun rfl) (by simp) (fun _ => ⟨hsent, rfl⟩) hadvance
  | reaping =>
    rw [hp] at hadvance
    exact hpoll (by rw [hp]; rfl) (by simp [hp]) (fun _ hq => by cases hq)
      (fun _ hq => by simp at hq) (fun _ => rfl) hadvance

/-- **One step.** -/
theorem step {libc : Libc} {action : Action} (h : Inv s)
    (hstep : s.step libc action = some s') : Inv s' := by
  cases action with
  | begin t call =>
    simp only [World.step] at hstep
    split at hstep
    · rename_i hidle
      -- A stop is noted when it begins, before any signal.
      have hbegun : Inv { s with stopBegun := s.stopBegun || decide (call = Call.stop) } :=
        { h with
          begun := fun t ht => by simp [h.begun t ht]
          requested := fun hrequested => by simp [h.requested hrequested] }
      refine hbegun.enter hstep (fun hq => ?_) (fun hq => by cases hq) (fun hq => ?_)
        fun hreap => ?_
      · cases call with
        | stop => simp
        | getProcessSnapshot => cases hq
        | checkHealth => cases hq
      · rcases hq with hq | hq <;> cases hq
      · rw [hidle] at hreap
        cases hreap
    · cases hstep
  | advance t answer => exact h.advance hstep
  | childEnds status =>
    simp only [World.step] at hstep
    split at hstep
    · obtain rfl := Option.some_inj.mp hstep
      -- The child ends by itself only if no stop had begun.
      refine { h with unasked := fun hended => ⟨fun hrunning => (by cases hrunning), ?_, ?_⟩ }
      · have hnone : s.stopBegun = false := by simpa using hended
        rw [← Bool.not_eq_true]
        exact fun hrequested => absurd (hnone.symm.trans (h.requested hrequested)) Bool.noConfusion
      · intro t hp
        have hnone : s.stopBegun = false := by simpa using hended
        have hp' : s.phase t = .interrupting := hp
        have hbegun := h.begun t (by rw [hp']; rfl)
        exact absurd (hnone.symm.trans hbegun) Bool.noConfusion
    · cases hstep

end Inv

/-! ### What a poll keeps -/

variable {s s' : World} {t : ℕ} {q : Phase} {libc : Libc}

/-- What a poll leaves as it was. -/
structure Polled (s s' : World) (block done : Bool) : Prop where
  phase : s'.phase = s.phase
  sent : ∀ signal, s'.sent signal = s.sent signal
  /-- the child is still there -/
  open_pid : s'.hasPid = true →
    s.hasPid = true ∧ s'.snapshot = s.snapshot ∧ (done = true → block = false)
  /-- nothing is asked of a child that is not -/
  closed_pid : s.hasPid = false → s' = s

theorem World.polled {block done : Bool} {answer : Answer}
    (h : s.refresh libc block answer = some (done, s')) : Polled s s' block done := by
  -- A wait sends no signal.
  have hsent : ∀ (answer : WaitAnswer) (signal : Signal),
      (s.logged (.waited answer)).sent signal = s.sent signal := by
    intro answer signal
    rw [World.sent_logged, if_neg (fun hc => by cases hc)]
    rfl
  unfold World.refresh at h
  split at h
  · rename_i hpid
    obtain ⟨rfl, rfl⟩ := Prod.mk.inj (Option.some_inj.mp h)
    exact ⟨rfl, fun _ => rfl, fun htrue => absurd (hpid.symm.trans htrue) Bool.noConfusion,
      fun _ => rfl⟩
  rename_i hpid
  have hopen : s.hasPid = true := Bool.not_eq_false _ ▸ hpid
  cases answer with
  | kill => cases h
  | clock => cases h
  | go => cases h
  | wait answer =>
  cases answer with
  | interrupted =>
    obtain ⟨rfl, rfl⟩ := Prod.mk.inj (Option.some_inj.mp h)
    exact ⟨rfl, hsent _, fun _ => ⟨hopen, rfl, fun hdone => by cases hdone⟩,
      fun hfalse => absurd hfalse hpid⟩
  | pending =>
    dsimp only at h
    split at h
    · rename_i hpending
      obtain ⟨rfl, rfl⟩ := Prod.mk.inj (Option.some_inj.mp h)
      exact ⟨rfl, hsent _, fun _ => ⟨hopen, rfl, fun _ => hpending.1⟩,
        fun hfalse => absurd hfalse hpid⟩
    · cases h
  | child =>
    dsimp only at h
    split at h
    · obtain ⟨rfl, rfl⟩ := Prod.mk.inj (Option.some_inj.mp h)
      exact ⟨rfl, hsent _, fun htrue => (by cases htrue), fun hfalse => absurd hfalse hpid⟩
    · cases h
  | failed errno =>
    obtain ⟨rfl, rfl⟩ := Prod.mk.inj (Option.some_inj.mp h)
    exact ⟨rfl, hsent _, fun htrue => (by cases htrue), fun hfalse => absurd hfalse hpid⟩

/-! ### After the end -/

/-- The process id is gone, and what was reported and done stays. -/
structure Frozen (s s' : World) : Prop where
  hasPid : s'.hasPid = false
  snapshot : s'.snapshot = s.snapshot
  log : s'.log = s.log

theorem Frozen.refl (h : s.hasPid = false) : Frozen s s := ⟨h, rfl, rfl⟩

theorem Frozen.trans {s₁ s₂ s₃ : World} (h : Frozen s₁ s₂) (h' : Frozen s₂ s₃) : Frozen s₁ s₃ :=
  ⟨h'.hasPid, h'.snapshot.trans h.snapshot, h'.log.trans h.log⟩

theorem Frozen.moved (h : s.hasPid = false) (henter : s.enter t q = some s') : Frozen s s' := by
  have hmoved := World.moved henter
  exact ⟨hmoved.hasPid.trans h, hmoved.snapshot, hmoved.log⟩

theorem Frozen.polled {block : Bool} {answer : Answer} {next : World → Phase}
    (h : s.hasPid = false) (hthen : s.refreshThen libc block answer t next = some s') :
    Frozen s s' := by
  rw [World.refreshThen] at hthen
  split at hthen
  · cases hthen
  · rename_i s₁ hrefresh
    obtain rfl := Option.some_inj.mp hthen
    rw [(World.polled hrefresh).closed_pid h]
    exact Frozen.refl h
  · rename_i s₁ hrefresh
    obtain rfl := (World.polled hrefresh).closed_pid h
    exact Frozen.moved h hthen

/-- **No system call after the last**: a signal needs a process id, and a poll checks it. -/
theorem Frozen.step {action : Action} (hinv : Inv s) (h : s.hasPid = false)
    (hstep : s.step libc action = some s') : Frozen s s' := by
  cases action with
  | begin t call =>
    simp only [World.step] at hstep
    split at hstep
    · have hmoved := World.moved hstep
      exact ⟨hmoved.hasPid.trans h, hmoved.snapshot, hmoved.log⟩
    · cases hstep
  | childEnds status =>
    simp only [World.step] at hstep
    split at hstep
    · obtain rfl := Option.some_inj.mp hstep
      exact ⟨h, rfl, rfl⟩
    · cases hstep
  | advance t answer =>
    -- Nobody signals without a pid.
    have hlive : ¬ (s.phase t = .interrupting ∨ s.phase t = .killing) := fun hp =>
      absurd (h.symm.trans (hinv.live t hp)) Bool.noConfusion
    simp only [World.step, World.advance] at hstep
    cases hp : s.phase t with
    | idle =>
      rw [hp] at hstep
      cases hstep
    | interrupting => exact absurd (.inl hp) hlive
    | killing => exact absurd (.inr hp) hlive
    | wantSnapshot call =>
      rw [hp] at hstep
      exact Frozen.moved h hstep
    | wantStop =>
      rw [hp] at hstep
      exact Frozen.moved h hstep
    | wantProcess =>
      rw [hp] at hstep
      exact Frozen.moved h hstep
    | sleeping =>
      rw [hp] at hstep
      exact Frozen.moved h hstep
    | loopHead =>
      rw [hp] at hstep
      cases answer with
      | clock late => exact Frozen.moved h hstep
      | _ => cases hstep
    | polling call =>
      rw [hp] at hstep
      exact Frozen.polled h hstep
    | firstPoll =>
      rw [hp] at hstep
      exact Frozen.polled h hstep
    | loopPoll =>
      rw [hp] at hstep
      exact Frozen.polled h hstep
    | lastPoll =>
      rw [hp] at hstep
      exact Frozen.polled h hstep
    | reaping =>
      rw [hp] at hstep
      exact Frozen.polled h hstep

/-! ### One interrupt -/

/-- After an interrupt that was sent, its stop is under way, or an error keeps every other stop
from coming. -/
structure Single (s : World) : Prop where
  once : s.sent .sigint ≤ 1
  closed : s.hasPid = true → s.sent .sigint = 1 →
    (∃ t, (s.phase t).interrupted = true) ∨
      (s.snapshot.state = .error ∧ ∀ t, (s.phase t).approaching = false)

/-- A kill fails while another stop, past its health check, waits for the one at work. -/
def Overtaken (s : World) : Action → Prop
  | .advance t (.kill (some _)) => s.phase t = .killing ∧ ∃ u, s.phase u = .wantStop
  | _ => False

namespace Single

/-- A thread moves on. -/
theorem enter (h : Single s) (henter : s.enter t q = some s')
    (hinterrupted : (s.phase t).interrupted = true → s.hasPid = true → q.interrupted = true)
    (happroach : q.approaching = true →
      (s.phase t).approaching = true ∨ s.snapshot.state ≠ .error) : Single s' := by
  have hmoved := World.moved henter
  have hsent : s'.sent .sigint = s.sent .sigint := by rw [World.sent, World.sent, hmoved.log]
  refine ⟨hsent.trans_le h.once, fun hpid hone => ?_⟩
  rw [hmoved.hasPid] at hpid
  rw [hmoved.phase, hmoved.snapshot]
  rcases h.closed hpid (hsent.symm.trans hone) with ⟨u, hu⟩ | ⟨herror, hnone⟩
  · left
    by_cases hut : u = t
    · subst hut
      exact ⟨u, by rw [Function.update_self]; exact hinterrupted hu hpid⟩
    · exact ⟨u, by rw [Function.update_of_ne hut]; exact hu⟩
  · right
    refine ⟨herror, fun u => ?_⟩
    by_cases hut : u = t
    · subst hut
      rw [Function.update_self, ← Bool.not_eq_true]
      intro hq
      rcases happroach hq with ht | hne
      · exact absurd ((hnone u).symm.trans ht) Bool.noConfusion
      · exact hne herror
    · rw [Function.update_of_ne hut]
      exact hnone u

/-- A poll and what the thread does after it. -/
theorem refreshThen {block : Bool} {answer : Answer} {next : World → Phase} (h : Single s)
    (hthen : s.refreshThen libc block answer t next = some s')
    (hinterrupted : ∀ s₁, (s.phase t).interrupted = true → block = false → s₁.hasPid = true →
      (next s₁).interrupted = true)
    (happroach : ∀ s₁, (next s₁).approaching = true →
      (s.phase t).approaching = true ∨ s₁.snapshot.state ≠ .error) : Single s' := by
  have hpolled : ∀ {done : Bool} {s₁ : World}, s.refresh libc block answer = some (done, s₁) →
      Single s₁ := by
    intro done s₁ hrefresh
    have hkept := World.polled hrefresh
    refine ⟨(hkept.sent _).trans_le h.once, fun hpid hone => ?_⟩
    obtain ⟨hopen, hsnapshot, -⟩ := hkept.open_pid hpid
    rw [hkept.phase, hsnapshot]
    exact h.closed hopen ((hkept.sent _).symm.trans hone)
  rw [World.refreshThen] at hthen
  split at hthen
  · cases hthen
  · rename_i s₁ hrefresh
    obtain rfl := Option.some_inj.mp hthen
    exact hpolled hrefresh
  · rename_i s₁ hrefresh
    have hkept := World.polled hrefresh
    refine (hpolled hrefresh).enter hthen (fun hphase hpid => ?_) fun hq => ?_
    · rw [hkept.phase] at hphase
      exact hinterrupted s₁ hphase ((hkept.open_pid hpid).2.2 rfl) hpid
    · rw [hkept.phase]
      exact happroach s₁ hq

/-- **The interrupt** is the first. -/
theorem interrupt {answer : Answer} {operation : String} (hzero : s.sent .sigint = 0)
    (hthen : s.signalThen libc .sigint operation answer t .loopHead = some s') : Single s' := by
  cases answer with
  | wait => cases hthen
  | clock => cases hthen
  | go => cases hthen
  | kill errno =>
  cases errno with
  | none =>
    have hmoved := World.moved hthen
    have hone : s'.sent .sigint = 1 := by
      have hlogged := s.sent_logged .sigint (.signalled .sigint none)
      rw [if_pos rfl, hzero] at hlogged
      rw [World.sent, hmoved.log]
      exact hlogged
    refine ⟨hone.le, fun _ _ => .inl ⟨t, ?_⟩⟩
    rw [hmoved.phase, Function.update_self]
    rfl
  | some errno =>
    have hmoved := World.moved hthen
    have hnone : s'.sent .sigint = 0 := by
      have hlogged := s.sent_logged .sigint (.signalled .sigint (some errno))
      rw [if_neg (fun hc => by cases hc), hzero] at hlogged
      rw [World.sent, hmoved.log]
      exact hlogged
    exact ⟨by omega, fun _ hone => by omega⟩

/-- **The kill**: when it fails, the error is there before any other stop comes. -/
theorem kill {answer : Answer} {operation : String} (h : Single s) (hinv : Inv s)
    (hp : s.phase t = .killing) (hguard : ¬ Overtaken s (.advance t answer))
    (hthen : s.signalThen libc .sigkill operation answer t .reaping = some s') : Single s' := by
  cases answer with
  | wait => cases hthen
  | clock => cases hthen
  | go => cases hthen
  | kill errno =>
  have hkept : ∀ log, log = (s.logged (.signalled .sigkill errno)).log →
      log.count (.signalled .sigint none) = s.sent .sigint := by
    intro log hlog
    have hlogged := s.sent_logged .sigint (.signalled .sigkill errno)
    rw [if_neg (fun hc => by cases hc)] at hlogged
    rw [hlog]
    exact hlogged
  cases errno with
  | none =>
    have hmoved := World.moved hthen
    refine ⟨(hkept _ hmoved.log).trans_le h.once, fun _ _ => .inl ⟨t, ?_⟩⟩
    rw [hmoved.phase, Function.update_self]
    rfl
  | some errno =>
    have hmoved := World.moved hthen
    refine ⟨(hkept _ hmoved.log).trans_le h.once, fun _ _ => .inr ⟨?_, fun u => ?_⟩⟩
    · rw [hmoved.snapshot]
      rfl
    · rw [hmoved.phase]
      by_cases hut : u = t
      · rw [hut, Function.update_self]
        rfl
      rw [Function.update_of_ne hut, ← Bool.not_eq_true]
      intro happroach
      -- It would wait for the stop mutex, which the guard excludes, or hold it.
      have hwait : s.phase u ≠ .wantStop := fun hu => hguard ⟨hp, u, hu⟩
      have hholds : (s.phase u).holdsStop = true := by
        have happroach' : (s.phase u).approaching = true := happroach
        revert happroach' hwait
        cases s.phase u <;> simp [Phase.approaching, Phase.holdsStop]
      exact hut (hinv.alone_stop (by rw [hp]; rfl) hholds)

/-- A thread goes on. -/
theorem advance {answer : Answer} (h : Single s) (hinv : Inv s)
    (hguard : ¬ Overtaken s (.advance t answer))
    (hadvance : s.advance libc t answer = some s') : Single s' := by
  unfold World.advance at hadvance
  cases hp : s.phase t with
  | idle =>
    rw [hp] at hadvance
    cases hadvance
  | wantSnapshot call =>
    rw [hp] at hadvance
    exact h.enter hadvance (by simp [hp, Phase.interrupted]) (by simp [Phase.approaching])
  | polling call =>
    rw [hp] at hadvance
    refine h.refreshThen hadvance (by simp [hp, Phase.interrupted]) fun s₁ hq => .inr ?_
    -- Only a healthy snapshot lets a stop go on.
    intro herror
    simp [afterSnapshot, ProcessSnapshot.healthy, herror, Phase.approaching] at hq
  | wantStop =>
    rw [hp] at hadvance
    exact h.enter hadvance (by simp [hp, Phase.interrupted]) (by simp [hp, Phase.approaching])
  | wantProcess =>
    rw [hp] at hadvance
    exact h.enter hadvance (by simp [hp, Phase.interrupted]) (by simp [hp, Phase.approaching])
  | firstPoll =>
    rw [hp] at hadvance
    exact h.refreshThen hadvance (by simp [hp, Phase.interrupted])
      (by simp [hp, Phase.approaching])
  | interrupting =>
    rw [hp] at hadvance
    -- Nobody was interrupted yet: that stop would hold the mutex, or the error be known.
    have hzero : s.sent .sigint = 0 := by
      have hle := h.once
      by_contra hne
      rcases h.closed (hinv.live t (.inl hp)) (by omega) with ⟨u, hu⟩ | ⟨-, hnone⟩
      · have hholds : (s.phase u).holdsStop = true := by
          revert hu
          cases s.phase u <;> simp [Phase.interrupted, Phase.holdsStop]
        have hut := hinv.alone_stop (t := t) (by rw [hp]; rfl) hholds
        rw [hut, hp] at hu
        cases hu
      · have happroach := hnone t
        rw [hp] at happroach
        cases happroach
    exact Single.interrupt (s := { s with stopRequested := true }) hzero hadvance
  | loopHead =>
    rw [hp] at hadvance
    cases answer with
    | clock late =>
      refine h.enter hadvance (fun _ _ => ?_) fun hq => ?_
      · split <;> rfl
      · split at hq <;> cases hq
    | _ => cases hadvance
  | loopPoll =>
    rw [hp] at hadvance
    refine h.refreshThen hadvance (fun s₁ _ _ hpid => ?_) fun s₁ hq => ?_
    · rw [if_pos hpid]
      rfl
    · split at hq <;> cases hq
  | sleeping =>
    rw [hp] at hadvance
    exact h.enter hadvance (fun _ _ => rfl) (by simp [Phase.approaching])
  | lastPoll =>
    rw [hp] at hadvance
    refine h.refreshThen hadvance (fun s₁ _ _ hpid => ?_) fun s₁ hq => ?_
    · rw [if_pos hpid]
      rfl
    · split at hq <;> cases hq
  | killing =>
    rw [hp] at hadvance
    exact h.kill hinv hp hguard hadvance
  | reaping =>
    rw [hp] at hadvance
    exact h.refreshThen hadvance (fun _ _ hblock => by cases hblock) (by simp [Phase.approaching])

/-- **One step** at which no kill is overtaken. -/
theorem step {action : Action} (h : Single s) (hinv : Inv s) (hguard : ¬ Overtaken s action)
    (hstep : s.step libc action = some s') : Single s' := by
  cases action with
  | begin t call =>
    simp only [World.step] at hstep
    split at hstep
    · rename_i hidle
      have hbegun : Single { s with stopBegun := s.stopBegun || decide (call = Call.stop) } :=
        ⟨h.once, h.closed⟩
      exact hbegun.enter hstep (by simp [hidle, Phase.interrupted]) (by simp [Phase.approaching])
    · cases hstep
  | advance t answer => exact h.advance hinv hguard hstep
  | childEnds status =>
    simp only [World.step] at hstep
    split at hstep
    · obtain rfl := Option.some_inj.mp hstep
      exact ⟨h.once, h.closed⟩
    · cases hstep

end Single

/-! ### Runs -/

/-- A plugin that has been started. -/
def World.started (pid : ℤ) : World := { snapshot := { pid := pid } }

/-- No kill of the run is overtaken. -/
def Guarded (libc : Libc) (s : World) : List Action → Prop
  | [] => True
  | action :: actions => ¬ Overtaken s action ∧
      ∀ s', s.step libc action = some s' → Guarded libc s' actions

theorem World.run_cons {action : Action} {actions : List Action}
    (h : s.run libc (action :: actions) = some s') :
    ∃ s₁, s.step libc action = some s₁ ∧ s₁.run libc actions = some s' := by
  rw [World.run, List.foldlM_cons] at h
  exact Option.bind_eq_some_iff.mp h

theorem Inv.run {actions : List Action} :
    ∀ {s : World}, Inv s → s.run libc actions = some s' → Inv s' := by
  induction actions with
  | nil =>
    intro s h hrun
    obtain rfl := Option.some_inj.mp hrun
    exact h
  | cons action actions ih =>
    intro s h hrun
    obtain ⟨s₁, hstep, hrest⟩ := World.run_cons hrun
    exact ih (h.step hstep) hrest

theorem Frozen.run {actions : List Action} :
    ∀ {s : World}, Inv s → s.hasPid = false → s.run libc actions = some s' → Frozen s s' := by
  induction actions with
  | nil =>
    intro s _ hpid hrun
    obtain rfl := Option.some_inj.mp hrun
    exact Frozen.refl hpid
  | cons action actions ih =>
    intro s h hpid hrun
    obtain ⟨s₁, hstep, hrest⟩ := World.run_cons hrun
    have hfrozen := Frozen.step h hpid hstep
    exact hfrozen.trans (ih (h.step hstep) hfrozen.hasPid hrest)

theorem Single.run {actions : List Action} :
    ∀ {s : World}, Inv s → Single s → Guarded libc s actions → s.run libc actions = some s' →
      Single s' := by
  induction actions with
  | nil =>
    intro s _ h _ hrun
    obtain rfl := Option.some_inj.mp hrun
    exact h
  | cons action actions ih =>
    intro s hinv h hguard hrun
    obtain ⟨s₁, hstep, hrest⟩ := World.run_cons hrun
    exact ih (hinv.step hstep) (h.step hinv hguard.1 hstep) (hguard.2 s₁ hstep) hrest

theorem Inv.started (pid : ℤ) : Inv (World.started pid) :=
  Inv.init { pid := pid } fun hstopped => by cases hstopped

theorem Single.started (pid : ℤ) : Single (World.started pid) :=
  ⟨Nat.zero_le 1, fun _ hone => by cases hone⟩

/-- **All runs of the threads.**  The wait that returns the child, or fails for good, is the last
system call, and nothing that is reported changes after it.  At most one SIGKILL is sent, and at
most one SIGINT while no kill is overtaken.  A child that ended before the first stop is not
reported as stopped. -/
theorem process_state_machine (libc : Libc) (pid : ℤ) (actions : List Action) (s : World)
    (hrun : (started pid).run libc actions = some s) :
    (∀ c ∈ s.log.dropLast, c.final = false) ∧
    ((∃ c ∈ s.log, c.final = true) → ∀ later s', s.run libc later = some s' →
      s'.snapshot = s.snapshot ∧ s'.log = s.log) ∧
    s.sent .sigkill ≤ 1 ∧
    (Guarded libc (started pid) actions → s.sent .sigint ≤ 1) ∧
    (s.endedUnasked = true → s.snapshot.state ≠ .stopped) := by
  have hinv : Inv s := (Inv.started pid).run hrun
  refine ⟨hinv.closed_log, ?_, hinv.kills, ?_, ?_⟩
  · rintro ⟨c, hc, hfinal⟩ later s' hlater
    have hpid : s.hasPid = false := by
      rw [← Bool.not_eq_true]
      intro hopen
      exact absurd (hfinal.symm.trans (hinv.open_log hopen c hc)) Bool.noConfusion
    have hfrozen := Frozen.run hinv hpid hlater
    exact ⟨hfrozen.snapshot, hfrozen.log⟩
  · intro hguard
    exact (Single.run (Inv.started pid) (Single.started pid) hguard hrun).once
  · intro hended hstopped
    have hrequested := hinv.stopped hstopped
    rw [(hinv.unasked hended).2.1] at hrequested
    cases hrequested

/-- A C library that knows no name. -/
def Libc.silent : Libc := ⟨fun _ => "", fun _ => none⟩

/-- A stop, up to its interrupt. -/
def interruption (t : ℕ) : List Action :=
  [.advance t .go, .advance t .go, .advance t (.wait .pending), .advance t (.kill none)]

/-- The check of the health at the beginning of a stop. -/
def checked (t : ℕ) : List Action :=
  [.begin t .stop, .advance t .go, .advance t (.wait .pending)]

/-- The child ends after the interrupt, and another thread takes the snapshot that reaps it. -/
def reapedBetweenPolls : List Action :=
  checked 0 ++ interruption 0 ++ [.advance 0 (.clock false), .advance 0 (.wait .pending),
    .childEnds (.exited 0), .begin 1 .getProcessSnapshot, .advance 1 .go, .advance 1 (.wait .child),
    .advance 0 .go, .advance 0 (.clock false)]

theorem reaped_between_polls : ∃ s,
    (started 7).run Libc.silent reapedBetweenPolls = some s ∧ s.phase 0 = .lastPoll ∧
      s.snapshot.state = .stopped ∧ (∃ c ∈ s.log, c.final = true) ∧ s.sent .sigint ≤ 1 ∧
      ∀ later s', s.run Libc.silent later = some s' →
        s'.snapshot = s.snapshot ∧ s'.log = s.log := by
  obtain ⟨s, hrun, hphase, hstate, hlog⟩ : ∃ s,
      (started 7).run Libc.silent reapedBetweenPolls = some s ∧ s.phase 0 = .lastPoll ∧
        s.snapshot.state = .stopped ∧ ∃ c ∈ s.log, c.final = true :=
    ⟨_, rfl, rfl, rfl, .waited .child, by decide, rfl⟩
  obtain ⟨-, hfrozen, -, hsingle, -⟩ :=
    process_state_machine Libc.silent 7 reapedBetweenPolls s hrun
  refine ⟨s, hrun, hphase, hstate, hlog, hsingle ?_, hfrozen hlog⟩
  simp [Guarded, reapedBetweenPolls, checked, interruption, Overtaken]

/-- Two stops; the kill of the first fails while the second waits for it. -/
def overtakenKill : List Action :=
  checked 0 ++ checked 1 ++ interruption 0 ++ [.advance 0 (.clock false),
    .advance 0 (.wait .pending), .advance 0 .go, .advance 0 (.clock true),
    .advance 0 (.wait .pending), .advance 0 (.kill (some 1))] ++ interruption 1

theorem second_interrupt : ¬ ∀ (libc : Libc) (pid : ℤ) (actions : List Action) (s : World),
    (started pid).run libc actions = some s → s.sent .sigint ≤ 1 := by
  intro h
  have hsent : ((started 7).run Libc.silent overtakenKill).map (sent .sigint) = some 2 := rfl
  obtain ⟨s, hrun, htwo⟩ := Option.map_eq_some_iff.mp hsent
  have hone := h Libc.silent 7 overtakenKill s hrun
  omega

end PluginProcess
