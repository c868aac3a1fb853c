/-
The cleanup of an ADB shell that timed out or was cancelled.

The call waits for the cleanup task behind a shield, again and again while it is cancelled, and then
raises the last cancellation or the failure it began with.  A wait ends when its future is done: a
cancellation cancels it, or requests a cancellation of the task if the future is done already, and
the end of the cleanup settles it by a callback.  What the cleanup raises comes out of the wait too.

* `ShellCall.step`, `ShellCall.run` — the call, one event of the loop after the other;
* `Waiting`, `Waiting.step` — what holds while the call waits;
* `ShellCall.masked_iff` — all runs.
-/
import Mathlib.Tactic

namespace AdbShell

/-! ### The call -/

/-- What the call fails by. -/
inductive OriginalFailure (κ : Type)
  | timeout
  | cancelled (k : κ)
  deriving DecidableEq

/-- What the call can raise: its failure, a later cancellation, or an exception of the cleanup. -/
inductive Failure (κ ε : Type)
  | original (failure : OriginalFailure κ)
  | cancelled (k : κ)
  | cleanup (e : ε)
  deriving DecidableEq

/-- How the cleanup ends. -/
inductive CleanupEnd (ε : Type)
  | returned
  | raised (e : ε)
  deriving DecidableEq

/-- The future of `asyncio.shield`. -/
inductive Shield (κ ε : Type)
  | pending
  | cancelled (k : κ)
  | settled (result : CleanupEnd ε)
  deriving DecidableEq

/-- What happens in the event loop while the call waits. -/
inductive Event (κ ε : Type)
  /-- `Task.cancel` of the task of the call -/
  | cancel (k : κ)
  /-- the cleanup task is done -/
  | cleanupEnds (result : CleanupEnd ε)
  /-- the callback of the shield on the cleanup task -/
  | settle
  /-- the task of the call goes on -/
  | wake
  deriving DecidableEq

/-- The call from its `except` clause on. -/
structure ShellCall (κ ε : Type) where
  originalFailure : OriginalFailure κ
  cleanup : Option (CleanupEnd ε) := none
  shield : Shield κ ε := .pending
  /-- `_must_cancel` of the task, with its message -/
  mustCancel : Option κ := none
  laterCancellation : Option κ := none
  raised : Option (Failure κ ε) := none

namespace ShellCall

variable {κ ε : Type}

/-- The test of the loop: wait behind a new shield, or raise. -/
def loop (s : ShellCall κ ε) : ShellCall κ ε :=
  match s.cleanup with
  | none => { s with shield := .pending }
  | some _ =>
    match s.laterCancellation with
    | some k => { s with raised := some (.cancelled k) }
    | none => { s with raised := some (.original s.originalFailure) }

/-- The wait raises a `CancelledError`, and it is caught. -/
def caught (k : κ) (s : ShellCall κ ε) : ShellCall κ ε :=
  loop { s with mustCancel := none, laterCancellation := some k }

/-- One event; `none` if it cannot happen. -/
def step (s : ShellCall κ ε) (event : Event κ ε) : Option (ShellCall κ ε) :=
  if s.raised.isSome then none
  else
    match event with
    | .cancel k =>
      match s.shield with
      | .pending => some { s with shield := .cancelled k }
      | _ => some { s with mustCancel := some k }
    | .cleanupEnds result =>
      match s.cleanup with
      | none => some { s with cleanup := some result }
      | some _ => none
    | .settle =>
      match s.cleanup, s.shield with
      | some result, .pending => some { s with shield := .settled result }
      | some _, .cancelled _ => some s
      | _, _ => none
    | .wake =>
      match s.shield, s.mustCancel with
      | .pending, _ => none
      | .cancelled k, _ => some (caught k s)
      | .settled _, some k => some (caught k s)
      | .settled .returned, none => some (loop s)
      -- Only a cancellation is caught in the loop.
      | .settled (.raised e), none => some { s with raised := some (.cleanup e) }

def run (s : ShellCall κ ε) : List (Event κ ε) → Option (ShellCall κ ε)
  | [] => some s
  | event :: events => (s.step event).bind fun s => run s events

theorem run_concat (s : ShellCall κ ε) (events : List (Event κ ε)) (event : Event κ ε) :
    s.run (events ++ [event]) = (s.run events).bind fun s => s.step event := by
  induction events generalizing s with
  | nil => simp [run]
  | cons first events ih =>
    rw [List.cons_append, run, run]
    cases s.step first with
    | none => rfl
    | some s => exact ih s

end ShellCall

/-! ### The waits -/

section Waits

variable {κ ε : Type} [DecidableEq κ] [DecidableEq ε]

/-- The events since the call last began to wait, the latest first. -/
def currentWait (events : List (Event κ ε)) : List (Event κ ε) :=
  events.reverse.takeWhile (· ≠ .wake)

/-- The events of the wait that ended with the last event. -/
def lastWait (events : List (Event κ ε)) : List (Event κ ε) := currentWait events.dropLast

theorem currentWait_wake (events : List (Event κ ε)) : currentWait (events ++ [.wake]) = [] := by
  rw [currentWait, List.reverse_concat]
  exact List.takeWhile_cons_of_neg (by simp)

theorem currentWait_other {event : Event κ ε} (h : event ≠ .wake) (events : List (Event κ ε)) :
    currentWait (events ++ [event]) = event :: currentWait events := by
  rw [currentWait, List.reverse_concat]
  exact List.takeWhile_cons_of_pos (by simpa using h)

/-- What holds while the call waits. -/
structure Waiting (original : OriginalFailure κ) (events : List (Event κ ε)) (s : ShellCall κ ε) :
    Prop where
  originalFailure : s.originalFailure = original
  raised : s.raised = none
  cleanup : ∀ result, s.cleanup = some result ↔ .cleanupEnds result ∈ events
  settled : ∀ result, s.shield = .settled result → s.cleanup = some result
  later : ∀ k, s.laterCancellation = some k → .cancel k ∈ events
  cancelled : ∀ k, s.shield = .cancelled k → .cancel k ∈ events
  mustCancel : ∀ k, s.mustCancel = some k → .cancel k ∈ events
  /-- The task was cancelled in this wait. -/
  wait : (∃ k, .cancel k ∈ currentWait events) ↔
    (∃ k, s.shield = .cancelled k) ∨ s.mustCancel ≠ none
  idle : s.shield = .pending → s.mustCancel = none

/-- What the call raises, once it does. -/
structure Raises (original : OriginalFailure κ) (events : List (Event κ ε))
    (failure : Failure κ ε) : Prop where
  cleanup : ∃ result, .cleanupEnds result ∈ events
  /-- An exception of the cleanup comes out when the last wait was not cancelled. -/
  outcome : (∃ e, .cleanupEnds (.raised e) ∈ events ∧ failure = .cleanup e ∧
      ∀ k, .cancel k ∉ lastWait events) ∨
    ((failure = .original original ∨ ∃ k, .cancel k ∈ events ∧ failure = .cancelled k) ∧
      ((∀ e, .cleanupEnds (.raised e) ∉ events) ∨ ∃ k, .cancel k ∈ lastWait events))

variable {original : OriginalFailure κ} {events : List (Event κ ε)} {s s' : ShellCall κ ε}

theorem Waiting.init :
    Waiting original ([] : List (Event κ ε)) { originalFailure := original } where
  originalFailure := rfl
  raised := rfl
  cleanup _ := by simp
  settled _ h := by cases h
  later _ h := by cases h
  cancelled _ h := by cases h
  mustCancel _ h := by cases h
  wait := by simp [currentWait]
  idle _ := rfl

theorem lastWait_concat (events : List (Event κ ε)) (event : Event κ ε) :
    lastWait (events ++ [event]) = currentWait events := by
  rw [lastWait, List.dropLast_concat]

/-- A cancellation is noted in the future or in the task. -/
theorem Waiting.cancel (h : Waiting original events s) (k : κ)
    (hstep : s.step (.cancel k) = some s') : Waiting original (events ++ [.cancel k]) s' := by
  have hwait : ∃ k', .cancel k' ∈ currentWait (events ++ [.cancel k]) :=
    ⟨k, by rw [currentWait_other (by simp)]; exact List.mem_cons_self⟩
  have hlast : .cancel k ∈ events ++ [.cancel k] :=
    List.mem_append_right _ (List.mem_singleton_self _)
  rw [ShellCall.step, if_neg (by simp [h.raised])] at hstep
  -- The first cancellation hits the shield; one behind it waits for the task to run again.
  by_cases hshield : s.shield = .pending
  · rw [hshield] at hstep
    obtain rfl := Option.some_inj.mp hstep
    refine ⟨h.originalFailure, h.raised, fun result => by simp [h.cleanup],
      (fun _ hs => by cases hs), fun k' hk' => List.mem_append_left _ (h.later k' hk'),
      fun k' hk' => ?_, fun k' hk' => List.mem_append_left _ (h.mustCancel k' hk'),
      iff_of_true hwait (.inl ⟨k, rfl⟩), fun hs => by cases hs⟩
    obtain rfl := Shield.cancelled.inj hk'
    exact hlast
  · have hs' : s' = { s with mustCancel := some k } := by
      cases hs : s.shield with
      | pending => exact absurd hs hshield
      | cancelled _ =>
        rw [hs] at hstep
        exact (Option.some_inj.mp hstep).symm
      | settled _ =>
        rw [hs] at hstep
        exact (Option.some_inj.mp hstep).symm
    subst hs'
    refine ⟨h.originalFailure, h.raised, fun result => by simp [h.cleanup], h.settled,
      fun k' hk' => List.mem_append_left _ (h.later k' hk'),
      fun k' hk' => List.mem_append_left _ (h.cancelled k' hk'), fun k' hk' => ?_,
      iff_of_true hwait (.inr fun hnone => by cases hnone), fun hs => absurd hs hshield⟩
    obtain rfl := Option.some_inj.mp hk'
    exact hlast

/-- An event other than a cancellation or a wake leaves the cancellations of the wait. -/
theorem wait_of_other {event : Event κ ε} (hwake : event ≠ .wake)
    (hcancel : ∀ k, event ≠ .cancel k) :
    (∃ k, .cancel k ∈ currentWait (events ++ [event])) ↔ ∃ k, .cancel k ∈ currentWait events := by
  rw [currentWait_other hwake]
  constructor
  · rintro ⟨k, hk⟩
    rcases List.mem_cons.mp hk with heq | hk
    · exact absurd heq.symm (hcancel k)
    · exact ⟨k, hk⟩
  · rintro ⟨k, hk⟩
    exact ⟨k, List.mem_cons_of_mem _ hk⟩

theorem Waiting.cleanupEnds (h : Waiting original events s) (result : CleanupEnd ε)
    (hstep : s.step (.cleanupEnds result) = some s') :
    Waiting original (events ++ [.cleanupEnds result]) s' := by
  rw [ShellCall.step, if_neg (by simp [h.raised])] at hstep
  cases hcleanup : s.cleanup with
  | some _ =>
    rw [hcleanup] at hstep
    cases hstep
  | none =>
    rw [hcleanup] at hstep
    obtain rfl := Option.some_inj.mp hstep
    have hnone : ∀ result', .cleanupEnds result' ∉ events := by
      intro result' hmem
      have heq := (h.cleanup result').mpr hmem
      rw [hcleanup] at heq
      cases heq
    refine ⟨h.originalFailure, h.raised, fun result' => ?_, fun result' hs => ?_,
      fun k hk => List.mem_append_left _ (h.later k hk),
      fun k hk => List.mem_append_left _ (h.cancelled k hk),
      fun k hk => List.mem_append_left _ (h.mustCancel k hk),
      (wait_of_other (by simp) (by simp)).trans h.wait, h.idle⟩
    · simp [hnone, eq_comm]
    · -- The future is not settled before the cleanup has ended.
      have hbefore := h.settled result' hs
      rw [hcleanup] at hbefore
      cases hbefore

theorem Waiting.settle (h : Waiting original events s) (hstep : s.step .settle = some s') :
    Waiting original (events ++ [.settle]) s' := by
  rw [ShellCall.step, if_neg (by simp [h.raised])] at hstep
  have hwait : (∃ k, .cancel k ∈ currentWait (events ++ [.settle])) ↔
      (∃ k, s.shield = .cancelled k) ∨ s.mustCancel ≠ none :=
    (wait_of_other (by simp) (by simp)).trans h.wait
  cases hcleanup : s.cleanup with
  | none =>
    rw [hcleanup] at hstep
    cases hstep
  | some result =>
    rw [hcleanup] at hstep
    cases hshield : s.shield with
    | settled _ =>
      rw [hshield] at hstep
      cases hstep
    | cancelled k =>
      -- The shield was cancelled before: the cleanup's result is not looked at.
      rw [hshield] at hstep
      obtain rfl := Option.some_inj.mp hstep
      exact ⟨h.originalFailure, h.raised, fun result' => by simp [h.cleanup], h.settled,
        fun k hk => List.mem_append_left _ (h.later k hk),
        fun k hk => List.mem_append_left _ (h.cancelled k hk),
        fun k hk => List.mem_append_left _ (h.mustCancel k hk), hwait, h.idle⟩
    | pending =>
      -- The shield takes the result of the cleanup.
      rw [hshield] at hstep
      obtain rfl := Option.some_inj.mp hstep
      refine ⟨h.originalFailure, h.raised, fun result' => ?_, fun result' hs => ?_,
        fun k hk => List.mem_append_left _ (h.later k hk), (fun k hk => by cases hk),
        fun k hk => List.mem_append_left _ (h.mustCancel k hk), hwait.trans ?_,
        fun hs => by cases hs⟩
      · have hsame := h.cleanup result'
        rw [hcleanup] at hsame
        simpa using hsame
      · obtain rfl := Shield.settled.inj hs
        rfl
      · simp [hshield]

/-- The call goes on with a cancellation: it waits again, or raises it. -/
theorem Waiting.caught (h : Waiting original events s) {k : κ} (hk : .cancel k ∈ events)
    (hwait : ∃ k', .cancel k' ∈ currentWait events) :
    Waiting original (events ++ [.wake]) (ShellCall.caught k s) ∨
      ∃ failure, (ShellCall.caught k s).raised = some failure ∧
        Raises original (events ++ [.wake]) failure := by
  rw [ShellCall.caught, ShellCall.loop]
  cases hcleanup : s.cleanup with
  | none =>
    -- The cleanup still runs, so the cancellation is kept and the wait starts over.
    left
    refine ⟨h.originalFailure, h.raised, fun result => ?_, (fun _ hs => by cases hs),
      fun k' hk' => ?_, (fun _ hs => by cases hs), (fun _ hs => by cases hs), ?_, fun _ => rfl⟩
    · have hsame := h.cleanup result
      rw [hcleanup] at hsame
      simpa using hsame
    · obtain rfl := Option.some_inj.mp hk'
      exact List.mem_append_left _ hk
    · rw [currentWait_wake]
      simp
  | some result =>
    -- The cleanup has ended: the cancellation leaves in place of the failure.
    right
    refine ⟨.cancelled k, rfl, ⟨result, ?_⟩, .inr ⟨.inr ⟨k, ?_, rfl⟩, .inr ?_⟩⟩
    · exact List.mem_append_left _ ((h.cleanup result).mp hcleanup)
    · exact List.mem_append_left _ hk
    · rwa [lastWait_concat]

theorem Waiting.wake (h : Waiting original events s) (hstep : s.step .wake = some s') :
    Waiting original (events ++ [.wake]) s' ∨
      ∃ failure, s'.raised = some failure ∧ Raises original (events ++ [.wake]) failure := by
  rw [ShellCall.step, if_neg (by simp [h.raised])] at hstep
  cases hshield : s.shield with
  | pending =>
    rw [hshield] at hstep
    cases hstep
  | cancelled k =>
    rw [hshield] at hstep
    obtain rfl := Option.some_inj.mp hstep
    exact h.caught (h.cancelled k hshield) (h.wait.mpr (.inl ⟨k, hshield⟩))
  | settled result =>
    rw [hshield] at hstep
    have hcleanup := h.settled result hshield
    have hended : .cleanupEnds result ∈ events := (h.cleanup result).mp hcleanup
    cases hmust : s.mustCancel with
    | some k =>
      rw [hmust] at hstep
      have hs' : s' = ShellCall.caught k s := by
        cases result <;> exact (Option.some_inj.mp hstep).symm
      rw [hs']
      exact h.caught (h.mustCancel k hmust) (h.wait.mpr (.inr (by simp [hmust])))
    | none =>
      rw [hmust] at hstep
      right
      cases result with
      | returned =>
        -- The cleanup has returned, and nothing hides the failure.
        have hnone : ∀ e, .cleanupEnds (.raised e) ∉ events ++ [.wake] := by
          intro e hmem
          have hmem : .cleanupEnds (.raised e) ∈ events := by simpa using hmem
          have hraised := (h.cleanup (.raised e)).mpr hmem
          rw [hcleanup] at hraised
          cases hraised
        obtain rfl := Option.some_inj.mp hstep
        rw [ShellCall.loop, hcleanup]
        cases hlater : s.laterCancellation with
        | none =>
          refine ⟨.original original, by rw [← h.originalFailure], ⟨.returned, ?_⟩,
            .inr ⟨.inl rfl, .inl hnone⟩⟩
          exact List.mem_append_left _ hended
        | some k =>
          refine ⟨.cancelled k, rfl, ⟨.returned, List.mem_append_left _ hended⟩,
            .inr ⟨.inr ⟨k, ?_, rfl⟩, .inl hnone⟩⟩
          exact List.mem_append_left _ (h.later k hlater)
      | raised e =>
        obtain rfl := Option.some_inj.mp hstep
        refine ⟨.cleanup e, rfl, ⟨_, List.mem_append_left _ hended⟩,
          .inl ⟨e, List.mem_append_left _ hended, rfl, fun k hk => ?_⟩⟩
        rw [lastWait_concat] at hk
        rcases h.wait.mp ⟨k, hk⟩ with ⟨k', hk'⟩ | hne
        · rw [hshield] at hk'
          cases hk'
        · exact hne hmust

/-- **All events**: the call waits, or has raised with its last event. -/
theorem run_waiting {events : List (Event κ ε)} {s : ShellCall κ ε}
    (h : ShellCall.run { originalFailure := original } events = some s) :
    Waiting original events s ∨
      ∃ failure, s.raised = some failure ∧ Raises original events failure := by
  induction events using List.reverseRecOn generalizing s with
  | nil =>
    obtain rfl := Option.some_inj.mp h
    exact .inl Waiting.init
  | append_singleton events event ih =>
    rw [ShellCall.run_concat] at h
    obtain ⟨s₀, hs₀, hstep⟩ := Option.bind_eq_some_iff.mp h
    rcases ih hs₀ with hwaiting | ⟨failure, hraised, -⟩
    · cases event with
      | cancel k => exact .inl (hwaiting.cancel k hstep)
      | cleanupEnds result => exact .inl (hwaiting.cleanupEnds result hstep)
      | settle => exact .inl (hwaiting.settle hstep)
      | wake => exact hwaiting.wake hstep
    · unfold ShellCall.step at hstep
      rw [if_pos (by simp [hraised])] at hstep
      cases hstep

/-- **The end of the cleanup ends the call**: the callback and a wake are enough. -/
theorem Waiting.ends (h : Waiting original events s) (hcleanup : s.cleanup ≠ none) :
    ∃ rest s' failure, (rest = [.settle, .wake] ∨ rest = [.wake]) ∧ s.run rest = some s' ∧
      s'.raised = some failure := by
  obtain ⟨result, hresult⟩ := Option.ne_none_iff_exists'.mp hcleanup
  -- A wake after the cleanup has ended raises, whatever the future holds.
  have hwake : ∀ {t : ShellCall κ ε}, t.raised = none → t.cleanup = some result →
      t.shield ≠ .pending → ∃ t' failure, t.step .wake = some t' ∧ t'.raised = some failure := by
    intro t hraised hended hshield
    have hloop : ∀ {u : ShellCall κ ε}, u.cleanup = some result →
        ∃ failure, (ShellCall.loop u).raised = some failure := by
      intro u hu
      rw [ShellCall.loop, hu]
      cases u.laterCancellation <;> exact ⟨_, rfl⟩
    have hcaught : ∀ k, ∃ failure, (ShellCall.caught k t).raised = some failure :=
      fun k => hloop hended
    rw [ShellCall.step, if_neg (by simp [hraised])]
    cases hs : t.shield with
    | pending => exact absurd hs hshield
    | cancelled k =>
      obtain ⟨failure, hfailure⟩ := hcaught k
      exact ⟨_, failure, rfl, hfailure⟩
    | settled result' =>
      cases hm : t.mustCancel with
      | some k =>
        obtain ⟨failure, hfailure⟩ := hcaught k
        cases result' <;> exact ⟨_, failure, rfl, hfailure⟩
      | none =>
        cases result' with
        | returned =>
          obtain ⟨failure, hfailure⟩ := hloop hended
          exact ⟨_, failure, rfl, hfailure⟩
        | raised e => exact ⟨_, .cleanup e, rfl, rfl⟩
  by_cases hshield : s.shield = .pending
  · obtain ⟨s', failure, hstep, hraised⟩ := hwake (t := { s with shield := .settled result })
      h.raised hresult (by simp)
    have hsettle : s.step .settle = some { s with shield := .settled result } := by
      rw [ShellCall.step, if_neg (by simp [h.raised]), hresult, hshield]
    refine ⟨_, s', failure, .inl rfl, ?_, hraised⟩
    rw [ShellCall.run, hsettle, Option.bind_some, ShellCall.run, hstep]
    rfl
  · obtain ⟨s', failure, hstep, hraised⟩ := hwake h.raised hresult hshield
    refine ⟨_, s', failure, .inr rfl, ?_, hraised⟩
    rw [ShellCall.run, hstep]
    rfl

end Waits

/-! ### All runs -/

namespace ShellCall

variable {κ ε : Type} [DecidableEq κ] [DecidableEq ε]

/-- **The failure that comes out.**  Whatever the cleanup does and however often the call is
cancelled meanwhile: it raises only after the cleanup has ended, and then it raises its failure or a
later cancellation iff the cleanup did not raise or a cancellation came in the last wait.  And once
the cleanup has ended, the callback of the shield and a wake are enough for the call to raise. -/
theorem masked_iff (original : OriginalFailure κ) (events : List (Event κ ε)) {s : ShellCall κ ε}
    (hrun : run { originalFailure := original } events = some s) :
    (∀ failure, s.raised = some failure →
      (∃ result, .cleanupEnds result ∈ events) ∧
      ((failure = .original original ∨ ∃ k, .cancel k ∈ events ∧ failure = .cancelled k) ↔
        (∀ e, .cleanupEnds (.raised e) ∉ events) ∨ ∃ k, .cancel k ∈ lastWait events)) ∧
    ((∃ result, .cleanupEnds result ∈ events) → s.raised = none →
      ∃ rest s' failure, (rest = [.settle, .wake] ∨ rest = [.wake]) ∧ s.run rest = some s' ∧
        s'.raised = some failure) := by
  rcases run_waiting hrun with hwaiting | ⟨failure, hraised, hraises⟩
  · refine ⟨fun failure hraised => ?_, fun ⟨result, hended⟩ _ => hwaiting.ends ?_⟩
    · rw [hwaiting.raised] at hraised
      cases hraised
    · rw [(hwaiting.cleanup result).mpr hended]
      exact fun hnone => by cases hnone
  · refine ⟨fun failure' hraised' => ⟨hraises.cleanup, ?_⟩, fun _ hnone => ?_⟩
    · obtain rfl := Option.some_inj.mp (hraised.symm.trans hraised')
      -- The cleanup's error came through, or the original failure or a cancellation did.
      rcases hraises.outcome with ⟨e, hended, rfl, huncancelled⟩ | ⟨hallowed, hcondition⟩
      · refine iff_of_false ?_ ?_
        · rintro (heq | ⟨k, -, heq⟩) <;> cases heq
        · rintro (hnone | ⟨k, hk⟩)
          · exact hnone e hended
          · exact huncancelled k hk
      · exact iff_of_true hallowed hcondition
    · rw [hraised] at hnone
      cases hnone

end ShellCall

/-- A timeout, with a cancellation while the cleanup runs and an exception of the cleanup after it:
the cancellation is raised if it comes in the last wait. -/
theorem cancelled_in_last_wait :
    ∃ s, ShellCall.run { originalFailure := (.timeout : OriginalFailure ℕ) }
        [.cleanupEnds (.raised "PermissionError"), .settle, .cancel 1, .wake] = some s ∧
      (∃ failure, s.raised = some failure ∧
        (failure = .original .timeout ∨
          ∃ k, Event.cancel (ε := String) k ∈ [.cleanupEnds (.raised "PermissionError"), .settle,
            .cancel 1, .wake] ∧ failure = .cancelled k)) := by
  refine ⟨_, rfl, .cancelled 1, rfl, ?_⟩
  exact (((ShellCall.masked_iff (.timeout : OriginalFailure ℕ)
    [.cleanupEnds (.raised "PermissionError"), .settle, .cancel 1, .wake] rfl).1
      (.cancelled 1) rfl).2).mpr (.inr ⟨1, by decide⟩)

/-- A timeout, and a cleanup that raises: its exception is raised in place of the timeout. -/
theorem cleanup_masks_timeout :
    ∃ s, ShellCall.run { originalFailure := (.timeout : OriginalFailure ℕ) }
        [.cleanupEnds (.raised "PermissionError"), .settle, .wake] = some s ∧
      s.raised = some (.cleanup "PermissionError") :=
  ⟨_, rfl, rfl⟩

end AdbShell
