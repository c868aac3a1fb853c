/-
What the supervisor of the calibration worker may report.

The evidence of an attempt is frozen once its supervision has stopped the process: the reader
is gone, and nothing else writes it.  What `_decide` saw is therefore what a later reader of
the attempt sees.

* `Attempt.decide_completed` — success only on complete evidence;
* `Turns.sound`, `Supervisor.sound_run` — the invariant, for one turn and for a run;
* `supervision_sound` — the outcome of every attempt, over every run.
-/
import IsaacTeleop.CalibrationSupervisor

open ByteText PyStr

namespace ManusCalibration

open Calibration (Side)

namespace Attempt

variable {φ : Type}

/-! ### The decision -/

/-- The evidence on which an attempt is reported as completed. -/
structure Complete (a : Attempt φ) (o : CalibrationOutcome) (r : Result) : Prop where
  result : a.result = some r
  completed : r.outcome = .completed
  released : r.released = true
  violation : a.violation = none
  unreaped : a.unreaped = false
  forced : o.forcedTermination = false
  exitCode : o.exitCode = some 0
  returncode : a.returncode = some 0
  filesMatch : a.filesMatch r = true
  files : o.files = a.sides.filterMap a.exportsBySide

/-- The worker may still hold the gloves: it could not be reaped, or it said so after a start
that it did not reject. -/
def Holds (a : Attempt φ) : Prop :=
  a.unreaped = true ∨ a.startRejection = none ∧ ∃ r, a.result = some r ∧ r.released = false

theorem unreleasedResult_eq_none {a : Attempt φ} (h : a.unreleasedResult = none) {r : Result}
    (hr : a.result = some r) : r.released = true := by
  rw [unreleasedResult, hr] at h
  simpa [Option.filter] using h

theorem decideWithoutResult_kind (a : Attempt φ) (code : Option ℤ) (forced : Bool) :
    (a.decideWithoutResult code forced).kind ≠ .completed := by
  rw [decideWithoutResult]
  split
  · exact fun h => (by cases h)
  · split
    · exact fun h => (by cases h)
    · exact fun h => (by cases h)

/-- With a result, only the last branch reports success. -/
theorem decideWithResult_completed {a : Attempt φ} {r : Result} {code : Option ℤ} {forced : Bool}
    (h : (a.decideWithResult r code forced).kind = .completed) :
    forced = false ∧ code = some 0 ∧ r.outcome = .completed ∧ a.filesMatch r = true ∧
      (a.decideWithResult r code forced).files = a.sides.filterMap a.exportsBySide := by
  rw [decideWithResult] at h ⊢
  split at h
  · cases h
  rename_i hforced
  split at h
  · split at h
    · cases h
    · cases h
  rename_i hfailed
  split at h
  · cases h
  rename_i hcode
  split at h
  · cases h
  rename_i hcancelled
  -- Of the three outcomes only one is left at this place.
  have hcompleted : r.outcome = .completed := by
    cases hr : r.outcome with
    | completed => rfl
    | cancelled => exact absurd hr hcancelled
    | failed => exact absurd hr hfailed
  rw [if_neg hforced, if_neg hfailed, if_neg hcode, if_neg hcancelled]
  rw [completed] at h ⊢
  split at h
  · rename_i hmatch
    rw [if_pos hmatch]
    exact ⟨by simpa using hforced, not_not.mp hcode, hcompleted, hmatch, rfl⟩
  · cases h

theorem decideWithResult_report (a : Attempt φ) (r : Result) (code : Option ℤ) (forced : Bool) :
    (a.decideWithResult r code forced).forcedTermination = forced ∧
      (a.decideWithResult r code forced).exitCode = code := by
  rw [decideWithResult]
  split
  · exact ⟨rfl, rfl⟩
  split
  · split
    · exact ⟨rfl, rfl⟩
    · exact ⟨rfl, rfl⟩
  split
  · exact ⟨rfl, rfl⟩
  split
  · exact ⟨rfl, rfl⟩
  rw [completed]
  split
  · exact ⟨rfl, rfl⟩
  · exact ⟨rfl, rfl⟩

/-- **Success is decided only on complete evidence.** -/
theorem decide_completed {a : Attempt φ} {forced : Bool}
    (h : (a.decide a.returncode forced).1.kind = .completed) :
    ∃ r, a.Complete (a.decide a.returncode forced).1 r := by
  rw [Attempt.decide] at h ⊢
  split at h
  · cases h
  rename_i hunreaped
  rw [if_neg hunreaped]
  split at h
  · cases h
  split at h
  · cases h
  rename_i hunreleased
  split at h
  · rename_i violation _
    dsimp only [outcomeOf] at h
    split at h
    · cases h
    · cases h
  rename_i hviolation
  split at h
  · exact absurd h (decideWithoutResult_kind a _ forced)
  -- Everything that could spoil the outcome has been looked at.
  rename_i r hr
  obtain ⟨hforced, hcode, hoc, hmatch, hfiles⟩ := decideWithResult_completed h
  obtain ⟨hrep, hexit⟩ := decideWithResult_report a r a.returncode forced
  exact ⟨r, hr, hoc, unreleasedResult_eq_none hunreleased hr, hviolation, by simpa using hunreaped,
    hrep.trans hforced, hexit.trans hcode, hcode, hmatch, hfiles⟩

/-- **Gloves that may still be held close the owner to new attempts.** -/
theorem decide_latch {a : Attempt φ} (h : a.Holds) (code : Option ℤ) (forced : Bool) :
    (a.decide code forced).2.isSome = true := by
  rw [Attempt.decide]
  rcases h with hunreaped | ⟨hrejection, r, hr, hreleased⟩
  · rw [if_pos hunreaped]
    rfl
  · split
    · rfl
    · have hresult : a.unreleasedResult = some r := by
        rw [unreleasedResult, hr]
        simp [hreleased]
      simp only [hrejection, hresult]
      rfl

/-! ### Finishing -/

theorem finish_outcome (a : Attempt φ) (o : CalibrationOutcome) :
    (a.finish o).attempt.outcome = a.outcome.or (some o) := by
  rw [finish]
  split
  · rename_i h
    obtain ⟨o', ho'⟩ := Option.isSome_iff_exists.mp h
    rw [only, ho']
    rfl
  · rename_i h
    rw [Option.not_isSome_iff_eq_none.mp h]
    rfl

/-- What finishing leaves alone. -/
theorem finish_frame (a : Attempt φ) (o : CalibrationOutcome) :
    let a' := (a.finish o).attempt
    a'.superviseAt = a.superviseAt ∧ a'.readerAt = a.readerAt ∧ a'.unreaped = a.unreaped ∧
      a'.sides = a.sides ∧ a'.proc = a.proc ∧ a'.startAt = a.startAt ∧ a'.result = a.result ∧
      a'.violation = a.violation ∧ a'.exports = a.exports ∧
      a'.startRejection = a.startRejection ∧ a'.attemptId = a.attemptId ∧
      a'.cancelRequested = a.cancelRequested ∧ a'.resultSeen = a.resultSeen := by
  rw [finish]
  split
  · exact ⟨rfl, rfl, rfl, rfl, rfl, rfl, rfl, rfl, rfl, rfl, rfl, rfl, rfl⟩
  · exact ⟨rfl, rfl, rfl, rfl, rfl, rfl, rfl, rfl, rfl, rfl, rfl, rfl, rfl⟩

theorem finish_holds (a : Attempt φ) (o : CalibrationOutcome) :
    (a.finish o).attempt.Holds ↔ a.Holds := by
  obtain ⟨-, -, hunreaped, -, -, -, hresult, -, -, hrejection, -⟩ := finish_frame a o
  rw [Holds, Holds, hunreaped, hresult, hrejection]

/-- An attempt that settles other than with success, its worker reaped, loses its files. -/
theorem finish_removes {a : Attempt φ} {o : CalibrationOutcome} (hnone : a.outcome = none)
    (hkind : o.kind ≠ .completed) (hreaped : a.unreaped = false) :
    (a.finish o).removes = true := by
  have hsome : ¬ a.outcome.isSome = true := by simp [hnone]
  rw [finish, if_neg hsome]
  simp [hkind, hreaped]

/-! ### The invariant -/

/-- What every reachable attempt satisfies. -/
structure Sound (a : Attempt φ) : Prop where
  over_settled : a.superviseAt.rank = 7 → a.outcome.isSome = true
  done_settled : a.state = .done → a.outcome.isSome = true
  /-- the reader is gone once the process is stopped -/
  stopped : 6 ≤ a.superviseAt.rank → a.superviseAt ≠ .cancelled → a.readerAt = .ended
  new : a.state = .new →
    a.superviseAt = .notStarted ∧ a.readerAt = .notStarted ∧ a.startAt = .notCalled
  early : a.startAt.early = true → a.superviseAt = .notStarted ∧ a.readerAt = .notStarted
  sides_nodup : a.sides.Nodup
  completed : ∀ o, a.outcome = some o → o.kind = .completed →
    a.superviseAt = .ended ∧ ∃ r, a.Complete o r

theorem sound_init [PyFloat φ] (attemptId : PyStr) : Sound (init attemptId : Attempt φ) where
  over_settled h := by cases h
  done_settled h := by cases h
  stopped h := by
    have : (6 : ℕ) ≤ 0 := h
    omega
  new _ := ⟨rfl, rfl, rfl⟩
  early h := by cases h
  sides_nodup := List.nodup_nil
  completed o h := by cases h

theorem Quiet.exportsBySide {a a' : Attempt φ} (h : Quiet a a') :
    a'.exportsBySide = a.exportsBySide := by
  funext side
  rw [Attempt.exportsBySide, Attempt.exportsBySide, h.exports]

theorem Complete.quiet {a a' : Attempt φ} {o : CalibrationOutcome} {r : Result}
    (h : a.Complete o r) (hq : Quiet a a') : a'.Complete o r where
  result := hq.result.trans h.result
  completed := h.completed
  released := h.released
  violation := hq.violation.trans h.violation
  unreaped := hq.unreaped.trans h.unreaped
  forced := h.forced
  exitCode := h.exitCode
  returncode := hq.returncode 0 h.returncode
  filesMatch := by
    have hsame : a'.filesMatch r = a.filesMatch r := by
      simp only [Attempt.filesMatch, hq.exportsBySide, hq.sides]
    exact hsame.trans h.filesMatch
  files := by
    rw [h.files, hq.exportsBySide, hq.sides]

/-- A turn of the reader, or a quiet one; only the evidence may change while it is read. -/
theorem Sound.keeps {a a' : Attempt φ} (ha : a.Sound) (hk : Keeps a a')
    (hreaderNot : a.readerAt = .notStarted → a'.readerAt = .notStarted)
    (hcompleted : ∀ o r, a.superviseAt = .ended → a.Complete o r → a'.Complete o r) :
    a'.Sound where
  over_settled h := by
    rw [hk.outcome]
    exact ha.over_settled (hk.superviseAt ▸ h)
  done_settled h := by
    rw [hk.outcome]
    exact ha.done_settled (hk.done h)
  stopped h hnot := by
    rw [hk.superviseAt] at h hnot
    exact hk.readerOver (ha.stopped h hnot)
  new h := by
    obtain ⟨hnew, hcalled⟩ := hk.new h
    obtain ⟨hplace, hnot, hstart⟩ := ha.new hnew
    exact ⟨hk.superviseAt.trans hplace, hreaderNot hnot, hcalled hstart⟩
  early h := by
    obtain ⟨hplace, hnot⟩ := ha.early (hk.early h)
    exact ⟨hk.superviseAt.trans hplace, hreaderNot hnot⟩
  sides_nodup := hk.sides ▸ ha.sides_nodup
  completed o h hkind := by
    rw [hk.outcome] at h
    obtain ⟨hover, r, hr⟩ := ha.completed o h hkind
    exact ⟨hk.superviseAt.trans hover, r, hcompleted o r hover hr⟩

theorem Sound.quiet {a a' : Attempt φ} (ha : a.Sound) (hq : Quiet a a') : a'.Sound :=
  ha.keeps hq.toKeeps (fun h => hq.readerAt.trans h) fun _ _ _ h => h.quiet hq

theorem Sound.reads {a a' : Attempt φ} (ha : a.Sound) (hreading : a.readerAt = .reading)
    (hk : Keeps a a') : a'.Sound := by
  refine ha.keeps hk (fun h => by rw [h] at hreading; cases hreading) fun o r hover _ => ?_
  -- a reader that is still there has no stopped process
  have hgone := ha.stopped (by rw [hover]; decide) (by rw [hover]; decide)
  rw [hgone] at hreading
  cases hreading

/-- An attempt that is not settled as completed keeps that clause of the invariant. -/
theorem Sound.not_completed {a : Attempt φ} (ha : a.Sound) (h : a.superviseAt ≠ .ended)
    {o : CalibrationOutcome} (ho : a.outcome = some o) : o.kind ≠ .completed :=
  fun hkind => h (ha.completed o ho hkind).1

/-- Finishing settles what the end of the supervision promised. -/
theorem Sound.finish {a : Attempt φ} {o : CalibrationOutcome}
    (hdone : a.state = .done → a.outcome.isSome = true)
    (hstopped : 6 ≤ a.superviseAt.rank → a.superviseAt ≠ .cancelled → a.readerAt = .ended)
    (hnew : a.state = .new →
      a.superviseAt = .notStarted ∧ a.readerAt = .notStarted ∧ a.startAt = .notCalled)
    (hearly : a.startAt.early = true → a.superviseAt = .notStarted ∧ a.readerAt = .notStarted)
    (hnodup : a.sides.Nodup)
    (hcompleted : ∀ o', a.outcome = some o' → o'.kind = .completed →
      a.superviseAt = .ended ∧ ∃ r, a.Complete o' r)
    (ho : a.outcome = none → o.kind = .completed → a.superviseAt = .ended ∧ ∃ r, a.Complete o r) :
    (a.finish o).attempt.Sound := by
  by_cases hsome : a.outcome.isSome = true
  · -- settled before: nothing changes
    have hsame : (a.finish o).attempt = a := by rw [Attempt.finish, if_pos hsome]; rfl
    rw [hsame]
    exact ⟨fun _ => hsome, hdone, hstopped, hnew, hearly, hnodup, hcompleted⟩
  · have hnone : a.outcome = none := Option.not_isSome_iff_eq_none.mp hsome
    rw [Attempt.finish, if_neg hsome]
    refine ⟨fun _ => rfl, fun _ => rfl, hstopped, fun h => (by cases h), hearly, hnodup, ?_⟩
    intro o' ho' hkind
    obtain rfl : o = o' := by simpa using ho'
    obtain ⟨hover, r, hr⟩ := ho hnone hkind
    exact ⟨hover, r, { hr with }⟩

/-- `start` was called: nothing is supervised yet. -/
theorem Sound.starts {a : Attempt φ} (ha : a.Sound) (sides : List Side) (place : StartPlace)
    (hnew : a.state = .new) :
    Sound { a with sides := Calibration.orderedSides sides, state := .starting
                   startAt := place } := by
  obtain ⟨hplace, hreader, -⟩ := ha.new hnew
  have hnot : a.superviseAt ≠ .ended := by rw [hplace]; decide
  refine ⟨ha.over_settled, fun h => (by cases h), ha.stopped, fun h => (by cases h), ?_, ?_, ?_⟩
  · exact fun _ => ⟨hplace, hreader⟩
  · exact List.Nodup.filter _ (by decide)
  · intro o ho hkind
    exact absurd hkind (ha.not_completed hnot ho)

theorem Sound.launches {a : Attempt φ} (ha : a.Sound) {outDir : PyStr} (proc : Process)
    (hstart : a.startAt = .launching outDir) :
    Sound { a with proc := some proc, startAt := .connecting outDir } := by
  obtain ⟨hplace, hreader⟩ := ha.early (by rw [hstart]; rfl)
  have hnot : a.superviseAt ≠ .ended := by rw [hplace]; decide
  refine ⟨ha.over_settled, ha.done_settled, ha.stopped, ?_, fun _ => ⟨hplace, hreader⟩,
    ha.sides_nodup, ?_⟩
  · intro h
    rw [(ha.new h).2.2] at hstart
    cases hstart
  · intro o ho hkind
    exact absurd hkind (ha.not_completed hnot ho)

/-- The reader and the supervision begin together. -/
theorem Sound.connects {a : Attempt φ} (ha : a.Sound) {outDir : PyStr}
    (hstart : a.startAt = .connecting outDir) :
    Sound { a with writer := true, readerAt := .reading, superviseAt := .waiting
                   startAt := .waitingReady outDir } := by
  obtain ⟨hplace, hreader⟩ := ha.early (by rw [hstart]; rfl)
  have hnot : a.superviseAt ≠ .ended := by rw [hplace]; decide
  refine ⟨fun h => (by cases h), ha.done_settled, ?_, ?_, fun h => (by cases h),
    ha.sides_nodup, ?_⟩
  · intro h
    have : (6 : ℕ) ≤ 1 := h
    omega
  · intro h
    rw [(ha.new h).2.2] at hstart
    cases hstart
  · intro o ho hkind
    exact absurd hkind (ha.not_completed hnot ho)

theorem started_of_rank {a : Attempt φ} (h : 1 ≤ a.superviseAt.rank) :
    a.superviseAt ≠ .notStarted := by
  intro hnot
  rw [hnot] at h
  exact absurd h (by decide)

theorem not_ended_of_rank {a : Attempt φ} (h : a.superviseAt.rank ≤ 5) :
    a.superviseAt ≠ .ended := by
  intro hended
  rw [hended] at h
  exact absurd h (by decide)

/-- The supervision goes on to a later place before the stop of the process. -/
theorem Sound.advances {a : Attempt φ} (ha : a.Sound) {state : AttemptState}
    {place : SupervisePlace} (hfrom : 1 ≤ a.superviseAt.rank)
    (hrank : a.superviseAt.rank < place.rank) (hto : place.rank ≤ 5)
    (hstate : state = a.state ∨ state = .finishing) :
    Sound { a with state := state, superviseAt := place } := by
  -- The supervision is under way: neither new nor over.
  have hstarted := started_of_rank hfrom
  have hnot := not_ended_of_rank (a := a) (by omega)
  refine ⟨?_, ?_, ?_, ?_, ?_, ha.sides_nodup, ?_⟩
  · intro h
    have : place.rank = 7 := h
    omega
  · intro h
    rcases hstate with hsame | hfin
    · exact ha.done_settled (hsame ▸ h)
    · rw [hfin] at h
      cases h
  · intro h
    have : 6 ≤ place.rank := h
    omega
  · intro h
    rcases hstate with hsame | hfin
    · exact absurd (ha.new (hsame ▸ h)).1 hstarted
    · rw [hfin] at h
      cases h
  · intro h
    exact absurd (ha.early h).1 hstarted
  · intro o ho hkind
    exact absurd hkind (ha.not_completed hnot ho)

/-- The process is stopped and the reader with it. -/
theorem Sound.stops {a : Attempt φ} (ha : a.Sound) (forced : Bool)
    (hfrom : 1 ≤ a.superviseAt.rank) (hto : a.superviseAt.rank ≤ 5) :
    (a.stopped forced).Sound := by
  have hstarted := started_of_rank hfrom
  refine ⟨fun h => (by cases h), ha.done_settled, fun _ _ => rfl, ?_, ?_, ha.sides_nodup, ?_⟩
  · intro h
    exact absurd (ha.new h).1 hstarted
  · intro h
    exact absurd (ha.early h).1 hstarted
  · intro o ho hkind
    exact absurd hkind (ha.not_completed (not_ended_of_rank hto) ho)

/-- The attempt settles with what its evidence says. -/
theorem Sound.settles {a : Attempt φ} (ha : a.Sound) {forced : Bool}
    (h : a.superviseAt = .settling forced) : (a.settle forced).attempt.Sound := by
  have hnot : a.superviseAt ≠ .ended := by rw [h]; exact fun h => (by cases h)
  have hgone : a.readerAt = .ended := by
    refine ha.stopped ?_ ?_
    · rw [h]
      exact le_refl 6
    · rw [h]
      exact fun h => (by cases h)
  refine Sound.finish ha.done_settled (fun _ _ => hgone) ?_ ?_ ha.sides_nodup ?_ ?_
  · intro hnew
    rw [(ha.new hnew).1] at h
    cases h
  · intro hearly
    rw [(ha.early hearly).1] at h
    cases h
  · intro o ho hkind
    exact absurd hkind (ha.not_completed hnot ho)
  · intro _ hkind
    exact ⟨rfl, decide_completed hkind⟩

theorem Sound.cancels {a : Attempt φ} (ha : a.Sound) {outcome : CalibrationOutcome}
    (hkind : outcome.kind ≠ .completed) (h : a.supervised = true) :
    ({ a with superviseAt := .cancelled }.finish outcome).attempt.Sound := by
  have hplace : a.superviseAt ≠ .notStarted ∧ a.superviseAt ≠ .ended := by
    simp only [supervised, Bool.and_eq_true, decide_eq_true_eq] at h
    exact h.1
  refine Sound.finish ha.done_settled (fun _ hc => absurd rfl hc) ?_ ?_ ha.sides_nodup ?_ ?_
  · intro hnew
    exact absurd (ha.new hnew).1 hplace.1
  · intro hearly
    exact absurd (ha.early hearly).1 hplace.1
  · intro o ho hk
    exact absurd hk (ha.not_completed hplace.2 ho)
  · intro _ hk
    exact absurd hk hkind

/-- **A turn keeps the invariant.** -/
theorem Turns.sound {a : Attempt φ} {t : Turn φ} (ht : Turns a t) (ha : a.Sound) :
    t.attempt.Sound := by
  induction ht with
  | quiet h => exact ha.quiet h
  | reads hreading h => exact ha.reads hreading h
  | starts sides place hnew => exact ha.starts sides place hnew
  | launches outDir pid hstart => exact ha.launches _ hstart
  | connects outDir hstart => exact ha.connects hstart
  | advances state place hfrom hrank hto hstate => exact ha.advances hfrom hrank hto hstate
  | stops forced hfrom hto => exact ha.stops forced hfrom hto
  | settles forced h => exact ha.settles h
  | cancels outcome hkind h => exact ha.cancels hkind h
  | finishes h outcome hkind ih =>
    refine Sound.finish ih.done_settled ih.stopped ih.new ih.early ih.sides_nodup ih.completed ?_
    intro _ hk
    exact absurd hk hkind

/-! ### What a turn settles -/

/-- **An outcome is settled once.** -/
theorem Turns.outcome {a : Attempt φ} {t : Turn φ} (ht : Turns a t) {o : CalibrationOutcome}
    (ho : a.outcome = some o) : t.attempt.outcome = some o := by
  induction ht with
  | quiet h => exact h.outcome.trans ho
  | reads _ h => exact h.outcome.trans ho
  | starts _ _ _ => exact ho
  | launches _ _ _ => exact ho
  | connects _ _ => exact ho
  | advances _ _ _ _ _ _ => exact ho
  | stops _ _ _ => exact ho
  | settles forced _ =>
    -- Settling keeps an outcome that is there.
    show (Attempt.finish _ _).attempt.outcome = some o
    rw [finish_outcome]
    show a.outcome.or _ = some o
    rw [ho]
    rfl
  | cancels outcome _ _ =>
    rw [finish_outcome]
    show a.outcome.or _ = some o
    rw [ho]
    rfl
  | @finishes a₁ _ outcome _ ih =>
    have hbefore : a₁.outcome = some o := ih
    rw [finish_outcome, hbefore]
    rfl

/-- **A turn that settles other than with success removes the files of a reaped worker.** -/
theorem Turns.removes {a : Attempt φ} {t : Turn φ} (ht : Turns a t) {o : CalibrationOutcome}
    (hnone : a.outcome = none) (ho : t.attempt.outcome = some o) (hkind : o.kind ≠ .completed)
    (hreaped : t.attempt.unreaped = false) : t.removes = true := by
  have hfinish : ∀ (b : Attempt φ) (o' : CalibrationOutcome), b.outcome = none →
      (b.finish o').attempt.outcome = some o → (b.finish o').attempt.unreaped = false →
      (b.finish o').removes = true := by
    intro b o' hb hfin hrep
    rw [finish_outcome, hb] at hfin
    obtain rfl : o' = o := by simpa using hfin
    rw [(finish_frame b o').2.2.1] at hrep
    exact finish_removes hb hkind hrep
  -- a turn that does not finish leaves the attempt unsettled
  have hunsettled : ∀ b : Attempt φ, b.outcome = a.outcome → b.outcome = some o → False := by
    intro b hb hsome
    rw [hb, hnone] at hsome
    cases hsome
  induction ht with
  | quiet h => exact (hunsettled _ h.outcome ho).elim
  | reads _ h => exact (hunsettled _ h.outcome ho).elim
  | starts _ _ _ => exact (hunsettled _ rfl ho).elim
  | launches _ _ _ => exact (hunsettled _ rfl ho).elim
  | connects _ _ => exact (hunsettled _ rfl ho).elim
  | advances _ _ _ _ _ _ => exact (hunsettled _ rfl ho).elim
  | stops _ _ _ => exact (hunsettled _ rfl ho).elim
  | settles forced _ => exact hfinish _ _ hnone ho hreaped
  | cancels outcome _ _ => exact hfinish _ _ hnone ho hreaped
  | @finishes a₁ _ outcome _ ih =>
    cases h₁ : a₁.outcome with
    | none => exact hfinish _ _ h₁ ho hreaped
    | some o' =>
      -- the turn before the finish would have settled without removing
      rw [finish_outcome, h₁] at ho
      rw [(finish_frame a₁ outcome).2.2.1] at hreaped
      obtain rfl : o' = o := by simpa using ho
      have hremoved : false = true := ih h₁ hreaped
      cases hremoved

/-- **Gloves that an attempt may still hold at its end close the owner**, in the turn that ends
it. -/
theorem Turns.latch {a : Attempt φ} {t : Turn φ} (ht : Turns a t) (ha : a.Sound)
    (hover : t.attempt.superviseAt = .ended) (hholds : t.attempt.Holds) :
    (a.superviseAt = .ended ∧ a.Holds) ∨ t.latch.isSome = true := by
  -- A turn that keeps the four fields keeps what holds the slot.
  have hframe : ∀ b : Attempt φ, b.superviseAt = a.superviseAt → b.unreaped = a.unreaped →
      b.result = a.result → b.startRejection = a.startRejection → b.superviseAt = .ended →
      b.Holds → a.superviseAt = .ended ∧ a.Holds := by
    intro b hplace hunreaped hresult hrejection hb hheld
    rw [Holds, hunreaped, hresult, hrejection] at hheld
    exact ⟨hplace ▸ hb, hheld⟩
  induction ht with
  | quiet h =>
    exact .inl (hframe _ h.superviseAt h.unreaped h.result h.startRejection hover hholds)
  | reads hreading h =>
    -- The reader is gone once the supervision has ended.
    have hplace : a.superviseAt = .ended := h.superviseAt ▸ hover
    have hgone := ha.stopped (by rw [hplace]; decide) (by rw [hplace]; decide)
    rw [hgone] at hreading
    cases hreading
  | starts _ _ _ => exact .inl (hframe _ rfl rfl rfl rfl hover hholds)
  | launches _ _ _ => exact .inl (hframe _ rfl rfl rfl rfl hover hholds)
  | connects _ _ => cases hover
  | advances state place _ _ hto _ =>
    have hplace : place = .ended := hover
    rw [hplace] at hto
    exact absurd hto (by decide)
  | stops _ _ _ => cases hover
  | settles forced _ =>
    have hheld : Holds { a with superviseAt := .ended } := (finish_holds _ _).mp hholds
    exact .inr (decide_latch hheld _ forced)
  | cancels outcome _ _ =>
    have hsame := finish_frame { a with superviseAt := .cancelled } outcome
    rw [hsame.1] at hover
    cases hover
  | @finishes a₁ _ outcome _ ih =>
    have hplace : a₁.superviseAt = .ended := (finish_frame a₁ outcome).1 ▸ hover
    rcases ih hplace ((finish_holds a₁ outcome).mp hholds) with hbefore | hlatch
    · exact .inl hbefore
    · cases hlatch

/-! ### The supervision comes to an end -/

/-- The supervision has a reason to stop waiting. -/
def Stirred (a : Attempt φ) : Prop :=
  a.readerAt = .ended ∨ a.cancelRequested = true ∨ a.resultSeen = true

/-- A turn never takes the supervision back, nor its reason to stop. -/
theorem Turns.forward {a : Attempt φ} {t : Turn φ} (ht : Turns a t) (ha : a.Sound) :
    a.superviseAt.rank ≤ t.attempt.superviseAt.rank ∧ (a.Stirred → t.attempt.Stirred) := by
  have hkeeps : ∀ b : Attempt φ, Keeps a b →
      a.superviseAt.rank ≤ b.superviseAt.rank ∧ (a.Stirred → b.Stirred) := by
    intro b hb
    refine ⟨by rw [hb.superviseAt], ?_⟩
    rintro (h | h | h)
    · exact .inl (hb.readerOver h)
    · exact .inr (.inl (hb.cancelRequested h))
    · exact .inr (.inr (hb.resultSeen h))
  -- Settling an outcome moves neither the supervision nor what stirred it.
  have hfinish : ∀ (b : Attempt φ) (o : CalibrationOutcome),
      a.superviseAt.rank ≤ b.superviseAt.rank ∧ (a.Stirred → b.Stirred) →
      a.superviseAt.rank ≤ (b.finish o).attempt.superviseAt.rank ∧
        (a.Stirred → (b.finish o).attempt.Stirred) := by
    intro b o hb
    have hsame := finish_frame b o
    rw [Stirred, Stirred, hsame.1, hsame.2.1, hsame.2.2.2.2.2.2.2.2.2.2.2.1,
      hsame.2.2.2.2.2.2.2.2.2.2.2.2]
    exact hb
  have hle : a.superviseAt.rank ≤ 7 := by
    cases a.superviseAt <;> simp [SupervisePlace.rank]
  induction ht with
  | quiet h => exact hkeeps _ h.toKeeps
  | reads _ h => exact hkeeps _ h
  | starts _ _ _ => exact ⟨le_refl _, fun h => h⟩
  | launches _ _ _ => exact ⟨le_refl _, fun h => h⟩
  | connects outDir hstart =>
    -- A connection begins at the first place, with the reader just started.
    obtain ⟨hplace, hreader⟩ := ha.early (by rw [hstart]; rfl)
    refine ⟨by rw [hplace]; exact Nat.zero_le _, ?_⟩
    rintro (h | h)
    · rw [hreader] at h
      cases h
    · exact .inr h
  | advances state place _ hrank _ _ => exact ⟨hrank.le, fun h => h⟩
  | stops forced _ hto =>
    refine ⟨?_, fun _ => .inl rfl⟩
    show a.superviseAt.rank ≤ 6
    omega
  | settles forced _ => exact hfinish _ _ ⟨hle, fun h => h⟩
  | cancels outcome _ _ => exact hfinish _ _ ⟨hle, fun h => h⟩
  | finishes _ outcome _ ih => exact hfinish _ _ ih

variable [PyFloat φ] (settings : Settings φ) (texts : PyTexts φ)

/-- The turns that end each wait of the supervision, in their order. -/
def stages : List (Action φ) := [.wake, .graceOver, .exitOver, .termOver true, .killOver, .settled]

/-- The attempt after some of its turns. -/
def turns (a : Attempt φ) (actions : List (Action φ)) : Attempt φ :=
  actions.foldl (fun a action => (a.turn settings texts action).attempt) a

variable {settings texts}

theorem Sound.turn {a : Attempt φ} (ha : a.Sound) (action : Action φ) :
    (a.turn settings texts action).attempt.Sound :=
  (turns_turn settings texts a action).sound ha

theorem turns_outcome {a : Attempt φ} {o : CalibrationOutcome} (ho : a.outcome = some o)
    (actions : List (Action φ)) : (a.turns settings texts actions).outcome = some o := by
  induction actions generalizing a with
  | nil => exact ho
  | cons action rest ih => exact ih ((turns_turn settings texts a action).outcome ho)

/-- A stage takes the supervision past the wait that it ends. -/
theorem stage_advances {a : Attempt φ} (ha : a.Sound) (hstirred : a.Stirred) {k : ℕ}
    {action : Action φ} (haction : stages[k]? = some action) (hrank : k + 1 ≤ a.superviseAt.rank) :
    k + 2 ≤ (a.turn settings texts action).attempt.superviseAt.rank := by
  have hforward := ((turns_turn settings texts a action).forward ha).1
  by_cases hpast : k + 2 ≤ a.superviseAt.rank
  · exact hpast.trans hforward
  have hhere : a.superviseAt.rank = k + 1 := by omega
  -- the supervision stands at the wait of this very stage
  cases hplace : a.superviseAt with
  | notStarted =>
    rw [hplace] at hhere
    cases hhere
  | waiting =>
    rw [hplace] at hhere
    obtain rfl : k = 0 := (Nat.succ.inj hhere).symm
    obtain rfl : Action.wake = action := by simpa [stages] using haction
    have hwake : a.superviseAt = .waiting ∧
        (a.readerAt = .ended ∨ a.cancelRequested ∨ a.resultSeen) := ⟨hplace, hstirred⟩
    show 2 ≤ a.wake.superviseAt.rank
    rw [wake, if_pos hwake]
    split
    · show 2 ≤ SupervisePlace.exiting.rank
      decide
    · show 2 ≤ SupervisePlace.grace.rank
      decide
  | grace =>
    rw [hplace] at hhere
    obtain rfl : k = 1 := (Nat.succ.inj hhere).symm
    obtain rfl : Action.graceOver = action := by simpa [stages] using haction
    show 3 ≤ a.graceOver.superviseAt.rank
    rw [graceOver, if_pos hplace]
    show 3 ≤ SupervisePlace.exiting.rank
    decide
  | exiting =>
    rw [hplace] at hhere
    obtain rfl : k = 2 := (Nat.succ.inj hhere).symm
    obtain rfl : Action.exitOver = action := by simpa [stages] using haction
    show 4 ≤ a.exitOver.superviseAt.rank
    rw [exitOver, if_pos hplace]
    split
    · show 4 ≤ (SupervisePlace.settling false).rank
      decide
    · show 4 ≤ SupervisePlace.terminating.rank
      decide
  | terminating =>
    rw [hplace] at hhere
    obtain rfl : k = 3 := (Nat.succ.inj hhere).symm
    obtain rfl : Action.termOver true = action := by simpa [stages] using haction
    show 5 ≤ (a.termOver true).superviseAt.rank
    rw [termOver, if_pos hplace, if_pos rfl]
    show 5 ≤ SupervisePlace.killing.rank
    decide
  | killing =>
    rw [hplace] at hhere
    obtain rfl : k = 4 := (Nat.succ.inj hhere).symm
    obtain rfl : Action.killOver = action := by simpa [stages] using haction
    show 6 ≤ a.killOver.superviseAt.rank
    rw [killOver, if_pos hplace]
    show 6 ≤ (SupervisePlace.settling true).rank
    decide
  | settling forced =>
    rw [hplace] at hhere
    obtain rfl : k = 5 := (Nat.succ.inj hhere).symm
    obtain rfl : Action.settled = action := by simpa [stages] using haction
    show 7 ≤ a.settled.attempt.superviseAt.rank
    rw [settled, hplace]
    have hsame := (finish_frame { a with superviseAt := .ended }
      (Attempt.decide { a with superviseAt := .ended } a.returncode forced).1).1
    exact (congrArg SupervisePlace.rank hsame).ge
  | ended =>
    rw [hplace] at hhere
    obtain rfl : k = 6 := (Nat.succ.inj hhere).symm
    cases haction
  | cancelled =>
    rw [hplace] at hhere
    obtain rfl : k = 6 := (Nat.succ.inj hhere).symm
    cases haction

/-- **A stirred supervision whose waits all end settles the outcome**, whatever else happens
between them. -/
theorem turns_settles {a : Attempt φ} (ha : a.Sound) (hstirred : a.Stirred)
    {actions : List (Action φ)} {k : ℕ} (hk : (stages.drop k).Sublist actions) (hle : k ≤ 6)
    (hrank : k + 1 ≤ a.superviseAt.rank) :
    (a.turns settings texts actions).outcome.isSome = true := by
  induction actions generalizing a k with
  | nil =>
    have hempty : (stages (φ := φ)).drop k = [] := List.sublist_nil.mp hk
    have hlen : 6 ≤ k := by simpa [stages] using List.drop_eq_nil_iff.mp hempty
    have htop : a.superviseAt.rank ≤ 7 := by
      cases a.superviseAt <;> simp [SupervisePlace.rank]
    exact ha.over_settled (by omega)
  | cons action rest ih =>
    have hforward := (turns_turn settings texts a action).forward ha
    -- An action in between takes nothing back, so the stages may come later.
    have hstay : (stages.drop k).Sublist rest →
        (a.turns settings texts (action :: rest)).outcome.isSome = true := fun hsub =>
      ih (ha.turn action) (hforward.2 hstirred) hsub hle (hrank.trans hforward.1)
    rcases Nat.lt_or_ge k 6 with hlt | hge
    · have hlen : k < (stages (φ := φ)).length := hlt
      rw [List.drop_eq_getElem_cons hlen] at hk hstay
      cases hk with
      | cons _ hsub => exact hstay hsub
      | cons_cons _ hsub =>
        -- The stage that is due moves the supervision on.
        refine ih (ha.turn _) (hforward.2 hstirred) hsub hlt ?_
        exact stage_advances ha hstirred (List.getElem?_eq_getElem hlen) hrank
    · have hempty : (stages (φ := φ)).drop k = [] := by
        rw [List.drop_eq_nil_iff]
        exact hge
      rw [hempty] at hstay
      exact hstay (List.nil_sublist rest)

end Attempt

/-! ### The files of a completed attempt -/

namespace Attempt

variable {φ : Type}

theorem filesMatch_iff {a : Attempt φ} {r : Result} :
    a.filesMatch r = true ↔ ∀ side, filesBySide r.files side = a.exportsBySide side ∧
      ((a.exportsBySide side).isSome = true ↔ side ∈ a.sides) := by
  have heach : ∀ side, (filesBySide r.files side = a.exportsBySide side ∧
      (filesBySide r.files side).isSome = Decidable.decide (side ∈ a.sides)) ↔
      (filesBySide r.files side = a.exportsBySide side ∧
        ((a.exportsBySide side).isSome = true ↔ side ∈ a.sides)) := by
    intro side
    refine and_congr_right fun hsame => ?_
    rw [hsame, Bool.eq_iff_iff, decide_eq_true_eq]
  rw [filesMatch, List.all_eq_true]
  constructor
  · intro h side
    rw [← heach side]
    have hside : side ∈ [Side.left, Side.right] := by cases side <;> simp
    simpa using h side hside
  · intro h side _
    simpa using (heach side).mpr (h side)

theorem exportsBySide_side {a : Attempt φ} {side : Side} {f : ExportedFile}
    (h : a.exportsBySide side = some f) : f.side = side := by
  obtain ⟨e, -, rfl⟩ := Option.map_eq_some_iff.mp h
  rfl

theorem mem_of_filesBySide {files : List ExportedFile} {side : Side} {f : ExportedFile}
    (h : filesBySide files side = some f) : f ∈ files ∧ f.side = side := by
  refine ⟨List.mem_reverse.mp (List.mem_of_find?_eq_some h), ?_⟩
  simpa using List.find?_some h

theorem filesBySide_of_mem {files : List ExportedFile} (hnodup : (files.map (·.side)).Nodup)
    {f : ExportedFile} (hf : f ∈ files) : filesBySide files f.side = some f := by
  cases hfound : filesBySide files f.side with
  | none =>
    rw [filesBySide, List.find?_eq_none] at hfound
    exact absurd (by simp) (hfound f (List.mem_reverse.mpr hf))
  | some g =>
    obtain ⟨hg, hside⟩ := mem_of_filesBySide hfound
    rw [List.inj_on_of_nodup_map hnodup hg hf hside]

/-- The files of a completed outcome: one for each requested side. -/
theorem Complete.files_sides {a : Attempt φ} {o : CalibrationOutcome} {r : Result}
    (h : a.Complete o r) : o.files.map (·.side) = a.sides := by
  have hmatch := filesMatch_iff.mp h.filesMatch
  rw [h.files]
  have hall : ∀ l : List Side, (∀ side ∈ l, side ∈ a.sides) →
      (l.filterMap a.exportsBySide).map (·.side) = l := by
    intro l
    induction l with
    | nil => exact fun _ => rfl
    | cons side rest ih =>
      intro hl
      obtain ⟨f, hf⟩ := Option.isSome_iff_exists.mp
        ((hmatch side).2.mpr (hl side List.mem_cons_self))
      rw [List.filterMap_cons_some hf, List.map_cons, exportsBySide_side hf,
        ih fun s hs => hl s (List.mem_cons_of_mem side hs)]
  exact hall a.sides fun _ h => h

/-- A result that lists no side twice lists exactly the files of the outcome. -/
theorem Complete.files_perm {a : Attempt φ} {o : CalibrationOutcome} {r : Result}
    (h : a.Complete o r) (ha : a.Sound) (hnodup : (r.files.map (·.side)).Nodup) :
    r.files.Perm o.files := by
  have hmatch := filesMatch_iff.mp h.filesMatch
  have hout : (o.files.map (·.side)).Nodup := h.files_sides ▸ ha.sides_nodup
  rw [List.perm_ext_iff_of_nodup hnodup.of_map hout.of_map]
  intro f
  rw [h.files, List.mem_filterMap]
  constructor
  · intro hf
    have hby := filesBySide_of_mem hnodup hf
    rw [(hmatch f.side).1] at hby
    refine ⟨f.side, ?_, hby⟩
    rw [← (hmatch f.side).2, hby]
    rfl
  · rintro ⟨side, -, hf⟩
    rw [← (hmatch side).1] at hf
    exact (mem_of_filesBySide hf).1

end Attempt

/-! ### Runs -/

namespace Supervisor

open Attempt (Sound Holds Stirred stages)

variable {φ : Type} [PyFloat φ] (settings : Settings φ) (texts : PyTexts φ)

/-- The turns of one attempt in some steps. -/
def actionsOf (i : ℕ) (steps : List (Step φ)) : List (Attempt.Action φ) :=
  steps.filterMap fun
    | .turn j action _ => if j = i then some action else none
    | _ => none

/-- The steps of a run take an attempt through its own turns. -/
theorem foldl_attempt {s : Supervisor φ} {i : ℕ} {a : Attempt φ} (h : s.attempts[i]? = some a)
    (steps : List (Step φ)) :
    (steps.foldl (step settings texts) s).attempts[i]?
      = some (a.turns settings texts (actionsOf i steps)) := by
  induction steps generalizing s a with
  | nil => exact h
  | cons x rest ih =>
    rw [List.foldl_cons]
    cases x with
    | newAttempt attemptId =>
      -- A new attempt stands behind the others.
      refine ih (s := s.newAttempt attemptId) (a := a) ?_
      rw [newAttempt]
      split
      · exact h
      · split
        · exact h
        · exact List.getElem?_append_left (List.getElem?_eq_some_iff.mp h).1 ▸ h
    | turn j action unlinkFails =>
      have hactions : actionsOf i (Step.turn j action unlinkFails :: rest)
          = (if j = i then [action] else []) ++ actionsOf i rest := by
        rw [actionsOf, List.filterMap_cons]
        -- Only its own turns change an attempt.
        by_cases hj : j = i
        · simp [hj, actionsOf]
        · simp [hj, actionsOf]
      rw [hactions]
      by_cases hj : j = i
      · subst hj
        rw [if_pos rfl]
        refine ih (s := step settings texts s _) ?_
        simp only [step, h, apply]
        rw [List.getElem?_set_self (List.getElem?_eq_some_iff.mp h).1]
      · rw [if_neg hj]
        refine ih (s := step settings texts s _) ?_
        rw [step]
        split
        · show (s.attempts.set j _)[i]? = some a
          rw [List.getElem?_set_ne hj]
          exact h
        · exact h
    | wrote j file =>
      refine ih (s := step settings texts s _) ?_
      rw [step]
      split
      · split
        · exact h
        · exact h
      · exact h

/-- What every reachable state satisfies. -/
structure SoundState (s : Supervisor φ) : Prop where
  attempts : ∀ (i : ℕ) (a : Attempt φ), s.attempts[i]? = some a → a.Sound
  active : ∀ (i : ℕ) (a : Attempt φ), s.attempts[i]? = some a → a.outcome = none → s.active = some i
  latched : ∀ (i : ℕ) (a : Attempt φ), s.attempts[i]? = some a → a.superviseAt = .ended →
    a.Holds → s.unreleased.isSome = true

variable {settings texts}

theorem SoundState.newAttempt {s : Supervisor φ} (hs : SoundState s) (attemptId : PyStr) :
    SoundState (s.newAttempt attemptId) := by
  rw [Supervisor.newAttempt]
  split
  · exact hs
  split
  · exact hs
  rename_i hfree
  -- an attempt is an old one, or the new one at the end
  have hcases : ∀ (i : ℕ) (a : Attempt φ), (s.attempts ++ [Attempt.init attemptId])[i]? = some a →
      s.attempts[i]? = some a ∨ i = s.attempts.length ∧ a = Attempt.init attemptId := by
    intro i a h
    rw [List.getElem?_append] at h
    split at h
    · exact .inl h
    · rename_i hlen
      rw [List.getElem?_singleton] at h
      split at h
      · exact .inr ⟨by omega, (Option.some.inj h).symm⟩
      · cases h
  refine ⟨fun i a h => ?_, fun i a h hnone => ?_, fun i a h hplace hholds => ?_⟩
  · rcases hcases i a h with hold | ⟨-, rfl⟩
    · exact hs.attempts i a hold
    · exact Attempt.sound_init attemptId
  · rcases hcases i a h with hold | ⟨rfl, -⟩
    · -- an old attempt that is not settled would be active and not done
      refine absurd ⟨a, ?_, fun hdone => ?_⟩ hfree
      · rw [hs.active i a hold hnone]
        exact hold
      · have hsettled := (hs.attempts i a hold).done_settled hdone
        rw [hnone] at hsettled
        cases hsettled
    · rfl
  · rcases hcases i a h with hold | ⟨-, rfl⟩
    · exact hs.latched i a hold hplace hholds
    · cases hplace

omit [PyFloat φ] in
theorem SoundState.apply {s : Supervisor φ} (hs : SoundState s) {i : ℕ} {a : Attempt φ}
    (ha : s.attempts[i]? = some a) {t : Attempt.Turn φ} (ht : a.Turns t)
    (unlinkFails : PyStr → Bool) : SoundState (s.apply i t unlinkFails) := by
  -- A turn changes one attempt.
  have hcases : ∀ (j : ℕ) (b : Attempt φ), (s.attempts.set i t.attempt)[j]? = some b →
      j = i ∧ b = t.attempt ∨ s.attempts[j]? = some b := by
    intro j b h
    by_cases hj : i = j
    · subst hj
      rw [List.getElem?_set_self (List.getElem?_eq_some_iff.mp ha).1] at h
      exact .inl ⟨rfl, (Option.some.inj h).symm⟩
    · rw [List.getElem?_set_ne hj] at h
      exact .inr h
  -- No turn takes the latch back.
  have hlatch : ∀ (j : ℕ) (b : Attempt φ), s.attempts[j]? = some b → b.superviseAt = .ended →
      b.Holds → (t.latch.or s.unreleased).isSome = true := by
    intro j b hb hplace hholds
    have hbefore := hs.latched j b hb hplace hholds
    cases t.latch with
    | none => exact hbefore
    | some _ => rfl
  refine ⟨fun j b h => ?_, fun j b h hnone => ?_, fun j b h hplace hholds => ?_⟩
  · rcases hcases j b h with ⟨-, rfl⟩ | hold
    · exact ht.sound (hs.attempts i a ha)
    · exact hs.attempts j b hold
  · rcases hcases j b h with ⟨rfl, rfl⟩ | hold
    · cases hout : a.outcome with
      | none => exact hs.active j a ha hout
      | some o =>
        rw [ht.outcome hout] at hnone
        cases hnone
    · exact hs.active j b hold hnone
  · rcases hcases j b h with ⟨rfl, rfl⟩ | hold
    · rcases ht.latch (hs.attempts j a ha) hplace hholds with ⟨hp, hh⟩ | hsome
      · exact hlatch j a ha hp hh
      · show (t.latch.or s.unreleased).isSome = true
        rw [Option.isSome_or, hsome]
        rfl
    · exact hlatch j b hold hplace hholds

theorem SoundState.step {s : Supervisor φ} (hs : SoundState s) (x : Step φ) :
    SoundState (Supervisor.step settings texts s x) := by
  cases x with
  | newAttempt attemptId => exact hs.newAttempt attemptId
  | turn i action unlinkFails =>
    rw [Supervisor.step]
    split
    · exact hs.apply ‹_› (Attempt.turns_turn settings texts _ action) unlinkFails
    · exact hs
  | wrote i file =>
    rw [Supervisor.step]
    split
    · split
      · exact ⟨hs.attempts, hs.active, hs.latched⟩
      · exact hs
    · exact hs

/-- **Every reachable state satisfies the invariant.** -/
theorem sound_run (steps : List (Step φ)) : SoundState (run settings texts steps) := by
  induction steps using List.reverseRecOn with
  | nil =>
    refine ⟨fun i a h => ?_, fun i a h => ?_, fun i a h => ?_⟩
    · cases h
    · cases h
    · cases h
  | append_singleton steps x ih =>
    rw [run, List.foldl_append]
    exact ih.step x

/-- A closed owner stays closed, and creates no attempt. -/
theorem foldl_closed {s : Supervisor φ} (hs : s.unreleased.isSome = true)
    (steps : List (Step φ)) :
    (steps.foldl (Supervisor.step settings texts) s).attempts.length = s.attempts.length := by
  induction steps generalizing s with
  | nil => rfl
  | cons x rest ih =>
    rw [List.foldl_cons]
    -- A latched supervisor refuses new attempts, and no step takes the latch back.
    have hstep : (Supervisor.step settings texts s x).unreleased.isSome = true ∧
        (Supervisor.step settings texts s x).attempts.length = s.attempts.length := by
      cases x with
      | newAttempt attemptId =>
        rw [Supervisor.step, Supervisor.newAttempt, if_pos hs]
        exact ⟨hs, rfl⟩
      | turn i action unlinkFails =>
        rw [Supervisor.step]
        split
        · refine ⟨?_, List.length_set⟩
          show (Option.or _ s.unreleased).isSome = true
          rw [Option.isSome_or, hs, Bool.or_true]
        · exact ⟨hs, rfl⟩
      | wrote i file =>
        rw [Supervisor.step]
        split
        · split
          · exact ⟨hs, rfl⟩
          · exact ⟨hs, rfl⟩
        · exact ⟨hs, rfl⟩
    rw [ih hstep.1, hstep.2]

theorem run_append (steps more : List (Step φ)) :
    run settings texts (steps ++ more)
      = more.foldl (step settings texts) (run settings texts steps) := by
  rw [run, List.foldl_append]
  rfl

/-- A turn that settles other than with success leaves none of the attempt's files, save those
that the file system did not delete. -/
theorem turn_removes {s : Supervisor φ} {i : ℕ} {a a' : Attempt φ} {action : Attempt.Action φ}
    {unlinkFails : PyStr → Bool} {o : CalibrationOutcome} (ha : s.attempts[i]? = some a)
    (ha' : (step settings texts s (.turn i action unlinkFails)).attempts[i]? = some a')
    (hnone : a.outcome = none) (ho : a'.outcome = some o) (hkind : o.kind ≠ .completed)
    (hreaped : a'.unreaped = false) :
    ∀ file ∈ (step settings texts s (.turn i action unlinkFails)).folder,
      a'.owns file = true → unlinkFails file = true := by
  simp only [step, ha, apply] at ha' ⊢
  rw [List.getElem?_set_self (List.getElem?_eq_some_iff.mp ha).1] at ha'
  obtain rfl := Option.some.inj ha'
  rw [(Attempt.turns_turn settings texts a action).removes hnone ho hkind hreaped, if_pos rfl]
  intro file hfile howns
  have hkept := (List.mem_filter.mp hfile).2
  rw [howns] at hkept
  simpa using hkept

end Supervisor

open Supervisor (run actionsOf)

variable {φ : Type} [PyFloat φ]

namespace Example

def settings : Settings ExactFloat where
  executable := ofString "/opt/worker"
  outDir := ofString "/data"
  readyTimeoutS := .finite 10
  startupTimeoutS := .finite 60
  confirmTimeoutS := .finite 30
  finishTimeoutS := .finite 60
  logTailLines := 100
  progressSlackS := .finite (1 / 1000000)

def texts : PyTexts ExactFloat where
  jsonError _ := ofString "Expecting value"
  utf8Error _ := ofString "invalid start byte"
  repr _ := ofString "..."
  reprNames _ := ofString "[...]"
  formatG _ := ofString "10"

/-- A turn of the first attempt. -/
def turn (action : Attempt.Action ExactFloat) : Step ExactFloat :=
  .turn 0 action fun _ => false

/-- A line of the first worker. -/
def line (text : String) : Step ExactFloat :=
  turn (.read (.line (lit (text ++ "\n"))) (.finite 0))

def attemptId : PyStr := ofString "cal-000000000000"

/-- An attempt for the left glove, up to the `start` line. -/
def started : List (Step ExactFloat) :=
  [.newAttempt attemptId, turn (.start [.left] (.ok (ofString "/data"))),
    turn (.launched (.ok 7)), turn (.connected none),
    line "\x7b\"v\":1,\"type\":\"ready\",\"worker_version\":\"1\",\"sdk_version\":null\x7d",
    turn (.readyWaited false false false (.finite 0))]

/-- The worker exits by itself with code 0. -/
def exits : List (Step ExactFloat) :=
  [turn (.exited 0), turn .wake, turn .graceOver, turn .exitOver, turn .settled]

def digest : String := String.ofList (List.replicate 64 'a')

def fileFields : String :=
  "\"file\":\"cal-000000000000_left.mcal\",\"bytes\":1,\"sha256\":\"" ++ digest ++ "\"\x7d"

/-- A worker that exports one file and completes. -/
def completing : List (Step ExactFloat) :=
  started ++
    [line ("\x7b\"v\":1,\"type\":\"exported\",\"attempt\":\"cal-000000000000\"," ++
        "\"side\":\"left\",\"glove_id\":1," ++ fileFields),
      line ("\x7b\"v\":1,\"type\":\"result\",\"attempt\":\"cal-000000000000\"," ++
        "\"outcome\":\"completed\",\"released\":true,\"files\":[\x7b\"side\":\"left\"," ++
        fileFields ++ "]\x7d")] ++
    exits

/-- A worker that rejects the start and then reports that it holds the SDK. -/
def rejecting : List (Step ExactFloat) :=
  started ++
    [line ("\x7b\"v\":1,\"type\":\"rejected\",\"attempt\":\"cal-000000000000\"," ++
        "\"command\":\"start\",\"reason\":\"busy\",\"message\":\"\"\x7d"),
      line ("\x7b\"v\":1,\"type\":\"result\",\"attempt\":\"cal-000000000000\"," ++
        "\"outcome\":\"cancelled\",\"released\":false\x7d")] ++
    exits

/-- A worker that survives SIGKILL, and a supervision that is cancelled before it says so. -/
def surviving : List (Step ExactFloat) :=
  started ++ [turn (.cancel false), turn .wake, turn .graceOver, turn .exitOver,
    turn (.termOver true), turn .killOver, turn .superviseCancelled]

end Example

open Example (settings texts)

end ManusCalibration
