/-
Pipelined stepping of a teleop session.

The application thread drives the runner of `AsyncRetargetRunner.lean` through
`TeleopSession._step_pipelined`: it submits a request, reads the latest frame,
copies it, and only after a successful copy acknowledges the frame's reset
generation and advances the frame count.  The worker acts in between at any
point.  `Session.Step` is the interleaving of both, and every session step is
zero or more steps of the runner machine (`Session.Step.machine`).

* `Session.Inv` — frame ids are ordered from the published frame to the frame
  count, and acknowledged generations are those returned to the caller;
* `no_reset_lost_or_invented` — no reset is lost or invented;
* `submissions_conserved` — each submission has one fate, executions follow the
  submission order, and frame ages are never negative.
-/
import IsaacTeleop.AsyncRetargetRunner
import Mathlib

namespace PipelinedSession

open AsyncRetargetRunner

variable {Io Time Exc : Type}

/-- Where the application thread is inside `step()`. -/
inductive App (Io Time : Type)
  /-- no runner yet: the next step is the synchronous seed -/
  | noRunner
  | idle
  /-- the request was accepted, `latest()` comes next -/
  | submitted (submittedFrameId dropped : ℕ)
  /-- inside `_return_pipelined_frame`, before the output copy -/
  | returning (frame : RetargetFrame Io Time) (submittedFrameId dropped : ℕ)
      (ranSynchronously : Bool)

/-- A step that returned to the caller (`last_context`, `last_step_info`). -/
structure Return where
  returnedFrameId : ℕ
  submittedFrameId : ℕ
  returnedAgeFrames : ℤ
  droppedSubmissions : ℕ
  ranSynchronously : Bool
  reset : Bool
  /-- the generations acknowledged before and by this return -/
  acknowledgedBefore : ℕ
  generation : ℕ

/-- Application thread and runner. -/
structure Session (Io Time Exc : Type) where
  machine : Machine Io Time Exc := {}
  frameCount : ℕ := 0
  app : App Io Time := .noRunner
  returns : List Return := []

/-- The bookkeeping of `_return_pipelined_frame` once the copy succeeded. -/
def Session.finishStep (s : Session Io Time Exc) (frame : RetargetFrame Io Time)
    (submittedFrameId dropped : ℕ) (ranSynchronously : Bool) (r : Runner Io Time Exc) :
    Session Io Time Exc where
  machine := { s.machine with runner := r }
  frameCount := s.frameCount + 1
  app := .idle
  returns := s.returns ++ [
    { returnedFrameId := frame.frameId
      submittedFrameId := submittedFrameId
      returnedAgeFrames := (submittedFrameId : ℤ) - frame.frameId
      droppedSubmissions := dropped
      ranSynchronously := ranSynchronously
      reset := frame.context.executionEvents.reset
      acknowledgedBefore := s.machine.runner.acknowledgedResetGeneration
      generation := frame.resetGeneration }]

/-- One action of the application thread, of the worker, or a stop. -/
inductive Session.Step [Sub Time] : Session Io Time Exc → Session Io Time Exc → Prop
  /-- `_step_pipelined_seed`: execute, start the worker, publish the frame -/
  | seed {s} (request : StepRequest Io Time) (x : Execution Io Time) (ha : s.app = .noRunner)
      (hid : request.frameId = s.frameCount) :
      Step s { s with
        machine := { s.machine with
          runner := s.machine.runner.start.publishSeed (x.frame request), worker := .waiting }
        app := .returning (x.frame request) request.frameId 0 true }
  | submit {s} (request : StepRequest Io Time) {dropped r} (ha : s.app = .idle)
      (hid : request.frameId = s.frameCount)
      (h : s.machine.runner.submit s.machine.history.accepted.length request
        = (.ok dropped, r)) :
      Step s { s with
        machine := s.machine.accept request dropped r
        app := .submitted request.frameId dropped }
  | submitRaises {s} (request : StepRequest Io Time) {e r} (ha : s.app = .idle)
      (h : s.machine.runner.submit s.machine.history.accepted.length request = (.error e, r)) :
      Step s { s with machine := { s.machine with runner := r } }
  | latest {s frameId dropped frame r} (ha : s.app = .submitted frameId dropped)
      (h : s.machine.runner.latest = (.ok (some frame), r)) :
      Step s { s with
        machine := { s.machine with runner := r }, app := .returning frame frameId dropped false }
  | latestRaises {s frameId dropped} (ha : s.app = .submitted frameId dropped)
      (h : ∀ frame, s.machine.runner.latest.1 ≠ .ok (some frame)) :
      Step s { s with machine := { s.machine with runner := s.machine.runner.latest.2 },
                      app := .idle }
  /-- the output copy raises: nothing is acknowledged, the frame count stays -/
  | copyFails {s frame frameId dropped sync} (ha : s.app = .returning frame frameId dropped sync) :
      Step s { s with app := .idle }
  | finish {s frame frameId dropped sync r} (ha : s.app = .returning frame frameId dropped sync)
      (h : s.machine.runner.acknowledgeReset frame.resetGeneration = (.ok (), r)) :
      Step s (s.finishStep frame frameId dropped sync r)
  | acknowledgeRaises {s frame frameId dropped sync e r}
      (ha : s.app = .returning frame frameId dropped sync)
      (h : s.machine.runner.acknowledgeReset frame.resetGeneration = (.error e, r)) :
      Step s { s with machine := { s.machine with runner := r }, app := .idle }
  | raiseIfFailed {s} (onlyUnreported : Bool) (ha : s.app = .idle) :
      Step s { s with machine := { s.machine with
        runner := (s.machine.runner.raiseIfFailed onlyUnreported).2 } }
  | stop {s} (ha : s.app ≠ .noRunner) : Step s { s with machine := s.machine.setStop }
  | worker {s m'} (ha : s.app ≠ .noRunner) (h : s.machine.WorkerStep m') :
      Step s { s with machine := m' }

/-- The sessions reachable from a freshly entered one. -/
def Session.Reachable [Sub Time] (s : Session Io Time Exc) : Prop :=
  Relation.ReflTransGen Session.Step {} s

/-! ### Sessions run the runner machine -/

theorem machine_seed [Sub Time] {m : Machine Io Time Exc} (frame : RetargetFrame Io Time)
    (hw : m.worker = .created) (hc : m.runner.closed = false) :
    Relation.ReflTransGen Machine.Step m
      { m with runner := m.runner.start.publishSeed frame, worker := .waiting } :=
  (Relation.ReflTransGen.single (Machine.Step.start hw hc)).tail (Machine.Step.publishSeed frame)

/-- Before the seed the runner has not been created. -/
def Session.Fresh (s : Session Io Time Exc) : Prop :=
  s.app = .noRunner → s.machine.worker = .created ∧ s.machine.runner.closed = false ∧
    s.machine.runner.published = none ∧ s.machine.runner.pending = none ∧
    s.machine.history.accepted = []

/-- **Refinement.**  Every session step is a run of the runner machine. -/
theorem Session.Step.machine [Sub Time] {s s' : Session Io Time Exc} (h : s.Step s')
    (hfresh : s.Fresh) : Relation.ReflTransGen Machine.Step s.machine s'.machine := by
  cases h with
  | seed request x ha hid =>
    -- Seeding is the one step that moves the machine several times.
    obtain ⟨hw, hc, -⟩ := hfresh ha
    exact machine_seed _ hw hc
  | submit request ha hid hsub => exact .single (.submit request hsub)
  | submitRaises request ha hsub => exact .single (.submitRaises request hsub)
  | latest ha hl =>
    have hstep := Machine.Step.latest (m := s.machine)
    rw [hl] at hstep
    exact .single hstep
  | latestRaises ha hl => exact .single .latest
  | copyFails ha => exact .refl
  | finish ha hack =>
    rename_i frame _ _ _ r
    have hstep := Machine.Step.acknowledgeReset (m := s.machine) frame.resetGeneration
    rw [hack] at hstep
    exact .single hstep
  | acknowledgeRaises ha hack =>
    rename_i frame _ _ _ _ r
    have hstep := Machine.Step.acknowledgeReset (m := s.machine) frame.resetGeneration
    rw [hack] at hstep
    exact .single hstep
  | raiseIfFailed b ha => exact .single (.raiseIfFailed b)
  | stop ha => exact .single .setStop
  | worker ha hw => exact .single (.worker hw)

/-- Only the seed leaves `noRunner`, and nothing comes back to it. -/
theorem Session.Step.app_ne_noRunner [Sub Time] {s s' : Session Io Time Exc} (h : s.Step s') :
    s'.app ≠ .noRunner := by
  cases h <;> simp_all [Session.finishStep]

theorem Session.Step.fresh [Sub Time] {s s' : Session Io Time Exc} (h : s.Step s') : s'.Fresh :=
  fun ha => absurd ha h.app_ne_noRunner

theorem machineInv_of_steps [Sub Time] {m m' : Machine Io Time Exc} (h : m.Inv)
    (hs : Relation.ReflTransGen Machine.Step m m') : m'.Inv := by
  induction hs with
  | refl => exact h
  | tail _ hstep ih => exact hstep.inv ih

/-! ### Frame ids -/

/-- Frame ids from the published frame over the running to the pending one. -/
def frameIds (m : Machine Io Time Exc) : List ℕ :=
  m.runner.published.toList.map RetargetFrame.frameId ++
    (m.worker.runningList ++ m.runner.pending.toList).map (·.request.frameId)

/-- The worker only moves requests forward. -/
theorem frameIds_workerStep [Sub Time] {m m' : Machine Io Time Exc} (h : m.WorkerStep m') :
    (frameIds m').Sublist (frameIds m) := by
  cases h with
  | look hw hs hp => rw [frameIds, frameIds, hw]; exact .refl _
  | abandon hw hp => rw [frameIds, frameIds, hw]; exact .refl _
  | exit hw hs => rw [frameIds, frameIds, hw]; exact .refl _
  | take hw hp => simp [frameIds, hw, hp, Machine.take, Worker.runningList]
  | complete x hw =>
    simp only [frameIds, hw, Machine.complete, Runner.publish, Worker.runningList,
      Execution.frame]
    exact List.sublist_append_right _ _
  | fail e hw =>
    simp only [frameIds, hw, Machine.fail, Runner.storeException, Worker.runningList]
    exact (List.Sublist.refl _).append ((List.sublist_append_right _ _).map _)

theorem frameIds_setStop (m : Machine Io Time Exc) :
    (frameIds m.setStop).Sublist (frameIds m) := by
  simp only [frameIds, Machine.setStop, Runner.setStop]
  exact (List.Sublist.refl _).append
    (((List.Sublist.refl _).append (List.nil_sublist _)).map _)

theorem pairwise_le_append_of_sublist {l l' : List ℕ} {n : ℕ} (hs : l'.Sublist l)
    (h : (l ++ [n]).Pairwise (· ≤ ·)) : (l' ++ [n]).Pairwise (· ≤ ·) :=
  h.sublist (hs.append (.refl _))

/-- The session invariant. -/
structure Session.Inv (s : Session Io Time Exc) : Prop where
  machine : s.machine.Inv
  fresh : s.Fresh
  seeded : s.app ≠ .noRunner → s.machine.runner.published.isSome = true
  frames : (frameIds s.machine ++ [s.frameCount]).Pairwise (· ≤ ·)
  submitted : ∀ id dropped, s.app = .submitted id dropped → id = s.frameCount
  returning : ∀ frame id dropped sync, s.app = .returning frame id dropped sync →
    id = s.frameCount ∧ frame.frameId ≤ id ∧
      frame.resetGeneration ≤ s.machine.runner.resetGeneration ∧
      (sync = true → frame.resetGeneration = 0) ∧
      (sync = false → frame.context.executionEvents.reset
        = decide (s.machine.runner.acknowledgedResetGeneration < frame.resetGeneration))
  ages : ∀ r ∈ s.returns,
    r.returnedAgeFrames = (r.submittedFrameId : ℤ) - r.returnedFrameId ∧ 0 ≤ r.returnedAgeFrames
  honest : ∀ r ∈ s.returns, r.ranSynchronously = false →
    r.reset = decide (r.acknowledgedBefore < r.generation)
  acknowledged : ∀ r ∈ s.returns,
    r.generation ≤ s.machine.runner.acknowledgedResetGeneration
  disjoint : s.returns.Pairwise fun r r' => r.generation ≤ r'.acknowledgedBefore
  /-- every acknowledged generation was returned with the reset flag set -/
  reported : ∀ g, 0 < g → g ≤ s.machine.runner.acknowledgedResetGeneration →
    ∃ r ∈ s.returns, r.ranSynchronously = false ∧ r.reset = true ∧
      r.acknowledgedBefore < g ∧ g ≤ r.generation

theorem Session.Inv.init : Session.Inv ({} : Session Io Time Exc) where
  machine := Machine.Inv.init
  fresh _ := ⟨rfl, rfl, rfl, rfl, rfl⟩
  seeded h := absurd rfl h
  frames := by simp [frameIds, Worker.runningList]
  submitted _ _ h := by cases h
  returning _ _ _ _ h := by cases h
  ages := by simp
  honest := by simp
  acknowledged := by simp
  disjoint := List.Pairwise.nil
  reported g h0 hg := absurd (Nat.lt_of_lt_of_le h0 hg) (Nat.lt_irrefl 0)

/-- A step that acknowledges nothing and returns nothing keeps the part of the
invariant about returns. -/
theorem Session.Inv.of_quiet {s s' : Session Io Time Exc} (h : s.Inv) (hm : s'.machine.Inv)
    (hf : s'.Fresh) (hseed : s'.app ≠ .noRunner → s'.machine.runner.published.isSome = true)
    (hframes : (frameIds s'.machine ++ [s'.frameCount]).Pairwise (· ≤ ·))
    (hsub : ∀ id dropped, s'.app = .submitted id dropped → id = s'.frameCount)
    (hret : ∀ frame id dropped sync, s'.app = .returning frame id dropped sync →
      id = s'.frameCount ∧ frame.frameId ≤ id ∧
        frame.resetGeneration ≤ s'.machine.runner.resetGeneration ∧
        (sync = true → frame.resetGeneration = 0) ∧
        (sync = false → frame.context.executionEvents.reset
          = decide (s'.machine.runner.acknowledgedResetGeneration < frame.resetGeneration)))
    (hreturns : s'.returns = s.returns)
    (hack : s'.machine.runner.acknowledgedResetGeneration
      = s.machine.runner.acknowledgedResetGeneration) : s'.Inv := by
  refine ⟨hm, hf, hseed, hframes, hsub, hret, ?_, ?_, ?_, ?_, ?_⟩
  · rw [hreturns]; exact h.ages
  · rw [hreturns]; exact h.honest
  · rw [hreturns, hack]; exact h.acknowledged
  · rw [hreturns]; exact h.disjoint
  · rw [hreturns, hack]; exact h.reported

theorem generation_workerStep [Sub Time] {m m' : Machine Io Time Exc} (h : m.WorkerStep m') :
    m.runner.resetGeneration ≤ m'.runner.resetGeneration ∧
      m'.runner.acknowledgedResetGeneration = m.runner.acknowledgedResetGeneration ∧
      (m.runner.published.isSome = true → m'.runner.published.isSome = true) := by
  cases h with
  | look hw hs hp => exact ⟨Nat.le_refl _, rfl, id⟩
  | abandon hw hp => exact ⟨Nat.le_refl _, rfl, id⟩
  | exit hw hs => exact ⟨Nat.le_refl _, rfl, id⟩
  | take hw hp => exact ⟨Nat.le_refl _, rfl, id⟩
  | fail e hw => exact ⟨Nat.le_refl _, rfl, id⟩
  | complete x hw =>
    refine ⟨?_, rfl, fun _ => rfl⟩
    show m.runner.resetGeneration ≤ (m.runner.publish _).resetGeneration
    rw [Runner.publish]
    split
    · exact Nat.le_succ _
    · exact Nat.le_refl _

/-- A successful return: the acknowledged generations grow by exactly the ones
this return reports. -/
theorem Session.Inv.finishStep {s : Session Io Time Exc} (h : s.Inv)
    {frame : RetargetFrame Io Time} {id dropped : ℕ} {sync : Bool} {r : Runner Io Time Exc}
    (ha : s.app = .returning frame id dropped sync)
    (hack : s.machine.runner.acknowledgeReset frame.resetGeneration = (.ok (), r))
    (hm : (s.finishStep frame id dropped sync r).machine.Inv) :
    (s.finishStep frame id dropped sync r).Inv := by
  obtain ⟨rfl, hage, hgen, hsync, hflag⟩ := h.returning _ _ _ _ ha
  have hr : r = { s.machine.runner with
      acknowledgedResetGeneration :=
        max s.machine.runner.acknowledgedResetGeneration frame.resetGeneration } := by
    rw [Runner.acknowledgeReset, if_pos hgen] at hack
    exact (Prod.mk.inj hack).2.symm
  have hseed : s.machine.runner.published.isSome = true := h.seeded (by rw [ha]; simp)
  subst hr
  refine ⟨hm, fun hc => ?_, fun _ => hseed, ?_, ?_, ?_, ?_, ?_, ?_, ?_, ?_⟩
  · cases hc
  · show (frameIds s.machine ++ [s.frameCount + 1]).Pairwise (· ≤ ·)
    have hf := h.frames
    rw [List.pairwise_append] at hf ⊢
    refine ⟨hf.1, by simp, fun a hmem b hb => ?_⟩
    obtain rfl := List.mem_singleton.mp hb
    exact Nat.le_succ_of_le (hf.2.2 a hmem _ (List.mem_singleton_self _))
  · intro _ _ hc
    cases hc
  · intro _ _ _ _ hc
    cases hc
  · intro r hr
    rcases List.mem_append.mp hr with hr | hr
    · exact h.ages r hr
    · obtain rfl := List.mem_singleton.mp hr
      refine ⟨rfl, ?_⟩
      show (0 : ℤ) ≤ (s.frameCount : ℤ) - frame.frameId
      omega
  · intro r hr hs
    rcases List.mem_append.mp hr with hr | hr
    · exact h.honest r hr hs
    · obtain rfl := List.mem_singleton.mp hr
      exact hflag hs
  · intro r hr
    rcases List.mem_append.mp hr with hr | hr
    · exact Nat.le_trans (h.acknowledged r hr) (Nat.le_max_left _ _)
    · obtain rfl := List.mem_singleton.mp hr
      exact Nat.le_max_right _ _
  · show (s.returns ++ [_]).Pairwise _
    rw [List.pairwise_append]
    refine ⟨h.disjoint, List.pairwise_singleton _ _, fun r hr r' hr' => ?_⟩
    obtain rfl := List.mem_singleton.mp hr'
    exact h.acknowledged r hr
  · intro g h0 hg
    rcases Nat.lt_or_ge s.machine.runner.acknowledgedResetGeneration g with hnew | hold
    · -- acknowledged only now, hence reported by this return
      have hg' : g ≤ frame.resetGeneration := by
        have hmax : g ≤ max s.machine.runner.acknowledgedResetGeneration
            frame.resetGeneration := hg
        omega
      have hs : sync = false := by
        cases sync with
        | false => rfl
        | true =>
          have := hsync rfl
          omega
      refine ⟨_, List.mem_append_right _ (List.mem_singleton_self _), hs, ?_, hnew, hg'⟩
      show frame.context.executionEvents.reset = true
      rw [hflag hs, decide_eq_true_eq]
      omega
    · obtain ⟨r, hr, hrest⟩ := h.reported g h0 hold
      exact ⟨r, List.mem_append_left _ hr, hrest⟩

/-- **Step lemma.**  Every session step keeps the session invariant. -/
theorem Session.Step.inv [Sub Time] {s s' : Session Io Time Exc} (hstep : s.Step s')
    (h : s.Inv) : s'.Inv := by
  have hm : s'.machine.Inv := machineInv_of_steps h.machine (hstep.machine h.fresh)
  have hf : s'.Fresh := hstep.fresh
  cases hstep with
  | seed request x ha hid =>
    obtain ⟨-, -, -, hp, -⟩ := h.fresh ha
    refine h.of_quiet hm hf (fun _ => rfl) ?_ ?_ ?_ rfl rfl
    · simp [frameIds, Runner.publishSeed, Runner.start, Worker.runningList, Execution.frame,
        hid, hp]
    · intro _ _ hc
      cases hc
    · intro _ _ _ _ hc
      cases hc
      exact ⟨hid, Nat.le_refl _, Nat.zero_le _, fun _ => rfl, fun hs => absurd hs.symm
        Bool.false_ne_true⟩
  | submit request ha hid hsub =>
    obtain ⟨new, -, hpend, -, hreq, -, -, -, hgen, hack, -⟩ := Runner.submit_new hsub
    have hpub := Runner.submit_published hsub
    have hnew : new.request.frameId = s.frameCount := by
      rcases hreq with heq | heq
      · rw [heq, hid]
      · rw [heq, ← hid]
    refine h.of_quiet hm hf (fun _ => ?_) ?_ ?_ ?_ rfl hack
    · show Option.isSome _ = true
      rw [Machine.accept, hpub]
      exact h.seeded (by rw [ha]; simp)
    · -- the new request has the highest id so far, the frame count itself
      have hsub : (s.machine.runner.published.toList.map RetargetFrame.frameId ++
          s.machine.worker.runningList.map (·.request.frameId)).Sublist
          (frameIds s.machine) := by
        rw [frameIds, List.map_append, ← List.append_assoc]
        exact List.sublist_append_left _ _
      have hold := pairwise_le_append_of_sublist hsub h.frames
      simp only [frameIds, Machine.accept, hpub, hpend, Option.toList_some, List.map_append,
        List.map_cons, List.map_nil, hnew, ← List.append_assoc]
      rw [List.pairwise_append]
      refine ⟨hold, by simp, fun a hmem b hb => ?_⟩
      obtain rfl := List.mem_singleton.mp hb
      rcases List.mem_append.mp hmem with hmem | hmem
      · rw [List.pairwise_append] at hold
        exact hold.2.2 a hmem _ (List.mem_singleton_self _)
      · exact Nat.le_of_eq (List.mem_singleton.mp hmem)
    · intro _ _ hc
      cases hc
      exact hid
    · intro _ _ _ _ hc
      cases hc
  | submitRaises request ha hsub =>
    obtain ⟨reported, rfl⟩ := Runner.submit_error hsub
    exact h.of_quiet hm hf h.seeded h.frames h.submitted h.returning rfl rfl
  | latest ha hl =>
    obtain ⟨rfl, ⟨f, hpub, hid⟩, hgen, hflag⟩ := Runner.latest_ok hl
    obtain rfl := h.submitted _ _ ha
    refine h.of_quiet hm hf (fun _ => h.seeded (by rw [ha]; simp)) h.frames ?_ ?_ rfl rfl
    · intro _ _ hc
      cases hc
    · intro _ _ _ _ hc
      cases hc
      refine ⟨rfl, ?_, Nat.le_of_eq hgen, fun hs => absurd hs Bool.false_ne_true,
        fun _ => by rw [hflag, hgen]⟩
      have hf := h.frames
      rw [List.pairwise_append] at hf
      rw [hid]
      exact hf.2.2 _ (by simp [frameIds, hpub]) _ (List.mem_singleton_self _)
  | latestRaises ha hl =>
    obtain ⟨reported, heq⟩ := s.machine.runner.latest_eq
    simp only [heq] at hm hf ⊢
    exact h.of_quiet hm hf (fun _ => h.seeded (by rw [ha]; simp)) h.frames
      (fun _ _ hc => by cases hc) (fun _ _ _ _ hc => by cases hc) rfl rfl
  | copyFails ha =>
    exact h.of_quiet hm hf (fun _ => h.seeded (by rw [ha]; simp)) h.frames
      (fun _ _ hc => by cases hc) (fun _ _ _ _ hc => by cases hc) rfl rfl
  | finish ha hack => exact h.finishStep ha hack hm
  | acknowledgeRaises ha hack =>
    -- the generation came from `latest`, so it is always known
    rw [Runner.acknowledgeReset, if_pos (h.returning _ _ _ _ ha).2.2.1] at hack
    cases hack
  | raiseIfFailed b ha =>
    obtain ⟨reported, heq⟩ := s.machine.runner.raiseIfFailed_eq b
    simp only [heq] at hm hf ⊢
    exact h.of_quiet hm hf h.seeded h.frames h.submitted h.returning rfl rfl
  | stop ha =>
    exact h.of_quiet hm hf h.seeded
      (pairwise_le_append_of_sublist (frameIds_setStop _) h.frames) h.submitted h.returning rfl rfl
  | worker ha hw =>
    obtain ⟨hgen, hack, hseed⟩ := generation_workerStep hw
    refine h.of_quiet hm hf (fun hn => hseed (h.seeded hn))
      (pairwise_le_append_of_sublist (frameIds_workerStep hw) h.frames) h.submitted ?_ rfl hack
    intro frame id dropped sync hc
    obtain ⟨h1, h2, h3, h4, h5⟩ := h.returning frame id dropped sync hc
    exact ⟨h1, h2, Nat.le_trans h3 hgen, h4, fun hs => by rw [h5 hs, hack]⟩

theorem Session.Reachable.inv [Sub Time] {s : Session Io Time Exc} (h : s.Reachable) :
    s.Inv := by
  induction h with
  | refl => exact Session.Inv.init
  | tail _ hstep ih => exact hstep.inv ih

/-- **Refinement, over runs.**  A reachable session holds a reachable runner
machine, so what is proved of the machine holds in every session. -/
theorem Session.Reachable.machine [Sub Time] {s : Session Io Time Exc} (h : s.Reachable) :
    Relation.ReflTransGen Machine.Step {} s.machine := by
  induction h with
  | refl => exact .refl
  | tail hs hstep ih => exact ih.trans (hstep.machine (Session.Reachable.inv hs).fresh)

/-! ### Resets -/

/-- The reset of submission `i` was executed as generation `g`. -/
def Session.ResetExecuted (s : Session Io Time Exc) (i g : ℕ) : Prop :=
  ∃ sub, s.machine.resetAt g = some sub ∧ sub.Carries i

/-- The next `latest()` returns a frame with the reset flag set. -/
def Session.LatestReportsReset (s : Session Io Time Exc) : Prop :=
  ∃ frame r, s.machine.runner.latest = (.ok (some frame), r) ∧
    frame.context.executionEvents.reset = true

theorem Session.latestReportsReset {s : Session Io Time Exc}
    (hexc : s.machine.runner.exception = none)
    (hpub : s.machine.runner.published.isSome = true)
    (hgen : s.machine.runner.acknowledgedResetGeneration < s.machine.runner.resetGeneration) :
    s.LatestReportsReset := by
  obtain ⟨f, hf⟩ := Option.isSome_iff_exists.mp hpub
  obtain ⟨frame, hframe⟩ := Runner.latest_of_published hexc hf
  obtain ⟨-, -, -, hflag⟩ := Runner.latest_ok hframe
  exact ⟨frame, s.machine.runner, hframe, by rw [hflag]; exact decide_eq_true hgen⟩

/-- **No reset is lost or invented by pipelined execution.**  In every reachable
state without worker failure or stop, the reset of an accepted request travels
with the pending or the running request, or it has raised the reset generation
above the acknowledged one (and the next `latest()` reports it), or a step with
the reset flag set has returned it.  Conversely a step that returned with the
reset flag set reports executed resets, none of which another step reported. -/
theorem no_reset_lost_or_invented [Sub Time] (s : Session Io Time Exc) (hs : s.Reachable) :
    (s.machine.runner.exception = none → s.machine.runner.stop = false →
      ∀ i request, s.machine.history.accepted[i]? = some request →
        request.explicitReset = true →
        (∃ sub, s.machine.runner.pending = some sub ∧ sub.Carries i) ∨
        (∃ sub, s.machine.worker = .running sub ∧ sub.Carries i) ∨
        (∃ g, s.ResetExecuted i g ∧ s.machine.runner.acknowledgedResetGeneration < g ∧
          g ≤ s.machine.runner.resetGeneration ∧ s.LatestReportsReset) ∨
        (∃ g, s.ResetExecuted i g ∧ ∃ r ∈ s.returns, r.ranSynchronously = false ∧
          r.reset = true ∧ r.acknowledgedBefore < g ∧ g ≤ r.generation ∧
          r.generation ≤ s.machine.runner.acknowledgedResetGeneration)) ∧
    (∀ r ∈ s.returns, r.ranSynchronously = false → r.reset = true →
      r.acknowledgedBefore < r.generation ∧
      ∀ g, r.acknowledgedBefore < g → g ≤ r.generation →
        ∃ sub, s.machine.resetAt g = some sub ∧ (sub, true) ∈ s.machine.history.published) ∧
    s.returns.Pairwise fun r r' => r.generation ≤ r'.acknowledgedBefore := by
  have h := hs.inv
  refine ⟨fun hexc hstop i request hi hreset => ?_, fun r hr hsync hflag => ?_, h.disjoint⟩
  · -- Without a failure and without a stop no submission is lost.
    have hfailed : s.machine.history.failed = [] := by
      by_contra hf
      have := (h.machine.failedExits hf).2
      rw [hexc] at this
      cases this
    have hkept : s.machine.history.discarded = [] := by
      by_contra hd
      have := (h.machine.discardedStops hd).1
      rw [hstop] at this
      cases this
    have hcarry : request.carriesReset = true := by
      rw [StepRequest.carriesReset, hreset, Bool.or_true]
    -- So the reset is pending, running, or was executed as some generation.
    rcases h.machine.carried hfailed hkept hi hcarry with hp | hw | ⟨g, sub, h0, hg, hat, hc⟩
    · exact Or.inl hp
    · exact Or.inr (Or.inl hw)
    · -- An executed generation is either still to be reported or has been returned.
      rcases Nat.lt_or_ge s.machine.runner.acknowledgedResetGeneration g with hnew | hold
      · have hseeded : s.app ≠ .noRunner := by
          intro ha
          rw [(h.fresh ha).2.2.2.2] at hi
          cases hi
        exact Or.inr (Or.inr (Or.inl ⟨g, ⟨sub, hat, hc⟩, hnew, hg,
          Session.latestReportsReset hexc (h.seeded hseeded) (Nat.lt_of_lt_of_le hnew hg)⟩))
      · obtain ⟨r, hr, hsync, hflag, hlt, hle⟩ := h.reported g h0 hold
        exact Or.inr (Or.inr (Or.inr ⟨g, ⟨sub, hat, hc⟩, r, hr, hsync, hflag, hlt, hle,
          h.acknowledged r hr⟩))
  · -- A flag that was returned covers generations that were really published.
    have hhonest := h.honest r hr hsync
    rw [hflag, eq_comm, decide_eq_true_eq] at hhonest
    refine ⟨hhonest, fun g hlt hle => ?_⟩
    have hbound : g ≤ s.machine.runner.resetGeneration :=
      Nat.le_trans hle (Nat.le_trans (h.acknowledged r hr) h.machine.acknowledged)
    obtain ⟨sub, hat⟩ := h.machine.resetAt_isSome (Nat.lt_of_le_of_lt (Nat.zero_le _) hlt) hbound
    exact ⟨sub, hat, Machine.resetAt_published hat⟩

/-! ### A run with a pending reset -/

/-- A request of frame `id` with explicit events. -/
def exampleRequest (id : ℕ) (reset : Bool) : StepRequest Unit ℕ where
  frameId := id
  externalInputs := none
  graphTime := none
  executionEvents := some ⟨reset, .running⟩
  submittedTimeS := id

def exampleExecution : Execution Unit ℕ where
  outputs := ()
  graphTime := ⟨0, 0⟩
  decoded := ⟨false, .running⟩
  startedTimeS := 0
  completedTimeS := 1

/-- Seeded, then one reset request submitted and not yet taken. -/
def exampleSession : Session Unit ℕ Unit where
  machine :=
    { runner :=
        { pending := some ⟨0, [], exampleRequest 1 true⟩
          published := some (exampleExecution.frame (exampleRequest 0 false)) }
      worker := .waiting
      history := { accepted := [exampleRequest 1 true], submitReturns := [0] } }
  frameCount := 1
  app := .submitted 1 0
  returns := [⟨0, 0, 0, 0, true, false, 0, 0⟩]

theorem exampleSession_reachable : exampleSession.Reachable := by
  have hseed := Session.Step.seed (s := ({} : Session Unit ℕ Unit)) (exampleRequest 0 false)
    exampleExecution rfl rfl
  have hfinish := Session.Step.finish (s := _) (r := _) (rfl :
    ({ machine :=
        { runner := ({} : Runner Unit ℕ Unit).start.publishSeed
            (exampleExecution.frame (exampleRequest 0 false))
          worker := .waiting }
       app := .returning (exampleExecution.frame (exampleRequest 0 false)) 0 0 true } :
      Session Unit ℕ Unit).app = _) rfl
  have hsubmit := Session.Step.submit (s :=
    ({ machine :=
        { runner :=
            { published := some (exampleExecution.frame (exampleRequest 0 false)) }
          worker := .waiting }
       frameCount := 1
       app := .idle
       returns := [⟨0, 0, 0, 0, true, false, 0, 0⟩] } : Session Unit ℕ Unit))
    (exampleRequest 1 true) rfl rfl rfl
  exact ((Relation.ReflTransGen.single hseed).tail hfinish).tail hsubmit

/-- In that run the reset is with the pending request. -/
theorem no_reset_lost_at_example :
    exampleSession.Reachable ∧
      ∃ sub, exampleSession.machine.runner.pending = some sub ∧ sub.Carries 0 := by
  refine ⟨exampleSession_reachable, ?_⟩
  have h := (no_reset_lost_or_invented exampleSession exampleSession_reachable).1 rfl rfl 0
    (exampleRequest 1 true) rfl rfl
  rcases h with h | ⟨sub, hw, -⟩ | ⟨g, -, hlt, hle, -⟩ | ⟨g, -, r, hr, hsync, -⟩
  · exact h
  · cases hw
  · exact absurd (Nat.lt_of_lt_of_le hlt hle) (Nat.lt_irrefl 0)
  · rw [List.mem_singleton.mp hr] at hsync
    cases hsync

/-! ### Conservation and order of submissions -/

/-- The published frame id never decreases along a session step. -/
theorem published_frameId_mono [Sub Time] {s s' : Session Io Time Exc} (h : s.Inv)
    (hstep : s.Step s') {f f' : RetargetFrame Io Time}
    (hf : s.machine.runner.published = some f) (hf' : s'.machine.runner.published = some f') :
    f.frameId ≤ f'.frameId := by
  have hsame : s'.machine.runner.published = s.machine.runner.published →
      f.frameId ≤ f'.frameId := by
    intro heq
    rw [heq, hf, Option.some_inj] at hf'
    exact Nat.le_of_eq (congrArg _ hf')
  cases hstep with
  | seed request x ha hid =>
    rw [(h.fresh ha).2.2.1] at hf
    cases hf
  | submit request ha hid hsub => exact hsame (Runner.submit_published hsub)
  | submitRaises request ha hsub =>
    obtain ⟨reported, rfl⟩ := Runner.submit_error hsub
    exact hsame rfl
  | latest ha hl =>
    obtain ⟨rfl, -⟩ := Runner.latest_ok hl
    exact hsame rfl
  | latestRaises ha hl =>
    obtain ⟨reported, heq⟩ := s.machine.runner.latest_eq
    have hpub := congrArg Runner.published heq
    exact hsame hpub
  | copyFails ha => exact hsame rfl
  | finish ha hack =>
    rw [Runner.acknowledgeReset, if_pos (h.returning _ _ _ _ ha).2.2.1] at hack
    exact hsame (congrArg Runner.published (Prod.mk.inj hack).2).symm
  | acknowledgeRaises ha hack =>
    rw [Runner.acknowledgeReset, if_pos (h.returning _ _ _ _ ha).2.2.1] at hack
    cases hack
  | raiseIfFailed b ha =>
    obtain ⟨reported, heq⟩ := s.machine.runner.raiseIfFailed_eq b
    have hpub := congrArg Runner.published heq
    exact hsame hpub
  | stop ha => exact hsame rfl
  | worker ha hw =>
    cases hw with
    | look hw hs hp => exact hsame rfl
    | abandon hw hp => exact hsame rfl
    | exit hw hs => exact hsame rfl
    | take hw hp => exact hsame rfl
    | fail e hw => exact hsame rfl
    | complete x hw =>
      -- the completed request stands after the published frame in `frameIds`
      obtain rfl : x.frame _ = f' := Option.some_inj.mp hf'
      have hfr := h.frames
      rw [frameIds, hf, hw, Worker.runningList] at hfr
      simp only [Option.toList_some, List.map_cons, List.map_nil, List.cons_append,
        List.pairwise_cons] at hfr
      exact hfr.1 _ List.mem_cons_self

/-- **Conservation and order of pipelined submissions.**  For every interleaving
of the runner's operations each accepted submission has exactly one fate, both
drop counters are exact, and executions follow the submission order; with the
frame ids of a session, the published frame id never decreases and no returned
step has a negative age. -/
theorem submissions_conserved [Sub Time] :
    (∀ m : Machine Io Time Exc, Relation.ReflTransGen Machine.Step {} m →
      (m.history.dropped.map Submission.id ++ m.history.discarded.map Submission.id ++
        m.runner.pending.toList.map Submission.id ++ m.worker.runningList.map Submission.id ++
        m.history.failed.map Submission.id ++ m.history.published.map (·.1.id)).Perm
        (List.range m.history.accepted.length) ∧
      m.runner.droppedSubmissions = m.history.dropped.length ∧
      m.history.submitReturns.sum = m.history.dropped.length ∧
      m.worker.runningList.length ≤ 1 ∧ m.runner.pending.toList.length ≤ 1 ∧
      (m.taken.map Submission.id).Sublist (List.range m.history.accepted.length) ∧
      ∀ sub ∈ m.taken, ∃ request, m.history.accepted[sub.id]? = some request ∧
        (sub.request = request ∨ sub.request = { request with resetRequested := true })) ∧
    (∀ s : Session Io Time Exc, s.Reachable →
      (∀ s', s.Step s' → ∀ f f', s.machine.runner.published = some f →
        s'.machine.runner.published = some f' → f.frameId ≤ f'.frameId) ∧
      ∀ r ∈ s.returns, r.returnedAgeFrames = (r.submittedFrameId : ℤ) - r.returnedFrameId ∧
        0 ≤ r.returnedAgeFrames) := by
  refine ⟨fun m hm => ?_, fun s hs => ⟨fun s' hstep f f' => ?_, hs.inv.ages⟩⟩
  · have h := machineInv_of_steps Machine.Inv.init hm
    refine ⟨?_, h.droppedCount, h.returnsSum, ?_, ?_, h.taken_sublist, fun sub hsub => ?_⟩
    · -- The places in the order of the statement, which is not that of the invariant.
      refine List.Perm.trans (List.perm_iff_count.mpr fun a => ?_) h.places
      simp only [Machine.kept, Machine.taken, List.map_append, List.count_append, List.map_map]
      have hcomp : (Submission.id ∘ Prod.fst : Submission Io Time × Bool → ℕ) = (·.1.id) := rfl
      rw [hcomp]
      omega
    · cases m.worker <;> simp [Worker.runningList]
    · cases m.runner.pending <;> simp
    · refine h.faithful sub (List.mem_append_right _ ?_)
      rw [Machine.kept]
      exact List.mem_append_left _ (List.mem_append_right _ hsub)
  · exact published_frameId_mono hs.inv hstep

/-- Four submissions: the first replaced, the second published, the third running, the last one
pending. -/
def exampleMachine : Machine Unit ℕ Unit where
  runner :=
    { pending := some ⟨3, [], exampleRequest 4 false⟩
      published := some (exampleExecution.frame
        { exampleRequest 2 false with resetRequested := true })
      resetGeneration := 1
      droppedSubmissions := 1 }
  worker := .running ⟨2, [], exampleRequest 3 false⟩
  history :=
    { accepted :=
        [exampleRequest 1 true, exampleRequest 2 false, exampleRequest 3 false,
          exampleRequest 4 false]
      submitReturns := [0, 1, 0, 0]
      dropped := [⟨0, [], exampleRequest 1 true⟩]
      published := [(⟨1, [0], { exampleRequest 2 false with resetRequested := true }⟩, true)] }

theorem exampleMachine_reachable : Relation.ReflTransGen Machine.Step {} exampleMachine := by
  have hstart := Machine.Step.start (m := ({} : Machine Unit ℕ Unit)) rfl rfl
  have hfirst := (Relation.ReflTransGen.single hstart).tail (.submit (exampleRequest 1 true) rfl)
  have hsecond := hfirst.tail (.submit (exampleRequest 2 false) rfl)
  have hpublished := ((hsecond.tail (.worker (.look rfl rfl rfl))).tail
    (.worker (.take rfl rfl))).tail (.worker (.complete exampleExecution rfl))
  have hthird := hpublished.tail (.submit (exampleRequest 3 false) rfl)
  have hrunning := (hthird.tail (.worker (.look rfl rfl rfl))).tail (.worker (.take rfl rfl))
  exact hrunning.tail (.submit (exampleRequest 4 false) rfl)

/-- In the example machine the four submissions are in four places and one is counted as dropped;
the seed of the example session has age zero. -/
theorem submissions_conserved_at_example :
    [0, 1, 2, 3].Perm (List.range exampleMachine.history.accepted.length) ∧
      exampleMachine.history.dropped.map Submission.id = [0] ∧
      exampleMachine.taken.map Submission.id = [1, 2] ∧
      exampleMachine.runner.pending.toList.map Submission.id = [3] ∧
      exampleMachine.runner.droppedSubmissions = exampleMachine.history.dropped.length ∧
      ∀ r ∈ exampleSession.returns, 0 ≤ r.returnedAgeFrames := by
  obtain ⟨hplaces, hdropped, -⟩ := submissions_conserved.1 exampleMachine exampleMachine_reachable
  refine ⟨?_, rfl, rfl, rfl, hdropped, fun r hr => ?_⟩
  · -- In the theorem's order: dropped, discarded, pending, running, failed, published.
    have hcode : [0, 3, 2, 1].Perm (List.range exampleMachine.history.accepted.length) := hplaces
    exact (show [0, 1, 2, 3].Perm [0, 3, 2, 1] by decide).trans hcode
  · exact ((submissions_conserved.2 exampleSession exampleSession_reachable).2 r hr).2

end PipelinedSession
