/-
The OOB status of a CloudXR service, in memory and in its file.

A publication waits for the publish lock in the order of its call, replaces the snapshot in memory,
and lets a worker thread write the file.  A cancellation does not reach the thread: the publication
waits for it, and only then gives the lock back.  A fatal report replaces the snapshot at once, and
writes the file when the lock is free.  When the event loop has ended, `stop()` removes the file.

While a publication waits for its thread after a cancellation, a second one ends the wait: the
thread goes on without the lock, and can write after `stop()`.

* `Service.step`, `Service.run` — the service, one step of any of its parts after the other;
* `Service.Ordered` — the memory follows the order of the publications, in every run;
* `Service.Inv` — what holds as long as no publication is cancelled while it drains its writer;
* `status_final` — these runs; `status_reappears` — another one.
-/
import Mathlib

open scoped List

namespace OobStatusFile

/-! ### The service -/

/-- A `_publish_oob_status` or an `_on_oob_fatal`. -/
inductive Task
  | absent
  /-- it waits for the publish lock -/
  | waiting (fatal : Bool)
  /-- it waits for its writer, behind a shield -/
  | writing
  /-- it was cancelled, and waits for its writer without a shield -/
  | draining
  | done
  deriving DecidableEq, Repr

/-- The worker thread that persists a status. -/
inductive Writer
  | none
  | running
  | finished
  deriving DecidableEq, Repr

/-- How far a `stop()` has come. -/
inductive Stop
  | idle
  | stopping
  /-- the thread of the event loop is joined -/
  | joined
  /-- the file holds a status of this session -/
  | found
  deriving DecidableEq, Repr

/-- The status file: there is none, it is of another session, or it holds a publication. -/
inductive StatusFile
  | missing
  | foreign
  | status (p : ℕ)
  deriving DecidableEq, Repr

structure Service where
  started : List ℕ
  tasks : ℕ → Task
  writers : ℕ → Writer
  publishLock : Option ℕ
  /-- The tasks that wait for the publish lock, in the order in which they get it. -/
  queue : List ℕ
  /-- `_fatal_error`, by the report that set it -/
  fatal : Option ℕ
  /-- The values of `_oob_snapshot` so far. -/
  snapshots : List ℕ
  file : StatusFile
  /-- The statuses written so far. -/
  writes : List ℕ
  loopEnded : Bool
  stop : Stop
  /-- A `stop()` has returned normally, without a fatal error. -/
  stopped : Bool

inductive Event
  | publish (p : ℕ)
  | report (p : ℕ)
  | acquire (p : ℕ)
  | write (p : ℕ)
  | wake (p : ℕ)
  | cancel (p : ℕ)
  | endLoop
  | stopBegin
  | stopJoin
  | stopRaise
  | stopRead
  | stopUnlink
  | foreign (written : Bool)
  deriving DecidableEq, Repr

namespace Service

def setTask (s : Service) (p : ℕ) (task : Task) : Service :=
  { s with tasks := Function.update s.tasks p task }

/-- A new task of the event loop. -/
def start (s : Service) (p : ℕ) (task : Task) : Service :=
  { s.setTask p task with started := p :: s.started }

/-- A new task, at the end of the queue for the publish lock. -/
def enqueue (s : Service) (p : ℕ) (fatal : Bool) : Service :=
  { s.start p (.waiting fatal) with queue := s.queue ++ [p] }

/-- One step; nothing where it cannot happen.  Stops of several threads come one after the other; a
`stop()` from inside a `stop()` returns at once and does nothing. -/
def step (s : Service) : Event → Option Service
  | .publish p =>
    if s.tasks p = .absent ∧ s.loopEnded = false then some (s.enqueue p false) else none
  | .report p =>
    if s.tasks p = .absent ∧ s.loopEnded = false then
      if s.fatal.isSome ∨ s.stop ≠ .idle then some (s.start p .done)
      else some { s.enqueue p true with
        fatal := some p
        snapshots := s.snapshots ++ [p] }
    else none
  | .acquire p =>
    match s.tasks p, s.publishLock with
    | .waiting fatal, none =>
      if s.queue.head? ≠ some p then none
      else if fatal = false ∧ s.fatal.isSome then
        some { s.setTask p .done with queue := s.queue.tail }
      else some { s.setTask p .writing with
        publishLock := some p
        queue := s.queue.tail
        writers := Function.update s.writers p .running
        snapshots := if fatal then s.snapshots else s.snapshots ++ [p] }
    | _, _ => none
  | .write p =>
    if s.writers p = .running then
      some { s with
        writers := Function.update s.writers p .finished
        file := .status p
        writes := s.writes ++ [p] }
    else none
  | .wake p =>
    if (s.tasks p = .writing ∨ s.tasks p = .draining) ∧ s.writers p = .finished then
      some { s.setTask p .done with publishLock := none }
    else none
  | .cancel p =>
    match s.tasks p with
    | .waiting _ => some { s.setTask p .done with queue := s.queue.erase p }
    | .writing => some (s.setTask p .draining)
    | .draining => some { s.setTask p .done with publishLock := none }
    | _ => none
  | .endLoop =>
    if s.started.all (fun p => s.tasks p = .done) ∧ s.loopEnded = false then
      some { s with loopEnded := true }
    else none
  | .stopBegin => if s.stop = .idle then some { s with stop := .stopping } else none
  | .stopJoin =>
    if s.stop = .stopping ∧ s.loopEnded = true then some { s with stop := .joined } else none
  | .stopRaise =>
    if s.stop = .stopping ∨ s.stop = .joined then some { s with stop := .idle } else none
  | .stopRead =>
    if s.stop = .joined then
      if s.fatal.isSome then some { s with stop := .idle }
      else
        match s.snapshots, s.file with
        | _ :: _, .status _ => some { s with stop := .found }
        | _, _ => some { s with stop := .idle, stopped := true }
    else none
  | .stopUnlink =>
    if s.stop = .found then some { s with file := .missing, stop := .idle, stopped := true }
    else none
  | .foreign written => some { s with file := if written then .foreign else .missing }

/-- A run of allowed steps. -/
def run (allowed : Service → Event → Bool) (s : Service) : List Event → Option Service
  | [] => some s
  | event :: events =>
    if allowed s event then (s.step event).bind fun s' => s'.run allowed events else none

def initial : Service where
  started := []
  tasks _ := .absent
  writers _ := .none
  publishLock := none
  queue := []
  fatal := none
  snapshots := []
  file := .missing
  writes := []
  loopEnded := false
  stop := .idle
  stopped := false

/-- No publication is cancelled again while it waits for a writer that is running. -/
def undisturbed (s : Service) : Event → Bool
  | .cancel p => ¬ (s.tasks p = .draining ∧ s.writers p = .running)
  | _ => true

/-! ### What holds between two steps -/

/-- The ordinary status that is in memory and not in the file yet. -/
def unwritten (s : Service) : List ℕ :=
  match s.publishLock with
  | some p => if s.writers p = .running ∧ s.fatal ≠ some p then [p] else []
  | none => []

/-- The fatal status, unless it is in the file. -/
def unreported (s : Service) : List ℕ :=
  match s.fatal with
  | some f => if s.writers f = .finished then [] else [f]
  | none => []

/-- What is known of a publication that has not begun to write. -/
def Early (s : Service) (p : ℕ) : Task → Prop
  | .absent => s.fatal ≠ some p ∧ p ∉ s.snapshots ∧ s.writers p = .none
  | .waiting false => s.fatal ≠ some p ∧ p ∉ s.snapshots ∧ s.writers p = .none
  | .waiting true => s.fatal = some p ∧ s.writers p = .none
  | _ => True

structure Inv (s : Service) : Prop where
  started : ∀ p, s.tasks p ≠ .absent → p ∈ s.started
  lock : ∀ p, s.tasks p = .writing ∨ s.tasks p = .draining → s.publishLock = some p
  writer : ∀ p, s.writers p = .running → s.tasks p = .writing ∨ s.tasks p = .draining
  early : ∀ p, s.Early p (s.tasks p)
  order : s.snapshots = s.writes ++ s.unwritten ++ s.unreported
  nodup : s.snapshots.Nodup
  last : ∀ f, s.fatal = some f → s.snapshots.getLast? = some f
  file : ∀ p, s.file = .status p → p ∈ s.writes
  ended : s.loopEnded = true → ∀ p, s.tasks p = .absent ∨ s.tasks p = .done
  joined : s.stop = .joined ∨ s.stop = .found → s.loopEnded = true
  found : s.stop = .found → s.fatal = none
  stopped : s.stopped = true → s.loopEnded = true ∧ s.fatal = none ∧ ∀ p, s.file ≠ .status p

theorem inv_initial : initial.Inv where
  started p h := absurd rfl h
  lock p h := by cases h <;> contradiction
  writer p h := by cases h
  early p := ⟨by simp [initial], by simp [initial], rfl⟩
  order := rfl
  nodup := List.nodup_nil
  last f h := by cases h
  file p h := by cases h
  ended h := by cases h
  joined h := by cases h <;> contradiction
  found h := by cases h
  stopped h := by cases h

/-- Only one task is another one. -/
theorem Inv.of_task {s s' : Service} (h : s.Inv) {p : ℕ} {task : Task} {started queue : List ℕ}
    (heq : s' = { s.setTask p task with started := started, queue := queue }) (hp : p ∈ started)
    (hstarted : ∀ q ∈ s.started, q ∈ started)
    (hlock : task = .writing ∨ task = .draining → s.publishLock = some p)
    (hwriter : s.writers p = .running → task = .writing ∨ task = .draining)
    (hearly : s.Early p task)
    (hended : s.loopEnded = true → task = .absent ∨ task = .done) : s'.Inv := by
  subst heq
  refine ⟨fun q hq => ?_, fun q hq => ?_, fun q hq => ?_, fun q => ?_, h.order, h.nodup, h.last,
    h.file, fun hend q => ?_, h.joined, h.found, h.stopped⟩
  -- Only one task changes.
  all_goals by_cases hqp : q = p
  · rw [hqp]
    exact hp
  · exact hstarted q (h.started q (by simpa [setTask, hqp] using hq))
  · rw [hqp]
    exact hlock (by simpa [setTask, hqp] using hq)
  · exact h.lock q (by simpa [setTask, hqp] using hq)
  · rw [hqp] at hq ⊢
    simpa [setTask] using hwriter hq
  · simpa [setTask, hqp] using h.writer q hq
  · rw [hqp]
    simpa [setTask, Early] using hearly
  · have hold := h.early q
    simpa [setTask, hqp, Early] using hold
  · simpa [setTask, hqp] using hended hend
  · simpa [setTask, hqp] using h.ended hend q

theorem Inv.publish {s s' : Service} (h : s.Inv) {p : ℕ} (hstep : s.step (.publish p) = some s') :
    s'.Inv := by
  simp only [step] at hstep
  split at hstep
  · rename_i hnew
    have hearly := h.early p
    rw [hnew.1] at hearly
    refine h.of_task (Option.some.inj hstep).symm List.mem_cons_self
      (fun q hq => List.mem_cons_of_mem p hq) (by simp) (fun hrunning => ?_) hearly
      fun hended => by simp [hnew.2] at hended
    simp [hearly.2.2] at hrunning
  · cases hstep

/-- The first fatal report is the last value of the snapshot. -/
theorem Inv.record {s : Service} (h : s.Inv) {p : ℕ} (hnew : s.tasks p = .absent)
    (hopen : s.loopEnded = false) (hfirst : s.fatal = none) (hstop : s.stop = .idle) :
    Inv { s.enqueue p true with fatal := some p, snapshots := s.snapshots ++ [p] } := by
  have hearly := h.early p
  rw [hnew] at hearly
  obtain ⟨_, hfresh, hwriter⟩ := hearly
  have hnone : s.unreported = [] := by simp [unreported, hfirst]
  refine ⟨fun q hq => ?_, fun q hq => ?_, fun q hq => ?_, fun q => ?_, ?_, ?_, fun f hf => ?_,
    h.file, fun hended => ?_, fun hjoined => ?_, fun hfound => ?_, fun hstopped => ?_⟩
  · by_cases hqp : q = p
    · rw [hqp]
      exact List.mem_cons_self
    · exact List.mem_cons_of_mem p (h.started q (by simpa [enqueue, start, setTask, hqp] using hq))
  · by_cases hqp : q = p
    · simp [enqueue, start, setTask, hqp] at hq
    · exact h.lock q (by simpa [enqueue, start, setTask, hqp] using hq)
  · have hqp : q ≠ p := by
      rintro rfl
      rw [show s.writers q = .running from hq] at hwriter
      cases hwriter
    simpa [enqueue, start, setTask, hqp] using h.writer q hq
  · by_cases hqp : q = p
    · rw [hqp]
      simpa [enqueue, start, setTask, Early] using hwriter
    · have hold := h.early q
      have hne : p ≠ q := fun heq => hqp heq.symm
      simp only [enqueue, start, setTask, Function.update_of_ne hqp]
      cases hq : s.tasks q with
      | waiting fatal =>
        rw [hq] at hold
        cases fatal with
        | false =>
          obtain ⟨_, hmem, hnothing⟩ := hold
          exact ⟨by simpa using hne, by simp [hmem, hqp], hnothing⟩
        | true => simp [Early, hfirst] at hold
      | absent =>
        rw [hq] at hold
        obtain ⟨_, hmem, hnothing⟩ := hold
        exact ⟨by simpa using hne, by simp [hmem, hqp], hnothing⟩
      | _ => trivial
  · -- A status that is being written is not this one.
    have hsame : unwritten { s.enqueue p true with
        fatal := some p, snapshots := s.snapshots ++ [p] } = s.unwritten := by
      simp only [unwritten, enqueue, start, setTask]
      split
      · rename_i q _
        by_cases hqp : q = p
        · simp [hqp, hwriter]
        · have hne : p ≠ q := fun heq => hqp heq.symm
          simp [hfirst, hne]
      · rfl
    rw [hsame]
    have hreported : unreported { s.enqueue p true with
        fatal := some p, snapshots := s.snapshots ++ [p] } = [p] := by
      simp [unreported, enqueue, start, setTask, hwriter]
    rw [hreported]
    have horder := h.order
    rw [hnone, List.append_nil] at horder
    show s.snapshots ++ [p] = s.writes ++ s.unwritten ++ [p]
    rw [horder]
  · rw [List.nodup_append]
    exact ⟨h.nodup, List.nodup_singleton p, by
      rintro a ha b hb rfl
      exact hfresh (List.mem_singleton.mp hb ▸ ha)⟩
  · obtain rfl := Option.some.inj hf
    simp
  · exact absurd hended (by simp [enqueue, start, setTask, hopen])
  · simp [enqueue, start, setTask, hstop] at hjoined
  · simp [enqueue, start, setTask, hstop] at hfound
  · have hended := (h.stopped hstopped).1
    rw [hopen] at hended
    cases hended

theorem Inv.report {s s' : Service} (h : s.Inv) {p : ℕ} (hstep : s.step (.report p) = some s') :
    s'.Inv := by
  simp only [step] at hstep
  split at hstep
  · rename_i hnew
    split at hstep
    · have hearly := h.early p
      rw [hnew.1] at hearly
      refine h.of_task (Option.some.inj hstep).symm List.mem_cons_self
        (fun q hq => List.mem_cons_of_mem p hq) (by simp) (fun hrunning => ?_) trivial
        fun _ => .inr rfl
      simp [hearly.2.2] at hrunning
    · rename_i hquiet
      simp only [not_or, Option.not_isSome_iff_eq_none, not_not] at hquiet
      obtain rfl := Option.some.inj hstep
      exact h.record hnew.1 hnew.2 hquiet.1 hquiet.2
  · cases hstep

/-- What the tasks say of the lock and the writers when one of them begins to write. -/
theorem Inv.acquire_lock {s : Service} (h : s.Inv) {p : ℕ} {fatal : Bool}
    (hwaiting : s.tasks p = .waiting fatal) (hfree : s.publishLock = none)
    (hquiet : fatal = false → s.fatal = none) :
    Inv { s.setTask p .writing with
      publishLock := some p
      queue := s.queue.tail
      writers := Function.update s.writers p .running
      snapshots := if fatal then s.snapshots else s.snapshots ++ [p] } := by
  have hearly := h.early p
  rw [hwaiting] at hearly
  have hidle : ∀ q, ¬ (s.tasks q = .writing ∨ s.tasks q = .draining) := by
    intro q hq
    rw [h.lock q hq] at hfree
    cases hfree
  have hnothing : s.unwritten = [] := by simp [unwritten, hfree]
  have hopen : s.loopEnded ≠ true := by
    intro hended
    rcases h.ended hended p with habsent | hdone
    · rw [hwaiting] at habsent
      cases habsent
    · rw [hwaiting] at hdone
      cases hdone
  have hmem : ∀ q, q ≠ p →
      (q ∈ (if fatal then s.snapshots else s.snapshots ++ [p]) ↔ q ∈ s.snapshots) := by
    intro q hqp
    split <;> simp [hqp]
  refine ⟨fun q hq => ?_, fun q hq => ?_, fun q hq => ?_, fun q => ?_, ?_, ?_, fun f hf => ?_,
    h.file, fun hended => absurd hended hopen, h.joined, h.found, fun hstopped =>
    absurd (h.stopped hstopped).1 hopen⟩
  · by_cases hqp : q = p
    · exact h.started q (by simp [hqp, hwaiting])
    · exact h.started q (by simpa [setTask, hqp] using hq)
  · by_cases hqp : q = p
    · rw [hqp]
    · exact absurd (by simpa [setTask, hqp] using hq) (hidle q)
  · by_cases hqp : q = p
    · simp [setTask, hqp]
    · have hq' : s.writers q = .running := by simpa [hqp] using hq
      exact absurd (h.writer q hq') (hidle q)
  · by_cases hqp : q = p
    · simp [setTask, hqp, Early]
    · have hold := h.early q
      simp only [setTask, Function.update_of_ne hqp]
      cases hq : s.tasks q with
      | absent => simpa [hq, Early, hmem q hqp, hqp] using hold
      | waiting fatal' => cases fatal' <;> simpa [hq, Early, hmem q hqp, hqp] using hold
      | _ => trivial
  · -- An ordinary status is the next one to be written; the fatal one has been noted.
    have horder := h.order
    rw [hnothing, List.append_nil] at horder
    cases fatal with
    | false =>
      have hnone := hquiet rfl
      simp only [unreported, hnone, List.append_nil] at horder
      simp [unwritten, unreported, setTask, hnone, horder]
    | true =>
      obtain ⟨hfatal, hwriter⟩ := hearly
      simp only [unreported, hfatal, hwriter] at horder
      simpa [unwritten, unreported, setTask, hfatal] using horder
  · cases fatal with
    | false =>
      have hfresh : p ∉ s.snapshots := hearly.2.1
      simp only [Bool.false_eq_true, if_false]
      rw [List.nodup_append]
      exact ⟨h.nodup, List.nodup_singleton p, by
        rintro a ha b hb rfl
        exact hfresh (List.mem_singleton.mp hb ▸ ha)⟩
    | true => exact h.nodup
  · cases fatal with
    | false => simp [setTask, hquiet rfl] at hf
    | true => exact h.last f hf

theorem Inv.acquire {s s' : Service} (h : s.Inv) {p : ℕ} (hstep : s.step (.acquire p) = some s') :
    s'.Inv := by
  simp only [step] at hstep
  split at hstep
  · rename_i fatal hwaiting hfree
    split at hstep
    · cases hstep
    split at hstep
    · have hearly := h.early p
      rw [hwaiting] at hearly
      have hnone : s.writers p = .none := by
        cases fatal with
        | false => exact hearly.2.2
        | true => exact hearly.2
      refine h.of_task (Option.some.inj hstep).symm (h.started p (by simp [hwaiting]))
        (fun q hq => hq) (by simp) (fun hrunning => ?_) trivial fun _ => .inr rfl
      simp [hnone] at hrunning
    · rename_i hquiet
      obtain rfl := Option.some.inj hstep
      refine h.acquire_lock hwaiting hfree fun hordinary => ?_
      simpa [hordinary] using hquiet
  · cases hstep

/-- After the event loop, no thread is left that could write. -/
theorem Inv.no_writer {s : Service} (h : s.Inv) (hended : s.loopEnded = true) (p : ℕ) :
    s.writers p ≠ .running := by
  intro hrunning
  have hbusy := h.writer p hrunning
  rcases h.ended hended p with habsent | hdone
  · simp [habsent] at hbusy
  · simp [hdone] at hbusy

/-- The thread of the holder of the lock writes what comes next. -/
theorem Inv.write {s s' : Service} (h : s.Inv) {p : ℕ} (hstep : s.step (.write p) = some s') :
    s'.Inv := by
  simp only [step] at hstep
  split at hstep
  · rename_i hrunning
    obtain rfl := Option.some.inj hstep
    have hbusy := h.writer p hrunning
    have hlock := h.lock p hbusy
    -- The loop still runs, as it does not end under a writer.
    have hopen : s.loopEnded ≠ true := fun hended => h.no_writer hended p hrunning
    refine ⟨h.started, h.lock, fun q hq => ?_, fun q => ?_, ?_, h.nodup, h.last, fun q hq => ?_,
      h.ended, h.joined, h.found, fun hstopped => absurd (h.stopped hstopped).1 hopen⟩
    · have hqp : q ≠ p := by
        rintro rfl
        simp at hq
      exact h.writer q (by simpa [hqp] using hq)
    · have hold := h.early q
      by_cases hqp : q = p
      · rw [hqp]
        rcases hbusy with hbusy | hbusy <;> simp [hbusy, Early]
      · cases hq : s.tasks q with
        | absent => simpa [hq, Early, hqp] using hold
        | waiting fatal => cases fatal <;> simpa [hq, Early, hqp] using hold
        | _ => trivial
    · -- The write goes over from what is unwritten to the file, so the order stays.
      have horder := h.order
      by_cases hfatal : s.fatal = some p
      · simpa [unwritten, unreported, hlock, hfatal, hrunning] using horder
      · simp only [unwritten, hlock, hrunning, true_and, ne_eq, hfatal, not_false_eq_true,
          if_true] at horder
        simp only [unwritten, hlock, Function.update_self, reduceCtorEq, false_and, if_false,
          List.append_nil]
        rw [horder]
        congr 1
        simp only [unreported]
        split
        · rename_i f hf
          have hne : f ≠ p := fun heq => hfatal (heq ▸ hf)
          simp [Function.update_of_ne hne]
        · rfl
    · obtain rfl := StatusFile.status.inj hq
      simp
  · cases hstep

/-- The lock is given back when the writer is done. -/
theorem Inv.release {s : Service} (h : s.Inv) {p : ℕ}
    (hbusy : s.tasks p = .writing ∨ s.tasks p = .draining) (hidle : s.writers p ≠ .running) :
    Inv { s.setTask p .done with publishLock := none } := by
  have hlock := h.lock p hbusy
  have hnothing : s.unwritten = [] := by simp [unwritten, hlock, hidle]
  have horder := h.order
  rw [hnothing] at horder
  refine ⟨fun q hq => ?_, fun q hq => ?_, fun q hq => ?_, fun q => ?_, horder, h.nodup, h.last,
    h.file, fun hended q => ?_, h.joined, h.found, h.stopped⟩
  all_goals by_cases hqp : q = p
  · refine h.started q (by rw [hqp]; rcases hbusy with hbusy | hbusy <;> simp [hbusy])
  · exact h.started q (by simpa [setTask, hqp] using hq)
  · simp [setTask, hqp] at hq
  · have hother := h.lock q (by simpa [setTask, hqp] using hq)
    exact absurd (Option.some.inj (hother.symm.trans hlock)) hqp
  · exact absurd (hqp ▸ hq) hidle
  · simpa [setTask, hqp] using h.writer q hq
  · simp [setTask, hqp, Early]
  · have hold := h.early q
    simpa [setTask, hqp, Early] using hold
  · simp [setTask, hqp]
  · simpa [setTask, hqp] using h.ended hended q

theorem Inv.wake {s s' : Service} (h : s.Inv) {p : ℕ} (hstep : s.step (.wake p) = some s') :
    s'.Inv := by
  simp only [step] at hstep
  split at hstep
  · rename_i hfinished
    obtain rfl := Option.some.inj hstep
    exact h.release hfinished.1 (by simp [hfinished.2])
  · cases hstep

theorem Inv.cancel {s s' : Service} (h : s.Inv) {p : ℕ}
    (hallowed : s.undisturbed (.cancel p) = true) (hstep : s.step (.cancel p) = some s') :
    s'.Inv := by
  have hearly := h.early p
  simp only [step] at hstep
  split at hstep
  · -- A task that waits for the lock has written nothing.
    rename_i fatal hwaiting
    rw [hwaiting] at hearly
    have hnone : s.writers p = .none := by
      cases fatal with
      | false => exact hearly.2.2
      | true => exact hearly.2
    refine h.of_task (Option.some.inj hstep).symm (h.started p (by simp [hwaiting]))
      (fun q hq => hq) (by simp) (fun hrunning => ?_) trivial fun _ => .inr rfl
    simp [hnone] at hrunning
  · -- A cancelled writer keeps the lock until its thread is done.
    rename_i hwriting
    refine h.of_task (Option.some.inj hstep).symm (h.started p (by simp [hwriting]))
      (fun q hq => hq) (fun _ => h.lock p (.inl hwriting)) (fun _ => .inr rfl) trivial
      fun hended => ?_
    rcases h.ended hended p with habsent | hdone
    · simp [hwriting] at habsent
    · simp [hwriting] at hdone
  · -- A second cancellation would leave the lock under a running writer, which is excluded.
    rename_i hdraining
    obtain rfl := Option.some.inj hstep
    refine h.release (.inr hdraining) fun hrunning => ?_
    simp [undisturbed, hdraining, hrunning] at hallowed
  · cases hstep

theorem Inv.endLoop {s s' : Service} (h : s.Inv) (hstep : s.step .endLoop = some s') :
    s'.Inv := by
  simp only [step] at hstep
  split at hstep
  · rename_i hall
    obtain rfl := Option.some.inj hstep
    refine ⟨h.started, h.lock, h.writer, h.early, h.order, h.nodup, h.last, h.file,
      fun _ p => ?_, fun _ => rfl, h.found, fun hstopped => ⟨rfl, (h.stopped hstopped).2⟩⟩
    by_cases habsent : s.tasks p = .absent
    · exact .inl habsent
    · have hdone := List.all_eq_true.mp hall.1 p (h.started p habsent)
      exact .inr (by simpa using hdone)
  · cases hstep

theorem Inv.stopBegin {s s' : Service} (h : s.Inv) (hstep : s.step .stopBegin = some s') :
    s'.Inv := by
  simp only [step] at hstep
  split at hstep
  · obtain rfl := Option.some.inj hstep
    exact ⟨h.started, h.lock, h.writer, h.early, h.order, h.nodup, h.last, h.file, h.ended,
      by simp, by simp, h.stopped⟩
  · cases hstep

theorem Inv.stopJoin {s s' : Service} (h : s.Inv) (hstep : s.step .stopJoin = some s') :
    s'.Inv := by
  simp only [step] at hstep
  split at hstep
  · rename_i hjoin
    obtain rfl := Option.some.inj hstep
    exact ⟨h.started, h.lock, h.writer, h.early, h.order, h.nodup, h.last, h.file, h.ended,
      fun _ => hjoin.2, by simp, h.stopped⟩
  · cases hstep

/-- A `stop()` is over. -/
theorem Inv.stopEnd {s : Service} (h : s.Inv) {stopped : Bool}
    (hstopped : stopped = true →
      s.loopEnded = true ∧ s.fatal = none ∧ ∀ p, s.file ≠ .status p) :
    Inv { s with stop := .idle, stopped := stopped } :=
  ⟨h.started, h.lock, h.writer, h.early, h.order, h.nodup, h.last, h.file, h.ended, by simp,
    by simp, hstopped⟩

theorem Inv.stopRaise {s s' : Service} (h : s.Inv) (hstep : s.step .stopRaise = some s') :
    s'.Inv := by
  simp only [step] at hstep
  split at hstep
  · obtain rfl := Option.some.inj hstep
    exact h.stopEnd h.stopped
  · cases hstep

/-- What is written is in memory. -/
theorem Inv.writes_prefix {s : Service} (h : s.Inv) : s.writes <+: s.snapshots := by
  rw [h.order, List.append_assoc]
  exact List.prefix_append _ _

theorem Inv.stopRead {s s' : Service} (h : s.Inv) (hstep : s.step .stopRead = some s') :
    s'.Inv := by
  simp only [step] at hstep
  split at hstep
  · rename_i hjoined
    have hended := h.joined (.inl hjoined)
    split at hstep
    · obtain rfl := Option.some.inj hstep
      exact h.stopEnd h.stopped
    · rename_i hnone
      have hfatal : s.fatal = none := by simpa using hnone
      split at hstep
      · obtain rfl := Option.some.inj hstep
        exact ⟨h.started, h.lock, h.writer, h.early, h.order, h.nodup, h.last, h.file, h.ended,
          fun _ => hended, fun _ => hfatal, h.stopped⟩
      · rename_i hother
        obtain rfl := Option.some.inj hstep
        refine h.stopEnd fun _ => ⟨hended, hfatal, fun p hp => ?_⟩
        -- A status of this session in the file has been in memory.
        have hmem := h.writes_prefix.subset (h.file p hp)
        cases hsnapshots : s.snapshots with
        | nil => simp [hsnapshots] at hmem
        | cons q rest => exact hother q rest p hsnapshots hp
  · cases hstep

theorem Inv.stopUnlink {s s' : Service} (h : s.Inv) (hstep : s.step .stopUnlink = some s') :
    s'.Inv := by
  simp only [step] at hstep
  split at hstep
  · rename_i hfound
    obtain rfl := Option.some.inj hstep
    exact ⟨h.started, h.lock, h.writer, h.early, h.order, h.nodup, h.last,
      fun p hp => (by cases hp), h.ended, by simp, by simp,
      fun _ => ⟨h.joined (.inr hfound), h.found hfound, by simp⟩⟩
  · cases hstep

theorem Inv.foreign {s s' : Service} (h : s.Inv) {written : Bool}
    (hstep : s.step (.foreign written) = some s') : s'.Inv := by
  obtain rfl := Option.some.inj hstep
  have hother : ∀ p, (if written then StatusFile.foreign else .missing) ≠ .status p := by
    intro p
    split <;> simp
  exact ⟨h.started, h.lock, h.writer, h.early, h.order, h.nodup, h.last,
    fun p hp => absurd hp (hother p), h.ended, h.joined, h.found,
    fun hstopped => ⟨(h.stopped hstopped).1, (h.stopped hstopped).2.1, hother⟩⟩

theorem Inv.step {s s' : Service} (h : s.Inv) {event : Event}
    (hallowed : s.undisturbed event = true) (hstep : s.step event = some s') : s'.Inv := by
  cases event with
  | publish p => exact h.publish hstep
  | report p => exact h.report hstep
  | acquire p => exact h.acquire hstep
  | write p => exact h.write hstep
  | wake p => exact h.wake hstep
  | cancel p => exact h.cancel hallowed hstep
  | endLoop => exact h.endLoop hstep
  | stopBegin => exact h.stopBegin hstep
  | stopJoin => exact h.stopJoin hstep
  | stopRaise => exact h.stopRaise hstep
  | stopRead => exact h.stopRead hstep
  | stopUnlink => exact h.stopUnlink hstep
  | foreign written => exact h.foreign hstep

theorem Inv.run {s s' : Service} (h : s.Inv) {events : List Event}
    (hrun : s.run undisturbed events = some s') : s'.Inv := by
  induction events generalizing s with
  | nil => exact Option.some.inj hrun ▸ h
  | cons event events ih =>
    rw [Service.run] at hrun
    split at hrun
    · rename_i hallowed
      obtain ⟨t, hstep, hrest⟩ := Option.bind_eq_some_iff.mp hrun
      exact ih (h.step hallowed hstep) hrest
    · cases hrun

/-! ### The order of the publications -/

/-- The memory has taken some of the statuses that were published, in their order, and without a
fatal error those that wait for the lock come next. -/
structure Ordered (s : Service) : Prop where
  snapshots : s.snapshots <+ s.started.reverse
  queue : s.fatal = none → s.snapshots ++ s.queue <+ s.started.reverse

theorem Ordered.publish {s s' : Service} (h : s.Ordered) {p : ℕ}
    (hstep : s.step (.publish p) = some s') : s'.Ordered := by
  simp only [step] at hstep
  split at hstep
  · obtain rfl := Option.some.inj hstep
    simp only [enqueue, start, setTask]
    refine ⟨?_, fun hnone => ?_⟩
    · rw [List.reverse_cons]
      exact h.snapshots.trans (List.sublist_append_left _ _)
    · rw [List.reverse_cons, ← List.append_assoc]
      exact (h.queue hnone).append_right [p]
  · cases hstep

/-- A fatal report goes ahead of the publications that wait, and none of these follows it. -/
theorem Ordered.report {s s' : Service} (h : s.Ordered) {p : ℕ}
    (hstep : s.step (.report p) = some s') : s'.Ordered := by
  have hmore : s.started.reverse <+ (p :: s.started).reverse := by
    rw [List.reverse_cons]
    exact List.sublist_append_left _ _
  simp only [step] at hstep
  split at hstep
  · split at hstep
    · obtain rfl := Option.some.inj hstep
      exact ⟨h.snapshots.trans hmore, fun hnone => (h.queue hnone).trans hmore⟩
    · obtain rfl := Option.some.inj hstep
      refine ⟨?_, fun hnone => by cases hnone⟩
      simp only [enqueue, start, setTask]
      rw [List.reverse_cons]
      exact h.snapshots.append_right [p]
  · cases hstep

theorem Ordered.acquire {s s' : Service} (h : s.Ordered) {p : ℕ}
    (hstep : s.step (.acquire p) = some s') : s'.Ordered := by
  simp only [step] at hstep
  split at hstep
  · rename_i fatal _ _
    split at hstep
    · cases hstep
    · rename_i hhead
      obtain ⟨rest, hqueue⟩ : ∃ rest, s.queue = p :: rest :=
        List.head?_eq_some_iff.mp (not_not.mp hhead)
      have hrest : s.snapshots ++ rest <+ s.snapshots ++ s.queue := by
        rw [hqueue]
        exact (List.sublist_cons_self p rest).append_left _
      have htail : s.queue.tail = rest := by rw [hqueue, List.tail_cons]
      split at hstep
      · obtain rfl := Option.some.inj hstep
        exact ⟨h.snapshots, fun hnone => htail ▸ hrest.trans (h.queue hnone)⟩
      · rename_i hquiet
        obtain rfl := Option.some.inj hstep
        cases fatal with
        | true => exact ⟨h.snapshots, fun hnone => htail ▸ hrest.trans (h.queue hnone)⟩
        | false =>
          -- the first of the queue is the next value of the memory
          have hnone : s.fatal = none := by simpa using hquiet
          have hnext : s.snapshots ++ [p] ++ rest <+ s.started.reverse := by
            rw [List.append_assoc, List.singleton_append, ← hqueue]
            exact h.queue hnone
          exact ⟨(List.sublist_append_left _ rest).trans hnext, fun _ => htail ▸ hnext⟩
  · cases hstep

theorem Ordered.cancel {s s' : Service} (h : s.Ordered) {p : ℕ}
    (hstep : s.step (.cancel p) = some s') : s'.Ordered := by
  simp only [step] at hstep
  split at hstep
  · obtain rfl := Option.some.inj hstep
    refine ⟨h.snapshots, fun hnone => ?_⟩
    exact (List.erase_sublist.append_left s.snapshots).trans (h.queue hnone)
  · obtain rfl := Option.some.inj hstep
    exact ⟨h.snapshots, h.queue⟩
  · obtain rfl := Option.some.inj hstep
    exact ⟨h.snapshots, h.queue⟩
  · cases hstep

theorem Ordered.step {s s' : Service} (h : s.Ordered) {event : Event}
    (hstep : s.step event = some s') : s'.Ordered := by
  cases event with
  | publish p => exact h.publish hstep
  | report p => exact h.report hstep
  | acquire p => exact h.acquire hstep
  | cancel p => exact h.cancel hstep
  | _ =>
    -- the other steps leave the memory, the queue and the tasks that were started
    simp only [Service.step] at hstep
    repeat' split at hstep
    all_goals first
      | cases hstep
        done
      | obtain rfl := Option.some.inj hstep
        exact ⟨h.snapshots, h.queue⟩

end Service

/-- The status that an event publishes. -/
def Event.publication : Event → Option ℕ
  | .publish p => some p
  | .report p => some p
  | _ => none

namespace Service

theorem step_started {s s' : Service} {event : Event} (hstep : s.step event = some s') :
    s'.started = event.publication.toList ++ s.started := by
  cases event <;> simp only [Service.step] at hstep
  all_goals
    repeat' split at hstep
    all_goals first
      | cases hstep
        done
      | obtain rfl := Option.some.inj hstep
        rfl

/-- **The memory follows the order of the publications**, in every run. -/
theorem Ordered.run {allowed : Service → Event → Bool} {s s' : Service} (h : s.Ordered)
    {events : List Event} (hrun : s.run allowed events = some s') :
    s'.Ordered ∧ s'.started.reverse = s.started.reverse ++ events.filterMap Event.publication := by
  induction events generalizing s with
  | nil =>
    obtain rfl := Option.some.inj hrun
    exact ⟨h, by simp⟩
  | cons event events ih =>
    rw [Service.run] at hrun
    split at hrun
    · obtain ⟨t, hstep, hrest⟩ := Option.bind_eq_some_iff.mp hrun
      obtain ⟨hordered, hstarted⟩ := ih (h.step hstep) hrest
      refine ⟨hordered, ?_⟩
      rw [hstarted, step_started hstep]
      cases hpublication : event.publication <;> simp [hpublication]
    · cases hrun

/-! ### All runs -/

/-- A fatal error is recorded once and for all. -/
theorem step_fatal {s s' : Service} {event : Event} {f : ℕ} (hfatal : s.fatal = some f)
    (hstep : s.step event = some s') : s'.fatal = some f := by
  cases event with
  | report p =>
    simp only [Service.step, hfatal, Option.isSome_some, true_or, if_true] at hstep
    split at hstep
    · obtain rfl := Option.some.inj hstep
      exact hfatal
    · cases hstep
  | _ =>
    simp only [Service.step] at hstep
    repeat' split at hstep
    all_goals first
      | cases hstep
        done
      | obtain rfl := Option.some.inj hstep
        exact hfatal

end Service

/-- **The OOB status.**  As long as no publication is cancelled while it waits for a writer that is
running: the memory takes its values in the order in which they were published, and the file takes
the values of the memory in their order; a fatal status stays the last one
in memory, and in the file once it is written; and after a `stop()` that returned normally, without
a fatal error, the file holds no status of this session. -/
theorem status_final (events : List Event) (s : Service)
    (hrun : Service.initial.run Service.undisturbed events = some s) :
    s.snapshots <+ events.filterMap Event.publication ∧
    s.writes <+: s.snapshots ∧
    (∀ f, s.fatal = some f →
      s.snapshots.getLast? = some f ∧ (f ∈ s.writes → s.writes = s.snapshots) ∧
        ∀ event s', s.step event = some s' → s'.fatal = some f) ∧
    (s.stopped = true → ∀ p, s.file ≠ .status p) := by
  have hinv := Service.inv_initial.run hrun
  have hordered : Service.initial.Ordered := ⟨List.Sublist.refl [], fun _ => List.Sublist.refl []⟩
  obtain ⟨⟨hpublished, -⟩, hstarted⟩ := hordered.run hrun
  rw [hstarted] at hpublished
  refine ⟨hpublished, hinv.writes_prefix, fun f hf => ⟨hinv.last f hf, fun hmem => ?_,
    fun event s' hstep => Service.step_fatal hf hstep⟩, fun hstopped => (hinv.stopped hstopped).2.2⟩
  -- The fatal status is in the list of values once, at its end.
  obtain ⟨rest, hrest⟩ := hinv.writes_prefix
  rcases List.eq_nil_or_concat' rest with rfl | ⟨init, last, rfl⟩
  · rw [← hrest, List.append_nil]
  · have hlast := hinv.last f hf
    rw [← hrest, ← List.append_assoc, List.getLast?_concat] at hlast
    obtain rfl := Option.some.inj hlast
    have hnodup := hinv.nodup
    rw [← hrest, List.nodup_append] at hnodup
    exact absurd rfl (hnodup.2.2 _ hmem _ (by simp))

/-- Of two publications the second waits for the first; it is cancelled while its thread writes,
waits for it, and the file is removed. -/
theorem cancelled_publication_drained :
    ∃ s, Service.initial.run Service.undisturbed [.publish 0, .publish 1, .acquire 0, .write 0,
        .wake 0, .acquire 1, .cancel 1, .stopBegin, .write 1, .wake 1, .endLoop, .stopJoin,
        .stopRead, .stopUnlink] = some s ∧
      s.stopped = true ∧ s.snapshots <+ [0, 1] ∧ s.writes = [0, 1] ∧ ∀ p, s.file ≠ .status p := by
  obtain ⟨hordered, -, -, hstopped⟩ := status_final [.publish 0, .publish 1, .acquire 0, .write 0,
    .wake 0, .acquire 1, .cancel 1, .stopBegin, .write 1, .wake 1, .endLoop, .stopJoin, .stopRead,
    .stopUnlink] _ rfl
  exact ⟨_, rfl, rfl, hordered, rfl, hstopped rfl⟩

/-- A timeout cancels a publication, and the stop cancels it again: its thread writes the status
after the `stop()`. -/
theorem status_reappears :
    ∃ s s', Service.initial.run (fun _ _ => true) [.publish 0, .acquire 0, .cancel 0, .stopBegin,
        .cancel 0, .endLoop, .stopJoin, .stopRead] = some s ∧
      s.stopped = true ∧ s.fatal = none ∧ s.step (.write 0) = some s' ∧ s'.file = .status 0 :=
  ⟨_, _, rfl, rfl, rfl, rfl, rfl⟩

end OobStatusFile
