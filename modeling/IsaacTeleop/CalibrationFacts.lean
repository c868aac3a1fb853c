/-
What the accepted traces of a calibration session have in common.

Each fact relates a projection of the trace — the calls that hold the SDK, the started
steps, the tokens of the prompts, the written files — to the session the monitor is in.

* `holds`, `startedSteps`, `promptTokens`, `stepCounts`, `writes` — the projections;
* `Facts` — the facts;
* `facts_of_accepts` — they hold of every accepted trace.
-/
import IsaacTeleop.CalibrationRefinement
import Mathlib

open ByteText

namespace Calibration

variable {τ : Type}

/-! ### Projections of a trace -/

/-- The calls that take and release the SDK and its gloves. -/
inductive Hold
  | initialized
  | started (glove : GloveRef)
  | finished (glove : GloveRef)
  | stopped (glove : GloveRef)
  | shutdown
  deriving DecidableEq, Repr

/-- A glove is held once its start succeeded and free once its finish did. -/
@[simp] def hold? : Entry τ → Option Hold
  | .initializeSdk _ => some .initialized
  | .start glove status => if status.ok then some (.started glove) else none
  | .finish glove status => if status.ok then some (.finished glove) else none
  | .stop glove _ => some (.stopped glove)
  | .shutdown _ => some .shutdown
  | _ => none

def holds (t : Trace τ) : List Hold := t.filterMap hold?

@[simp] def input? : Entry τ → Option Input
  | .input input => some input
  | _ => none

/-- The call in progress. -/
def lastInput (t : Trace τ) : Option Input := (t.filterMap input?).getLast?

@[simp] def startStep? : Entry τ → Option (GloveRef × ℕ)
  | .startStep glove index _ => some (glove, index)
  | _ => none

/-- The calls of `start_step`, in order. -/
def startSteps (t : Trace τ) : List (GloveRef × ℕ) := t.filterMap startStep?

/-- The indices `start_step` was called with for a glove, in order. -/
def startedSteps (t : Trace τ) (glove : GloveRef) : List ℕ :=
  (startSteps t).filterMap fun x => if x.1 = glove then some x.2 else none

@[simp] def promptToken? : Entry τ → Option ByteText
  | .event (.prompt p) => some p.token
  | _ => none

def promptTokens (t : Trace τ) : List ByteText := t.filterMap promptToken?

@[simp] def stepCount? : Entry τ → Option (GloveRef × ℕ)
  | .stepCount glove status count => if status.ok then some (glove, count.toNat) else none
  | _ => none

/-- The step counts the SDK reported. -/
def stepCounts (t : Trace τ) : List (GloveRef × ℕ) := t.filterMap stepCount?

@[simp] def written? : Entry τ → Option (ByteText × List UInt8)
  | .write _ basename bytes none => some (basename, bytes)
  | _ => none

/-- The files written, with their bytes. -/
def writes (t : Trace τ) : List (ByteText × List UInt8) := t.filterMap written?

@[simp] def refusedStep? : Entry τ → Option GloveRef
  | .startStep glove _ status => if status.ok then none else some glove
  | _ => none

/-- The gloves of the steps that the SDK refused to start. -/
def refusedSteps (t : Trace τ) : List GloveRef := t.filterMap refusedStep?

/-- Not a stop and not a shutdown that failed. -/
@[simp] def Entry.releases : Entry τ → Bool
  | .stop _ status | .shutdown status => status.ok
  | _ => true

/-- A routine entry is in none of the projections. -/
theorem Entry.routine_silent {entry : Entry τ} (h : entry.routine = true) :
    hold? entry = none ∧ input? entry = none ∧ startStep? entry = none ∧
      promptToken? entry = none ∧ stepCount? entry = none ∧ written? entry = none ∧
      refusedStep? entry = none ∧ entry.releases = true := by
  cases entry with
  | write _ _ _ error =>
    cases error with
    | none => cases h
    | some _ => simp
  | event event => cases event <;> simp_all [Entry.routine]
  | _ => simp_all [Entry.routine]

/-! ### The calls that hold the SDK -/

/-- A glove that was started and is free again: finished, or else stopped. -/
def bracket (x : GloveRef × Bool) : List Hold :=
  [.started x.1, if x.2 then .finished x.1 else .stopped x.1]

def brackets (gloves : List (GloveRef × Bool)) : List Hold := gloves.flatMap bracket

theorem brackets_snoc (gloves : List (GloveRef × Bool)) (x : GloveRef × Bool) :
    brackets (gloves ++ [x]) = brackets gloves ++ bracket x := by
  rw [brackets, List.flatMap_append, List.flatMap_singleton]
  rfl

/-- The gloves of a session are started one after the other, each when the one before is
free, between `initialize` and `shutdown`. -/
def HoldsOk (s : Session) (held : List Hold) : Prop :=
  match s.stage with
  | .idle => held = []
  | .up => ∃ gloves, held
      = .initialized :: brackets gloves ++ (s.current.map fun c => Hold.started c.glove).toList
  | .stopped => ∃ gloves, held = .initialized :: brackets gloves
  | .down => ∃ gloves, held = .initialized :: brackets gloves ++ [.shutdown]
  | .reported => held = [] ∨ ∃ gloves, held = .initialized :: brackets gloves ++ [.shutdown]

section Step

variable {s s' : Session} {entry : Entry τ} {t : Trace τ}

/-- An entry that holds nothing, with the same stage and the same glove under calibration. -/
theorem HoldsOk.silent {held : List Hold} (h : HoldsOk s held) (hentry : hold? entry = none)
    (hstage : s'.stage = s.stage)
    (hcurrent : s'.current.map (fun c => Hold.started c.glove)
      = s.current.map fun c => Hold.started c.glove) :
    HoldsOk s' (held ++ (hold? entry).toList) := by
  rw [hentry, Option.toList_none, List.append_nil, HoldsOk, hstage, hcurrent]
  exact h

theorem HoldsOk.up {held : List Hold} (h : HoldsOk s held) (hup : s.stage = .up) :
    ∃ gloves, held = .initialized :: brackets gloves
      ++ (s.current.map fun c => Hold.started c.glove).toList := by
  rw [HoldsOk, hup] at h
  exact h

theorem HoldsOk.change {held : List Hold} (hvalid : s.Valid) (h : HoldsOk s held)
    (hchange : s.Change entry s') : HoldsOk s' (held ++ (hold? entry).toList) := by
  cases hchange with
  | routine hroutine _ => exact h.silent (Entry.routine_silent hroutine).1 rfl rfl
  | input _ => exact h.silent rfl rfl rfl
  | counted _ _ _ _ _ _ => exact h.silent rfl rfl rfl
  | saved _ _ _ => exact h.silent rfl rfl rfl
  | acknowledged _ _ => exact h.silent rfl rfl rfl
  | stepStarted _ hconfirmed => exact h.silent rfl rfl (by rw [hconfirmed.current]; rfl)
  | stepRefused _ hconfirmed => exact h.silent rfl rfl (by rw [hconfirmed.current]; rfl)
  | prompted _ hcurrent _ _ _ _ _ _ _ => exact h.silent rfl rfl (by rw [hcurrent]; rfl)
  | initialized hidle _ =>
    -- The SDK is the first thing held.
    rw [HoldsOk, hidle] at h
    refine ⟨[], ?_⟩
    rw [h, (hvalid.fresh (hvalid.idle hidle)).2.1]
    rfl
  | started hok hup hcounted =>
    -- The bracket of a glove opens inside it.
    obtain ⟨gloves, hheld⟩ := h.up hup
    rw [(hvalid.countedSide _ hcounted).2.2, Option.map_none, Option.toList_none,
      List.append_nil] at hheld
    rw [HoldsOk, hup, hheld, hold?, if_pos hok]
    exact ⟨gloves, rfl⟩
  | @finished c _ hok hup hcurrent _ _ _ =>
    obtain ⟨gloves, hheld⟩ := h.up hup
    rw [hcurrent, Option.map_some] at hheld
    rw [HoldsOk, hup, hheld, hold?, if_pos hok]
    refine ⟨gloves ++ [(c.glove, true)], ?_⟩
    rw [brackets_snoc]
    simp [bracket]
  | @stopped c _ hup hcurrent =>
    -- The bracket closes without being finished.
    obtain ⟨gloves, hheld⟩ := h.up hup
    rw [hcurrent, Option.map_some] at hheld
    rw [HoldsOk, hheld]
    refine ⟨gloves ++ [(c.glove, false)], ?_⟩
    rw [brackets_snoc]
    simp [bracket]
  | down hstage =>
    -- Every bracket is closed before the SDK is let go.
    rcases hstage with hstopped | ⟨hup, hcurrent⟩
    · rw [HoldsOk, hstopped] at h
      obtain ⟨gloves, hheld⟩ := h
      exact ⟨gloves, by rw [hheld]; rfl⟩
    · obtain ⟨gloves, hheld⟩ := h.up hup
      rw [hcurrent, Option.map_none, Option.toList_none, List.append_nil] at hheld
      exact ⟨gloves, by rw [hheld]; rfl⟩
  | reported hstage _ =>
    show HoldsOk _ (held ++ [])
    rw [List.append_nil]
    rcases hstage with hidle | hdown
    · rw [HoldsOk, hidle] at h
      exact Or.inl h
    · rw [HoldsOk, hdown] at h
      exact Or.inr h

/-! ### What the session determines -/

/-- The gloves with the number of steps started for each. -/
def runs (s : Session) : List (GloveRef × ℕ) :=
  s.finished ++ (s.current.map fun c => (c.glove, c.started)).toList

theorem runs_none (h : s.current = none) : runs s = s.finished := by
  rw [runs, h]
  exact List.append_nil _

theorem runs_some {c : GloveRun} (h : s.current = some c) :
    runs s = s.finished ++ [(c.glove, c.started)] := by
  rw [runs, h]
  rfl

/-- Steps `0, 1, …` of one glove after the other. -/
def stepsOf (runs : List (GloveRef × ℕ)) : List (GloveRef × ℕ) :=
  runs.flatMap fun x => (List.range x.2).map (Prod.mk x.1)

theorem stepsOf_snoc (runs : List (GloveRef × ℕ)) (glove : GloveRef) (n : ℕ) :
    stepsOf (runs ++ [(glove, n)]) = stepsOf runs ++ (List.range n).map (Prod.mk glove) := by
  rw [stepsOf, List.flatMap_append, List.flatMap_singleton]
  rfl

theorem stepsOf_change (hvalid : s.Valid) (hchange : s.Change entry s') :
    stepsOf (runs s') = stepsOf (runs s) ++ (startStep? entry).toList := by
  cases hchange with
  | routine hroutine _ =>
    rw [(Entry.routine_silent hroutine).2.2.1]
    exact (List.append_nil _).symm
  | prompted _ hcurrent _ _ _ _ _ _ _ =>
    rw [runs_some hcurrent, runs_some rfl]
    exact (List.append_nil _).symm
  | finished _ _ hcurrent hstarted _ _ =>
    rw [runs_some hcurrent, hstarted, runs_none rfl]
    exact (List.append_nil _).symm
  | started _ _ hcounted =>
    rw [runs_none (hvalid.countedSide _ hcounted).2.2, runs_some rfl, stepsOf_snoc]
    rfl
  | stepStarted _ hconfirmed =>
    -- One more step of the current glove, started or refused.
    rw [runs_some hconfirmed.current, runs_some rfl, stepsOf_snoc, stepsOf_snoc, List.range_succ,
      List.map_append, List.append_assoc]
    rfl
  | stepRefused _ hconfirmed =>
    rw [runs_some hconfirmed.current, runs_some rfl, stepsOf_snoc, stepsOf_snoc, List.range_succ,
      List.map_append, List.append_assoc]
    rfl
  | _ => exact (List.append_nil _).symm

/-- The gloves of a session have different sides. -/
theorem runs_nodup (hvalid : s.Valid) : ((runs s).map fun x => x.1).Nodup := by
  refine List.Nodup.of_map (fun glove => glove.side) ?_
  rw [List.map_map]
  cases hcurrent : s.current with
  | none =>
    rw [runs_none hcurrent]
    exact hvalid.finishedSides ▸ (Session.sides_nodup s).sublist (List.take_sublist _ _)
  | some c =>
    have hsides : (runs s).map ((fun glove => glove.side) ∘ fun x => x.1)
        = s.sides.take (s.finished.length + 1) := by
      rw [runs_some hcurrent, List.map_append, List.take_add_one,
        (hvalid.currentSide c hcurrent).1, ← hvalid.finishedSides]
      rfl
    rw [hsides]
    exact (Session.sides_nodup s).sublist (List.take_sublist _ _)

/-- The indices of a glove among its own steps, and among those of another. -/
theorem indices_of_steps (g glove : GloveRef) (n : ℕ) :
    ((List.range n).map (Prod.mk g)).filterMap (fun x => if x.1 = glove then some x.2 else none)
      = if g = glove then List.range n else [] := by
  rw [List.filterMap_map]
  split
  · rename_i h
    subst h
    simp
  · rename_i h
    simp [h]

theorem indices_absent {runs : List (GloveRef × ℕ)} {glove : GloveRef}
    (h : ∀ x ∈ runs, x.1 ≠ glove) :
    (stepsOf runs).filterMap (fun x => if x.1 = glove then some x.2 else none) = [] := by
  induction runs with
  | nil => rfl
  | cons x rest ih =>
    rw [stepsOf, List.flatMap_cons, List.filterMap_append, indices_of_steps,
      if_neg (h x List.mem_cons_self)]
    exact ih fun y hy => h y (List.mem_cons_of_mem _ hy)

/-- Of steps taken glove by glove, those of one glove are the first ones, in order. -/
theorem indices_range {runs : List (GloveRef × ℕ)} (hnodup : (runs.map fun x => x.1).Nodup)
    (glove : GloveRef) :
    ∃ n, (stepsOf runs).filterMap (fun x => if x.1 = glove then some x.2 else none)
      = List.range n := by
  induction runs with
  | nil => exact ⟨0, rfl⟩
  | cons x rest ih =>
    obtain ⟨hnew, hrest⟩ := List.nodup_cons.mp hnodup
    rw [stepsOf, List.flatMap_cons, List.filterMap_append, indices_of_steps]
    by_cases hx : x.1 = glove
    · have habsent : ∀ y ∈ rest, y.1 ≠ glove := by
        intro y hy heq
        exact hnew (List.mem_map.mpr ⟨y, hy, heq.trans hx.symm⟩)
      rw [if_pos hx]
      exact ⟨x.2, (congrArg _ (indices_absent habsent)).trans (List.append_nil _)⟩
    · rw [if_neg hx]
      exact ih hrest

/-- The token of every prompt, by its number. -/
def promptsOf (s : Session) : List ByteText :=
  (List.range s.prompts).map fun i => Session.promptToken s.attempt (i + 1)

theorem promptsOf_change (hvalid : s.Valid) (hchange : s.Change entry s') :
    promptsOf s' = promptsOf s ++ (promptToken? entry).toList := by
  cases hchange with
  | routine hroutine _ =>
    rw [(Entry.routine_silent hroutine).2.2.2.1]
    exact (List.append_nil _).symm
  | initialized hidle _ =>
    -- no prompt was offered before the attempt
    have hprompts := (hvalid.fresh (hvalid.idle hidle)).2.2.2.1
    rw [promptsOf, promptsOf, hprompts]
    rfl
  | prompted _ _ _ _ _ _ _ _ htoken =>
    rw [promptsOf, List.range_succ, List.map_append, promptToken?, htoken]
    rfl
  | _ => exact (List.append_nil _).symm

/-- The gloves whose steps were counted. -/
def countsOf (s : Session) : List (GloveRef × ℕ) :=
  s.finished ++ (s.current.map fun c => (c.glove, c.count)).toList ++ s.counted.toList

theorem countsOf_change (hvalid : s.Valid) (hchange : s.Change entry s') :
    countsOf s' = countsOf s ++ (stepCount? entry).toList := by
  cases hchange with
  | routine hroutine _ =>
    rw [(Entry.routine_silent hroutine).2.2.2.2.1]
    exact (List.append_nil _).symm
  | counted hok _ hcurrent hcounted _ _ =>
    rw [countsOf, countsOf, hcurrent, hcounted, stepCount?, if_pos hok]
    simp
  | started _ _ hcounted =>
    -- The counted glove becomes the current one, and keeps its count.
    rw [countsOf, countsOf, hcounted, (hvalid.countedSide _ hcounted).2.2]
    simp
  | finished _ _ hcurrent _ _ _ =>
    rw [countsOf, countsOf, hcurrent]
    simp
  | stepStarted _ hconfirmed =>
    rw [countsOf, countsOf, hconfirmed.current]
    exact (List.append_nil _).symm
  | stepRefused _ hconfirmed =>
    rw [countsOf, countsOf, hconfirmed.current]
    exact (List.append_nil _).symm
  | prompted _ hcurrent _ _ _ _ _ _ _ =>
    rw [countsOf, countsOf, hcurrent]
    exact (List.append_nil _).symm
  | _ => exact (List.append_nil _).symm

/-- The glove whose last step the SDK refused. -/
def refusedOf (s : Session) : List GloveRef :=
  ((s.current.filter fun c => c.refused).map fun c => c.glove).toList

theorem refusedOf_accepted {c : GloveRun} (hc : s.current = some c) (h : c.refused = false) :
    refusedOf s = [] := by
  rw [refusedOf, hc, Option.filter_some, h]
  rfl

theorem refusedOf_change (hvalid : s.Valid) (hchange : s.Change entry s') :
    refusedOf s' = refusedOf s ++ (refusedStep? entry).toList := by
  cases hchange with
  | routine hroutine _ =>
    rw [(Entry.routine_silent hroutine).2.2.2.2.2.2.1]
    exact (List.append_nil _).symm
  | started _ _ hcounted =>
    rw [refusedOf_accepted rfl rfl, refusedOf, (hvalid.countedSide _ hcounted).2.2]
    rfl
  | @stepStarted c _ _ hok hconfirmed =>
    have hnew : (⟨c.glove, c.count, c.started + 1, none, c.refused⟩ : GloveRun).refused = false :=
      hconfirmed.accepted
    rw [refusedOf_accepted hconfirmed.current hconfirmed.accepted, refusedOf_accepted rfl hnew,
      refusedStep?, if_pos hok]
    rfl
  | stepRefused hfailed hconfirmed =>
    -- The one entry that adds a refusal.
    rw [refusedOf_accepted hconfirmed.current hconfirmed.accepted, refusedStep?, hfailed]
    rfl
  | finished _ _ hcurrent _ _ haccepted =>
    rw [refusedOf_accepted hcurrent haccepted]
    rfl
  | @prompted c _ _ hcurrent _ _ _ _ _ _ _ =>
    rw [refusedOf, refusedOf, hcurrent, Option.filter_some, Option.filter_some]
    cases c.refused with
    | false => rfl
    | true => rfl
  | _ => exact (List.append_nil _).symm

/-- What the session says of the written files. -/
def filesOf (s : Session) : List (ByteText × ℕ × ByteText) :=
  s.files.map fun f => (f.file, f.bytes, f.sha256)

theorem filesOf_change (hchange : s.Change entry s') :
    filesOf s' = filesOf s
      ++ ((written? entry).map fun w => (w.1, w.2.length, sha256Hex w.2)).toList := by
  cases hchange with
  | routine hroutine _ =>
    rw [(Entry.routine_silent hroutine).2.2.2.2.2.1]
    exact (List.append_nil _).symm
  | saved _ _ _ =>
    rw [filesOf, List.map_append]
    rfl
  | _ => exact (List.append_nil _).symm

theorem released_change (hchange : s.Change entry s') :
    s'.released = (s.released && entry.releases) := by
  cases hchange with
  | routine hroutine _ =>
    rw [(Entry.routine_silent hroutine).2.2.2.2.2.2.2]
    exact (Bool.and_true _).symm
  | stopped _ _ => rfl
  | down _ => rfl
  | _ => exact (Bool.and_true _).symm

/-! ### Prompts and confirmations -/

/-- The prompt that awaits its confirmation was written for the glove and the next step. -/
def OfferedOk (s : Session) (t : Trace τ) : Prop :=
  ∀ c token, s.current = some c → c.offered = some token →
    ∃ p, .event (.prompt p) ∈ t ∧ p.token = token ∧ p.attempt = s.attempt ∧
      p.side = c.glove.side ∧ p.gloveId = c.glove.gloveId ∧ p.index = c.started

theorem OfferedOk.same (h : OfferedOk s t) (hcurrent : s'.current = s.current)
    (hattempt : s'.attempt = s.attempt) : OfferedOk s' (t ++ [entry]) := by
  intro c token hc htoken
  rw [hcurrent] at hc
  rw [hattempt]
  obtain ⟨p, hp, hrest⟩ := h c token hc htoken
  exact ⟨p, List.mem_append_left _ hp, hrest⟩

theorem OfferedOk.change (hvalid : s.Valid) (h : OfferedOk s t) (hchange : s.Change entry s') :
    OfferedOk s' (t ++ [entry]) := by
  cases hchange with
  | initialized hidle _ =>
    intro c token hc
    rw [(hvalid.fresh (hvalid.idle hidle)).2.1] at hc
    cases hc
  | started _ _ _ =>
    intro c token hc htoken
    cases hc
    cases htoken
  | stepStarted _ _ =>
    intro c token hc htoken
    cases hc
    cases htoken
  | stepRefused _ _ =>
    intro c token hc htoken
    cases hc
    cases htoken
  | finished _ _ _ _ _ _ =>
    intro c token hc
    cases hc
  | prompted _ _ _ _ hattempt hside hid hindex _ =>
    -- Only the prompt itself offers a token.
    intro c token hc htoken
    cases hc
    cases htoken
    exact ⟨_, List.mem_append_right _ (List.mem_singleton.mpr rfl), rfl, hattempt, hside, hid,
      hindex⟩
  | _ => exact h.same rfl rfl

/-- Only accepted tokens are acknowledged. -/
def AcknowledgedOk (s : Session) (t : Trace τ) : Prop :=
  ∀ a, .event (.stepAccepted a) ∈ t → a.token ∈ s.accepted

theorem AcknowledgedOk.change (h : AcknowledgedOk s t) (hchange : s.Change entry s') :
    AcknowledgedOk s' (t ++ [entry]) := by
  intro a ha
  rcases List.mem_append.mp ha with ha | ha
  · have hmem := h a ha
    cases hchange with
    | stepStarted _ _ => exact List.mem_append_left _ hmem
    | _ => exact hmem
  · obtain rfl := List.mem_singleton.mp ha
    cases hchange with
    | routine hroutine _ => cases hroutine
    | acknowledged _ hmem => exact hmem

/-! ### All facts -/

/-- What an accepted trace has in common with the session. -/
structure Facts (t : Trace τ) (s : Session) : Prop where
  valid : s.Valid
  lastInput : lastInput t = s.lastInput
  holds : HoldsOk s (holds t)
  released : s.released = t.all Entry.releases
  reported : s.stage = .reported ↔ ∃ r, .event (.result r) ∈ t
  offered : OfferedOk s t
  acknowledged : AcknowledgedOk s t
  command : ∀ command, s.command = some command → ∃ before status after,
    t = before ++ .initializeSdk status :: after ∧
      Calibration.lastInput before = some (.handle (.start command))

theorem lastInput_change (h : lastInput t = s.lastInput) (hchange : s.Change entry s') :
    lastInput (t ++ [entry]) = s'.lastInput := by
  rw [lastInput, Monitor.filterMap_snoc]
  cases hchange with
  | routine hroutine _ =>
    rw [(Entry.routine_silent hroutine).2.1, Option.toList_none, List.append_nil]
    exact h
  | input i => exact List.getLast?_concat
  | _ => exact (congrArg List.getLast? (List.append_nil _)).trans h

theorem stage_change (hchange : s.Change entry s') :
    s'.stage = .reported ↔ s.stage = .reported ∨ ∃ r, entry = .event (.result r) := by
  cases hchange with
  | routine hroutine _ =>
    refine ⟨Or.inl, ?_⟩
    rintro (hreported | ⟨r, rfl⟩)
    · exact hreported
    · cases hroutine
  | initialized hidle _ => simp [hidle]
  | stopped hup _ => simp [hup]
  | down hstage => rcases hstage with hstopped | ⟨hup, -⟩ <;> simp [*]
  | _ => simp

theorem reported_change (h : s.stage = .reported ↔ ∃ r, .event (.result r) ∈ t)
    (hchange : s.Change entry s') :
    s'.stage = .reported ↔ ∃ r, .event (.result r) ∈ t ++ [entry] := by
  rw [stage_change hchange, h]
  constructor
  · rintro (⟨r, hr⟩ | ⟨r, rfl⟩)
    · exact ⟨r, List.mem_append_left _ hr⟩
    · exact ⟨r, List.mem_append_right _ (List.mem_singleton.mpr rfl)⟩
  · rintro ⟨r, hr⟩
    rcases List.mem_append.mp hr with hr | hr
    · exact Or.inl ⟨r, hr⟩
    · exact Or.inr ⟨r, (List.mem_singleton.mp hr).symm⟩

/-- After its result a session only notes what it is called with. -/
theorem reported_only_input (hstage : s.stage = .reported) (hchange : s.Change entry s') :
    entry = .cancelRequested ∨ ∃ i, entry = .input i := by
  cases hchange with
  | routine _ hpass => exact Or.inl (hpass.resolve_left (not_not.mpr hstage))
  | input i => exact Or.inr ⟨i, rfl⟩
  | acknowledged hnot _ => exact absurd hstage hnot
  | initialized hidle _ => simp [hidle] at hstage
  | stepStarted _ hconfirmed => exact absurd hstage (Session.ne_reported_of_up hconfirmed.up)
  | stepRefused _ hconfirmed => exact absurd hstage (Session.ne_reported_of_up hconfirmed.up)
  | counted _ hup _ _ _ _ => exact absurd hstage (Session.ne_reported_of_up hup)
  | started _ hup _ => exact absurd hstage (Session.ne_reported_of_up hup)
  | finished _ hup _ _ _ _ => exact absurd hstage (Session.ne_reported_of_up hup)
  | saved hup _ _ => exact absurd hstage (Session.ne_reported_of_up hup)
  | stopped hup _ => exact absurd hstage (Session.ne_reported_of_up hup)
  | prompted hup _ _ _ _ _ _ _ _ => exact absurd hstage (Session.ne_reported_of_up hup)
  | down hends => rcases hends with hstopped | ⟨hup, -⟩ <;> simp [*] at hstage
  | reported hends _ => rcases hends with hidle | hdown <;> simp [*] at hstage

theorem command_change
    (h : ∀ command, s.command = some command → ∃ before status after,
      t = before ++ .initializeSdk status :: after ∧
        lastInput before = some (.handle (.start command)))
    (hinput : lastInput t = s.lastInput) (hchange : s.Change entry s') :
    ∀ command, s'.command = some command → ∃ before status after,
      t ++ [entry] = before ++ .initializeSdk status :: after ∧
        lastInput before = some (.handle (.start command)) := by
  have hold : ∀ command, s.command = some command → ∃ before status after,
      t ++ [entry] = before ++ .initializeSdk status :: after ∧
        lastInput before = some (.handle (.start command)) := by
    intro command hcommand
    obtain ⟨before, status, after, rfl, hlast⟩ := h command hcommand
    exact ⟨before, status, after ++ [entry], List.append_assoc _ _ _, hlast⟩
  cases hchange with
  | initialized _ hstart =>
    intro command hcommand
    cases hcommand
    exact ⟨t, _, [], rfl, hinput.trans hstart⟩
  | _ => exact hold

/-- **Every entry keeps the facts.** -/
theorem Facts.change (h : Facts t s) (hchange : s.Change entry s') : Facts (t ++ [entry]) s' where
  valid := h.valid.change hchange
  lastInput := lastInput_change h.lastInput hchange
  holds := by
    rw [Calibration.holds, Monitor.filterMap_snoc]
    exact h.holds.change h.valid hchange
  released := by
    rw [released_change hchange, h.released, List.all_append]
    simp
  reported := reported_change h.reported hchange
  offered := h.offered.change h.valid hchange
  acknowledged := h.acknowledged.change hchange
  command := command_change h.command h.lastInput hchange

end Step

theorem init_facts : Facts ([] : Trace τ) Session.init where
  valid := Session.init_valid
  lastInput := rfl
  holds := rfl
  released := rfl
  reported := by simp [Session.init]
  offered _ _ h := (by cases h)
  acknowledged _ h := (by cases h)
  command _ h := (by cases h)

section Accepted

variable {s s' : Session} {t : Trace τ}

/-- **The facts hold of every accepted trace.** -/
theorem facts_of_accepts (h : Monitor.Accepts Session.next Session.init t s) : Facts t s :=
  Monitor.induction init_facts
    (fun _ _ _ _ hfacts hnext => hfacts.change (Session.next_change hnext)) h

/-- A projection that the session determines. -/
theorem projection_of_accepts {α : Type} {f : Entry τ → Option α} {F : Session → List α}
    (hinit : F Session.init = [])
    (hchange : ∀ s entry s', s.Valid → s.Change entry s' → F s' = F s ++ (f entry).toList)
    (h : Monitor.Accepts Session.next Session.init t s) : t.filterMap f = F s :=
  Monitor.filterMap_eq Session.init_valid
    (fun _ _ _ hvalid hnext => hvalid.change (Session.next_change hnext)) hinit
    (fun s entry s' hvalid hnext => hchange s entry s' hvalid (Session.next_change hnext)) h

theorem startSteps_eq (h : Monitor.Accepts Session.next Session.init t s) :
    startSteps t = stepsOf (runs s) :=
  projection_of_accepts (F := fun s => stepsOf (runs s)) rfl (fun _ _ _ => stepsOf_change) h

theorem promptTokens_eq (h : Monitor.Accepts Session.next Session.init t s) :
    promptTokens t = promptsOf s :=
  projection_of_accepts rfl (fun _ _ _ => promptsOf_change) h

theorem stepCounts_eq (h : Monitor.Accepts Session.next Session.init t s) :
    stepCounts t = countsOf s :=
  projection_of_accepts rfl (fun _ _ _ => countsOf_change) h

theorem refusedSteps_eq (h : Monitor.Accepts Session.next Session.init t s) :
    refusedSteps t = refusedOf s :=
  projection_of_accepts rfl (fun _ _ _ => refusedOf_change) h

theorem writes_eq (h : Monitor.Accepts Session.next Session.init t s) :
    (writes t).map (fun w => (w.1, w.2.length, sha256Hex w.2)) = filesOf s := by
  rw [writes, List.map_filterMap]
  exact projection_of_accepts rfl (fun _ _ _ _ => filesOf_change) h

/-- Nothing but calls and cancellations follows a result. -/
theorem accepts_reported (hstage : s.stage = .reported)
    (h : Monitor.Accepts Session.next s t s') :
    ∀ entry ∈ t, entry = .cancelRequested ∨ ∃ i, entry = .input i := by
  induction t generalizing s with
  | nil =>
    intro entry hentry
    cases hentry
  | cons first rest ih =>
    obtain ⟨s₁, hnext, hrest⟩ := Monitor.accepts_cons.mp h
    have hchange := Session.next_change hnext
    intro entry hentry
    rcases List.mem_cons.mp hentry with rfl | hentry
    · exact reported_only_input hstage hchange
    · exact ih ((stage_change hchange).mpr (Or.inl hstage)) hrest entry hentry

end Accepted

end Calibration
