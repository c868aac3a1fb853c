/-
Detached services of one run directory.

A start takes the lock of the run directory, spawns a service unless one is serving, records its pid
and waits for it; a stop signals the recorded service and removes the pid file.  Calls of any number
of processes are interleaved file operation by file operation.  The lock covers starts only, and a
start may give up on a service that is still starting.

* `Place`, `State.step` — where a call stands, and the steps of `start_and_wait` and `terminate`;
* `State.orderly` — the steps that do no harm;
* `State.Inv` — one service at most, and its pid in the file;
* `detached_service` — all runs of such steps; `slow_service_doubled` — two that are not.
-/
import Mathlib

namespace DetachedService

/-! ### Calls -/

/-- A spawned service; it is live when its runtime serves the run directory. -/
inductive Status
  | starting
  | live
  | exited
  deriving DecidableEq

/-- The contents of `service.pid`. -/
inductive PidFile
  | missing
  | unreadable
  | pid (n : ℕ)
  deriving DecidableEq

def PidFile.named : PidFile → Option ℕ
  | pid n => some n
  | _ => none

/-- Where a call stands. -/
inductive Place
  /-- no call in progress -/
  | idle
  /-- `start_and_wait` at the lock -/
  | queued
  | checking
  | preparing
  /-- the child runs, `write_text` is to come -/
  | spawned (p : ℕ)
  | polling (p : ℕ)
  /-- `read_pid` of a start -/
  | reading (p : ℕ)
  | probing (p n : ℕ)
  /-- a start that has its result and holds the lock -/
  | leaving
  /-- `terminate`, at its `read_pid` -/
  | stopping
  | stopProbing (n : ℕ)
  | signalling (n : ℕ)
  | stopWaiting (n : ℕ)
  /-- before `unlink`, with what `read_pid` found in the file -/
  | unlinking (seen : PidFile)
  deriving DecidableEq

namespace Place

def locked : Place → Bool
  | checking | preparing | spawned _ | polling _ | reading _ | probing _ _ | leaving => true
  | _ => false

def polled : Place → Option ℕ
  | polling p => some p
  | _ => none

/-- What a stop has found in the pid file. -/
def seen : Place → Option PidFile
  | unlinking found => some found
  | _ => none

/-- The service that a start is waiting for. -/
def waitsFor : Place → Option ℕ
  | spawned p | polling p | reading p | probing p _ => some p
  | _ => none

end Place

structure State where
  /-- by pid; pids are not used again -/
  services : List Status
  pidFile : PidFile
  lock : Option ℕ
  calls : ℕ → Place

inductive Event
  | start (c : ℕ)
  | acquire (c : ℕ)
  | checkLive (c : ℕ)
  /-- `before_spawn` or the spawn itself raises -/
  | fail (c : ℕ)
  | popen (c : ℕ)
  | writePid (c : ℕ)
  | pollLive (c : ℕ)
  /-- the deadline of a start has passed -/
  | giveUp (c : ℕ)
  | readPid (c : ℕ)
  | probe (c : ℕ)
  | release (c : ℕ)
  | stop (c : ℕ)
  | stopRead (c : ℕ)
  | stopProbe (c : ℕ)
  /-- `os.kill`; a zombie still takes a signal -/
  | kill (c : ℕ) (zombie : Bool)
  | stopPoll (c : ℕ)
  /-- the deadline of a stop has passed -/
  | stopGiveUp (c : ℕ)
  | unlink (c : ℕ)
  | becomeLive (p : ℕ)
  | exit (p : ℕ)
  deriving DecidableEq

namespace State

def Alive (s : State) (p : ℕ) : Prop :=
  s.services[p]? = some .starting ∨ s.services[p]? = some .live

instance (s : State) (p : ℕ) : Decidable (s.Alive p) :=
  inferInstanceAs (Decidable (_ ∨ _))

/-- `is_runtime_live` -/
def isRuntimeLive (s : State) : Bool := s.services.contains .live

def goto (s : State) (c : ℕ) (place : Place) : State :=
  { s with calls := Function.update s.calls c place }

/-- One atomic operation. -/
def step (s : State) : Event → Option State
  | .start c => if s.calls c = .idle then some (s.goto c .queued) else none
  | .acquire c =>
    if s.calls c = .queued ∧ s.lock = none then
      some { s.goto c .checking with lock := some c }
    else none
  | .checkLive c =>
    if s.calls c = .checking then
      some (s.goto c (if s.isRuntimeLive then .leaving else .preparing))
    else none
  | .fail c => if s.calls c = .preparing then some (s.goto c .leaving) else none
  | .popen c =>
    if s.calls c = .preparing then
      some { s.goto c (.spawned s.services.length) with services := s.services ++ [.starting] }
    else none
  | .writePid c =>
    match s.calls c with
    | .spawned p => some { s.goto c (.polling p) with pidFile := .pid p }
    | _ => none
  | .pollLive c =>
    match s.calls c with
    | .polling p => some (s.goto c (if s.isRuntimeLive then .leaving else .reading p))
    | _ => none
  | .giveUp c =>
    match s.calls c with
    | .polling _ => some (s.goto c .leaving)
    | _ => none
  | .readPid c =>
    match s.calls c, s.pidFile with
    | .reading p, .pid n => some (s.goto c (.probing p n))
    | .reading _, _ => some (s.goto c .leaving)
    | _, _ => none
  | .probe c =>
    match s.calls c with
    | .probing p n => some (s.goto c (if s.Alive n then .polling p else .leaving))
    | _ => none
  | .release c =>
    if s.calls c = .leaving then some { s.goto c .idle with lock := none } else none
  | .stop c => if s.calls c = .idle then some (s.goto c .stopping) else none
  | .stopRead c =>
    match s.calls c, s.pidFile with
    | .stopping, .pid n => some (s.goto c (.stopProbing n))
    | .stopping, seen => some (s.goto c (.unlinking seen))
    | _, _ => none
  | .stopProbe c =>
    match s.calls c with
    | .stopProbing n =>
      some (s.goto c (if s.Alive n then .signalling n else .unlinking (.pid n)))
    | _ => none
  | .kill c zombie =>
    match s.calls c with
    | .signalling n =>
      some (s.goto c (if s.Alive n ∨ zombie then .stopWaiting n else .unlinking (.pid n)))
    | _ => none
  | .stopPoll c =>
    match s.calls c with
    | .stopWaiting n =>
      some (s.goto c (if s.Alive n then .stopWaiting n else .unlinking (.pid n)))
    | _ => none
  | .stopGiveUp c =>
    match s.calls c with
    | .stopWaiting _ => some (s.goto c .idle)
    | _ => none
  | .unlink c =>
    match s.calls c with
    | .unlinking _ => some { s.goto c .idle with pidFile := .missing }
    | _ => none
  | .becomeLive p =>
    if s.services[p]? = some .starting then
      some { s with services := s.services.set p .live }
    else none
  | .exit p => if s.Alive p then some { s with services := s.services.set p .exited } else none

def run (s : State) : List Event → Option State
  | [] => some s
  | event :: events => (s.step event).bind fun s' => s'.run events

/-- Services of earlier days, and whatever they have left in the pid file. -/
structure Initial (s : State) : Prop where
  services : ∀ p, ¬ s.Alive p
  pidFile : ∀ n, s.pidFile = .pid n → n < s.services.length
  lock : s.lock = none
  calls : ∀ c, s.calls c = .idle

/-- A start does not give up on a service that is still starting, and a stop does not remove a pid
file that was written anew, since it read it, for a service that is alive. -/
def orderly (s : State) : Event → Bool
  | .giveUp c => (s.calls c).polled.all fun p => s.services[p]? ≠ some .starting
  | .unlink c => (s.calls c).seen.all fun seen =>
      s.pidFile = seen || s.pidFile.named.all fun n => ¬ s.Alive n
  | _ => true

/-- A run of orderly steps. -/
def orderlyRun (s : State) : List Event → Bool
  | [] => true
  | event :: events => s.orderly event && (s.step event).all fun s' => s'.orderlyRun events

/-! ### The invariant -/

/-- What a call at this place knows. -/
def Fits (s : State) : Place → Prop
  | .preparing => ∀ p, ¬ s.Alive p
  | .spawned p => p < s.services.length ∧ ∀ q, s.Alive q → q = p
  | .probing p n => s.Alive p → n = p
  | .stopProbing n | .signalling n | .stopWaiting n => n < s.services.length
  | .unlinking (.pid n) => n < s.services.length ∧ ¬ s.Alive n
  | _ => True

/-- One service is alive at most, its pid is in the file or about to be written, and a start holds
the lock until the service that it waits for is live or gone. -/
structure Inv (s : State) : Prop where
  holder : ∀ c, (s.calls c).locked = true ↔ s.lock = some c
  single : ∀ p q, s.Alive p → s.Alive q → p = q
  known : ∀ p, s.Alive p → s.pidFile = .pid p ∨ ∃ c, s.calls c = .spawned p
  starting : ∀ p, s.services[p]? = some .starting → ∃ c, (s.calls c).waitsFor = some p
  fits : ∀ c, s.Fits (s.calls c)
  bound : ∀ n, s.pidFile = .pid n → n < s.services.length

theorem Initial.inv {s : State} (h : s.Initial) : s.Inv where
  holder c := by simp [h.calls c, h.lock, Place.locked]
  single p _ hp := absurd hp (h.services p)
  known p hp := absurd hp (h.services p)
  starting p hp := absurd (.inl hp) (h.services p)
  fits c := by rw [h.calls c]; trivial
  bound := h.pidFile

theorem locked_of_waitsFor {place : Place} {p : ℕ} (h : place.waitsFor = some p) :
    place.locked = true := by
  cases place <;> simp_all [Place.waitsFor, Place.locked]

section Steps

variable {s : State} {c : ℕ} {place : Place}

theorem alive_lt {p : ℕ} (h : s.Alive p) : p < s.services.length := by
  rcases h with h | h
  all_goals exact (List.getElem?_eq_some_iff.mp h).1

theorem isRuntimeLive_iff : s.isRuntimeLive = true ↔ ∃ p : ℕ, s.services[p]? = some .live := by
  rw [isRuntimeLive, List.contains_iff_mem, List.mem_iff_getElem?]

/-- The recorded service, for a start that has written its pid. -/
theorem Inv.recorded (h : s.Inv) (hlocked : (s.calls c).locked = true)
    (hwritten : ∀ p, s.calls c ≠ .spawned p) {p : ℕ} (hp : s.Alive p) : s.pidFile = .pid p := by
  rcases h.known p hp with hfile | ⟨c', hc'⟩
  · exact hfile
  · have hholder : s.lock = some c' := (h.holder c').mp (by rw [hc']; rfl)
    obtain rfl : c = c' := Option.some.inj (((h.holder c).mp hlocked).symm.trans hholder)
    exact absurd hc' (hwritten p)

/-- A service that is starting belongs to the holder of the lock. -/
theorem Inv.waits (h : s.Inv) (hlocked : (s.calls c).locked = true) {p : ℕ}
    (hp : s.services[p]? = some .starting) : (s.calls c).waitsFor = some p := by
  obtain ⟨c', hc'⟩ := h.starting p hp
  have hholder := (h.holder c').mp (locked_of_waitsFor hc')
  obtain rfl : c = c' := Option.some.inj (((h.holder c).mp hlocked).symm.trans hholder)
  exact hc'

/-- A call moves on; the services stay as they are. -/
theorem Inv.move (h : s.Inv) {lock : Option ℕ} {file : PidFile}
    (hholder : ∀ c', (Function.update s.calls c place c').locked = true ↔ lock = some c')
    (hknown : ∀ p, s.Alive p →
      file = .pid p ∨ ∃ c', Function.update s.calls c place c' = .spawned p)
    (hwaits : ∀ p, (s.calls c).waitsFor = some p → s.services[p]? = some .starting →
      place.waitsFor = some p)
    (hfits : s.Fits place) (hbound : ∀ n, file = .pid n → n < s.services.length) :
    Inv { s.goto c place with lock := lock, pidFile := file } where
  holder := hholder
  single := h.single
  known := hknown
  starting p hp := by
    obtain ⟨c', hc'⟩ := h.starting p hp
    -- The service waited for by the caller that moves, or by another one.
    by_cases hsame : c' = c
    · exact ⟨c, by simpa [goto] using hwaits p (hsame ▸ hc') hp⟩
    · exact ⟨c', by simpa [goto, hsame] using hc'⟩
  fits c' := by
    by_cases hsame : c' = c
    · have hplace : (s.goto c place).calls c' = place := by simp [goto, hsame]
      change s.Fits ((s.goto c place).calls c')
      rwa [hplace]
    · have hplace : (s.goto c place).calls c' = s.calls c' := by simp [goto, hsame]
      change s.Fits ((s.goto c place).calls c')
      rw [hplace]
      exact h.fits c'
  bound := hbound

theorem spawned_update (hold : ∀ p, s.calls c ≠ .spawned p) {p : ℕ}
    (h : ∃ c', s.calls c' = .spawned p) :
    ∃ c', Function.update s.calls c place c' = .spawned p := by
  obtain ⟨c', hc'⟩ := h
  have hne : c' ≠ c := fun hsame => hold p (hsame ▸ hc')
  exact ⟨c', by rw [Function.update_of_ne hne]; exact hc'⟩

theorem Inv.holder_update (h : s.Inv) (hlocked : place.locked = (s.calls c).locked) (c' : ℕ) :
    (Function.update s.calls c place c').locked = true ↔ s.lock = some c' := by
  by_cases hsame : c' = c
  · rw [hsame, Function.update_self, hlocked]
    exact h.holder c
  · rw [Function.update_of_ne hsame]
    exact h.holder c'

/-- A move that neither takes nor gives the lock. -/
theorem Inv.advance (h : s.Inv) (hlocked : place.locked = (s.calls c).locked)
    (hold : ∀ p, s.calls c ≠ .spawned p)
    (hwaits : ∀ p, (s.calls c).waitsFor = some p → s.services[p]? = some .starting →
      place.waitsFor = some p)
    (hfits : s.Fits place) : (s.goto c place).Inv := by
  refine h.move (h.holder_update hlocked) (fun p hp => ?_) hwaits hfits h.bound
  rcases h.known p hp with hfile | hspawned
  · exact .inl hfile
  · exact .inr (spawned_update hold hspawned)

/-- A start that has its result: nothing is starting any more. -/
theorem Inv.leave (h : s.Inv) (hlocked : (s.calls c).locked = true)
    (hold : ∀ p, s.calls c ≠ .spawned p)
    (hnone : ∀ p, (s.calls c).waitsFor = some p → s.services[p]? ≠ some .starting) :
    (s.goto c .leaving).Inv := by
  refine h.advance (by rw [hlocked]; rfl) hold (fun p hp hstarting => ?_) trivial
  exact absurd hstarting (hnone p hp)

/-- Services go on by themselves. -/
theorem Inv.environment (h : s.Inv) {services : List Status}
    (hlen : services.length = s.services.length)
    (halive : ∀ p, Alive { s with services := services } p → s.Alive p)
    (hstarting : ∀ p : ℕ, services[p]? = some .starting → s.services[p]? = some .starting) :
    Inv { s with services := services } where
  holder := h.holder
  single p q hp hq := h.single p q (halive p hp) (halive q hq)
  known p hp := h.known p (halive p hp)
  starting p hp := h.starting p (hstarting p hp)
  fits c := by
    have hfits := h.fits c
    change Fits { s with services := services } (s.calls c)
    generalize s.calls c = place at hfits
    -- Each place only asks that services are few enough or not alive.
    cases place with
    | preparing => exact fun p hp => hfits p (halive p hp)
    | spawned p => exact ⟨hfits.1.trans_eq hlen.symm, fun q hq => hfits.2 q (halive q hq)⟩
    | probing p n => exact fun hp => hfits (halive p hp)
    | stopProbing n => exact hfits.trans_eq hlen.symm
    | signalling n => exact hfits.trans_eq hlen.symm
    | stopWaiting n => exact hfits.trans_eq hlen.symm
    | unlinking seen =>
      cases seen with
      | pid n => exact ⟨hfits.1.trans_eq hlen.symm, fun hn => hfits.2 (halive n hn)⟩
      | _ => trivial
    | _ => trivial
  bound n hn := (h.bound n hn).trans_eq hlen.symm

/-- **The spawn.**  The holder of the lock has seen that no service is alive. -/
theorem Inv.popen (h : s.Inv) (hc : s.calls c = .preparing) :
    Inv { s.goto c (.spawned s.services.length) with
      services := s.services ++ [.starting] } := by
  -- The caller holds the lock and has seen that no service is alive.
  have hdead : ∀ p, ¬ s.Alive p := by
    have hfits := h.fits c
    rwa [hc] at hfits
  have hholder : s.lock = some c := (h.holder c).mp (by rw [hc]; rfl)
  have hget : ∀ p status, (s.services ++ [.starting])[p]? = some status →
      s.services[p]? = some status ∨ p = s.services.length := by
    intro p status hp
    by_cases hlt : p < s.services.length
    · rw [List.getElem?_append_left hlt] at hp
      exact .inl hp
    · have hle := (List.getElem?_eq_some_iff.mp hp).1
      simp only [List.length_append, List.length_singleton] at hle
      exact .inr (by omega)
  -- So the new service is the only one that is.
  have halive : ∀ p, Alive { s.goto c (.spawned s.services.length) with
      services := s.services ++ [.starting] } p → p = s.services.length := by
    intro p hp
    rcases hp with hp | hp
    · rcases hget p _ hp with hold | hnew
      · exact absurd (.inl hold) (hdead p)
      · exact hnew
    · rcases hget p _ hp with hold | hnew
      · exact absurd (.inr hold) (hdead p)
      · exact hnew
  refine ⟨fun c' => ?_, fun p q hp hq => (halive p hp).trans (halive q hq).symm, fun p hp => ?_,
    fun p hp => ⟨c, ?_⟩, fun c' => ?_, fun n hn => ?_⟩
  · by_cases hsame : c' = c
    · simp [goto, hsame, hholder, Place.locked]
    · simpa [goto, hsame] using h.holder c'
  · exact .inr ⟨c, by simp [goto, halive p hp]⟩
  · simp [goto, Place.waitsFor, halive p (.inl hp)]
  · by_cases hsame : c' = c
    · have hplace : (s.goto c (.spawned s.services.length)).calls c' =
          .spawned s.services.length := by simp [goto, hsame]
      change Fits _ ((s.goto c (.spawned s.services.length)).calls c')
      rw [hplace]
      exact ⟨by simp, halive⟩
    · have hplace : (s.goto c (.spawned s.services.length)).calls c' = s.calls c' := by
        simp [goto, hsame]
      have hfits := h.fits c'
      -- Another caller has no lock, so it is at none of the places before a spawn.
      have hunlocked : (s.calls c').locked = false := by
        by_contra hlocked
        have hother := (h.holder c').mp (by simpa using hlocked)
        exact hsame (Option.some.inj (hother.symm.trans hholder))
      change Fits _ ((s.goto c (.spawned s.services.length)).calls c')
      rw [hplace]
      generalize s.calls c' = place at hfits hunlocked
      cases place with
      | preparing => cases hunlocked
      | spawned p => cases hunlocked
      | probing p n => cases hunlocked
      | stopProbing n => exact hfits.trans (by simp)
      | signalling n => exact hfits.trans (by simp)
      | stopWaiting n => exact hfits.trans (by simp)
      | unlinking seen =>
        cases seen with
        | pid n =>
          refine ⟨hfits.1.trans (by simp), fun hn => ?_⟩
          exact absurd (halive n hn) hfits.1.ne
        | _ => trivial
      | _ => trivial
  · exact (h.bound n hn).trans (by simp)

variable {s' : State}

theorem Inv.acquire (h : s.Inv) (hc : s.calls c = .queued) (hfree : s.lock = none) :
    Inv { s.goto c .checking with lock := some c } := by
  refine h.move (fun c' => ?_) (fun p hp => ?_) (by simp [hc, Place.waitsFor]) trivial h.bound
  · by_cases hsame : c' = c
    · simp [hsame, Place.locked]
    · have hunlocked := h.holder c'
      simp only [hfree, reduceCtorEq, iff_false] at hunlocked
      simp [hsame, hunlocked, Ne.symm hsame]
  · exact (h.known p hp).imp_right (spawned_update (by simp [hc]))

theorem Inv.checkLive (h : s.Inv) (hc : s.calls c = .checking) :
    (s.goto c (if s.isRuntimeLive then .leaving else .preparing)).Inv := by
  have hlocked : (s.calls c).locked = true := by rw [hc]; rfl
  split
  · exact h.leave hlocked (by simp [hc]) (by simp [hc, Place.waitsFor])
  · rename_i hdown
    refine h.advance (by rw [hlocked]; rfl) (by simp [hc]) (by simp [hc, Place.waitsFor]) ?_
    rintro p (hp | hp)
    · have hwaits := h.waits hlocked hp
      rw [hc] at hwaits
      cases hwaits
    · exact hdown (isRuntimeLive_iff.mpr ⟨p, hp⟩)

theorem Inv.writePid (h : s.Inv) {p : ℕ} (hc : s.calls c = .spawned p) :
    Inv { s.goto c (.polling p) with pidFile := .pid p } := by
  have hfits := h.fits c
  rw [hc] at hfits
  refine h.move (h.holder_update (by rw [hc]; rfl)) (fun q hq => .inl ?_) ?_ trivial ?_
  · rw [hfits.2 q hq]
  · intro q hq _
    rw [hc] at hq
    exact hq
  · rintro n hn
    cases hn
    exact hfits.1

theorem Inv.pollLive (h : s.Inv) {p : ℕ} (hc : s.calls c = .polling p) :
    (s.goto c (if s.isRuntimeLive then .leaving else .reading p)).Inv := by
  have hlocked : (s.calls c).locked = true := by rw [hc]; rfl
  split
  · rename_i hup
    obtain ⟨q, hq⟩ := isRuntimeLive_iff.mp hup
    -- The live service is the only one, so that none is starting.
    refine h.leave hlocked (by simp [hc]) fun p' _ hstarting => ?_
    obtain rfl := h.single p' q (.inl hstarting) (.inr hq)
    rw [hq] at hstarting
    cases hstarting
  · refine h.advance (by rw [hlocked]; rfl) (by simp [hc]) (fun q hq _ => ?_) trivial
    rw [hc] at hq
    exact hq

theorem Inv.readPid (h : s.Inv) (hstep : s.step (.readPid c) = some s') : s'.Inv := by
  simp only [step] at hstep
  split at hstep
  · rename_i p n hc hfile
    obtain rfl := Option.some.inj hstep
    have hlocked : (s.calls c).locked = true := by rw [hc]; rfl
    refine h.advance (by rw [hlocked]; rfl) (by simp [hc]) (fun q hq _ => ?_) fun hp => ?_
    · rw [hc] at hq
      exact hq
    · have hrecorded := h.recorded hlocked (by simp [hc]) hp
      rw [hfile] at hrecorded
      exact PidFile.pid.inj hrecorded
  · rename_i p hc hfile
    obtain rfl := Option.some.inj hstep
    have hlocked : (s.calls c).locked = true := by rw [hc]; rfl
    refine h.leave hlocked (by simp [hc]) fun q _ hstarting => ?_
    exact hfile q (h.recorded hlocked (by simp [hc]) (.inl hstarting))
  · cases hstep

theorem Inv.probe (h : s.Inv) {p n : ℕ} (hc : s.calls c = .probing p n) :
    (s.goto c (if s.Alive n then .polling p else .leaving)).Inv := by
  have hlocked : (s.calls c).locked = true := by rw [hc]; rfl
  have hfits := h.fits c
  rw [hc] at hfits
  split
  · refine h.advance (by rw [hlocked]; rfl) (by simp [hc]) (fun q hq _ => ?_) trivial
    rw [hc] at hq
    exact hq
  · rename_i hdead
    refine h.leave hlocked (by simp [hc]) fun q hq hstarting => ?_
    rw [hc] at hq
    obtain rfl := Option.some.inj hq
    exact hdead (hfits (.inl hstarting) ▸ .inl hstarting)

theorem Inv.release (h : s.Inv) (hc : s.calls c = .leaving) :
    Inv { s.goto c .idle with lock := none } := by
  have hholder : s.lock = some c := (h.holder c).mp (by rw [hc]; rfl)
  refine h.move (fun c' => ?_) (fun p hp => ?_) (by simp [hc, Place.waitsFor]) trivial h.bound
  · by_cases hsame : c' = c
    · simp [hsame, Place.locked]
    · have hunlocked := h.holder c'
      simp only [hholder, Option.some.injEq, Ne.symm hsame, iff_false] at hunlocked
      simp [hsame, hunlocked]
  · exact (h.known p hp).imp_right (spawned_update (by simp [hc]))

/-- A move of a stop. -/
theorem Inv.stopTo (h : s.Inv) (hunlocked : (s.calls c).locked = false)
    (hplace : place.locked = false) (hfits : s.Fits place) : (s.goto c place).Inv := by
  refine h.advance (hplace.trans hunlocked.symm) (fun p hp => ?_) (fun p hp _ => ?_) hfits
  · rw [hp] at hunlocked
    cases hunlocked
  · rw [locked_of_waitsFor hp] at hunlocked
    cases hunlocked

/-- A stop goes on, or finds the service gone. -/
theorem Inv.stopOr (h : s.Inv) {n : ℕ} {P : Prop} [Decidable P]
    (hunlocked : (s.calls c).locked = false) (hplace : place.locked = false)
    (hn : n < s.services.length) (hfits : s.Fits place) (hdead : ¬ P → ¬ s.Alive n) :
    (s.goto c (if P then place else .unlinking (.pid n))).Inv := by
  split
  · exact h.stopTo hunlocked hplace hfits
  · rename_i hgone
    exact h.stopTo hunlocked rfl ⟨hn, hdead hgone⟩

theorem Inv.stopRead (h : s.Inv) (hstep : s.step (.stopRead c) = some s') : s'.Inv := by
  simp only [step] at hstep
  split at hstep
  · rename_i n hc hfile
    obtain rfl := Option.some.inj hstep
    exact h.stopTo (by rw [hc]; rfl) rfl (h.bound n hfile)
  · rename_i hc hfile
    obtain rfl := Option.some.inj hstep
    refine h.stopTo (by rw [hc]; rfl) rfl ?_
    cases hseen : s.pidFile with
    | pid n => exact absurd hseen (hfile n)
    | _ => trivial
  · cases hstep

/-- **The removal of the pid file.** -/
theorem Inv.unlink (h : s.Inv) (horderly : s.orderly (.unlink c) = true) {seen : PidFile}
    (hc : s.calls c = .unlinking seen) : Inv { s.goto c .idle with pidFile := .missing } := by
  have hfits := h.fits c
  rw [hc] at hfits
  refine h.move (h.holder_update (by rw [hc]; rfl)) (fun p hp => .inr ?_)
    (by simp [hc, Place.waitsFor]) trivial (by simp)
  rcases h.known p hp with hfile | hspawned
  · -- The file names a service that is alive: it was not there when the stop read the file.
    simp only [orderly, hc, hfile, Place.seen, PidFile.named, Option.all_some, Bool.or_eq_true,
      decide_eq_true_eq] at horderly
    rcases horderly with hsame | hdead
    · subst hsame
      exact absurd hp hfits.2
    · exact absurd hp hdead
  · exact spawned_update (by simp [hc]) hspawned

theorem Inv.becomeLive (h : s.Inv) {p : ℕ} (hp : s.services[p]? = some .starting) :
    Inv { s with services := s.services.set p .live } := by
  refine h.environment (by simp) (fun q hq => ?_) (fun q hq => ?_)
  · by_cases hsame : p = q
    · exact hsame ▸ .inl hp
    · simpa [Alive, List.getElem?_set_ne hsame] using hq
  · by_cases hsame : p = q
    · exact hsame ▸ hp
    · simpa [List.getElem?_set_ne hsame] using hq

theorem Inv.exit (h : s.Inv) {p : ℕ} (hp : s.Alive p) :
    Inv { s with services := s.services.set p .exited } := by
  have hset : (s.services.set p .exited)[p]? = some .exited := by
    rw [List.getElem?_set_self (alive_lt hp)]
  refine h.environment (by simp) (fun q hq => ?_) (fun q hq => ?_)
  · by_cases hsame : p = q
    · subst hsame
      rcases hq with hq | hq
      all_goals exact absurd (hset.symm.trans hq) (by simp)
    · simpa [Alive, List.getElem?_set_ne hsame] using hq
  · by_cases hsame : p = q
    · subst hsame
      exact absurd (hset.symm.trans hq) (by simp)
    · simpa [List.getElem?_set_ne hsame] using hq

/-- **One step.** -/
theorem Inv.step (h : s.Inv) {event : Event} (horderly : s.orderly event = true)
    (hstep : s.step event = some s') : s'.Inv := by
  cases event with
  | start c =>
    obtain ⟨hc, ⟨⟩⟩ := Option.ite_none_right_eq_some.mp hstep
    exact h.stopTo (by rw [hc]; rfl) rfl trivial
  | acquire c =>
    obtain ⟨⟨hc, hfree⟩, ⟨⟩⟩ := Option.ite_none_right_eq_some.mp hstep
    exact h.acquire hc hfree
  | checkLive c =>
    obtain ⟨hc, ⟨⟩⟩ := Option.ite_none_right_eq_some.mp hstep
    exact h.checkLive hc
  | fail c =>
    obtain ⟨hc, ⟨⟩⟩ := Option.ite_none_right_eq_some.mp hstep
    exact h.leave (by rw [hc]; rfl) (by simp [hc]) (by simp [hc, Place.waitsFor])
  | popen c =>
    obtain ⟨hc, ⟨⟩⟩ := Option.ite_none_right_eq_some.mp hstep
    exact h.popen hc
  | writePid c =>
    simp only [State.step] at hstep
    split at hstep
    · obtain rfl := Option.some.inj hstep
      exact h.writePid ‹_›
    · cases hstep
  | pollLive c =>
    simp only [State.step] at hstep
    split at hstep
    · obtain rfl := Option.some.inj hstep
      exact h.pollLive ‹_›
    · cases hstep
  | giveUp c =>
    simp only [State.step] at hstep
    split at hstep
    · rename_i p hc
      obtain rfl := Option.some.inj hstep
      -- Here the order of the events matters: the service given up on is not starting any more.
      refine h.leave (by rw [hc]; rfl) (by simp [hc]) fun q hq => ?_
      rw [hc] at hq
      obtain rfl := Option.some.inj hq
      simpa [orderly, hc, Place.polled] using horderly
    · cases hstep
  | readPid c => exact h.readPid hstep
  | probe c =>
    simp only [State.step] at hstep
    split at hstep
    · obtain rfl := Option.some.inj hstep
      exact h.probe ‹_›
    · cases hstep
  | release c =>
    obtain ⟨hc, ⟨⟩⟩ := Option.ite_none_right_eq_some.mp hstep
    exact h.release hc
  | stop c =>
    obtain ⟨hc, ⟨⟩⟩ := Option.ite_none_right_eq_some.mp hstep
    exact h.stopTo (by rw [hc]; rfl) rfl trivial
  | stopRead c => exact h.stopRead hstep
  | stopProbe c =>
    simp only [State.step] at hstep
    split at hstep
    · rename_i n hc
      obtain rfl := Option.some.inj hstep
      have hn := h.fits c
      rw [hc] at hn
      exact h.stopOr (by rw [hc]; rfl) rfl hn hn id
    · cases hstep
  | kill c zombie =>
    simp only [State.step] at hstep
    split at hstep
    · rename_i n hc
      obtain rfl := Option.some.inj hstep
      have hn := h.fits c
      rw [hc] at hn
      exact h.stopOr (by rw [hc]; rfl) rfl hn hn fun hgone halive => hgone (.inl halive)
    · cases hstep
  | stopPoll c =>
    simp only [State.step] at hstep
    split at hstep
    · rename_i n hc
      obtain rfl := Option.some.inj hstep
      have hn := h.fits c
      rw [hc] at hn
      exact h.stopOr (by rw [hc]; rfl) rfl hn hn id
    · cases hstep
  | stopGiveUp c =>
    simp only [State.step] at hstep
    split at hstep
    · rename_i n hc
      obtain rfl := Option.some.inj hstep
      exact h.stopTo (by rw [hc]; rfl) rfl trivial
    · cases hstep
  | unlink c =>
    simp only [State.step] at hstep
    split at hstep
    · obtain rfl := Option.some.inj hstep
      exact h.unlink horderly ‹_›
    · cases hstep
  | becomeLive p =>
    obtain ⟨hp, ⟨⟩⟩ := Option.ite_none_right_eq_some.mp hstep
    exact h.becomeLive hp
  | exit p =>
    obtain ⟨hp, ⟨⟩⟩ := Option.ite_none_right_eq_some.mp hstep
    exact h.exit hp

end Steps

theorem Inv.run {s s' : State} (h : s.Inv) {events : List Event}
    (horderly : s.orderlyRun events = true) (hrun : s.run events = some s') : s'.Inv := by
  induction events generalizing s with
  | nil => exact Option.some.inj hrun ▸ h
  | cons event events ih =>
    obtain ⟨t, hstep, hrest⟩ := Option.bind_eq_some_iff.mp hrun
    simp only [orderlyRun, hstep, Option.all_some, Bool.and_eq_true] at horderly
    exact ih (h.step horderly.1 hstep) horderly.2 hrest

end State

/-- **Detached services.**  As long as no start gives up on a service that is starting and no stop
removes the pid of a service that it has not seen, a service is spawned only when none is alive, and
between the calls a service that is alive is the one in the pid file. -/
theorem detached_service (s s' : State) (events : List Event) (hinitial : s.Initial)
    (hrun : s.run events = some s') (horderly : s.orderlyRun events = true) :
    (∀ c t, s'.step (.popen c) = some t → ∀ p, ¬ s'.Alive p) ∧
    ((∀ c, s'.calls c = .idle) → ∀ p, s'.Alive p → s'.pidFile = .pid p) := by
  have hinv := hinitial.inv.run horderly hrun
  refine ⟨fun c t hstep => ?_, fun hidle p hp => ?_⟩
  · obtain ⟨hc, _⟩ := Option.ite_none_right_eq_some.mp hstep
    have hfits := hinv.fits c
    rwa [hc] at hfits
  · rcases hinv.known p hp with hfile | ⟨c, hc⟩
    · exact hfile
    · rw [hidle c] at hc
      cases hc

/-- No service, and no pid file. -/
def fresh : State := ⟨[], .missing, none, fun _ => .idle⟩

theorem fresh_initial : fresh.Initial where
  services := by simp [fresh, State.Alive]
  pidFile := by simp [fresh]
  lock := rfl
  calls _ := rfl

/-- A start whose service comes up. -/
def startLive (c p : ℕ) : List Event :=
  [.start c, .acquire c, .checkLive c, .popen c, .writePid c, .pollLive c, .readPid c, .probe c,
    .becomeLive p, .pollLive c, .release c]

def stopEvents (c p : ℕ) : List Event :=
  [.stop c, .stopRead c, .stopProbe c, .kill c false, .exit p, .stopPoll c, .unlink c]

/-- A start, a stop and a start. -/
theorem started_again : ∃ s, fresh.run (startLive 0 0 ++ stopEvents 1 0 ++ startLive 2 1) = some s ∧
    s.Alive 1 ∧ ((∀ c, s.calls c = .idle) → ∀ p, s.Alive p → s.pidFile = .pid p) := by
  obtain ⟨s, hrun⟩ := Option.isSome_iff_exists.mp (show
    (fresh.run (startLive 0 0 ++ stopEvents 1 0 ++ startLive 2 1)).isSome = true from rfl)
  have halive : ((fresh.run (startLive 0 0 ++ stopEvents 1 0 ++ startLive 2 1)).map
      State.services) = some [.exited, .live] := rfl
  rw [hrun, Option.map_some, Option.some.injEq] at halive
  exact ⟨s, hrun, .inr (by rw [halive]; rfl),
    (detached_service fresh s _ fresh_initial hrun rfl).2⟩

/-- A start that gives up on a slow service lets the next one spawn another; a stop that comes late
removes the pid of the new service. -/
theorem slow_service_doubled :
    (∃ s t, fresh.run [.start 0, .acquire 0, .checkLive 0, .popen 0, .writePid 0, .giveUp 0,
        .release 0, .start 1, .acquire 1, .checkLive 1] = some s ∧
      s.step (.popen 1) = some t ∧ s.Alive 0) ∧
    (∃ s, fresh.run (startLive 0 0 ++ [.stop 1, .stopRead 1, .stopProbe 1, .kill 1 false, .exit 0,
        .stopPoll 1] ++ startLive 2 1 ++ [.unlink 1]) = some s ∧
      (∀ c, s.calls c = .idle) ∧ s.Alive 1 ∧ s.pidFile = .missing) := by
  refine ⟨⟨_, _, rfl, rfl, .inl rfl⟩, ⟨_, rfl, fun c => ?_, .inr rfl, rfl⟩⟩
  match c with
  | 0 => rfl
  | 1 => rfl
  | 2 => rfl
  | c + 3 => rfl

end DetachedService
