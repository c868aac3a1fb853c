/-
The merged keyboard.

A `KeyboardInputState` keeps the held keys of every open provider and a log of the
transitions of the merged keyboard since the previous drain.  The log is bounded: past the
bound it is dropped, and the next drain reports the minimal change instead.

A log is read by a monitor over sets of keys (`KeyEvent.apply`) that refuses the press of a
key that is down and the release of a key that is up.

* `KeyboardInputState.step_logged` — every call keeps the log in step with the held keys;
* `KeyboardInputState.run_invariant` — so does every sequence of calls;
* `KeyboardInputState.keyboard_exact` — what every drain reports, and how long the log gets.
-/
import IsaacTeleop.TraceMonitor

/-! ### Keys, events and calls -/

/-- A `uint16_t` key code. -/
abbrev KeyCode := Fin (2 ^ 16)

/-- The number of evdev key codes; providers reject codes at or above it. -/
def kKeyboardKeyCodeCount : ℕ := 0x300

structure KeyEvent where
  timestampNs : Int64
  code : KeyCode
  pressed : Bool
  deriving DecidableEq

structure KeyboardSnapshot where
  heldKeys : List KeyCode
  events : List KeyEvent
  providerCount : ℕ
  deriving DecidableEq

/-- `KeyboardInputState`, without its mutex: every call holds it from start to end. -/
structure KeyboardInputState where
  heldByProvider : Finmap fun _ : UInt64 => Finset KeyCode := ∅
  pending : List KeyEvent := []
  drainedHeld : Finset KeyCode := ∅
  resync : Bool := false
  resyncTimestampNs : Int64 := 0
  nextProviderId : UInt64 := 1

/-- The calls on the shared state; a session start carries the clock it reads. -/
inductive KeyboardCall where
  | addProvider
  | removeProvider (providerId : UInt64) (timestampNs : Int64)
  | keyDown (providerId : UInt64) (code : KeyCode) (timestampNs : Int64)
  | keyUp (providerId : UInt64) (code : KeyCode) (timestampNs : Int64)
  | tap (providerId : UInt64) (code : KeyCode) (timestampNs : Int64)
  | releaseAll (providerId : UInt64) (timestampNs : Int64)
  | startSession (nowNs : Int64)
  | drain
  deriving DecidableEq

/-- What the tracker impls see of a run. -/
inductive KeyboardObservation where
  | sessionStarted
  | drained (snapshot : KeyboardSnapshot)

namespace KeyboardInputState

def maxPendingEvents : ℕ := 4096

variable (state : KeyboardInputState)

/-! ### The locked helpers -/

/-- `held_locked`: some provider holds the key. -/
def heldLocked (code : KeyCode) : Bool :=
  decide (∃ id ∈ state.heldByProvider.keys, code ∈ (state.heldByProvider.lookup id).getD ∅)

/-- `held_keys_locked`: the union of the providers' held keys. -/
def heldKeysLocked : Finset KeyCode :=
  state.heldByProvider.keys.biUnion fun id => (state.heldByProvider.lookup id).getD ∅

def resyncLocked (timestampNs : Int64) : KeyboardInputState :=
  { state with pending := [], resync := true, resyncTimestampNs := timestampNs }

def pushEventLocked (event : KeyEvent) : KeyboardInputState :=
  if state.resync then { state with resyncTimestampNs := event.timestampNs }
  else if state.pending.length ≥ maxPendingEvents then state.resyncLocked event.timestampNs
  else { state with pending := state.pending ++ [event] }

/-- `release_keys_locked`, over the keys in ascending order. -/
def releaseKeysLocked (timestampNs : Int64) (state : KeyboardInputState) :
    List KeyCode → KeyboardInputState
  | [] => state
  | code :: keys =>
    let state := if state.heldLocked code then state
      else state.pushEventLocked ⟨timestampNs, code, false⟩
    releaseKeysLocked timestampNs state keys

/-! ### The calls -/

def addProvider : UInt64 × KeyboardInputState :=
  let id := state.nextProviderId
  -- `emplace` does nothing for an id that is there already
  let held := if id ∈ state.heldByProvider then state.heldByProvider
    else state.heldByProvider.insert id ∅
  (id, { state with nextProviderId := id + 1, heldByProvider := held })

def removeProvider (providerId : UInt64) (timestampNs : Int64) : KeyboardInputState :=
  match state.heldByProvider.lookup providerId with
  | none => state
  | some keys =>
    releaseKeysLocked timestampNs
      { state with heldByProvider := state.heldByProvider.erase providerId } keys.sort

def keyDown (providerId : UInt64) (code : KeyCode) (timestampNs : Int64) :
    KeyboardInputState :=
  match state.heldByProvider.lookup providerId with
  | none => state
  | some keys =>
    if code ∈ keys then state
    else
      let newlyHeld := !state.heldLocked code
      let state := { state with
        heldByProvider := state.heldByProvider.insert providerId (insert code keys) }
      if newlyHeld then state.pushEventLocked ⟨timestampNs, code, true⟩ else state

def keyUp (providerId : UInt64) (code : KeyCode) (timestampNs : Int64) : KeyboardInputState :=
  match state.heldByProvider.lookup providerId with
  | none => state
  | some keys =>
    if code ∈ keys then
      let state := { state with
        heldByProvider := state.heldByProvider.insert providerId (keys.erase code) }
      if state.heldLocked code then state
      else state.pushEventLocked ⟨timestampNs, code, false⟩
    else state

def tap (providerId : UInt64) (code : KeyCode) (timestampNs : Int64) : KeyboardInputState :=
  if providerId ∉ state.heldByProvider ∨ state.heldLocked code then state
  else
    (state.pushEventLocked ⟨timestampNs, code, true⟩).pushEventLocked ⟨timestampNs, code, false⟩

def releaseAll (providerId : UInt64) (timestampNs : Int64) : KeyboardInputState :=
  match state.heldByProvider.lookup providerId with
  | none => state
  | some keys =>
    releaseKeysLocked timestampNs
      { state with heldByProvider := state.heldByProvider.insert providerId ∅ } keys.sort

def drain : KeyboardSnapshot × KeyboardInputState :=
  let held := state.heldKeysLocked
  -- after an overflow: the minimal change since the previous drain
  let delta :=
    ((state.drainedHeld.sort.filter fun code => code ∉ held).map fun code =>
      ⟨state.resyncTimestampNs, code, false⟩) ++
    ((held.sort.filter fun code => code ∉ state.drainedHeld).map fun code =>
      ⟨state.resyncTimestampNs, code, true⟩)
  let events := if state.resync then delta else state.pending
  let pending := if state.resync then state.pending else []
  (⟨held.sort, events, state.heldByProvider.keys.card⟩,
    { state with pending := pending, resync := false, drainedHeld := held })

def startSession (nowNs : Int64) : KeyboardInputState :=
  { state with
    drainedHeld := ∅
    pending := state.heldKeysLocked.sort.map fun code => ⟨nowNs, code, true⟩
    resync := false }

/-- One call, and what the tracker impls see of it. -/
def step : KeyboardCall → KeyboardInputState × List KeyboardObservation
  | .addProvider => (state.addProvider.2, [])
  | .removeProvider id t => (state.removeProvider id t, [])
  | .keyDown id code t => (state.keyDown id code t, [])
  | .keyUp id code t => (state.keyUp id code t, [])
  | .tap id code t => (state.tap id code t, [])
  | .releaseAll id t => (state.releaseAll id t, [])
  | .startSession nowNs => (state.startSession nowNs, [.sessionStarted])
  | .drain => (state.drain.2, [.drained state.drain.1])

end KeyboardInputState

/-- The calls in the order in which they take the mutex, from a fresh state. -/
def KeyboardInputState.run (calls : List KeyboardCall) :
    KeyboardInputState × List KeyboardObservation :=
  calls.foldl (fun reached call =>
    let (state, seen) := reached.1.step call
    (state, reached.2 ++ seen)) ({}, [])

/-! ### What a log means -/

/-- A transition of the merged keyboard: only a key that is up is pressed, only one that is
down is released. -/
def KeyEvent.apply (held : Finset KeyCode) (event : KeyEvent) : Option (Finset KeyCode) :=
  if event.pressed then
    if event.code ∈ held then none else some (insert event.code held)
  else
    if event.code ∈ held then some (held.erase event.code) else none

/-- Replaying the events over the keys `held` meets no bad transition and ends in `held'`. -/
abbrev Replays (held : Finset KeyCode) (events : List KeyEvent) (held' : Finset KeyCode) :
    Prop :=
  Monitor.Accepts KeyEvent.apply held events held'

/-- The held keys that the next drain's events start from: those of the previous drain, and
none right after a session start or when there was no drain. -/
def previousHeld (history : List KeyboardObservation) : Finset KeyCode :=
  match history.getLast? with
  | some (.drained snapshot) => snapshot.heldKeys.toFinset
  | some .sessionStarted => ∅
  | none => ∅

/-- The call is one that `KeyboardProvider` makes: it passes on codes below
`kKeyboardKeyCodeCount` only. -/
def KeyboardCall.Accepted : KeyboardCall → Prop
  | .keyDown _ code _ => code.val < kKeyboardKeyCodeCount
  | .keyUp _ code _ => code.val < kKeyboardKeyCodeCount
  | .tap _ code _ => code.val < kKeyboardKeyCodeCount
  | _ => True

namespace KeyboardInputState

/-! ### The held keys -/

variable {state : KeyboardInputState}

/-- The provider is open and holds the key. -/
def Holds (state : KeyboardInputState) (id : UInt64) (code : KeyCode) : Prop :=
  ∃ keys, state.heldByProvider.lookup id = some keys ∧ code ∈ keys

theorem mem_heldKeysLocked {code : KeyCode} :
    code ∈ state.heldKeysLocked ↔ ∃ id, state.Holds id code := by
  simp only [heldKeysLocked, Finset.mem_biUnion]
  constructor
  · rintro ⟨id, hid, hcode⟩
    obtain ⟨keys, hkeys⟩ := Finmap.mem_iff.mp (Finmap.mem_keys.mp hid)
    exact ⟨id, keys, hkeys, by simpa [hkeys] using hcode⟩
  · rintro ⟨id, keys, hkeys, hcode⟩
    refine ⟨id, Finmap.mem_keys.mpr (Finmap.mem_of_lookup_eq_some hkeys), ?_⟩
    simpa [hkeys] using hcode

theorem heldLocked_iff {code : KeyCode} :
    state.heldLocked code = true ↔ code ∈ state.heldKeysLocked := by
  simp [heldLocked, heldKeysLocked]

/-- The keys that providers other than `id` hold. -/
def heldByOthers (state : KeyboardInputState) (id : UInt64) : Finset KeyCode :=
  (state.heldByProvider.keys.erase id).biUnion fun other =>
    (state.heldByProvider.lookup other).getD ∅

theorem mem_heldByOthers {id : UInt64} {code : KeyCode} :
    code ∈ state.heldByOthers id ↔ ∃ other, other ≠ id ∧ state.Holds other code := by
  simp only [heldByOthers, Finset.mem_biUnion, Finset.mem_erase]
  constructor
  · rintro ⟨other, ⟨hne, hmem⟩, hcode⟩
    obtain ⟨keys, hkeys⟩ := Finmap.mem_iff.mp (Finmap.mem_keys.mp hmem)
    exact ⟨other, hne, keys, hkeys, by simpa [hkeys] using hcode⟩
  · rintro ⟨other, hne, keys, hkeys, hcode⟩
    refine ⟨other, ⟨hne, Finmap.mem_keys.mpr (Finmap.mem_of_lookup_eq_some hkeys)⟩, ?_⟩
    simpa [hkeys] using hcode

theorem heldKeysLocked_eq {id : UInt64} {keys : Finset KeyCode}
    (h : state.heldByProvider.lookup id = some keys) :
    state.heldKeysLocked = keys ∪ state.heldByOthers id := by
  ext code
  rw [mem_heldKeysLocked, Finset.mem_union, mem_heldByOthers]
  constructor
  · rintro ⟨other, hholds⟩
    by_cases hother : other = id
    · obtain ⟨keys', hkeys', hcode⟩ := hholds
      rw [hother, h] at hkeys'
      obtain rfl := Option.some.inj hkeys'
      exact .inl hcode
    · exact .inr ⟨other, hother, hholds⟩
  · rintro (hcode | ⟨other, -, hholds⟩)
    · exact ⟨id, keys, h, hcode⟩
    · exact ⟨other, hholds⟩

/-- Another state whose providers other than `id` hold the same keys. -/
theorem heldByOthers_congr {state' : KeyboardInputState} {id : UInt64}
    (h : ∀ other, other ≠ id →
      state'.heldByProvider.lookup other = state.heldByProvider.lookup other) :
    state'.heldByOthers id = state.heldByOthers id := by
  ext code
  simp only [mem_heldByOthers, Holds]
  constructor
  · rintro ⟨other, hne, hholds⟩
    exact ⟨other, hne, by simpa [h other hne] using hholds⟩
  · rintro ⟨other, hne, hholds⟩
    exact ⟨other, hne, by simpa [h other hne] using hholds⟩

/-- The held keys after one provider's keys were replaced. -/
theorem heldKeysLocked_insert (state : KeyboardInputState) (id : UInt64)
    (keys : Finset KeyCode) :
    { state with heldByProvider := state.heldByProvider.insert id keys }.heldKeysLocked =
      keys ∪ state.heldByOthers id := by
  rw [heldKeysLocked_eq (Finmap.lookup_insert _)]
  congr 1
  exact heldByOthers_congr fun other hne => Finmap.lookup_insert_of_ne _ hne

/-- The held keys after one provider was forgotten. -/
theorem heldKeysLocked_erase (id : UInt64) :
    { state with heldByProvider := state.heldByProvider.erase id }.heldKeysLocked =
      state.heldByOthers id := by
  ext code
  rw [mem_heldKeysLocked, mem_heldByOthers]
  constructor
  · rintro ⟨other, keys, hkeys, hcode⟩
    have hne : other ≠ id := by
      rintro rfl
      simp at hkeys
    exact ⟨other, hne, keys, by simpa [Finmap.lookup_erase_ne hne] using hkeys, hcode⟩
  · rintro ⟨other, hne, keys, hkeys, hcode⟩
    exact ⟨other, keys, by simpa [Finmap.lookup_erase_ne hne] using hkeys, hcode⟩

/-! ### Events of the merged keyboard -/

theorem apply_press {held : Finset KeyCode} {code : KeyCode} (t : Int64) (h : code ∉ held) :
    KeyEvent.apply held ⟨t, code, true⟩ = some (insert code held) := by
  simp [KeyEvent.apply, h]

theorem apply_release {held : Finset KeyCode} {code : KeyCode} (t : Int64) (h : code ∈ held) :
    KeyEvent.apply held ⟨t, code, false⟩ = some (held.erase code) := by
  simp [KeyEvent.apply, h]

/-- Pressing keys that are up, one after the other. -/
theorem replays_presses (t : Int64) {codes : List KeyCode} (hnodup : codes.Nodup)
    {held : Finset KeyCode} (hup : ∀ code ∈ codes, code ∉ held) :
    Replays held (codes.map fun code => ⟨t, code, true⟩) (held ∪ codes.toFinset) := by
  induction codes generalizing held with
  | nil => simp [Replays, Monitor.Accepts]
  | cons code codes ih =>
    rw [List.nodup_cons] at hnodup
    have hrest : ∀ c ∈ codes, c ∉ insert code held := by
      intro c hc
      have hne : c ≠ code := fun heq => hnodup.1 (heq ▸ hc)
      simp [hne, hup c (List.mem_cons_of_mem _ hc)]
    refine Monitor.accepts_cons.mpr ⟨_, apply_press t (hup code (List.mem_cons_self ..)), ?_⟩
    have hunion : held ∪ (code :: codes).toFinset = insert code held ∪ codes.toFinset := by
      ext c
      simp only [Finset.mem_union, List.mem_toFinset, List.mem_cons, Finset.mem_insert]
      tauto
    rw [hunion]
    exact ih hnodup.2 hrest

/-- Releasing keys that are down, one after the other. -/
theorem replays_releases (t : Int64) {codes : List KeyCode} (hnodup : codes.Nodup)
    {held : Finset KeyCode} (hdown : ∀ code ∈ codes, code ∈ held) :
    Replays held (codes.map fun code => ⟨t, code, false⟩) (held \ codes.toFinset) := by
  induction codes generalizing held with
  | nil => simp [Replays, Monitor.Accepts]
  | cons code codes ih =>
    rw [List.nodup_cons] at hnodup
    have hrest : ∀ c ∈ codes, c ∈ held.erase code := by
      intro c hc
      have hne : c ≠ code := fun heq => hnodup.1 (heq ▸ hc)
      simp [hne, hdown c (List.mem_cons_of_mem _ hc)]
    refine Monitor.accepts_cons.mpr ⟨_, apply_release t (hdown code (List.mem_cons_self ..)), ?_⟩
    have hdiff : held \ (code :: codes).toFinset = held.erase code \ codes.toFinset := by
      ext c
      simp only [Finset.mem_sdiff, List.mem_toFinset, List.mem_cons, Finset.mem_erase]
      tauto
    rw [hdiff]
    exact ih hnodup.2 hrest

/-! ### The log is in step with the held keys -/

/-- The log leads from the keys of the previous drain to `held`; after an overflow it is
empty. -/
def Logged (state : KeyboardInputState) (held : Finset KeyCode) : Prop :=
  if state.resync then state.pending = [] else Replays state.drainedHeld state.pending held

@[simp] theorem pushEventLocked_heldByProvider (event : KeyEvent) :
    (state.pushEventLocked event).heldByProvider = state.heldByProvider := by
  simp only [pushEventLocked, resyncLocked]
  split
  · rfl
  · split <;> rfl

@[simp] theorem pushEventLocked_drainedHeld (event : KeyEvent) :
    (state.pushEventLocked event).drainedHeld = state.drainedHeld := by
  simp only [pushEventLocked, resyncLocked]
  split
  · rfl
  · split <;> rfl

@[simp] theorem pushEventLocked_heldKeysLocked (event : KeyEvent) :
    (state.pushEventLocked event).heldKeysLocked = state.heldKeysLocked := by
  simp [heldKeysLocked]

@[simp] theorem pushEventLocked_heldLocked (event : KeyEvent) (code : KeyCode) :
    (state.pushEventLocked event).heldLocked code = state.heldLocked code := by
  simp [heldLocked]

/-- One transition is logged, or the log is dropped. -/
theorem Logged.push {held held' : Finset KeyCode} {event : KeyEvent}
    (h : state.Logged held) (happly : KeyEvent.apply held event = some held') :
    (state.pushEventLocked event).Logged held' := by
  simp only [Logged] at h
  simp only [pushEventLocked]
  by_cases hresync : state.resync = true
  · simpa [Logged, hresync] using h
  · rw [if_neg hresync] at h
    rw [if_neg hresync]
    split
    · simp [Logged, resyncLocked]
    · simpa [Logged, hresync] using Monitor.accepts_snoc.mpr ⟨held, h, happly⟩

section ReleaseKeys

variable (timestampNs : Int64)

@[simp] theorem releaseKeysLocked_heldByProvider (keys : List KeyCode) :
    (releaseKeysLocked timestampNs state keys).heldByProvider = state.heldByProvider := by
  induction keys generalizing state with
  | nil => rfl
  | cons code keys ih =>
    rw [releaseKeysLocked, ih]
    split <;> simp

@[simp] theorem releaseKeysLocked_drainedHeld (keys : List KeyCode) :
    (releaseKeysLocked timestampNs state keys).drainedHeld = state.drainedHeld := by
  induction keys generalizing state with
  | nil => rfl
  | cons code keys ih =>
    rw [releaseKeysLocked, ih]
    split <;> simp

@[simp] theorem releaseKeysLocked_heldKeysLocked (keys : List KeyCode) :
    (releaseKeysLocked timestampNs state keys).heldKeysLocked = state.heldKeysLocked := by
  simp [heldKeysLocked]

/-- The keys just taken from a provider are released one by one, except those that another
provider holds. -/
theorem Logged.releaseKeys {keys : List KeyCode} (hnodup : keys.Nodup)
    (h : state.Logged (state.heldKeysLocked ∪ keys.toFinset)) :
    (releaseKeysLocked timestampNs state keys).Logged state.heldKeysLocked := by
  induction keys generalizing state with
  | nil => simpa [releaseKeysLocked] using h
  | cons code keys ih =>
    rw [List.nodup_cons] at hnodup
    rw [releaseKeysLocked]
    by_cases hheld : code ∈ state.heldKeysLocked
    · rw [if_pos (heldLocked_iff.mpr hheld)]
      refine ih hnodup.2 ?_
      have hsame : state.heldKeysLocked ∪ (code :: keys).toFinset =
          state.heldKeysLocked ∪ keys.toFinset := by
        ext c
        simp only [Finset.mem_union, List.mem_toFinset, List.mem_cons]
        constructor
        · rintro (hc | rfl | hc)
          exacts [.inl hc, .inl hheld, .inr hc]
        · rintro (hc | hc)
          exacts [.inl hc, .inr (.inr hc)]
      rwa [hsame] at h
    · rw [if_neg (fun hlocked => hheld (heldLocked_iff.mp hlocked))]
      have hdown : code ∈ state.heldKeysLocked ∪ (code :: keys).toFinset := by simp
      have hpush := h.push (apply_release timestampNs hdown)
      -- the released key is not among the remaining ones
      have herase : (state.heldKeysLocked ∪ (code :: keys).toFinset).erase code =
          state.heldKeysLocked ∪ keys.toFinset := by
        ext c
        simp only [Finset.mem_erase, Finset.mem_union, List.mem_toFinset, List.mem_cons]
        constructor
        · rintro ⟨hne, hc | rfl | hc⟩
          exacts [.inl hc, absurd rfl hne, .inr hc]
        · rintro (hc | hc)
          · exact ⟨fun heq => hheld (heq ▸ hc), .inl hc⟩
          · exact ⟨fun heq => hnodup.1 (heq ▸ hc), .inr (.inr hc)⟩
      rw [herase] at hpush
      simpa using @ih (state.pushEventLocked ⟨timestampNs, code, false⟩) hnodup.2
        (by simpa using hpush)

end ReleaseKeys

/-- The log does not depend on who holds the keys. -/
theorem Logged.withProviders {held : Finset KeyCode} (h : state.Logged held)
    (providers : Finmap fun _ : UInt64 => Finset KeyCode) :
    { state with heldByProvider := providers }.Logged held := h

theorem addProvider_heldKeysLocked :
    state.addProvider.2.heldKeysLocked = state.heldKeysLocked := by
  simp only [addProvider]
  by_cases h : state.nextProviderId ∈ state.heldByProvider
  · simp [h, heldKeysLocked]
  · simp only [if_neg h]
    have hnone : state.heldByProvider.lookup state.nextProviderId = none :=
      Finmap.lookup_eq_none.mpr h
    have hothers : state.heldKeysLocked = ∅ ∪ state.heldByOthers state.nextProviderId := by
      ext code
      rw [mem_heldKeysLocked, Finset.empty_union, mem_heldByOthers]
      constructor
      · rintro ⟨id, keys, hkeys, hcode⟩
        refine ⟨id, ?_, keys, hkeys, hcode⟩
        rintro rfl
        rw [hnone] at hkeys
        cases hkeys
      · rintro ⟨id, -, hholds⟩
        exact ⟨id, hholds⟩
    rw [hothers]
    exact heldKeysLocked_insert state state.nextProviderId ∅

theorem removeProvider_logged (id : UInt64) (t : Int64) (h : state.Logged state.heldKeysLocked) :
    (state.removeProvider id t).Logged (state.removeProvider id t).heldKeysLocked := by
  rw [removeProvider]
  split
  · exact h
  · rename_i keys hkeys
    rw [releaseKeysLocked_heldKeysLocked]
    refine Logged.releaseKeys t (Finset.sort_nodup ..) ?_
    rw [heldKeysLocked_erase, Finset.sort_toFinset, Finset.union_comm, ← heldKeysLocked_eq hkeys]
    exact h.withProviders _

theorem releaseAll_logged (id : UInt64) (t : Int64) (h : state.Logged state.heldKeysLocked) :
    (state.releaseAll id t).Logged (state.releaseAll id t).heldKeysLocked := by
  rw [releaseAll]
  split
  · exact h
  · rename_i keys hkeys
    rw [releaseKeysLocked_heldKeysLocked]
    refine Logged.releaseKeys t (Finset.sort_nodup ..) ?_
    rw [heldKeysLocked_insert, Finset.sort_toFinset, Finset.empty_union, Finset.union_comm,
      ← heldKeysLocked_eq hkeys]
    exact h.withProviders _

theorem keyDown_logged (id : UInt64) (code : KeyCode) (t : Int64)
    (h : state.Logged state.heldKeysLocked) :
    (state.keyDown id code t).Logged (state.keyDown id code t).heldKeysLocked := by
  rw [keyDown]
  split
  · exact h
  · rename_i keys hkeys
    split
    · exact h
    · have hheld := heldKeysLocked_insert state id (insert code keys)
      rw [Finset.insert_union, ← heldKeysLocked_eq hkeys] at hheld
      by_cases hlocked : code ∈ state.heldKeysLocked
      · -- another provider holds it: no event
        simp only [heldLocked_iff.mpr hlocked, Bool.not_true, Bool.false_eq_true, if_false]
        rw [hheld, Finset.insert_eq_of_mem hlocked]
        exact h.withProviders _
      · have hnot : state.heldLocked code = false := by
          simpa using fun hl => hlocked (heldLocked_iff.mp hl)
        simp only [hnot, Bool.not_false, if_true, pushEventLocked_heldKeysLocked]
        rw [hheld]
        exact (h.withProviders _).push (apply_press t hlocked)

theorem keyUp_logged (id : UInt64) (code : KeyCode) (t : Int64)
    (h : state.Logged state.heldKeysLocked) :
    (state.keyUp id code t).Logged (state.keyUp id code t).heldKeysLocked := by
  rw [keyUp]
  split
  · exact h
  · rename_i keys hkeys
    split
    · rename_i hcode
      have hold := heldKeysLocked_eq hkeys
      have hnew := heldKeysLocked_insert state id (keys.erase code)
      have hlogged := h.withProviders (state.heldByProvider.insert id (keys.erase code))
      dsimp only
      generalize KeyboardInputState.mk (state.heldByProvider.insert id (keys.erase code)) _ _ _ _ _
        = released at hnew hlogged ⊢
      by_cases hothers : code ∈ state.heldByOthers id
      · -- another provider still holds it: no event
        have hlocked : code ∈ released.heldKeysLocked := by
          rw [hnew]
          exact Finset.mem_union_right _ hothers
        have hsame : keys.erase code ∪ state.heldByOthers id = state.heldKeysLocked := by
          ext c
          rw [hold, Finset.mem_union, Finset.mem_union, Finset.mem_erase]
          by_cases hc : c = code
          · simp [hc, hothers]
          · simp [hc]
        rw [if_pos (heldLocked_iff.mpr hlocked), hnew, hsame]
        exact hlogged
      · have hnot : code ∉ released.heldKeysLocked := by
          rw [hnew]
          simp [hothers]
        have herase : state.heldKeysLocked.erase code =
            keys.erase code ∪ state.heldByOthers id := by
          rw [hold, Finset.erase_union_distrib, Finset.erase_eq_of_notMem hothers]
        rw [if_neg (fun hl => hnot (heldLocked_iff.mp hl)), pushEventLocked_heldKeysLocked, hnew,
          ← herase]
        refine hlogged.push (apply_release t ?_)
        rw [hold]
        exact Finset.mem_union_left _ hcode
    · exact h

theorem tap_logged (id : UInt64) (code : KeyCode) (t : Int64)
    (h : state.Logged state.heldKeysLocked) :
    (state.tap id code t).Logged (state.tap id code t).heldKeysLocked := by
  rw [tap]
  split
  · exact h
  · rename_i hguard
    have hup : code ∉ state.heldKeysLocked := by
      intro hmem
      exact hguard (.inr (heldLocked_iff.mpr hmem))
    have hpress := h.push (apply_press t hup)
    have hrelease := hpress.push (apply_release t (Finset.mem_insert_self ..))
    rw [Finset.erase_insert hup] at hrelease
    simpa using hrelease

/-- **What a drain reports:** its events lead from the keys of the previous drain to the keys
held now, whether the log was kept or dropped. -/
theorem drain_replays (h : state.Logged state.heldKeysLocked) :
    Replays state.drainedHeld state.drain.1.events state.heldKeysLocked := by
  simp only [Logged] at h
  simp only [drain]
  -- After an overflow the difference is replayed: first the releases, then the presses.
  by_cases hresync : state.resync = true
  · rw [if_pos hresync]
    refine Monitor.accepts_append.mpr ⟨_, replays_releases _ ?_ ?_, ?_⟩
    · exact (Finset.sort_nodup ..).filter _
    · intro code hcode
      simpa using (List.mem_filter.mp hcode).1
    · have hend : state.heldKeysLocked =
          (state.drainedHeld \
            (state.drainedHeld.sort.filter fun c => c ∉ state.heldKeysLocked).toFinset) ∪
          (state.heldKeysLocked.sort.filter fun c => c ∉ state.drainedHeld).toFinset := by
        ext c
        simp
        tauto
      conv_rhs => rw [hend]
      refine replays_presses _ ((Finset.sort_nodup ..).filter _) ?_
      intro code hcode
      have hup := (List.mem_filter.mp hcode).2
      simp only [decide_not, Bool.not_eq_true', decide_eq_false_iff_not] at hup
      simp [hup]
  · rw [if_neg hresync] at h
    rw [if_neg hresync]
    exact h

theorem drain_logged (h : state.Logged state.heldKeysLocked) :
    state.drain.2.Logged state.drain.2.heldKeysLocked := by
  simp only [Logged] at h
  have hpending : (if state.resync = true then state.pending else []) = [] := by
    split
    · rename_i hresync
      simpa [hresync] using h
    · rfl
  simp only [Logged, drain, hpending]
  rfl

theorem startSession_logged (nowNs : Int64) :
    (state.startSession nowNs).Logged (state.startSession nowNs).heldKeysLocked := by
  have hup : ∀ code ∈ state.heldKeysLocked.sort (· ≤ ·), code ∉ (∅ : Finset KeyCode) := by simp
  have hpress := replays_presses nowNs (Finset.sort_nodup state.heldKeysLocked (· ≤ ·)) hup
  rw [Finset.empty_union, Finset.sort_toFinset] at hpress
  exact hpress

/-- **Every call keeps the log in step with the held keys.** -/
theorem step_logged (call : KeyboardCall) (h : state.Logged state.heldKeysLocked) :
    (state.step call).1.Logged (state.step call).1.heldKeysLocked := by
  cases call with
  | addProvider =>
    rw [step, addProvider_heldKeysLocked]
    exact h
  | removeProvider id t => exact removeProvider_logged id t h
  | keyDown id code t => exact keyDown_logged id code t h
  | keyUp id code t => exact keyUp_logged id code t h
  | tap id code t => exact tap_logged id code t h
  | releaseAll id t => exact releaseAll_logged id t h
  | startSession nowNs => exact startSession_logged nowNs
  | drain => exact drain_logged h

/-! ### No provider lets go of another one's keys -/

/-- The logged releases of a key. -/
def releasesOf (code : KeyCode) (log : List KeyEvent) : List KeyEvent :=
  log.filter fun event => event.code = code && !event.pressed

/-- An event that is no release of the key logs none. -/
theorem pushEventLocked_releasesOf {code : KeyCode} {event : KeyEvent}
    (h : event.code ≠ code ∨ event.pressed = true) :
    (releasesOf code (state.pushEventLocked event).pending).Sublist
      (releasesOf code state.pending) := by
  simp only [pushEventLocked, resyncLocked]
  split
  · exact List.Sublist.refl _
  · split
    · simp [releasesOf]
    · have hnone : releasesOf code [event] = [] := by
        rcases h with h | h
        · simp [releasesOf, h]
        · simp [releasesOf, h]
      simp only [releasesOf, List.filter_append] at hnone ⊢
      rw [hnone, List.append_nil]

theorem releaseKeysLocked_releasesOf {code : KeyCode} (t : Int64) (keys : List KeyCode)
    (hheld : code ∈ state.heldKeysLocked) :
    (releasesOf code (releaseKeysLocked t state keys).pending).Sublist
      (releasesOf code state.pending) := by
  induction keys generalizing state with
  | nil => exact List.Sublist.refl _
  | cons key keys ih =>
    rw [releaseKeysLocked]
    split
    · exact ih hheld
    · rename_i hkey
      have hne : key ≠ code := by
        rintro rfl
        exact hkey (heldLocked_iff.mpr hheld)
      exact (ih (by simpa using hheld)).trans (pushEventLocked_releasesOf (.inl hne))

/-- The calls by which a provider lets go of keys: a release, a tap, a focus loss and closing. -/
def LetsGo (id : UInt64) (call : KeyboardCall) : Prop :=
  (∃ code t, call = .keyUp id code t) ∨ (∃ code t, call = .tap id code t) ∨
    (∃ t, call = .releaseAll id t) ∨ (∃ t, call = .removeProvider id t)

/-- Such a call does not touch what another provider holds. -/
theorem letsGo_lookup {id other : UInt64} {call : KeyboardCall} (hcall : LetsGo id call)
    (hne : other ≠ id) :
    (state.step call).1.heldByProvider.lookup other = state.heldByProvider.lookup other := by
  rcases hcall with ⟨code, t, rfl⟩ | ⟨code, t, rfl⟩ | ⟨t, rfl⟩ | ⟨t, rfl⟩
  · simp only [step, keyUp]
    split
    · rfl
    · split
      · split <;> simp [Finmap.lookup_insert_of_ne _ hne]
      · rfl
  · simp only [step, tap]
    split <;> simp
  · simp only [step, releaseAll]
    split
    · rfl
    · simp [Finmap.lookup_insert_of_ne _ hne]
  · simp only [step, removeProvider]
    split
    · rfl
    · simp [Finmap.lookup_erase_ne hne]

theorem letsGo_holds {id other : UInt64} {code : KeyCode} {call : KeyboardCall}
    (hcall : LetsGo id call) (hne : other ≠ id) (hholds : state.Holds other code) :
    (state.step call).1.Holds other code := by
  obtain ⟨keys, hkeys, hcode⟩ := hholds
  exact ⟨keys, (letsGo_lookup hcall hne).trans hkeys, hcode⟩

/-- Such a call logs no release of a key that another provider holds. -/
theorem letsGo_releasesOf {id other : UInt64} {code : KeyCode} {call : KeyboardCall}
    (hcall : LetsGo id call) (hne : other ≠ id) (hholds : state.Holds other code) :
    (releasesOf code (state.step call).1.pending).Sublist (releasesOf code state.pending) := by
  -- The key is held by another provider, so each call finds it held and does not release it.
  have hothers : code ∈ state.heldByOthers id := mem_heldByOthers.mpr ⟨other, hne, hholds⟩
  rcases hcall with ⟨key, t, rfl⟩ | ⟨key, t, rfl⟩ | ⟨t, rfl⟩ | ⟨t, rfl⟩
  · simp only [step, keyUp]
    split
    · exact List.Sublist.refl _
    · rename_i keys hkeys
      split
      · split
        · exact List.Sublist.refl _
        · rename_i hkey
          refine pushEventLocked_releasesOf (.inl ?_)
          rintro rfl
          rw [heldLocked_iff, heldKeysLocked_insert] at hkey
          exact hkey (Finset.mem_union_right _ hothers)
      · exact List.Sublist.refl _
  · simp only [step, tap]
    split
    · exact List.Sublist.refl _
    · rename_i hguard
      have hkey : key ≠ code := by
        rintro rfl
        exact hguard (.inr (heldLocked_iff.mpr (mem_heldKeysLocked.mpr ⟨other, hholds⟩)))
      exact (pushEventLocked_releasesOf (.inl hkey)).trans (pushEventLocked_releasesOf (.inl hkey))
  · simp only [step, releaseAll]
    split
    · exact List.Sublist.refl _
    · refine releaseKeysLocked_releasesOf t _ ?_
      rw [heldKeysLocked_insert]
      exact Finset.mem_union_right _ hothers
  · simp only [step, removeProvider]
    split
    · exact List.Sublist.refl _
    · refine releaseKeysLocked_releasesOf t _ ?_
      rw [heldKeysLocked_erase]
      exact hothers

/-! ### The length of the log -/

theorem pushEventLocked_length (event : KeyEvent)
    (h : state.pending.length ≤ maxPendingEvents) :
    (state.pushEventLocked event).pending.length ≤ maxPendingEvents := by
  simp only [pushEventLocked, resyncLocked]
  split
  · exact h
  · split
    · simp
    · rename_i hroom
      simp only [List.length_append, List.length_singleton]
      omega

theorem releaseKeysLocked_length (t : Int64) (keys : List KeyCode)
    (h : state.pending.length ≤ maxPendingEvents) :
    (releaseKeysLocked t state keys).pending.length ≤ maxPendingEvents := by
  induction keys generalizing state with
  | nil => exact h
  | cons key keys ih =>
    rw [releaseKeysLocked]
    refine ih ?_
    split
    · exact h
    · exact pushEventLocked_length _ h

/-- A session start logs one press per held key, past the bound if there are that many; no
other call takes the log past it. -/
theorem step_length (call : KeyboardCall)
    (hstart : ∀ nowNs, call = .startSession nowNs → state.heldKeysLocked.card ≤ maxPendingEvents)
    (h : state.pending.length ≤ maxPendingEvents) :
    (state.step call).1.pending.length ≤ maxPendingEvents := by
  cases call with
  | addProvider => exact h
  | removeProvider id t =>
    simp only [step, removeProvider]
    split
    · exact h
    · exact releaseKeysLocked_length t _ h
  | keyDown id code t =>
    simp only [step, keyDown]
    split
    · exact h
    · split
      · exact h
      · split
        · exact pushEventLocked_length _ h
        · exact h
  | keyUp id code t =>
    simp only [step, keyUp]
    split
    · exact h
    · split
      · split
        · exact h
        · exact pushEventLocked_length _ h
      · exact h
  | tap id code t =>
    -- A tap is a press and a release.
    simp only [step, tap]
    split
    · exact h
    · exact pushEventLocked_length _ (pushEventLocked_length _ h)
  | releaseAll id t =>
    simp only [step, releaseAll]
    split
    · exact h
    · exact releaseKeysLocked_length t _ h
  | startSession nowNs => simpa [step, startSession] using hstart nowNs rfl
  | drain =>
    simp only [step, drain]
    split
    · exact h
    · simp

/-! ### The codes a provider passes on -/

theorem heldByOthers_subset (id : UInt64) : state.heldByOthers id ⊆ state.heldKeysLocked := by
  intro code hcode
  obtain ⟨other, -, hholds⟩ := mem_heldByOthers.mp hcode
  exact mem_heldKeysLocked.mpr ⟨other, hholds⟩

/-- A key that a call makes held is one it presses. -/
theorem mem_of_step_held {call : KeyboardCall} {code : KeyCode}
    (h : code ∈ (state.step call).1.heldKeysLocked) :
    code ∈ state.heldKeysLocked ∨ ∃ id t, call = .keyDown id code t := by
  cases call with
  | addProvider =>
    rw [step, addProvider_heldKeysLocked] at h
    exact .inl h
  | removeProvider id t =>
    simp only [step, removeProvider] at h
    split at h
    · exact .inl h
    · rw [releaseKeysLocked_heldKeysLocked, heldKeysLocked_erase] at h
      exact .inl (heldByOthers_subset id h)
  | keyDown id key t =>
    simp only [step, keyDown] at h
    split at h
    · exact .inl h
    · rename_i keys hkeys
      split at h
      · exact .inl h
      · have hmem : code ∈ insert key keys ∪ state.heldByOthers id := by
          rw [← heldKeysLocked_insert]
          split at h
          · simpa using h
          · exact h
        rw [Finset.insert_union, ← heldKeysLocked_eq hkeys, Finset.mem_insert] at hmem
        -- The key that went down, or one that was held before.
        rcases hmem with rfl | hmem
        · exact .inr ⟨id, t, rfl⟩
        · exact .inl hmem
  | keyUp id key t =>
    simp only [step, keyUp] at h
    split at h
    · exact .inl h
    · rename_i keys hkeys
      split at h
      · have hmem : code ∈ keys.erase key ∪ state.heldByOthers id := by
          rw [← heldKeysLocked_insert]
          split at h
          · exact h
          · simpa using h
        rw [heldKeysLocked_eq hkeys]
        exact .inl (Finset.union_subset_union_left (Finset.erase_subset ..) hmem)
      · exact .inl h
  | tap id key t =>
    simp only [step, tap] at h
    split at h
    · exact .inl h
    · exact .inl (by simpa using h)
  | releaseAll id t =>
    simp only [step, releaseAll] at h
    split at h
    · exact .inl h
    · rw [releaseKeysLocked_heldKeysLocked, heldKeysLocked_insert, Finset.empty_union] at h
      exact .inl (heldByOthers_subset id h)
  | startSession nowNs => exact .inl h
  | drain => exact .inl h

/-- Keys below the number of codes are fewer than the bound on the log. -/
theorem card_le_of_codes {held : Finset KeyCode}
    (h : ∀ code ∈ held, code.val < kKeyboardKeyCodeCount) : held.card ≤ maxPendingEvents := by
  have hsub : held.image Fin.val ⊆ Finset.range kKeyboardKeyCodeCount := by
    intro n hn
    obtain ⟨code, hcode, rfl⟩ := Finset.mem_image.mp hn
    exact Finset.mem_range.mpr (h code hcode)
  have hcard : (held.image Fin.val).card ≤ kKeyboardKeyCodeCount := by
    simpa using Finset.card_le_card hsub
  rw [Finset.card_image_of_injective _ Fin.val_injective] at hcard
  exact hcard.trans (by decide)

/-! ### Every run -/

theorem run_snoc (calls : List KeyboardCall) (call : KeyboardCall) :
    run (calls ++ [call]) =
      (((run calls).1.step call).1, (run calls).2 ++ ((run calls).1.step call).2) := by
  simp [run, List.foldl_append]

/-- What a call does to the keys the next drain starts from. -/
theorem step_drainedHeld {call : KeyboardCall} {history : List KeyboardObservation}
    (h : state.drainedHeld = previousHeld history) :
    (state.step call).1.drainedHeld = previousHeld (history ++ (state.step call).2) := by
  cases call with
  | addProvider => simpa [step, addProvider] using h
  | removeProvider id t =>
    simp only [step, removeProvider, List.append_nil]
    split <;> simpa using h
  | keyDown id code t =>
    simp only [step, keyDown, List.append_nil]
    split
    · exact h
    · split
      · exact h
      · split <;> simpa using h
  | keyUp id code t =>
    simp only [step, keyUp, List.append_nil]
    split
    · exact h
    · split
      · split <;> simpa using h
      · exact h
  | tap id code t =>
    simp only [step, tap, List.append_nil]
    split <;> simpa using h
  | releaseAll id t =>
    simp only [step, releaseAll, List.append_nil]
    split <;> simpa using h
  | startSession nowNs => simp [step, startSession, previousHeld]
  | drain => simp [step, drain, previousHeld]

/-- **Every sequence of calls** keeps the log in step with the held keys, from the keys that
the previous drain reported. -/
theorem run_invariant (calls : List KeyboardCall) :
    (run calls).1.Logged (run calls).1.heldKeysLocked ∧
      (run calls).1.drainedHeld = previousHeld (run calls).2 := by
  induction calls using List.reverseRecOn with
  | nil => exact ⟨rfl, rfl⟩
  | append_singleton calls call ih =>
    rw [run_snoc]
    exact ⟨step_logged call ih.1, step_drainedHeld ih.2⟩

theorem run_length (calls : List KeyboardCall)
    (hstart : ∀ before nowNs after, calls = before ++ .startSession nowNs :: after →
      (run before).1.heldKeysLocked.card ≤ maxPendingEvents) :
    (run calls).1.pending.length ≤ maxPendingEvents := by
  induction calls using List.reverseRecOn with
  | nil => simp [run]
  | append_singleton calls call ih =>
    rw [run_snoc]
    refine step_length call ?_ (ih ?_)
    · rintro nowNs rfl
      exact hstart calls nowNs [] rfl
    · rintro before nowNs after rfl
      exact hstart before nowNs (after ++ [call]) (by simp)

theorem run_codes {calls : List KeyboardCall} (haccepted : ∀ call ∈ calls, call.Accepted) :
    ∀ code ∈ (run calls).1.heldKeysLocked, code.val < kKeyboardKeyCodeCount := by
  induction calls using List.reverseRecOn with
  | nil => simp [run, heldKeysLocked]
  | append_singleton calls call ih =>
    intro code hcode
    rw [run_snoc] at hcode
    rcases mem_of_step_held hcode with hheld | ⟨id, t, rfl⟩
    · exact ih (fun c hc => haccepted c (List.mem_append_left _ hc)) code hheld
    · exact haccepted _ (List.mem_append_right _ (List.mem_singleton_self _))

theorem run_length_of_accepted {calls : List KeyboardCall}
    (haccepted : ∀ call ∈ calls, call.Accepted) :
    (run calls).1.pending.length ≤ maxPendingEvents := by
  refine run_length calls ?_
  rintro before nowNs after rfl
  exact card_le_of_codes (run_codes fun c hc => haccepted c (List.mem_append_left _ hc))

/-- **The merged keyboard is exact.**  After any sequence of calls, a drain reports the
ordered union of the open providers' held keys; its events, replayed over the keys of the
previous drain (over none right after a session start), meet no press of a key that is down
and no release of one that is up, and end in exactly those keys; a provider that lets go of
keys never releases one that another provider holds; and the log stays within its bound as
long as no session starts with more keys held than that, which no provider can bring about. -/
theorem keyboard_exact (calls : List KeyboardCall) :
    let state := (run calls).1
    let history := (run calls).2
    let snapshot := state.drain.1
    (snapshot.heldKeys.Pairwise (· < ·) ∧
        ∀ code, code ∈ snapshot.heldKeys ↔ ∃ id, state.Holds id code) ∧
      Replays (previousHeld history) snapshot.events snapshot.heldKeys.toFinset ∧
      (∀ id other code call, LetsGo id call → other ≠ id → state.Holds other code →
        (state.step call).1.Holds other code ∧
          (releasesOf code (state.step call).1.pending).Sublist
            (releasesOf code state.pending)) ∧
      ((∀ before nowNs after, calls = before ++ .startSession nowNs :: after →
          (run before).1.heldKeysLocked.card ≤ maxPendingEvents) →
        state.pending.length ≤ maxPendingEvents) ∧
      ((∀ call ∈ calls, call.Accepted) → state.pending.length ≤ maxPendingEvents) := by
  intro state history snapshot
  obtain ⟨hlogged, hprevious⟩ := run_invariant calls
  refine ⟨⟨?_, ?_⟩, ?_, ?_, run_length calls, run_length_of_accepted⟩
  · exact (Finset.sortedLT_sort state.heldKeysLocked).pairwise
  · intro code
    rw [← mem_heldKeysLocked]
    exact Finset.mem_sort (· ≤ ·)
  · -- The drained events lead from what the last drain showed to what is held now.
    have hreplays := drain_replays hlogged
    rw [hprevious] at hreplays
    have hheld : snapshot.heldKeys.toFinset = state.heldKeysLocked :=
      Finset.sort_toFinset _ (· ≤ ·)
    rw [hheld]
    exact hreplays
  · intro id other code call hcall hne hholds
    exact ⟨letsGo_holds hcall hne hholds, letsGo_releasesOf hcall hne hholds⟩

/-! ### Starting a session with more keys held than the log may have events -/

/-- One provider opens and presses the keys `0`, …, `n - 1`. -/
def holdKeys (n : ℕ) : List KeyboardCall :=
  .addProvider :: (List.range n).map fun code => .keyDown 1 (Fin.ofNat (2 ^ 16) code) 0

theorem keyDown_lookup {id : UInt64} {keys : Finset KeyCode} (code : KeyCode) (t : Int64)
    (h : state.heldByProvider.lookup id = some keys) :
    (state.keyDown id code t).heldByProvider.lookup id = some (insert code keys) := by
  simp only [keyDown, h]
  by_cases hcode : code ∈ keys
  · simp [hcode, h]
  · simp only [if_neg hcode]
    split <;> simp

theorem holdKeys_lookup (n : ℕ) :
    (run (holdKeys n)).1.heldByProvider.lookup 1 =
      some ((Finset.range n).image (Fin.ofNat (2 ^ 16))) := by
  induction n with
  | zero => rfl
  | succ n ih =>
    have hsnoc : holdKeys (n + 1) = holdKeys n ++ [.keyDown 1 (Fin.ofNat (2 ^ 16) n) 0] := by
      simp [holdKeys, List.range_succ]
    rw [hsnoc, run_snoc, Finset.range_add_one, Finset.image_insert]
    exact keyDown_lookup _ 0 ih

theorem holdKeys_card {n : ℕ} (hn : n ≤ 2 ^ 16) :
    n ≤ (run (holdKeys n)).1.heldKeysLocked.card := by
  have hinjective : Set.InjOn (Fin.ofNat (2 ^ 16)) (Finset.range n : Set ℕ) := by
    intro a ha b hb hab
    have hlt : ∀ c, c ∈ (Finset.range n : Set ℕ) → c % 2 ^ 16 = c := by
      intro c hc
      exact Nat.mod_eq_of_lt (lt_of_lt_of_le (by simpa using hc) hn)
    have hmod : a % 2 ^ 16 = b % 2 ^ 16 := congrArg Fin.val hab
    rwa [hlt a ha, hlt b hb] at hmod
  have hcard : ((Finset.range n).image (Fin.ofNat (2 ^ 16))).card = n := by
    rw [Finset.card_image_of_injOn hinjective, Finset.card_range]
  conv_lhs => rw [← hcard]
  rw [heldKeysLocked_eq (holdKeys_lookup n)]
  exact Finset.card_le_card Finset.subset_union_left

/-- With codes that no provider passes on: 4097 keys are held and a session starts. -/
theorem start_session_exceeds_bound :
    maxPendingEvents <
      (run (holdKeys (maxPendingEvents + 1) ++ [.startSession 0])).1.pending.length := by
  have hcard := holdKeys_card (n := maxPendingEvents + 1) (by decide)
  rw [run_snoc]
  simp only [step, startSession, List.length_map, Finset.length_sort]
  omega

end KeyboardInputState
