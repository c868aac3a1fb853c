/-
The gloves of the Manus tracker.

Landscapes say which glove is on which side; skeletons and sensor packs of known gloves are kept per
side, and an update injects and pushes what is kept.  The caches are cleared when a side has no
glove any more, but not when another glove takes its place.

* `SideCache`, `Tracker.step` — the callbacks, one at a time, and the copies of an update between
  and within them;
* `Tracker.orderly` — the landscapes that do not replace a glove whose data are kept;
* `Tracker.Inv` — what is kept is that of the glove in the most recent landscape;
* `glove_data` — all runs; `replaced_glove` — one with a replacement.
-/
import Mathlib

namespace ManusGloves

/-! ### The tracker -/

inductive Side
  | left
  | right
  deriving DecidableEq

/-- A glove of a landscape; it may be on no side. -/
structure Glove where
  side : Option Side
  id : ℕ
  deriving DecidableEq

/-- What is kept for a side.  The sources, and the time at which the nodes were received, are not in
the code. -/
structure SideCache where
  gloveId : Option ℕ := none
  nodeCount : ℕ := 0
  nodeSource : Option ℕ := none
  received : ℤ := 0
  /-- the time of the nodes, or zero for none -/
  stamp : ℤ := 0
  sensorCount : ℕ := 0
  sensorSource : ℕ → Option ℕ := fun _ => none

/-- A skeleton that was injected, with the glove of its side when it was copied. -/
structure Injection where
  side : Side
  source : Option ℕ
  glove : Option ℕ
  received : ℤ
  now : ℤ
  deriving DecidableEq

/-- A sensor pack that was pushed, sensor by sensor. -/
structure Pack where
  side : Side
  sources : List (Option ℕ)
  glove : Option ℕ
  deriving DecidableEq

structure Tracker where
  sides : Side → SideCache
  /-- the landscape whose callback is running -/
  pending : Option (List Glove)
  /-- the most recent landscape -/
  landscape : List Glove
  clock : ℤ
  injections : List Injection
  packs : List Pack

inductive Event
  /-- `OnLandscapeStream` up to the glove ids -/
  | landscape (now : ℤ) (gloves : List Glove)
  /-- the rest of it -/
  | clear
  /-- a skeleton of `OnSkeletonStream` -/
  | skeleton (now : ℤ) (gloveId nodesCount : ℕ) (readOk : Bool)
  /-- a device of `OnRawDeviceDataStream` -/
  | rawDevice (gloveId sensorCount : ℕ)
  /-- `inject_hand_data`, which reads the clock after the copy -/
  | inject (copied now : ℤ)
  | pushSensorSide (side : Side)

def skeletonStaleThreshold : ℤ := 200000000

def minimumUsableSkeletonNodes : ℕ := 25

def manusSensorCount : ℕ := 5

/-- The glove of a side in a landscape. -/
def gloveOf (gloves : List Glove) (side : Side) : Option ℕ :=
  (gloves.find? fun glove => glove.side = some side).map Glove.id

namespace SideCache

/-- `has_current_usable_skeleton` -/
def usable (cache : SideCache) (now : ℤ) : Bool :=
  minimumUsableSkeletonNodes ≤ cache.nodeCount && now - cache.stamp ≤ skeletonStaleThreshold

/-- The glove that a landscape has for the side. -/
def connect (cache : SideCache) : Option ℕ → SideCache
  | some id => { cache with gloveId := some id }
  | none => cache

/-- A disconnected glove. -/
def reset (cache : SideCache) : SideCache :=
  { cache with
    gloveId := none
    nodeCount := 0
    stamp := 0
    sensorCount := 0 }

/-- Neither a skeleton nor a sensor pack would be taken from the cache. -/
def quiet (cache : SideCache) (now : ℤ) : Bool :=
  !cache.usable now && cache.sensorCount < manusSensorCount

end SideCache

namespace Tracker

/-- The side of a glove that sends data; the left one is asked first. -/
def sideOf (s : Tracker) (id : ℕ) : Option Side :=
  if (s.sides .left).gloveId = some id then some .left
  else if (s.sides .right).gloveId = some id then some .right
  else none

def setSide (s : Tracker) (side : Side) (cache : SideCache) : Tracker :=
  { s with sides := Function.update s.sides side cache }

def injection (s : Tracker) (now : ℤ) (side : Side) : List Injection :=
  let cache := s.sides side
  if cache.usable now then
    [⟨side, cache.nodeSource, gloveOf s.landscape side, cache.received, now⟩]
  else []

/-- The callbacks exclude each other; the copies of an update do not wait for them. -/
def step (s : Tracker) : Event → Option Tracker
  | .landscape now gloves =>
    if (s.pending = none ∧ s.clock ≤ now) ∧ (gloves.filterMap Glove.side).Nodup then
      -- Only one left and one right glove are supported.
      if 2 < gloves.length then some { s with landscape := gloves, clock := now }
      else some { s with
        sides := fun side => (s.sides side).connect (gloveOf gloves side)
        pending := some gloves
        clock := now }
    else none
  | .clear =>
    match s.pending with
    | some gloves => some { s with
        sides := fun side =>
          if gloveOf gloves side = none ∧ (s.sides side).gloveId.isSome then (s.sides side).reset
          else s.sides side
        pending := none
        landscape := gloves }
    | none => none
  | .skeleton now gloveId nodesCount readOk =>
    if s.pending = none ∧ s.clock ≤ now then
      match s.sideOf gloveId with
      | none => some { s with clock := now }
      | some side =>
        if readOk then
          some { s.setSide side { s.sides side with
              nodeCount := nodesCount
              nodeSource := some gloveId
              received := now
              stamp := now } with clock := now }
        else some { s.setSide side { s.sides side with stamp := 0 } with clock := now }
    else none
  | .rawDevice gloveId sensorCount =>
    if s.pending = none then
      match s.sideOf gloveId with
      | none => some s
      | some side =>
        let count := min sensorCount manusSensorCount
        some (s.setSide side { s.sides side with
          sensorCount := count
          sensorSource := fun j =>
            if j < count then some gloveId else (s.sides side).sensorSource j })
    else none
  | .inject copied now =>
    if s.clock ≤ copied ∧ copied ≤ now then
      some { s with
        clock := copied
        injections := s.injections ++ (s.injection now .left ++ s.injection now .right) }
    else none
  | .pushSensorSide side =>
    if (s.sides side).sensorCount < manusSensorCount then some s
    else some { s with
      packs := s.packs ++ [⟨side, (List.range manusSensorCount).map (s.sides side).sensorSource,
        gloveOf s.landscape side⟩] }

def run (s : Tracker) : List Event → Option Tracker
  | [] => some s
  | event :: events => (s.step event).bind fun s' => s'.run events

/-- A landscape with two gloves at most, which puts no other glove in the place of one whose data
are kept. -/
def orderly (s : Tracker) : Event → Bool
  | .landscape now gloves => gloves.length ≤ 2 && [Side.left, .right].all fun side =>
      (gloveOf gloves side).all fun id =>
        (s.sides side).gloveId.all (· = id) || (s.sides side).quiet now
  | _ => true

def orderlyRun (s : Tracker) : List Event → Bool
  | [] => true
  | event :: events => s.orderly event && (s.step event).all fun s' => s'.orderlyRun events

/-- A tracker without gloves; the steady clock is not negative. -/
def initial (clock : ℤ) : Tracker := ⟨fun _ => {}, none, [], clock, [], []⟩

end Tracker

/-! ### What is kept for a side -/

namespace SideCache

variable {cache : SideCache} {glove : Option ℕ} {now later : ℤ}

theorem usable_iff : cache.usable now = true ↔
    minimumUsableSkeletonNodes ≤ cache.nodeCount ∧ now - cache.stamp ≤ skeletonStaleThreshold := by
  simp [usable]

theorem usable_mono (h : cache.usable later = true) (hle : now ≤ later) :
    cache.usable now = true := by
  rw [usable_iff] at h ⊢
  exact ⟨h.1, by omega⟩

theorem quiet_iff : cache.quiet now = true ↔
    cache.usable now = false ∧ cache.sensorCount < manusSensorCount := by
  simp [quiet]

theorem quiet_mono (h : cache.quiet now = true) (hle : now ≤ later) :
    cache.quiet later = true := by
  rw [quiet_iff, ← Bool.not_eq_true] at h ⊢
  exact ⟨fun husable => h.1 (usable_mono husable hle), h.2⟩

/-- What could be taken from the cache comes from this glove. -/
structure Kept (cache : SideCache) (glove : Option ℕ) (now : ℤ) : Prop where
  nodes : cache.usable now = true → cache.nodeSource = glove ∧ glove.isSome
  sensors : manusSensorCount ≤ cache.sensorCount →
    ∀ j < manusSensorCount, cache.sensorSource j = glove ∧ glove.isSome

theorem Kept.mono (h : cache.Kept glove now) (hle : now ≤ later) : cache.Kept glove later :=
  ⟨fun husable => h.nodes (usable_mono husable hle), h.sensors⟩

theorem kept_of_quiet (h : cache.quiet now = true) : cache.Kept glove now := by
  rw [quiet_iff] at h
  refine ⟨fun husable => ?_, fun hcount => ?_⟩
  · rw [h.1] at husable
    cases husable
  · omega

theorem Kept.quiet (h : cache.Kept none now) : cache.quiet now = true := by
  rw [quiet_iff, ← Bool.not_eq_true, ← not_le]
  refine ⟨fun husable => ?_, fun hcount => ?_⟩
  · cases (h.nodes husable).2
  · cases (h.sensors hcount 0 (by decide)).2

theorem gloveId_connect (id : Option ℕ) :
    (cache.connect id).gloveId = id.or cache.gloveId := by
  cases id <;> rfl

theorem quiet_connect (id : Option ℕ) : (cache.connect id).quiet now = cache.quiet now := by
  cases id <;> rfl

theorem Kept.connect (h : cache.Kept glove now) (id : Option ℕ) :
    (cache.connect id).Kept glove now := by
  cases id with
  | none => exact h
  | some id => exact ⟨h.nodes, h.sensors⟩

theorem kept_reset : cache.reset.Kept glove now := by
  refine kept_of_quiet (quiet_iff.mpr ⟨?_, ?_⟩)
  · simp [usable, reset, minimumUsableSkeletonNodes]
  · simp [reset, manusSensorCount]

end SideCache

namespace Tracker

/-- The times of the caches, and the age of what was injected. -/
structure Timely (s : Tracker) : Prop where
  clock : 0 ≤ s.clock
  sides : ∀ side, 0 ≤ (s.sides side).stamp ∧ (s.sides side).stamp ≤ (s.sides side).received
  injections : ∀ i ∈ s.injections, i.now - i.received ≤ skeletonStaleThreshold

/-- What is kept is that of the glove in the most recent landscape. -/
structure Inv (s : Tracker) : Prop where
  idle : s.pending = none → ∀ side, (s.sides side).gloveId = gloveOf s.landscape side
  busy : ∀ gloves, s.pending = some gloves → ∀ side,
    (s.sides side).gloveId = (gloveOf gloves side).or (gloveOf s.landscape side) ∧
    ∀ id, gloveOf gloves side = some id →
      gloveOf s.landscape side = some id ∨ (s.sides side).quiet s.clock = true
  kept : ∀ side, (s.sides side).Kept (gloveOf s.landscape side) s.clock
  injections : ∀ i ∈ s.injections, i.source = i.glove ∧ i.glove.isSome
  packs : ∀ pack ∈ s.packs, pack.glove.isSome ∧ ∀ source ∈ pack.sources, source = pack.glove

theorem timely_initial {clock : ℤ} (h : 0 ≤ clock) : (initial clock).Timely :=
  ⟨h, fun _ => ⟨le_rfl, le_rfl⟩, by simp [initial]⟩

theorem inv_initial (clock : ℤ) : (initial clock).Inv where
  idle _ _ := rfl
  busy _ h := by cases h
  kept _ := SideCache.kept_of_quiet rfl
  injections := by simp [initial]
  packs := by simp [initial]

section Steps

variable {s s' : Tracker} {side : Side}

/-- The glove that sends is the one of its side. -/
theorem gloveId_of_sideOf {id : ℕ} (h : s.sideOf id = some side) :
    (s.sides side).gloveId = some id := by
  unfold sideOf at h
  split at h
  · cases h
    assumption
  split at h
  · cases h
    assumption
  · cases h

theorem mem_injection {now : ℤ} {i : Injection} (h : i ∈ s.injection now side) :
    (s.sides side).usable now = true ∧ i = ⟨side, (s.sides side).nodeSource,
      gloveOf s.landscape side, (s.sides side).received, now⟩ := by
  unfold injection at h
  simp only at h
  split at h
  · exact ⟨‹_›, List.mem_singleton.mp h⟩
  · cases h

theorem mem_injections {now : ℤ} {i : Injection}
    (h : i ∈ s.injection now .left ++ s.injection now .right) :
    ∃ side, (s.sides side).usable now = true ∧ i = ⟨side, (s.sides side).nodeSource,
      gloveOf s.landscape side, (s.sides side).received, now⟩ := by
  rcases List.mem_append.mp h with h | h
  · exact ⟨.left, mem_injection h⟩
  · exact ⟨.right, mem_injection h⟩

/-- A side that is written, and the others. -/
theorem forall_setSide {P : Side → SideCache → Prop} {cache : SideCache}
    (hother : ∀ d, P d (s.sides d)) (hside : P side cache) :
    ∀ d, P d ((s.setSide side cache).sides d) := by
  intro d
  by_cases hd : d = side
  · subst hd
    simpa [setSide] using hside
  · simpa [setSide, hd] using hother d

/-- **The age of a skeleton**, whatever the landscapes say. -/
theorem Timely.step (h : s.Timely) {event : Event} (hstep : s.step event = some s') :
    s'.Timely := by
  cases event with
  | landscape now gloves =>
    simp only [Tracker.step] at hstep
    split_ifs at hstep with hguard
    · cases hstep
      exact ⟨h.clock.trans hguard.1.2, h.sides, h.injections⟩
    · cases hstep
      refine ⟨h.clock.trans hguard.1.2, fun side => ?_, h.injections⟩
      have hside := h.sides side
      cases hglove : gloveOf gloves side with
      | none => simpa [hglove, SideCache.connect] using hside
      | some id => simpa [hglove, SideCache.connect] using hside
  | clear =>
    -- A cleared side is stamped with zero; the time of its last skeleton stays.
    simp only [Tracker.step] at hstep
    split at hstep
    · cases hstep
      refine ⟨h.clock, fun side => ?_, h.injections⟩
      simp only
      split
      · exact ⟨le_rfl, (h.sides side).1.trans (h.sides side).2⟩
      · exact h.sides side
    · cases hstep
  | skeleton now gloveId nodesCount readOk =>
    simp only [Tracker.step] at hstep
    split at hstep
    · rename_i hguard
      have hnow : 0 ≤ now := h.clock.trans hguard.2
      split at hstep
      · cases hstep
        exact ⟨hnow, h.sides, h.injections⟩
      · rename_i side _
        split at hstep
        · cases hstep
          exact ⟨hnow, forall_setSide (P := fun _ c => 0 ≤ c.stamp ∧ c.stamp ≤ c.received) h.sides
            ⟨hnow, le_rfl⟩, h.injections⟩
        · cases hstep
          exact ⟨hnow, forall_setSide (P := fun _ c => 0 ≤ c.stamp ∧ c.stamp ≤ c.received) h.sides
            ⟨le_rfl, (h.sides side).1.trans (h.sides side).2⟩, h.injections⟩
    · cases hstep
  | rawDevice gloveId sensorCount =>
    simp only [Tracker.step] at hstep
    split at hstep
    · split at hstep
      · cases hstep
        exact h
      · rename_i side _
        cases hstep
        exact ⟨h.clock, forall_setSide (P := fun _ c => 0 ≤ c.stamp ∧ c.stamp ≤ c.received) h.sides
          (h.sides side), h.injections⟩
    · cases hstep
  | inject copied now =>
    obtain ⟨hnow, ⟨⟩⟩ := Option.ite_none_right_eq_some.mp hstep
    refine ⟨h.clock.trans hnow.1, h.sides, fun i hi => ?_⟩
    rcases List.mem_append.mp hi with hi | hi
    · exact h.injections i hi
    · -- Only a cache that is not too old is injected.
      obtain ⟨side, husable, rfl⟩ := mem_injections hi
      have hage := (SideCache.usable_iff.mp husable).2
      have hstamp := (h.sides side).2
      simp only
      omega
  | pushSensorSide side =>
    simp only [Tracker.step] at hstep
    split at hstep
    · cases hstep
      exact h
    · cases hstep
      exact ⟨h.clock, h.sides, h.injections⟩

theorem Inv.landscape (h : s.Inv) {now : ℤ} {gloves : List Glove}
    (horderly : s.orderly (.landscape now gloves) = true)
    (hstep : s.step (.landscape now gloves) = some s') : s'.Inv := by
  simp only [orderly, Bool.and_eq_true, decide_eq_true_eq, List.all_cons, List.all_nil,
    Bool.and_true] at horderly
  obtain ⟨hfew, hsides⟩ := horderly
  have hquiet : ∀ side, ((gloveOf gloves side).all fun id =>
      (s.sides side).gloveId.all (· = id) || (s.sides side).quiet now) = true := by
    intro side
    cases side with
    | left => exact hsides.1
    | right => exact hsides.2
  simp only [step] at hstep
  split_ifs at hstep with hguard hmany
  · omega
  · cases hstep
    obtain ⟨hpending, hnow⟩ := hguard.1
    have hidle := h.idle hpending
    refine ⟨fun hpending => (by cases hpending), fun gloves' hpending' side => ?_,
      fun side => ?_, h.injections, h.packs⟩
    · obtain rfl := Option.some.inj hpending'
      refine ⟨by rw [SideCache.gloveId_connect, hidle side], fun id hid => ?_⟩
      have hside := hquiet side
      rw [hid, Option.all_some, Bool.or_eq_true, hidle side] at hside
      rw [SideCache.quiet_connect]
      rcases hside with hsame | hquiet
      · -- A side without a glove has nothing that could be taken.
        cases hold : gloveOf s.landscape side with
        | none =>
          have hkept := h.kept side
          rw [hold] at hkept
          exact .inr (SideCache.quiet_mono hkept.quiet hnow)
        | some old =>
          rw [hold] at hsame
          exact .inl (by simpa using hsame)
      · exact .inr hquiet
    · exact ((h.kept side).mono hnow).connect _

theorem Inv.clear (h : s.Inv) (hstep : s.step .clear = some s') : s'.Inv := by
  simp only [step] at hstep
  split at hstep
  · rename_i gloves hpending
    cases hstep
    -- The ids are already those of the pending landscape.
    have hbusy := h.busy gloves hpending
    refine ⟨fun _ side => ?_, fun gloves' hpending' => (by cases hpending'), fun side => ?_,
      h.injections, h.packs⟩
    · have hid := (hbusy side).1
      simp only
      split
      · rename_i hgone
        rw [hgone.1]
        rfl
      · rename_i hstay
        cases hglove : gloveOf gloves side with
        | some id => simpa [hglove] using hid
        | none => simpa [hglove] using hstay
    · simp only
      split
      · exact SideCache.kept_reset
      · rename_i hstay
        have hid := (hbusy side).1
        have hkept := h.kept side
        cases hglove : gloveOf gloves side with
        | none =>
          have hnone : gloveOf s.landscape side = none := by
            simpa [hid, hglove] using hstay
          rw [hnone] at hkept
          exact hkept
        | some id =>
          -- The glove is the one of before, or its side has been quiet for long.
          rcases (hbusy side).2 id hglove with hsame | hquiet
          · rwa [hsame] at hkept
          · exact SideCache.kept_of_quiet hquiet
  · cases hstep

/-- The caches are written under the glove that sends. -/
theorem Inv.write (h : s.Inv) (hpending : s.pending = none) {now : ℤ} (hnow : s.clock ≤ now)
    {cache : SideCache} (hid : cache.gloveId = (s.sides side).gloveId)
    (hkept : cache.Kept (gloveOf s.landscape side) now) :
    Inv { s.setSide side cache with clock := now } where
  idle _ := forall_setSide (P := fun d c => c.gloveId = gloveOf s.landscape d)
    (h.idle hpending) (hid.trans (h.idle hpending side))
  busy gloves hgloves := by
    rw [show (s.setSide side cache).pending = s.pending from rfl, hpending] at hgloves
    cases hgloves
  kept := forall_setSide (P := fun d c => c.Kept (gloveOf s.landscape d) now)
    (fun d => (h.kept d).mono hnow) hkept
  injections := h.injections
  packs := h.packs

theorem Inv.skeleton (h : s.Inv) (ht : s.Timely) {now : ℤ} {gloveId nodesCount : ℕ} {readOk : Bool}
    (hstep : s.step (.skeleton now gloveId nodesCount readOk) = some s') : s'.Inv := by
  simp only [step] at hstep
  split at hstep
  · rename_i hguard
    obtain ⟨hpending, hnow⟩ := hguard
    split at hstep
    · cases hstep
      refine ⟨h.idle, fun gloves hgloves => ?_, fun side => (h.kept side).mono hnow, h.injections,
        h.packs⟩
      rw [hpending] at hgloves
      cases hgloves
    · rename_i side hside
      have hglove : gloveOf s.landscape side = some gloveId :=
        (h.idle hpending side).symm.trans (gloveId_of_sideOf hside)
      split at hstep
      · cases hstep
        exact h.write hpending hnow rfl ⟨fun _ => by simp [hglove], (h.kept side).sensors⟩
      · cases hstep
        refine h.write hpending hnow rfl ⟨fun husable => (h.kept side).nodes ?_,
          (h.kept side).sensors⟩
        -- With its stamp at zero the skeleton counts as older than it is.
        rw [SideCache.usable_iff] at husable ⊢
        have hstamp := (ht.sides side).1
        exact ⟨husable.1, by simp only at husable; omega⟩
  · cases hstep

theorem Inv.rawDevice (h : s.Inv) {gloveId sensorCount : ℕ}
    (hstep : s.step (.rawDevice gloveId sensorCount) = some s') : s'.Inv := by
  simp only [step] at hstep
  split at hstep
  · rename_i hpending
    split at hstep
    · cases hstep
      exact h
    · rename_i side hside
      have hglove : gloveOf s.landscape side = some gloveId :=
        (h.idle hpending side).symm.trans (gloveId_of_sideOf hside)
      cases hstep
      refine h.write hpending le_rfl rfl ⟨(h.kept side).nodes, fun hcount j hj => ?_⟩
      simp only at hcount ⊢
      rw [if_pos (lt_of_lt_of_le hj hcount), hglove]
      exact ⟨rfl, rfl⟩
  · cases hstep

theorem Inv.inject (h : s.Inv) {copied now : ℤ} (hstep : s.step (.inject copied now) = some s') :
    s'.Inv := by
  obtain ⟨⟨hcopied, hnow⟩, ⟨⟩⟩ := Option.ite_none_right_eq_some.mp hstep
  refine ⟨h.idle, fun gloves hpending side => ?_, fun side => (h.kept side).mono hcopied,
    fun i hi => ?_, h.packs⟩
  · obtain ⟨hid, hquiet⟩ := h.busy gloves hpending side
    exact ⟨hid, fun id hglove => (hquiet id hglove).imp_right (SideCache.quiet_mono · hcopied)⟩
  · rcases List.mem_append.mp hi with hi | hi
    · exact h.injections i hi
    · obtain ⟨side, husable, rfl⟩ := mem_injections hi
      exact (h.kept side).nodes (SideCache.usable_mono husable (hcopied.trans hnow))

theorem Inv.pushSensorSide (h : s.Inv) (hstep : s.step (.pushSensorSide side) = some s') :
    s'.Inv := by
  simp only [step] at hstep
  split at hstep
  · cases hstep
    exact h
  · rename_i hfull
    cases hstep
    refine ⟨h.idle, h.busy, h.kept, h.injections, fun pack hpack => ?_⟩
    rcases List.mem_append.mp hpack with hpack | hpack
    · exact h.packs pack hpack
    · obtain rfl := List.mem_singleton.mp hpack
      have hsensors := (h.kept side).sensors (not_lt.mp hfull)
      refine ⟨(hsensors 0 (by decide)).2, fun source hsource => ?_⟩
      obtain ⟨j, hj, rfl⟩ := List.mem_map.mp hsource
      exact (hsensors j (List.mem_range.mp hj)).1

/-- **One step.** -/
theorem Inv.step (h : s.Inv) (ht : s.Timely) {event : Event} (horderly : s.orderly event = true)
    (hstep : s.step event = some s') : s'.Inv := by
  cases event with
  | landscape now gloves => exact h.landscape horderly hstep
  | clear => exact h.clear hstep
  | skeleton now gloveId nodesCount readOk => exact h.skeleton ht hstep
  | rawDevice gloveId sensorCount => exact h.rawDevice hstep
  | inject copied now => exact h.inject hstep
  | pushSensorSide side => exact h.pushSensorSide hstep

theorem Timely.run (h : s.Timely) {events : List Event} (hrun : s.run events = some s') :
    s'.Timely := by
  induction events generalizing s with
  | nil => exact Option.some.inj hrun ▸ h
  | cons event events ih =>
    obtain ⟨t, hstep, hrest⟩ := Option.bind_eq_some_iff.mp hrun
    exact ih (h.step hstep) hrest

theorem Inv.run (h : s.Inv) (ht : s.Timely) {events : List Event}
    (horderly : s.orderlyRun events = true) (hrun : s.run events = some s') : s'.Inv := by
  induction events generalizing s with
  | nil => exact Option.some.inj hrun ▸ h
  | cons event events ih =>
    obtain ⟨t, hstep, hrest⟩ := Option.bind_eq_some_iff.mp hrun
    simp only [orderlyRun, hstep, Option.all_some, Bool.and_eq_true] at horderly
    exact ih (h.step ht horderly.1 hstep) (ht.step hstep) horderly.2 hrest

end Steps

end Tracker

/-- **Glove data.**  An injected skeleton is no older than the threshold, in every run.  In a run in
which no landscape replaces a glove whose data are kept, each skeleton and each sensor pack came
from the glove that the most recent landscape had on that side when it was copied. -/
theorem glove_data (clock : ℤ) (hclock : 0 ≤ clock) (events : List Event) (s : Tracker)
    (hrun : (Tracker.initial clock).run events = some s) :
    (∀ i ∈ s.injections, i.now - i.received ≤ skeletonStaleThreshold) ∧
    ((Tracker.initial clock).orderlyRun events = true →
      (∀ i ∈ s.injections, ∃ glove, i.source = some glove ∧ i.glove = some glove) ∧
      ∀ pack ∈ s.packs, ∃ glove, pack.glove = some glove ∧
        ∀ source ∈ pack.sources, source = some glove) := by
  have htimely := Tracker.timely_initial hclock
  refine ⟨(htimely.run hrun).injections, fun horderly => ?_⟩
  have hinv := (Tracker.inv_initial clock).run htimely horderly hrun
  refine ⟨fun i hi => ?_, fun pack hpack => ?_⟩
  · obtain ⟨hsame, hsome⟩ := hinv.injections i hi
    obtain ⟨glove, hglove⟩ := Option.isSome_iff_exists.mp hsome
    exact ⟨glove, hsame.trans hglove, hglove⟩
  · obtain ⟨hsome, hsame⟩ := hinv.packs pack hpack
    obtain ⟨glove, hglove⟩ := Option.isSome_iff_exists.mp hsome
    exact ⟨glove, hglove, fun source hsource => (hsame source hsource).trans hglove⟩

/-- The left glove leaves, and another one takes its place; that one is replaced by a third when
its skeleton has become stale. -/
def reconnected : List Event :=
  [.landscape 0 [⟨some .left, 7⟩], .clear, .skeleton 1000000000 7 25 true, .rawDevice 7 5,
    .inject 1000000001 1000000001, .pushSensorSide .left, .landscape 1000000001 [], .clear,
    .landscape 1000000002 [⟨some .left, 8⟩], .clear, .inject 1000000002 1000000003,
    .skeleton 1000000003 8 25 true, .inject 1000000004 1000000005,
    .landscape 601000000000 [⟨some .left, 9⟩], .clear, .inject 601000000001 601000000002]

/-- Two skeletons and a pack, each of the glove that is there. -/
theorem reconnected_data : ∃ s, (Tracker.initial 0).run reconnected = some s ∧
    s.injections.length = 2 ∧ s.packs.length = 1 ∧
    (∀ i ∈ s.injections, ∃ glove, i.source = some glove ∧ i.glove = some glove) := by
  have hrun : ((Tracker.initial 0).run reconnected).map
      (fun s => (s.injections.length, s.packs.length)) = some (2, 1) := by
    decide
  obtain ⟨s, hs, hlengths⟩ := Option.map_eq_some_iff.mp hrun
  obtain ⟨hinjections, hpacks⟩ := Prod.mk.inj hlengths
  exact ⟨s, hs, hinjections, hpacks,
    ((glove_data 0 le_rfl reconnected s hs).2 (by decide)).1⟩

/-- A landscape with another glove on the left: the skeleton and the sensors of the old one are used
under the new one. -/
theorem replaced_glove :
    ((Tracker.initial 0).run [.landscape 0 [⟨some .left, 7⟩], .clear,
        .skeleton 1000000000 7 25 true, .rawDevice 7 5, .landscape 1000000001 [⟨some .left, 8⟩],
        .clear, .inject 1000000001 1000000002, .pushSensorSide .left]).map
          (fun s => (s.injections, s.packs)) =
      some ([⟨.left, some 7, some 8, 1000000000, 1000000002⟩],
        [⟨.left, List.replicate 5 (some 7), some 8⟩]) := by
  decide

end ManusGloves
