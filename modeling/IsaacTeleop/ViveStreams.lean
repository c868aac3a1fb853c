/-
The pose streams of the Vive trackers.

A callback keeps the latest pose of a device; an update takes a snapshot of them and pushes, for
every device, the pose if it is new, or a filler if it is stale.  The stream of a device is made for
its first pose and named after the serial, or after the device if there is none; it is made again
when the serial is another one.

* `Plugin.streamFor`, `Plugin.visit`, `Plugin.step` — the plugin, with callbacks between the
  snapshot and the pushes;
* `Plugin.Follows` — what the pushes so far say of the poses that are to be visited;
* `vive_streams` — all runs; `serial_comes_late` — what does not hold of them.
-/
import IsaacTeleop.ByteText

open ByteText

namespace ViveStreams

/-! ### Poses and streams -/

/-- A pose of the wire: `serial` is the buffer. -/
structure Pose where
  device : ℕ
  serial : ByteText
  ts : ℤ

/-- `sanitize_serial` -/
def sanitizeSerial (buffer : ByteText) : ByteText :=
  (buffer.takeWhile (· ≠ 0)).filter fun c =>
    (byte 'A' ≤ c && c ≤ byte 'Z') || (byte 'a' ≤ c && c ≤ byte 'z') || isDigit c ||
      c = byte '-' || c = byte '_' || c = byte '.'

def collectionPrefix : ByteText := lit "vive_tracker_"

/-- `make_collection_id` -/
def makeCollectionId (device : ℕ) (serial : ByteText) : ByteText :=
  if serial ≠ [] then collectionPrefix ++ serial else collectionPrefix ++ decimal device

/-- An entry of `latest_poses_`; `arrival` counts the callbacks. -/
structure LatestPose where
  serial : ByteText
  ts : ℤ
  arrival : ℕ
  deriving DecidableEq

structure DeviceStream where
  collectionId : ByteText
  serial : ByteText
  lastPushedTs : ℤ := -1
  pushedInvalid : Bool := false
  deriving DecidableEq

/-- A stream can take poses of this serial. -/
def DeviceStream.Takes (stream : DeviceStream) (serial : ByteText) : Prop :=
  serial = [] ∨ stream.serial = [] ∨ stream.serial = serial

/-- A `push_buffer`; the pose is only in it if it is valid. -/
structure Push where
  device : ℕ
  collectionId : ByteText
  pose : LatestPose
  isValid : Bool
  sampleTime : ℤ
  deriving DecidableEq

structure Plugin where
  latestPoses : ℕ → Option LatestPose
  streams : ℕ → Option DeviceStream
  /-- The copy that an update has made. -/
  snapshot : Option (ℕ → Option LatestPose)
  clock : ℤ
  arrived : List Pose
  pushes : List Push

inductive Event
  | pose (now : ℤ) (p : Pose)
  | snapshot
  /-- the loop over the snapshot, in the order of the map -/
  | push (now : ℤ) (order : List ℕ)

namespace Plugin

/-- `stream_for` -/
def streamFor (s : Plugin) (device : ℕ) (serial : ByteText) : DeviceStream :=
  match s.streams device with
  | some stream =>
    if serial ≠ [] ∧ stream.serial ≠ [] ∧ stream.serial ≠ serial then
      { collectionId := makeCollectionId device serial, serial := serial }
    else stream
  | none => { collectionId := makeCollectionId device serial, serial := serial }

def setStream (s : Plugin) (device : ℕ) (stream : DeviceStream) : Plugin :=
  { s with streams := Function.update s.streams device (some stream) }

/-- The body of the loop of `update`. -/
def visit (staleNs now : ℤ) (snapshot : ℕ → Option LatestPose) (s : Plugin) (device : ℕ) : Plugin :=
  match snapshot device with
  | none => s
  | some lp =>
    let stream := s.streamFor device lp.serial
    if now - lp.ts > staleNs then
      { s.setStream device { stream with pushedInvalid := true } with
        pushes := s.pushes ++ [⟨device, stream.collectionId, lp, false, now⟩] }
    else if lp.ts = stream.lastPushedTs then s.setStream device stream
    else
      { s.setStream device { stream with lastPushedTs := lp.ts, pushedInvalid := false } with
        pushes := s.pushes ++ [⟨device, stream.collectionId, lp, true, lp.ts⟩] }

/-- The clock does not go back, a pose is not later than it, and the poses of a device come in the
order of their times. -/
def step (staleNs : ℤ) (s : Plugin) : Event → Option Plugin
  | .pose now p =>
    if s.clock ≤ now ∧ p.ts ≤ now ∧
        (s.latestPoses p.device).all (fun lp => lp.ts ≤ p.ts) = true then
      some { s with
        latestPoses := Function.update s.latestPoses p.device
          (some ⟨sanitizeSerial p.serial, p.ts, s.arrived.length⟩)
        clock := now
        arrived := s.arrived ++ [p] }
    else none
  | .snapshot => if s.snapshot.isNone then some { s with snapshot := some s.latestPoses } else none
  | .push now order =>
    match s.snapshot with
    | some snapshot =>
      if s.clock ≤ now then
        some (order.foldl (visit staleNs now snapshot) { s with snapshot := none, clock := now })
      else none
    | none => none

def run (staleNs : ℤ) (s : Plugin) : List Event → Option Plugin
  | [] => some s
  | event :: events => (s.step staleNs event).bind fun s' => s'.run staleNs events

def initial (clock : ℤ) : Plugin where
  latestPoses _ := none
  streams _ := none
  snapshot := none
  clock := clock
  arrived := []
  pushes := []

/-! ### Streams -/

/-- An entry is what its callback stored. -/
def Genuine (s : Plugin) (device : ℕ) (lp : LatestPose) : Prop :=
  ∃ p, s.arrived[lp.arrival]? = some p ∧ p.device = device ∧ sanitizeSerial p.serial = lp.serial ∧
    p.ts = lp.ts

/-- Two entries of one callback are the same. -/
theorem Genuine.eq {s : Plugin} {device device' : ℕ} {lp lp' : LatestPose}
    (h : s.Genuine device lp) (h' : s.Genuine device' lp') (harrival : lp.arrival = lp'.arrival) :
    lp = lp' := by
  obtain ⟨p, hp, _, hserial, hts⟩ := h
  obtain ⟨p', hp', _, hserial', hts'⟩ := h'
  rw [harrival, hp'] at hp
  obtain rfl := Option.some.inj hp
  cases lp
  cases lp'
  simp_all

theorem Genuine.device {s : Plugin} {device device' : ℕ} {lp lp' : LatestPose}
    (h : s.Genuine device lp) (h' : s.Genuine device' lp') (harrival : lp.arrival = lp'.arrival) :
    device = device' := by
  obtain ⟨p, hp, hdevice, _⟩ := h
  obtain ⟨p', hp', hdevice', _⟩ := h'
  rw [harrival, hp'] at hp
  obtain rfl := Option.some.inj hp
  exact hdevice.symm.trans hdevice'

/-- A pose without a serial has come from the device. -/
def Unnamed (s : Plugin) (device : ℕ) : Prop :=
  ∃ p ∈ s.arrived, p.device = device ∧ sanitizeSerial p.serial = []

/-- The stream of the device was made for a pose without a serial. -/
def NamedByDevice (s : Plugin) (device : ℕ) : Prop :=
  ∃ stream, s.streams device = some stream ∧ stream.serial = []

/-- The stream is named after its own serial. -/
def WellNamed (s : Plugin) (device : ℕ) (stream : DeviceStream) : Prop :=
  stream.collectionId = makeCollectionId device stream.serial ∧
    (stream.serial = [] → s.Unnamed device)

theorem streamFor_takes (s : Plugin) (device : ℕ) (serial : ByteText) :
    (s.streamFor device serial).Takes serial := by
  unfold streamFor
  split
  · rename_i stream _
    split
    · exact .inr (.inr rfl)
    · rename_i hsame
      unfold DeviceStream.Takes
      tauto
  · exact .inr (.inr rfl)

/-- A stream that takes a serial is not made again for it. -/
theorem streamFor_of_takes {s : Plugin} {device : ℕ} {stream : DeviceStream} {serial : ByteText}
    (hstream : s.streams device = some stream) (htakes : stream.Takes serial) :
    s.streamFor device serial = stream := by
  unfold streamFor
  rw [hstream]
  refine if_neg ?_
  rintro ⟨hserial, hnamed, hother⟩
  rcases htakes with h | h | h
  · exact hserial h
  · exact hnamed h
  · exact hother h

theorem streamFor_wellNamed {s : Plugin} {device : ℕ} {lp : LatestPose}
    (hstreams : ∀ stream, s.streams device = some stream → s.WellNamed device stream)
    (hlp : s.Genuine device lp) : s.WellNamed device (s.streamFor device lp.serial) := by
  have hnew : s.WellNamed device
      { collectionId := makeCollectionId device lp.serial, serial := lp.serial } := by
    refine ⟨rfl, fun hempty => ?_⟩
    obtain ⟨p, hp, hdevice, hserial, _⟩ := hlp
    exact ⟨p, List.mem_of_getElem? hp, hdevice, hserial.trans hempty⟩
  unfold streamFor
  split
  · rename_i stream hstream
    split
    · exact hnew
    · exact hstreams stream hstream
  · exact hnew

/-! ### Pushes -/

/-- The stream of a push would not push its pose again. -/
def Served (s : Plugin) (push : Push) : Prop :=
  ∃ stream, s.streams push.device = some stream ∧ stream.lastPushedTs = push.pose.ts ∧
    stream.Takes push.pose.serial

/-- The pushes so far are of poses that are not later than these. -/
structure Follows (s : Plugin) (poses : ℕ → Option LatestPose) : Prop where
  genuine : ∀ d lp, poses d = some lp → s.Genuine d lp ∧ lp.ts ≤ s.clock
  after : ∀ push ∈ s.pushes, ∃ lp, poses push.device = some lp ∧
    push.pose.arrival ≤ lp.arrival ∧ push.pose.ts ≤ lp.ts ∧
    (push.isValid = true → push.pose.arrival = lp.arrival → s.Served push)

/-- Where a push has gone, and when. -/
structure Sound (s : Plugin) (push : Push) : Prop where
  genuine : s.Genuine push.device push.pose
  collection : push.pose.serial = [] ∨
    push.collectionId = makeCollectionId push.device push.pose.serial ∨
    push.collectionId = makeCollectionId push.device [] ∧ s.NamedByDevice push.device
  valid : push.isValid = true → push.sampleTime = push.pose.ts
  time : push.sampleTime ≤ s.clock

/-- Two pushes of a device: only a pose after a filler may be earlier. -/
def InOrder (a b : Push) : Prop :=
  a.device = b.device → a.isValid = true ∨ b.isValid = false → a.sampleTime ≤ b.sampleTime

/-- Two pushes do not push one pose as valid. -/
def Apart (a b : Push) : Prop :=
  a.isValid = true → b.isValid = true → a.pose.arrival ≠ b.pose.arrival

structure Inv (s : Plugin) : Prop where
  latest : s.Follows s.latestPoses
  streams : ∀ d stream, s.streams d = some stream → s.WellNamed d stream
  pushes : ∀ push ∈ s.pushes, s.Sound push
  order : s.pushes.Pairwise InOrder
  once : s.pushes.Pairwise Apart

/-- These poses are not later than the latest ones. -/
def Earlier (s : Plugin) (poses : ℕ → Option LatestPose) : Prop :=
  ∀ d lp, poses d = some lp → ∃ lp', s.latestPoses d = some lp' ∧ lp.arrival ≤ lp'.arrival ∧
    lp.ts ≤ lp'.ts

theorem inv_initial (clock : ℤ) : (initial clock).Inv where
  latest := ⟨fun _ _ h => (by cases h), fun _ h => (by cases h)⟩
  streams _ _ h := by cases h
  pushes _ h := by cases h
  order := List.Pairwise.nil
  once := List.Pairwise.nil

section Visit

variable {s s' : Plugin} {device : ℕ} {lp : LatestPose} {stream : DeviceStream}

/-- The stream of the visited device is `streamFor`, perhaps with another last time. -/
structure Visited (s s' : Plugin) (device : ℕ) (lp : LatestPose) (stream : DeviceStream) :
    Prop where
  streams : s'.streams = Function.update s.streams device (some stream)
  collectionId : stream.collectionId = (s.streamFor device lp.serial).collectionId
  serial : stream.serial = (s.streamFor device lp.serial).serial
  last : stream.lastPushedTs = (s.streamFor device lp.serial).lastPushedTs ∨
    stream.lastPushedTs = lp.ts
  latestPoses : s'.latestPoses = s.latestPoses
  clock : s'.clock = s.clock
  arrived : s'.arrived = s.arrived

theorem Visited.genuine (h : Visited s s' device lp stream) {d : ℕ} {q : LatestPose}
    (hq : s.Genuine d q) : s'.Genuine d q := by
  unfold Genuine
  rw [h.arrived]
  exact hq

/-- A stream without a serial is not made again. -/
theorem Visited.namedByDevice (h : Visited s s' device lp stream) {d : ℕ}
    (hd : s.NamedByDevice d) : s'.NamedByDevice d := by
  obtain ⟨old, hold, hempty⟩ := hd
  unfold NamedByDevice
  rw [h.streams]
  by_cases hdevice : d = device
  · refine ⟨stream, by rw [hdevice, Function.update_self], ?_⟩
    rw [h.serial, streamFor_of_takes (hdevice ▸ hold) (.inr (.inl hempty)), hempty]
  · exact ⟨old, by rw [Function.update_of_ne hdevice]; exact hold, hempty⟩

/-- A push of an earlier pose stays served, unless a new stream takes over with a later pose. -/
theorem Visited.served (h : Visited s s' device lp stream) {push : Push}
    (hserved : s.Served push) (hsame : push.device = device → push.pose = lp) : s'.Served push := by
  obtain ⟨old, hold, hts, htakes⟩ := hserved
  by_cases hdevice : push.device = device
  · have hpose := hsame hdevice
    have hstream : s.streamFor device lp.serial = old :=
      streamFor_of_takes (hdevice ▸ hold) (hpose ▸ htakes)
    refine ⟨stream, by rw [h.streams, hdevice, Function.update_self], ?_, ?_⟩
    · rcases h.last with hlast | hlast
      · rw [hlast, hstream, hts]
      · rw [hlast, hpose]
    · unfold DeviceStream.Takes
      rw [h.serial, hstream]
      exact htakes
  · exact ⟨old, by rw [h.streams, Function.update_of_ne hdevice]; exact hold, hts, htakes⟩

end Visit

/-- What holds while the loop visits a snapshot. -/
structure Looping (s : Plugin) (poses : ℕ → Option LatestPose) : Prop extends Inv s where
  snapshot : s.Follows poses
  earlier : s.Earlier poses

section Loop

variable {s : Plugin} {snapshot : ℕ → Option LatestPose} {device : ℕ} {lp : LatestPose}

/-- A pose of the device that was pushed is not later than the one that is visited. -/
theorem Looping.pushed_le (h : s.Looping snapshot) (hlp : snapshot device = some lp) {push : Push}
    (hpush : push ∈ s.pushes) (hdevice : push.device = device) :
    push.pose.arrival ≤ lp.arrival ∧ push.pose.ts ≤ lp.ts ∧
      (push.isValid = true → push.pose.arrival = lp.arrival → s.Served push) := by
  obtain ⟨q, hq, hafter⟩ := h.snapshot.after push hpush
  rw [hdevice, hlp] at hq
  obtain rfl := Option.some.inj hq
  exact hafter

theorem Looping.follows (h : s.Looping snapshot) (hlp : snapshot device = some lp)
    {poses : ℕ → Option LatestPose} (hposes : s.Follows poses)
    (hle : ∀ q, poses device = some q → lp.arrival ≤ q.arrival) {stream : DeviceStream}
    (hv : Visited s (s.setStream device stream) device lp stream) :
    (s.setStream device stream).Follows poses := by
  refine ⟨hposes.genuine, fun push hpush => ?_⟩
  obtain ⟨q, hq, harrival, hts, hserved⟩ := hposes.after push hpush
  refine ⟨q, hq, harrival, hts, fun hvalid hsame => hv.served (hserved hvalid hsame) ?_⟩
  -- A pose of this device that is as late as `q` is the one that is visited.
  intro hdevice
  have hpushed := (h.pushed_le hlp hpush hdevice).1
  have hlater := hle q (hdevice ▸ hq)
  exact (h.pushes push hpush).genuine.eq (h.snapshot.genuine device lp hlp).1 (by omega)

/-- The new stream instead of the old one. -/
theorem Looping.setStream (h : s.Looping snapshot) (hlp : snapshot device = some lp)
    (stream : DeviceStream) (hv : Visited s (s.setStream device stream) device lp stream) :
    (s.setStream device stream).Looping snapshot := by
  have hgenuine := (h.snapshot.genuine device lp hlp).1
  have hnamed := streamFor_wellNamed (h.streams device) hgenuine
  refine ⟨⟨?_, fun d st hst => ?_, fun push hpush => ?_, h.order, h.once⟩, ?_, h.earlier⟩
  · refine h.follows hlp h.latest (fun q hq => ?_) hv
    obtain ⟨q', hq', hle, _⟩ := h.earlier device lp hlp
    obtain rfl : q = q' := Option.some.inj (hq.symm.trans hq')
    exact hle
  · by_cases hd : d = device
    · obtain rfl : stream = st := by simpa [Plugin.setStream, hd] using hst
      rw [hd]
      refine ⟨?_, fun hempty => hnamed.2 (hv.serial ▸ hempty)⟩
      rw [hv.collectionId, hv.serial]
      exact hnamed.1
    · exact h.streams d st (by simpa [Plugin.setStream, hd] using hst)
  · have hsound := h.pushes push hpush
    exact ⟨hsound.genuine, hsound.collection.imp_right (Or.imp_right fun hname =>
      ⟨hname.1, hv.namedByDevice hname.2⟩), hsound.valid, hsound.time⟩
  · refine h.follows hlp h.snapshot (fun q hq => ?_) hv
    rw [hlp] at hq
    exact (Option.some.inj hq ▸ le_rfl)

/-- A push of the visited pose. -/
theorem Looping.append (h : s.Looping snapshot) (hlp : snapshot device = some lp) {push : Push}
    (hdevice : push.device = device) (hpose : push.pose = lp) (hsound : s.Sound push)
    (hserved : push.isValid = true → s.Served push)
    (hnew : push.isValid = true → ∀ a ∈ s.pushes, a.isValid = true → a.pose.arrival ≠ lp.arrival)
    (hfiller : push.isValid = false → push.sampleTime = s.clock) :
    Looping { s with pushes := s.pushes ++ [push] } snapshot := by
  have hmem : ∀ {a}, a ∈ s.pushes ++ [push] → a ∈ s.pushes ∨ a = push := by
    intro a ha
    simpa using ha
  -- The pose pushed is one that the snapshot has, and the latest poses are newer still.
  have hfollows : ∀ poses, s.Follows poses → (∃ q, poses device = some q ∧
      lp.arrival ≤ q.arrival ∧ lp.ts ≤ q.ts) →
      Follows { s with pushes := s.pushes ++ [push] } poses := by
    rintro poses hposes ⟨q, hq, harrival, hts⟩
    refine ⟨hposes.genuine, fun a ha => ?_⟩
    rcases hmem ha with hold | rfl
    · exact hposes.after a hold
    · exact ⟨q, hdevice ▸ hq, hpose ▸ harrival, hpose ▸ hts, fun hvalid _ => hserved hvalid⟩
  refine ⟨⟨hfollows _ h.latest (h.earlier device lp hlp), h.streams, fun a ha => ?_, ?_, ?_⟩,
    hfollows _ h.snapshot ⟨lp, hlp, le_rfl, le_rfl⟩, h.earlier⟩
  · rcases hmem ha with hold | rfl
    · have hold' := h.pushes a hold
      exact ⟨hold'.genuine, hold'.collection, hold'.valid, hold'.time⟩
    · exact ⟨hsound.genuine, hsound.collection, hsound.valid, hsound.time⟩
  · rw [List.pairwise_append]
    refine ⟨h.order, List.pairwise_singleton _ _, fun a ha b hb => ?_⟩
    obtain rfl := List.mem_singleton.mp hb
    intro hsame hkind
    -- A filler is stamped now, a valid push with the time of its pose.
    cases hvalid : b.isValid with
    | false =>
      rw [hfiller hvalid]
      exact (h.pushes a ha).time
    | true =>
      have ha' : a.isValid = true := by simpa [hvalid] using hkind
      rw [(h.pushes a ha).valid ha', hsound.valid hvalid, hpose]
      exact (h.pushed_le hlp ha (hsame.trans hdevice)).2.1
  · rw [List.pairwise_append]
    refine ⟨h.once, List.pairwise_singleton _ _, fun a ha b hb => ?_⟩
    obtain rfl := List.mem_singleton.mp hb
    intro ha' hb'
    rw [hpose]
    exact hnew hb' a ha ha'

/-- **One round of the loop.** -/
theorem Looping.visit (h : s.Looping snapshot) (staleNs : ℤ) (device : ℕ) :
    (s.visit staleNs s.clock snapshot device).Looping snapshot ∧
      (s.visit staleNs s.clock snapshot device).clock = s.clock := by
  unfold Plugin.visit
  split
  · exact ⟨h, rfl⟩
  rename_i lp hlp
  have hgenuine := h.snapshot.genuine device lp hlp
  have htakes := streamFor_takes s device lp.serial
  have hnamed := streamFor_wellNamed (h.streams device) hgenuine.1
  -- The collection of the stream, by the serial that it takes.
  have hcollection : ∀ stream : DeviceStream,
      stream.serial = (s.streamFor device lp.serial).serial → lp.serial = [] ∨
      (s.streamFor device lp.serial).collectionId = makeCollectionId device lp.serial ∨
      (s.streamFor device lp.serial).collectionId = makeCollectionId device [] ∧
        (s.setStream device stream).NamedByDevice device := by
    intro stream hserial
    rcases htakes with hempty | hempty | hsame
    · exact .inl hempty
    · exact .inr (.inr ⟨by rw [hnamed.1, hempty], stream, Function.update_self _ _ _,
        hserial.trans hempty⟩)
    · exact .inr (.inl (by rw [hnamed.1, hsame]))
  simp only
  split
  · refine ⟨?_, rfl⟩
    have hset := h.setStream hlp { s.streamFor device lp.serial with pushedInvalid := true }
      ⟨rfl, rfl, rfl, .inl rfl, rfl, rfl, rfl⟩
    exact hset.append hlp rfl rfl ⟨hgenuine.1, hcollection _ rfl, by simp, le_rfl⟩ (by simp)
      (by simp) fun _ => rfl
  split
  · refine ⟨h.setStream hlp _ ⟨rfl, rfl, rfl, .inl rfl, rfl, rfl, rfl⟩, rfl⟩
  · rename_i hnew
    refine ⟨?_, rfl⟩
    have hset := h.setStream hlp { s.streamFor device lp.serial with
      lastPushedTs := lp.ts, pushedInvalid := false } ⟨rfl, rfl, rfl, .inr rfl, rfl, rfl, rfl⟩
    refine hset.append hlp rfl rfl ⟨hgenuine.1, hcollection _ rfl, fun _ => rfl, hgenuine.2⟩
      (fun _ => ⟨_, Function.update_self _ _ _, rfl, htakes⟩) (fun _ a ha ha' hsame => ?_)
      (by simp)
    -- The same pose would be served by this stream already.
    have hagenuine := (h.pushes a ha).genuine
    have hequal : a.pose = lp := hagenuine.eq hgenuine.1 hsame
    have hdevice : a.device = device := hagenuine.device hgenuine.1 hsame
    obtain ⟨old, hold, hlast, hold'⟩ := (h.pushed_le hlp ha hdevice).2.2 ha' hsame
    have hstream : s.streamFor device lp.serial = old :=
      streamFor_of_takes (hdevice ▸ hold) (hequal ▸ hold')
    exact hnew (by rw [hstream, hlast, hequal])

theorem Looping.loop (h : s.Looping snapshot) (staleNs : ℤ) (order : List ℕ) :
    (order.foldl (Plugin.visit staleNs s.clock snapshot) s).Looping snapshot ∧
      (order.foldl (Plugin.visit staleNs s.clock snapshot) s).snapshot = s.snapshot := by
  induction order generalizing s with
  | nil => exact ⟨h, rfl⟩
  | cons device order ih =>
    obtain ⟨hvisit, hclock⟩ := h.visit staleNs device
    obtain ⟨hrest, hsnapshot⟩ := ih hvisit
    rw [hclock] at hrest hsnapshot
    refine ⟨hrest, hsnapshot.trans ?_⟩
    unfold Plugin.visit
    split
    · rfl
    · simp only
      split
      · rfl
      · split <;> rfl

end Loop

/-! ### Runs -/

/-- Nothing is lost when time goes on and poses arrive. -/
structure Extends (s s' : Plugin) : Prop where
  arrived : ∃ more, s'.arrived = s.arrived ++ more
  clock : s.clock ≤ s'.clock
  streams : s'.streams = s.streams
  pushes : s'.pushes = s.pushes

section Extends

variable {s s' : Plugin}

theorem Genuine.arrival_lt {d : ℕ} {lp : LatestPose} (h : s.Genuine d lp) :
    lp.arrival < s.arrived.length := by
  obtain ⟨p, hp, _⟩ := h
  exact (List.getElem?_eq_some_iff.mp hp).1

theorem Extends.genuine (h : s.Extends s') {d : ℕ} {lp : LatestPose} (hlp : s.Genuine d lp) :
    s'.Genuine d lp := by
  obtain ⟨more, hmore⟩ := h.arrived
  obtain ⟨p, hp, hrest⟩ := hlp
  refine ⟨p, ?_, hrest⟩
  rw [hmore, List.getElem?_append_left (List.getElem?_eq_some_iff.mp hp).1, hp]

theorem Extends.unnamed (h : s.Extends s') {d : ℕ} (hd : s.Unnamed d) : s'.Unnamed d := by
  obtain ⟨more, hmore⟩ := h.arrived
  obtain ⟨p, hp, hrest⟩ := hd
  exact ⟨p, hmore ▸ List.mem_append_left more hp, hrest⟩

theorem Extends.follows (h : s.Extends s') {poses : ℕ → Option LatestPose}
    (hposes : s.Follows poses) : s'.Follows poses := by
  refine ⟨fun d lp hlp => ?_, fun push hpush => ?_⟩
  · obtain ⟨hgenuine, hts⟩ := hposes.genuine d lp hlp
    exact ⟨h.genuine hgenuine, hts.trans h.clock⟩
  · obtain ⟨lp, hlp, harrival, hts, hserved⟩ := hposes.after push (h.pushes ▸ hpush)
    refine ⟨lp, hlp, harrival, hts, fun hvalid hsame => ?_⟩
    unfold Served
    rw [h.streams]
    exact hserved hvalid hsame

theorem Extends.inv (h : s.Extends s') (hinv : s.Inv) (hlatest : s'.Follows s'.latestPoses) :
    s'.Inv where
  latest := hlatest
  streams d stream hstream := by
    obtain ⟨hname, hunnamed⟩ := hinv.streams d stream (h.streams ▸ hstream)
    exact ⟨hname, fun hempty => h.unnamed (hunnamed hempty)⟩
  pushes push hpush := by
    have hsound := hinv.pushes push (h.pushes ▸ hpush)
    refine ⟨h.genuine hsound.genuine, ?_, hsound.valid, hsound.time.trans h.clock⟩
    unfold NamedByDevice
    rw [h.streams]
    exact hsound.collection
  order := h.pushes ▸ hinv.order
  once := h.pushes ▸ hinv.once

end Extends

/-- What holds between two events. -/
structure Ready (s : Plugin) : Prop extends Inv s where
  snapshot : ∀ poses, s.snapshot = some poses → s.Follows poses ∧ s.Earlier poses

theorem Ready.pose {s s' : Plugin} (h : s.Ready) {staleNs now : ℤ} {p : Pose}
    (hstep : s.step staleNs (.pose now p) = some s') : s'.Ready := by
  simp only [step] at hstep
  split at hstep
  · rename_i hguard
    obtain ⟨hclock, hts, hlater⟩ := hguard
    obtain rfl := Option.some.inj hstep
    have hextends : s.Extends { s with
        latestPoses := Function.update s.latestPoses p.device
          (some ⟨sanitizeSerial p.serial, p.ts, s.arrived.length⟩)
        clock := now
        arrived := s.arrived ++ [p] } := ⟨⟨[p], rfl⟩, hclock, rfl, rfl⟩
    -- What was the latest pose of the device is not later than the new one.
    have hbefore : ∀ lp, s.latestPoses p.device = some lp →
        lp.arrival < s.arrived.length ∧ lp.ts ≤ p.ts := by
      intro lp hlp
      rw [hlp, Option.all_some, decide_eq_true_eq] at hlater
      exact ⟨(h.latest.genuine _ lp hlp).1.arrival_lt, hlater⟩
    have hlatest := hextends.follows h.latest
    refine ⟨hextends.inv h.toInv ⟨fun d lp hlp => ?_, fun push hpush => ?_⟩, fun poses hposes => ?_⟩
    · by_cases hd : d = p.device
      · obtain rfl : ⟨sanitizeSerial p.serial, p.ts, s.arrived.length⟩ = lp := by
          simpa [hd] using hlp
        exact ⟨⟨p, by simp, hd.symm, rfl, rfl⟩, hts⟩
      · exact hlatest.genuine d lp (by simpa [hd] using hlp)
    · obtain ⟨lp, hlp, harrival, hpushed, hserved⟩ := hlatest.after push hpush
      by_cases hd : push.device = p.device
      · obtain ⟨hold, hold'⟩ := hbefore lp (hd ▸ hlp)
        refine ⟨⟨sanitizeSerial p.serial, p.ts, s.arrived.length⟩, by simp [hd],
          harrival.trans hold.le, hpushed.trans hold', fun _ hsame => ?_⟩
        exact absurd hsame (harrival.trans_lt hold).ne
      · exact ⟨lp, by simpa [hd] using hlp, harrival, hpushed, hserved⟩
    · obtain ⟨hfollows, hearlier⟩ := h.snapshot poses hposes
      refine ⟨hextends.follows hfollows, fun d lp hlp => ?_⟩
      obtain ⟨lp', hlp', harrival, hts'⟩ := hearlier d lp hlp
      by_cases hd : d = p.device
      · obtain ⟨hold, hold'⟩ := hbefore lp' (hd ▸ hlp')
        exact ⟨⟨sanitizeSerial p.serial, p.ts, s.arrived.length⟩, by simp [hd],
          harrival.trans hold.le, hts'.trans hold'⟩
      · exact ⟨lp', by simpa [hd] using hlp', harrival, hts'⟩
  · cases hstep

theorem Ready.copy {s s' : Plugin} (h : s.Ready) {staleNs : ℤ}
    (hstep : s.step staleNs .snapshot = some s') : s'.Ready := by
  simp only [step] at hstep
  split at hstep
  · obtain rfl := Option.some.inj hstep
    have hextends : s.Extends { s with snapshot := some s.latestPoses } :=
      ⟨⟨[], by simp⟩, le_rfl, rfl, rfl⟩
    have hlatest := hextends.follows h.latest
    refine ⟨hextends.inv h.toInv hlatest, fun poses hposes => ?_⟩
    obtain rfl := Option.some.inj hposes
    exact ⟨hlatest, fun d lp hlp => ⟨lp, hlp, le_rfl, le_rfl⟩⟩
  · cases hstep

theorem Ready.push {s s' : Plugin} (h : s.Ready) {staleNs now : ℤ} {order : List ℕ}
    (hstep : s.step staleNs (.push now order) = some s') : s'.Ready := by
  simp only [step] at hstep
  split at hstep
  · rename_i poses hposes
    split at hstep
    · rename_i hclock
      obtain rfl := Option.some.inj hstep
      have hextends : s.Extends { s with snapshot := none, clock := now } :=
        ⟨⟨[], by simp⟩, hclock, rfl, rfl⟩
      obtain ⟨hfollows, hearlier⟩ := h.snapshot poses hposes
      have hlooping : Looping { s with snapshot := none, clock := now } poses :=
        ⟨hextends.inv h.toInv (hextends.follows h.latest), hextends.follows hfollows, hearlier⟩
      obtain ⟨hloop, hnone⟩ := hlooping.loop staleNs order
      refine ⟨hloop.toInv, fun poses' hposes' => ?_⟩
      rw [hnone] at hposes'
      cases hposes'
    · cases hstep
  · cases hstep

theorem Ready.run {s s' : Plugin} (h : s.Ready) {staleNs : ℤ} {events : List Event}
    (hrun : s.run staleNs events = some s') : s'.Ready := by
  induction events generalizing s with
  | nil => exact Option.some.inj hrun ▸ h
  | cons event events ih =>
    obtain ⟨t, hstep, hrest⟩ := Option.bind_eq_some_iff.mp hrun
    refine ih ?_ hrest
    cases event with
    | pose now p => exact h.pose hstep
    | snapshot => exact h.copy hstep
    | push now order => exact h.push hstep

theorem ready_initial (clock : ℤ) : (initial clock).Ready :=
  ⟨inv_initial clock, fun _ h => by cases h⟩

/-- Two streams with one collection: they have one serial, or one is named like the number of
the other. -/
theorem Inv.same_collection {s : Plugin} (h : s.Inv) {d d' : ℕ} {stream stream' : DeviceStream}
    (hne : d ≠ d') (hd : s.streams d = some stream) (hd' : s.streams d' = some stream')
    (hsame : stream.collectionId = stream'.collectionId) :
    (stream.serial ≠ [] ∧ stream.serial = stream'.serial) ∨
      (stream.serial = [] ∧ stream'.serial = decimal d) ∨
      (stream'.serial = [] ∧ stream.serial = decimal d') := by
  have hname := (h.streams d stream hd).1
  have hname' := (h.streams d' stream' hd').1
  rw [hname, hname', makeCollectionId, makeCollectionId] at hsame
  split at hsame
  · rename_i hserial
    split at hsame
    · exact .inl ⟨hserial, List.append_cancel_left hsame⟩
    · rename_i hempty
      exact .inr (.inr ⟨not_not.mp hempty, List.append_cancel_left hsame⟩)
  · rename_i hempty
    split at hsame
    · exact .inr (.inl ⟨not_not.mp hempty, (List.append_cancel_left hsame).symm⟩)
    · exact absurd (decimal_injective (List.append_cancel_left hsame)) hne

end Plugin

/-- **Vive tracker streams.**  A pose with a serial goes to the collection of that serial, or to the
one of its device if the stream of that was made for a pose without a serial; live streams have
collections of their own, unless they have one serial or one is named like the number of the other
device; no pose is pushed as valid twice; and the sample times of a device do not decrease, except
from a filler to a pose. -/
theorem vive_streams (staleNs clock : ℤ) (events : List Event) (s : Plugin)
    (hrun : (Plugin.initial clock).run staleNs events = some s) :
    (∀ push ∈ s.pushes, ∃ p, s.arrived[push.pose.arrival]? = some p ∧ p.device = push.device ∧
      (sanitizeSerial p.serial ≠ [] →
        push.collectionId = collectionPrefix ++ sanitizeSerial p.serial ∨
        push.collectionId = collectionPrefix ++ decimal p.device ∧
          (∃ stream, s.streams p.device = some stream ∧ stream.serial = []) ∧
          ∃ q ∈ s.arrived, q.device = p.device ∧ sanitizeSerial q.serial = [])) ∧
    (∀ d d' stream stream', d ≠ d' → s.streams d = some stream → s.streams d' = some stream' →
      stream.collectionId = stream'.collectionId →
      (stream.serial ≠ [] ∧ stream.serial = stream'.serial) ∨
        (stream.serial = [] ∧ stream'.serial = decimal d) ∨
        (stream'.serial = [] ∧ stream.serial = decimal d')) ∧
    s.pushes.Pairwise (fun a b =>
      a.isValid = true → b.isValid = true → a.pose.arrival ≠ b.pose.arrival) ∧
    s.pushes.Pairwise (fun a b => a.device = b.device →
      a.isValid = true ∨ b.isValid = false → a.sampleTime ≤ b.sampleTime) := by
  have hready := (Plugin.ready_initial clock).run hrun
  refine ⟨fun push hpush => ?_, fun d d' stream stream' hne hd hd' hsame =>
    hready.same_collection hne hd hd' hsame, hready.once, hready.order⟩
  have hsound := hready.pushes push hpush
  obtain ⟨p, hp, hdevice, hserial, _⟩ := hsound.genuine
  refine ⟨p, hp, hdevice, fun hnamed => ?_⟩
  rw [hserial] at hnamed ⊢
  -- The name of the stream was fixed by the serial of its first pose.
  rcases hsound.collection with hempty | hname | ⟨hname, stream, hstream, hempty⟩
  · exact absurd hempty hnamed
  · exact .inl (hname.trans (if_pos hnamed))
  · rw [hdevice]
    exact .inr ⟨hname.trans (if_neg (by simp)), ⟨stream, hstream, hempty⟩,
      (hready.streams _ stream hstream).2 hempty⟩

/-- A stale filler, and then the next pose in time. -/
def recovery : List Event :=
  [.pose 10 ⟨3, lit "SN1", 10⟩, .snapshot, .push 10 [3], .snapshot, .push 100 [3],
    .pose 105 ⟨3, lit "SN1", 104⟩, .snapshot, .push 106 [3]]

theorem recovery_pushes :
    (((Plugin.initial 0).run 50 recovery).map Plugin.pushes) = some
      [⟨3, lit "vive_tracker_SN1", ⟨lit "SN1", 10, 0⟩, true, 10⟩,
        ⟨3, lit "vive_tracker_SN1", ⟨lit "SN1", 10, 0⟩, false, 100⟩,
        ⟨3, lit "vive_tracker_SN1", ⟨lit "SN1", 104, 1⟩, true, 104⟩] := by
  decide

/-- The fillers and poses of that run are in order. -/
theorem recovery_in_order : ∃ s, (Plugin.initial 0).run 50 recovery = some s ∧
    s.pushes.length = 3 ∧
    s.pushes.Pairwise (fun a b => a.device = b.device →
      a.isValid = true ∨ b.isValid = false → a.sampleTime ≤ b.sampleTime) := by
  obtain ⟨s, hrun, hpushes⟩ := Option.map_eq_some_iff.mp recovery_pushes
  exact ⟨s, hrun, by rw [hpushes]; rfl, (vive_streams 50 0 recovery s hrun).2.2.2⟩

/-- A serial that comes late goes to the collection of the device; two devices with one serial have
one collection; a pose that arrives late, after a filler, is earlier than it. -/
theorem serial_comes_late :
    ((Plugin.initial 0).run 50 [.pose 10 ⟨3, [], 10⟩, .snapshot, .push 10 [3],
        .pose 20 ⟨3, lit "SN1", 20⟩, .snapshot, .push 20 [3]]).map Plugin.pushes = some
      [⟨3, lit "vive_tracker_3", ⟨[], 10, 0⟩, true, 10⟩,
        ⟨3, lit "vive_tracker_3", ⟨lit "SN1", 20, 1⟩, true, 20⟩] ∧
    ((Plugin.initial 0).run 50 [.pose 10 ⟨3, lit "SN1", 10⟩, .pose 10 ⟨4, lit "SN1", 10⟩, .snapshot,
        .push 10 [3, 4]]).map (fun s => ((s.streams 3).map DeviceStream.collectionId,
          (s.streams 4).map DeviceStream.collectionId)) = some
      (some (lit "vive_tracker_SN1"), some (lit "vive_tracker_SN1")) ∧
    ((Plugin.initial 0).run 50 [.pose 10 ⟨3, lit "SN1", 10⟩, .snapshot, .push 100 [3],
        .pose 101 ⟨3, lit "SN1", 90⟩, .snapshot, .push 102 [3]]).map
          (fun s => s.pushes.map fun push => (push.collectionId, push.sampleTime)) = some
      [(lit "vive_tracker_SN1", 100), (lit "vive_tracker_SN1", 90)] := by
  decide

end ViveStreams
