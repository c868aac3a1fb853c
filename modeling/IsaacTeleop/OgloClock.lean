/-
The device clock of the OGLO tactile gloves.

A glove stamps its samples with a 32-bit counter of microseconds that wraps about every 71
minutes.  The plugin extends it to a 64-bit number of nanoseconds, one sample after the other,
with the last counter value and an offset that grows by one period whenever a wrap is detected.

* `extendDeviceNs`, `onNotify` — the clock of the plugin and what a notification does;
* `Tracks` — the clock state belongs to a true time;
* `extendDeviceNs_tracks` — one sample, for a true time less than half a period later;
* `device_clock_unwrapping` — all samples of a session.
-/
import IsaacTeleop.OgloPackets

namespace Oglo

/-! ### The plugin -/

def kNsPerUs : Int64 := 1000

/-- `device_time_us` is a `uint32`. -/
def kDeviceUsWrap : UInt64 := 4294967296

structure DeviceClock where
  haveLastUs : Bool := false
  lastDeviceUs : UInt32 := 0
  deviceWrapOffsetNs : Int64 := 0
  deriving DecidableEq

/-- `extend_device_ns` -/
def extendDeviceNs (clock : DeviceClock) (deviceTimeUs : UInt32) : Int64 × DeviceClock :=
  let offset :=
    if clock.haveLastUs ∧ deviceTimeUs < clock.lastDeviceUs ∧
        (clock.lastDeviceUs - deviceTimeUs).toUInt64 > kDeviceUsWrap / 2 then
      clock.deviceWrapOffsetNs + kDeviceUsWrap.toInt64 * kNsPerUs
    else clock.deviceWrapOffsetNs
  (offset + deviceTimeUs.toUInt64.toInt64 * kNsPerUs, ⟨true, deviceTimeUs, offset⟩)

structure QueuedSample where
  sample : GloveSample
  localNs : Int64
  rawNs : Int64

/-- What the two threads of the plugin share, and the samples that the sink has received. -/
structure OgloTactilePlugin where
  valuesPerSample : Int32 := 80
  clock : DeviceClock := {}
  lastNotifyNs : Int64 := 0
  queue : List QueuedSample := []
  delivered : List QueuedSample := []

/-- One sample of a batch that arrived at `arrivalNs`. -/
def enqueueSample (arrivalNs : Int64) (newestUs : UInt32) (plugin : OgloTactilePlugin)
    (s : GloveSample) : OgloTactilePlugin :=
  let intraBatchNs := (newestUs - s.deviceTimeUs).toUInt64.toInt64 * kNsPerUs
  let (rawNs, clock) := extendDeviceNs plugin.clock s.deviceTimeUs
  { plugin with
    clock := clock
    queue := plugin.queue ++ [⟨s, arrivalNs - intraBatchNs, rawNs⟩] }

/-- `on_notify` -/
def onNotify (arrivalNs : Int64) (data : Option ByteText) (plugin : OgloTactilePlugin) :
    Option OgloTactilePlugin := do
  let plugin := { plugin with lastNotifyNs := arrivalNs }
  let (accepted, samples) ← parse data plugin.valuesPerSample []
  match accepted, samples.getLast? with
  | true, some newest =>
    pure (samples.foldl (enqueueSample arrivalNs newest.deviceTimeUs) plugin)
  | _, _ => pure plugin

/-- `connect_and_subscribe`, with the number of values that the configuration of the glove
announces. -/
def connectAndSubscribe (valuesPerSample : Int32) (nowNs : Int64) (plugin : OgloTactilePlugin) :
    OgloTactilePlugin :=
  { plugin with valuesPerSample := valuesPerSample, clock := {}, lastNotifyNs := nowNs }

/-- `run` takes what is queued and gives it to the sink. -/
def drain (plugin : OgloTactilePlugin) : OgloTactilePlugin :=
  { plugin with queue := [], delivered := plugin.delivered ++ plugin.queue }

/-- What happens between two connections. -/
inductive SessionEvent
  | notify (arrivalNs : Int64) (data : Option ByteText)
  | drain

def SessionEvent.apply (plugin : OgloTactilePlugin) : SessionEvent → Option OgloTactilePlugin
  | .notify arrivalNs data => onNotify arrivalNs data plugin
  | .drain => some (Oglo.drain plugin)

def session (plugin : OgloTactilePlugin) (events : List SessionEvent) :
    Option OgloTactilePlugin :=
  events.foldlM SessionEvent.apply plugin

/-- The extended times that the plugin has computed, in order. -/
def OgloTactilePlugin.rawTimes (plugin : OgloTactilePlugin) : List Int64 :=
  (plugin.delivered ++ plugin.queue).map QueuedSample.rawNs

/-! ### What the glove sends -/

/-- The samples of a packet that the parser accepts. -/
def acceptedSamples (valuesPerSample : Int32) (data : Option ByteText) : List GloveSample :=
  match parse data valuesPerSample [] with
  | some (true, samples) => samples
  | _ => []

def SessionEvent.samples (valuesPerSample : Int32) : SessionEvent → List GloveSample
  | .notify _ data => acceptedSamples valuesPerSample data
  | .drain => []

/-- The counter values of a session, in the order of the samples. -/
def deviceTimes (valuesPerSample : Int32) (events : List SessionEvent) : List UInt32 :=
  (events.flatMap (SessionEvent.samples valuesPerSample)).map GloveSample.deviceTimeUs

/-- True times that never decrease, each less than half a period after the one before. -/
def Dense (times : List ℕ) : Prop := times.IsChain fun a b => a ≤ b ∧ b < a + 2 ^ 31

/-- The counter shows a true time modulo its period. -/
def counter (t : ℕ) : UInt32 := UInt32.ofNat (t % 2 ^ 32)

/-- The true time at which the period began in which the first sample was taken. -/
def origin : List ℕ → ℕ
  | [] => 0
  | t :: _ => t - t % 2 ^ 32

/-! ### The clock on one sample -/

theorem counter_toNat (t : ℕ) : (counter t).toNat = t % 2 ^ 32 := by
  rw [counter, UInt32.toNat_ofNat']
  omega

/-- `static_cast<int64_t>(device_time_us) * kNsPerUs` -/
theorem counter_ns (t : ℕ) :
    (counter t).toUInt64.toInt64 * kNsPerUs = Int64.ofInt (1000 * ((t % 2 ^ 32 : ℕ) : ℤ)) := by
  have hlt : t % 2 ^ 32 < 2 ^ 32 := Nat.mod_lt _ (by decide)
  have hcast : (counter t).toUInt64.toInt64 = Int64.ofInt ((t % 2 ^ 32 : ℕ) : ℤ) := by
    rw [← counter_toNat, Int64.ofInt_eq_ofNat, ← UInt32.toNat_toUInt64, ← UInt64.toInt64_ofNat',
      UInt64.ofNat_toNat]
  have hns : kNsPerUs = Int64.ofInt 1000 := rfl
  rw [hcast, hns, ← Int64.ofInt_mul, Int.mul_comm]

/-- The clock after a sample of the true time `t`, where times count from `c`: it holds the
counter value, and the offset is the time of the last wrap. -/
structure Tracks (c t : ℕ) (clock : DeviceClock) : Prop where
  have_last : clock.haveLastUs = true
  last : clock.lastDeviceUs = counter t
  offset : clock.deviceWrapOffsetNs = Int64.ofInt (1000 * ((t - t % 2 ^ 32 : ℕ) - c : ℤ))

/-- A result of the clock: the time since `c`, in the 64 bits of the result. -/
def extended (c t : ℕ) : Int64 := Int64.ofInt (1000 * ((t : ℤ) - c))

/-- The wrap test of the source: the counter has gone back by more than half a period. -/
theorem wrapped_iff {t t' : ℕ} (hle : t ≤ t') (hlt : t' < t + 2 ^ 31) :
    (counter t' < counter t ∧ (counter t - counter t').toUInt64 > kDeviceUsWrap / 2) ↔
      t - t % 2 ^ 32 ≠ t' - t' % 2 ^ 32 := by
  have hback : counter t' < counter t ↔ t' % 2 ^ 32 < t % 2 ^ 32 := by
    rw [UInt32.lt_iff_toNat_lt, counter_toNat, counter_toNat]
  have hhalf : (kDeviceUsWrap / 2).toNat = 2 ^ 31 := rfl
  constructor
  · rintro ⟨h, -⟩
    rw [hback] at h
    omega
  · intro h
    have hless : t' % 2 ^ 32 < t % 2 ^ 32 := by omega
    refine ⟨hback.mpr hless, ?_⟩
    have hsub : (counter t - counter t').toNat = t % 2 ^ 32 - t' % 2 ^ 32 := by
      rw [UInt32.toNat_sub_of_le _ _ (UInt32.le_of_lt (hback.mpr hless)), counter_toNat,
        counter_toNat]
    rw [gt_iff_lt, UInt64.lt_iff_toNat_lt, hhalf, UInt32.toNat_toUInt64, hsub]
    omega

/-- **One sample**: the clock follows a true time that is less than half a period later. -/
theorem extendDeviceNs_tracks {c t t' : ℕ} {clock : DeviceClock} (h : Tracks c t clock)
    (hle : t ≤ t') (hlt : t' < t + 2 ^ 31) :
    (extendDeviceNs clock (counter t')).1 = extended c t' ∧
      Tracks c t' (extendDeviceNs clock (counter t')).2 := by
  have hoffset : (extendDeviceNs clock (counter t')).2.deviceWrapOffsetNs =
      Int64.ofInt (1000 * ((t' - t' % 2 ^ 32 : ℕ) - c : ℤ)) := by
    simp only [extendDeviceNs, h.have_last, h.last, true_and, wrapped_iff hle hlt, h.offset]
    split
    case isTrue hwrap =>
      -- One period has begun since the last sample.
      have hperiod : kDeviceUsWrap.toInt64 * kNsPerUs = Int64.ofInt (1000 * 2 ^ 32) := rfl
      rw [hperiod, ← Int64.ofInt_add]
      congr 1
      omega
    case isFalse hsame =>
      rw [not_not.mp hsame]
  refine ⟨?_, rfl, rfl, hoffset⟩
  have hsplit : (extendDeviceNs clock (counter t')).1 =
      (extendDeviceNs clock (counter t')).2.deviceWrapOffsetNs +
        (counter t').toUInt64.toInt64 * kNsPerUs := rfl
  rw [hsplit, hoffset, counter_ns, ← Int64.ofInt_add, extended]
  congr 1
  omega

/-- The first sample of a session. -/
theorem extendDeviceNs_first (t : ℕ) :
    (extendDeviceNs {} (counter t)).1 = extended (t - t % 2 ^ 32) t ∧
      Tracks (t - t % 2 ^ 32) t (extendDeviceNs {} (counter t)).2 := by
  have hoffset : (extendDeviceNs {} (counter t)).2.deviceWrapOffsetNs = 0 := by
    simp [extendDeviceNs]
  refine ⟨?_, rfl, rfl, ?_⟩
  · have hsplit : (extendDeviceNs {} (counter t)).1 =
        (extendDeviceNs {} (counter t)).2.deviceWrapOffsetNs +
          (counter t).toUInt64.toInt64 * kNsPerUs := rfl
    rw [hsplit, hoffset, counter_ns, extended, Int64.zero_add]
    congr 1
    omega
  · rw [hoffset, Int.sub_self, Int.mul_zero]
    rfl

/-! ### A session -/

/-- The clock is ready for the given true times, counted from `c`: it is fresh and `c` belongs to
the first of them, or it is at a time from which they go on. -/
def Ready (c : ℕ) (clock : DeviceClock) (times : List ℕ) : Prop :=
  (clock = {} ∧ (∀ t ∈ times.head?, c = t - t % 2 ^ 32) ∧ Dense times) ∨
    ∃ t, Tracks c t clock ∧ Dense (t :: times)

theorem Ready.next {c t : ℕ} {clock : DeviceClock} {times : List ℕ}
    (h : Ready c clock (t :: times)) :
    (extendDeviceNs clock (counter t)).1 = extended c t ∧
      Ready c (extendDeviceNs clock (counter t)).2 times := by
  rcases h with ⟨rfl, hc, hdense⟩ | ⟨t₀, htracks, hdense⟩
  · obtain rfl : c = t - t % 2 ^ 32 := hc t rfl
    obtain ⟨hvalue, hnext⟩ := extendDeviceNs_first t
    exact ⟨hvalue, .inr ⟨t, hnext, hdense⟩⟩
  · obtain ⟨⟨hle, hlt⟩, hrest⟩ := List.isChain_cons_cons.mp hdense
    obtain ⟨hvalue, hnext⟩ := extendDeviceNs_tracks htracks hle hlt
    exact ⟨hvalue, .inr ⟨t, hnext, hrest⟩⟩

/-- The samples of a batch, one after the other. -/
theorem enqueueSamples_spec (arrivalNs : Int64) (newestUs : UInt32) {c : ℕ} {times rest : List ℕ}
    {samples : List GloveSample} (plugin : OgloTactilePlugin)
    (hsamples : samples.map GloveSample.deviceTimeUs = times.map counter)
    (hready : Ready c plugin.clock (times ++ rest)) :
    (samples.foldl (enqueueSample arrivalNs newestUs) plugin).rawTimes =
        plugin.rawTimes ++ times.map (extended c) ∧
      (samples.foldl (enqueueSample arrivalNs newestUs) plugin).valuesPerSample =
        plugin.valuesPerSample ∧
      Ready c (samples.foldl (enqueueSample arrivalNs newestUs) plugin).clock rest := by
  -- The times are those of the samples, so both lists are taken apart together.
  induction samples generalizing plugin times with
  | nil =>
    obtain rfl : times = [] := List.map_eq_nil_iff.mp hsamples.symm
    exact ⟨(List.append_nil _).symm, rfl, hready⟩
  | cons s samples ih =>
    obtain ⟨t, times, rfl, hs, htimes⟩ := List.map_eq_cons_iff.mp hsamples.symm
    obtain ⟨hvalue, hnext⟩ := hready.next
    rw [hs] at hvalue hnext
    obtain ⟨hraw, hvalues, hrest⟩ :=
      ih (enqueueSample arrivalNs newestUs plugin s) htimes.symm hnext
    refine ⟨?_, hvalues, hrest⟩
    have hone : (enqueueSample arrivalNs newestUs plugin s).rawTimes =
        plugin.rawTimes ++ [extended c t] := by
      simp [OgloTactilePlugin.rawTimes, enqueueSample, hvalue]
    rw [List.foldl_cons, hraw, hone, List.map_cons, List.append_assoc, List.singleton_append]

theorem onNotify_spec (arrivalNs : Int64) (data : Option ByteText) {c : ℕ} {times rest : List ℕ}
    {plugin : OgloTactilePlugin}
    (hsamples : (acceptedSamples plugin.valuesPerSample data).map GloveSample.deviceTimeUs =
      times.map counter)
    (hready : Ready c plugin.clock (times ++ rest)) :
    ∃ plugin', onNotify arrivalNs data plugin = some plugin' ∧
      plugin'.rawTimes = plugin.rawTimes ++ times.map (extended c) ∧
      plugin'.valuesPerSample = plugin.valuesPerSample ∧ Ready c plugin'.clock rest := by
  obtain ⟨⟨accepted, samples⟩, hparse, hrefused, -⟩ :=
    parse_spec data plugin.valuesPerSample []
  simp only [onNotify, acceptedSamples, hparse, Option.bind_eq_bind, Option.bind_some]
    at hsamples ⊢
  cases accepted with
  | false =>
    -- A refused packet has no samples, and the clock waits.
    obtain rfl : times = [] := List.map_eq_nil_iff.mp hsamples.symm
    exact ⟨_, rfl, (List.append_nil _).symm, rfl, hready⟩
  | true =>
    cases hlast : samples.getLast? with
    | none =>
      obtain rfl : samples = [] := List.getLast?_eq_none_iff.mp hlast
      obtain rfl : times = [] := List.map_eq_nil_iff.mp hsamples.symm
      exact ⟨_, rfl, (List.append_nil _).symm, rfl, hready⟩
    | some newest =>
      refine ⟨_, rfl, ?_⟩
      exact enqueueSamples_spec arrivalNs newest.deviceTimeUs
        { plugin with lastNotifyNs := arrivalNs } hsamples hready

/-- **A session**, from any state of the clock that is ready for its times. -/
theorem session_spec {c : ℕ} {events : List SessionEvent} {times : List ℕ}
    (plugin : OgloTactilePlugin)
    (htimes : deviceTimes plugin.valuesPerSample events = times.map counter)
    (hready : Ready c plugin.clock times) :
    ∃ plugin', session plugin events = some plugin' ∧
      plugin'.rawTimes = plugin.rawTimes ++ times.map (extended c) := by
  induction events generalizing plugin times with
  | nil =>
    obtain rfl : times = [] := List.map_eq_nil_iff.mp htimes.symm
    exact ⟨plugin, rfl, (List.append_nil _).symm⟩
  | cons event events ih =>
    rw [deviceTimes, List.flatMap_cons, List.map_append] at htimes
    obtain ⟨now, later, rfl, hnow, hlater⟩ := List.map_eq_append_iff.mp htimes.symm
    -- One event takes its own times and leaves the clock ready for the later ones.
    obtain ⟨plugin₁, happly, hraw, hvalues, hrest⟩ : ∃ plugin₁,
        event.apply plugin = some plugin₁ ∧
        plugin₁.rawTimes = plugin.rawTimes ++ now.map (extended c) ∧
        plugin₁.valuesPerSample = plugin.valuesPerSample ∧ Ready c plugin₁.clock later := by
      cases event with
      | notify arrivalNs data => exact onNotify_spec arrivalNs data hnow.symm hready
      | drain =>
        obtain rfl : now = [] := List.map_eq_nil_iff.mp hnow
        refine ⟨_, rfl, ?_, rfl, hready⟩
        simp [OgloTactilePlugin.rawTimes, drain]
    rw [← hvalues] at hlater
    obtain ⟨plugin₂, hsession, hall⟩ := ih plugin₁ hlater.symm hrest
    refine ⟨plugin₂, ?_, ?_⟩
    · rw [session, List.foldlM_cons, happly]
      exact hsession
    · rw [hall, hraw, List.append_assoc, List.map_append]

/-- The clock of a new connection is ready for any times. -/
theorem ready_fresh {times : List ℕ} (h : Dense times) : Ready (origin times) {} times := by
  refine .inl ⟨rfl, fun t ht => ?_, h⟩
  cases times with
  | nil => cases ht
  | cons first times =>
    obtain rfl : first = t := Option.some_inj.mp ht
    rfl

theorem extended_toInt {c t : ℕ} (hle : c ≤ t) (h : 1000 * ((t : ℤ) - c) < 2 ^ 63) :
    (extended c t).toInt = 1000 * ((t : ℤ) - c) :=
  Int64.toInt_ofInt_of_le (by omega) h

theorem Dense.pairwise {times : List ℕ} (h : Dense times) : times.Pairwise (· ≤ ·) :=
  List.isChain_iff_pairwise.mp (h.imp fun _ _ hab => hab.1)

theorem origin_le {times : List ℕ} (h : Dense times) {t : ℕ} (ht : t ∈ times) :
    origin times ≤ t := by
  cases times with
  | nil => cases ht
  | cons first times =>
    have hfirst : first ≤ t := by
      rcases List.mem_cons.mp ht with rfl | ht
      · exact le_rfl
      · exact List.rel_of_pairwise_cons h.pairwise ht
    exact (Nat.sub_le _ _).trans hfirst

/-- **Unwrapping of the device clock.**  From a connection on, whatever the notifications: when the
counter values of the samples are those of true times that never decrease and are less than half a
period apart, each extended time is 1000 times the true time since the beginning of the first
period, as long as that is in the 64 bits of the result; so these times do not decrease and keep
all gaps. -/
theorem device_clock_unwrapping (plugin : OgloTactilePlugin) (valuesPerSample : Int32)
    (nowNs : Int64) (events : List SessionEvent) (times : List ℕ) (hdense : Dense times)
    (htimes : deviceTimes valuesPerSample events = times.map counter) :
    ∃ plugin' new, session (connectAndSubscribe valuesPerSample nowNs plugin) events =
        some plugin' ∧
      plugin'.rawTimes = plugin.rawTimes ++ new ∧ new.length = times.length ∧
      (∀ (i : ℕ) (hi : i < times.length) (hn : i < new.length),
        1000 * ((times[i] : ℤ) - origin times) < 2 ^ 63 →
        new[i].toInt = 1000 * ((times[i] : ℤ) - origin times)) ∧
      ∀ (i j : ℕ) (hij : i ≤ j) (hj : j < times.length) (hn : j < new.length),
        1000 * ((times[j] : ℤ) - origin times) < 2 ^ 63 →
        new[i] ≤ new[j] ∧ new[j].toInt - new[i].toInt = 1000 * ((times[j] : ℤ) - times[i]) := by
  obtain ⟨plugin', hsession, hraw⟩ := session_spec
    (connectAndSubscribe valuesPerSample nowNs plugin) htimes (ready_fresh hdense)
  have hvalue : ∀ (i : ℕ) (hi : i < times.length)
      (hn : i < (times.map (extended (origin times))).length),
      1000 * ((times[i] : ℤ) - origin times) < 2 ^ 63 →
      (times.map (extended (origin times)))[i].toInt =
        1000 * ((times[i] : ℤ) - origin times) := by
    intro i hi hn hlt
    rw [List.getElem_map]
    exact extended_toInt (origin_le hdense (List.getElem_mem hi)) hlt
  refine ⟨plugin', times.map (extended (origin times)), hsession, hraw, List.length_map _,
    hvalue, fun i j hij hj hn hlt => ?_⟩
  -- An earlier time is no later than the later one, so both are in range.
  have hle : times[i] ≤ times[j] := by
    rcases hij.eq_or_lt with rfl | hij
    · exact le_rfl
    · exact List.pairwise_iff_getElem.mp hdense.pairwise i j (hij.trans hj) hj hij
  have hi := hvalue i (hij.trans_lt hj) (hij.trans_lt hn) (by omega)
  have hj := hvalue j hj hn hlt
  refine ⟨?_, by omega⟩
  rw [Int64.le_iff_toInt_le, hi, hj]
  omega

/-! ### Packets of one sample -/

/-- A packet of one sample of one taxel, taken at the true time `t`. -/
def stampedPacket (t : ℕ) : ByteText :=
  [1, kFlagMethodC, UInt8.ofNat t, UInt8.ofNat (t / 2 ^ 8), UInt8.ofNat (t / 2 ^ 16),
    UInt8.ofNat (t / 2 ^ 24), 7, 1]

theorem parse_stampedPacket (t : ℕ) :
    (parse (some (stampedPacket t)) 1 []).map Prod.fst = some true := rfl

theorem acceptedSamples_stampedPacket (t : ℕ) :
    (acceptedSamples 1 (some (stampedPacket t))).map GloveSample.deviceTimeUs = [counter t] := by
  obtain ⟨⟨accepted, samples⟩, hparse, -, haccepted⟩ := parse_spec (some (stampedPacket t)) 1 []
  have hfst := parse_stampedPacket t
  rw [hparse] at hfst
  obtain rfl : accepted = true := Option.some_inj.mp hfst
  obtain ⟨new, rfl, hlength, hnew⟩ := haccepted rfl
  simp only [acceptedSamples, hparse]
  obtain ⟨s, rfl⟩ := List.length_eq_one_iff.mp hlength
  have hs := hnew 0 Nat.zero_lt_one
  have hformat : formatFromFlags (((some (stampedPacket t)).getD []).getD 1 0) = .methodC :=
    show formatFromFlags kFlagMethodC = .methodC by decide
  rw [Announced, hformat] at hs
  -- The four bytes of the counter give the time modulo its period.
  have htime : s.deviceTimeUs.toNat = (counter t).toNat := by
    refine hs.time.trans ?_
    rw [counter_toNat]
    simp only [stampedPacket, le, Option.getD_some, List.getD_cons_succ, List.getD_cons_zero,
      UInt8.toNat_ofNat']
    omega
  rw [List.map_singleton, UInt32.toNat_inj.mp htime]

def stampedSession (times : List ℕ) : List SessionEvent :=
  times.map fun t => .notify 0 (some (stampedPacket t))

theorem deviceTimes_stampedSession (times : List ℕ) :
    deviceTimes 1 (stampedSession times) = times.map counter := by
  induction times with
  | nil => rfl
  | cons t times ih =>
    rw [stampedSession, List.map_cons, deviceTimes, List.flatMap_cons, List.map_append,
      SessionEvent.samples, acceptedSamples_stampedPacket, List.map_cons]
    exact congrArg _ ih

/-- A wrap between two samples. -/
theorem wrap_between_samples :
    ∃ plugin' first second,
      session (connectAndSubscribe 1 0 {}) (stampedSession [2 ^ 32 - 1, 2 ^ 32 + 4]) =
        some plugin' ∧
      plugin'.rawTimes = [first, second] ∧
      first.toInt = 4294967295000 ∧ second.toInt = 4294967300000 := by
  obtain ⟨plugin', new, hsession, hraw, hlength, hvalue, -⟩ := device_clock_unwrapping {} 1 0
    (stampedSession [2 ^ 32 - 1, 2 ^ 32 + 4]) [2 ^ 32 - 1, 2 ^ 32 + 4]
    (by unfold Dense; decide) (deviceTimes_stampedSession _)
  obtain ⟨first, second, rfl⟩ := List.length_eq_two.mp hlength
  exact ⟨plugin', first, second, hsession, hraw,
    hvalue 0 (by decide) Nat.zero_lt_two (by decide),
    hvalue 1 (by decide) Nat.one_lt_two (by decide)⟩

/-! ### Beyond 64 bits -/

/-- A session of `n + 1` samples, one every half period. -/
def steadyTimes (n : ℕ) : List ℕ := (List.range (n + 1)).map fun i => i * (2 ^ 31 - 1)

theorem dense_steadyTimes (n : ℕ) : Dense (steadyTimes n) := by
  rw [Dense, steadyTimes, List.isChain_iff_getElem]
  intro i hi
  simp only [List.getElem_map, List.getElem_range]
  omega

/-- After 292 years the extended time has left the 64 bits. -/
theorem centuries_of_samples :
    Dense (steadyTimes 10000000) ∧
    deviceTimes 1 (stampedSession (steadyTimes 10000000)) =
      (steadyTimes 10000000).map counter ∧
    ∃ plugin', session (connectAndSubscribe 1 0 {}) (stampedSession (steadyTimes 10000000)) =
        some plugin' ∧
      ¬ ∃ c : ℤ, plugin'.rawTimes.map Int64.toInt =
        (steadyTimes 10000000).map fun t : ℕ => 1000 * ((t : ℤ) - c) := by
  have hdense := dense_steadyTimes 10000000
  refine ⟨hdense, deviceTimes_stampedSession _, ?_⟩
  obtain ⟨plugin', hsession, hraw⟩ := session_spec (connectAndSubscribe 1 0 {})
    (deviceTimes_stampedSession (steadyTimes 10000000)) (ready_fresh hdense)
  refine ⟨plugin', hsession, ?_⟩
  rintro ⟨c, hall⟩
  -- The first and the last value would be more than 64 bits apart.
  have hvalue : ∀ i ≤ 10000000, ∃ v : Int64, v.toInt = 1000 * ((i * (2 ^ 31 - 1) : ℕ) - c : ℤ) := by
    intro i hi
    have hget : ((steadyTimes 10000000).map fun t : ℕ => 1000 * ((t : ℤ) - c))[i]? =
        some (1000 * ((i * (2 ^ 31 - 1) : ℕ) - c : ℤ)) := by
      rw [steadyTimes, List.getElem?_map, List.getElem?_map, List.getElem?_range (by omega)]
      rfl
    rw [← hall, List.getElem?_map] at hget
    obtain ⟨v, -, hv⟩ := Option.map_eq_some_iff.mp hget
    exact ⟨v, hv⟩
  obtain ⟨first, hfirst⟩ := hvalue 0 (Nat.zero_le _)
  obtain ⟨last, hlast⟩ := hvalue 10000000 le_rfl
  have hlow := first.le_toInt
  have hhigh := last.toInt_lt
  omega

end Oglo
