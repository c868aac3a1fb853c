/-
The haptic command reader.

One collection carries the commands of all endpoints.  The reader keeps the last fresh command of
each endpoint until it is too old or the collection is lost, and the name of the endpoint drained
last.  That name is cleared to the empty one, which is also the name of an endpoint.  A read that
throws has drained samples that are never looked at.

* `HapticCommandReader.update`, `HapticCommandReader.getData` — the reader;
* `history` — the fresh samples drained since the collection was last absent, and `bucketed` those
  that no throw has lost;
* `Reads.evict`, `Reads.bucket`, `Reads.update` — what one update keeps;
* `HapticCommandReader.latest_wins_iff` — all histories.
-/
import IsaacTeleop.TensorSamples

open ByteText

namespace Haptics

/-! ### The reader -/

/-- `timestamp_is_fresh`.  The difference is of a positive time and one that is not before it. -/
def timestampIsFresh (sample : SampleResult) (monotonicTimeNs : ℤ) : Option ℤ → Bool
  | none => true
  | some maxSampleAge =>
    let sourceTimeNs :=
      if sample.sampleTimeLocalCommonClock ≤ 0 then sample.availableTimeLocalCommonClock
      else sample.sampleTimeLocalCommonClock
    decide (sourceTimeNs ≤ 0) || decide (monotonicTimeNs < sourceTimeNs) ||
      decide (monotonicTimeNs - sourceTimeNs < maxSampleAge)

/-- What `read_all_samples` does: it throws, or returns whether the collection is present; and the
samples that it has drained before. -/
inductive Drain
  | threw (samples : List SampleResult)
  | returned (present : Bool) (samples : List SampleResult)

def Drain.samples : Drain → List SampleResult
  | .threw samples => samples
  | .returned _ samples => samples

structure Update where
  monotonicTimeNs : ℤ
  drain : Drain

/-- The tracker: its age limit, and the endpoint in a buffer (`none` if it has no root, and the
root may have no endpoint). -/
structure HapticCommandTracker where
  maxSampleAge : Option ℤ
  root : ByteText → Option (Option ByteText)

structure HapticCommandReader where
  trackedByEndpoint : ByteText → Option SampleResult := fun _ => none
  latestEndpoint : ByteText := []

namespace HapticCommandReader

variable (tracker : HapticCommandTracker)

/-- The first loop of `update`.  The empty name comes first in the map, so a name that was cleared
meets no entry any more. -/
def evict (now : ℤ) (reader : HapticCommandReader) : HapticCommandReader where
  trackedByEndpoint endpoint := (reader.trackedByEndpoint endpoint).filter fun command =>
    timestampIsFresh command now tracker.maxSampleAge
  latestEndpoint :=
    match reader.trackedByEndpoint reader.latestEndpoint with
    | none => reader.latestEndpoint
    | some command =>
      if timestampIsFresh command now tracker.maxSampleAge then reader.latestEndpoint else []

/-- The endpoint of a sample that is bucketed. -/
def accepts (now : ℤ) (sample : SampleResult) : Option ByteText :=
  if timestampIsFresh sample now tracker.maxSampleAge then
    (tracker.root sample.buffer).map fun endpoint => endpoint.getD []
  else none

/-- One turn of the second loop. -/
def bucket (now : ℤ) (reader : HapticCommandReader) (sample : SampleResult) :
    HapticCommandReader :=
  match accepts tracker now sample with
  | none => reader
  | some endpoint =>
    { trackedByEndpoint := Function.update reader.trackedByEndpoint endpoint (some sample)
      latestEndpoint := endpoint }

def update (reader : HapticCommandReader) (u : Update) : HapticCommandReader :=
  let reader := reader.evict tracker u.monotonicTimeNs
  match u.drain with
  | .threw _ => reader
  | .returned false _ => {}
  | .returned true samples => samples.foldl (bucket tracker u.monotonicTimeNs) reader

/-- `get_data(endpoint)`; `none` is the empty handle. -/
def getData (reader : HapticCommandReader) (endpoint : ByteText) : Option ByteText :=
  (reader.trackedByEndpoint endpoint).map SampleResult.buffer

/-- `get_data()` -/
def getLatestData (reader : HapticCommandReader) : Option ByteText :=
  reader.getData reader.latestEndpoint

/-- The reader after some updates. -/
def run (updates : List Update) : HapticCommandReader := updates.foldl (update tracker) {}

end HapticCommandReader

/-! ### The history -/

section History

variable (tracker : HapticCommandTracker)

/-- An update at which the collection is absent. -/
def Update.absent (u : Update) : Bool :=
  match u.drain with
  | .threw _ => false
  | .returned present _ => !present

/-- The samples that an update drains while they are fresh, with their endpoints. -/
def Update.fresh (u : Update) : List (ByteText × SampleResult) :=
  u.drain.samples.filterMap fun sample =>
    (HapticCommandReader.accepts tracker u.monotonicTimeNs sample).map fun endpoint =>
      (endpoint, sample)

/-- The update throws after it has drained a sample that is fresh. -/
def Update.Loses (u : Update) : Prop :=
  match u.drain with
  | .threw _ => u.fresh tracker ≠ []
  | .returned _ _ => False

/-- The samples that an update buckets. -/
def Update.kept (u : Update) : List (ByteText × SampleResult) :=
  match u.drain with
  | .threw _ => []
  | .returned _ _ => u.fresh tracker

/-- The updates since the collection was last absent. -/
def sinceAbsent (updates : List Update) : List Update :=
  (updates.reverse.takeWhile fun u => !u.absent).reverse

/-- The samples that were fresh when drained, since the collection was last absent. -/
def history (updates : List Update) : List (ByteText × SampleResult) :=
  (sinceAbsent updates).flatMap (Update.fresh tracker)

/-- The samples that were bucketed since the collection was last absent. -/
def bucketed (updates : List Update) : List (ByteText × SampleResult) :=
  (sinceAbsent updates).flatMap (Update.kept tracker)

/-- The last of some samples, if it is within the age limit. -/
def lastWithin (now : ℤ) (samples : List (ByteText × SampleResult)) : Option SampleResult :=
  (samples.getLast?.map Prod.snd).filter fun sample =>
    timestampIsFresh sample now tracker.maxSampleAge

/-- The last sample of an endpoint, if it is within the age limit. -/
def lastOf (now : ℤ) (samples : List (ByteText × SampleResult)) (endpoint : ByteText) :
    Option SampleResult :=
  lastWithin tracker now (samples.filter fun sample => sample.1 = endpoint)

end History

/-! ### One update -/

section Proofs

variable {tracker : HapticCommandTracker}

theorem fresh_earlier {sample : SampleResult} {now later : ℤ} {age : Option ℤ} (h : now ≤ later)
    (hfresh : timestampIsFresh sample later age = true) :
    timestampIsFresh sample now age = true := by
  cases age with
  | none => rfl
  | some age =>
    simp only [timestampIsFresh, Bool.or_eq_true, decide_eq_true_eq] at hfresh ⊢
    omega

/-- What was within the age limit and still is. -/
theorem lastWithin_later {now later : ℤ} (h : now ≤ later)
    (samples : List (ByteText × SampleResult)) :
    (lastWithin tracker now samples).filter
        (fun sample => timestampIsFresh sample later tracker.maxSampleAge) =
      lastWithin tracker later samples := by
  rw [lastWithin, lastWithin]
  cases samples.getLast?.map Prod.snd with
  | none => rfl
  | some sample =>
    cases hlater : timestampIsFresh sample later tracker.maxSampleAge with
    | true => simp [Option.filter, hlater, fresh_earlier h hlater]
    | false => cases hnow : timestampIsFresh sample now tracker.maxSampleAge <;>
        simp [Option.filter, hlater, hnow]

/-- The endpoint of the last sample, while that is within the age limit. -/
def latestName (tracker : HapticCommandTracker) (now : ℤ)
    (samples : List (ByteText × SampleResult)) : ByteText :=
  match samples.getLast? with
  | none => []
  | some last => if timestampIsFresh last.2 now tracker.maxSampleAge then last.1 else []

/-- A reader that has read some samples, at a time. -/
structure Reads (tracker : HapticCommandTracker) (now : ℤ)
    (samples : List (ByteText × SampleResult)) (reader : HapticCommandReader) : Prop where
  tracked : ∀ endpoint, reader.trackedByEndpoint endpoint = lastOf tracker now samples endpoint
  latest : reader.latestEndpoint = latestName tracker now samples

theorem Reads.init (now : ℤ) : Reads tracker now [] {} := ⟨fun _ => rfl, rfl⟩

/-- The last sample is the last one of its endpoint. -/
theorem getLast?_filter {samples : List (ByteText × SampleResult)}
    {last : ByteText × SampleResult} (h : samples.getLast? = some last) :
    (samples.filter fun sample => sample.1 = last.1).getLast? = some last := by
  obtain ⟨earlier, rfl⟩ := List.getLast?_eq_some_iff.mp h
  rw [List.filter_append, List.filter_singleton, decide_eq_true rfl]
  exact List.getLast?_concat

/-- **The eviction**, at a later time. -/
theorem Reads.evict {now later : ℤ} {samples : List (ByteText × SampleResult)}
    {reader : HapticCommandReader} (h : Reads tracker now samples reader) (hle : now ≤ later) :
    Reads tracker later samples (reader.evict tracker later) := by
  refine ⟨fun endpoint => ?_, ?_⟩
  · rw [HapticCommandReader.evict]
    dsimp only
    rw [h.tracked]
    exact lastWithin_later hle _
  · -- The name is cleared as soon as the last sample is too old.
    rw [HapticCommandReader.evict, h.tracked, h.latest]
    unfold latestName
    cases hlast : samples.getLast? with
    | none =>
      obtain rfl := List.getLast?_eq_none_iff.mp hlast
      rfl
    | some last =>
      dsimp only
      cases hnow : timestampIsFresh last.2 now tracker.maxSampleAge with
      | true =>
        have hof : lastOf tracker now samples last.1 = some last.2 := by
          rw [lastOf, lastWithin, getLast?_filter hlast]
          simp [Option.filter, hnow]
        rw [if_pos rfl, hof]
      | false =>
        have hlater : ¬ timestampIsFresh last.2 later tracker.maxSampleAge = true := by
          intro hlater
          rw [fresh_earlier hle hlater] at hnow
          cases hnow
        rw [if_neg Bool.false_ne_true, if_neg hlater]
        split
        · rfl
        · split
          · rfl
          · rfl

/-- **A sample** that is fresh is the last one, and the last one of its endpoint. -/
theorem Reads.bucket {now : ℤ} {samples : List (ByteText × SampleResult)}
    {reader : HapticCommandReader} (h : Reads tracker now samples reader) (sample : SampleResult) :
    Reads tracker now
      (samples ++ ((HapticCommandReader.accepts tracker now sample).map fun endpoint =>
        (endpoint, sample)).toList)
      (HapticCommandReader.bucket tracker now reader sample) := by
  rw [HapticCommandReader.bucket]
  cases haccepts : HapticCommandReader.accepts tracker now sample with
  | none =>
    rw [Option.map_none, Option.toList_none, List.append_nil]
    exact h
  | some endpoint =>
    have hfresh : timestampIsFresh sample now tracker.maxSampleAge = true := by
      rw [HapticCommandReader.accepts] at haccepts
      split at haccepts
      · assumption
      · cases haccepts
    rw [Option.map_some, Option.toList_some]
    refine ⟨fun endpoint' => ?_, ?_⟩
    · dsimp only
      -- The sample is the last one of its endpoint, and changes no other endpoint.
      by_cases heq : endpoint = endpoint'
      · subst heq
        have hlast : ((samples ++ [(endpoint, sample)]).filter fun other =>
            other.1 = endpoint).getLast? = some (endpoint, sample) :=
          @getLast?_filter _ (endpoint, sample) List.getLast?_concat
        rw [Function.update_self, lastOf, lastWithin, hlast]
        simp [Option.filter, hfresh]
      · rw [Function.update_of_ne (Ne.symm heq), h.tracked, lastOf, lastOf, List.filter_append,
          List.filter_singleton, decide_eq_false heq]
        simp
    · rw [latestName, List.getLast?_concat]
      exact (if_pos hfresh).symm

theorem Reads.bucketAll {now : ℤ} (drained : List SampleResult)
    {samples : List (ByteText × SampleResult)} {reader : HapticCommandReader}
    (h : Reads tracker now samples reader) :
    Reads tracker now
      (samples ++ drained.filterMap fun sample =>
        (HapticCommandReader.accepts tracker now sample).map fun endpoint => (endpoint, sample))
      (drained.foldl (HapticCommandReader.bucket tracker now) reader) := by
  induction drained generalizing samples reader with
  | nil =>
    rw [List.filterMap_nil, List.append_nil]
    exact h
  | cons sample drained ih =>
    have hnext := ih (h.bucket sample)
    rw [List.append_assoc] at hnext
    rw [List.foldl_cons]
    convert hnext using 2
    cases haccepts : HapticCommandReader.accepts tracker now sample <;> simp [haccepts]

theorem bucketed_concat (updates : List Update) (u : Update) :
    bucketed tracker (updates ++ [u]) =
      if u.absent then [] else bucketed tracker updates ++ u.kept tracker := by
  rw [bucketed, sinceAbsent, List.reverse_concat, List.takeWhile_cons]
  cases u.absent with
  | true => rfl
  | false =>
    rw [Bool.not_false, if_pos rfl, if_neg Bool.false_ne_true, List.reverse_cons,
      List.flatMap_append, List.flatMap_singleton]
    rfl

/-- Nothing is lost: all that was fresh was bucketed. -/
theorem history_eq_bucketed {updates : List Update}
    (h : ∀ u ∈ sinceAbsent updates, ¬ u.Loses tracker) :
    history tracker updates = bucketed tracker updates := by
  refine List.flatMap_congr fun u hu => ?_
  have hkept := h u hu
  unfold Update.Loses at hkept
  unfold Update.kept
  split at hkept
  · exact not_not.mp hkept
  · rfl

/-- **One update.** -/
theorem Reads.update {now : ℤ} {updates : List Update} {reader : HapticCommandReader}
    (h : Reads tracker now (bucketed tracker updates) reader) {u : Update}
    (hle : now ≤ u.monotonicTimeNs) :
    Reads tracker u.monotonicTimeNs (bucketed tracker (updates ++ [u]))
      (reader.update tracker u) := by
  have hevicted := h.evict hle
  rw [HapticCommandReader.update, bucketed_concat, Update.absent, Update.kept, Update.fresh]
  cases u.drain with
  | threw samples =>
    rw [if_neg Bool.false_ne_true, List.append_nil]
    exact hevicted
  | returned present samples =>
    cases present with
    | false => exact Reads.init _
    | true => exact hevicted.bucketAll samples

/-- **All updates.** -/
theorem run_reads (updates : List Update) (u : Update)
    (h : (updates ++ [u]).Pairwise fun earlier later =>
      earlier.monotonicTimeNs ≤ later.monotonicTimeNs) :
    Reads tracker u.monotonicTimeNs (bucketed tracker (updates ++ [u]))
      (HapticCommandReader.run tracker (updates ++ [u])) := by
  induction updates using List.reverseRecOn generalizing u with
  | nil => exact Reads.update (Reads.init u.monotonicTimeNs) le_rfl
  | append_singleton updates last ih =>
    have hlast := ih last (List.pairwise_append.mp h).1
    have hle : last.monotonicTimeNs ≤ u.monotonicTimeNs :=
      (List.pairwise_append.mp h).2.2 last (by simp) u (by simp)
    rw [HapticCommandReader.run, List.foldl_append]
    exact hlast.update hle

end Proofs

/-! ### All histories -/

namespace HapticCommandReader

variable (tracker : HapticCommandTracker)

/-- What the reader should return at a time: for an endpoint its last fresh sample while that is
within the age limit, and without an endpoint the last fresh sample of any. -/
def LatestWins (now : ℤ) (samples : List (ByteText × SampleResult))
    (reader : HapticCommandReader) : Prop :=
  (∀ endpoint, reader.getData endpoint =
      (lastOf tracker now samples endpoint).map SampleResult.buffer) ∧
    reader.getLatestData = (lastWithin tracker now samples).map SampleResult.buffer

/-- The last fresh sample is too old, and that of the endpoint with the empty name is not. -/
def Outlived (now : ℤ) (samples : List (ByteText × SampleResult)) : Prop :=
  lastWithin tracker now samples = none ∧ lastOf tracker now samples [] ≠ none

variable {tracker}

theorem Reads.latestWins_iff {now : ℤ} {samples : List (ByteText × SampleResult)}
    {reader : HapticCommandReader} (h : Reads tracker now samples reader) :
    LatestWins tracker now samples reader ↔ ¬ Outlived tracker now samples := by
  have hdata : ∀ endpoint, reader.getData endpoint =
      (lastOf tracker now samples endpoint).map SampleResult.buffer := by
    intro endpoint
    rw [getData, h.tracked]
  have hlatest : reader.getLatestData =
      (lastOf tracker now samples (latestName tracker now samples)).map SampleResult.buffer := by
    rw [getLatestData, hdata, h.latest]
  rw [LatestWins, hlatest, and_iff_right hdata, Outlived]
  -- The name is that of the last sample, or the empty one.
  cases hlast : samples.getLast? with
  | none =>
    obtain rfl := List.getLast?_eq_none_iff.mp hlast
    exact iff_of_true rfl fun houtlived => houtlived.2 rfl
  | some last =>
    cases hfresh : timestampIsFresh last.2 now tracker.maxSampleAge with
    | true =>
      have hwithin : lastWithin tracker now samples = some last.2 := by
        rw [lastWithin, hlast]
        simp [Option.filter, hfresh]
      have hof : lastOf tracker now samples last.1 = some last.2 := by
        rw [lastOf, lastWithin, getLast?_filter hlast]
        simp [Option.filter, hfresh]
      have hname : latestName tracker now samples = last.1 := by
        rw [latestName, hlast]
        exact if_pos hfresh
      rw [hname, hof, hwithin]
      exact iff_of_true rfl fun houtlived => by cases houtlived.1
    | false =>
      have hwithin : lastWithin tracker now samples = none := by
        rw [lastWithin, hlast]
        simp [Option.filter, hfresh]
      have hname : latestName tracker now samples = [] := by
        rw [latestName, hlast]
        exact if_neg (by simp [hfresh])
      rw [hname, hwithin]
      cases lastOf tracker now samples [] <;> simp

variable (tracker) in
/-- **Haptic commands.**  In any history with times that do not decrease, after each update by which
no throw has lost a fresh sample since the collection was last absent: the reader returns what it
should iff the last fresh sample is not outlived by one of the endpoint with the empty name; and
what it returns for an endpoint is right. -/
theorem latest_wins_iff (updates : List Update)
    (htimes : updates.Pairwise fun earlier later =>
      earlier.monotonicTimeNs ≤ later.monotonicTimeNs) :
    ∀ before u after, updates = before ++ u :: after →
      (∀ lost ∈ sinceAbsent (before ++ [u]), ¬ lost.Loses tracker) →
      (LatestWins tracker u.monotonicTimeNs (history tracker (before ++ [u]))
          (run tracker (before ++ [u])) ↔
        ¬ Outlived tracker u.monotonicTimeNs (history tracker (before ++ [u]))) ∧
      ∀ endpoint, (run tracker (before ++ [u])).getData endpoint =
        (lastOf tracker u.monotonicTimeNs (history tracker (before ++ [u])) endpoint).map
          SampleResult.buffer := by
  intro before u after hsplit hkept
  have hreads : Reads tracker u.monotonicTimeNs (history tracker (before ++ [u]))
      (run tracker (before ++ [u])) := by
    have hpre : updates = before ++ [u] ++ after := by rw [hsplit, List.append_cons]
    rw [history_eq_bucketed hkept]
    exact run_reads before u (htimes.sublist (hpre ▸ List.sublist_append_left _ _))
  refine ⟨Reads.latestWins_iff hreads, fun endpoint => ?_⟩
  rw [getData, hreads.tracked]

end HapticCommandReader

/-- A tracker of commands whose first byte is the length of the endpoint's name, with an age limit
of a hundred. -/
def prefixTracker : HapticCommandTracker where
  maxSampleAge := some 100
  root
    | [] => none
    | n :: rest => some (some (rest.take n.toNat))

/-- A command for the endpoint with the empty name, and then one for `l` that is older. -/
def unnamedAndLeft : List Update :=
  [⟨100, .returned true [⟨[0, 7], 0, 95, 0⟩, ⟨[1, 108, 9], 0, 50, 0⟩]⟩, ⟨160, .returned true []⟩]

/-- When the last command is too old, the one it superseded comes back. -/
theorem superseded_command_returned :
    (unnamedAndLeft.map Update.monotonicTimeNs).IsChain (· ≤ ·) ∧
    history prefixTracker unnamedAndLeft =
      [([], ⟨[0, 7], 0, 95, 0⟩), ([108], ⟨[1, 108, 9], 0, 50, 0⟩)] ∧
    lastWithin prefixTracker 160 (history prefixTracker unnamedAndLeft) = none ∧
    (HapticCommandReader.run prefixTracker unnamedAndLeft).getLatestData = some [0, 7] := by
  decide

/-- A command that a throwing read has drained is not there at the next update. -/
example :
    let updates : List Update := [⟨100, .threw [⟨[0, 7], 0, 95, 0⟩]⟩, ⟨110, .returned true []⟩]
    lastWithin prefixTracker 110 (history prefixTracker updates) = some ⟨[0, 7], 0, 95, 0⟩ ∧
      (HapticCommandReader.run prefixTracker updates).getLatestData = none := by
  decide

/-- With the endpoint `r` in its place the reader is empty. -/
def rightAndLeft : List Update :=
  [⟨100, .returned true [⟨[1, 114, 7], 0, 95, 0⟩, ⟨[1, 108, 9], 0, 50, 0⟩]⟩,
    ⟨160, .returned true []⟩]

theorem expired_command_gone :
    HapticCommandReader.LatestWins prefixTracker 160 (history prefixTracker rightAndLeft)
        (HapticCommandReader.run prefixTracker rightAndLeft) ∧
      (HapticCommandReader.run prefixTracker rightAndLeft).getLatestData = none ∧
      (HapticCommandReader.run prefixTracker rightAndLeft).getData [114] = some [1, 114, 7] := by
  have hkept : ∀ lost ∈ sinceAbsent rightAndLeft, ¬ lost.Loses prefixTracker := by
    intro lost hlost
    rcases List.mem_pair.mp (show lost ∈ rightAndLeft from hlost) with rfl | rfl <;> exact id
  refine ⟨?_, rfl, rfl⟩
  refine ((HapticCommandReader.latest_wins_iff prefixTracker rightAndLeft (by decide)
    [⟨100, .returned true [⟨[1, 114, 7], 0, 95, 0⟩, ⟨[1, 108, 9], 0, 50, 0⟩]⟩]
    ⟨160, .returned true []⟩ [] rfl hkept).1.mpr ?_)
  exact fun houtlived => houtlived.2 rfl

end Haptics
