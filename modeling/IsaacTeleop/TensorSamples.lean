/-
Reading tensor samples.

A `SchemaTrackerBase` looks for its collection in the runtime's tensor list and drains it
through a cursor, the index of the last sample it read.  Around every query the runtime may
have changed in any way, and any query may fail.

The cursor is cleared whenever the collection is found and the tracker does not hold it as
its target at that list position.  A collection that was lost for one query, or that moved in
the list, is so read again from its first available sample.

* `SchemaTrackerBase.ensureCollection_ends`, `SchemaTrackerBase.readNextSample_ends` —
  everything one search and one read can do;
* `SchemaTrackerBase.Reaches.invariant` — what every run keeps as long as no collection that
  was read is found anew;
* `SchemaTrackerBase.samples_once_in_order` — the deliveries of such runs.
-/
import IsaacTeleop.ByteText

open ByteText

/-! ### The runtime -/

/-- A sample of a collection, with the metadata the runtime keeps of it. -/
structure TensorSample where
  sampleIndex : ℕ
  bytes : ByteText
  timestamp : ℤ
  arrivalTimestamp : ℤ
  rawDeviceTimestamp : ℤ
  deriving DecidableEq

/-- A collection: its properties and the samples still available, oldest first. -/
structure TensorCollection where
  identifier : ByteText
  tensorCollectionId : ℕ
  totalSampleSize : ℕ
  sampleBatchStride : ℕ
  samples : List TensorSample
  deriving DecidableEq

/-- What the runtime holds at the moment of a query: the generation number, and the
collections behind the positions of the tensor list. -/
structure RuntimeView where
  generation : ℕ
  listed : List TensorCollection
  deriving DecidableEq

/-- `XrResult`, as far as the tracker distinguishes results. -/
inductive XrResult where
  | success
  | tensorLost
  | failure (code : ℤ)
  deriving DecidableEq

def XrResult.code : XrResult → ℤ
  | .success => 0
  | .tensorLost => -1000849000
  | .failure code => code

/-- `XR_ERROR_INVALID_TENSOR_INDEX_NV`. -/
def XrResult.invalidTensorIndex : XrResult := .failure (-1000849001)

/-- The runtime over time: what it holds and what it answers at each query.  It may change
between any two queries, but the samples of one collection keep their increasing indices,
new ones come after all earlier ones, and only old ones go; and a batch has room for a
sample.  The times of a sample are converted after the query that handed it over, and a
conversion may fail too. -/
structure TensorRuntime where
  view : ℕ → RuntimeView
  result : ℕ → XrResult
  xrConvertTimeToTimespecTime : ℕ → ℤ → Except XrResult ℤ
  ascending : ∀ n, ∀ c ∈ (view n).listed,
    c.samples.Pairwise fun a b => a.sampleIndex < b.sampleIndex
  older : ∀ m n, m ≤ n → ∀ c ∈ (view m).listed, ∀ c' ∈ (view n).listed,
    c'.tensorCollectionId = c.tensorCollectionId → ∀ s ∈ c.samples, ∀ s' ∈ c'.samples,
      s'.sampleIndex ≤ s.sampleIndex → s' ∈ c.samples
  roomy : ∀ n, ∀ c ∈ (view n).listed, c.totalSampleSize ≤ c.sampleBatchStride

/-! ### The tracker -/

structure SchemaTrackerConfig where
  collectionId : ByteText
  maxFlatbufferSize : ℕ
  deriving DecidableEq

structure TargetCollection where
  index : ℕ
  id : ℕ
  deriving DecidableEq

/-- A sample with its data and its timestamps, as the caller gets it. -/
structure SampleResult where
  buffer : ByteText
  availableTimeLocalCommonClock : ℤ
  sampleTimeLocalCommonClock : ℤ
  sampleTimeRawDeviceClock : ℤ
  deriving DecidableEq

/-- A sample appended to the caller's vector, with where the runtime took it from. -/
structure Delivery where
  collectionId : ℕ
  sampleIndex : ℕ
  result : SampleResult
  deriving DecidableEq

/-- The tracker; beside its fields the number of queries it has made, everything it has
delivered, and the data of the samples whose times were not converted, with their collection. -/
structure SchemaTrackerBase where
  config : SchemaTrackerConfig
  targetCollection : Option TargetCollection := none
  sampleBatchStride : ℕ := 0
  sampleSize : ℕ := 0
  cachedGeneration : ℕ := 0
  lastSampleIndex : Option ℕ := none
  queries : ℕ := 0
  delivered : List Delivery := []
  refused : List (ℕ × ByteText) := []
  deriving DecidableEq

/-- What the search through the list positions ends in. -/
inductive Search where
  | found (index : ℕ) (collection : TensorCollection)
  | absent
  | failed (result : XrResult)
  deriving DecidableEq

namespace SchemaTrackerBase

def xrMaxTensorIdentifierSize : ℕ := 256

/-- `strncmp(a, b, n) == 0`: equal up to the first zero byte or the first `n` bytes. -/
def strncmpEq (a b : ByteText) (n : ℕ) : Bool :=
  (a.takeWhile (· ≠ 0)).take n == (b.takeWhile (· ≠ 0)).take n

section Operations

variable (runtime : TensorRuntime)

/-- What a query about a list position finds there. -/
def listedAt (query index : ℕ) : Except XrResult TensorCollection :=
  match runtime.result query with
  | .success =>
    match (runtime.view query).listed[index]? with
    | some collection => .ok collection
    | none => .error .invalidTensorIndex
  | result => .error result

/-- The loop over the list positions, with the number of the query it goes on with: the
answer and the number of the next query. -/
def search (collectionId : ByteText) : (remaining index query : ℕ) → Search × ℕ
  | 0, _, query => (.absent, query)
  | remaining + 1, index, query =>
    match listedAt runtime query index with
    | .error result => (.failed result, query + 1)
    | .ok collection =>
      if strncmpEq collection.identifier collectionId xrMaxTensorIdentifierSize then
        (.found index collection, query + 1)
      else search collectionId remaining (index + 1) (query + 1)

/-- A query of `ensure_collection` that did not succeed. -/
def unavailable (what : String) (result : XrResult) (tracker : SchemaTrackerBase) :
    Except ByteText Bool × SchemaTrackerBase :=
  match result with
  | .tensorLost => (.ok false, { tracker with targetCollection := none })
  | result => (.error (lit what ++ signed result.code), tracker)

/-- The collection with the identifier was found: check it and make it the target. -/
def adopt (index : ℕ) (collection : TensorCollection) (tracker : SchemaTrackerBase) :
    Except ByteText Bool × SchemaTrackerBase :=
  if collection.totalSampleSize > tracker.config.maxFlatbufferSize then
    (.error (lit "SchemaTracker: collection '" ++ tracker.config.collectionId ++
      lit "' reports totalSampleSize=" ++ decimal collection.totalSampleSize ++
      lit " which exceeds configured max_flatbuffer_size=" ++
      decimal tracker.config.maxFlatbufferSize), tracker)
  else
    (.ok true, { tracker with
      sampleBatchStride := collection.sampleBatchStride
      sampleSize := collection.totalSampleSize
      lastSampleIndex :=
        if tracker.targetCollection = some ⟨index, collection.tensorCollectionId⟩ then
          tracker.lastSampleIndex
        else none
      targetCollection := some ⟨index, collection.tensorCollectionId⟩ })

/-- The part of `ensure_collection` after the list is up to date. -/
def findCollection (tracker : SchemaTrackerBase) : Except ByteText Bool × SchemaTrackerBase :=
  let listing := tracker.queries
  let tracker := { tracker with queries := listing + 1 }
  match runtime.result listing with
  | .success =>
    let (answer, queries) := search runtime tracker.config.collectionId
      (runtime.view listing).listed.length 0 tracker.queries
    let tracker := { tracker with queries := queries }
    match answer with
    | .found index collection => tracker.adopt index collection
    | .absent => (.ok false, { tracker with targetCollection := none })
    | .failed result => unavailable "Failed to get collection properties, result=" result tracker
  | result => unavailable "Failed to get list properties, result=" result tracker

def ensureCollection (tracker : SchemaTrackerBase) : Except ByteText Bool × SchemaTrackerBase :=
  let latest := tracker.queries
  let tracker := { tracker with queries := latest + 1 }
  match runtime.result latest with
  | .success =>
    let latestGeneration := (runtime.view latest).generation
    if latestGeneration = tracker.cachedGeneration ∧ tracker.targetCollection.isSome then
      (.ok true, tracker)
    else if latestGeneration ≠ tracker.cachedGeneration then
      let update := tracker.queries
      let tracker := { tracker with queries := update + 1 }
      match runtime.result update with
      | .success => findCollection runtime { tracker with cachedGeneration := latestGeneration }
      | result => unavailable "Failed to update tensor list, result=" result tracker
    else findCollection runtime tracker
  | result => unavailable "Failed to get latest generation, result=" result tracker

/-- `startSampleIndex` of a data query. -/
def startSampleIndex (tracker : SchemaTrackerBase) : ℕ :=
  match tracker.lastSampleIndex with
  | some last => last + 1
  | none => 0

/-- What `xrGetTensorDataNV` answers: the next sample at or above the requested index. -/
def nextSample (collection : TensorCollection) (start : ℕ) : Option TensorSample :=
  collection.samples.find? fun sample => decide (start ≤ sample.sampleIndex)

/-- The data of a sample, trimmed to the size of one. -/
def sampleBuffer (tracker : SchemaTrackerBase) (sample : TensorSample) : ByteText :=
  ((sample.bytes ++ List.replicate tracker.sampleBatchStride 0).take
    tracker.sampleBatchStride).take tracker.sampleSize

def convertXrtimeToMonotonicNs (query : ℕ) (time : ℤ) : Except ByteText ℤ :=
  match runtime.xrConvertTimeToTimespecTime query time with
  | .ok ns => .ok ns
  | .error result =>
    .error (lit "xrConvertTimeToTimespecTimeKHR failed with code " ++ signed result.code)

def sampleResult (tracker : SchemaTrackerBase) (query : ℕ) (sample : TensorSample) :
    Except ByteText SampleResult := do
  let availableNs ← convertXrtimeToMonotonicNs runtime query sample.arrivalTimestamp
  let sampleNs ← convertXrtimeToMonotonicNs runtime query sample.timestamp
  .ok ⟨tracker.sampleBuffer sample, availableNs, sampleNs, sample.rawDeviceTimestamp⟩

/-- `read_next_sample`: a sample, or none where the source returns false. -/
def readNextSample (tracker : SchemaTrackerBase) :
    Except ByteText (Option Delivery) × SchemaTrackerBase :=
  match tracker.targetCollection with
  | none => (.ok none, tracker)
  | some target =>
    let query := tracker.queries
    let tracker := { tracker with queries := query + 1 }
    match listedAt runtime query target.index with
    | .error .tensorLost => (.ok none, { tracker with targetCollection := none })
    | .error result =>
      (.error (lit "[SchemaTracker] xrGetTensorDataNV failed, result=" ++ signed result.code),
        { tracker with targetCollection := none })
    | .ok collection =>
      match nextSample collection tracker.startSampleIndex with
      | none => (.ok none, tracker)
      | some sample =>
        if tracker.sampleBatchStride < tracker.sampleSize then (.ok none, tracker)
        else
          -- the cursor moves before the times are converted
          let tracker := { tracker with
            lastSampleIndex :=
              if tracker.lastSampleIndex.all fun last => last < sample.sampleIndex then
                some sample.sampleIndex
              else tracker.lastSampleIndex }
          match tracker.sampleResult runtime query sample with
          | .ok result =>
            (.ok (some ⟨collection.tensorCollectionId, sample.sampleIndex, result⟩), tracker)
          | .error what =>
            (.error what, { tracker with
              refused := tracker.refused ++
                [(collection.tensorCollectionId, tracker.sampleBuffer sample)] })

/-- The loop of `read_all_samples`, as long as the fuel lasts; without an answer it is still
draining. -/
def drain : ℕ → SchemaTrackerBase → Except ByteText (Option Bool) × SchemaTrackerBase
  | 0, tracker => (.ok none, tracker)
  | fuel + 1, tracker =>
    match readNextSample runtime tracker with
    | (.ok (some delivery), tracker) =>
      drain fuel { tracker with delivered := tracker.delivered ++ [delivery] }
    | (.ok none, tracker) => (.ok (some tracker.targetCollection.isSome), tracker)
    | (.error what, tracker) => (.error what, tracker)

def readAllSamples (fuel : ℕ) (tracker : SchemaTrackerBase) :
    Except ByteText (Option Bool) × SchemaTrackerBase :=
  match ensureCollection runtime tracker with
  | (.ok true, tracker) => drain runtime fuel tracker
  | (.ok false, tracker) => (.ok (some false), tracker)
  | (.error what, tracker) => (.error what, tracker)

end Operations

/-! ### Runs -/

/-- Between two calls, or in the loop of one. -/
inductive Phase where
  | between
  | draining
  deriving DecidableEq

/-- The runs of `read_all_samples` calls, search by search and read by read; every step is
made from a phase and a tracker that satisfy `P`. -/
inductive Reaches (runtime : TensorRuntime) (config : SchemaTrackerConfig)
    (P : Phase → SchemaTrackerBase → Prop) : Phase → SchemaTrackerBase → Prop
  | start : Reaches runtime config P .between { config := config }
  | ensured {t t' : SchemaTrackerBase} (h : Reaches runtime config P .between t)
      (hp : P .between t) (he : ensureCollection runtime t = (.ok true, t')) :
      Reaches runtime config P .draining t'
  | absent {t t' : SchemaTrackerBase} (h : Reaches runtime config P .between t)
      (hp : P .between t) (he : ensureCollection runtime t = (.ok false, t')) :
      Reaches runtime config P .between t'
  | searchRaised {t t' : SchemaTrackerBase} {what : ByteText}
      (h : Reaches runtime config P .between t) (hp : P .between t)
      (he : ensureCollection runtime t = (.error what, t')) :
      Reaches runtime config P .between t'
  | read {t t' : SchemaTrackerBase} {delivery : Delivery}
      (h : Reaches runtime config P .draining t) (hp : P .draining t)
      (hr : readNextSample runtime t = (.ok (some delivery), t')) :
      Reaches runtime config P .draining { t' with delivered := t'.delivered ++ [delivery] }
  | drained {t t' : SchemaTrackerBase} (h : Reaches runtime config P .draining t)
      (hp : P .draining t) (hr : readNextSample runtime t = (.ok none, t')) :
      Reaches runtime config P .between t'
  | readRaised {t t' : SchemaTrackerBase} {what : ByteText}
      (h : Reaches runtime config P .draining t) (hp : P .draining t)
      (hr : readNextSample runtime t = (.error what, t')) :
      Reaches runtime config P .between t'

variable {runtime : TensorRuntime} {config : SchemaTrackerConfig}

/-- The loop of a call stays within the runs. -/
theorem drain_reaches {fuel : ℕ} {t t' : SchemaTrackerBase}
    {answer : Except ByteText (Option Bool)}
    (h : Reaches runtime config (fun _ _ => True) .draining t)
    (hd : drain runtime fuel t = (answer, t')) (hanswer : answer ≠ .ok none) :
    Reaches runtime config (fun _ _ => True) .between t' := by
  induction fuel generalizing t with
  | zero =>
    obtain ⟨rfl, -⟩ := Prod.mk.inj hd
    exact absurd rfl hanswer
  | succ fuel ih =>
    simp only [drain] at hd
    split at hd
    · rename_i delivery t₁ hr
      exact ih (h.read trivial hr) hd
    · rename_i t₁ hr
      obtain ⟨-, rfl⟩ := Prod.mk.inj hd
      exact h.drained trivial hr
    · rename_i what t₁ hr
      obtain ⟨-, rfl⟩ := Prod.mk.inj hd
      exact h.readRaised trivial hr

/-- **Every call is a run:** what `read_all_samples` ends in is reached. -/
theorem readAllSamples_reaches {fuel : ℕ} {t : SchemaTrackerBase}
    (h : Reaches runtime config (fun _ _ => True) .between t)
    (hanswer : (readAllSamples runtime fuel t).1 ≠ .ok none) :
    Reaches runtime config (fun _ _ => True) .between (readAllSamples runtime fuel t).2 := by
  simp only [readAllSamples] at hanswer ⊢
  split at hanswer
  · rename_i t₁ he
    exact drain_reaches (h.ensured trivial he) (Prod.ext rfl rfl) hanswer
  · rename_i t₁ he
    exact h.absent trivial he
  · rename_i what t₁ he
    exact h.searchRaised trivial he

/-! ### When the cursor is right -/

/-- The collection that a call from this state searches for, finds and takes as its target,
with its list position.  The queries that come before the search have to succeed. -/
def finds (runtime : TensorRuntime) (t : SchemaTrackerBase) : Option (ℕ × TensorCollection) :=
  let latestGeneration := (runtime.view t.queries).generation
  let listing := if latestGeneration = t.cachedGeneration then t.queries + 1 else t.queries + 2
  if latestGeneration = t.cachedGeneration ∧ t.targetCollection.isSome then none
  else if ∀ query ≤ listing, t.queries ≤ query → runtime.result query = .success then
    match (search runtime t.config.collectionId (runtime.view listing).listed.length 0
      (listing + 1)).1 with
    | .found index collection =>
      if collection.totalSampleSize > t.config.maxFlatbufferSize then none
      else some (index, collection)
    | .absent => none
    | .failed _ => none
  else none

/-- The collection was delivered from before. -/
def WasRead (t : SchemaTrackerBase) (collectionId : ℕ) : Prop :=
  ∃ delivery ∈ t.delivered, delivery.collectionId = collectionId

instance (t : SchemaTrackerBase) (collectionId : ℕ) : Decidable (t.WasRead collectionId) :=
  inferInstanceAs (Decidable (∃ delivery ∈ t.delivered, _))

/-- The data query of a read is answered from the target. -/
def AnsweredFromTarget (runtime : TensorRuntime) (t : SchemaTrackerBase) : Prop :=
  ∀ target ∈ t.targetCollection,
    ∀ collection ∈ (listedAt runtime t.queries target.index).toOption,
      collection.tensorCollectionId = target.id

/-- The times of the sample that a read takes are converted. -/
def TimesConvert (runtime : TensorRuntime) (t : SchemaTrackerBase) : Prop :=
  ∀ target ∈ t.targetCollection,
    ∀ collection ∈ (listedAt runtime t.queries target.index).toOption,
      ∀ sample ∈ nextSample collection t.startSampleIndex,
        (t.sampleResult runtime t.queries sample).isOk = true

/-- What a search finds is the target the tracker holds, at the position it holds it at, or a
collection nothing was delivered from; and a read is answered from the target, with times that
are converted. -/
def Settled (runtime : TensorRuntime) : Phase → SchemaTrackerBase → Prop
  | .between, t => ∀ found ∈ finds runtime t,
      t.targetCollection = some ⟨found.1, found.2.tensorCollectionId⟩ ∨
        ¬ t.WasRead found.2.tensorCollectionId
  | .draining, t => AnsweredFromTarget runtime t ∧ TimesConvert runtime t

instance (t : SchemaTrackerBase) : Decidable (AnsweredFromTarget runtime t) :=
  inferInstanceAs (Decidable (∀ target ∈ t.targetCollection, ∀ _ ∈ _, _))

instance (t : SchemaTrackerBase) : Decidable (TimesConvert runtime t) :=
  inferInstanceAs (Decidable (∀ target ∈ t.targetCollection, ∀ _ ∈ _, ∀ _ ∈ _, _))

instance (phase : Phase) (t : SchemaTrackerBase) : Decidable (Settled runtime phase t) :=
  match phase with
  | .between => inferInstanceAs (Decidable (∀ found ∈ finds runtime t, _ ∨ _))
  | .draining => inferInstanceAs (Decidable (_ ∧ _))

/-! ### Everything one search and one read can do -/

theorem listedAt_ok {query index : ℕ} {collection : TensorCollection}
    (h : listedAt runtime query index = .ok collection) :
    collection ∈ (runtime.view query).listed := by
  simp only [listedAt] at h
  split at h
  · split at h
    · rename_i found hfound
      cases h
      exact List.mem_of_getElem? hfound
    · cases h
  · cases h

/-- What a search finds stood in the list at one of its queries. -/
theorem search_found {collectionId : ByteText} {remaining index query : ℕ} {i : ℕ}
    {collection : TensorCollection}
    (h : (search runtime collectionId remaining index query).1 = .found i collection) :
    ∃ n, collection ∈ (runtime.view n).listed := by
  induction remaining generalizing index query with
  | zero => simp [search] at h
  | succ remaining ih =>
    rw [search] at h
    split at h
    · simp at h
    · rename_i c hlisted
      split at h
      · obtain ⟨-, rfl⟩ := Search.found.inj h
        exact ⟨query, listedAt_ok hlisted⟩
      · exact ih h

theorem search_query_le (collectionId : ByteText) (remaining index query : ℕ) :
    query ≤ (search runtime collectionId remaining index query).2 := by
  induction remaining generalizing index query with
  | zero => exact le_refl _
  | succ remaining ih =>
    rw [search]
    split
    · exact Nat.le_succ _
    · split
      · exact Nat.le_succ _
      · exact (Nat.le_succ _).trans (ih (index + 1) (query + 1))

/-- Everything one search can do to the tracker. -/
inductive Ensured (runtime : TensorRuntime) (t : SchemaTrackerBase) :
    Except ByteText Bool → SchemaTrackerBase → Prop
  | kept (q : ℕ) (later : t.queries ≤ q) (held : t.targetCollection.isSome) :
      Ensured runtime t (.ok true) { t with queries := q }
  | found (q generation index : ℕ) (collection : TensorCollection) (later : t.queries ≤ q)
      (finds : finds runtime t = some (index, collection))
      (listed : ∃ n, collection ∈ (runtime.view n).listed) :
      Ensured runtime t (.ok true) { t with
        queries := q
        cachedGeneration := generation
        sampleBatchStride := collection.sampleBatchStride
        sampleSize := collection.totalSampleSize
        lastSampleIndex :=
          if t.targetCollection = some ⟨index, collection.tensorCollectionId⟩ then
            t.lastSampleIndex
          else none
        targetCollection := some ⟨index, collection.tensorCollectionId⟩ }
  | gone (q generation : ℕ) :
      Ensured runtime t (.ok false)
        { t with queries := q, cachedGeneration := generation, targetCollection := none }
  | raised (what : ByteText) (q generation : ℕ) (later : t.queries ≤ q) :
      Ensured runtime t (.error what) { t with queries := q, cachedGeneration := generation }

variable {t t' : SchemaTrackerBase}

theorem unavailable_ensured {what : String} {result : XrResult} {q : ℕ} (generation : ℕ)
    (hlater : t.queries ≤ q) :
    Ensured runtime t
      (unavailable what result { t with queries := q, cachedGeneration := generation }).1
      (unavailable what result { t with queries := q, cachedGeneration := generation }).2 := by
  simp only [unavailable]
  split
  · exact .gone q generation
  · exact .raised _ q generation hlater

/-- The search, once the generation is known and the list is up to date. -/
theorem findCollection_ensured (listing generation : ℕ) (hlater : t.queries ≤ listing)
    (hfinds : runtime.result listing = .success → ∀ index collection,
      (search runtime t.config.collectionId (runtime.view listing).listed.length 0
        (listing + 1)).1 = .found index collection →
      ¬ collection.totalSampleSize > t.config.maxFlatbufferSize →
      finds runtime t = some (index, collection)) :
    Ensured runtime t
      (findCollection runtime
        { t with queries := listing, cachedGeneration := generation }).1
      (findCollection runtime
        { t with queries := listing, cachedGeneration := generation }).2 := by
  simp only [findCollection]
  split
  · rename_i hlisting
    -- The search only moves the count of the queries forward.
    have hq : t.queries ≤ (search runtime t.config.collectionId
        (runtime.view listing).listed.length 0 (listing + 1)).2 :=
      (hlater.trans (Nat.le_succ _)).trans (search_query_le ..)
    split
    · rename_i index collection hfound
      simp only [adopt]
      split
      · exact .raised _ _ generation hq
      · rename_i hfits
        exact .found _ generation index collection hq
          (hfinds hlisting index collection hfound hfits) (search_found hfound)
    · exact .gone _ generation
    · exact unavailable_ensured _ hq
  · exact unavailable_ensured _ (hlater.trans (Nat.le_succ _))

/-- **Everything one search can do.** -/
theorem ensureCollection_ends (runtime : TensorRuntime) (t : SchemaTrackerBase) :
    Ensured runtime t (ensureCollection runtime t).1 (ensureCollection runtime t).2 := by
  simp only [ensureCollection]
  split
  · rename_i hlatest
    split
    · rename_i hheld
      exact .kept _ (Nat.le_succ _) hheld.2
    · rename_i hheld
      split
      · rename_i hnew
        split
        · rename_i hupdate
          refine findCollection_ensured (t := t) (t.queries + 1 + 1) _ (by omega) ?_
          intro hlisting index collection hfound hfits
          -- The generation, the update of the list and the listing all answered.
          have hqueries : ∀ query ≤ t.queries + 2, t.queries ≤ query →
              runtime.result query = .success := by
            intro query hle hge
            obtain rfl | rfl | rfl : query = t.queries ∨ query = t.queries + 1 ∨
                query = t.queries + 2 := by omega
            · exact hlatest
            · exact hupdate
            · exact hlisting
          simp only [finds, if_neg hheld, if_neg hnew, if_pos hqueries]
          rw [hfound]
          exact if_neg hfits
        · exact unavailable_ensured (t := t) (q := t.queries + 1 + 1) t.cachedGeneration
            (by omega)
      · -- The generation is known, so the list is searched without an update.
        rename_i hsame
        have hsame : (runtime.view t.queries).generation = t.cachedGeneration :=
          Decidable.not_not.mp hsame
        refine findCollection_ensured (t := t) (t.queries + 1) t.cachedGeneration (by omega) ?_
        intro hlisting index collection hfound hfits
        have hqueries : ∀ query ≤ t.queries + 1, t.queries ≤ query →
            runtime.result query = .success := by
          intro query hle hge
          obtain rfl | rfl : query = t.queries ∨ query = t.queries + 1 := by omega
          · exact hlatest
          · exact hlisting
        simp only [finds, if_neg hheld, if_pos hsame, if_pos hqueries]
        rw [hfound]
        exact if_neg hfits
  · exact unavailable_ensured (t := t) (q := t.queries + 1) t.cachedGeneration (by omega)

/-- Everything one read can do to a tracker with a target. -/
inductive Read (runtime : TensorRuntime) (t : SchemaTrackerBase) (target : TargetCollection) :
    Except ByteText (Option Delivery) → SchemaTrackerBase → Prop
  | sample (collection : TensorCollection) (sample : TensorSample)
      (listed : listedAt runtime t.queries target.index = .ok collection)
      (next : nextSample collection t.startSampleIndex = some sample) (result : SampleResult)
      (converted : t.sampleResult runtime t.queries sample = .ok result) :
      Read runtime t target
        (.ok (some ⟨collection.tensorCollectionId, sample.sampleIndex, result⟩))
        { t with queries := t.queries + 1, lastSampleIndex := some sample.sampleIndex }
  | refused (collection : TensorCollection) (sample : TensorSample)
      (listed : listedAt runtime t.queries target.index = .ok collection)
      (next : nextSample collection t.startSampleIndex = some sample) (what : ByteText)
      (failed : t.sampleResult runtime t.queries sample = .error what) :
      Read runtime t target (.error what)
        { t with
          queries := t.queries + 1
          lastSampleIndex := some sample.sampleIndex
          refused := t.refused ++ [(collection.tensorCollectionId, t.sampleBuffer sample)] }
  | exhausted (answered : ∃ collection, listedAt runtime t.queries target.index = .ok collection)
      (empty : ∀ collection, listedAt runtime t.queries target.index = .ok collection →
        t.sampleSize ≤ t.sampleBatchStride → nextSample collection t.startSampleIndex = none) :
      Read runtime t target (.ok none) { t with queries := t.queries + 1 }
  | lost (result : XrResult) (failed : listedAt runtime t.queries target.index = .error result) :
      Read runtime t target (.ok none)
        { t with queries := t.queries + 1, targetCollection := none }
  | raised (what : ByteText) (result : XrResult)
      (failed : listedAt runtime t.queries target.index = .error result) :
      Read runtime t target (.error what)
        { t with queries := t.queries + 1, targetCollection := none }

theorem nextSample_some {collection : TensorCollection} {start : ℕ} {sample : TensorSample}
    (h : nextSample collection start = some sample) :
    sample ∈ collection.samples ∧ start ≤ sample.sampleIndex := by
  refine ⟨List.mem_of_find?_eq_some h, ?_⟩
  simpa using List.find?_some h

/-- A sample at or above the requested index lies above the cursor. -/
theorem above_cursor {index : ℕ} (h : t.startSampleIndex ≤ index) :
    (t.lastSampleIndex.all fun last => last < index) = true := by
  rw [startSampleIndex] at h
  split at h
  · rename_i last hlast
    rw [hlast, Option.all_some, decide_eq_true_eq]
    omega
  · rename_i hlast
    rw [hlast]
    rfl

/-- **Everything one read can do.** -/
theorem readNextSample_ends (runtime : TensorRuntime) {target : TargetCollection}
    (htarget : t.targetCollection = some target) :
    Read runtime t target (readNextSample runtime t).1 (readNextSample runtime t).2 := by
  rw [readNextSample]
  split
  · rename_i hnone
    rw [htarget] at hnone
    cases hnone
  · rename_i held hheld
    obtain rfl : held = target := by
      rw [htarget] at hheld
      exact (Option.some.inj hheld).symm
    dsimp only
    split
    · rename_i hfailed
      exact .lost _ hfailed
    · rename_i result _ hfailed
      exact .raised _ result hfailed
    · rename_i collection hlisted
      split
      · -- The listed collection has no sample above the cursor.
        rename_i hnext
        refine .exhausted ⟨collection, hlisted⟩ fun c hc _ => ?_
        rw [hlisted] at hc
        cases hc
        exact hnext
      · rename_i sample hnext
        split
        · -- A batch too small for the sample hands out nothing.
          rename_i hsmall
          exact .exhausted ⟨collection, hlisted⟩ fun c hc hroom =>
            absurd hsmall (Nat.not_lt.mpr hroom)
        · rw [if_pos (above_cursor (t := t) (nextSample_some hnext).2)]
          split
          · rename_i result hresult
            exact Read.sample (t := t) collection sample hlisted hnext result hresult
          · -- The cursor has moved on before the time is converted.
            rename_i what hwhat
            exact Read.refused (t := t) collection sample hlisted hnext what hwhat

/-! ### What settled runs keep -/

/-- The indices delivered from a collection, in order. -/
def deliveredFrom (t : SchemaTrackerBase) (collectionId : ℕ) : List ℕ :=
  (t.delivered.filter fun delivery => delivery.collectionId = collectionId).map
    Delivery.sampleIndex

theorem mem_deliveredFrom {collectionId index : ℕ} :
    index ∈ t.deliveredFrom collectionId ↔ ∃ delivery ∈ t.delivered,
      delivery.collectionId = collectionId ∧ delivery.sampleIndex = index := by
  simp [deliveredFrom, and_assoc]

theorem wasRead_iff {collectionId : ℕ} :
    t.WasRead collectionId ↔ ∃ index, index ∈ t.deliveredFrom collectionId := by
  constructor
  · rintro ⟨delivery, hmem, hid⟩
    exact ⟨delivery.sampleIndex, mem_deliveredFrom.mpr ⟨delivery, hmem, hid, rfl⟩⟩
  · rintro ⟨index, hindex⟩
    obtain ⟨delivery, hmem, hid, -⟩ := mem_deliveredFrom.mp hindex
    exact ⟨delivery, hmem, hid⟩

/-- The cursor of a target: everything delivered from it lies below, and everything below
that is still available was delivered. -/
structure Cursor (runtime : TensorRuntime) (t : SchemaTrackerBase) (target : TargetCollection) :
    Prop where
  roomy : t.sampleSize ≤ t.sampleBatchStride
  below : ∀ index ∈ t.deliveredFrom target.id, index < t.startSampleIndex
  begun : t.lastSampleIndex ≠ none → t.WasRead target.id
  covered : ∀ n, t.queries ≤ n → ∀ collection ∈ (runtime.view n).listed,
    collection.tensorCollectionId = target.id → ∀ sample ∈ collection.samples,
      sample.sampleIndex < t.startSampleIndex → sample.sampleIndex ∈ t.deliveredFrom target.id

/-- What settled runs keep. -/
structure Kept (runtime : TensorRuntime) (t : SchemaTrackerBase) : Prop where
  ascending : ∀ collectionId, (t.deliveredFrom collectionId).Pairwise (· < ·)
  cursor : ∀ target, t.targetCollection = some target → Cursor runtime t target

/-- Later queries do not move the cursor. -/
theorem Cursor.later {target : TargetCollection} (h : Cursor runtime t target) {q g : ℕ}
    (hq : t.queries ≤ q) :
    Cursor runtime { t with queries := q, cachedGeneration := g } target :=
  ⟨h.roomy, h.below, h.begun, fun n hn => h.covered n (hq.trans hn)⟩

theorem Kept.ensure (h : Kept runtime t) (hp : Settled runtime .between t)
    {answer : Except ByteText Bool} (he : Ensured runtime t answer t') : Kept runtime t' := by
  cases he with
  | kept q later held =>
    refine ⟨h.ascending, fun target htarget => ?_⟩
    exact (h.cursor target htarget).later (g := t.cachedGeneration) later
  | gone q generation => exact ⟨h.ascending, by simp⟩
  | raised what q generation later =>
    refine ⟨h.ascending, fun target htarget => ?_⟩
    exact (h.cursor target htarget).later later
  | found q generation index collection later finds listed =>
    refine ⟨h.ascending, ?_⟩
    intro target htarget
    obtain rfl := Option.some.inj htarget
    obtain ⟨n, hlisted⟩ := listed
    have hroomy := runtime.roomy n collection hlisted
    by_cases hheld : t.targetCollection = some ⟨index, collection.tensorCollectionId⟩
    · -- found where it was: the cursor stays
      have hcursor := h.cursor _ hheld
      simp only [if_pos hheld]
      exact ⟨hroomy, hcursor.below, hcursor.begun,
        fun m hm => hcursor.covered m (later.trans hm)⟩
    · -- found anew: nothing was delivered from it
      have hunread : ¬ t.WasRead collection.tensorCollectionId :=
        (hp (index, collection) finds).resolve_left hheld
      simp only [if_neg hheld]
      refine ⟨hroomy, ?_, by simp, ?_⟩
      · intro i hi
        exact absurd (wasRead_iff.mpr ⟨i, hi⟩) hunread
      · intro m _ c _ _ sample _ hlt
        exact absurd hlt (Nat.not_lt_zero _)

/-- The next sample is the first at or above the requested index. -/
theorem nextSample_least {n : ℕ} {collection : TensorCollection}
    (hlisted : collection ∈ (runtime.view n).listed) {start : ℕ} {sample other : TensorSample}
    (h : nextSample collection start = some sample) (hmem : other ∈ collection.samples)
    (hstart : start ≤ other.sampleIndex) : sample.sampleIndex ≤ other.sampleIndex := by
  have hascending := runtime.ascending n collection hlisted
  obtain ⟨-, before, after, hsplit, hbefore⟩ := List.find?_eq_some_iff_append.mp h
  rw [hsplit] at hmem hascending
  rcases List.mem_append.mp hmem with hin | hin
  · have hbelow := hbefore other hin
    simp only [Bool.not_eq_true', decide_eq_false_iff_not] at hbelow
    exact absurd hstart hbelow
  · rcases List.mem_cons.mp hin with rfl | hin
    · exact le_refl _
    · have hcons := (List.pairwise_append.mp hascending).2.1
      exact ((List.pairwise_cons.mp hcons).1 other hin).le

theorem Kept.read {target : TargetCollection} (h : Kept runtime t)
    (hp : Settled runtime .draining t) (htarget : t.targetCollection = some target)
    {delivery : Delivery} (hr : Read runtime t target (.ok (some delivery)) t') :
    Kept runtime { t' with delivered := t'.delivered ++ [delivery] } := by
  cases hr with
  | sample collection sample listed next result converted =>
    have hcursor := h.cursor target htarget
    have hid : collection.tensorCollectionId = target.id :=
      hp.1 target htarget collection (by simp [listed, Except.toOption])
    obtain ⟨hmem, hstart⟩ := nextSample_some next
    have hfrom : ∀ r, deliveredFrom
        { t with
          queries := t.queries + 1
          lastSampleIndex := some sample.sampleIndex
          delivered := t.delivered ++
            [⟨collection.tensorCollectionId, sample.sampleIndex, result⟩] } r =
        if r = target.id then t.deliveredFrom r ++ [sample.sampleIndex]
        else t.deliveredFrom r := by
      intro r
      by_cases hr : r = target.id
      · simp [deliveredFrom, hid, hr]
      · simp [deliveredFrom, hid, hr, Ne.symm hr]
    refine ⟨?_, ?_⟩
    · intro r
      rw [hfrom]
      split
      · rename_i hr
        refine List.pairwise_append.mpr ⟨h.ascending r, List.pairwise_singleton _ _, ?_⟩
        intro a ha b hb
        rw [List.mem_singleton.mp hb]
        exact lt_of_lt_of_le (hcursor.below a (hr ▸ ha)) hstart
      · exact h.ascending r
    · intro target' htarget'
      obtain rfl : target' = target := by
        have heq : t.targetCollection = some target' := htarget'
        rw [htarget] at heq
        exact (Option.some.inj heq).symm
      refine ⟨hcursor.roomy, ?_, ?_, ?_⟩
      · intro index hindex
        rw [hfrom, if_pos rfl, List.mem_append, List.mem_singleton] at hindex
        have hnew : ∀ i, i ≤ sample.sampleIndex → i < sample.sampleIndex + 1 := by omega
        rcases hindex with hindex | rfl
        · exact hnew index ((hcursor.below index hindex).le.trans hstart)
        · exact hnew _ (le_refl _)
      · intro _
        exact wasRead_iff.mpr ⟨sample.sampleIndex, by rw [hfrom]; simp⟩
      · -- what is available below the new cursor was available at this query
        intro n hn c hc hcid s hs hlt
        have hle : s.sampleIndex ≤ sample.sampleIndex := Nat.le_of_lt_succ hlt
        have hlater : t.queries ≤ n := (Nat.le_succ _).trans hn
        have hold : s ∈ collection.samples :=
          runtime.older t.queries n hlater collection (listedAt_ok listed) c hc (hcid.trans hid.symm)
            sample hmem s hs hle
        rw [hfrom, if_pos rfl, List.mem_append, List.mem_singleton]
        by_cases hbelow : s.sampleIndex < t.startSampleIndex
        · exact .inl (hcursor.covered t.queries (le_refl _) collection (listedAt_ok listed) hid
            s hold hbelow)
        · exact .inr (le_antisymm hle
            (nextSample_least (listedAt_ok listed) next hold (Nat.le_of_not_lt hbelow)))

/-- A read that delivers nothing leaves what was delivered, and a target only if it held. -/
theorem Kept.afterRead (h : Kept runtime t) (hp : Settled runtime .draining t)
    {answer : Except ByteText (Option Delivery)}
    (hnone : ∀ delivery, answer ≠ .ok (some delivery))
    (hr : readNextSample runtime t = (answer, t')) : Kept runtime t' := by
  rcases htarget : t.targetCollection with _ | target
  · rw [readNextSample, htarget] at hr
    obtain ⟨-, rfl⟩ := Prod.mk.inj hr
    exact h
  · have hread := readNextSample_ends runtime htarget
    rw [hr] at hread
    cases hread with
    | sample collection sample listed next result converted => exact absurd rfl (hnone _)
    | refused collection sample listed next what failed =>
      -- a settled read converts the times
      have hok := hp.2 target htarget collection (by simp [listed, Except.toOption]) sample next
      rw [failed] at hok
      cases hok
    | exhausted answered empty =>
      refine ⟨h.ascending, fun target' htarget' => ?_⟩
      exact (h.cursor target' htarget').later (g := t.cachedGeneration) (Nat.le_succ _)
    | lost result failed => exact ⟨h.ascending, by simp⟩
    | raised what result failed => exact ⟨h.ascending, by simp⟩

theorem Kept.afterEnsure (h : Kept runtime t) (hp : Settled runtime .between t)
    {answer : Except ByteText Bool} (he : ensureCollection runtime t = (answer, t')) :
    Kept runtime t' := by
  have hends := ensureCollection_ends runtime t
  rw [he] at hends
  exact h.ensure hp hends

/-- **What every settled run keeps.** -/
theorem Reaches.invariant {phase : Phase} (h : Reaches runtime config (Settled runtime) phase t) :
    Kept runtime t := by
  induction h with
  | start => exact ⟨fun r => List.Pairwise.nil, by simp⟩
  | ensured h hp he ih => exact ih.afterEnsure hp he
  | absent h hp he ih => exact ih.afterEnsure hp he
  | searchRaised h hp he ih => exact ih.afterEnsure hp he
  | @read t t' delivery h hp hr ih =>
    rcases htarget : t.targetCollection with _ | target
    · rw [readNextSample, htarget] at hr
      simp at hr
    · have hread := readNextSample_ends runtime htarget
      rw [hr] at hread
      exact ih.read hp htarget hread
  | drained h hp hr ih => exact ih.afterRead hp (by simp) hr
  | readRaised h hp hr ih => exact ih.afterRead hp (by simp) hr

/-- **Samples are delivered once and in order, as long as no collection that was read is found
anew.**  In every such run the indices delivered from one runtime id strictly increase; when
the loop ends with the target still there, every sample then available of it was delivered;
and a collection that nothing was delivered from is read from its first available sample. -/
theorem samples_once_in_order (runtime : TensorRuntime) (config : SchemaTrackerConfig)
    (phase : Phase) (t : SchemaTrackerBase)
    (h : Reaches runtime config (Settled runtime) phase t) :
    (∀ collectionId, (t.deliveredFrom collectionId).Pairwise (· < ·)) ∧
      (Settled runtime .draining t → ∀ t' target collection,
        readNextSample runtime t = (.ok none, t') → t'.targetCollection = some target →
        listedAt runtime t.queries target.index = .ok collection →
        ∀ sample ∈ collection.samples, sample.sampleIndex ∈ t'.deliveredFrom target.id) ∧
      (Settled runtime .draining t → ∀ target collection first rest,
        t.targetCollection = some target → ¬ t.WasRead target.id →
        listedAt runtime t.queries target.index = .ok collection →
        collection.samples = first :: rest →
        ∃ delivery t', readNextSample runtime t = (.ok (some delivery), t') ∧
          delivery.sampleIndex = first.sampleIndex) := by
  have hkept := h.invariant
  refine ⟨hkept.ascending, ?_, ?_⟩
  · intro hsettled t' target collection hr htarget' hlisted sample hsample
    rcases htarget : t.targetCollection with _ | held
    · rw [readNextSample, htarget] at hr
      obtain ⟨-, rfl⟩ := Prod.mk.inj hr
      simp [htarget] at htarget'
    · have hread := readNextSample_ends runtime htarget
      rw [hr] at hread
      cases hread with
      | lost result failed => simp at htarget'
      | exhausted answered empty =>
        obtain rfl : held = target := by simpa [htarget] using htarget'
        have hcursor := hkept.cursor held htarget
        have hid : collection.tensorCollectionId = held.id :=
          hsettled.1 held htarget collection (by simp [hlisted, Except.toOption])
        -- the query found nothing at or above the cursor
        have hbelow : sample.sampleIndex < t.startSampleIndex := by
          have hnone := List.find?_eq_none.mp (empty collection hlisted hcursor.roomy) sample hsample
          simpa using hnone
        exact hcursor.covered t.queries (le_refl _) collection (listedAt_ok hlisted) hid sample
          hsample hbelow
  · intro hsettled target collection first rest htarget hunread hlisted hsamples
    have hcursor := hkept.cursor target htarget
    have hfresh : t.lastSampleIndex = none := by
      by_contra hsome
      exact hunread (hcursor.begun hsome)
    have hfirst : nextSample collection t.startSampleIndex = some first := by
      simp [nextSample, hsamples, startSampleIndex, hfresh]
    have hread := readNextSample_ends runtime htarget
    generalize hr : readNextSample runtime t = result at hread
    obtain ⟨answer, t'⟩ := result
    cases hread with
    | sample collection' sample listed next result converted =>
      rw [hlisted] at listed
      cases listed
      rw [hfirst] at next
      obtain rfl := Option.some.inj next
      exact ⟨_, _, rfl, rfl⟩
    | refused collection' sample listed next what failed =>
      have hok := hsettled.2 target htarget collection' (by simp [listed, Except.toOption]) sample
        next
      rw [failed] at hok
      cases hok
    | exhausted answered empty =>
      have hnone := empty collection hlisted hcursor.roomy
      rw [hfirst] at hnone
      cases hnone
    | lost result failed =>
      rw [hlisted] at failed
      cases failed
    | raised what result failed =>
      rw [hlisted] at failed
      cases failed

/-! ### What a call takes -/

def collectionInstanceId (t : SchemaTrackerBase) : Option ℕ := t.targetCollection.map (·.id)

/-- The samples that a call has appended to the caller's vector. -/
def samplesSince (t t' : SchemaTrackerBase) : List SampleResult :=
  (t'.delivered.drop t.delivered.length).map Delivery.result

/-- The collection has handed over a sample with these bytes, delivered or lost by its times. -/
def Took (t : SchemaTrackerBase) (collectionId : ℕ) (bytes : ByteText) : Prop :=
  (∃ delivery ∈ t.delivered,
    delivery.collectionId = collectionId ∧ delivery.result.buffer = bytes) ∨
  (collectionId, bytes) ∈ t.refused

instance (t : SchemaTrackerBase) (collectionId : ℕ) (bytes : ByteText) :
    Decidable (t.Took collectionId bytes) :=
  inferInstanceAs (Decidable ((∃ delivery ∈ t.delivered, _) ∨ _))

/-- The instance that a call drains. -/
def drains (runtime : TensorRuntime) (t : SchemaTrackerBase) : Option ℕ :=
  match ensureCollection runtime t with
  | (.ok true, t) => t.collectionInstanceId
  | _ => none

/-- Whether the data queries of the loop are answered from the target. -/
def drainsTarget (runtime : TensorRuntime) : ℕ → SchemaTrackerBase → Bool
  | 0, _ => true
  | fuel + 1, t =>
    decide (AnsweredFromTarget runtime t) &&
      match readNextSample runtime t with
      | (.ok (some delivery), t) =>
        drainsTarget runtime fuel { t with delivered := t.delivered ++ [delivery] }
      | _ => true

/-- Whether the data queries of a call are answered from the target. -/
def readsTarget (runtime : TensorRuntime) (fuel : ℕ) (t : SchemaTrackerBase) : Bool :=
  match ensureCollection runtime t with
  | (.ok true, t) => drainsTarget runtime fuel t
  | _ => true

/-- What the loop leaves of a tracker with a target: all it took is from the target, and the
target is still there when it ends normally, or when the times of a sample were not converted. -/
structure Drained (runtime : TensorRuntime) (t : SchemaTrackerBase) (target : TargetCollection)
    (answer : Except ByteText (Option Bool)) (t' : SchemaTrackerBase) : Prop where
  delivered : ∃ new, t'.delivered = t.delivered ++ new ∧
    ∀ delivery ∈ new, delivery.collectionId = target.id
  refused : t'.refused = t.refused ∨ ∃ what bytes, answer = .error what ∧
    t'.refused = t.refused ++ [(target.id, bytes)]
  held : t'.targetCollection = none ∨ t'.targetCollection = some target
  lost : answer = .ok (some false) → t'.targetCollection = none
  complete : answer = .ok (some true) → t'.targetCollection = some target ∧
    ∃ collection, listedAt runtime (t'.queries - 1) target.index = .ok collection ∧
      collection.tensorCollectionId = target.id
  raised : ∀ what, answer = .error what → t'.targetCollection = some target →
    ∃ bytes, (target.id, bytes) ∈ t'.refused

theorem drain_drained {fuel : ℕ} {target : TargetCollection} {answer : Except ByteText (Option Bool)}
    (htarget : t.targetCollection = some target) (hreads : drainsTarget runtime fuel t = true)
    (hd : drain runtime fuel t = (answer, t')) : Drained runtime t target answer t' := by
  induction fuel generalizing t with
  | zero =>
    obtain ⟨rfl, rfl⟩ := Prod.mk.inj hd
    exact ⟨⟨[], by simp, List.forall_mem_nil _⟩, .inl rfl, .inr htarget, (fun h => by cases h),
      (fun h => by cases h), fun _ h => by cases h⟩
  | succ fuel ih =>
    obtain ⟨hanswered, hreads⟩ := (Bool.and_eq_true _ _).mp hreads
    have hid : ∀ collection, listedAt runtime t.queries target.index = .ok collection →
        collection.tensorCollectionId = target.id := fun collection hlisted =>
      of_decide_eq_true hanswered target htarget collection (by simp [hlisted, Except.toOption])
    have hread := readNextSample_ends runtime htarget
    rw [drain] at hd
    generalize readNextSample runtime t = result at hread hreads hd
    obtain ⟨read, t₁⟩ := result
    cases hread with
    | sample collection sample listed next result converted =>
      -- This sample stands before those of the later reads.
      obtain ⟨⟨new, hnew, hfrom⟩, hrefused, hheld, hlost, hcomplete, hraised⟩ :=
        ih (t := { t with
          queries := t.queries + 1
          lastSampleIndex := some sample.sampleIndex
          delivered := t.delivered ++
            [⟨collection.tensorCollectionId, sample.sampleIndex, result⟩] }) htarget hreads hd
      refine ⟨⟨_ :: new, by rw [hnew, List.append_assoc]; rfl, ?_⟩, hrefused, hheld, hlost,
        hcomplete, hraised⟩
      exact List.forall_mem_cons.mpr ⟨hid collection listed, hfrom⟩
    | refused collection sample listed next what failed =>
      obtain ⟨rfl, rfl⟩ := Prod.mk.inj hd
      refine ⟨⟨[], by simp, List.forall_mem_nil _⟩, .inr ⟨what, _, rfl, by rw [hid _ listed]⟩,
        .inr htarget, (fun h => by cases h), (fun h => by cases h), fun _ _ _ => ?_⟩
      exact ⟨t.sampleBuffer sample, by simp [hid _ listed]⟩
    | exhausted answered empty =>
      -- The listed collection itself answered that it has no more.
      obtain ⟨rfl, rfl⟩ := Prod.mk.inj hd
      obtain ⟨collection, hlisted⟩ := answered
      refine ⟨⟨[], by simp, List.forall_mem_nil _⟩, .inl rfl, .inr htarget, fun h => ?_,
        fun _ => ⟨htarget, collection, hlisted, hid _ hlisted⟩, fun _ h => by cases h⟩
      simp [htarget] at h
    | lost result failed =>
      obtain ⟨rfl, rfl⟩ := Prod.mk.inj hd
      exact ⟨⟨[], by simp, List.forall_mem_nil _⟩, .inl rfl, .inl rfl, fun _ => rfl,
        (fun h => by cases h), fun _ h => by cases h⟩
    | raised what result failed =>
      obtain ⟨rfl, rfl⟩ := Prod.mk.inj hd
      exact ⟨⟨[], by simp, List.forall_mem_nil _⟩, .inl rfl, .inl rfl, (fun h => by cases h),
        (fun h => by cases h), fun _ _ h => by cases h⟩

/-- What a call leaves: beside what the loop leaves, a search that throws keeps the target. -/
structure Called (runtime : TensorRuntime) (t : SchemaTrackerBase)
    (answer : Except ByteText (Option Bool)) (t' : SchemaTrackerBase) : Prop where
  delivered : ∃ new, t'.delivered = t.delivered ++ new ∧
    ∀ delivery ∈ new, drains runtime t = some delivery.collectionId
  refused : t'.refused = t.refused ∨ ∃ what collectionId bytes, answer = .error what ∧
    drains runtime t = some collectionId ∧ t'.refused = t.refused ++ [(collectionId, bytes)]
  lost : answer = .ok (some false) → t'.targetCollection = none
  complete : answer = .ok (some true) → ∃ target collection,
    t'.targetCollection = some target ∧ drains runtime t = some target.id ∧
      listedAt runtime (t'.queries - 1) target.index = .ok collection ∧
      collection.tensorCollectionId = target.id
  raised : ∀ what collectionId, answer = .error what →
    t'.collectionInstanceId = some collectionId →
    t.collectionInstanceId = some collectionId ∨ ∃ bytes, (collectionId, bytes) ∈ t'.refused

/-- **Everything one call can do**, when its data queries are answered from its target. -/
theorem readAllSamples_called {fuel : ℕ} {answer : Except ByteText (Option Bool)}
    (hreads : readsTarget runtime fuel t = true)
    (hcall : readAllSamples runtime fuel t = (answer, t')) :
    Called runtime t answer t' := by
  have hensured := ensureCollection_ends runtime t
  rw [readAllSamples] at hcall
  rw [readsTarget] at hreads
  have hdrains : drains runtime t = match ensureCollection runtime t with
    | (.ok true, t) => t.collectionInstanceId
    | _ => none := rfl
  generalize ensureCollection runtime t = result at hensured hcall hreads hdrains
  obtain ⟨found, t₁⟩ := result
  -- the loop starts from a tracker that has delivered what it had delivered before
  have hdrain : ∀ target, found = .ok true → t₁.targetCollection = some target →
      t₁.delivered = t.delivered → t₁.refused = t.refused → Called runtime t answer t' := by
    intro target hfound htarget hdelivered hrefused
    subst hfound
    have hid : drains runtime t = some target.id := by
      rw [hdrains]
      simp [collectionInstanceId, htarget]
    obtain ⟨⟨new, hnew, hfrom⟩, hlast, hheld, hlost, hcomplete, hraised⟩ :=
      drain_drained htarget hreads hcall
    rw [hdelivered] at hnew
    rw [hrefused] at hlast
    refine ⟨⟨new, hnew, fun delivery hmem => by rw [hid, hfrom delivery hmem]⟩, ?_, hlost, ?_, ?_⟩
    · rcases hlast with hlast | ⟨what, bytes, hwhat, hlast⟩
      · exact .inl hlast
      · exact .inr ⟨what, target.id, bytes, hwhat, hid, hlast⟩
    · intro htrue
      obtain ⟨htarget', collection, hlisted, hsame⟩ := hcomplete htrue
      exact ⟨target, collection, htarget', hid, hlisted, hsame⟩
    · intro what collectionId hwhat hinstance
      rcases hheld with hheld | hheld
      · simp [collectionInstanceId, hheld] at hinstance
      · obtain rfl : target.id = collectionId := by simpa [collectionInstanceId, hheld] using hinstance
        exact .inr (hraised what hwhat hheld)
  cases hensured with
  | kept q later held =>
    obtain ⟨target, htarget⟩ := Option.isSome_iff_exists.mp held
    exact hdrain target rfl htarget rfl rfl
  | found q generation index collection later finds listed => exact hdrain _ rfl rfl rfl rfl
  | gone q generation =>
    obtain ⟨rfl, rfl⟩ := Prod.mk.inj hcall
    exact ⟨⟨[], by simp, List.forall_mem_nil _⟩, .inl rfl, fun _ => rfl, (fun h => by cases h),
      fun _ _ h => by cases h⟩
  | raised what q generation later =>
    obtain ⟨rfl, rfl⟩ := Prod.mk.inj hcall
    exact ⟨⟨[], by simp, List.forall_mem_nil _⟩, .inl rfl, (fun h => by cases h),
      (fun h => by cases h), fun _ _ _ hinstance => .inl hinstance⟩

/-! ### One collection that stays where it is -/

def gloveView : RuntimeView := ⟨1, [⟨lit "glove", 7, 2, 2, [⟨0, [1, 2], 0, 0, 0⟩]⟩]⟩

/-- One collection with one sample, which never changes; `lost` says which queries report it
lost. -/
def gloveRuntime (lost : ℕ → Bool) : TensorRuntime where
  view _ := gloveView
  result n := if lost n then .tensorLost else .success
  xrConvertTimeToTimespecTime _ time := .ok time
  ascending := by
    intro n c hc
    obtain rfl := List.mem_singleton.mp hc
    exact List.pairwise_singleton _ _
  older := by
    intro m n _ c hc c' hc' _ s hs s' hs' _
    obtain rfl := List.mem_singleton.mp hc
    obtain rfl := List.mem_singleton.mp hc'
    exact hs'
  roomy := by
    intro n c hc
    obtain rfl := List.mem_singleton.mp hc
    exact le_refl _

def gloveConfig : SchemaTrackerConfig := ⟨lit "glove", 16⟩

/-- Found, and its one sample read. -/
theorem samples_once_in_order_glove :
    let runtime := gloveRuntime fun _ => false
    let found := (ensureCollection runtime { config := gloveConfig }).2
    let read := (readNextSample runtime found).2
    let state : SchemaTrackerBase :=
      { read with delivered := read.delivered ++ [⟨7, 0, ⟨[1, 2], 0, 0, 0⟩⟩] }
    state.deliveredFrom 7 = [0] ∧ (state.deliveredFrom 7).Pairwise (· < ·) := by
  intro runtime found read state
  have hensured : Reaches runtime gloveConfig (Settled runtime) .draining found :=
    .ensured .start (by decide) (Prod.ext (by decide) rfl)
  have hread : Reaches runtime gloveConfig (Settled runtime) .draining state :=
    hensured.read (by decide) (Prod.ext (by decide) rfl)
  exact ⟨by decide, (samples_once_in_order runtime gloveConfig .draining state hread).1 7⟩

/-- The second call's first query reports the collection lost; the third call finds it where
it was and delivers its sample again. -/
theorem sample_delivered_twice :
    let runtime := gloveRuntime fun n => n == 6
    let first := readAllSamples runtime 3 { config := gloveConfig }
    let second := readAllSamples runtime 3 first.2
    let third := readAllSamples runtime 3 second.2
    Reaches runtime gloveConfig (fun _ _ => True) .between third.2 ∧
      third.2.deliveredFrom 7 = [0, 0] ∧ ¬ (third.2.deliveredFrom 7).Pairwise (· < ·) := by
  intro runtime first second third
  have hfirst : Reaches runtime gloveConfig (fun _ _ => True) .between first.2 :=
    readAllSamples_reaches .start (by decide)
  have hsecond : Reaches runtime gloveConfig (fun _ _ => True) .between second.2 :=
    readAllSamples_reaches hfirst (by decide)
  exact ⟨readAllSamples_reaches hsecond (by decide), by decide, by decide⟩

end SchemaTrackerBase
