/-
The metadata gate of a generated tracker.

The first metadata sample is adopted, recorded and kept.  A tick publishes and records data only
while the metadata is confirmed, from an accepted sample until the metadata collection goes away or
another one takes its place.  The flag is set after the samples were checked, and a throw in between
leaves it as it was.  A search that throws after the list was updated keeps the old target, and the
next read is then answered from whatever stands in its place.

* `SchemaMetadataTracker.update`, `LiveTracker.update` — one tick;
* `sameTrackerMetadata_iff` — equality up to the padding;
* `SchemaMetadataTracker.update_cases` — everything an update can do;
* `GateInv.step` — what holds between two ticks;
* `LiveTracker.metadata_gate` — all runs.
-/
import IsaacTeleop.TensorSamples
import Mathlib.Data.List.DropRight

namespace TrackerMetadata

/-! ### One update -/

/-- `same_tracker_metadata` -/
def sameTrackerMetadata (a b : ByteText) : Bool :=
  let short := if b.length < a.length then b else a
  let long := if b.length < a.length then a else b
  short.isPrefixOf long && (long.drop short.length).all (· = 0)

/-- The errors of an update. -/
inductive MetadataError
  | readFailed (what : ByteText)
  /-- "… metadata sample is not a valid …" -/
  | notValid
  /-- an error of `verify_metadata` -/
  | notVerified
  /-- "… received a … that differs from the one adopted" -/
  | differs
  deriving DecidableEq

/-- What is written to the recording. -/
inductive LogEntry
  | metadata (bytes : ByteText) (logTimeNs : ℤ)
  | data (bytes : ByteText)
  deriving DecidableEq

/-- The checks of a metadata table, and whether there are channels. -/
structure MetadataConfig where
  verifyBuffer : ByteText → Bool
  verifyMetadata : ByteText → Bool
  recording : Bool

structure SchemaMetadataTracker where
  base : SchemaTrackerBase
  metadata : Option ByteText := none
  confirmed : Bool := false
  log : List LogEntry := []

namespace SchemaMetadataTracker

variable (runtime : TensorRuntime) (config : MetadataConfig)

/-- `accept` -/
def accept (s : SchemaMetadataTracker) (sample : SampleResult) :
    Except MetadataError SchemaMetadataTracker :=
  if config.verifyBuffer sample.buffer then
    match s.metadata with
    | none =>
      if config.verifyMetadata sample.buffer then
        .ok { s with
          metadata := some sample.buffer
          log := s.log ++ if config.recording then
            [.metadata sample.buffer sample.availableTimeLocalCommonClock] else [] }
      else .error .notVerified
    | some metadata =>
      if sameTrackerMetadata metadata sample.buffer then .ok s else .error .differs
  else .error .notValid

/-- The loop over the samples; an error leaves what was accepted before it. -/
def acceptAll (s : SchemaMetadataTracker) :
    List SampleResult → Except MetadataError Unit × SchemaMetadataTracker
  | [] => (.ok (), s)
  | sample :: samples =>
    match s.accept config sample with
    | .error e => (.error e, s)
    | .ok s => acceptAll s samples

/-- `update` after a read that returned. -/
def checked (s : SchemaMetadataTracker) (present : Bool) (base : SchemaTrackerBase) :
    Except MetadataError Bool × SchemaMetadataTracker :=
  let samples := s.base.samplesSince base
  let s := { s with
    base := base
    confirmed :=
      if base.collectionInstanceId = s.base.collectionInstanceId then s.confirmed else false }
  match acceptAll config s samples with
  | (.error e, s) => (.error e, s)
  | (.ok (), s) =>
    let confirmed := if present then !samples.isEmpty || s.confirmed else false
    (.ok confirmed, { s with confirmed := confirmed })

/-- `update`, whose read takes at most `fuel` samples; none while it is still reading. -/
def update (fuel : ℕ) (s : SchemaMetadataTracker) :
    Option (Except MetadataError Bool × SchemaMetadataTracker) :=
  match SchemaTrackerBase.readAllSamples runtime fuel s.base with
  | (.ok none, _) => none
  | (.error what, base) => some (.error (.readFailed what), { s with base := base })
  | (.ok (some present), base) => some (checked config s present base)

end SchemaMetadataTracker

/-! ### One tick -/

/-- What the reader of the data does. -/
inductive DataRead
  | threw
  | returned (present : Bool) (samples : List SampleResult)

structure Tick where
  fuel : ℕ
  data : DataRead

structure LiveTracker where
  reader : SchemaMetadataTracker
  tracked : Option ByteText := none

namespace LiveTracker

variable (runtime : TensorRuntime) (config : MetadataConfig)

/-- `SchemaTracker::update`: each sample is recorded, and the last one once more for the tracked
channel. -/
def record (log : List LogEntry) (publish : Bool) (samples : List SampleResult) : List LogEntry :=
  if config.recording && publish then
    log ++ samples.map (.data ·.buffer) ++ (samples.getLast?.map (.data ·.buffer)).toList
  else log

/-- `update` of the generated tracker: what it throws, or whether it published. -/
def update (s : LiveTracker) (tick : Tick) : Option (Except Unit Bool × LiveTracker) :=
  (s.reader.update runtime config tick.fuel).map fun
    | (.error _, reader) => (.error (), { s with reader := reader })
    | (.ok publish, reader) =>
      match tick.data with
      | .threw => (.error (), { s with reader := reader })
      | .returned present samples =>
        let tracked :=
          match samples.getLast? with
          | some sample => some sample.buffer
          | none => if present then s.tracked else none
        (.ok publish,
          { reader := { reader with log := record config reader.log publish samples }
            tracked := if publish then tracked else none })

/-- The state after some ticks; none when one of them is still reading. -/
def run (schema : SchemaTrackerConfig) (ticks : List Tick) : Option LiveTracker :=
  ticks.foldlM (fun s tick => (s.update runtime config tick).map Prod.snd)
    { reader := { base := { config := schema } } }

end LiveTracker

/-! ### Padding -/

/-- A sample without the zeros at its end. -/
def unpadded (bytes : ByteText) : ByteText := bytes.rdropWhile (· = 0)

theorem unpadded_append {zeros : ByteText} (h : ∀ b ∈ zeros, b = 0) (bytes : ByteText) :
    unpadded (bytes ++ zeros) = unpadded bytes := by
  induction zeros using List.reverseRecOn with
  | nil => rw [List.append_nil]
  | append_singleton zeros b ih =>
    obtain rfl := h b (by simp)
    rw [← List.append_assoc, unpadded, List.rdropWhile_concat_pos _ _ _ (by simp)]
    exact ih fun b hb => h b (List.mem_append_left _ hb)

theorem exists_padding (bytes : ByteText) : ∃ n, bytes = unpadded bytes ++ List.replicate n 0 := by
  refine ⟨(bytes.rtakeWhile (· = 0)).length, ?_⟩
  have hzeros : bytes.rtakeWhile (· = 0) =
      List.replicate (bytes.rtakeWhile (· = 0)).length 0 :=
    List.eq_replicate_iff.mpr ⟨rfl, fun b hb => by simpa using List.mem_rtakeWhile_imp hb⟩
  rw [← hzeros]
  exact List.rdropWhile_append_rtakeWhile.symm

/-- A shorter sample and a longer one that differ in the padding only. -/
theorem prefix_zeros_iff {short long : ByteText} (h : short.length ≤ long.length) :
    (short.isPrefixOf long && (long.drop short.length).all (· = 0)) = true ↔
      unpadded short = unpadded long := by
  rw [Bool.and_eq_true, List.isPrefixOf_iff_prefix, List.all_eq_true]
  constructor
  · rintro ⟨⟨zeros, rfl⟩, hzeros⟩
    rw [List.drop_left] at hzeros
    exact (unpadded_append (fun b hb => of_decide_eq_true (hzeros b hb)) short).symm
  · intro hsame
    obtain ⟨m, hshort⟩ := exists_padding short
    obtain ⟨n, hlong⟩ := exists_padding long
    have hle : m ≤ n := by
      rw [hshort, hlong, hsame] at h
      simpa using h
    obtain ⟨k, rfl⟩ := Nat.exists_eq_add_of_le hle
    have happend : long = short ++ List.replicate k 0 := by
      rw [hlong, hshort, hsame, List.append_assoc, List.replicate_append_replicate]
    refine ⟨⟨_, happend.symm⟩, ?_⟩
    rw [happend, List.drop_left]
    intro b hb
    exact decide_eq_true (List.eq_of_mem_replicate hb)

/-- **The comparison** is equality up to the padding. -/
theorem sameTrackerMetadata_iff (a b : ByteText) :
    sameTrackerMetadata a b = true ↔ unpadded a = unpadded b := by
  unfold sameTrackerMetadata
  dsimp only
  by_cases hlt : b.length < a.length
  · rw [if_pos hlt, if_pos hlt, prefix_zeros_iff hlt.le, eq_comm]
  · rw [if_neg hlt, if_neg hlt, prefix_zeros_iff (not_lt.mp hlt)]

/-! ### What an update does -/

/-- The data of a sample is the adopted metadata, up to the padding. -/
def Agrees (metadata : Option ByteText) (bytes : ByteText) : Prop :=
  ∃ m, metadata = some m ∧ unpadded m = unpadded bytes

/-- What was adopted stays adopted. -/
def Keeps (before after : Option ByteText) : Prop := ∀ m, before = some m → after = some m

theorem Agrees.kept {before after : Option ByteText} {bytes : ByteText}
    (h : Agrees before bytes) (hkeeps : Keeps before after) : Agrees after bytes := by
  obtain ⟨m, hm, hsame⟩ := h
  exact ⟨m, hkeeps m hm, hsame⟩

/-- Samples that are accepted one after the other. -/
def acceptable (config : MetadataConfig) : Option ByteText → List SampleResult → Bool
  | _, [] => true
  | none, sample :: samples =>
    config.verifyBuffer sample.buffer && config.verifyMetadata sample.buffer &&
      acceptable config (some sample.buffer) samples
  | some m, sample :: samples =>
    config.verifyBuffer sample.buffer && sameTrackerMetadata m sample.buffer &&
      acceptable config (some m) samples

namespace SchemaMetadataTracker

variable {config : MetadataConfig}

/-- A read that throws before it has taken a sample, or returns with samples that are acceptable. -/
def Sound (runtime : TensorRuntime) (config : MetadataConfig) (fuel : ℕ)
    (s : SchemaMetadataTracker) : Prop :=
  match SchemaTrackerBase.readAllSamples runtime fuel s.base with
  | (.error _, base) => base.delivered = s.base.delivered ∧ base.refused = s.base.refused
  | (.ok _, base) => acceptable config s.metadata (s.base.samplesSince base) = true

/-- What holds of the recording: nothing before the adoption, and the metadata first and once. -/
structure LogInv (config : MetadataConfig) (s : SchemaMetadataTracker) : Prop where
  silent : config.recording = false ∨ s.metadata = none → s.log = []
  first : ∀ m, s.metadata = some m → config.recording = true → ∃ t entries,
    s.log = .metadata m t :: entries ∧ ∀ e ∈ entries, ∃ bytes, e = .data bytes
  adopted : s.confirmed = true → s.metadata ≠ none

/-- One sample that is accepted. -/
theorem accept_ok {s s' : SchemaMetadataTracker} {sample : SampleResult}
    (h : s.accept config sample = .ok s') :
    s'.base = s.base ∧ s'.confirmed = s.confirmed ∧ Keeps s.metadata s'.metadata ∧
      Agrees s'.metadata sample.buffer ∧ (LogInv config s → LogInv config s') := by
  unfold accept at h
  split at h
  · split at h
    · rename_i hnone
      split at h
      · obtain rfl := Except.ok.inj h
        refine ⟨rfl, rfl, fun m hm => ?_, ⟨_, rfl, rfl⟩, fun hinv => ?_⟩
        · rw [hnone] at hm
          cases hm
        · -- No metadata was accepted before, so the log is still empty.
          have hlog := hinv.silent (.inr hnone)
          cases hrecording : config.recording with
          | true =>
            refine ⟨fun hsilent => ?_, fun m hm _ => ?_, fun _ hm => by cases hm⟩
            · rcases hsilent with hsilent | hsilent
              · rw [hrecording] at hsilent
                cases hsilent
              · cases hsilent
            · obtain rfl := Option.some_inj.mp hm
              exact ⟨sample.availableTimeLocalCommonClock, [], by simp [hlog],
                List.forall_mem_nil _⟩
          | false =>
            refine ⟨fun _ => by simp [hlog], fun m _ htrue => ?_, fun _ hm => by cases hm⟩
            rw [hrecording] at htrue
            cases htrue
      · cases h
    · -- Later metadata must agree with the first, and is not logged again.
      rename_i m hm
      split at h
      · rename_i hsame
        obtain rfl := Except.ok.inj h
        exact ⟨rfl, rfl, fun _ => id, ⟨m, hm, (sameTrackerMetadata_iff _ _).mp hsame⟩, id⟩
      · cases h
  · cases h

variable (config) in
/-- **The loop**: with an error too, it leaves the reader and the flag, and what was adopted. -/
theorem acceptAll_spec (samples : List SampleResult) (s : SchemaMetadataTracker) :
    (acceptAll config s samples).2.base = s.base ∧
      (acceptAll config s samples).2.confirmed = s.confirmed ∧
      Keeps s.metadata (acceptAll config s samples).2.metadata ∧
      (LogInv config s → LogInv config (acceptAll config s samples).2) ∧
      ((acceptAll config s samples).1 = .ok () →
        ∀ sample ∈ samples, Agrees (acceptAll config s samples).2.metadata sample.buffer) := by
  induction samples generalizing s with
  | nil => exact ⟨rfl, rfl, fun _ => id, id, fun _ => List.forall_mem_nil _⟩
  | cons sample samples ih =>
    unfold acceptAll
    cases haccept : s.accept config sample with
    | error e => exact ⟨rfl, rfl, fun _ => id, id, fun herror => by cases herror⟩
    | ok s' =>
      obtain ⟨hbase, hconfirmed, hkeeps, hagrees, hlog⟩ := accept_ok haccept
      obtain ⟨hbase', hconfirmed', hkeeps', hlog', hall⟩ := ih s'
      refine ⟨hbase'.trans hbase, hconfirmed'.trans hconfirmed,
        fun m hm => hkeeps' m (hkeeps m hm), hlog' ∘ hlog, fun hok => ?_⟩
      exact List.forall_mem_cons.mpr ⟨hagrees.kept hkeeps', hall hok⟩

variable (config) in
/-- The loop ends without an error iff the samples are acceptable. -/
theorem acceptAll_ok_iff (samples : List SampleResult) (s : SchemaMetadataTracker) :
    (acceptAll config s samples).1 = .ok () ↔ acceptable config s.metadata samples = true := by
  induction samples generalizing s with
  | nil => exact iff_of_true rfl (by simp [acceptable])
  | cons sample samples ih =>
    unfold acceptAll accept
    cases hm : s.metadata with
    | none =>
      cases hvalid : config.verifyBuffer sample.buffer with
      | false => simp [acceptable, hvalid]
      | true =>
        cases hverified : config.verifyMetadata sample.buffer with
        | false => simp [acceptable, hvalid, hverified]
        | true => simpa [acceptable, hvalid, hverified] using ih _
    | some m =>
      cases hvalid : config.verifyBuffer sample.buffer with
      | false => simp [acceptable, hvalid]
      | true =>
        cases hsame : sameTrackerMetadata m sample.buffer with
        | false => simp [acceptable, hvalid, hsame]
        | true => simpa [acceptable, hvalid, hsame, hm] using ih s

theorem LogInv.rearm {s : SchemaMetadataTracker} (h : LogInv config s) (base : SchemaTrackerBase)
    {confirmed : Bool} (hconfirmed : confirmed = true → s.metadata ≠ none) :
    LogInv config { s with base := base, confirmed := confirmed } :=
  ⟨h.silent, h.first, hconfirmed⟩

/-- What the part after the read leaves. -/
structure Checked (config : MetadataConfig) (s : SchemaMetadataTracker) (present : Bool)
    (base : SchemaTrackerBase) (result : Except MetadataError Bool)
    (s' : SchemaMetadataTracker) : Prop where
  base_eq : s'.base = base
  keeps : Keeps s.metadata s'.metadata
  logInv : LogInv config s → LogInv config s'
  agrees : acceptable config s.metadata (s.base.samplesSince base) = true →
    ∀ sample ∈ s.base.samplesSince base, Agrees s'.metadata sample.buffer
  confirmed : s'.confirmed = true → (present = true ∧ s.base.samplesSince base ≠ []) ∨
    (s.confirmed = true ∧ base.collectionInstanceId = s.base.collectionInstanceId)
  returns : ∀ b, result = .ok b → acceptable config s.metadata (s.base.samplesSince base) = true ∧
    s'.confirmed = b ∧ (b = true → present = true)

variable (config) in
theorem checked_spec (s : SchemaMetadataTracker) (present : Bool) (base : SchemaTrackerBase) :
    Checked config s present base (checked config s present base).1
      (checked config s present base).2 := by
  unfold checked
  dsimp only
  set samples := s.base.samplesSince base with hsamples
  set confirmed :=
    if base.collectionInstanceId = s.base.collectionInstanceId then s.confirmed else false with hflag
  have hflag' : confirmed = true → s.confirmed = true ∧
      base.collectionInstanceId = s.base.collectionInstanceId := by
    intro htrue
    rw [hflag] at htrue
    split at htrue
    · exact ⟨htrue, by assumption⟩
    · cases htrue
  obtain ⟨hbase, hconfirmed, hkeeps, hlog, hagrees⟩ := acceptAll_spec config samples
    { s with base := base, confirmed := confirmed }
  have hok := acceptAll_ok_iff config samples { s with base := base, confirmed := confirmed }
  generalize acceptAll config { s with base := base, confirmed := confirmed } samples =
    accepted at hbase hconfirmed hkeeps hlog hagrees hok ⊢
  obtain ⟨result, s'⟩ := accepted
  have hlog' : LogInv config s → LogInv config s' := fun hinv =>
    hlog (hinv.rearm base fun htrue => hinv.adopted (hflag' htrue).1)
  cases result with
  | error e =>
    refine ⟨hbase, hkeeps, hlog', fun hacceptable => ?_, fun htrue => ?_, fun b hb => by cases hb⟩
    · cases hok.mpr hacceptable
    · exact .inr (hflag' (hconfirmed.symm.trans htrue))
  | ok _ =>
    have hall := hagrees rfl
    refine ⟨hbase, hkeeps, fun hinv => (hlog' hinv).rearm _ fun htrue => ?_, fun _ => hall,
      fun htrue => ?_, fun b hb => ⟨hok.mp rfl, Except.ok.inj hb, fun htrue => ?_⟩⟩
    · -- The flag is set by an accepted sample, or was set before.
      generalize samples = samples at htrue hall
      cases samples with
      | nil =>
        have hbefore : s'.confirmed = true := by
          cases present with
          | true => simpa using htrue
          | false => simp at htrue
        exact (hlog' hinv).adopted hbefore
      | cons sample samples =>
        obtain ⟨m, hm, -⟩ := hall sample List.mem_cons_self
        rw [hm]
        exact fun hnone => by cases hnone
    · cases present with
      | false => simp at htrue
      | true =>
        by_cases hempty : samples = []
        · have hbefore : s'.confirmed = true := by simpa [hempty] using htrue
          exact .inr (hflag' (hconfirmed.symm.trans hbefore))
        · exact .inl ⟨rfl, hempty⟩
    · cases present with
      | true => rfl
      | false =>
        rw [← Except.ok.inj hb] at htrue
        simp at htrue

/-- What one update leaves, whatever the runtime does. -/
theorem update_keeps {runtime : TensorRuntime} {fuel : ℕ} {s s' : SchemaMetadataTracker}
    {result : Except MetadataError Bool} (h : s.update runtime config fuel = some (result, s')) :
    Keeps s.metadata s'.metadata ∧ (LogInv config s → LogInv config s') ∧
      ∀ b, result = .ok b → s'.confirmed = b := by
  unfold update at h
  split at h
  · cases h
  · obtain ⟨rfl, rfl⟩ := Prod.mk.inj (Option.some_inj.mp h)
    exact ⟨fun _ => id, fun hinv => ⟨hinv.silent, hinv.first, hinv.adopted⟩, fun _ hb => by cases hb⟩
  · rename_i present base _
    have hchecked := checked_spec config s present base
    rw [Option.some_inj.mp h] at hchecked
    exact ⟨hchecked.keeps, hchecked.logInv, fun b hb => (hchecked.returns b hb).2.1⟩

open SchemaTrackerBase in
/-- What one update leaves, when its data queries are answered from the target of its reader. -/
structure Updated (runtime : TensorRuntime) (config : MetadataConfig) (fuel : ℕ)
    (s : SchemaMetadataTracker) (result : Except MetadataError Bool)
    (s' : SchemaMetadataTracker) : Prop where
  took : ∀ id bytes, s.base.Took id bytes → s'.base.Took id bytes
  agrees : ∀ id bytes, s'.base.Took id bytes → s.base.Took id bytes ∨
    drains runtime s.base = some id ∧ (Sound runtime config fuel s → Agrees s'.metadata bytes)
  confirmed : s'.confirmed = true → ∀ id, s'.base.collectionInstanceId = some id →
    (∃ bytes, s'.base.Took id bytes) ∨
      s.confirmed = true ∧ s.base.collectionInstanceId = some id
  returns : result = .ok true → Sound runtime config fuel s ∧ ∃ target collection,
    s'.base.targetCollection = some target ∧ drains runtime s.base = some target.id ∧
      listedAt runtime (s'.base.queries - 1) target.index = .ok collection ∧
      collection.tensorCollectionId = target.id

section

open SchemaTrackerBase

variable {runtime : TensorRuntime} {t t' : SchemaTrackerBase}
  {answer : Except ByteText (Option Bool)}

/-- What was taken before a call is taken after it. -/
theorem took_of_called (h : Called runtime t answer t') {id : ℕ} {bytes : ByteText}
    (hbytes : t.Took id bytes) : t'.Took id bytes := by
  rcases hbytes with ⟨delivery, hmem, hdelivery⟩ | hmem
  · obtain ⟨new, hnew, -⟩ := h.delivered
    exact .inl ⟨delivery, by rw [hnew]; exact List.mem_append_left _ hmem, hdelivery⟩
  · right
    rcases h.refused with hsame | ⟨_, _, _, _, _, hsame⟩ <;> rw [hsame]
    · exact hmem
    · exact List.mem_append_left _ hmem

/-- What a call takes comes from the instance that it drains, and is handed over or refused. -/
theorem source_of_called (h : Called runtime t answer t') {id : ℕ} {bytes : ByteText}
    (hbytes : t'.Took id bytes) : t.Took id bytes ∨ drains runtime t = some id ∧
      ((∃ sample ∈ t.samplesSince t', sample.buffer = bytes) ∨ t'.refused ≠ t.refused) := by
  rcases hbytes with ⟨delivery, hmem, rfl, rfl⟩ | hmem
  · obtain ⟨new, hnew, hfrom⟩ := h.delivered
    rw [hnew] at hmem
    rcases List.mem_append.mp hmem with hmem | hmem
    · exact .inl (.inl ⟨delivery, hmem, rfl, rfl⟩)
    · refine .inr ⟨hfrom delivery hmem, .inl ⟨delivery.result, ?_, rfl⟩⟩
      rw [samplesSince, hnew, List.drop_left]
      exact List.mem_map_of_mem hmem
  · rcases h.refused with hsame | ⟨what, id', bytes', -, hdrains, hsame⟩
    · exact .inl (.inr (hsame ▸ hmem))
    · have hgrown : t'.refused ≠ t.refused := by simp [hsame]
      rw [hsame] at hmem
      rcases List.mem_append.mp hmem with hmem | hmem
      · exact .inl (.inr hmem)
      · obtain ⟨rfl, rfl⟩ := Prod.mk.inj (List.mem_singleton.mp hmem)
        exact .inr ⟨hdrains, .inr hgrown⟩

/-- **Everything an update can do.** -/
theorem update_cases {fuel : ℕ} {s s' : SchemaMetadataTracker}
    {result : Except MetadataError Bool} (hreads : readsTarget runtime fuel s.base = true)
    (h : s.update runtime config fuel = some (result, s')) :
    Updated runtime config fuel s result s' := by
  rcases hcall : readAllSamples runtime fuel s.base with ⟨answer, base⟩
  have hcalled := readAllSamples_called hreads hcall
  simp only [update, hcall] at h
  rcases answer with what | _ | present
  · obtain ⟨rfl, rfl⟩ := Prod.mk.inj (Option.some_inj.mp h)
    refine ⟨fun _ _ => took_of_called hcalled, fun id bytes hbytes => ?_, fun htrue id hid => ?_,
      fun hok => by cases hok⟩
    · rcases source_of_called hcalled hbytes with hbefore | ⟨hdrains, hnow⟩
      · exact .inl hbefore
      · -- a read that throws over samples is not sound
        refine .inr ⟨hdrains, fun hsound => ?_⟩
        simp only [Sound, hcall] at hsound
        rcases hnow with ⟨sample, hmem, -⟩ | hgrown
        · simp [samplesSince, hsound.1] at hmem
        · exact absurd hsound.2 hgrown
    · rcases hcalled.raised what id rfl hid with hbefore | ⟨bytes, hmem⟩
      · exact .inr ⟨htrue, hbefore⟩
      · exact .inl ⟨bytes, .inr hmem⟩
  · cases h
  · have hchecked := checked_spec config s present base
    rw [Option.some_inj.mp h] at hchecked
    have hsound : Sound runtime config fuel s ↔
        acceptable config s.metadata (s.base.samplesSince base) = true := by
      simp only [Sound, hcall]
    obtain ⟨hbase, -, -, hagrees, hconfirmed, hreturns⟩ := hchecked
    refine ⟨fun _ _ hbytes => ?_, fun id bytes hbytes => ?_, fun htrue id hid => ?_, fun hok => ?_⟩
    · rw [hbase]
      exact took_of_called hcalled hbytes
    · rw [hbase] at hbytes
      rcases source_of_called hcalled hbytes with hbefore | ⟨hdrains, hnow⟩
      · exact .inl hbefore
      · refine .inr ⟨hdrains, fun hacceptable => ?_⟩
        rcases hnow with ⟨sample, hmem, rfl⟩ | hgrown
        · exact hagrees (hsound.mp hacceptable) sample hmem
        · rcases hcalled.refused with hsame | ⟨_, _, _, hwhat, -⟩
          · exact absurd hsame hgrown
          · cases hwhat
    · rw [hbase] at hid ⊢
      rcases hconfirmed htrue with ⟨rfl, hne⟩ | ⟨hbefore, hsame⟩
      · -- the instance that confirms has handed over a sample in this read
        left
        obtain ⟨target, -, htarget, hdrains, -⟩ := hcalled.complete rfl
        obtain rfl : target.id = id := by simpa [collectionInstanceId, htarget] using hid
        obtain ⟨new, hnew, hfrom⟩ := hcalled.delivered
        have hnew' : new ≠ [] := by
          rintro rfl
          exact hne (by simp [samplesSince, hnew])
        obtain ⟨delivery, hmem⟩ := List.exists_mem_of_ne_nil _ hnew'
        refine ⟨_, .inl ⟨delivery, by rw [hnew]; exact List.mem_append_right _ hmem, ?_, rfl⟩⟩
        exact Option.some_inj.mp ((hfrom delivery hmem).symm.trans hdrains)
      · exact .inr ⟨hbefore, hsame ▸ hid⟩
    · obtain ⟨hacceptable, -, hpresent⟩ := hreturns true hok
      obtain rfl := hpresent rfl
      rw [hbase]
      exact ⟨hsound.mpr hacceptable, hcalled.complete rfl⟩

end

end SchemaMetadataTracker

/-! ### All runs -/

namespace LiveTracker

open SchemaTrackerBase (readsTarget drains listedAt)

variable {runtime : TensorRuntime} {config : MetadataConfig} {schema : SchemaTrackerConfig}

/-- The state after one more tick. -/
theorem run_concat {ticks : List Tick} {tick : Tick} {s' : LiveTracker}
    (h : run runtime config schema (ticks ++ [tick]) = some s') :
    ∃ s result, run runtime config schema ticks = some s ∧
      s.update runtime config tick = some (result, s') := by
  rw [run, List.foldlM_append] at h
  obtain ⟨s, hs, htick⟩ := Option.bind_eq_some_iff.mp h
  simp only [List.foldlM_cons, List.foldlM_nil] at htick
  obtain ⟨s₁, hs₁, hlast⟩ := Option.bind_eq_some_iff.mp htick
  obtain rfl := Option.some_inj.mp hlast
  obtain ⟨⟨result, s₂⟩, hupdate, rfl⟩ := Option.map_eq_some_iff.mp hs₁
  exact ⟨s, result, hs, hupdate⟩

/-- A tick changes the reader as its update does, and adds data to the recording when that returned
true. -/
theorem update_reader {s s' : LiveTracker} {tick : Tick} {result : Except Unit Bool}
    (h : s.update runtime config tick = some (result, s')) :
    ∃ answer reader, s.reader.update runtime config tick.fuel = some (answer, reader) ∧
      ∃ entries : List LogEntry, s'.reader = { reader with log := reader.log ++ entries } ∧
        (∀ e ∈ entries, ∃ bytes, e = .data bytes) ∧
        (entries ≠ [] → config.recording = true ∧ answer = .ok true) := by
  obtain ⟨⟨answer, reader⟩, hreader, htick⟩ := Option.map_eq_some_iff.mp h
  refine ⟨answer, reader, hreader, ?_⟩
  have hnone : reader = { reader with log := reader.log ++ [] } := by rw [List.append_nil]
  cases answer with
  | error e =>
    -- Nothing is written unless the reader and the data read both return.
    obtain ⟨-, rfl⟩ := Prod.mk.inj htick
    exact ⟨[], hnone, List.forall_mem_nil _, fun h => absurd rfl h⟩
  | ok publish =>
    dsimp only at htick
    cases hdata : tick.data with
    | threw =>
      rw [hdata] at htick
      obtain ⟨-, rfl⟩ := Prod.mk.inj htick
      exact ⟨[], hnone, List.forall_mem_nil _, fun h => absurd rfl h⟩
    | returned present samples =>
      rw [hdata] at htick
      obtain ⟨-, rfl⟩ := Prod.mk.inj htick
      dsimp only
      unfold record
      cases hrecord : config.recording && publish with
      | false => exact ⟨[], hnone, List.forall_mem_nil _, fun h => absurd rfl h⟩
      | true =>
        obtain ⟨hrecording, rfl⟩ := (Bool.and_eq_true _ _).mp hrecord
        refine ⟨samples.map (.data ·.buffer) ++ (samples.getLast?.map (.data ·.buffer)).toList, ?_,
          ?_, fun _ => ⟨hrecording, rfl⟩⟩
        · rw [if_pos rfl, List.append_assoc]
        · intro e he
          rcases List.mem_append.mp he with he | he
          · obtain ⟨sample, -, rfl⟩ := List.mem_map.mp he
            exact ⟨_, rfl⟩
          · obtain ⟨sample, -, rfl⟩ := Option.map_eq_some_iff.mp (Option.mem_toList.mp he)
            exact ⟨_, rfl⟩

/-- **The recording**, after one tick. -/
theorem logInv_step {s s' : LiveTracker} {tick : Tick} {result : Except Unit Bool}
    (hlog : SchemaMetadataTracker.LogInv config s.reader)
    (h : s.update runtime config tick = some (result, s')) :
    SchemaMetadataTracker.LogInv config s'.reader := by
  obtain ⟨answer, reader, hupdate, entries, hreader, hdata, hentries⟩ := update_reader h
  obtain ⟨-, hinv, hreturns⟩ := SchemaMetadataTracker.update_keeps hupdate
  have hinv := hinv hlog
  rw [hreader]
  refine ⟨fun hsilent => ?_, fun m hm hrecording => ?_, hinv.adopted⟩
  · -- Data is recorded only after an adoption.
    have hempty : entries = [] := by
      by_contra hne
      obtain ⟨hrecording, hok⟩ := hentries hne
      rcases hsilent with hsilent | hsilent
      · rw [hrecording] at hsilent
        cases hsilent
      · exact hinv.adopted (hreturns true hok) hsilent
    dsimp only
    rw [hempty, List.append_nil]
    exact hinv.silent hsilent
  · obtain ⟨t, earlier, hlog, hearlier⟩ := hinv.first m hm hrecording
    refine ⟨t, earlier ++ entries, by simp [hlog], fun e he => ?_⟩
    rcases List.mem_append.mp he with he | he
    · exact hearlier e he
    · exact hdata e he

theorem run_logInv {ticks : List Tick} {s : LiveTracker}
    (h : run runtime config schema ticks = some s) :
    SchemaMetadataTracker.LogInv config s.reader := by
  induction ticks using List.reverseRecOn generalizing s with
  | nil =>
    obtain rfl := Option.some_inj.mp h
    exact ⟨fun _ => rfl, (fun _ hm => by cases hm), fun h => by cases h⟩
  | append_singleton ticks tick ih =>
    obtain ⟨s₀, result, hs₀, hupdate⟩ := run_concat h
    exact logInv_step (ih hs₀) hupdate

theorem run_keeps {ticks ticks' : List Tick} {s s' : LiveTracker}
    (hs : run runtime config schema ticks = some s)
    (hs' : run runtime config schema (ticks ++ ticks') = some s') :
    Keeps s.reader.metadata s'.reader.metadata := by
  induction ticks' using List.reverseRecOn generalizing s' with
  | nil =>
    rw [List.append_nil, hs] at hs'
    obtain rfl := Option.some_inj.mp hs'
    exact fun _ => id
  | append_singleton ticks' tick ih =>
    rw [← List.append_assoc] at hs'
    obtain ⟨s₁, result, hs₁, hupdate⟩ := run_concat hs'
    obtain ⟨answer, reader, hread, entries, hreader, -⟩ := update_reader hupdate
    intro m hm
    rw [hreader]
    exact (SchemaMetadataTracker.update_keeps hread).1 m (ih hs₁ m hm)

variable (runtime config schema)

/-- The data queries of every update are answered from the target of the reader. -/
def Answered (ticks : List Tick) : Prop :=
  ∀ before tick after s, ticks = before ++ tick :: after →
    run runtime config schema before = some s → readsTarget runtime tick.fuel s.reader.base = true

/-- An instance of which samples were read by an update that threw. -/
def Spoiled (ticks : List Tick) (id : ℕ) : Prop :=
  ∃ before tick after s, ticks = before ++ tick :: after ∧
    run runtime config schema before = some s ∧ drains runtime s.reader.base = some id ∧
    ¬ s.reader.Sound runtime config tick.fuel

/-- What holds between two ticks. -/
structure GateInv (ticks : List Tick) (s : LiveTracker) : Prop where
  agrees : ∀ id, ¬ Spoiled runtime config schema ticks id → ∀ bytes,
    s.reader.base.Took id bytes → Agrees s.reader.metadata bytes
  confirmed : s.reader.confirmed = true → ∀ id, s.reader.base.collectionInstanceId = some id →
    ∃ bytes, s.reader.base.Took id bytes

variable {runtime config schema}

/-- **One tick.** -/
theorem GateInv.step {ticks : List Tick} {s s' : LiveTracker} {tick : Tick}
    {result : Except Unit Bool} (h : GateInv runtime config schema ticks s)
    (hs : run runtime config schema ticks = some s)
    (hreads : readsTarget runtime tick.fuel s.reader.base = true)
    (hu : s.update runtime config tick = some (result, s')) :
    GateInv runtime config schema (ticks ++ [tick]) s' := by
  obtain ⟨answer, reader, hupdate, entries, hreader, -⟩ := update_reader hu
  have hupdated := SchemaMetadataTracker.update_cases hreads hupdate
  constructor
  · intro id hclean bytes hbytes
    rw [hreader] at hbytes ⊢
    rcases hupdated.agrees id bytes hbytes with hbefore | ⟨hdrains, hagrees⟩
    · -- The instance was clean before, and this tick does not spoil it.
      have hclean' : ¬ Spoiled runtime config schema ticks id := by
        rintro ⟨before, tick', after, s₀, rfl, hs₀, hfinds, hbad⟩
        exact hclean ⟨before, tick', after ++ [tick], s₀, by simp, hs₀, hfinds, hbad⟩
      exact (h.agrees id hclean' bytes hbefore).kept (SchemaMetadataTracker.update_keeps hupdate).1
    · refine hagrees ?_
      by_contra hbad
      exact hclean ⟨ticks, tick, [], s, rfl, hs, hdrains, hbad⟩
  · intro htrue id hid
    rw [hreader] at htrue hid ⊢
    -- The target delivered in this tick, or is the one confirmed before.
    rcases hupdated.confirmed htrue id hid with hnow | ⟨hbefore, hsame⟩
    · exact hnow
    · obtain ⟨bytes, hbytes⟩ := h.confirmed hbefore id hsame
      exact ⟨bytes, hupdated.took id bytes hbytes⟩

theorem run_gateInv {ticks : List Tick} {s : LiveTracker}
    (hanswered : Answered runtime config schema ticks)
    (hs : run runtime config schema ticks = some s) : GateInv runtime config schema ticks s := by
  induction ticks using List.reverseRecOn generalizing s with
  | nil =>
    obtain rfl := Option.some_inj.mp hs
    exact ⟨fun id _ bytes hbytes => by simp [SchemaTrackerBase.Took] at hbytes,
      fun h => by cases h⟩
  | append_singleton ticks tick ih =>
    obtain ⟨s₀, result, hs₀, hupdate⟩ := run_concat hs
    have hbefore : Answered runtime config schema ticks := fun before tick' after s hsplit =>
      hanswered before tick' (after ++ [tick]) s (by simp [hsplit])
    exact (ih hbefore hs₀).step hs₀ (hanswered ticks tick [] s₀ rfl hs₀) hupdate

/-- **The metadata gate.**  In any run the adopted metadata never changes, and the recording is
empty before the adoption and begins with the one record of it after.  If the data queries are
answered from the target of the reader, and no instance of which a throwing update read samples is
drained again, an update returns true only if the instance that answered its last query has handed
over samples, and all of them are the adopted metadata up to the padding. -/
theorem metadata_gate (runtime : TensorRuntime) (config : MetadataConfig)
    (schema : SchemaTrackerConfig) (ticks : List Tick) (s : LiveTracker)
    (hrun : run runtime config schema ticks = some s) :
    (∀ before after s₀, ticks = before ++ after → run runtime config schema before = some s₀ →
      Keeps s₀.reader.metadata s.reader.metadata) ∧
    (match s.reader.metadata with
      | none => s.reader.log = []
      | some m => config.recording = true → ∃ t entries, s.reader.log = .metadata m t :: entries ∧
          ∀ e ∈ entries, ∃ bytes, e = .data bytes) ∧
    (Answered runtime config schema ticks →
      (∀ before tick between tick' after s₁ s₂,
        ticks = before ++ tick :: (between ++ tick' :: after) →
        run runtime config schema before = some s₁ →
        run runtime config schema (before ++ tick :: between) = some s₂ →
        ∀ id, drains runtime s₁.reader.base = some id → drains runtime s₂.reader.base = some id →
          s₁.reader.Sound runtime config tick.fuel) →
      ∀ before tick after s₀ reader, ticks = before ++ tick :: after →
        run runtime config schema before = some s₀ →
        s₀.reader.update runtime config tick.fuel = some (.ok true, reader) →
        ∃ target collection m, reader.base.targetCollection = some target ∧
          listedAt runtime (reader.base.queries - 1) target.index = .ok collection ∧
          collection.tensorCollectionId = target.id ∧ reader.metadata = some m ∧
          (∃ bytes, reader.base.Took target.id bytes) ∧
          ∀ bytes, reader.base.Took target.id bytes → unpadded m = unpadded bytes) := by
  refine ⟨?_, ?_, ?_⟩
  · rintro before after s₀ rfl hs₀
    exact run_keeps hs₀ hrun
  · have hinv := run_logInv hrun
    split
    · rename_i hnone
      exact hinv.silent (.inr hnone)
    · rename_i m hm
      exact hinv.first m hm
  · intro hanswered hruns before tick after s₀ reader hsplit hs₀ hupdate
    have hreads := hanswered before tick after s₀ hsplit hs₀
    have hupdated := SchemaMetadataTracker.update_cases hreads hupdate
    obtain ⟨hkeeps, -, hreturns⟩ := SchemaMetadataTracker.update_keeps hupdate
    obtain ⟨hsound, target, collection, htarget, hdrains, hlisted, hid⟩ := hupdated.returns rfl
    have hinv := run_gateInv (fun earlier tick' later s' hsplit' =>
      hanswered earlier tick' (later ++ tick :: after) s' (by simp [hsplit, hsplit'])) hs₀
    -- No earlier update has thrown over samples of this instance.
    have hclean : ¬ Spoiled runtime config schema before target.id := by
      rintro ⟨earlier, tick', between, s₁, rfl, hs₁, hdrains', hbad⟩
      exact hbad (hruns earlier tick' between tick after s₁ s₀ (by simp [hsplit]) hs₁ hs₀ target.id
        hdrains' hdrains)
    have hagrees : ∀ bytes, reader.base.Took target.id bytes → Agrees reader.metadata bytes := by
      intro bytes hbytes
      rcases hupdated.agrees target.id bytes hbytes with hbefore | ⟨-, hnow⟩
      · exact (hinv.agrees target.id hclean bytes hbefore).kept hkeeps
      · exact hnow hsound
    have hinstance : reader.base.collectionInstanceId = some target.id := by
      simp [SchemaTrackerBase.collectionInstanceId, htarget]
    obtain ⟨bytes, hbytes⟩ : ∃ bytes, reader.base.Took target.id bytes := by
      rcases hupdated.confirmed (hreturns true rfl) target.id hinstance with hnow | ⟨hbefore, hsame⟩
      · exact hnow
      · obtain ⟨bytes, hbytes⟩ := hinv.confirmed hbefore target.id hsame
        exact ⟨bytes, hupdated.took target.id bytes hbytes⟩
    obtain ⟨m, hm, -⟩ := hagrees bytes hbytes
    refine ⟨target, collection, m, htarget, hlisted, hid, hm, ⟨bytes, hbytes⟩, fun bytes hbytes => ?_⟩
    obtain ⟨m', hm', hsame⟩ := hagrees bytes hbytes
    obtain rfl := Option.some_inj.mp (hm.symm.trans hm')
    exact hsame

end LiveTracker

/-! ### Two instances of a metadata collection -/

/-- A runtime that changes once, before its query number 6. -/
def changingRuntime (result : ℕ → XrResult) (before after : RuntimeView)
    (hascending : ∀ v ∈ [before, after], ∀ c ∈ v.listed,
      c.samples.Pairwise fun a b => a.sampleIndex < b.sampleIndex)
    (holder : ∀ v ∈ [(before, before), (before, after), (after, after)], ∀ c ∈ v.1.listed,
      ∀ c' ∈ v.2.listed, c'.tensorCollectionId = c.tensorCollectionId → ∀ s ∈ c.samples,
        ∀ s' ∈ c'.samples, s'.sampleIndex ≤ s.sampleIndex → s' ∈ c.samples)
    (hroomy : ∀ v ∈ [before, after], ∀ c ∈ v.listed, c.totalSampleSize ≤ c.sampleBatchStride) :
    TensorRuntime where
  view n := if n < 6 then before else after
  result := result
  xrConvertTimeToTimespecTime _ time := .ok time
  ascending n := hascending _ (by split <;> simp)
  older m n hmn := by
    refine holder (if m < 6 then before else after, if n < 6 then before else after) ?_
    by_cases hm : m < 6
    · by_cases hn : n < 6 <;> simp [hm, hn]
    · have hn : ¬ n < 6 := by omega
      simp [hm, hn]
  roomy n := hroomy _ (by split <;> simp)

def metadataSample (index : ℕ) (bytes : ByteText) : TensorSample := ⟨index, bytes, 1, 1, 0⟩

/-- A view with one collection of metadata. -/
def metadataView (generation id size : ℕ) (samples : List TensorSample) : RuntimeView :=
  ⟨generation, [⟨ByteText.lit "meta", id, size, size, samples⟩]⟩

/-- The producer restarts, and pads the same metadata to another size. -/
def restarted : TensorRuntime :=
  changingRuntime (fun _ => .success) (metadataView 1 1 1 [metadataSample 0 [7]])
    (metadataView 2 2 2 [metadataSample 0 [7, 0]]) (by decide) (by decide) (by decide)

/-- The producer sends metadata that differs. -/
def differing : TensorRuntime :=
  changingRuntime (fun _ => .success) (metadataView 1 1 1 [metadataSample 0 [7]])
    (metadataView 1 1 1 [metadataSample 0 [7], metadataSample 1 [8]])
    (by decide) (by decide) (by decide)

/-- The producer restarts, and the first search for the new instance fails after the list was
updated. -/
def misread : TensorRuntime :=
  changingRuntime (fun n => if n = 8 then .failure (-1) else .success)
    (metadataView 1 1 1 [metadataSample 0 [7]]) (metadataView 2 2 1 [])
    (by decide) (by decide) (by decide)

/-- Every table is valid. -/
def lenient : MetadataConfig := ⟨fun _ => true, fun _ => true, true⟩

def metadataSchema : SchemaTrackerConfig := ⟨ByteText.lit "meta", 16⟩

/-- A tick without data. -/
def quietTick : Tick := ⟨3, .returned true []⟩

/-- The update after some ticks. -/
def updateAfter (runtime : TensorRuntime) (ticks : List Tick) :
    Option (Except MetadataError Bool × SchemaMetadataTracker) :=
  (LiveTracker.run runtime lenient metadataSchema ticks).bind fun s =>
    s.reader.update runtime lenient quietTick.fuel

/-- The second instance is confirmed by its own sample. -/
theorem restarted_metadata_confirmed :
    ∃ reader, updateAfter restarted [quietTick] = some (.ok true, reader) ∧
      reader.base.collectionInstanceId = some 2 ∧ reader.metadata = some [7] ∧
      ∀ bytes, reader.base.Took 2 bytes → unpadded [7] = unpadded bytes := by
  have hsecond : (updateAfter restarted [quietTick]).map (fun r =>
      (r.1, r.2.base.collectionInstanceId, r.2.metadata)) =
      some (.ok true, some 2, some [7]) := by decide
  obtain ⟨⟨answer, reader⟩, hreader, hvalues⟩ := Option.map_eq_some_iff.mp hsecond
  obtain ⟨rfl, hinstance, hmetadata⟩ :
      answer = .ok true ∧ reader.base.collectionInstanceId = some 2 ∧
        reader.metadata = some [7] := by simpa using hvalues
  obtain ⟨s₀, hs₀, hupdate⟩ := Option.bind_eq_some_iff.mp hreader
  obtain ⟨s, hs⟩ := Option.isSome_iff_exists.mp
    (show (LiveTracker.run restarted lenient metadataSchema [quietTick, quietTick]).isSome = true by
      decide)
  have hanswered : LiveTracker.Answered restarted lenient metadataSchema [quietTick, quietTick] := by
    intro before tick after s' hsplit hs'
    have hall : ∀ ticks ∈ [[], [quietTick]],
        (LiveTracker.run restarted lenient metadataSchema ticks).all (fun s =>
          SchemaTrackerBase.readsTarget restarted quietTick.fuel s.reader.base) = true := by
      decide
    rcases before with _ | ⟨first, _ | ⟨second, rest⟩⟩
    · obtain ⟨rfl, -⟩ := List.cons.inj hsplit
      simpa [hs'] using hall [] (by simp)
    · obtain ⟨rfl, hrest⟩ := List.cons.inj hsplit
      obtain ⟨rfl, -⟩ := List.cons.inj hrest
      simpa [hs'] using hall [quietTick] (by simp)
    · simp at hsplit
  have hsound : ∀ before tick between tick' after s₁ s₂,
      [quietTick, quietTick] = before ++ tick :: (between ++ tick' :: after) →
      LiveTracker.run restarted lenient metadataSchema before = some s₁ →
      LiveTracker.run restarted lenient metadataSchema (before ++ tick :: between) = some s₂ →
      ∀ id, SchemaTrackerBase.drains restarted s₁.reader.base = some id →
        SchemaTrackerBase.drains restarted s₂.reader.base = some id →
        s₁.reader.Sound restarted lenient tick.fuel := by
    -- Only the first of the two ticks has one after it.
    intro before tick between tick' after s₁ s₂ hsplit hs₁ _ id _ _
    cases before with
    | nil =>
      obtain rfl := Option.some_inj.mp hs₁
      rw [← (List.cons.inj hsplit).1]
      unfold SchemaMetadataTracker.Sound
      rfl
    | cons first before =>
      have hlength := congrArg List.length hsplit
      simp at hlength
      omega
  obtain ⟨target, collection, m, htarget, -, -, hm, -, hall⟩ :=
    (LiveTracker.metadata_gate restarted lenient metadataSchema [quietTick, quietTick] s hs).2.2
      hanswered hsound [quietTick] quietTick [] s₀ reader rfl hs₀ hupdate
  obtain rfl : [7] = m := Option.some_inj.mp (hmetadata.symm.trans hm)
  have htwo : target.id = 2 := by
    simpa [SchemaTrackerBase.collectionInstanceId, htarget] using hinstance
  exact ⟨reader, hreader, hinstance, hmetadata, htwo ▸ hall⟩

/-- An instance sends its metadata, then another one, which throws, and then nothing: the update
after the throw returns true. -/
theorem confirmed_after_throw :
    (updateAfter differing []).map Prod.fst = some (.ok true) ∧
    (updateAfter differing [quietTick]).map Prod.fst = some (.error .differs) ∧
    ∃ reader, updateAfter differing [quietTick, quietTick] = some (.ok true, reader) ∧
      reader.base.collectionInstanceId = some 1 ∧ reader.metadata = some [7] ∧
      reader.base.Took 1 [8] ∧ unpadded [7] ≠ unpadded [8] := by
  refine ⟨by decide, by decide +kernel, ?_⟩
  have hthird : (updateAfter differing [quietTick, quietTick]).map (fun r =>
      (r.1, r.2.base.collectionInstanceId, r.2.metadata, decide (r.2.base.Took 1 [8]))) =
      some (.ok true, some 1, some [7], true) := by decide
  obtain ⟨⟨answer, reader⟩, hreader, hvalues⟩ := Option.map_eq_some_iff.mp hthird
  obtain ⟨rfl, hinstance, hmetadata, htook⟩ :
      answer = .ok true ∧ reader.base.collectionInstanceId = some 1 ∧
        reader.metadata = some [7] ∧ reader.base.Took 1 [8] := by simpa using hvalues
  exact ⟨reader, hreader, hinstance, hmetadata, htook, by decide⟩

/-- The search that threw has kept the first instance as the target, and the query of the next
update is answered from the second. -/
example :
    (updateAfter misread [quietTick]).map Prod.fst =
      some (.error (.readFailed (ByteText.lit "Failed to get list properties, result=-1"))) ∧
    (updateAfter misread [quietTick, quietTick]).map (fun r =>
      (r.1, r.2.base.collectionInstanceId)) = some (.ok true, some 1) := by
  decide

end TrackerMetadata
