/-
The Xsens frame decider.

`FrameDecider.classify` decides what happens to one datagram: framing, the size check, the
structural verifier, the sequence machine and the timestamp rules, in this order.

* `FrameDecider.classify_decided` — everything one datagram can do;
* `FrameDecider.run_tracks` — the decider's fields are what the history of its decisions
  says they are;
* `FrameDecider.stream_decisions` — the decisions over any sequence of datagrams.
-/
import IsaacTeleop.ByteText

/-! ### The longest ascending suffix -/

/-- `run` is the longest strictly ascending suffix of `l`. -/
structure LongestAscendingSuffix {α : Type} [LT α] (l run : List α) : Prop where
  suffix : run <:+ l
  ascending : run.Pairwise (· < ·)
  longest : ∀ other, other <:+ l → other.Pairwise (· < ·) → other.length ≤ run.length

namespace LongestAscendingSuffix

variable {α : Type} {l run : List α} {x : α}

theorem eq_of_suffix_snoc {other : List α} (h : other <:+ l ++ [x]) :
    other = [] ∨ ∃ front, front <:+ l ∧ other = front ++ [x] := by
  rcases List.suffix_concat_iff.mp (by simpa using h) with rfl | ⟨front, rfl, hfront⟩
  · exact .inl rfl
  · exact .inr ⟨front, hfront, by simp⟩

variable [Preorder α]

theorem nil : LongestAscendingSuffix ([] : List α) [] := by
  refine ⟨List.suffix_refl _, List.Pairwise.nil, fun other h _ => ?_⟩
  simp [List.suffix_nil.mp h]

/-- A greater element extends it. -/
theorem extend (h : LongestAscendingSuffix l run)
    (hlast : ∀ y, run.getLast? = some y → y < x) :
    LongestAscendingSuffix (l ++ [x]) (run ++ [x]) := by
  refine ⟨?_, ?_, ?_⟩
  · obtain ⟨front, rfl⟩ := h.suffix
    exact ⟨front, by simp⟩
  · refine List.pairwise_append.mpr ⟨h.ascending, List.pairwise_singleton _ _, ?_⟩
    intro a ha b hb
    obtain rfl := List.mem_singleton.mp hb
    -- every element is at most the last one
    obtain ⟨init, y, rfl⟩ := (List.eq_nil_or_concat' run).resolve_left (List.ne_nil_of_mem ha)
    have hy : y < b := hlast y (by simp)
    rcases List.mem_append.mp ha with hinit | hy'
    · exact lt_trans ((List.pairwise_append.mp h.ascending).2.2 a hinit y (by simp)) hy
    · rwa [List.mem_singleton.mp hy']
  · intro other hother hascending
    rcases eq_of_suffix_snoc hother with rfl | ⟨front, hfront, rfl⟩
    · simp
    · have hle := h.longest front hfront (List.pairwise_append.mp hascending).1
      simp only [List.length_append, List.length_singleton]
      omega

/-- An element that is not greater starts it anew. -/
theorem restart (hlast : ∀ y, l.getLast? = some y → ¬ y < x) :
    LongestAscendingSuffix (l ++ [x]) [x] := by
  refine ⟨List.suffix_append .., List.pairwise_singleton _ _, ?_⟩
  intro other hother hascending
  rcases eq_of_suffix_snoc hother with rfl | ⟨front, hfront, rfl⟩
  · simp
  · rcases List.eq_nil_or_concat' front with rfl | ⟨init, y, rfl⟩
    · simp
    · obtain ⟨rest, rfl⟩ := hfront
      have hy : ¬ y < x := hlast y (by simp [← List.append_assoc])
      exact absurd ((List.pairwise_append.mp hascending).2.2 y (by simp) x (by simp)) hy

theorem length_unique {run' : List α} (h : LongestAscendingSuffix l run)
    (h' : LongestAscendingSuffix l run') : run.length = run'.length :=
  le_antisymm (h'.longest run h.suffix h.ascending) (h.longest run' h'.suffix h'.ascending)

end LongestAscendingSuffix

/-! ### The wire format -/

def teleopWireMagic : UInt32 := 0x504C5458
def teleopWireVersion : UInt16 := 1
def teleopWireHeaderSize : ℕ := 36

structure TeleopFrame where
  seq : UInt64
  sampleTimeNs : Int64
  rawDeviceTimeNs : Int64
  payload : ByteText
  deriving DecidableEq

def readU16Le (p : ByteText) : UInt16 :=
  (p.getD 0 0).toUInt16 ||| ((p.getD 1 0).toUInt16 <<< 8)

def readU32Le (p : ByteText) : UInt32 :=
  (p.getD 0 0).toUInt32 ||| ((p.getD 1 0).toUInt32 <<< 8) |||
    ((p.getD 2 0).toUInt32 <<< 16) ||| ((p.getD 3 0).toUInt32 <<< 24)

def readU64Le (p : ByteText) : UInt64 :=
  [7, 6, 5, 4, 3, 2, 1, 0].foldl (fun value i => (value <<< 8) ||| (p.getD i 0).toUInt64) 0

/-- `deserialize_teleop_frame`: the header, and the payload inside the datagram. -/
def deserializeTeleopFrame (data : ByteText) : Option TeleopFrame :=
  if data.length < teleopWireHeaderSize then none
  else if readU32Le data ≠ teleopWireMagic then none
  else if readU16Le (data.drop 4) ≠ teleopWireVersion then none
  else
    let payloadLen := readU32Le (data.drop 32)
    if teleopWireHeaderSize + payloadLen.toNat > data.length then none
    else some {
      seq := readU64Le (data.drop 8)
      sampleTimeNs := (readU64Le (data.drop 16)).toInt64
      rawDeviceTimeNs := (readU64Le (data.drop 24)).toInt64
      payload := (data.drop teleopWireHeaderSize).take payloadLen.toNat }

/-! ### The decider -/

inductive FrameVerdict where
  | deliver
  | droppedMalformed
  | droppedOversize
  | droppedUnverified
  | droppedStale
  deriving DecidableEq

structure FrameOutcome where
  verdict : FrameVerdict := .droppedMalformed
  sessionReset : Bool := false
  sessionResync : Bool := false
  sequenceNumbersSkipped : UInt64 := 0
  timelineRewind : Bool := false
  nonWholeMs : Bool := false
  payload : Option ByteText := none
  seq : UInt64 := 0
  rawDeviceTimeNs : Int64 := 0
  observedPayloadSize : ℕ := 0
  deriving DecidableEq

structure FrameDecider where
  maxFlatbufferSize : ℕ
  haveSeq : Bool := false
  lastSeq : UInt64 := 0
  lastSampleTimeNs : Int64 := 0
  staleRunLastSeq : UInt64 := 0
  staleRunLength : ℕ := 0
  deriving DecidableEq

namespace FrameDecider

def sessionResyncAfter : ℕ := 30
def nsPerMs : Int64 := 1000000

section Classify

-- `VerifyBuffer<FullBodyPose>` of the FlatBuffers library.
variable (verifyBuffer : ByteText → Bool)

def verifyFullBodyPayload (data : ByteText) : Bool :=
  if data.length = 0 then false else verifyBuffer data

/-- The sequence machine.  Without an outcome the frame is stale and goes no further. -/
def sequence (decider : FrameDecider) (frame : TeleopFrame) : Option FrameOutcome × FrameDecider :=
  if decider.haveSeq then
    if frame.seq = 0 ∧ decider.lastSeq ≠ 0 then
      (some { sessionReset := true }, { decider with lastSampleTimeNs := 0 })
    else if frame.seq ≤ decider.lastSeq then
      let decider := { decider with
        staleRunLength :=
          if decider.staleRunLength > 0 ∧ frame.seq > decider.staleRunLastSeq then
            decider.staleRunLength + 1
          else 1
        staleRunLastSeq := frame.seq }
      if decider.staleRunLength < sessionResyncAfter then (none, decider)
      else
        (some { sessionReset := true, sessionResync := true },
          { decider with lastSampleTimeNs := 0 })
    else if frame.seq > decider.lastSeq + 1 then
      (some { sequenceNumbersSkipped := frame.seq - decider.lastSeq - 1 }, decider)
    else (some {}, decider)
  else (some {}, decider)

/-- What follows the sequence machine for a frame that got through it. -/
def deliver (outcome : FrameOutcome) (decider : FrameDecider) (frame : TeleopFrame) :
    FrameOutcome × FrameDecider :=
  ({ outcome with
      nonWholeMs := decide (frame.sampleTimeNs % nsPerMs ≠ 0)
      timelineRewind := decide (frame.sampleTimeNs < decider.lastSampleTimeNs)
      verdict := .deliver
      payload := some frame.payload
      seq := frame.seq
      rawDeviceTimeNs := frame.rawDeviceTimeNs },
    { decider with
      staleRunLength := 0
      haveSeq := true
      lastSeq := frame.seq
      lastSampleTimeNs := frame.sampleTimeNs })

def classify (decider : FrameDecider) (datagram : ByteText) : FrameOutcome × FrameDecider :=
  match deserializeTeleopFrame datagram with
  | none => ({ verdict := .droppedMalformed }, decider)
  | some frame =>
    if frame.payload.length > decider.maxFlatbufferSize then
      ({ verdict := .droppedOversize, observedPayloadSize := frame.payload.length }, decider)
    else if !verifyFullBodyPayload verifyBuffer frame.payload then
      ({ verdict := .droppedUnverified }, decider)
    else
      match decider.sequence frame with
      | (none, decider) => ({ verdict := .droppedStale }, decider)
      | (some outcome, decider) => deliver outcome decider frame

/-- A sequence of datagrams, each with its outcome, and the decider after them. -/
def run (decider : FrameDecider) (datagrams : List ByteText) :
    List (ByteText × FrameOutcome) × FrameDecider :=
  datagrams.foldl (fun reached datagram =>
    let (outcome, decider) := reached.2.classify verifyBuffer datagram
    (reached.1 ++ [(datagram, outcome)], decider)) ([], decider)

/-- The frame of a datagram that passes framing, the size check and the verifier. -/
def verifiedFrame (maxFlatbufferSize : ℕ) (datagram : ByteText) : Option TeleopFrame :=
  (deserializeTeleopFrame datagram).filter fun frame =>
    frame.payload.length ≤ maxFlatbufferSize && verifyFullBodyPayload verifyBuffer frame.payload

end Classify

/-! ### One datagram -/

/-- The sequence number is neither above the last one nor the start of a new session. -/
def Stale (last seq : ℕ) : Prop := seq ≤ last ∧ ¬ (seq = 0 ∧ last ≠ 0)

/-- The length of the stale run after one more stale frame. -/
def nextRun (decider : FrameDecider) (seq : UInt64) : ℕ :=
  if decider.staleRunLength > 0 ∧ seq > decider.staleRunLastSeq then decider.staleRunLength + 1
  else 1

/-- Why a frame gets through the sequence machine, with the flags it is delivered with. -/
inductive Passes (decider : FrameDecider) (seq : UInt64) (outcome : FrameOutcome) : Prop
  | first (fresh : decider.haveSeq = false) (noReset : outcome.sessionReset = false)
      (noResync : outcome.sessionResync = false)
  | reset (seen : decider.haveSeq = true) (zero : seq = 0) (nonzero : decider.lastSeq ≠ 0)
      (isReset : outcome.sessionReset = true) (noResync : outcome.sessionResync = false)
  | resync (seen : decider.haveSeq = true) (stale : Stale decider.lastSeq.toNat seq.toNat)
      (long : sessionResyncAfter ≤ decider.nextRun seq)
      (isReset : outcome.sessionReset = true) (isResync : outcome.sessionResync = true)
  | ahead (seen : decider.haveSeq = true) (above : decider.lastSeq.toNat < seq.toNat)
      (skipped : outcome.sequenceNumbersSkipped.toNat = seq.toNat - decider.lastSeq.toNat - 1)
      (noReset : outcome.sessionReset = false) (noResync : outcome.sessionResync = false)

/-- Everything one datagram can do. -/
inductive Decided (verifyBuffer : ByteText → Bool) (decider : FrameDecider)
    (datagram : ByteText) : FrameOutcome → FrameDecider → Prop
  | rejected (outcome : FrameOutcome)
      (unverified : verifiedFrame verifyBuffer decider.maxFlatbufferSize datagram = none)
      (verdict : outcome.verdict = .droppedMalformed ∨ outcome.verdict = .droppedOversize ∨
        outcome.verdict = .droppedUnverified)
      (noResync : outcome.sessionResync = false) :
      Decided verifyBuffer decider datagram outcome decider
  | stale (frame : TeleopFrame) (outcome : FrameOutcome)
      (verified : verifiedFrame verifyBuffer decider.maxFlatbufferSize datagram = some frame)
      (seen : decider.haveSeq = true) (stale : Stale decider.lastSeq.toNat frame.seq.toNat)
      (short : decider.nextRun frame.seq < sessionResyncAfter)
      (verdict : outcome.verdict = .droppedStale) (noResync : outcome.sessionResync = false) :
      Decided verifyBuffer decider datagram outcome
        { decider with
          staleRunLength := decider.nextRun frame.seq
          staleRunLastSeq := frame.seq }
  | delivered (frame : TeleopFrame) (outcome : FrameOutcome) (decider' : FrameDecider)
      (verified : verifiedFrame verifyBuffer decider.maxFlatbufferSize datagram = some frame)
      (verdict : outcome.verdict = .deliver) (seq : outcome.seq = frame.seq)
      (passes : Passes decider frame.seq outcome)
      (size : decider'.maxFlatbufferSize = decider.maxFlatbufferSize)
      (seen : decider'.haveSeq = true) (last : decider'.lastSeq = frame.seq)
      (noRun : decider'.staleRunLength = 0) :
      Decided verifyBuffer decider datagram outcome decider'

variable {verifyBuffer : ByteText → Bool} {decider : FrameDecider}

/-- The gap between two sequence numbers, up to the ends of the 64-bit range. -/
theorem toNat_gap {last seq : UInt64} (h : last.toNat < seq.toNat) :
    (seq - last - 1).toNat = seq.toNat - last.toNat - 1 := by
  have hle : last ≤ seq := UInt64.le_iff_toNat_le.mpr h.le
  have hsub : (seq - last).toNat = seq.toNat - last.toNat := UInt64.toNat_sub_of_le _ _ hle
  have hone : (1 : UInt64) ≤ seq - last := by
    rw [UInt64.le_iff_toNat_le, hsub]
    have : (1 : UInt64).toNat = 1 := rfl
    omega
  rw [UInt64.toNat_sub_of_le _ _ hone, hsub]
  rfl

/-- The successor of the last number, which does not wrap below a greater one. -/
theorem toNat_succ {last seq : UInt64} (h : last.toNat < seq.toNat) :
    (last + 1).toNat = last.toNat + 1 := by
  have hlt := UInt64.toNat_lt seq
  rw [UInt64.toNat_add]
  have : (1 : UInt64).toNat = 1 := rfl
  omega

theorem stale_of_le {last seq : UInt64} (hreset : ¬ (seq = 0 ∧ last ≠ 0)) (h : seq ≤ last) :
    Stale last.toNat seq.toNat := by
  refine ⟨UInt64.le_iff_toNat_le.mp h, ?_⟩
  rintro ⟨hzero, hnonzero⟩
  refine hreset ⟨UInt64.toNat_inj.mp (by simpa using hzero), ?_⟩
  rintro rfl
  exact hnonzero rfl

theorem sequence_none {frame : TeleopFrame} {decider' : FrameDecider}
    (h : decider.sequence frame = (none, decider')) :
    decider.haveSeq = true ∧ Stale decider.lastSeq.toNat frame.seq.toNat ∧
      decider.nextRun frame.seq < sessionResyncAfter ∧
      decider' = { decider with
        staleRunLength := decider.nextRun frame.seq
        staleRunLastSeq := frame.seq } := by
  simp only [sequence] at h
  by_cases hseen : decider.haveSeq = true
  · rw [if_pos hseen] at h
    -- Neither a reset nor ahead, and the run of stale numbers is still short.
    split at h
    · simp at h
    · rename_i hreset
      split at h
      · rename_i hle
        change (if decider.nextRun frame.seq < sessionResyncAfter then _ else _) = _ at h
        split at h
        · rename_i hshort
          obtain ⟨-, rfl⟩ := Prod.mk.inj h
          exact ⟨hseen, stale_of_le hreset hle, hshort, rfl⟩
        · simp at h
      · split at h
        · simp at h
        · simp at h
  · rw [if_neg hseen] at h
    simp at h

theorem sequence_some {frame : TeleopFrame} {outcome : FrameOutcome} {decider' : FrameDecider}
    (h : decider.sequence frame = (some outcome, decider')) :
    Passes decider frame.seq outcome ∧
      decider'.maxFlatbufferSize = decider.maxFlatbufferSize := by
  simp only [sequence] at h
  by_cases hseen : decider.haveSeq = true
  · rw [if_pos hseen] at h
    split at h
    · rename_i hreset
      obtain ⟨houtcome, rfl⟩ := Prod.mk.inj h
      obtain rfl := Option.some.inj houtcome
      exact ⟨.reset hseen hreset.1 hreset.2 rfl rfl, rfl⟩
    · rename_i hreset
      split at h
      · rename_i hle
        change (if decider.nextRun frame.seq < sessionResyncAfter then _ else _) = _ at h
        split at h
        · simp at h
        · rename_i hlong
          obtain ⟨houtcome, rfl⟩ := Prod.mk.inj h
          obtain rfl := Option.some.inj houtcome
          exact ⟨.resync hseen (stale_of_le hreset hle) (Nat.le_of_not_lt hlong) rfl rfl, rfl⟩
      · rename_i hle
        have habove : decider.lastSeq.toNat < frame.seq.toNat := by
          rw [UInt64.le_iff_toNat_le] at hle
          omega
        split at h
        · obtain ⟨houtcome, rfl⟩ := Prod.mk.inj h
          obtain rfl := Option.some.inj houtcome
          exact ⟨.ahead hseen habove (toNat_gap habove) rfl rfl, rfl⟩
        · rename_i hgap
          obtain ⟨houtcome, rfl⟩ := Prod.mk.inj h
          obtain rfl := Option.some.inj houtcome
          -- no gap: the number is the successor of the last one
          refine ⟨.ahead hseen habove ?_ rfl rfl, rfl⟩
          have hnext : ¬ (decider.lastSeq + 1).toNat < frame.seq.toNat := by
            rwa [← UInt64.lt_iff_toNat_lt]
          rw [toNat_succ habove] at hnext
          change 0 = _
          omega
  · rw [if_neg hseen] at h
    obtain ⟨houtcome, rfl⟩ := Prod.mk.inj h
    obtain rfl := Option.some.inj houtcome
    exact ⟨.first (by simpa using hseen) rfl rfl, rfl⟩

/-- The later stages set no session flag and no skipped count. -/
theorem Passes.of_deliver {seq : UInt64} {outcome : FrameOutcome} (h : Passes decider seq outcome)
    (decider' : FrameDecider) (frame : TeleopFrame) :
    Passes decider seq (deliver outcome decider' frame).1 := by
  cases h with
  | first fresh noReset noResync => exact .first fresh noReset noResync
  | reset seen zero nonzero isReset noResync => exact .reset seen zero nonzero isReset noResync
  | resync seen stale long isReset isResync => exact .resync seen stale long isReset isResync
  | ahead seen above skipped noReset noResync => exact .ahead seen above skipped noReset noResync

/-- **Everything one datagram can do.** -/
theorem classify_decided (verifyBuffer : ByteText → Bool) (decider : FrameDecider)
    (datagram : ByteText) :
    Decided verifyBuffer decider datagram (decider.classify verifyBuffer datagram).1
      (decider.classify verifyBuffer datagram).2 := by
  simp only [classify]
  split
  · rename_i hframe
    exact .rejected _ (by simp [verifiedFrame, hframe]) (.inl rfl) rfl
  · rename_i frame hframe
    split
    · rename_i hsize
      refine .rejected _ ?_ (.inr (.inl rfl)) rfl
      simp [verifiedFrame, hframe, Option.filter, Nat.not_le.mpr hsize]
    · rename_i hsize
      split
      · rename_i hverify
        refine .rejected _ ?_ (.inr (.inr rfl)) rfl
        simp_all [verifiedFrame, Option.filter]
      · rename_i hverify
        -- Framing, size and verification have passed, so the sequence decides.
        have hverified : verifiedFrame verifyBuffer decider.maxFlatbufferSize datagram =
            some frame := by
          simp_all [verifiedFrame, Option.filter]
        split
        · rename_i decider' hsequence
          obtain ⟨hseen, hstale, hshort, rfl⟩ := sequence_none hsequence
          exact .stale frame _ hverified hseen hstale hshort rfl rfl
        · rename_i outcome decider' hsequence
          obtain ⟨hpasses, hsize'⟩ := sequence_some hsequence
          exact .delivered frame _ _ hverified rfl rfl (hpasses.of_deliver decider' frame) hsize'
            rfl rfl rfl

/-- A datagram without a verified frame is dropped and leaves the decider as it was. -/
theorem Decided.unverified {datagram : ByteText} {outcome : FrameOutcome}
    {decider' : FrameDecider} (h : Decided verifyBuffer decider datagram outcome decider')
    (hnone : verifiedFrame verifyBuffer decider.maxFlatbufferSize datagram = none) :
    outcome.verdict ∈ [FrameVerdict.droppedMalformed, .droppedOversize, .droppedUnverified] ∧
      decider' = decider := by
  cases h with
  | rejected _ unverified verdict noResync => exact ⟨by simpa using verdict, rfl⟩
  | stale frame _ verified => simp [hnone] at verified
  | delivered frame _ _ verified => simp [hnone] at verified

/-! ### What the history of decisions says -/

/-- The delivered frames. -/
def delivered (history : List (ByteText × FrameOutcome)) : List FrameOutcome :=
  (history.map Prod.snd).filter fun outcome => outcome.verdict = .deliver

/-- The sequence number of a frame dropped as stale. -/
def staleSeq (call : ByteText × FrameOutcome) : Option ℕ :=
  if call.2.verdict = .droppedStale then
    (deserializeTeleopFrame call.1).map fun frame => frame.seq.toNat
  else none

/-- The sequence numbers of the frames dropped as stale since the last delivery. -/
def staleSince (history : List (ByteText × FrameOutcome)) : List ℕ :=
  (history.rtakeWhile fun call => call.2.verdict ≠ .deliver).filterMap staleSeq

theorem delivered_snoc (history : List (ByteText × FrameOutcome)) (datagram : ByteText)
    (outcome : FrameOutcome) :
    delivered (history ++ [(datagram, outcome)]) =
      if outcome.verdict = .deliver then delivered history ++ [outcome]
      else delivered history := by
  by_cases h : outcome.verdict = .deliver
  · simp [delivered, h]
  · simp [delivered, h]

theorem staleSince_snoc (history : List (ByteText × FrameOutcome)) (datagram : ByteText)
    (outcome : FrameOutcome) :
    staleSince (history ++ [(datagram, outcome)]) =
      if outcome.verdict = .deliver then []
      else staleSince history ++ (staleSeq (datagram, outcome)).toList := by
  by_cases h : outcome.verdict = .deliver
  · simp [staleSince, h]
  · cases hseq : staleSeq (datagram, outcome) with
    | none => simp [staleSince, h, hseq]
    | some seq => simp [staleSince, h, hseq]

theorem deserialize_of_verified {maxSize : ℕ} {datagram : ByteText} {frame : TeleopFrame}
    (h : verifiedFrame verifyBuffer maxSize datagram = some frame) :
    deserializeTeleopFrame datagram = some frame :=
  (Option.filter_eq_some_iff.mp h).1

/-- The decider's fields are what the history says they are. -/
structure Tracks (maxSize : ℕ) (history : List (ByteText × FrameOutcome))
    (decider : FrameDecider) : Prop where
  size : decider.maxFlatbufferSize = maxSize
  last : (delivered history).getLast?.map FrameOutcome.seq =
    if decider.haveSeq then some decider.lastSeq else none
  run : ∃ run, LongestAscendingSuffix (staleSince history) run ∧
    run.length = decider.staleRunLength
  runLast : ∀ seq, (staleSince history).getLast? = some seq →
    decider.staleRunLastSeq.toNat = seq
  stale : ∀ seq ∈ staleSince history, Stale decider.lastSeq.toNat seq
  short : decider.staleRunLength < sessionResyncAfter

variable {maxSize : ℕ} {history : List (ByteText × FrameOutcome)}

/-- A delivered frame with its flags, after the frame delivered before it. -/
def Follows (before after : FrameOutcome) : Prop :=
  after.sessionReset = true ∨ before.seq.toNat < after.seq.toNat ∧
    after.sequenceNumbersSkipped.toNat = after.seq.toNat - before.seq.toNat - 1

/-- One more stale frame: the length of the run is that of the longest ascending suffix. -/
theorem Tracks.nextRun (h : Tracks maxSize history decider) (seq : UInt64) :
    ∃ run, LongestAscendingSuffix (staleSince history ++ [seq.toNat]) run ∧
      run.length = decider.nextRun seq := by
  obtain ⟨run, hrun, hlength⟩ := h.run
  by_cases hcontinues : decider.staleRunLength > 0 ∧ seq > decider.staleRunLastSeq
  · refine ⟨run ++ [seq.toNat], hrun.extend ?_, ?_⟩
    · intro y hy
      obtain ⟨front, hfront⟩ := hrun.suffix
      have hlast : (staleSince history).getLast? = some y := by
        rw [← hfront, List.getLast?_append, hy]
        rfl
      rw [← h.runLast y hlast]
      exact UInt64.lt_iff_toNat_lt.mp hcontinues.2
    · rw [FrameDecider.nextRun, if_pos hcontinues, List.length_append, hlength]
      rfl
  · refine ⟨[seq.toNat], LongestAscendingSuffix.restart ?_, ?_⟩
    · intro y hy hlt
      refine hcontinues ⟨?_, ?_⟩
      · -- a frame was dropped, so the run is not empty
        have hsingle := hrun.longest [y] (by
          obtain ⟨init, hinit⟩ := List.getLast?_eq_some_iff.mp hy
          exact ⟨init, hinit.symm⟩) (List.pairwise_singleton _ _)
        simp only [List.length_singleton] at hsingle
        omega
      · rw [← h.runLast y hy] at hlt
        exact UInt64.lt_iff_toNat_lt.mpr hlt
    · rw [FrameDecider.nextRun, if_neg hcontinues]
      rfl

/-- One decision keeps the fields in line with the history. -/
theorem Tracks.step {datagram : ByteText} {outcome : FrameOutcome} {decider' : FrameDecider}
    (h : Tracks maxSize history decider)
    (hd : Decided verifyBuffer decider datagram outcome decider') :
    Tracks maxSize (history ++ [(datagram, outcome)]) decider' := by
  cases hd with
  | rejected _ unverified verdict noResync =>
    -- A rejected datagram leaves no trace in the history.
    have hnot : outcome.verdict ≠ .deliver ∧ outcome.verdict ≠ .droppedStale := by
      rcases verdict with hv | hv | hv <;> simp [hv]
    have hsince : staleSince (history ++ [(datagram, outcome)]) = staleSince history := by
      simp [staleSince_snoc, hnot.1, staleSeq, hnot.2]
    have hdelivered : delivered (history ++ [(datagram, outcome)]) = delivered history := by
      simp [delivered_snoc, hnot.1]
    exact ⟨h.size, hdelivered ▸ h.last, hsince ▸ h.run, hsince ▸ h.runLast, hsince ▸ h.stale,
      h.short⟩
  | stale frame _ verified seen stale short verdict noResync =>
    -- A stale frame makes the run of stale ones longer.
    have hsince : staleSince (history ++ [(datagram, outcome)]) =
        staleSince history ++ [frame.seq.toNat] := by
      simp [staleSince_snoc, verdict, staleSeq, deserialize_of_verified verified]
    have hdelivered : delivered (history ++ [(datagram, outcome)]) = delivered history := by
      simp [delivered_snoc, verdict]
    refine ⟨h.size, hdelivered ▸ h.last, hsince ▸ h.nextRun frame.seq, ?_, ?_, short⟩
    · intro seq hseq
      simpa [hsince] using hseq
    · intro seq hseq
      rw [hsince, List.mem_append, List.mem_singleton] at hseq
      rcases hseq with hseq | rfl
      · exact h.stale seq hseq
      · exact stale
  | delivered frame _ _ verified verdict seq passes size seen last noRun =>
    -- A delivery starts over.
    have hsince : staleSince (history ++ [(datagram, outcome)]) = [] := by
      simp [staleSince_snoc, verdict]
    refine ⟨size.trans h.size, ?_, ?_, ?_, ?_, ?_⟩
    · simp [delivered_snoc, verdict, seen, last, seq]
    · rw [hsince, noRun]
      exact ⟨[], LongestAscendingSuffix.nil, rfl⟩
    · simp [hsince]
    · simp [hsince]
    · rw [noRun]
      decide

/-- One decision extends the chain of delivered frames. -/
theorem Tracks.follows {datagram : ByteText} {outcome : FrameOutcome} {decider' : FrameDecider}
    (h : Tracks maxSize history decider) (hchain : (delivered history).IsChain Follows)
    (hd : Decided verifyBuffer decider datagram outcome decider') :
    (delivered (history ++ [(datagram, outcome)])).IsChain Follows := by
  rw [delivered_snoc]
  split
  · rename_i hverdict
    refine List.isChain_append.mpr ⟨hchain, List.isChain_singleton _, ?_⟩
    intro before hbefore after hafter
    obtain rfl : outcome = after := by simpa using hafter
    have hlast := h.last
    rw [Option.mem_def.mp hbefore] at hlast
    cases hd with
    | rejected _ unverified verdict noResync =>
      rcases verdict with hv | hv | hv <;> simp [hv] at hverdict
    | stale frame _ verified seen stale short verdict noResync =>
      simp [verdict] at hverdict
    | delivered frame _ _ verified verdict seq passes size seen last noRun =>
      cases passes with
      | first fresh noReset noResync => simp [fresh] at hlast
      | reset seen zero nonzero isReset noResync => exact .inl isReset
      | resync seen stale long isReset isResync => exact .inl isReset
      | ahead seen above skipped noReset noResync =>
        -- The decider's last number is that of the last delivery.
        have hseq : before.seq = decider.lastSeq := by simpa [seen] using hlast
        rw [← hseq] at above skipped
        rw [← seq] at above skipped
        exact .inr ⟨above, skipped⟩
  · exact hchain

/-! ### Every sequence of datagrams -/

theorem run_snoc (decider : FrameDecider) (datagrams : List ByteText) (datagram : ByteText) :
    decider.run verifyBuffer (datagrams ++ [datagram]) =
      let reached := decider.run verifyBuffer datagrams
      (reached.1 ++ [(datagram, (reached.2.classify verifyBuffer datagram).1)],
        (reached.2.classify verifyBuffer datagram).2) := by
  simp [run, List.foldl_append]

/-- **The run lemma:** after any datagrams the fields are what the history says, and each
delivered frame follows the one before it. -/
theorem run_tracks (verifyBuffer : ByteText → Bool) (maxSize : ℕ) (datagrams : List ByteText) :
    let reached := ({ maxFlatbufferSize := maxSize } : FrameDecider).run verifyBuffer datagrams
    Tracks maxSize reached.1 reached.2 ∧ (delivered reached.1).IsChain Follows := by
  induction datagrams using List.reverseRecOn with
  | nil =>
    refine ⟨⟨rfl, rfl, ⟨[], LongestAscendingSuffix.nil, rfl⟩, ?_, ?_, Nat.succ_pos 29⟩, ?_⟩
    · intro seq hseq
      simp [run, staleSince] at hseq
    · intro seq hseq
      simp [run, staleSince] at hseq
    · exact List.isChain_nil
  | append_singleton datagrams datagram ih =>
    rw [run_snoc]
    exact ⟨ih.1.step (classify_decided ..), ih.1.follows ih.2 (classify_decided ..)⟩

theorem run_cons (decider : FrameDecider) (datagram : ByteText) (datagrams : List ByteText) :
    decider.run verifyBuffer (datagram :: datagrams) =
      let first := decider.classify verifyBuffer datagram
      let rest := first.2.run verifyBuffer datagrams
      ((datagram, first.1) :: rest.1, rest.2) := by
  induction datagrams using List.reverseRecOn with
  | nil => rfl
  | append_singleton datagrams later ih =>
    simp only [← List.cons_append, run_snoc, ih]

/-! ### The resynchronisation -/

/-- A stale frame that ends a run of thirty is delivered as a new session, and no other. -/
theorem Tracks.resync_iff (h : Tracks maxSize history decider) {datagram : ByteText}
    {outcome : FrameOutcome} {decider' : FrameDecider}
    (hd : Decided verifyBuffer decider datagram outcome decider') :
    outcome.sessionResync = true ↔
      ∃ frame last run, verifiedFrame verifyBuffer maxSize datagram = some frame ∧
        (delivered history).getLast? = some last ∧
        LongestAscendingSuffix (staleSince history ++ [frame.seq.toNat]) run ∧
        run.length = sessionResyncAfter ∧ ∀ seq ∈ run, Stale last.seq.toNat seq := by
  rw [← h.size]
  constructor
  · intro hresync
    cases hd with
    | rejected _ unverified verdict noResync => simp [noResync] at hresync
    | stale frame _ verified seen stale short verdict noResync => simp [noResync] at hresync
    | delivered frame _ _ verified verdict seq passes size seen last noRun =>
      cases passes with
      | first fresh noReset noResync => simp [noResync] at hresync
      | reset seen zero nonzero isReset noResync => simp [noResync] at hresync
      | ahead seen above skipped noReset noResync => simp [noResync] at hresync
      | resync seen stale long isReset isResync =>
        obtain ⟨run, hrun, hlength⟩ := h.nextRun frame.seq
        have hlast := h.last
        rw [if_pos seen, Option.map_eq_some_iff] at hlast
        obtain ⟨before, hbefore, hseq⟩ := hlast
        refine ⟨frame, before, run, verified, hbefore, hrun, ?_, ?_⟩
        · have hshort := h.short
          have hmax : decider.nextRun frame.seq ≤ decider.staleRunLength + 1 := by
            rw [FrameDecider.nextRun]
            split <;> omega
          omega
        · intro number hnumber
          rw [hseq]
          rcases List.mem_append.mp (hrun.suffix.subset hnumber) with hin | hin
          · exact h.stale number hin
          · rw [List.mem_singleton.mp hin]
            exact stale
  · rintro ⟨frame, last, run, hverified, hlast, hrun, hlength, hstale⟩
    obtain ⟨run', hrun', hlength'⟩ := h.nextRun frame.seq
    have hnext : decider.nextRun frame.seq = sessionResyncAfter := by
      rw [← hlength', ← hlength]
      exact hrun'.length_unique hrun
    have htracked := h.last
    rw [hlast] at htracked
    have hframe : Stale last.seq.toNat frame.seq.toNat := by
      refine hstale _ ?_
      obtain hnil | ⟨front, -, rfl⟩ := LongestAscendingSuffix.eq_of_suffix_snoc hrun.suffix
      · rw [hnil] at hlength
        simp [sessionResyncAfter] at hlength
      · simp
    cases hd with
    | rejected _ unverified verdict noResync => simp [unverified] at hverified
    | stale frame' _ verified seen stale short verdict noResync =>
      rw [verified] at hverified
      obtain rfl := Option.some.inj hverified
      omega
    | delivered frame' _ _ verified verdict seq passes size seen last' noRun =>
      rw [verified] at hverified
      obtain rfl := Option.some.inj hverified
      cases passes with
      | first fresh noReset noResync => simp [fresh] at htracked
      | reset seen zero nonzero isReset noResync =>
        -- a step back to zero is not stale
        have hseq : last.seq = decider.lastSeq := by simpa [seen] using htracked
        refine absurd ⟨by simp [zero], ?_⟩ hframe.2
        rw [hseq]
        intro hzero
        exact nonzero (UInt64.toNat_inj.mp (by simpa using hzero))
      | ahead seen above skipped noReset noResync =>
        have hseq : last.seq = decider.lastSeq := by simpa [seen] using htracked
        have hle := hframe.1
        rw [hseq] at hle
        omega
      | resync seen stale long isReset isResync => exact isResync

/-- **The stream cannot be stuck:** thirty verified ascending frames, or what is missing to
thirty after a run that they continue, contain one that is delivered. -/
theorem run_delivers (datagrams : List ByteText) (decider : FrameDecider)
    (hshort : decider.staleRunLength < sessionResyncAfter)
    (hascending :
      (datagrams.filterMap (verifiedFrame verifyBuffer decider.maxFlatbufferSize)).Pairwise
        fun a b => a.seq.toNat < b.seq.toNat)
    (henough : sessionResyncAfter ≤
        (datagrams.filterMap (verifiedFrame verifyBuffer decider.maxFlatbufferSize)).length ∨
      0 < decider.staleRunLength ∧ sessionResyncAfter ≤ decider.staleRunLength +
        (datagrams.filterMap (verifiedFrame verifyBuffer decider.maxFlatbufferSize)).length ∧
      ∀ frame ∈ datagrams.filterMap (verifiedFrame verifyBuffer decider.maxFlatbufferSize),
        decider.staleRunLastSeq.toNat < frame.seq.toNat) :
    ∃ call ∈ (decider.run verifyBuffer datagrams).1, call.2.verdict = .deliver := by
  -- Every verified frame is delivered or lengthens the stale run, and the run ends in a resync.
  induction datagrams generalizing decider with
  | nil =>
    simp only [List.filterMap_nil, List.length_nil, sessionResyncAfter] at henough hshort
    omega
  | cons datagram datagrams ih =>
    rw [run_cons]
    have hd := classify_decided verifyBuffer decider datagram
    generalize decider.classify verifyBuffer datagram = result at hd
    obtain ⟨outcome, decider'⟩ := result
    cases hd with
    | rejected _ unverified verdict noResync =>
      rw [List.filterMap_cons_none unverified] at hascending henough
      obtain ⟨call, hcall, hdeliver⟩ := ih _ hshort hascending henough
      exact ⟨call, List.mem_cons_of_mem _ hcall, hdeliver⟩
    | delivered frame _ _ verified verdict seq passes size seen last noRun =>
      exact ⟨_, List.mem_cons_self .., verdict⟩
    | stale frame _ verified seen stale short verdict noResync =>
      rw [List.filterMap_cons_some verified] at hascending henough
      rw [List.pairwise_cons] at hascending
      have hpos : 0 < decider.nextRun frame.seq := by
        rw [FrameDecider.nextRun]
        split <;> omega
      -- The run goes on below the frame, or begins anew with it.
      have hmissing : sessionResyncAfter ≤ decider.nextRun frame.seq + (datagrams.filterMap
          (verifiedFrame verifyBuffer decider.maxFlatbufferSize)).length := by
        rw [List.length_cons] at henough
        rcases henough with henough | ⟨hrun, henough, habove⟩
        · omega
        · have hgreater : frame.seq > decider.staleRunLastSeq :=
            UInt64.lt_iff_toNat_lt.mpr (habove frame (List.mem_cons_self ..))
          rw [FrameDecider.nextRun, if_pos ⟨hrun, hgreater⟩]
          omega
      obtain ⟨call, hcall, hdeliver⟩ :=
        ih { decider with
              staleRunLength := decider.nextRun frame.seq
              staleRunLastSeq := frame.seq }
          short hascending.2 (.inr ⟨hpos, hmissing, hascending.1⟩)
      exact ⟨call, List.mem_cons_of_mem _ hcall, hdeliver⟩

/-- **The decisions over any sequence of datagrams.**  A malformed, oversize or unverified
datagram leaves the decider as it was; between two session resets the delivered sequence
numbers strictly increase, and each skipped count is the gap to the number delivered before;
a stale frame is taken for a new session exactly when it is the thirtieth of a run of verified
frames that are all stale and strictly ascending; and any thirty verified ascending frames
contain one that is delivered. -/
theorem stream_decisions (verifyBuffer : ByteText → Bool) (maxSize : ℕ)
    (datagrams : List ByteText) :
    let reached := ({ maxFlatbufferSize := maxSize } : FrameDecider).run verifyBuffer datagrams
    let history := reached.1
    let decider := reached.2
    (∀ datagram, verifiedFrame verifyBuffer maxSize datagram = none →
      (decider.classify verifyBuffer datagram).1.verdict ∈
          [FrameVerdict.droppedMalformed, .droppedOversize, .droppedUnverified] ∧
        (decider.classify verifyBuffer datagram).2 = decider) ∧
      (∀ before segment after, delivered history = before ++ segment ++ after →
        (∀ outcome ∈ segment.tail, outcome.sessionReset = false) →
        segment.Pairwise (fun a b => a.seq.toNat < b.seq.toNat) ∧
          segment.IsChain fun a b =>
            b.sequenceNumbersSkipped.toNat = b.seq.toNat - a.seq.toNat - 1) ∧
      (∀ datagram, (decider.classify verifyBuffer datagram).1.sessionResync = true ↔
        ∃ frame last run, verifiedFrame verifyBuffer maxSize datagram = some frame ∧
          (delivered history).getLast? = some last ∧
          LongestAscendingSuffix (staleSince history ++ [frame.seq.toNat]) run ∧
          run.length = sessionResyncAfter ∧ ∀ seq ∈ run, Stale last.seq.toNat seq) ∧
      (∀ later : List ByteText,
        sessionResyncAfter ≤ (later.filterMap (verifiedFrame verifyBuffer maxSize)).length →
        (later.filterMap (verifiedFrame verifyBuffer maxSize)).Pairwise
          (fun a b => a.seq.toNat < b.seq.toNat) →
        ∃ call ∈ (decider.run verifyBuffer later).1, call.2.verdict = .deliver) := by
  intro reached history decider
  obtain ⟨htracks, hchain⟩ := run_tracks verifyBuffer maxSize datagrams
  refine ⟨?_, ?_, ?_, ?_⟩
  · intro datagram hnone
    rw [← htracks.size] at hnone
    exact (classify_decided _ decider datagram).unverified hnone
  · intro before segment after hsegment hnoReset
    -- A stretch of the deliveries is a chain, as all of them are.
    have hsub : segment.IsChain Follows := hchain.infix ⟨before, after, hsegment.symm⟩
    -- A delivery that does not follow the one before is marked as a reset.
    have hstrict : segment.IsChain fun a b => a.seq.toNat < b.seq.toNat ∧
        b.sequenceNumbersSkipped.toNat = b.seq.toNat - a.seq.toNat - 1 := by
      refine hsub.imp_of_mem_tail_imp fun a b _ hb hab => ?_
      exact hab.resolve_left (by simp [hnoReset b hb])
    refine ⟨?_, hstrict.imp fun a b hab => hab.2⟩
    have hlt : (segment.map fun outcome => outcome.seq.toNat).IsChain (· < ·) :=
      (List.isChain_map _).mpr (hstrict.imp fun a b hab => hab.1)
    exact List.pairwise_map.mp (List.isChain_iff_pairwise.mp hlt)
  · intro datagram
    exact htracks.resync_iff (classify_decided ..)
  · intro later hlength hascending
    rw [← htracks.size] at hlength hascending
    exact run_delivers later decider htracks.short hascending (.inl hlength)

end FrameDecider
