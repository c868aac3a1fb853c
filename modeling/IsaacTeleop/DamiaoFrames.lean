/-
Frames of the Damiao USB-to-CAN adapter.

The adapter sends frames of 16 bytes over a serial line.  The reads of the line split the stream
anywhere, so the bus keeps what it has read in a buffer and looks for frames there: it skips one
byte at a time until a frame is found, moves the rest of the buffer to its front, and passes over
remote frames.

* `parseFrame`, `readFrame` — the buffer and its parser, with the reads of the line;
* `frames` — the frames of a byte stream, whatever the reads;
* `parseLoop_spec` — the parser takes the first frame of any stream the buffer begins;
* `frame_extraction` — the frames returned in a run are those of the bytes read.
-/
import IsaacTeleop.ByteText

namespace Damiao

/-! ### Frames of the adapter -/

def kRxFrameLen : ℕ := 16
def kRxHeader : UInt8 := 0xAA
def kRxCmd : UInt8 := 0x11
def kRxTrailer : UInt8 := 0x55

/-- `sizeof(rx_buf_)` -/
def rxBufSize : ℕ := 512

structure CanFrame where
  arbitrationId : UInt32 := 0
  data : Vector UInt8 8 := Vector.replicate 8 0
  dlc : UInt8 := 0
  deriving DecidableEq

/-- The header and the trailer are there. -/
def IsFrame (raw : ByteText) : Prop :=
  ¬ (raw.getD 0 0 ≠ kRxHeader ∨ raw.getD 1 0 ≠ kRxCmd ∨ raw.getD 15 0 ≠ kRxTrailer)

instance (raw : ByteText) : Decidable (IsFrame raw) := inferInstanceAs (Decidable (¬ _))

def isRtr (raw : ByteText) : Bool := raw.getD 2 0 &&& 0x80 ≠ 0

def decodeFrame (raw : ByteText) : CanFrame where
  arbitrationId := (raw.getD 3 0).toUInt32 ||| ((raw.getD 4 0).toUInt32 <<< 8) |||
    ((raw.getD 5 0).toUInt32 <<< 16) ||| ((raw.getD 6 0).toUInt32 <<< 24)
  data := Vector.ofFn fun i => raw.getD (7 + i) 0
  dlc := if raw.getD 2 0 &&& 0x3F > 8 then 8 else raw.getD 2 0 &&& 0x3F

/-! ### The bus -/

/-- The loop of `parse_frame` over the bytes in the buffer, for at most `fuel` iterations: whether
a frame was found, the frame it was written to, and what stays in the buffer. -/
def parseLoop : ℕ → ByteText → ℕ → CanFrame → Option (Bool × CanFrame × ByteText)
  | 0, _, _, _ => none
  | fuel + 1, rxBuf, start, out =>
    if start + kRxFrameLen ≤ rxBuf.length then
      let raw := rxBuf.drop start
      if IsFrame raw then
        -- The frame and any garbage before it are consumed.
        let rest := rxBuf.drop (start + kRxFrameLen)
        if isRtr raw then parseLoop fuel rest 0 (decodeFrame raw)
        else some (true, decodeFrame raw, rest)
      else parseLoop fuel rxBuf (start + 1) out
    else some (false, out, rxBuf.drop start)

def parseFrame (rxBuf : ByteText) (out : CanFrame) : Option (Bool × CanFrame × ByteText) :=
  parseLoop (rxBuf.length + 1) rxBuf 0 out

/-- The bus with its serial line; and, for the statements only, what has happened so far. -/
structure DamiaoBus where
  rxBuf : ByteText := []
  /-- Bytes that have arrived and were not read yet. -/
  pending : ByteText := []
  /-- All bytes read so far. -/
  consumed : ByteText := []
  /-- The number of buffered bytes at each request for input. -/
  requests : List ℕ := []
  returned : List CanFrame := []
  /-- The last call found no frame. -/
  drained : Bool := false
  deriving DecidableEq

/-- What `select` and `read` answer: an error or a timeout, or at most so many bytes. -/
abbrev Poll := Option ℕ

/-- `fill_rx_buffer` -/
def fillRxBuffer (poll : Poll) (bus : DamiaoBus) : Bool × DamiaoBus :=
  let rxBuf := if bus.rxBuf.length ≥ rxBufSize then [] else bus.rxBuf
  let bus := { bus with rxBuf := rxBuf, requests := bus.requests ++ [bus.rxBuf.length] }
  match poll with
  | none => (false, bus)
  | some n =>
    let count := min n (rxBufSize - rxBuf.length)
    let chunk := bus.pending.take count
    if chunk = [] then (false, bus)
    else (true, { bus with
      rxBuf := rxBuf ++ chunk
      pending := bus.pending.drop count
      consumed := bus.consumed ++ chunk })

/-- The end of a call. -/
def finishRead (bus : DamiaoBus) : Bool × CanFrame × ByteText → Bool × CanFrame × DamiaoBus
  | (true, out, rxBuf) =>
    (true, out, { bus with rxBuf := rxBuf, returned := bus.returned ++ [out], drained := false })
  | (false, out, rxBuf) => (false, out, { bus with rxBuf := rxBuf, drained := true })

/-- `read_frame` -/
def readFrame (poll : Poll) (out : CanFrame) (bus : DamiaoBus) :
    Option (Bool × CanFrame × DamiaoBus) := do
  let (found, out, rxBuf) ← parseFrame bus.rxBuf out
  if found then pure (finishRead bus (true, out, rxBuf))
  else
    let (filled, bus) := fillRxBuffer poll { bus with rxBuf := rxBuf }
    if filled then
      let result ← parseFrame bus.rxBuf out
      pure (finishRead bus result)
    else pure (false, out, { bus with drained := true })

inductive BusEvent
  | arrive (bytes : ByteText)
  | call (poll : Poll) (out : CanFrame)

def BusEvent.apply (bus : DamiaoBus) : BusEvent → Option DamiaoBus
  | .arrive bytes => some { bus with pending := bus.pending ++ bytes }
  | .call poll out => (readFrame poll out bus).map fun r => r.2.2

def run (bus : DamiaoBus) (events : List BusEvent) : Option DamiaoBus :=
  events.foldlM BusEvent.apply bus

/-- The byte stream of a run. -/
def arrivals (events : List BusEvent) : ByteText :=
  events.flatMap fun
    | .arrive bytes => bytes
    | .call .. => []

/-! ### Frames of a stream -/

/-- The data frames of a byte stream. -/
def frames (stream : ByteText) : List CanFrame :=
  if stream.length < kRxFrameLen then []
  else if IsFrame stream then
    (if isRtr stream then [] else [decodeFrame stream]) ++ frames (stream.drop kRxFrameLen)
  else frames (stream.drop 1)
termination_by stream.length
decreasing_by all_goals simp only [List.length_drop, kRxFrameLen] at *; omega

theorem frames_short {stream : ByteText} (h : stream.length < kRxFrameLen) :
    frames stream = [] := by
  rw [frames, if_pos h]

/-- Bytes after the first frame do not matter for it. -/
theorem getD_append {raw more : ByteText} (h : kRxFrameLen ≤ raw.length) {i : ℕ}
    (hi : i < kRxFrameLen) : (raw ++ more).getD i 0 = raw.getD i 0 :=
  List.getD_append _ _ _ _ (hi.trans_le h)

theorem isFrame_append {raw more : ByteText} (h : kRxFrameLen ≤ raw.length) :
    IsFrame (raw ++ more) ↔ IsFrame raw := by
  simp only [IsFrame, getD_append h (show 0 < kRxFrameLen by decide),
    getD_append h (show 1 < kRxFrameLen by decide),
    getD_append h (show 15 < kRxFrameLen by decide)]

theorem isRtr_append {raw more : ByteText} (h : kRxFrameLen ≤ raw.length) :
    isRtr (raw ++ more) = isRtr raw := by
  rw [isRtr, isRtr, getD_append h (by decide)]

theorem decodeFrame_append {raw more : ByteText} (h : kRxFrameLen ≤ raw.length) :
    decodeFrame (raw ++ more) = decodeFrame raw := by
  have hdata : (fun i : Fin 8 => (raw ++ more).getD (7 + i) 0) =
      fun i : Fin 8 => raw.getD (7 + i) 0 := by
    funext i
    exact getD_append h (by have := i.isLt; unfold kRxFrameLen; omega)
  simp only [decodeFrame, hdata, getD_append h (show 2 < kRxFrameLen by decide),
    getD_append h (show 3 < kRxFrameLen by decide), getD_append h (show 4 < kRxFrameLen by decide),
    getD_append h (show 5 < kRxFrameLen by decide), getD_append h (show 6 < kRxFrameLen by decide)]

/-- A stream that begins with a frame. -/
theorem frames_found {raw : ByteText} (more : ByteText) (h : kRxFrameLen ≤ raw.length)
    (hframe : IsFrame raw) :
    frames (raw ++ more) =
      (if isRtr raw then [] else [decodeFrame raw]) ++ frames (raw.drop kRxFrameLen ++ more) := by
  have hlength : ¬ (raw ++ more).length < kRxFrameLen := by
    rw [List.length_append]
    omega
  rw [frames, if_neg hlength, if_pos ((isFrame_append h).mpr hframe), isRtr_append h,
    decodeFrame_append h, List.drop_append_of_le_length h]

/-- A stream that begins with garbage. -/
theorem frames_skipped {raw : ByteText} (more : ByteText) (h : kRxFrameLen ≤ raw.length)
    (hframe : ¬ IsFrame raw) : frames (raw ++ more) = frames (raw.drop 1 ++ more) := by
  have hlength : ¬ (raw ++ more).length < kRxFrameLen := by
    rw [List.length_append]
    omega
  have hone : 1 ≤ raw.length := le_trans (by decide) h
  rw [frames, if_neg hlength, if_neg (mt (isFrame_append h).mp hframe),
    List.drop_append_of_le_length hone]

/-! ### The parser on a stream -/

/-- What the parser makes of the bytes `rxBuf`: with any bytes to come, the frame it found is the
next one of the stream and the rest of the stream is what it left; without a frame, less than one
frame is left. -/
def Parsed (rxBuf : ByteText) : Bool × CanFrame × ByteText → Prop
  | (true, out, rest) => rest.length ≤ rxBuf.length ∧
      ∀ more, frames (rxBuf ++ more) = out :: frames (rest ++ more)
  | (false, _, rest) => rest.length < kRxFrameLen ∧
      ∀ more, frames (rxBuf ++ more) = frames (rest ++ more)

theorem Parsed.of_drop {rxBuf rxBuf' : ByteText} {result : Bool × CanFrame × ByteText}
    (h : Parsed rxBuf' result) (hlength : rxBuf'.length ≤ rxBuf.length)
    (hframes : ∀ more, frames (rxBuf ++ more) = frames (rxBuf' ++ more)) :
    Parsed rxBuf result := by
  obtain ⟨found, out, rest⟩ := result
  cases found with
  | true => exact ⟨h.1.trans hlength, fun more => (hframes more).trans (h.2 more)⟩
  | false => exact ⟨h.1, fun more => (hframes more).trans (h.2 more)⟩

/-- **The loop terminates** and takes the first frame, if any. -/
theorem parseLoop_spec (fuel : ℕ) (rxBuf : ByteText) (start : ℕ) (out : CanFrame)
    (hfuel : rxBuf.length - start < fuel) :
    ∃ result, parseLoop fuel rxBuf start out = some result ∧
      Parsed (rxBuf.drop start) result := by
  -- Each iteration moves on by at least one byte.
  induction fuel generalizing rxBuf start out with
  | zero => omega
  | succ fuel ih =>
    have hpos : 0 < kRxFrameLen := by decide
    rw [parseLoop]
    by_cases hspace : start + kRxFrameLen ≤ rxBuf.length
    · rw [if_pos hspace]
      dsimp only
      have hraw : kRxFrameLen ≤ (rxBuf.drop start).length := by
        rw [List.length_drop]
        omega
      by_cases hframe : IsFrame (rxBuf.drop start)
      · rw [if_pos hframe]
        have hfound := fun more => frames_found more hraw hframe
        rw [List.drop_drop] at hfound
        have hshorter : (rxBuf.drop (start + kRxFrameLen)).length ≤
            (rxBuf.drop start).length := by
          rw [List.length_drop, List.length_drop]
          omega
        by_cases hrtr : isRtr (rxBuf.drop start) = true
        · -- A remote frame is passed over.
          rw [if_pos hrtr]
          obtain ⟨result, hloop, hparsed⟩ := ih (rxBuf.drop (start + kRxFrameLen)) 0
            (decodeFrame (rxBuf.drop start)) (by rw [List.length_drop]; omega)
          refine ⟨result, hloop, hparsed.of_drop hshorter fun more => ?_⟩
          rw [hfound, if_pos hrtr, List.nil_append, List.drop_zero]
        · rw [if_neg hrtr]
          refine ⟨_, rfl, hshorter, fun more => ?_⟩
          rw [hfound, if_neg hrtr, List.singleton_append]
      · rw [if_neg hframe]
        obtain ⟨result, hloop, hparsed⟩ := ih rxBuf (start + 1) out (by omega)
        refine ⟨result, hloop, hparsed.of_drop ?_ fun more => ?_⟩
        · rw [List.length_drop, List.length_drop]
          omega
        · rw [frames_skipped more hraw hframe, List.drop_drop]
    · rw [if_neg hspace]
      refine ⟨_, rfl, ?_, fun more => rfl⟩
      rw [List.length_drop]
      omega

theorem parseFrame_spec (rxBuf : ByteText) (out : CanFrame) :
    ∃ result, parseFrame rxBuf out = some result ∧ Parsed rxBuf result := by
  obtain ⟨result, hloop, hparsed⟩ := parseLoop_spec (rxBuf.length + 1) rxBuf 0 out (by omega)
  exact ⟨result, hloop, hparsed⟩

/-! ### Runs -/

/-- What has been returned and what is buffered are the frames of the bytes read. -/
structure Extracting (bus : DamiaoBus) : Prop where
  frames_eq : ∀ more, bus.returned ++ frames (bus.rxBuf ++ more) = frames (bus.consumed ++ more)
  bounded : bus.rxBuf.length ≤ rxBufSize
  requests : ∀ n ∈ bus.requests, n < kRxFrameLen
  drained : bus.drained = true → bus.rxBuf.length < kRxFrameLen

/-- A frame was found: it is returned. -/
theorem Extracting.finishRead {bus : DamiaoBus} (h : Extracting bus)
    {result : Bool × CanFrame × ByteText} (hparsed : Parsed bus.rxBuf result) :
    Extracting (Damiao.finishRead bus result).2.2 := by
  obtain ⟨found, out, rest⟩ := result
  cases found with
  | true =>
    refine ⟨fun more => ?_, hparsed.1.trans h.bounded, h.requests, Bool.noConfusion⟩
    simp only [Damiao.finishRead]
    rw [← h.frames_eq, hparsed.2, List.append_assoc, List.singleton_append]
  | false =>
    have hshort : rest.length ≤ rxBufSize := hparsed.1.le.trans (by decide)
    refine ⟨fun more => ?_, hshort, h.requests, fun _ => hparsed.1⟩
    simp only [Damiao.finishRead]
    rw [← h.frames_eq, hparsed.2]

/-- The buffer is asked for more with less than one frame in it, so it has room. -/
theorem Extracting.fillRxBuffer {bus : DamiaoBus} (h : Extracting bus) (poll : Poll)
    (hshort : bus.rxBuf.length < kRxFrameLen) :
    Extracting { (Damiao.fillRxBuffer poll bus).2 with drained := false } ∧
      ((Damiao.fillRxBuffer poll bus).1 = false →
        (Damiao.fillRxBuffer poll bus).2.rxBuf = bus.rxBuf) := by
  -- Less than a frame is in the buffer, so there is room to read into.
  have hroom : ¬ bus.rxBuf.length ≥ rxBufSize := by
    have hless : kRxFrameLen < rxBufSize := by decide
    omega
  have hrequests : ∀ n ∈ bus.requests ++ [bus.rxBuf.length], n < kRxFrameLen := by
    intro n hn
    rcases List.mem_append.mp hn with hn | hn
    · exact h.requests n hn
    · rw [List.mem_singleton.mp hn]
      exact hshort
  simp only [Damiao.fillRxBuffer, if_neg hroom]
  cases poll with
  | none => exact ⟨⟨h.frames_eq, h.bounded, hrequests, Bool.noConfusion⟩, fun _ => rfl⟩
  | some n =>
    dsimp only
    generalize hcount : min n (rxBufSize - bus.rxBuf.length) = count
    split
    · exact ⟨⟨h.frames_eq, h.bounded, hrequests, Bool.noConfusion⟩, fun _ => rfl⟩
    · refine ⟨⟨fun more => ?_, ?_, hrequests, Bool.noConfusion⟩, Bool.noConfusion⟩
      · rw [List.append_assoc, List.append_assoc]
        exact h.frames_eq _
      · have hbounded := h.bounded
        rw [List.length_append, List.length_take]
        omega

/-- A call takes bytes from the line in their order. -/
def Taken (bus bus' : DamiaoBus) : Prop :=
  bus'.consumed ++ bus'.pending = bus.consumed ++ bus.pending

theorem fillRxBuffer_taken (poll : Poll) (bus : DamiaoBus) :
    Taken bus (fillRxBuffer poll bus).2 := by
  simp only [Taken, fillRxBuffer]
  generalize (if bus.rxBuf.length ≥ rxBufSize then [] else bus.rxBuf) = rxBuf
  cases poll with
  | none => rfl
  | some n =>
    dsimp only
    split
    · rfl
    · rw [List.append_assoc, List.take_append_drop]

theorem finishRead_taken (bus : DamiaoBus) (result : Bool × CanFrame × ByteText) :
    Taken bus (finishRead bus result).2.2 := by
  obtain ⟨found, out, rest⟩ := result
  cases found <;> rfl

/-- **One call**: it ends, keeps the invariant, and returns a frame whenever one is buffered. -/
theorem readFrame_spec (poll : Poll) (out : CanFrame) {bus : DamiaoBus} (h : Extracting bus) :
    ∃ found out' bus', readFrame poll out bus = some (found, out', bus') ∧ Extracting bus' ∧
      Taken bus bus' ∧ (frames bus.rxBuf ≠ [] → found = true) := by
  obtain ⟨⟨found, out₁, rest⟩, hparse, hparsed⟩ := parseFrame_spec bus.rxBuf out
  rw [readFrame, hparse]
  cases found with
  | true => exact ⟨_, _, _, rfl, h.finishRead hparsed, finishRead_taken bus (true, out₁, rest),
      fun _ => rfl⟩
  | false =>
    -- The buffer holds no whole frame, so the port is read once and parsed again.
    have hnone : frames bus.rxBuf = [] := by
      rw [← List.append_nil bus.rxBuf, hparsed.2, frames_short]
      rw [List.append_nil]
      exact hparsed.1
    have hkept : Extracting { bus with rxBuf := rest } := by
      refine ⟨fun more => ?_, hparsed.1.le.trans (by decide), h.requests, fun _ => hparsed.1⟩
      rw [← h.frames_eq, hparsed.2]
    obtain ⟨hfilled, hsame⟩ := hkept.fillRxBuffer poll hparsed.1
    have htaken : Taken bus (fillRxBuffer poll { bus with rxBuf := rest }).2 :=
      fillRxBuffer_taken poll { bus with rxBuf := rest }
    simp only [Option.bind_eq_bind, Option.bind_some, Bool.false_eq_true, if_false]
    generalize fillRxBuffer poll { bus with rxBuf := rest } = filling at hfilled hsame htaken ⊢
    obtain ⟨filled, bus₁⟩ := filling
    cases filled with
    | false =>
      refine ⟨_, _, _, rfl, ⟨hfilled.frames_eq, hfilled.bounded, hfilled.requests, fun _ => ?_⟩,
        htaken, fun hsome => absurd hnone hsome⟩
      exact lt_of_eq_of_lt (congrArg List.length (hsame rfl)) hparsed.1
    | true =>
      obtain ⟨result, hagain, hparsed'⟩ := parseFrame_spec bus₁.rxBuf out₁
      simp only [if_true, hagain, Option.bind_some]
      have hrest := hfilled.finishRead hparsed'
      obtain ⟨found', out₂, rest'⟩ := result
      cases found' with
      | true => exact ⟨_, _, _, rfl, hrest, htaken, fun _ => rfl⟩
      | false => exact ⟨_, _, _, rfl, hrest, htaken, fun hsome => absurd hnone hsome⟩

/-- **A run**, from any state of the bus that keeps the invariant. -/
theorem run_spec (events : List BusEvent) {bus : DamiaoBus} (h : Extracting bus) :
    ∃ bus', run bus events = some bus' ∧ Extracting bus' ∧
      bus'.consumed ++ bus'.pending = bus.consumed ++ bus.pending ++ arrivals events := by
  induction events generalizing bus with
  | nil => exact ⟨bus, rfl, h, (List.append_nil _).symm⟩
  | cons event events ih =>
    -- What arrives waits at the port, and a call takes it from there.
    obtain ⟨bus₁, happly, h₁, htaken⟩ : ∃ bus₁, event.apply bus = some bus₁ ∧ Extracting bus₁ ∧
        bus₁.consumed ++ bus₁.pending = bus.consumed ++ bus.pending ++ arrivals [event] := by
      cases event with
      | arrive bytes =>
        refine ⟨_, rfl, ⟨h.frames_eq, h.bounded, h.requests, h.drained⟩, ?_⟩
        simp [arrivals]
      | call poll out =>
        obtain ⟨found, out', bus', hread, h', htaken, -⟩ := readFrame_spec poll out h
        refine ⟨bus', ?_, h', ?_⟩
        · rw [BusEvent.apply, hread]
          rfl
        · rw [htaken]
          exact (List.append_nil _).symm
    obtain ⟨bus₂, hrun, h₂, htaken₂⟩ := ih h₁
    refine ⟨bus₂, ?_, h₂, ?_⟩
    · rw [run, List.foldlM_cons, happly]
      exact hrun
    · rw [htaken₂, htaken, List.append_assoc]
      simp [arrivals]

theorem extracting_init : Extracting {} :=
  ⟨fun _ => rfl, Nat.zero_le _, List.forall_mem_nil _, Bool.noConfusion⟩

theorem Extracting.returned_eq {bus : DamiaoBus} (h : Extracting bus) :
    bus.returned ++ frames bus.rxBuf = frames bus.consumed := by
  have hframes := h.frames_eq []
  rwa [List.append_nil, List.append_nil] at hframes

theorem Extracting.drained_eq {bus : DamiaoBus} (h : Extracting bus)
    (hdrained : bus.drained = true) : bus.returned = frames bus.consumed := by
  rw [← h.returned_eq, frames_short (h.drained hdrained), List.append_nil]

/-- **Frame extraction.**  The parsing loop ends on every buffer.  In every run, whatever arrives
and however the reads split it, the bytes are read in order, the frames returned are the first
frames of what was read, a call returns a frame whenever a whole one is buffered, and after a call
that found none they are all of them; less than one frame is buffered at each request for input,
and the buffer never overflows.  So two runs that have read the same bytes and wait for more have
returned the same frames. -/
theorem frame_extraction :
    (∀ rxBuf out, ∃ result, parseFrame rxBuf out = some result) ∧
    (∀ events, ∃ bus, run {} events = some bus ∧
      bus.consumed ++ bus.pending = arrivals events ∧
      bus.returned <+: frames bus.consumed ∧
      (∀ poll out, frames bus.rxBuf ≠ [] →
        ∃ out' bus', readFrame poll out bus = some (true, out', bus')) ∧
      (bus.drained = true → bus.returned = frames bus.consumed) ∧
      (∀ n ∈ bus.requests, n < kRxFrameLen) ∧ bus.rxBuf.length ≤ rxBufSize) ∧
    ∀ events events' bus bus', run {} events = some bus → run {} events' = some bus' →
      bus.consumed = bus'.consumed → bus.drained = true → bus'.drained = true →
      bus.returned = bus'.returned := by
  refine ⟨fun rxBuf out => ?_, fun events => ?_, ?_⟩
  · obtain ⟨result, hparse, -⟩ := parseFrame_spec rxBuf out
    exact ⟨result, hparse⟩
  · obtain ⟨bus, hrun, h, htaken⟩ := run_spec events extracting_init
    refine ⟨bus, hrun, htaken, ⟨_, h.returned_eq⟩, fun poll out hsome => ?_, h.drained_eq,
      h.requests, h.bounded⟩
    obtain ⟨found, out', bus', hread, -, -, hfound⟩ := readFrame_spec poll out h
    rw [hfound hsome] at hread
    exact ⟨out', bus', hread⟩
  · -- A drained bus has returned the frames of what it consumed, however the bytes came in.
    intro events events' bus bus' hrun hrun' hsame hdrained hdrained'
    obtain ⟨bus₁, hrun₁, h, -⟩ := run_spec events extracting_init
    obtain ⟨bus₂, hrun₂, h', -⟩ := run_spec events' extracting_init
    obtain rfl : bus₁ = bus := Option.some_inj.mp (hrun₁.symm.trans hrun)
    obtain rfl : bus₂ = bus' := Option.some_inj.mp (hrun₂.symm.trans hrun')
    rw [h.drained_eq hdrained, h'.drained_eq hdrained', hsame]

/-- Garbage, a remote frame and a data frame. -/
def sampleStream : ByteText :=
  [0xAA, 0xAA, 0x11, 0x88, 1, 0, 0, 0, 1, 2, 3, 4, 5, 6, 7, 8, 0x55,
    0xAA, 0x11, 0x08, 2, 0, 0, 0, 1, 2, 3, 4, 5, 6, 7, 8, 0x55]

theorem read_at_once_or_in_parts :
    ∃ bus bus',
      run {} [.arrive sampleStream, .call (some 64) {}, .call none {}] = some bus ∧
      run {} [.arrive sampleStream, .call (some 7) {}, .call (some 20) {}, .call (some 64) {},
        .call none {}] = some bus' ∧
      bus.returned = bus'.returned ∧ bus.returned.length = 1 := by
  have hwhole : ∃ bus, run {} [.arrive sampleStream, .call (some 64) {}, .call none {}] =
      some bus ∧ bus.consumed = sampleStream ∧ bus.drained = true ∧ bus.returned.length = 1 :=
    ⟨_, rfl, by decide, by decide, by decide⟩
  have hparts : ∃ bus, run {} [.arrive sampleStream, .call (some 7) {}, .call (some 20) {},
      .call (some 64) {}, .call none {}] = some bus ∧ bus.consumed = sampleStream ∧
      bus.drained = true :=
    ⟨_, rfl, by decide, by decide⟩
  obtain ⟨bus, hrun, hconsumed, hdrained, hlength⟩ := hwhole
  obtain ⟨bus', hrun', hconsumed', hdrained'⟩ := hparts
  refine ⟨bus, bus', hrun, hrun', ?_, hlength⟩
  exact frame_extraction.2.2 _ _ bus bus' hrun hrun' (hconsumed.trans hconsumed'.symm) hdrained
    hdrained'

end Damiao
