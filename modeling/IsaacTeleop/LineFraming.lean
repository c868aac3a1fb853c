/-
The line reader of the calibration worker.

The worker reads its socket in chunks of at most 4096 bytes and hands over every line that a
newline ends.  A line that is too long is reported once, as a line of blanks that is too long
as well, and dropped up to its newline.

* `Ipc.readLines` — one `recv` and its bytes;
* `frames`, `expected` — the lines of a stream, and what is handed over for them;
* `line_framing` — every stream, however it is cut into chunks.
-/
import IsaacTeleop.CalibrationCommands

open ByteText
open Calibration (kMaxMessageBytes)

namespace LineFraming

/-! ### The reader -/

def newline : UInt8 := byte '\n'

/-- The size of the buffer that `recv` fills. -/
def chunkBytes : ℕ := 4096

structure Ipc where
  line : ByteText
  discarding : Bool
  /-- The most bytes held so far: those of `line`, and those of the chunk not looked at yet. -/
  peak : ℕ
  deriving DecidableEq, Repr

def Ipc.init : Ipc := ⟨[], false, 0⟩

/-- What is handed over for a line that is too long. -/
def oversize : ByteText := List.replicate (kMaxMessageBytes + 1) (byte ' ')

def Ipc.hold (s : Ipc) (line : ByteText) (unread : ℕ) : Ipc :=
  { s with line := line, peak := max s.peak (line.length + unread) }

/-- `append`, with the new state and the lines handed over. -/
def Ipc.append (s : Ipc) (c : UInt8) (unread : ℕ) : Ipc × List ByteText :=
  if s.discarding then (s, [])
  else
    let s := s.hold (s.line ++ [c]) unread
    if kMaxMessageBytes < s.line.length then
      let s := { s with discarding := true }.hold oversize unread
      ({ s with line := [] }, [s.line])
    else (s, [])

/-- One turn of the loop over a chunk. -/
def Ipc.readByte (s : Ipc) (c : UInt8) (unread : ℕ) : Ipc × List ByteText :=
  if c ≠ newline then s.append c unread
  else if s.discarding then ({ s with line := [], discarding := false }, [])
  else ({ s with line := [] }, [s.line])

/-- The bytes of a chunk, one after the other. -/
def Ipc.readAll (s : Ipc) : ByteText → Ipc × List ByteText
  | [] => (s, [])
  | c :: rest =>
    let next := s.readByte c rest.length
    let last := next.1.readAll rest
    (last.1, next.2 ++ last.2)

/-- What one `recv` gives. -/
inductive Recv
  /-- It fails, with `EINTR` or `EAGAIN` or not. -/
  | failed (again : Bool)
  /-- Some bytes, or none at the end of the stream. -/
  | bytes (chunk : { bytes : ByteText // bytes.length ≤ chunkBytes })

/-- `read_lines`; the first component is false at the end of the stream. -/
def Ipc.readLines (s : Ipc) : Recv → Bool × Ipc × List ByteText
  | .failed again => (again, s, [])
  | .bytes chunk =>
    (chunk.1 ≠ [], (s.hold s.line chunk.1.length).readAll chunk.1)

/-- Several calls of `read_lines`. -/
def Ipc.run (s : Ipc) : List Recv → Ipc × List ByteText
  | [] => (s, [])
  | result :: rest =>
    let next := (s.readLines result).2
    let last := next.1.run rest
    (last.1, next.2 ++ last.2)

def Recv.stream : Recv → ByteText
  | .failed _ => []
  | .bytes chunk => chunk.1

/-! ### The lines of a stream -/

/-- The lines that a newline ends, and what follows the last newline. -/
def frames (stream : ByteText) : List ByteText × ByteText :=
  stream.foldl (fun (lines, last) c =>
    if c = newline then (lines ++ [last], []) else (lines, last ++ [c])) ([], [])

/-- What is handed over for a line. -/
def report (line : ByteText) : ByteText := if line.length ≤ kMaxMessageBytes then line else oversize

/-- What is handed over for a stream. -/
def expected (stream : ByteText) : List ByteText :=
  (frames stream).1.map report ++
    (if (frames stream).2.length ≤ kMaxMessageBytes then [] else [oversize])

theorem frames_snoc (stream : ByteText) (c : UInt8) :
    frames (stream ++ [c]) = if c = newline then ((frames stream).1 ++ [(frames stream).2], [])
      else ((frames stream).1, (frames stream).2 ++ [c]) := by
  unfold frames
  rw [List.foldl_append]
  rfl

theorem frames_of_not_mem {line : ByteText} (h : newline ∉ line) : frames line = ([], line) := by
  induction line using List.reverseRecOn with
  | nil => rfl
  | append_singleton line c ih =>
    rw [List.mem_append, not_or, List.mem_singleton] at h
    rw [frames_snoc, ih h.1, if_neg (Ne.symm h.2)]

/-- **The lines of a stream are its lines:** together with their newlines they make up the stream,
and there is no newline in them. -/
theorem frames_spec (stream : ByteText) :
    stream = (frames stream).1.flatMap (· ++ [newline]) ++ (frames stream).2 ∧
      (∀ line ∈ (frames stream).1, newline ∉ line) ∧ newline ∉ (frames stream).2 := by
  induction stream using List.reverseRecOn with
  | nil => exact ⟨rfl, nofun, nofun⟩
  | append_singleton stream c ih =>
    obtain ⟨hstream, hlines, hlast⟩ := ih
    rw [frames_snoc]
    by_cases hc : c = newline
    · rw [if_pos hc]
      refine ⟨?_, fun line hline => ?_, nofun⟩
      · nth_rewrite 1 [hstream]
        simp [hc]
      · rcases List.mem_append.mp hline with hline | hline
        · exact hlines line hline
        · rw [List.mem_singleton.mp hline]
          exact hlast
    · rw [if_neg hc]
      refine ⟨?_, hlines, ?_⟩
      · nth_rewrite 1 [hstream]
        simp
      · simp [hlast, Ne.symm hc]

/-! ### Reading -/

/-- What the reader holds after a stream. -/
structure Holds (s : Ipc) (stream : ByteText) : Prop where
  discarding : s.discarding = true ↔ kMaxMessageBytes < (frames stream).2.length
  line : s.line = if s.discarding then [] else (frames stream).2
  peak : s.peak ≤ kMaxMessageBytes + chunkBytes

theorem Holds.short {s : Ipc} {stream : ByteText} (h : Holds s stream)
    (hdiscarding : s.discarding = false) :
    (frames stream).2.length ≤ kMaxMessageBytes ∧ s.line = (frames stream).2 := by
  constructor
  · rw [← not_lt, ← h.discarding, hdiscarding]
    exact Bool.false_ne_true
  · rw [h.line, hdiscarding]
    rfl

theorem expected_snoc_newline (stream : ByteText) :
    expected (stream ++ [newline]) = expected stream ++
      (if (frames stream).2.length ≤ kMaxMessageBytes then [(frames stream).2] else []) := by
  unfold expected
  rw [frames_snoc, if_pos rfl]
  by_cases hshort : (frames stream).2.length ≤ kMaxMessageBytes
  · simp [report, hshort]
  · simp [report, hshort]

theorem expected_snoc_other {stream : ByteText} {c : UInt8} (hc : c ≠ newline) :
    expected (stream ++ [c]) = expected stream ++
      (if (frames stream).2.length = kMaxMessageBytes then [oversize] else []) := by
  unfold expected
  rw [frames_snoc, if_neg hc]
  dsimp only
  rw [List.length_append, List.length_singleton, List.append_assoc]
  congr 1
  by_cases hfull : (frames stream).2.length = kMaxMessageBytes
  · rw [if_neg (by omega), if_pos (by omega), if_pos hfull]
    rfl
  · rw [if_neg hfull, List.append_nil]
    by_cases hshort : (frames stream).2.length ≤ kMaxMessageBytes
    · rw [if_pos (by omega), if_pos hshort]
    · rw [if_neg (by omega), if_neg hshort]

/-- **One byte** hands over what the longer stream adds. -/
theorem Holds.readByte {s : Ipc} {stream : ByteText} (h : Holds s stream) (c : UInt8)
    (unread : ℕ) (hunread : unread < chunkBytes) :
    Holds (s.readByte c unread).1 (stream ++ [c]) ∧
      expected (stream ++ [c]) = expected stream ++ (s.readByte c unread).2 := by
  have hpeak := h.peak
  unfold Ipc.readByte
  by_cases hc : c = newline
  · subst hc
    rw [if_neg (not_not_intro rfl), expected_snoc_newline]
    have hlast : (frames (stream ++ [newline])).2 = [] := by
      rw [frames_snoc, if_pos rfl]
    cases hdiscarding : s.discarding with
    | true =>
      have hlong := h.discarding.mp hdiscarding
      rw [if_pos rfl, if_neg (not_le.mpr hlong)]
      refine ⟨⟨?_, ?_, hpeak⟩, rfl⟩
      · simp [hlast]
      · simp [hlast]
    | false =>
      obtain ⟨hshort, hline⟩ := h.short hdiscarding
      rw [if_neg Bool.false_ne_true, if_pos hshort, hline]
      refine ⟨⟨?_, ?_, hpeak⟩, rfl⟩
      · simp [hlast]
      · simp [hlast]
  · rw [if_pos hc, expected_snoc_other hc, Ipc.append]
    have hlast : (frames (stream ++ [c])).2 = (frames stream).2 ++ [c] := by
      rw [frames_snoc, if_neg hc]
    cases hdiscarding : s.discarding with
    | true =>
      have hlong := h.discarding.mp hdiscarding
      rw [if_pos rfl, if_neg (by omega)]
      refine ⟨⟨?_, ?_, hpeak⟩, rfl⟩
      · rw [hlast, hdiscarding, List.length_append, List.length_singleton]
        exact iff_of_true rfl (by omega)
      · rw [h.line, hdiscarding]
        rfl
    | false =>
      obtain ⟨hshort, hline⟩ := h.short hdiscarding
      have hlength : (s.line ++ [c]).length = (frames stream).2.length + 1 := by
        rw [hline, List.length_append, List.length_singleton]
      have hheld : (s.hold (s.line ++ [c]) unread).line.length = (frames stream).2.length + 1 :=
        hlength
      rw [if_neg Bool.false_ne_true]
      dsimp only
      by_cases hfull : (frames stream).2.length = kMaxMessageBytes
      · -- The byte that makes the line too long: it is reported here.
        rw [if_pos (by omega), if_pos hfull]
        refine ⟨⟨?_, rfl, ?_⟩, rfl⟩
        · rw [hlast, List.length_append, List.length_singleton]
          exact iff_of_true rfl (by omega)
        · show max (max s.peak ((s.line ++ [c]).length + unread)) (oversize.length + unread) ≤ _
          rw [hlength, oversize, List.length_replicate]
          omega
      · rw [if_neg (by omega), if_neg hfull]
        refine ⟨⟨?_, ?_, ?_⟩, rfl⟩
        · rw [hlast, List.length_append, List.length_singleton]
          show s.discarding = true ↔ _
          rw [hdiscarding]
          exact iff_of_false Bool.false_ne_true (by omega)
        · show s.line ++ [c] = if s.discarding then [] else _
          rw [hlast, hdiscarding, hline]
          rfl
        · show max s.peak ((s.line ++ [c]).length + unread) ≤ _
          rw [hlength]
          omega

/-- **A chunk**, byte by byte. -/
theorem Holds.readAll {s : Ipc} {stream chunk : ByteText} (h : Holds s stream)
    (hchunk : chunk.length ≤ chunkBytes) :
    Holds (s.readAll chunk).1 (stream ++ chunk) ∧
      expected (stream ++ chunk) = expected stream ++ (s.readAll chunk).2 := by
  induction chunk generalizing s stream with
  | nil =>
    rw [List.append_nil]
    exact ⟨h, (List.append_nil _).symm⟩
  | cons c rest ih =>
    obtain ⟨hbyte, hadded⟩ := h.readByte c rest.length hchunk
    obtain ⟨hrest, hlines⟩ := ih hbyte (Nat.le_of_lt hchunk)
    rw [List.append_assoc, List.singleton_append] at hrest hlines
    rw [hadded, List.append_assoc] at hlines
    exact ⟨hrest, hlines⟩

/-- **One `recv`.** -/
theorem Holds.readLines {s : Ipc} {stream : ByteText} (h : Holds s stream) (result : Recv) :
    Holds (s.readLines result).2.1 (stream ++ result.stream) ∧
      expected (stream ++ result.stream) = expected stream ++ (s.readLines result).2.2 := by
  cases result with
  | failed again =>
    rw [Recv.stream, List.append_nil]
    exact ⟨h, (List.append_nil _).symm⟩
  | bytes chunk =>
    have hline : s.line.length ≤ kMaxMessageBytes := by
      rw [h.line]
      split
      · exact Nat.zero_le _
      · next hdiscarding => exact (h.short (Bool.not_eq_true _ ▸ hdiscarding)).1
    have hheld : Holds (s.hold s.line chunk.1.length) stream := by
      refine ⟨h.discarding, h.line, ?_⟩
      have hpeak := h.peak
      have hlength := chunk.2
      show max s.peak (s.line.length + chunk.1.length) ≤ _
      omega
    exact hheld.readAll chunk.2

/-- **Several reads**, of a stream that has begun. -/
theorem Holds.run {s : Ipc} {stream : ByteText} (h : Holds s stream) (results : List Recv) :
    Holds (s.run results).1 (stream ++ results.flatMap Recv.stream) ∧
      expected (stream ++ results.flatMap Recv.stream) = expected stream ++ (s.run results).2 := by
  induction results generalizing s stream with
  | nil =>
    rw [List.flatMap_nil, List.append_nil]
    exact ⟨h, (List.append_nil _).symm⟩
  | cons result rest ih =>
    obtain ⟨hread, hadded⟩ := h.readLines result
    obtain ⟨hrest, hlines⟩ := ih hread
    rw [List.append_assoc, ← List.flatMap_cons] at hrest hlines
    rw [hadded, List.append_assoc] at hlines
    exact ⟨hrest, hlines⟩

/-- **Line framing.**  Whatever the chunks are, the lines handed over are those of the stream, and
never more is held than the longest line and a chunk. -/
theorem line_framing (stream : ByteText) :
    (stream = (frames stream).1.flatMap (· ++ [newline]) ++ (frames stream).2 ∧
      (∀ line ∈ (frames stream).1, newline ∉ line) ∧ newline ∉ (frames stream).2) ∧
    ∀ results : List Recv, results.flatMap Recv.stream = stream →
      (Ipc.init.run results).2 =
        (frames stream).1.map report ++
          (if (frames stream).2.length ≤ kMaxMessageBytes then [] else [oversize]) ∧
      (Ipc.init.run results).1.peak ≤ kMaxMessageBytes + chunkBytes := by
  refine ⟨frames_spec stream, ?_⟩
  rintro results rfl
  have hinit : Holds Ipc.init [] := ⟨by decide, rfl, Nat.zero_le _⟩
  obtain ⟨hholds, hlines⟩ := hinit.run results
  exact ⟨hlines.symm, hholds.peak⟩

/-- A chunk full of one letter. -/
def fullChunk : Recv := .bytes ⟨List.replicate chunkBytes (byte 'a'), by rw [List.length_replicate]⟩

/-- Two lines in three chunks, the second not ended yet; and a line of seventeen chunks, which is
too long, with a short one behind it. -/
theorem line_framing_three_chunks :
    (Ipc.init.run [.bytes ⟨lit "ab", by decide⟩, .failed true, .bytes ⟨lit "c\nd", by decide⟩]).2 =
      [lit "abc"] ∧
    (Ipc.init.run (List.replicate 17 fullChunk ++ [.bytes ⟨lit "\nb\n", by decide⟩])).2 =
      [oversize, lit "b"] := by
  constructor
  · have h := (line_framing (lit "abc\nd")).2
      [.bytes ⟨lit "ab", by decide⟩, .failed true, .bytes ⟨lit "c\nd", by decide⟩] (by decide)
    rw [h.1]
    decide
  · have hstream : (List.replicate 17 fullChunk ++
        [Recv.bytes ⟨lit "\nb\n", by decide⟩]).flatMap Recv.stream =
        List.replicate (17 * chunkBytes) (byte 'a') ++ [newline] ++ lit "b" ++ [newline] := by
      rw [List.flatMap_append, List.flatMap_def, List.map_replicate, fullChunk, Recv.stream,
        List.flatten_replicate_replicate, List.append_assoc, List.append_assoc]
      exact congrArg (List.replicate (17 * chunkBytes) (byte 'a') ++ ·) rfl
    have hlong : newline ∉ List.replicate (17 * chunkBytes) (byte 'a') := fun hmem =>
      absurd (List.eq_of_mem_replicate hmem) (by decide)
    -- The first line ends behind the chunks, the second one is `b`.
    have hframes : frames (List.replicate (17 * chunkBytes) (byte 'a') ++ [newline] ++ lit "b" ++
        [newline]) = ([List.replicate (17 * chunkBytes) (byte 'a'), lit "b"], []) := by
      rw [frames_snoc, if_pos rfl, show lit "b" = [byte 'b'] from rfl, frames_snoc,
        if_neg (by decide), frames_snoc, if_pos rfl, frames_of_not_mem hlong]
      rfl
    have h := (line_framing _).2 _ hstream
    rw [h.1, hframes]
    have hreport : report (List.replicate (17 * chunkBytes) (byte 'a')) = oversize := by
      rw [report, List.length_replicate, if_neg (by decide)]
    show [report (List.replicate (17 * chunkBytes) (byte 'a')), report (lit "b")] ++
      (if 0 ≤ kMaxMessageBytes then [] else [oversize]) = [oversize, lit "b"]
    rw [hreport, if_pos (Nat.zero_le _)]
    rfl

end LineFraming
