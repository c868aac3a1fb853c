/-
Offline smoothing of a hand's box track before cropping.

A track is one row a frame, a square box or a missing one.  The filter drops isolated spikes,
smooths centres and sizes frame by frame, keeps every size at what the crop guard needs and starts
anew at missing frames, at jumps and after long gaps.  At the end the sizes of each segment between
two such resets are raised until they change slowly.

* `limitSizeChanges_least` — a segment's sizes become the least ones that change slowly;
* `Filtered` — what the filter leaves: where it resets, and what the guard needs;
* `size_limit_envelope` — the envelope, the segments and the crop guard together.

Numbers are those of an ordered field with a logarithm; `RealOps` names what is used of it.
-/
import IsaacTeleop.LeastEnvelope
import Mathlib

namespace BoxSmoothing

open LeastEnvelope

variable {K : Type} [Field K] [LinearOrder K] [IsStrictOrderedRing K]

/-! ### Boxes and settings -/

/-- The functions of real numbers that the filter calls, with what it relies on. -/
structure RealOps (K : Type) [Field K] [LinearOrder K] where
  log : K → K
  exp : K → K
  pow : K → K → K
  norm : K → K → K
  log_exp : ∀ x, log (exp x) = x
  exp_log : ∀ x, 0 < x → exp (log x) = x
  exp_pos : ∀ x, 0 < exp x
  exp_mono : ∀ x y, x ≤ y → exp x ≤ exp y
  exp_zero : exp 0 = 1

structure Box (K : Type) where
  x : K
  y : K
  side : K

/-- A row of the track; `none` is a row that is not finite. -/
abbrev Row (K : Type) := Option (Box K)

local instance atLeastTwoTwo : Nat.AtLeastTwo 2 := ⟨by decide⟩

/-- A literal of the source: its digits, and how many of them stand behind the point. -/
def decimal (digits places : ℕ) : K := (digits : K) / ((10 ^ places : ℕ) : K)

def PAD : K := decimal 14 1

def REFERENCE_FPS : K := decimal 20 0

structure BBoxSmoothingConfig (K : Type) where
  targetSizeScale : K
  sizeAlphaGrow : K
  sizeAlphaShrink : K
  maxSizeLogRatePerSecond : K
  centerAlphaSlow : K
  centerAlphaFast : K
  speedAlpha : K
  slowSpeedSidesPerSecond : K
  fastSpeedSidesPerSecond : K
  maxCenterLagFraction : K
  spikeCenterFraction : K
  spikeNeighborFraction : K
  spikeLogSize : K
  spikeNeighborLogSize : K
  resetGapSeconds : K
  resetJumpFraction : K
  coverageMarginFraction : K

/-- The settings that a caller who gives none gets. -/
def BBoxSmoothingConfig.default (ops : RealOps K) : BBoxSmoothingConfig K where
  targetSizeScale := decimal 8 1
  sizeAlphaGrow := decimal 12 2
  sizeAlphaShrink := decimal 6 2
  maxSizeLogRatePerSecond := REFERENCE_FPS * ops.log (1 + decimal 1 2)
  centerAlphaSlow := decimal 5 1
  centerAlphaFast := decimal 9 1
  speedAlpha := decimal 35 2
  slowSpeedSidesPerSecond := decimal 15 2
  fastSpeedSidesPerSecond := decimal 15 1
  maxCenterLagFraction := decimal 6 2
  spikeCenterFraction := decimal 5 2
  spikeNeighborFraction := decimal 5 2
  spikeLogSize := decimal 8 2
  spikeNeighborLogSize := decimal 4 2
  resetGapSeconds := decimal 25 2
  resetJumpFraction := decimal 75 2
  coverageMarginFraction := decimal 15 3

def BBoxSmoothingConfig.fields (config : BBoxSmoothingConfig K) : List (String × K) :=
  [("target_size_scale", config.targetSizeScale),
    ("size_alpha_grow", config.sizeAlphaGrow),
    ("size_alpha_shrink", config.sizeAlphaShrink),
    ("max_size_log_rate_per_second", config.maxSizeLogRatePerSecond),
    ("center_alpha_slow", config.centerAlphaSlow),
    ("center_alpha_fast", config.centerAlphaFast),
    ("speed_alpha", config.speedAlpha),
    ("slow_speed_sides_per_second", config.slowSpeedSidesPerSecond),
    ("fast_speed_sides_per_second", config.fastSpeedSidesPerSecond),
    ("max_center_lag_fraction", config.maxCenterLagFraction),
    ("spike_center_fraction", config.spikeCenterFraction),
    ("spike_neighbor_fraction", config.spikeNeighborFraction),
    ("spike_log_size", config.spikeLogSize),
    ("spike_neighbor_log_size", config.spikeNeighborLogSize),
    ("reset_gap_seconds", config.resetGapSeconds),
    ("reset_jump_fraction", config.resetJumpFraction),
    ("coverage_margin_fraction", config.coverageMarginFraction)]

/-- The settings that are weights. -/
def BBoxSmoothingConfig.weights (config : BBoxSmoothingConfig K) : List (String × K) :=
  [("target_size_scale", config.targetSizeScale),
    ("size_alpha_grow", config.sizeAlphaGrow),
    ("size_alpha_shrink", config.sizeAlphaShrink),
    ("center_alpha_slow", config.centerAlphaSlow),
    ("center_alpha_fast", config.centerAlphaFast),
    ("speed_alpha", config.speedAlpha)]

/-- The checks on new settings. -/
def BBoxSmoothingConfig.postInit (config : BBoxSmoothingConfig K) : Except String Unit :=
  match config.fields.find? fun field => field.2 < 0 with
  | some (name, _) => .error (name ++ " must be nonnegative")
  | none =>
    match config.weights.find? fun field => ¬(0 < field.2 ∧ field.2 ≤ 1) with
    | some (name, _) => .error (name ++ " must be in (0, 1]")
    | none =>
      if config.centerAlphaFast < config.centerAlphaSlow then
        .error "center_alpha_slow must not exceed center_alpha_fast"
      else if config.fastSpeedSidesPerSecond ≤ config.slowSpeedSidesPerSecond then
        .error "fast_speed_sides_per_second must exceed slow_speed_sides_per_second"
      else if config.resetGapSeconds ≤ 0 ∨ config.resetJumpFraction ≤ 0 then
        .error "reset_gap_seconds and reset_jump_fraction must be positive"
      else
        .ok ()

/-- One finite timestamp a frame, strictly increasing. -/
def validateFrameTimes (frameTimes : List (Option K)) (count : Nat) : Except String (List K) :=
  if frameTimes.length ≠ count ∨ none ∈ frameTimes then
    .error "BBox smoothing requires one finite timestamp per frame"
  else if (frameTimes.reduceOption).IsChain (· < ·) then
    .ok frameTimes.reduceOption
  else
    .error "BBox smoothing frame timestamps must be strictly increasing"

/-! ### Spikes -/

def median (a b c : K) : K := max (min a b) (min (max a b) c)

/-- The middle row of three observed ones, without a spike of its centre or its size. -/
def rejectSpike (ops : RealOps K) (config : BBoxSmoothingConfig K) (before current after : Box K) :
    Box K :=
  let scale := max (median before.side current.side after.side) 1
  let midX := (before.x + after.x) / 2
  let midY := (before.y + after.y) / 2
  let centered : Box K :=
    if ops.norm (after.x - before.x) (after.y - before.y) / scale < config.spikeNeighborFraction ∧
        config.spikeCenterFraction < ops.norm (current.x - midX) (current.y - midY) / scale then
      { current with x := midX, y := midY }
    else
      current
  let first := ops.log before.side
  let second := ops.log current.side
  let third := ops.log after.side
  if |third - first| < config.spikeNeighborLogSize ∧
      config.spikeLogSize < |second - (first + third) / 2| then
    { centered with side := ops.exp ((first + third) / 2) }
  else
    centered

/-- A frame with its row, and whether the row was observed. -/
abbrev Observed (K : Type) := Row K × Bool

/-- A row of the track without its spike; the first and the last row have no two neighbours. -/
def rejectAt (ops : RealOps K) (config : BBoxSmoothingConfig K) (rows : List (Observed K))
    (index : Nat) : Row K :=
  match index with
  | 0 => rows[0]?.bind (·.1)
  | before + 1 =>
    match rows[before]?, rows[before + 1]?, rows[before + 2]? with
    | some (some b, true), some (some c, true), some (some a, true) =>
      some (rejectSpike ops config b c a)
    | _, row, _ => row.bind (·.1)

def rejectIsolatedSpikes (ops : RealOps K) (config : BBoxSmoothingConfig K)
    (rows : List (Observed K)) : List (Row K) :=
  (List.range rows.length).map (rejectAt ops config rows)

/-! ### The limit on size changes -/

/-- The rows from `start` up to, but not including, `stop`. -/
def slice {α : Type} (l : List α) (seg : Nat × Nat) : List α := (l.take seg.2).drop seg.1

/-- How far the log size may move between two times. -/
def rateBound (logRate : K) (t t' : K) : K := logRate * (t' - t)

/-- The log sizes of the rows that are there, with their times. -/
def logSizes (ops : RealOps K) (times : List K) (rows : List (Row K)) : List (K × K) :=
  (times.zip rows).filterMap fun p => p.2.map fun box => (p.1, ops.log box.side)

/-- The log sizes written back into the rows that are there. -/
def setSizes (ops : RealOps K) : List (Row K) → List (K × K) → List (Row K)
  | [], _ => []
  | none :: rows, logs => none :: setSizes ops rows logs
  | some box :: rows, [] => some box :: setSizes ops rows []
  | some box :: rows, (_, y) :: logs =>
    some { box with side := ops.exp y } :: setSizes ops rows logs

/-- The sizes of one segment, raised in a pass forward and a pass back. -/
def limitSegment (ops : RealOps K) (logRate : K) (times : List K) (rows : List (Row K)) :
    List (Row K) :=
  setSizes ops rows (envelope (rateBound logRate) (logSizes ops times rows))

/-- The segments between the resets; the last one runs to the end. -/
def segments (resets : List Nat) (count : Nat) : List (Nat × Nat) :=
  resets.zip (resets.tail ++ [count])

def limitAt (ops : RealOps K) (logRate : K) (times : List K) (boxes : List (Row K))
    (seg : Nat × Nat) : List (Row K) :=
  boxes.take seg.1 ++ limitSegment ops logRate (slice times seg) (slice boxes seg) ++
    boxes.drop seg.2

def limitSizeChanges (ops : RealOps K) (boxes : List (Row K)) (times : List K) (resets : List Nat)
    (logRate : K) : List (Row K) :=
  (segments resets boxes.length).foldl (limitAt ops logRate times) boxes

/-! ### What the limit does to a segment -/

/-- Rows of one track whose boxes are where they were and no smaller. -/
inductive RowAbove : Row K → Row K → Prop
  | missing : RowAbove none none
  | raised (x y side side' : K) : side ≤ side' → RowAbove (some ⟨x, y, side⟩) (some ⟨x, y, side'⟩)

omit [Field K] [IsStrictOrderedRing K] in
theorem RowAbove.refl (row : Row K) : RowAbove row row := by
  cases row with
  | none => exact .missing
  | some box => exact .raised box.x box.y box.side box.side le_rfl

omit [Field K] [IsStrictOrderedRing K] in
theorem RowAbove.trans {row row' row'' : Row K} (h : RowAbove row row')
    (h' : RowAbove row' row'') : RowAbove row row'' := by
  cases h with
  | missing => exact h'
  | raised x y side side' hle =>
    cases h' with
    | raised _ _ _ side'' hle' => exact .raised x y side side'' (hle.trans hle')

omit [Field K] [IsStrictOrderedRing K] in
theorem rowsAbove_refl (rows : List (Row K)) : List.Forall₂ RowAbove rows rows :=
  List.forall₂_same.mpr fun row _ => RowAbove.refl row

/-- The sizes of the rows that are there are positive. -/
def Positive (rows : List (Row K)) : Prop := ∀ box, some box ∈ rows → 0 < box.side

omit [IsStrictOrderedRing K] in
theorem Positive.above {l l' : List (Row K)} (h : Positive l)
    (habove : List.Forall₂ RowAbove l l') : Positive l' := by
  induction habove with
  | nil => exact h
  | @cons row row' l l' hrow _ ih =>
    have htail : Positive l' := ih fun box hbox => h box (List.mem_cons_of_mem _ hbox)
    intro box hbox
    rcases List.mem_cons.mp hbox with heq | hmem
    · subst heq
      cases hrow with
      | raised x y side _ hle => exact (h ⟨x, y, side⟩ List.mem_cons_self).trans_le hle
    · exact htail box hmem

variable {ops : RealOps K} {logRate : K}

omit [IsStrictOrderedRing K] in
@[simp]
theorem logSizes_box (t : K) (times : List K) (box : Box K) (rows : List (Row K)) :
    logSizes ops (t :: times) (some box :: rows) =
      (t, ops.log box.side) :: logSizes ops times rows := rfl

omit [IsStrictOrderedRing K] in
/-- What is written back is read again. -/
theorem logSizes_setSizes {times : List K} {rows : List (Row K)} {logs : List (K × K)}
    (hlen : times.length = rows.length) (h : Below (logSizes ops times rows) logs) :
    logSizes ops times (setSizes ops rows logs) = logs := by
  induction rows generalizing times logs with
  | nil =>
    obtain rfl := List.length_eq_zero_iff.mp hlen
    cases h
    rfl
  | cons row rows ih =>
    obtain ⟨t, times, rfl⟩ := List.exists_cons_of_length_eq_add_one hlen
    have hlen' : times.length = rows.length := by simpa using hlen
    cases row with
    | none => exact ih hlen' h
    | some box =>
      cases h with
      | @cons _ b _ logs hb hrest =>
        have ht : t = b.1 := hb.1
        rw [setSizes, logSizes_box, ih hlen' hrest, ops.log_exp, ht]

omit [IsStrictOrderedRing K] in
theorem above_setSizes {times : List K} {rows : List (Row K)} {logs : List (K × K)}
    (hpos : Positive rows) (hlen : times.length = rows.length)
    (h : Below (logSizes ops times rows) logs) :
    List.Forall₂ RowAbove rows (setSizes ops rows logs) := by
  induction rows generalizing times logs with
  | nil => exact .nil
  | cons row rows ih =>
    obtain ⟨t, times, rfl⟩ := List.exists_cons_of_length_eq_add_one hlen
    have hlen' : times.length = rows.length := by simpa using hlen
    have hpos' : Positive rows := fun box hbox => hpos box (List.mem_cons_of_mem _ hbox)
    cases row with
    | none => exact .cons .missing (ih hpos' hlen' h)
    | some box =>
      cases h with
      | @cons _ b _ logs hb hrest =>
        refine .cons (.raised box.x box.y box.side _ ?_) (ih hpos' hlen' hrest)
        calc box.side = ops.exp (ops.log box.side) :=
              (ops.exp_log _ (hpos box List.mem_cons_self)).symm
          _ ≤ ops.exp b.2 := ops.exp_mono _ _ hb.2

omit [IsStrictOrderedRing K] in
/-- The times of the log sizes are among the times. -/
theorem logSizes_times (ops : RealOps K) (times : List K) (rows : List (Row K)) :
    ((logSizes ops times rows).map Prod.fst).Sublist times := by
  induction times generalizing rows with
  | nil => exact List.nil_sublist _
  | cons t times ih =>
    cases rows with
    | nil => exact List.nil_sublist _
    | cons row rows =>
      cases row with
      | none => exact (ih rows).cons t
      | some box => exact (ih rows).cons_cons t

/-- Along increasing times no bound is negative. -/
theorem rateBound_nonneg (ops : RealOps K) {times : List K} (hrate : 0 ≤ logRate)
    (htimes : times.Pairwise (· < ·)) (rows : List (Row K)) :
    (logSizes ops times rows).IsChain fun a b => 0 ≤ rateBound logRate a.1 b.1 := by
  have hpairs := List.pairwise_map.mp (htimes.sublist (logSizes_times ops times rows))
  refine (hpairs.imp ?_).isChain
  intro a b hlt
  exact mul_nonneg hrate (sub_nonneg.mpr hlt.le)

/-- **One segment gets the least sizes that change slowly.** -/
theorem limitSegment_least {times : List K} {rows : List (Row K)} (hrate : 0 ≤ logRate)
    (htimes : times.Pairwise (· < ·)) (hlen : times.length = rows.length) :
    IsLeastAbove (rateBound logRate) (logSizes ops times rows)
      (logSizes ops times (limitSegment ops logRate times rows)) := by
  have hleast := isLeast_envelope (rateBound_nonneg ops hrate htimes rows)
  rw [limitSegment, logSizes_setSizes hlen hleast.above]
  exact hleast

omit [IsStrictOrderedRing K] in
theorem length_setSizes (rows : List (Row K)) (logs : List (K × K)) :
    (setSizes ops rows logs).length = rows.length := by
  fun_induction setSizes ops rows logs with
  | case1 => rfl
  | case2 _ _ ih => simp [ih]
  | case3 _ _ ih => simp [ih]
  | case4 _ _ _ _ _ ih => simp [ih]

/-! ### What the limit does to a track -/

theorem length_slice {α : Type} {l : List α} {seg : Nat × Nat} (h : seg.2 ≤ l.length) :
    (slice l seg).length = seg.2 - seg.1 := by
  simp [slice, min_eq_left h]

/-- A write between `seg.1` and `seg.2` of a piece as long as the one there. -/
theorem slice_write {α : Type} {l piece : List α} {seg : Nat × Nat} (hseg : seg.1 ≤ seg.2)
    (hstop : seg.2 ≤ l.length) (hpiece : piece.length = seg.2 - seg.1) :
    slice (l.take seg.1 ++ piece ++ l.drop seg.2) seg = piece := by
  have hfront : (l.take seg.1).length = seg.1 := by simp; omega
  have hboth : (l.take seg.1 ++ piece).length = seg.2 := by simp [hpiece]; omega
  rw [slice, List.take_append_of_le_length hboth.ge, List.take_of_length_le hboth.le,
    List.drop_append_of_le_length hfront.ge, List.drop_of_length_le hfront.le, List.nil_append]

theorem slice_write_before {α : Type} {l piece : List α} {seg other : Nat × Nat}
    (hseg : seg.1 ≤ seg.2) (hstop : seg.2 ≤ l.length) (h : other.2 ≤ seg.1) :
    slice (l.take seg.1 ++ piece ++ l.drop seg.2) other = slice l other := by
  have hfront : (l.take seg.1).length = seg.1 := by simp; omega
  rw [slice, slice, List.append_assoc, List.take_append_of_le_length (by omega), List.take_take,
    min_eq_left h]

theorem slice_write_after {α : Type} {l piece : List α} {seg other : Nat × Nat}
    (hseg : seg.1 ≤ seg.2) (hstop : seg.2 ≤ l.length) (hpiece : piece.length = seg.2 - seg.1)
    (h : seg.2 ≤ other.1) :
    slice (l.take seg.1 ++ piece ++ l.drop seg.2) other = slice l other := by
  have hboth : (l.take seg.1 ++ piece).length = seg.2 := by simp [hpiece]; omega
  rw [slice, slice, List.drop_take, List.drop_take, List.drop_append,
    List.drop_of_length_le (by omega), hboth, List.nil_append, List.drop_drop]
  congr 2
  omega

/-- A segment of a track. -/
def InTrack (count : Nat) (seg : Nat × Nat) : Prop := seg.1 ≤ seg.2 ∧ seg.2 ≤ count

section Limit

variable {times : List K} {boxes : List (Row K)}

omit [IsStrictOrderedRing K] in
theorem length_limitSegment (logRate : K) (times : List K) (rows : List (Row K)) :
    (limitSegment ops logRate times rows).length = rows.length := length_setSizes _ _

omit [IsStrictOrderedRing K] in
theorem length_limitAt {seg : Nat × Nat} (hseg : InTrack boxes.length seg) :
    (limitAt ops logRate times boxes seg).length = boxes.length := by
  obtain ⟨hle, hstop⟩ := hseg
  simp only [limitAt, List.length_append, List.length_take, List.length_drop,
    length_limitSegment, length_slice hstop]
  omega

omit [IsStrictOrderedRing K] in
theorem slice_limitAt {seg : Nat × Nat} (hseg : InTrack boxes.length seg) :
    slice (limitAt ops logRate times boxes seg) seg =
      limitSegment ops logRate (slice times seg) (slice boxes seg) :=
  slice_write hseg.1 hseg.2 (by rw [length_limitSegment, length_slice hseg.2])

omit [IsStrictOrderedRing K] in
/-- A segment elsewhere stays as it is. -/
theorem slice_limitAt_of_disjoint {seg other : Nat × Nat} (hseg : InTrack boxes.length seg)
    (h : other.2 ≤ seg.1 ∨ seg.2 ≤ other.1) :
    slice (limitAt ops logRate times boxes seg) other = slice boxes other := by
  rcases h with hbefore | hafter
  · exact slice_write_before hseg.1 hseg.2 hbefore
  · exact slice_write_after hseg.1 hseg.2 (by rw [length_limitSegment, length_slice hseg.2]) hafter

omit [IsStrictOrderedRing K] in
/-- The rounds over the segments after the first leave the first as it is. -/
theorem slice_foldl_of_disjoint {other : Nat × Nat} (segs : List (Nat × Nat))
    (hsegs : ∀ seg ∈ segs, InTrack boxes.length seg ∧ other.2 ≤ seg.1) :
    slice (segs.foldl (limitAt ops logRate times) boxes) other = slice boxes other := by
  induction segs generalizing boxes with
  | nil => rfl
  | cons seg segs ih =>
    obtain ⟨hin, hbefore⟩ := hsegs seg List.mem_cons_self
    rw [List.foldl_cons, ih, slice_limitAt_of_disjoint hin (.inl hbefore)]
    intro seg' hmem
    rw [length_limitAt hin]
    exact hsegs seg' (List.mem_cons_of_mem _ hmem)

omit [IsStrictOrderedRing K] in
/-- Each segment ends as the one segment's limit of what it was. -/
theorem slice_foldl {segs : List (Nat × Nat)} (hsegs : ∀ seg ∈ segs, InTrack boxes.length seg)
    (hdisjoint : segs.Pairwise fun a b => a.2 ≤ b.1) :
    ∀ seg ∈ segs, slice (segs.foldl (limitAt ops logRate times) boxes) seg =
      limitSegment ops logRate (slice times seg) (slice boxes seg) := by
  induction segs generalizing boxes with
  | nil => simp
  | cons first segs ih =>
    have hfirst := hsegs first List.mem_cons_self
    obtain ⟨hlater, hrest⟩ := List.pairwise_cons.mp hdisjoint
    have hin : ∀ seg ∈ segs, InTrack (limitAt ops logRate times boxes first).length seg := by
      intro seg hmem
      rw [length_limitAt hfirst]
      exact hsegs seg (List.mem_cons_of_mem _ hmem)
    intro seg hmem
    rw [List.foldl_cons]
    rcases List.mem_cons.mp hmem with rfl | hmem
    · rw [slice_foldl_of_disjoint segs fun seg' h => ⟨hin seg' h, hlater seg' h⟩,
        slice_limitAt hfirst]
    · rw [ih hin hrest seg hmem, slice_limitAt_of_disjoint hfirst (.inr (hlater seg hmem))]

/-- The whole track is raised, never lowered. -/
theorem above_foldl {segs : List (Nat × Nat)} (hrate : 0 ≤ logRate)
    (htimes : times.Pairwise (· < ·)) (hlen : times.length = boxes.length)
    (hpos : Positive boxes) (hsegs : ∀ seg ∈ segs, InTrack boxes.length seg) :
    List.Forall₂ RowAbove boxes (segs.foldl (limitAt ops logRate times) boxes) := by
  induction segs generalizing boxes with
  | nil => exact rowsAbove_refl boxes
  | cons seg segs ih =>
    have hin := hsegs seg List.mem_cons_self
    have hslice : (slice times seg).length = (slice boxes seg).length := by
      rw [length_slice (hlen ▸ hin.2), length_slice hin.2]
    have hslicePos : Positive (slice boxes seg) := fun box hbox =>
      hpos box (List.mem_of_mem_take (List.mem_of_mem_drop hbox))
    have hsliceTimes : (slice times seg).Pairwise (· < ·) :=
      htimes.sublist ((List.drop_sublist _ _).trans (List.take_sublist _ _))
    have hleast := isLeast_envelope (rateBound_nonneg ops hrate hsliceTimes
      (slice boxes seg))
    -- Inside the segment the envelope lies above the boxes.
    have hmiddle : List.Forall₂ RowAbove (slice boxes seg)
        (limitSegment ops logRate (slice times seg) (slice boxes seg)) :=
      above_setSizes hslicePos hslice hleast.above
    -- The rows around it stay as they are.
    have hsplit : boxes = boxes.take seg.1 ++ slice boxes seg ++ boxes.drop seg.2 := by
      have hfront : boxes.take seg.1 = (boxes.take seg.2).take seg.1 := by
        rw [List.take_take, min_eq_left hin.1]
      rw [slice, hfront, List.take_append_drop, List.take_append_drop]
    have hone : List.Forall₂ RowAbove boxes (limitAt ops logRate times boxes seg) := by
      nth_rewrite 1 [hsplit]
      exact List.rel_append (List.rel_append (rowsAbove_refl _) hmiddle) (rowsAbove_refl _)
    have hrest := ih (by rw [length_limitAt hin, hlen]) (hpos.above hone) fun seg' hmem => by
      rw [length_limitAt hin]
      exact hsegs seg' (List.mem_cons_of_mem _ hmem)
    exact forall₂_comp (fun _ _ _ h h' => h.trans h') hone hrest

end Limit

/-! ### The segments between the resets -/

theorem segments_cons_cons (first second : Nat) (resets : List Nat) (count : Nat) :
    segments (first :: second :: resets) count =
      (first, second) :: segments (second :: resets) count := rfl

/-- Increasing resets within the track cut it into segments that follow each other. -/
theorem segments_spec {resets : List Nat} {count : Nat} (h : resets.Pairwise (· < ·))
    (hcount : ∀ r ∈ resets, r < count) :
    (∀ seg ∈ segments resets count, InTrack count seg) ∧
      (segments resets count).Pairwise fun a b => a.2 ≤ b.1 := by
  induction resets with
  | nil => simp [segments]
  | cons first resets ih =>
    have hfirst := hcount first List.mem_cons_self
    cases resets with
    | nil => simp [segments, InTrack, hfirst.le]
    | cons second resets =>
      obtain ⟨hless, hrest⟩ := List.pairwise_cons.mp h
      have hsecond := hcount second (by simp)
      obtain ⟨hin, hdisjoint⟩ := ih hrest fun r hr => hcount r (List.mem_cons_of_mem _ hr)
      -- The first segment ends where the second one begins.
      rw [segments_cons_cons]
      refine ⟨?_, List.pairwise_cons.mpr ⟨?_, hdisjoint⟩⟩
      · intro seg hseg
        rcases List.mem_cons.mp hseg with rfl | hmem
        · exact ⟨(hless second (by simp)).le, hsecond.le⟩
        · exact hin seg hmem
      · intro seg hseg
        obtain ⟨hstart, -⟩ := List.of_mem_zip (a := seg.1) (b := seg.2) hseg
        rcases List.mem_cons.mp hstart with heq | hmem
        · exact heq.ge
        · exact ((List.pairwise_cons.mp hrest).1 _ hmem).le

/-- **The limit gives every segment the least sizes that change slowly.** -/
theorem limitSizeChanges_least {times : List K} {boxes : List (Row K)} {resets : List Nat}
    (hrate : 0 ≤ logRate) (htimes : times.Pairwise (· < ·)) (hlen : times.length = boxes.length)
    (hresets : resets.Pairwise (· < ·)) (hcount : ∀ r ∈ resets, r < boxes.length) :
    ∀ seg ∈ segments resets boxes.length,
      IsLeastAbove (rateBound logRate) (logSizes ops (slice times seg) (slice boxes seg))
        (logSizes ops (slice times seg)
          (slice (limitSizeChanges ops boxes times resets logRate) seg)) := by
  intro seg hseg
  obtain ⟨hin, hdisjoint⟩ := segments_spec hresets hcount
  rw [limitSizeChanges, slice_foldl hin hdisjoint seg hseg]
  refine limitSegment_least hrate ?_ ?_
  · exact htimes.sublist ((List.drop_sublist _ _).trans (List.take_sublist _ _))
  · rw [length_slice (hlen ▸ (hin seg hseg).2), length_slice (hin seg hseg).2]

/-! ### The filter -/

/-- The weight of one step of a filter whose weight is given at the reference rate. -/
def alpha (ops : RealOps K) (weight dt : K) : K := 1 - ops.pow (1 - weight) (dt * REFERENCE_FPS)

/-- One frame as the loop sees it. -/
structure Frame (K : Type) where
  time : K
  raw : Row K
  target : Row K
  observed : Bool

/-- The raw box of a frame, where it is a valid one. -/
def validBox (row : Row K) : Row K := row.filter fun box => 0 < box.side

/-- What the loop carries from frame to frame. -/
structure Loop (K : Type) where
  lastTime : Option K
  state : Row K
  previousTarget : Row K
  velocityX : K
  velocityY : K
  absentSeconds : K
  resets : List Nat
  result : List (Row K)

def Loop.start : Loop K where
  lastTime := none
  state := none
  previousTarget := none
  velocityX := 0
  velocityY := 0
  absentSeconds := 0
  resets := []
  result := []

/-- The size that the crop guard needs around a centre. -/
def requiredSize (config : BBoxSmoothingConfig K) (raw : Box K) (x y : K) : K :=
  raw.side / PAD + 2 * max |x - raw.x| |y - raw.y| + 2 * config.coverageMarginFraction * raw.side

/-- The smoothed box of a frame that goes on from `state`, with the new velocity. -/
def follow (ops : RealOps K) (config : BBoxSmoothingConfig K) (dt : K)
    (raw box state previous : Box K) (velocityX velocityY : K) : Box K × K × K :=
  let pace := max box.side 1 * dt
  let speedAlpha := alpha ops config.speedAlpha dt
  let velocityX := velocityX + speedAlpha * ((box.x - previous.x) / pace - velocityX)
  let velocityY := velocityY + speedAlpha * ((box.y - previous.y) / pace - velocityY)
  let speed := ops.norm velocityX velocityY
  let blend := min (max ((speed - config.slowSpeedSidesPerSecond) /
    (config.fastSpeedSidesPerSecond - config.slowSpeedSidesPerSecond)) 0) 1
  let weight := config.centerAlphaSlow + blend * (config.centerAlphaFast - config.centerAlphaSlow)
  let centerX := state.x + alpha ops weight dt * (box.x - state.x)
  let centerY := state.y + alpha ops weight dt * (box.y - state.y)
  let offsetX := centerX - raw.x
  let offsetY := centerY - raw.y
  let limit := config.maxCenterLagFraction * raw.side
  let distance := ops.norm offsetX offsetY
  let targetSize := box.side * config.targetSizeScale
  let sizeAlpha := alpha ops
    (if state.side < targetSize then config.sizeAlphaGrow else config.sizeAlphaShrink) dt
  let size := ops.exp ((1 - sizeAlpha) * ops.log state.side + sizeAlpha * ops.log targetSize)
  (if limit < distance then
      ⟨raw.x + offsetX * (limit / distance), raw.y + offsetY * (limit / distance), size⟩
    else
      ⟨centerX, centerY, size⟩, velocityX, velocityY)

/-- A box that is at least as large as the crop guard needs. -/
def guarded (config : BBoxSmoothingConfig K) (raw state : Box K) : Box K :=
  { state with side := max state.side (requiredSize config raw state.x state.y) }

/-- The next box before the crop guard with the new velocity, and whether the filter starts anew. -/
def advance (ops : RealOps K) (config : BBoxSmoothingConfig K) (dt : K) (reacquired : Bool)
    (loop : Loop K) (raw box : Box K) : (Box K × K × K) × Bool :=
  let fresh : Box K × K × K := ({ box with side := box.side * config.targetSizeScale }, 0, 0)
  match loop.state, loop.previousTarget with
  | some state, some previous =>
    let jump : Bool := config.resetJumpFraction * box.side <
      ops.norm (box.x - previous.x) (box.y - previous.y)
    if reacquired || jump then
      (fresh, true)
    else
      (follow ops config dt raw box state previous loop.velocityX loop.velocityY, false)
  | _, _ => (fresh, true)

/-- One round of the loop. -/
def step (ops : RealOps K) (config : BBoxSmoothingConfig K) (loop : Loop K) (frame : Frame K) :
    Loop K :=
  let dt := match loop.lastTime with
    | some last => frame.time - last
    | none => 1 / REFERENCE_FPS
  let reacquired : Bool :=
    frame.observed && config.resetGapSeconds - decimal 1 9 ≤ loop.absentSeconds
  let absentSeconds := if frame.observed then 0 else loop.absentSeconds + dt
  match validBox frame.raw, frame.target with
  | some raw, some box =>
    let ((next, vx, vy), reset) := advance ops config dt reacquired loop raw box
    let state := guarded config raw next
    { lastTime := some frame.time
      state := some state
      previousTarget := some box
      velocityX := vx
      velocityY := vy
      absentSeconds := absentSeconds
      resets := if reset then loop.resets ++ [loop.result.length] else loop.resets
      result := loop.result ++ [some state] }
  | _, _ =>
    { loop with
      lastTime := some frame.time
      state := none
      previousTarget := none
      absentSeconds := absentSeconds
      result := loop.result ++ [none] }

/-- The frames of a track: an observation counts where the row is valid. -/
def frames (ops : RealOps K) (config : BBoxSmoothingConfig K) (raw : List (Row K)) (times : List K)
    (observed : List Bool) : List (Frame K) :=
  let observed := (raw.zip observed).map fun p => (validBox p.1).isSome && p.2
  let target := rejectIsolatedSpikes ops config (raw.zip observed)
  ((times.zip raw).zip (target.zip observed)).map fun p => ⟨p.1.1, p.1.2, p.2.1, p.2.2⟩

/-- The loop over the whole track. -/
def filterTrack (ops : RealOps K) (config : BBoxSmoothingConfig K) (raw : List (Row K))
    (times : List K) (observed : List Bool) : Loop K :=
  (frames ops config raw times observed).foldl (step ops config) Loop.start

def smoothBboxTrack (ops : RealOps K) (boxes : List (Row K)) (frameTimes : List (Option K))
    (observed : List Bool) (config : BBoxSmoothingConfig K) : Except String (List (Row K)) := do
  let times ← validateFrameTimes frameTimes boxes.length
  if observed.length ≠ boxes.length then
    throw "observed must match the number of frames"
  let loop := filterTrack ops config boxes times observed
  return limitSizeChanges ops loop.result times loop.resets config.maxSizeLogRatePerSecond

/-! ### What the filter leaves -/

/-- A smoothed row beside the raw one: missing together, else large enough for the crop guard. -/
inductive Guards (config : BBoxSmoothingConfig K) : Row K → Row K → Prop
  | missing (raw : Row K) : validBox raw = none → Guards config raw none
  | covers (raw : Row K) (native box : Box K) : validBox raw = some native → 0 < box.side →
      requiredSize config native box.x box.y ≤ box.side → Guards config raw (some box)

omit [IsStrictOrderedRing K] in
theorem Guards.above {config : BBoxSmoothingConfig K} {raw row row' : Row K}
    (h : Guards config raw row) (habove : RowAbove row row') : Guards config raw row' := by
  cases habove with
  | missing => exact h
  | raised x y side side' hle =>
    cases h with
    | covers native _ hvalid hpos hreq =>
      exact .covers raw native ⟨x, y, side'⟩ hvalid (hpos.trans_le hle) (le_trans hreq hle)

/-- A row that is there. -/
def Present (rows : List (Row K)) (i : Nat) : Prop := ∃ box, rows[i]? = some (some box)

/-- The loop after the frames of `raws`. -/
structure Filtered (config : BBoxSmoothingConfig K) (raws : List (Row K)) (loop : Loop K) :
    Prop where
  rows : List.Forall₂ (Guards config) raws loop.result
  increasing : loop.resets.Pairwise (· < ·)
  inTrack : ∀ r ∈ loop.resets, r < loop.result.length
  entered : ∀ i, Present loop.result i → i ∈ loop.resets ∨ ∃ j, i = j + 1 ∧ Present loop.result j
  last : ∀ box, loop.state = some box → ∃ j, loop.result.length = j + 1 ∧ Present loop.result j

/-- A frame whose target is there, with a positive size, where the raw box is valid. -/
def Frame.Ok (frame : Frame K) : Prop :=
  ∀ native, validBox frame.raw = some native → ∃ box, frame.target = some box ∧ 0 < box.side

omit [IsStrictOrderedRing K] in
theorem follow_pos (config : BBoxSmoothingConfig K) (dt : K) (raw box state previous : Box K)
    (vx vy : K) : 0 < (follow ops config dt raw box state previous vx vy).1.side := by
  simp only [follow]
  split <;> exact ops.exp_pos _

/-- The filter starts anew wherever nothing is left from the frame before. -/
theorem advance_spec {config : BBoxSmoothingConfig K} (hscale : 0 < config.targetSizeScale)
    (dt : K) (reacquired : Bool) (loop : Loop K) (raw : Box K) {box : Box K}
    (hbox : 0 < box.side) :
    0 < (advance ops config dt reacquired loop raw box).1.1.side ∧
      ((advance ops config dt reacquired loop raw box).2 = true ∨
        (advance ops config dt reacquired loop raw box).2 = false ∧
          ∃ state, loop.state = some state) := by
  have hfresh : 0 < box.side * config.targetSizeScale := mul_pos hbox hscale
  cases hstate : loop.state with
  | none => simp [advance, hstate, hfresh]
  | some state =>
    cases hprevious : loop.previousTarget with
    | none => simp [advance, hstate, hprevious, hfresh]
    | some previous =>
      simp only [advance, hstate, hprevious]
      split
      · exact ⟨hfresh, .inl rfl⟩
      · exact ⟨follow_pos config dt raw box state previous _ _, .inr ⟨rfl, state, rfl⟩⟩

/-- Every round appends one row: a missing one, or a guarded one that may be a reset and is one
where the round before left nothing. -/
theorem step_cases (ops : RealOps K) {config : BBoxSmoothingConfig K}
    (hscale : 0 < config.targetSizeScale) (loop : Loop K) {frame : Frame K} (hframe : frame.Ok) :
    (validBox frame.raw = none ∧ (step ops config loop frame).state = none ∧
      (step ops config loop frame).resets = loop.resets ∧
      (step ops config loop frame).result = loop.result ++ [none]) ∨
    ∃ native next, validBox frame.raw = some native ∧ 0 < next.side ∧
      (step ops config loop frame).state = some (guarded config native next) ∧
      (step ops config loop frame).result = loop.result ++ [some (guarded config native next)] ∧
      ((step ops config loop frame).resets = loop.resets ++ [loop.result.length] ∨
        (step ops config loop frame).resets = loop.resets ∧ ∃ box, loop.state = some box) := by
  cases hraw : validBox frame.raw with
  | none => exact .inl ⟨rfl, by simp [step, hraw], by simp [step, hraw], by simp [step, hraw]⟩
  | some native =>
    right
    obtain ⟨box, htarget, hbox⟩ := hframe native hraw
    simp only [step, hraw, htarget]
    set adv := advance ops config _ _ loop native box with hadv
    -- A state is advanced or the filter starts over, which is noted as a reset.
    obtain ⟨hpos, hreset⟩ : 0 < adv.1.1.side ∧
        (adv.2 = true ∨ adv.2 = false ∧ ∃ state, loop.state = some state) :=
      advance_spec hscale _ _ loop native hbox
    refine ⟨native, adv.1.1, rfl, hpos, rfl, rfl, ?_⟩
    rcases hreset with hreset | ⟨hreset, hstate⟩
    · exact .inl (by rw [hreset, if_pos rfl])
    · exact .inr ⟨by rw [hreset, if_neg Bool.false_ne_true], hstate⟩

omit [Field K] [LinearOrder K] [IsStrictOrderedRing K] in
theorem present_append {rows : List (Row K)} {row : Row K} {i : Nat}
    (h : Present (rows ++ [row]) i) :
    Present rows i ∨ i = rows.length ∧ ∃ box, row = some box := by
  obtain ⟨box, hbox⟩ := h
  rcases lt_trichotomy i rows.length with hlt | rfl | hgt
  · rw [List.getElem?_append_left hlt] at hbox
    exact .inl ⟨box, hbox⟩
  · rw [List.getElem?_concat_length] at hbox
    exact .inr ⟨rfl, box, Option.some.inj hbox⟩
  · rw [List.getElem?_eq_none (by simp; omega)] at hbox
    exact absurd hbox (by simp)

omit [Field K] [LinearOrder K] [IsStrictOrderedRing K] in
theorem Present.append {rows : List (Row K)} {i : Nat} (h : Present rows i) (row : Row K) :
    Present (rows ++ [row]) i := by
  obtain ⟨box, hbox⟩ := h
  exact ⟨box, by rw [List.getElem?_append_left (List.getElem?_eq_some_iff.mp hbox).1, hbox]⟩

omit [Field K] [LinearOrder K] [IsStrictOrderedRing K] in
theorem present_last (rows : List (Row K)) (box : Box K) :
    Present (rows ++ [some box]) rows.length := ⟨box, List.getElem?_concat_length⟩

omit [IsStrictOrderedRing K] in
theorem Filtered.start (config : BBoxSmoothingConfig K) : Filtered config [] Loop.start where
  rows := .nil
  increasing := .nil
  inTrack := by simp [Loop.start]
  entered := by
    rintro i ⟨box, hbox⟩
    simp [Loop.start] at hbox
  last := by simp [Loop.start]

/-- **One round keeps what the filter leaves.** -/
theorem Filtered.step (ops : RealOps K) {config : BBoxSmoothingConfig K} {raws : List (Row K)}
    {loop : Loop K} (h : Filtered config raws loop) (hscale : 0 < config.targetSizeScale)
    {frame : Frame K} (hframe : frame.Ok) :
    Filtered config (raws ++ [frame.raw]) (step ops config loop frame) := by
  rcases step_cases ops hscale loop hframe with ⟨hraw, hstate, hresets, hresult⟩ |
    ⟨native, next, hraw, hnext, hstate, hresult, hresets⟩
  · constructor
    · rw [hresult]
      exact List.rel_append h.rows (.cons (.missing _ hraw) .nil)
    · rw [hresets]
      exact h.increasing
    · rw [hresets, hresult]
      intro r hr
      have hlt := h.inTrack r hr
      rw [List.length_append]
      omega
    · rw [hresets, hresult]
      intro i hi
      rcases present_append hi with hi | ⟨-, box, hbox⟩
      · refine (h.entered i hi).imp_right ?_
        rintro ⟨j, rfl, hj⟩
        exact ⟨j, rfl, hj.append none⟩
      · exact absurd hbox (by simp)
    · rw [hstate]
      simp
  · have hguards : Guards config frame.raw (some (guarded config native next)) :=
      .covers _ native _ hraw (lt_of_lt_of_le hnext (le_max_left _ _)) (le_max_right _ _)
    have hsub : ∀ r ∈ loop.resets, r < loop.result.length + 1 := fun r hr =>
      (h.inTrack r hr).trans (Nat.lt_succ_self _)
    constructor
    · rw [hresult]
      exact List.rel_append h.rows (.cons hguards .nil)
    · rcases hresets with heq | ⟨heq, -⟩
      · rw [heq]
        refine List.pairwise_append.mpr ⟨h.increasing, List.pairwise_singleton _ _, ?_⟩
        intro r hr r' hr'
        rw [List.mem_singleton.mp hr']
        exact h.inTrack r hr
      · rw [heq]
        exact h.increasing
    · rw [hresult, List.length_append]
      intro r hr
      rcases hresets with heq | ⟨heq, -⟩
      · rw [heq, List.mem_append, List.mem_singleton] at hr
        rcases hr with hr | rfl
        · exact hsub r hr
        · exact Nat.lt_succ_self _
      · rw [heq] at hr
        exact hsub r hr
    · rw [hresult]
      intro i hi
      rcases present_append hi with hi | ⟨rfl, -⟩
      · rcases h.entered i hi with hmem | ⟨j, rfl, hj⟩
        · left
          rcases hresets with heq | ⟨heq, -⟩
          · rw [heq]
            exact List.mem_append_left _ hmem
          · rw [heq]
            exact hmem
        · exact .inr ⟨j, rfl, hj.append _⟩
      · -- The new row is a reset, or goes on from the row before it.
        rcases hresets with heq | ⟨-, box, hbox⟩
        · left
          rw [heq]
          simp
        · obtain ⟨j, hj, hpresent⟩ := h.last box hbox
          exact .inr ⟨j, hj, hpresent.append _⟩
    · intro box _
      rw [hresult]
      exact ⟨loop.result.length, by simp, present_last _ _⟩

theorem Filtered.run (ops : RealOps K) {config : BBoxSmoothingConfig K}
    (hscale : 0 < config.targetSizeScale) {raws : List (Row K)} {loop : Loop K}
    (h : Filtered config raws loop) (fs : List (Frame K)) (hfs : ∀ frame ∈ fs, frame.Ok) :
    Filtered config (raws ++ fs.map (·.raw)) (fs.foldl (BoxSmoothing.step ops config) loop) := by
  induction fs generalizing raws loop with
  | nil => simpa using h
  | cons frame fs ih =>
    have hstep := h.step ops hscale (hfs frame List.mem_cons_self)
    have hrest := ih hstep fun f hf => hfs f (List.mem_cons_of_mem _ hf)
    rw [List.foldl_cons, List.map_cons, List.append_cons]
    exact hrest

/-! ### The frames of a track -/

omit [IsStrictOrderedRing K] in
theorem validBox_eq_some {raw : Row K} {native : Box K} :
    validBox raw = some native ↔ raw = some native ∧ 0 < native.side := by
  simp [validBox, Option.filter_eq_some_iff]

omit [IsStrictOrderedRing K] in
theorem rejectSpike_pos {config : BBoxSmoothingConfig K} {before current after : Box K}
    (h : 0 < current.side) : 0 < (rejectSpike ops config before current after).side := by
  simp only [rejectSpike]
  split
  · exact ops.exp_pos _
  · split <;> exact h

omit [IsStrictOrderedRing K] in
/-- The target of a valid row is there, with a positive size. -/
theorem rejectAt_ok {config : BBoxSmoothingConfig K} {rows : List (Observed K)} {i : Nat}
    {native : Box K} {seen : Bool} (hrow : rows[i]? = some (some native, seen))
    (hpos : 0 < native.side) :
    ∃ box, rejectAt ops config rows i = some box ∧ 0 < box.side := by
  cases i with
  | zero => exact ⟨native, by simp [rejectAt, hrow], hpos⟩
  | succ before =>
    rw [rejectAt, hrow]
    split
    · rename_i b c a _ hcurrent _
      obtain rfl : native = c := by simp at hcurrent; exact hcurrent.1
      exact ⟨_, rfl, rejectSpike_pos hpos⟩
    · exact ⟨native, rfl, hpos⟩

section Frames

variable {config : BBoxSmoothingConfig K} {raw : List (Row K)} {times : List K}
  {observed : List Bool}

omit [IsStrictOrderedRing K] in
theorem frames_raw (htimes : times.length = raw.length) (hobserved : observed.length = raw.length) :
    (frames ops config raw times observed).map (·.raw) = raw := by
  apply List.ext_getElem
  · simp [frames, rejectIsolatedSpikes, htimes, hobserved]
  · intro i h h'
    simp [frames]

omit [IsStrictOrderedRing K] in
theorem frames_ok (htimes : times.length = raw.length) (hobserved : observed.length = raw.length) :
    ∀ frame ∈ frames ops config raw times observed, frame.Ok := by
  intro frame hframe native hnative
  obtain ⟨i, hi, rfl⟩ := List.getElem_of_mem hframe
  have hlen : i < raw.length := by
    simpa [frames, rejectIsolatedSpikes, htimes, hobserved] using hi
  obtain ⟨hraw, hpos⟩ := validBox_eq_some.mp hnative
  simp only [frames, List.getElem_map, List.getElem_zip] at hraw
  simp only [frames, List.getElem_map, List.getElem_zip, rejectIsolatedSpikes,
    List.getElem_range]
  have hrow : (raw.zip ((raw.zip observed).map fun p => (validBox p.1).isSome && p.2))[i]? =
      some (some native, (validBox raw[i]).isSome && observed[i]) := by
    rw [List.getElem?_eq_getElem (by simp [hobserved, hlen])]
    simp [hraw]
  exact rejectAt_ok hrow hpos

/-- The loop over a whole track. -/
theorem filterTrack_filtered (ops : RealOps K) (hscale : 0 < config.targetSizeScale)
    (htimes : times.length = raw.length) (hobserved : observed.length = raw.length) :
    Filtered config raw (filterTrack ops config raw times observed) := by
  have hrun := (Filtered.start config).run ops hscale
    (frames ops config raw times observed) (frames_ok htimes hobserved)
  rwa [frames_raw htimes hobserved, List.nil_append] at hrun

end Frames

/-! ### No missing frame inside a segment -/

/-- No reset lies inside a segment. -/
theorem segments_no_reset {resets : List Nat} {count : Nat} (h : resets.Pairwise (· < ·))
    {seg : Nat × Nat} (hseg : seg ∈ segments resets count) {r : Nat} (hr : r ∈ resets)
    (hstart : seg.1 < r) : seg.2 ≤ r := by
  induction resets with
  | nil => exact absurd hr (by simp)
  | cons first resets ih =>
    obtain ⟨hless, hrest⟩ := List.pairwise_cons.mp h
    cases resets with
    | nil =>
      simp only [segments, List.tail_cons, List.nil_append, List.zip_cons_cons, List.zip_nil_left,
        List.mem_singleton] at hseg hr
      subst hseg hr
      exact absurd hstart (lt_irrefl _)
    | cons second resets =>
      rw [segments_cons_cons, List.mem_cons] at hseg
      rcases hseg with rfl | hseg
      · rcases List.mem_cons.mp hr with rfl | hr
        · exact absurd hstart (lt_irrefl _)
        · rcases List.mem_cons.mp hr with rfl | hr
          · exact le_rfl
          · exact ((List.pairwise_cons.mp hrest).1 r hr).le
      · rcases List.mem_cons.mp hr with rfl | hr
        · -- The first reset is before every later segment.
          have hmem := (List.of_mem_zip (a := seg.1) (b := seg.2) hseg).1
          exact absurd (hless _ hmem) (not_lt.mpr hstart.le)
        · exact ih hrest hseg hr

omit [IsStrictOrderedRing K] in
/-- A present row of a segment has only present rows before it in the segment. -/
theorem Filtered.no_gap {config : BBoxSmoothingConfig K} {raws : List (Row K)} {loop : Loop K}
    (h : Filtered config raws loop) {count : Nat} {seg : Nat × Nat}
    (hseg : seg ∈ segments loop.resets count) {i j : Nat} (hi : seg.1 ≤ i) (hij : i ≤ j)
    (hj : j < seg.2) (hpresent : Present loop.result j) : Present loop.result i := by
  induction j, hij using Nat.le_induction with
  | base => exact hpresent
  | succ j hij ih =>
    rcases h.entered (j + 1) hpresent with hreset | ⟨j', hj', hpresent'⟩
    · have hstop := segments_no_reset h.increasing hseg hreset (by omega)
      omega
    · obtain rfl : j = j' := by omega
      exact ih (by omega) hpresent'

/-! ### The whole filter -/

omit [IsStrictOrderedRing K] in
/-- Settings that pass the checks. -/
theorem postInit_ok {config : BBoxSmoothingConfig K} (h : config.postInit = .ok ()) :
    (∀ field ∈ config.fields, 0 ≤ field.2) ∧
      ∀ field ∈ config.weights, 0 < field.2 ∧ field.2 ≤ 1 := by
  rw [BBoxSmoothingConfig.postInit] at h
  split at h
  · cases h
  · rename_i hfields
    split at h
    · cases h
    · rename_i hweights
      constructor
      · intro field hfield
        simpa using List.find?_eq_none.mp hfields field hfield
      · intro field hfield
        simpa using List.find?_eq_none.mp hweights field hfield

omit [IsStrictOrderedRing K] in
theorem validateFrameTimes_some {times : List K} {count : Nat} (hlen : times.length = count)
    (htimes : times.Pairwise (· < ·)) :
    validateFrameTimes (times.map some) count = .ok times := by
  have hreduce : (times.map some).reduceOption = times := by
    simp [List.reduceOption]
  rw [validateFrameTimes, if_neg (by simp [hlen]), hreduce, if_pos htimes.isChain]

omit [Field K] [IsStrictOrderedRing K] in
/-- Only increasing times, one for each frame, are accepted. -/
theorem validateFrameTimes_ok {frameTimes : List (Option K)} {count : Nat} {times : List K}
    (h : validateFrameTimes frameTimes count = .ok times) :
    frameTimes = times.map some ∧ times.length = count ∧ times.Pairwise (· < ·) := by
  rw [validateFrameTimes] at h
  split at h
  · cases h
  · rename_i hfinite
    split at h
    · rename_i hchain
      obtain rfl : frameTimes.reduceOption = times := Except.ok.inj h
      obtain ⟨hlen, hnone⟩ := not_or.mp hfinite
      -- No time is missing, so dropping the missing ones drops nothing.
      have hmap : frameTimes = frameTimes.reduceOption.map some := by
        clear h hchain hlen hfinite
        induction frameTimes with
        | nil => rfl
        | cons t ts ih =>
          cases t with
          | none => exact absurd List.mem_cons_self hnone
          | some t =>
            have hrest := ih fun hmem => hnone (List.mem_cons_of_mem _ hmem)
            show some t :: ts = some t :: ts.reduceOption.map some
            rw [← hrest]
      refine ⟨hmap, ?_, hchain.pairwise⟩
      rw [← not_ne_iff.mp hlen]
      conv_rhs => rw [hmap]
      rw [List.length_map]
    · cases h

/-- What a run of the filter gives. -/
structure Smoothed (ops : RealOps K) (config : BBoxSmoothingConfig K) (boxes : List (Row K))
    (times : List K) (loop : Loop K) (out : List (Row K)) : Prop where
  least : ∀ seg ∈ segments loop.resets boxes.length,
    IsLeastAbove (rateBound config.maxSizeLogRatePerSecond)
      (logSizes ops (slice times seg) (slice loop.result seg))
      (logSizes ops (slice times seg) (slice out seg))
  noGap : ∀ seg ∈ segments loop.resets boxes.length, ∀ i j, seg.1 ≤ i → i < j → j < seg.2 →
    Present loop.result j → Present loop.result i
  guards : List.Forall₂ (Guards config) boxes out

section Smooth

variable {config : BBoxSmoothingConfig K} {boxes : List (Row K)} {times : List K}
  {observed : List Bool}

omit [IsStrictOrderedRing K] in
theorem Filtered.positive {loop : Loop K} (h : Filtered config boxes loop) :
    Positive loop.result := by
  intro box hbox
  obtain ⟨i, hi, hget⟩ := List.getElem_of_mem hbox
  have hraw : i < boxes.length := by
    rw [h.rows.length_eq]
    exact hi
  have hguards := h.rows.get hraw hi
  simp only [List.get_eq_getElem, hget] at hguards
  cases hguards with
  | covers _ _ _ hpos _ => exact hpos

theorem smoothed_filterTrack (hconfig : config.postInit = .ok ())
    (htimes : times.Pairwise (· < ·)) (hlen : times.length = boxes.length)
    (hobserved : observed.length = boxes.length) :
    Smoothed ops config boxes times (filterTrack ops config boxes times observed)
      (limitSizeChanges ops (filterTrack ops config boxes times observed).result times
        (filterTrack ops config boxes times observed).resets config.maxSizeLogRatePerSecond) := by
  obtain ⟨hfields, hweights⟩ := postInit_ok hconfig
  have hscale : 0 < config.targetSizeScale :=
    (hweights ("target_size_scale", config.targetSizeScale) (by
      simp [BBoxSmoothingConfig.weights])).1
  have hrate : 0 ≤ config.maxSizeLogRatePerSecond :=
    hfields ("max_size_log_rate_per_second", config.maxSizeLogRatePerSecond) (by
      simp [BBoxSmoothingConfig.fields])
  have h := filterTrack_filtered ops hscale hlen hobserved
  have hresult : boxes.length = (filterTrack ops config boxes times observed).result.length :=
    h.rows.length_eq
  obtain ⟨hin, -⟩ := segments_spec h.increasing h.inTrack
  constructor
  · rw [hresult]
    exact limitSizeChanges_least hrate htimes (hlen.trans hresult) h.increasing h.inTrack
  · intro seg hseg i j hi hij hj
    exact h.no_gap hseg hi hij.le hj
  · -- The limit only raises, so what the guard needed is still there.
    exact forall₂_comp (fun _ _ _ hguards hle => hguards.above hle) h.rows
      (above_foldl hrate htimes (hlen.trans hresult) h.positive hin)

omit [IsStrictOrderedRing K] in
/-- Every track with increasing times is filtered. -/
theorem smoothBboxTrack_returns (htimes : times.Pairwise (· < ·))
    (hlen : times.length = boxes.length) (hobserved : observed.length = boxes.length) :
    smoothBboxTrack ops boxes (times.map some) observed config =
      .ok (limitSizeChanges ops (filterTrack ops config boxes times observed).result times
        (filterTrack ops config boxes times observed).resets config.maxSizeLogRatePerSecond) := by
  rw [smoothBboxTrack, validateFrameTimes_some hlen htimes]
  show (if observed.length ≠ boxes.length then _ else _) = _
  rw [if_neg (not_not.mpr hobserved)]
  rfl

omit [IsStrictOrderedRing K] in
/-- Nothing else is. -/
theorem smoothBboxTrack_ok {frameTimes : List (Option K)} {out : List (Row K)}
    (h : smoothBboxTrack ops boxes frameTimes observed config = .ok out) :
    ∃ times : List K, frameTimes = times.map some ∧ times.Pairwise (· < ·) ∧
      times.length = boxes.length ∧ observed.length = boxes.length := by
  rw [smoothBboxTrack] at h
  cases htimes : validateFrameTimes frameTimes boxes.length with
  | error message =>
    rw [htimes] at h
    exact absurd h (by simp [bind, Except.bind])
  | ok times =>
    obtain ⟨hmap, hlen, hincreasing⟩ := validateFrameTimes_ok htimes
    rw [htimes] at h
    refine ⟨times, hmap, hincreasing, hlen, ?_⟩
    by_contra hobserved
    simp [bind, Except.bind, hobserved, throw, throwThe, MonadExceptOf.throw] at h

end Smooth

/-- **Box size limiting gives the least envelope, and the segments of the filter have no gap.** For
every track with positive sizes, increasing times and increasing resets, the limit only raises
sizes, and the log sizes of each segment become the least ones that are nowhere below and move at
most by the rate times the time step.  For every run of the filter that returns, the same holds of
its segments, no missing frame lies before a present one of the same segment, and every frame is
missing where its raw box is not valid and else at least as large as the crop guard needs. -/
theorem size_limit_envelope (ops : RealOps K) :
    (∀ (boxes : List (Row K)) (times : List K) (resets : List Nat) (logRate : K),
      0 ≤ logRate → times.Pairwise (· < ·) → times.length = boxes.length → Positive boxes →
      resets.Pairwise (· < ·) → (∀ r ∈ resets, r < boxes.length) →
      List.Forall₂ RowAbove boxes (limitSizeChanges ops boxes times resets logRate) ∧
      ∀ seg ∈ segments resets boxes.length,
        IsLeastAbove (rateBound logRate) (logSizes ops (slice times seg) (slice boxes seg))
          (logSizes ops (slice times seg)
            (slice (limitSizeChanges ops boxes times resets logRate) seg))) ∧
    (∀ (boxes : List (Row K)) (frameTimes : List (Option K)) (observed : List Bool)
      (config : BBoxSmoothingConfig K) (out : List (Row K)),
      config.postInit = .ok () → smoothBboxTrack ops boxes frameTimes observed config = .ok out →
      ∃ times, frameTimes = times.map some ∧
        Smoothed ops config boxes times (filterTrack ops config boxes times observed) out) := by
  constructor
  · intro boxes times resets logRate hrate htimes hlen hpos hresets hcount
    obtain ⟨hin, -⟩ := segments_spec hresets hcount
    exact ⟨above_foldl hrate htimes hlen hpos hin,
      limitSizeChanges_least hrate htimes hlen hresets hcount⟩
  · intro boxes frameTimes observed config out hconfig hout
    obtain ⟨times, rfl, htimes, hlen, hobserved⟩ := smoothBboxTrack_ok hout
    rw [smoothBboxTrack_returns htimes hlen hobserved] at hout
    obtain rfl := Except.ok.inj hout
    exact ⟨times, rfl, smoothed_filterTrack hconfig htimes hlen hobserved⟩

/-! ### The real numbers -/

noncomputable def realOps : RealOps ℝ where
  log := Real.log
  exp := Real.exp
  pow := fun x y => x ^ y
  norm := fun x y => Real.sqrt (x ^ 2 + y ^ 2)
  log_exp := Real.log_exp
  exp_log := fun _ => Real.exp_log
  exp_pos := Real.exp_pos
  exp_mono := fun _ _ => Real.exp_le_exp.mpr
  exp_zero := Real.exp_zero

/-- The default settings pass their own checks. -/
theorem default_postInit (ops : RealOps K) :
    (BBoxSmoothingConfig.default ops).postInit = .ok () := by
  -- The rate is the only default that is not a literal: it is positive as the logarithm is monotone.
  have hlog : 0 ≤ ops.log (1 + decimal 1 2) := by
    by_contra hneg
    have hle := ops.exp_mono _ _ (not_le.mp hneg).le
    rw [ops.exp_log _ (by norm_num [decimal]), ops.exp_zero] at hle
    norm_num [decimal] at hle
  have hrate : (0 : K) ≤ decimal 20 0 * ops.log (1 + decimal 1 2) :=
    mul_nonneg (by norm_num [decimal]) hlog
  have hfields : ∀ field ∈ (BBoxSmoothingConfig.default ops).fields, ¬field.2 < 0 := by
    simp only [BBoxSmoothingConfig.fields, BBoxSmoothingConfig.default, REFERENCE_FPS,
      List.forall_mem_cons, not_lt]
    refine ⟨?_, ?_, ?_, hrate, ?_⟩
    · norm_num [decimal]
    · norm_num [decimal]
    · norm_num [decimal]
    · norm_num [decimal]
  have hweights : ∀ field ∈ (BBoxSmoothingConfig.default ops).weights,
      ¬¬(0 < field.2 ∧ field.2 ≤ 1) := by
    simp only [BBoxSmoothingConfig.weights, BBoxSmoothingConfig.default, List.forall_mem_cons]
    norm_num [decimal]
  rw [BBoxSmoothingConfig.postInit, List.find?_eq_none.mpr (by simpa using hfields),
    List.find?_eq_none.mpr (by simpa using hweights)]
  simp only [BBoxSmoothingConfig.default]
  norm_num [decimal]

/-- Two boxes, a missing frame and two boxes again. -/
def track : List (Row ℝ) :=
  [some ⟨0, 0, 40⟩, some ⟨0, 0, 80⟩, none, some ⟨0, 0, 36⟩, some ⟨0, 0, 72⟩]

/-- The filter returns for the track and keeps what the guard needs, and at a tenth a second the
sizes of both segments become the least ones above the given two. -/
theorem two_boxes_smoothed :
    ∃ out, smoothBboxTrack realOps track ([0, 1, 2, 3, 4].map some) [true, true, false, true, true]
        (BBoxSmoothingConfig.default realOps) = .ok out ∧
      List.Forall₂ (Guards (BBoxSmoothingConfig.default realOps)) track out ∧
      List.Forall₂ RowAbove track (limitSizeChanges realOps track [0, 1, 2, 3, 4] [0, 3] 0.1) ∧
      IsLeastAbove (rateBound 0.1) [(0, Real.log 40), (1, Real.log 80)]
        (logSizes realOps [0, 1, 2]
          (slice (limitSizeChanges realOps track [0, 1, 2, 3, 4] [0, 3] 0.1) (0, 3))) ∧
      IsLeastAbove (rateBound 0.1) [(3, Real.log 36), (4, Real.log 72)]
        (logSizes realOps [3, 4]
          (slice (limitSizeChanges realOps track [0, 1, 2, 3, 4] [0, 3] 0.1) (3, 5))) := by
  have htimes : ([0, 1, 2, 3, 4] : List ℝ).Pairwise (· < ·) := by norm_num
  have hpos : Positive track := by
    intro box hbox
    simp only [track, List.mem_cons, Option.some.injEq, List.not_mem_nil, or_false,
      reduceCtorEq, false_or] at hbox
    rcases hbox with rfl | rfl | rfl | rfl <;> norm_num
  have hreturns : smoothBboxTrack realOps track ([0, 1, 2, 3, 4].map some)
      [true, true, false, true, true] (BBoxSmoothingConfig.default realOps) = .ok _ :=
    smoothBboxTrack_returns htimes rfl rfl
  -- Both segments hold two boxes, so each envelope is raised by its larger one.
  obtain ⟨hlimit, hsmooth⟩ := size_limit_envelope realOps
  obtain ⟨times, -, hsmoothed⟩ := hsmooth _ _ _ _ _ (default_postInit realOps) hreturns
  obtain ⟨habove, hleast⟩ := hlimit track [0, 1, 2, 3, 4] [0, 3] 0.1 (by norm_num) htimes rfl hpos
    (by simp) (by simp [track])
  exact ⟨_, hreturns, hsmoothed.guards, habove, hleast (0, 3) List.mem_cons_self,
    hleast (3, 5) (List.mem_cons_of_mem _ List.mem_cons_self)⟩

end BoxSmoothing
