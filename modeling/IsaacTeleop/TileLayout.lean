/-
The tiles of a framebuffer.

The layers are laid out row by row on a grid of `⌈√n⌉` columns.  Every tile but those of the last
column and row has the same size; these two take what is left.  The padding shrinks a tile, never
below one pixel, and the content is fitted into what remains with its own aspect.

* `aspectFit`, `tileLayout` — the layout, with exact quotients;
* `Span` — the columns and the rows, one axis at a time;
* `tile_layout_geometry` — all layouts.
-/
import Mathlib

namespace TileLayout

/-! ### The layout -/

structure Rect where
  x : ℕ
  y : ℕ
  width : ℕ
  height : ℕ
  deriving DecidableEq, Repr

structure Resolution where
  width : ℕ
  height : ℕ
  deriving DecidableEq, Repr

structure TileSlot where
  outer : Rect
  content : Rect
  deriving DecidableEq, Repr

/-- `aspect_fit` -/
def aspectFit (contentAspect : ℚ) (outerW outerH : ℕ) : Rect :=
  if outerW = 0 ∨ outerH = 0 ∨ contentAspect ≤ 0 then ⟨0, 0, 0, 0⟩
  else
    let outerAspect : ℚ := outerW / outerH
    let fitH := if contentAspect > outerAspect then ⌊(outerW : ℚ) / contentAspect⌋₊ else outerH
    let fitW := if contentAspect > outerAspect then outerW else ⌊(outerH : ℚ) * contentAspect⌋₊
    ⟨(outerW - fitW) / 2, (outerH - fitH) / 2, fitW, fitH⟩

/-- `ceil(sqrt(n))` -/
def ceilSqrt (n : ℕ) : ℕ := if n.sqrt * n.sqrt = n then n.sqrt else n.sqrt + 1

def cols (n : ℕ) : ℕ := ceilSqrt n

def rows (n : ℕ) : ℕ := (n + cols n - 1) / cols n

/-- A stretch of one axis. -/
structure Span where
  offset : ℕ
  extent : ℕ

/-- `tile_x` and `tile_w`, or `tile_y` and `tile_h`: the last tile takes the remainder. -/
def tileSpan (size count index : ℕ) : Span :=
  let base := size / count
  ⟨index * base, if index = count - 1 then size - index * base else base⟩

/-- What the padding leaves of a tile. -/
def Span.pad (padding : ℕ) (tile : Span) : Span :=
  let pad := min padding (tile.extent / 2)
  ⟨tile.offset + pad, max 1 (tile.extent - 2 * pad)⟩

/-- The body of the loop. -/
def tileSlot (n : ℕ) (fbSize : Resolution) (padding i : ℕ) (aspect : ℚ) : TileSlot :=
  let horizontal := (tileSpan fbSize.width (cols n) (i % cols n)).pad padding
  let vertical := (tileSpan fbSize.height (rows n) (i / cols n)).pad padding
  let fit := aspectFit aspect horizontal.extent vertical.extent
  { outer := ⟨horizontal.offset, vertical.offset, horizontal.extent, vertical.extent⟩
    content := ⟨horizontal.offset + fit.x, vertical.offset + fit.y, fit.width, fit.height⟩ }

/-- `tile_layout` -/
def tileLayout (aspects : List ℚ) (fbSize : Resolution) (padding : ℕ) : List TileSlot :=
  if aspects.length = 0 ∨ fbSize.width = 0 ∨ fbSize.height = 0 then []
  else aspects.mapIdx fun i aspect => tileSlot aspects.length fbSize padding i aspect

/-! ### The grid -/

/-- The integer square root, rounded up, is the ceiling of the real one. -/
theorem ceilSqrt_eq (n : ℕ) : ceilSqrt n = ⌈Real.sqrt n⌉₊ := by
  have hle : n.sqrt * n.sqrt ≤ n := Nat.sqrt_le n
  have hlt : n < (n.sqrt + 1) * (n.sqrt + 1) := Nat.lt_succ_sqrt n
  unfold ceilSqrt
  split
  · rename_i hsquare
    have hreal : Real.sqrt n = n.sqrt := by
      rw [← Real.sqrt_mul_self (Nat.cast_nonneg n.sqrt)]
      congr 1
      exact_mod_cast hsquare.symm
    rw [hreal, Nat.ceil_natCast]
  · rename_i hsquare
    have hgt : n.sqrt * n.sqrt < n := lt_of_le_of_ne hle hsquare
    symm
    rw [Nat.ceil_eq_iff (by omega), Nat.add_sub_cancel]
    constructor
    · refine Real.lt_sqrt_of_sq_lt ?_
      rw [sq]
      exact_mod_cast hgt
    · rw [Real.sqrt_le_left (by positivity), sq]
      exact_mod_cast hlt.le

theorem cols_pos {n : ℕ} (h : 0 < n) : 0 < cols n := by
  have hroot : 0 < n.sqrt := Nat.sqrt_pos.mpr h
  unfold cols ceilSqrt
  split <;> omega

/-- Every layer is in one of the rows. -/
theorem row_lt {n i : ℕ} (hi : i < n) : i / cols n < rows n := by
  have hcols : 0 < cols n := cols_pos (by omega)
  have hrows : rows n = (n - 1) / cols n + 1 := by
    rw [rows, show n + cols n - 1 = n - 1 + cols n by omega, Nat.add_div_right _ hcols]
  rw [hrows]
  exact Nat.lt_succ_of_le (Nat.div_le_div_right (by omega))

theorem rows_of_dvd {n : ℕ} (h : 0 < n) (hdvd : cols n ∣ n) : rows n * cols n = n := by
  obtain ⟨k, hk⟩ := hdvd
  have hcols := cols_pos h
  have hk' : n + cols n - 1 = cols n * k + (cols n - 1) := by omega
  have hrows : rows n = k := by
    rw [rows, hk', Nat.mul_add_div hcols, Nat.div_eq_of_lt (by omega), Nat.add_zero]
  rw [hrows, Nat.mul_comm, ← hk]

/-! ### One axis -/

/-- One stretch lies in another. -/
def Span.Within (inner outer : Span) : Prop :=
  outer.offset ≤ inner.offset ∧ inner.offset + inner.extent ≤ outer.offset + outer.extent

/-- The padding leaves a part of the tile that is not empty. -/
theorem Span.pad_within {tile : Span} (h : 0 < tile.extent) (padding : ℕ) :
    (tile.pad padding).Within tile ∧ 0 < (tile.pad padding).extent := by
  unfold Span.pad Span.Within
  simp only
  have hpad : min padding (tile.extent / 2) ≤ tile.extent / 2 := Nat.min_le_right _ _
  omega

theorem Span.pad_zero {tile : Span} (h : 0 < tile.extent) : tile.pad 0 = tile := by
  unfold Span.pad
  simp only [Nat.zero_min, Nat.add_zero, Nat.mul_zero, Nat.sub_zero]
  rw [Nat.max_eq_right h]

section Axis

variable {size count : ℕ}

theorem tileSpan_offset_add {i : ℕ} (hi : i < count) :
    (tileSpan size count i).offset + (tileSpan size count i).extent =
      if i = count - 1 then size else (i + 1) * (size / count) := by
  have hle : count * (size / count) ≤ size := Nat.mul_div_le size count
  have hmul : i * (size / count) ≤ count * (size / count) := Nat.mul_le_mul_right _ hi.le
  unfold tileSpan
  simp only
  split
  · omega
  · ring

/-- A tile is not empty and inside the framebuffer. -/
theorem tileSpan_inside (hcount : 0 < count) (hsize : count ≤ size) {i : ℕ} (hi : i < count) :
    0 < (tileSpan size count i).extent ∧
      (tileSpan size count i).offset + (tileSpan size count i).extent ≤ size := by
  have hbase : 0 < size / count := Nat.div_pos hsize hcount
  have hle : count * (size / count) ≤ size := Nat.mul_div_le size count
  have hnext : (i + 1) * (size / count) ≤ count * (size / count) := Nat.mul_le_mul_right _ hi
  have hsucc : (i + 1) * (size / count) = i * (size / count) + size / count := by ring
  unfold tileSpan
  simp only
  split <;> omega

/-- A tile ends before the next ones begin. -/
theorem tileSpan_before {i j : ℕ} (hij : i < j) (hj : j < count) :
    (tileSpan size count i).offset + (tileSpan size count i).extent ≤
      (tileSpan size count j).offset := by
  rw [tileSpan_offset_add (hij.trans hj), if_neg (by omega)]
  exact Nat.mul_le_mul_right _ hij

/-- The tiles of an axis leave nothing out. -/
theorem tileSpan_covers (hcount : 0 < count) (hsize : count ≤ size) {x : ℕ} (hx : x < size) :
    ∃ i < count, (tileSpan size count i).offset ≤ x ∧
      x < (tileSpan size count i).offset + (tileSpan size count i).extent := by
  have hbase : 0 < size / count := Nat.div_pos hsize hcount
  by_cases hlast : x / (size / count) < count - 1
  · refine ⟨x / (size / count), by omega, Nat.div_mul_le_self x _, ?_⟩
    rw [tileSpan_offset_add (by omega), if_neg (by omega)]
    exact Nat.lt_mul_of_div_lt (Nat.lt_succ_self _) hbase
  · -- The last tile goes up to the end of the axis.
    refine ⟨count - 1, by omega, ?_, ?_⟩
    · exact (Nat.le_div_iff_mul_le hbase).mp (by omega)
    · rw [tileSpan_offset_add (by omega), if_pos rfl]
      exact hx

/-- With the padding, two tiles of an axis are still apart. -/
theorem outerSpan_before (hcount : 0 < count) (hsize : count ≤ size) {i j : ℕ} (hij : i < j)
    (hj : j < count) (padding : ℕ) :
    ((tileSpan size count i).pad padding).offset + ((tileSpan size count i).pad padding).extent ≤
      ((tileSpan size count j).pad padding).offset := by
  have hi := tileSpan_inside hcount hsize (hij.trans hj)
  have hj' := tileSpan_inside hcount hsize hj
  calc ((tileSpan size count i).pad padding).offset +
        ((tileSpan size count i).pad padding).extent
      ≤ (tileSpan size count i).offset + (tileSpan size count i).extent :=
        (Span.pad_within hi.1 padding).1.2
    _ ≤ (tileSpan size count j).offset := tileSpan_before hij hj
    _ ≤ ((tileSpan size count j).pad padding).offset := (Span.pad_within hj'.1 padding).1.1

theorem outerSpan_inside (hcount : 0 < count) (hsize : count ≤ size) {i : ℕ} (hi : i < count)
    (padding : ℕ) :
    0 < ((tileSpan size count i).pad padding).extent ∧
      ((tileSpan size count i).pad padding).offset +
        ((tileSpan size count i).pad padding).extent ≤ size := by
  have htile := tileSpan_inside hcount hsize hi
  obtain ⟨hwithin, hpos⟩ := Span.pad_within htile.1 padding
  exact ⟨hpos, hwithin.2.trans htile.2⟩

end Axis

/-! ### The content -/

/-- The content is as wide or as high as the rectangle around it, and less than a pixel off its
aspect in the other direction. -/
def Rect.Fits (aspect : ℚ) (outer content : Rect) : Prop :=
  (content.width = outer.width ∧ |(content.height : ℚ) - outer.width / aspect| < 1) ∨
    (content.height = outer.height ∧ |(content.width : ℚ) - outer.height * aspect| < 1)

/-- What is truncated is less than a pixel. -/
theorem abs_floor_sub_lt {q : ℚ} (hq : 0 ≤ q) : |(⌊q⌋₊ : ℚ) - q| < 1 := by
  have hle : (⌊q⌋₊ : ℚ) ≤ q := Nat.floor_le hq
  have hlt : q < ⌊q⌋₊ + 1 := Nat.lt_floor_add_one q
  rw [abs_lt]
  constructor <;> linarith

theorem aspectFit_spec {aspect : ℚ} (haspect : 0 < aspect) {w h : ℕ} (hw : 0 < w) (hh : 0 < h) :
    (aspectFit aspect w h).width ≤ w ∧ (aspectFit aspect w h).height ≤ h ∧
      (aspectFit aspect w h).x = (w - (aspectFit aspect w h).width) / 2 ∧
      (aspectFit aspect w h).y = (h - (aspectFit aspect w h).height) / 2 ∧
      (((aspectFit aspect w h).width = w ∧
          |((aspectFit aspect w h).height : ℚ) - w / aspect| < 1) ∨
        ((aspectFit aspect w h).height = h ∧
          |((aspectFit aspect w h).width : ℚ) - h * aspect| < 1)) := by
  have hh' : (0 : ℚ) < h := by exact_mod_cast hh
  unfold aspectFit
  rw [if_neg (by push Not; exact ⟨hw.ne', hh.ne', haspect⟩)]
  simp only
  by_cases hwide : aspect > (w : ℚ) / h
  · -- Wider than what is around it: bars above and below.
    simp only [if_pos hwide]
    have hquot : (w : ℚ) / aspect ≤ h := by
      rw [div_le_iff₀ haspect, mul_comm]
      exact ((div_lt_iff₀ hh').mp hwide).le
    refine ⟨le_rfl, ?_, trivial, trivial, .inl ⟨trivial, abs_floor_sub_lt (by positivity)⟩⟩
    exact Nat.floor_le_of_le hquot
  · simp only [if_neg hwide]
    have hprod : (h : ℚ) * aspect ≤ w := by
      rw [mul_comm]
      exact (le_div_iff₀ hh').mp (not_lt.mp hwide)
    refine ⟨?_, le_rfl, trivial, trivial, .inr ⟨trivial, abs_floor_sub_lt (by positivity)⟩⟩
    exact Nat.floor_le_of_le hprod

/-! ### All layouts -/

def Rect.Contains (r : Rect) (x y : ℕ) : Prop :=
  (r.x ≤ x ∧ x < r.x + r.width) ∧ r.y ≤ y ∧ y < r.y + r.height

/-- One rectangle lies in another. -/
def Rect.Within (inner outer : Rect) : Prop :=
  (outer.x ≤ inner.x ∧ inner.x + inner.width ≤ outer.x + outer.width) ∧
    outer.y ≤ inner.y ∧ inner.y + inner.height ≤ outer.y + outer.height

/-- The two margins of each axis differ by at most one pixel. -/
def Rect.Centred (inner outer : Rect) : Prop :=
  |((inner.x : ℤ) - outer.x) - ((outer.x + outer.width) - (inner.x + inner.width))| ≤ 1 ∧
    |((inner.y : ℤ) - outer.y) - ((outer.y + outer.height) - (inner.y + inner.height))| ≤ 1

def Resolution.rect (fbSize : Resolution) : Rect := ⟨0, 0, fbSize.width, fbSize.height⟩

section Layout

variable {n : ℕ} {fbSize : Resolution}

/-- The two axes of a slot. -/
theorem tileSlot_outer (hw : cols n ≤ fbSize.width) (hh : rows n ≤ fbSize.height) {i : ℕ}
    (hi : i < n) (padding : ℕ) (aspect : ℚ) :
    0 < (tileSlot n fbSize padding i aspect).outer.width ∧
      0 < (tileSlot n fbSize padding i aspect).outer.height ∧
      (tileSlot n fbSize padding i aspect).outer.Within fbSize.rect := by
  have hcols : 0 < cols n := cols_pos (by omega)
  have hrow := row_lt hi
  obtain ⟨hwidth, hright⟩ := outerSpan_inside hcols hw (Nat.mod_lt i hcols) padding
  obtain ⟨hheight, hbottom⟩ := outerSpan_inside hrow.pos hh hrow padding
  refine ⟨hwidth, hheight, ⟨Nat.zero_le _, ?_⟩, Nat.zero_le _, ?_⟩
  · rw [Resolution.rect, Nat.zero_add]
    exact hright
  · rw [Resolution.rect, Nat.zero_add]
    exact hbottom

/-- Two slots differ in their column or in their row. -/
theorem tileSlot_disjoint (hw : cols n ≤ fbSize.width) (hh : rows n ≤ fbSize.height) {i j : ℕ}
    (hij : i < j) (hj : j < n) (padding : ℕ) (aspect aspect' : ℚ) (x y : ℕ) :
    ¬ ((tileSlot n fbSize padding i aspect).outer.Contains x y ∧
      (tileSlot n fbSize padding j aspect').outer.Contains x y) := by
  rintro ⟨⟨⟨hxi, hxi'⟩, hyi, hyi'⟩, ⟨hxj, hxj'⟩, hyj, hyj'⟩
  have hcols : 0 < cols n := cols_pos (by omega)
  have hmod := fun k : ℕ => Nat.mod_lt k hcols
  rcases lt_trichotomy (i % cols n) (j % cols n) with hlt | heq | hlt
  · have hbefore := outerSpan_before hcols hw hlt (hmod j) padding
    simp only [tileSlot] at hxi' hxj
    omega
  · -- The same column, so that the rows differ.
    have hrow : i / cols n < j / cols n := by
      by_contra hle
      have hi := Nat.div_add_mod i (cols n)
      have hj := Nat.div_add_mod j (cols n)
      have hmul := Nat.mul_le_mul_left (cols n) (not_lt.mp hle)
      omega
    have hjrow := row_lt hj
    have hbefore := outerSpan_before hjrow.pos hh hrow hjrow padding
    simp only [tileSlot] at hyi' hyj
    omega
  · have hbefore := outerSpan_before hcols hw hlt (hmod i) padding
    simp only [tileSlot] at hxi hxj'
    omega

theorem tileSlot_content (hw : cols n ≤ fbSize.width) (hh : rows n ≤ fbSize.height) {i : ℕ}
    (hi : i < n) (padding : ℕ) {aspect : ℚ} (haspect : 0 < aspect) :
    (tileSlot n fbSize padding i aspect).content.Within
        (tileSlot n fbSize padding i aspect).outer ∧
      (tileSlot n fbSize padding i aspect).content.Centred
        (tileSlot n fbSize padding i aspect).outer ∧
      (tileSlot n fbSize padding i aspect).outer.Fits aspect
        (tileSlot n fbSize padding i aspect).content := by
  obtain ⟨hwidth, hheight, _⟩ := tileSlot_outer hw hh hi padding aspect
  obtain ⟨hfitW, hfitH, hx, hy, hfits⟩ := aspectFit_spec haspect hwidth hheight
  refine ⟨?_, ?_, hfits⟩
  · simp only [Rect.Within, tileSlot] at hfitW hfitH hx hy ⊢
    omega
  · simp only [Rect.Centred, tileSlot] at hfitW hfitH hx hy ⊢
    constructor <;> rw [abs_le] <;> omega

/-- Without padding, and with a full last row, every pixel is in a slot. -/
theorem tileSlot_covers (hn : 0 < n) (hw : cols n ≤ fbSize.width) (hh : rows n ≤ fbSize.height)
    (hdvd : cols n ∣ n) {x y : ℕ} (hx : x < fbSize.width) (hy : y < fbSize.height) :
    ∃ i < n, ∀ aspect, (tileSlot n fbSize 0 i aspect).outer.Contains x y := by
  have hcols := cols_pos hn
  have hfull := rows_of_dvd hn hdvd
  have hrows : 0 < rows n := by
    by_contra hzero
    rw [Nat.eq_zero_of_not_pos hzero] at hfull
    omega
  obtain ⟨col, hcol, hleft, hright⟩ := tileSpan_covers hcols hw hx
  obtain ⟨row, hrow, htop, hbottom⟩ := tileSpan_covers hrows hh hy
  have hmod : (row * cols n + col) % cols n = col := by
    rw [Nat.mul_comm, Nat.mul_add_mod, Nat.mod_eq_of_lt hcol]
  have hdiv : (row * cols n + col) / cols n = row := by
    rw [Nat.mul_comm, Nat.mul_add_div hcols, Nat.div_eq_of_lt hcol, Nat.add_zero]
  -- The last row is full, so the place in the grid has a tile.
  have hindex : row * cols n + col < n := by
    have hle : (row + 1) * cols n ≤ rows n * cols n := Nat.mul_le_mul_right _ hrow
    have hsucc : (row + 1) * cols n = row * cols n + cols n := by ring
    omega
  refine ⟨row * cols n + col, hindex, fun aspect => ?_⟩
  have hwidth := (tileSpan_inside hcols hw hcol).1
  have hheight := (tileSpan_inside hrows hh hrow).1
  simp only [Rect.Contains, tileSlot, hmod, hdiv, Span.pad_zero hwidth, Span.pad_zero hheight]
  exact ⟨⟨hleft, hright⟩, htop, hbottom⟩

end Layout

/-- **The geometry of the tiles.**  There is one slot for each layer.  The outer rectangles are not
empty, inside the framebuffer and apart from each other; the content is inside, in the middle, and
fits.  Without padding, and with a full last row, the outer rectangles cover the framebuffer. -/
theorem tile_layout_geometry {aspects : List ℚ} {fbSize : Resolution} (hne : aspects ≠ [])
    (hpos : ∀ aspect ∈ aspects, 0 < aspect) (hw : cols aspects.length ≤ fbSize.width)
    (hh : rows aspects.length ≤ fbSize.height) (padding : ℕ) :
    (tileLayout aspects fbSize padding).length = aspects.length ∧
    (∀ slot ∈ tileLayout aspects fbSize padding,
      0 < slot.outer.width ∧ 0 < slot.outer.height ∧ slot.outer.Within fbSize.rect) ∧
    (tileLayout aspects fbSize padding).Pairwise
      (fun slot slot' => ∀ x y, ¬ (slot.outer.Contains x y ∧ slot'.outer.Contains x y)) ∧
    (∀ (i : ℕ) (slot : TileSlot) (aspect : ℚ),
      (tileLayout aspects fbSize padding)[i]? = some slot → aspects[i]? = some aspect →
      slot.content.Within slot.outer ∧ slot.content.Centred slot.outer ∧
        slot.outer.Fits aspect slot.content) ∧
    (padding = 0 → cols aspects.length ∣ aspects.length →
      ∀ x < fbSize.width, ∀ y < fbSize.height,
        ∃ slot ∈ tileLayout aspects fbSize padding, slot.outer.Contains x y) := by
  have hn : 0 < aspects.length := List.length_pos_iff.mpr hne
  have hcols := cols_pos hn
  have hrows := (row_lt hn).pos
  -- The early return is not taken, so the slots are laid out one by one.
  have hlayout : tileLayout aspects fbSize padding =
      aspects.mapIdx fun i aspect => tileSlot aspects.length fbSize padding i aspect :=
    if_neg (by omega)
  rw [hlayout]
  refine ⟨List.length_mapIdx, fun slot hslot => ?_, ?_, fun i slot aspect hslot haspect => ?_, ?_⟩
  · obtain ⟨i, hi, rfl⟩ := List.mem_mapIdx.mp hslot
    exact tileSlot_outer hw hh hi padding _
  · rw [List.pairwise_iff_getElem]
    intro i j hi hj hij x y
    rw [List.getElem_mapIdx, List.getElem_mapIdx]
    exact tileSlot_disjoint hw hh hij (by simpa using hj) padding _ _ x y
  · rw [List.getElem?_mapIdx, haspect] at hslot
    obtain rfl := Option.some.inj hslot
    obtain ⟨hi, hget⟩ := List.getElem?_eq_some_iff.mp haspect
    exact tileSlot_content hw hh hi padding (hpos aspect (hget ▸ List.getElem_mem hi))
  · rintro rfl hdvd x hx y hy
    obtain ⟨i, hi, hcontains⟩ := tileSlot_covers hn hw hh hdvd hx hy
    exact ⟨_, List.mem_mapIdx.mpr ⟨i, hi, rfl⟩, hcontains _⟩

/-- Three layers on two columns, with padding: the second row has one slot. -/
theorem three_tiles :
    (tileLayout [16 / 9, 1, 1 / 2] ⟨101, 60⟩ 3).length = 3 ∧
      (∀ slot ∈ tileLayout [16 / 9, 1, 1 / 2] ⟨101, 60⟩ 3, 0 < slot.outer.width) := by
  obtain ⟨hlength, hslots, _⟩ := @tile_layout_geometry [16 / 9, 1, 1 / 2] ⟨101, 60⟩ (by simp)
    (by norm_num) (by norm_num [cols, ceilSqrt]) (by norm_num [rows, cols, ceilSqrt]) 3
  exact ⟨hlength, fun slot hslot => (hslots slot hslot).1⟩

end TileLayout
