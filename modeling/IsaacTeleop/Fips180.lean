/-
The Secure Hash Standard, for SHA-256.

The digest is defined as the standard defines it: the constants are bits of the roots of primes,
a message is a string of bits, and the padding is the least one that fills whole blocks.

* `K`, `initial` — the constants;
* `pad`, `schedule`, `compression`, `digest` — the hash;
* `fractionBits_eq` — the bits of a root, from two inequalities of natural numbers;
* `zeros_eq` — the padding of a message of whole bytes.
-/
import Mathlib

namespace Fips180

abbrev Word := BitVec 32

/-! ### Functions and constants -/

def Ch (x y z : Word) : Word := (x &&& y) ^^^ (~~~x &&& z)

def Maj (x y z : Word) : Word := (x &&& y) ^^^ (x &&& z) ^^^ (y &&& z)

def bigSigma0 (x : Word) : Word := x.rotateRight 2 ^^^ x.rotateRight 13 ^^^ x.rotateRight 22

def bigSigma1 (x : Word) : Word := x.rotateRight 6 ^^^ x.rotateRight 11 ^^^ x.rotateRight 25

def smallSigma0 (x : Word) : Word := x.rotateRight 7 ^^^ x.rotateRight 18 ^^^ x >>> 3

def smallSigma1 (x : Word) : Word := x.rotateRight 17 ^^^ x.rotateRight 19 ^^^ x >>> 10

local instance atLeastTwoTwo : Nat.AtLeastTwo 2 := ⟨le_rfl⟩

/-- The first thirty-two bits of the fractional part. -/
noncomputable def fractionBits (x : ℝ) : ℕ := ⌊Int.fract x * 2 ^ 32⌋₊

/-- The constants of the rounds, from the cube roots of the first sixty-four primes. -/
noncomputable def K (t : ℕ) : Word :=
  BitVec.ofNat 32 (fractionBits ((Nat.nth Nat.Prime t : ℝ) ^ (1 / 3 : ℝ)))

/-- The initial hash value, from the square roots of the first eight primes. -/
noncomputable def H0 (i : ℕ) : Word :=
  BitVec.ofNat 32 (fractionBits (Real.sqrt (Nat.nth Nat.Prime i)))

/-- The bits of a root: what is below the root and what is above it. -/
theorem fractionBits_eq {x : ℝ} {n p q k : ℕ} (hx : 0 ≤ x) (hn : n ≠ 0) (hpow : x ^ n = p)
    (hk : k < 2 ^ 32) (hle : (q * 2 ^ 32 + k) ^ n ≤ p * (2 ^ 32) ^ n)
    (hlt : p * (2 ^ 32) ^ n < (q * 2 ^ 32 + k + 1) ^ n) : fractionBits x = k := by
  have hscaled : (x * 2 ^ 32) ^ n = (p : ℝ) * (2 ^ 32) ^ n := by rw [mul_pow, hpow]
  have hnonneg : 0 ≤ x * 2 ^ 32 := by positivity
  -- The two bounds on the power hold of the root as well.
  have hlow : (q : ℝ) * 2 ^ 32 + k ≤ x * 2 ^ 32 := by
    refine le_of_pow_le_pow_left₀ hn hnonneg ?_
    rw [hscaled]
    exact_mod_cast hle
  have hhigh : x * 2 ^ 32 < (q : ℝ) * 2 ^ 32 + k + 1 := by
    refine lt_of_pow_lt_pow_left₀ n (by positivity) ?_
    rw [hscaled]
    exact_mod_cast hlt
  have hk' : (k : ℝ) + 1 ≤ 2 ^ 32 := by exact_mod_cast hk
  -- So `q` is the integer part, and `k` the first bits behind it.
  have hfloor : ⌊x⌋ = (q : ℤ) := by
    rw [Int.floor_eq_iff]
    constructor
    · have hq : (q : ℝ) * 2 ^ 32 ≤ x * 2 ^ 32 := by
        linarith [(Nat.cast_nonneg k : (0 : ℝ) ≤ k)]
      exact_mod_cast le_of_mul_le_mul_right hq (by positivity)
    · have hq : x * 2 ^ 32 < ((q : ℝ) + 1) * 2 ^ 32 := by linarith
      exact_mod_cast lt_of_mul_lt_mul_right hq (by positivity)
  rw [fractionBits, Nat.floor_eq_iff (mul_nonneg (Int.fract_nonneg x) (by positivity)),
    Int.fract, hfloor, sub_mul]
  constructor
  · push_cast
    linarith
  · push_cast
    linarith

/-! ### Bits -/

abbrev Bits := List Bool

/-- The number that a string of bits stands for, the first bit the highest. -/
def ofBits (bits : Bits) : ℕ := bits.foldl (fun n b => 2 * n + b.toNat) 0

/-- A number as a string of bits. -/
def toBits (width n : ℕ) : Bits := (List.range width).map fun i => n.testBit (width - 1 - i)

@[simp]
theorem length_toBits (width n : ℕ) : (toBits width n).length = width := by simp [toBits]

theorem foldl_bits (start : ℕ) (bits : Bits) :
    bits.foldl (fun n b => 2 * n + b.toNat) start = start * 2 ^ bits.length + ofBits bits := by
  induction bits generalizing start with
  | nil => simp [ofBits]
  | cons b bits ih =>
    have hcons : ofBits (b :: bits) = (2 * 0 + b.toNat) * 2 ^ bits.length + ofBits bits := ih _
    rw [List.foldl_cons, ih, hcons, List.length_cons]
    ring

theorem ofBits_append (bits bits' : Bits) :
    ofBits (bits ++ bits') = ofBits bits * 2 ^ bits'.length + ofBits bits' := by
  rw [ofBits, List.foldl_append, foldl_bits]
  rfl

/-- A string of bits in two parts. -/
theorem toBits_append (width width' n : ℕ) :
    toBits (width + width') n = toBits width (n / 2 ^ width') ++ toBits width' n := by
  apply List.ext_getElem
  · simp
  · intro i h h'
    rw [length_toBits] at h
    rw [List.getElem_append]
    split
    · rename_i hi
      rw [length_toBits] at hi
      simp only [toBits, List.getElem_map, List.getElem_range, Nat.testBit_div_two_pow]
      congr 1
      omega
    · rename_i hi
      rw [length_toBits] at hi
      simp only [toBits, List.getElem_map, List.getElem_range, List.length_map, List.length_range]
      congr 1
      omega

theorem toBits_one (n : ℕ) : toBits 1 n = [n.testBit 0] := rfl

theorem ofBits_toBits (width n : ℕ) : ofBits (toBits width n) = n % 2 ^ width := by
  induction width generalizing n with
  | zero => simp [toBits, ofBits, Nat.mod_one]
  | succ width ih =>
    have hbit : ofBits [n.testBit 0] = n % 2 := by
      rw [ofBits, List.foldl_cons, List.foldl_nil, Nat.testBit_zero]
      rcases Nat.mod_two_eq_zero_or_one n with h | h <;> simp [h]
    have hsplit : n % 2 ^ (width + 1) = n % 2 + 2 * (n / 2 % 2 ^ width) := by
      rw [Nat.pow_succ', Nat.mod_mul]
    rw [toBits_append, ofBits_append, ih, toBits_one, hbit, hsplit, List.length_singleton,
      Nat.pow_one]
    omega

/-- Only the low bits matter. -/
theorem toBits_mod (width n : ℕ) : toBits width (n % 2 ^ width) = toBits width n := by
  refine List.map_congr_left fun i hi => ?_
  have hlt : width - 1 - i < width := by
    have := List.mem_range.mp hi
    omega
  rw [Nat.testBit_mod_two_pow, decide_eq_true hlt, Bool.true_and]

/-! ### Preprocessing -/

theorem exists_zeros (l : ℕ) : ∃ k, (l + 1 + k) % 512 = 448 :=
  ⟨512 - (l + 1) % 512 + 448, by omega⟩

/-- The least number of zeros after the one bit that leaves room for the length. -/
def zeros (l : ℕ) : ℕ := Nat.find (exists_zeros l)

def pad (message : Bits) : Bits :=
  message ++ [true] ++ List.replicate (zeros message.length) false ++ toBits 64 message.length

theorem zeros_eq {l k : ℕ} (h : (l + 1 + k) % 512 = 448) (hk : k < 512) : zeros l = k := by
  have hfind := Nat.find_spec (exists_zeros l)
  have hle : Nat.find (exists_zeros l) ≤ k := Nat.find_min' _ h
  rw [zeros]
  omega

/-- Word `j` of block `i`. -/
def messageWord (padded : Bits) (i j : ℕ) : Word :=
  BitVec.ofNat 32 (ofBits ((padded.drop (512 * i + 32 * j)).take 32))

/-! ### The hash -/

def schedule (M : ℕ → Word) (t : ℕ) : Word :=
  if t < 16 then M t
  else
    smallSigma1 (schedule M (t - 2)) + schedule M (t - 7) + smallSigma0 (schedule M (t - 15)) +
      schedule M (t - 16)

theorem schedule_lt (M : ℕ → Word) {t : ℕ} (ht : t < 16) : schedule M t = M t := by
  rw [schedule, if_pos ht]

theorem schedule_ge (M : ℕ → Word) {t : ℕ} (ht : 16 ≤ t) :
    schedule M t = smallSigma1 (schedule M (t - 2)) + schedule M (t - 7) +
      smallSigma0 (schedule M (t - 15)) + schedule M (t - 16) := by
  rw [schedule, if_neg (by omega)]

/-- Only the sixteen words of the block matter. -/
theorem schedule_congr {M M' : ℕ → Word} (h : ∀ j < 16, M j = M' j) (t : ℕ) :
    schedule M t = schedule M' t := by
  induction t using Nat.strongRecOn with
  | _ t ih =>
    rcases lt_or_ge t 16 with ht | ht
    · rw [schedule_lt M ht, schedule_lt M' ht, h t ht]
    · rw [schedule_ge M ht, schedule_ge M' ht, ih (t - 2) (by omega), ih (t - 7) (by omega),
        ih (t - 15) (by omega), ih (t - 16) (by omega)]

/-- The eight words of the state. -/
@[ext]
structure Words where
  a : Word
  b : Word
  c : Word
  d : Word
  e : Word
  f : Word
  g : Word
  h : Word

def step (v : Words) (k w : Word) : Words :=
  let t1 := v.h + bigSigma1 v.e + Ch v.e v.f v.g + k + w
  let t2 := bigSigma0 v.a + Maj v.a v.b v.c
  ⟨t1 + t2, v.a, v.b, v.c, v.d + t1, v.e, v.f, v.g⟩

def Words.add (v v' : Words) : Words :=
  ⟨v.a + v'.a, v.b + v'.b, v.c + v'.c, v.d + v'.d, v.e + v'.e, v.f + v'.f, v.g + v'.g, v.h + v'.h⟩

noncomputable def compression (H : Words) (M : ℕ → Word) : Words :=
  H.add ((List.range 64).foldl (fun v t => step v (K t) (schedule M t)) H)

theorem compression_congr (H : Words) {M M' : ℕ → Word} (h : ∀ j < 16, M j = M' j) :
    compression H M = compression H M' := by
  rw [compression, compression]
  simp only [schedule_congr h]

noncomputable def initial : Words := ⟨H0 0, H0 1, H0 2, H0 3, H0 4, H0 5, H0 6, H0 7⟩

noncomputable def hash (message : Bits) : Words :=
  (List.range ((pad message).length / 512)).foldl
    (fun H i => compression H (messageWord (pad message) i)) initial

/-- The 256 bits of the digest. -/
noncomputable def digest (message : Bits) : Bits :=
  let H := hash message
  [H.a, H.b, H.c, H.d, H.e, H.f, H.g, H.h].flatMap fun word => toBits 32 word.toNat

/-- The lowercase hexadecimal digits of a string of bits, four bits a digit. -/
def hex : Bits → List Char
  | b₃ :: b₂ :: b₁ :: b₀ :: bits => Nat.digitChar (ofBits [b₃, b₂, b₁, b₀]) :: hex bits
  | _ => []

theorem hex_append {bits : Bits} (n : ℕ) (h : bits.length = 4 * n) (bits' : Bits) :
    hex (bits ++ bits') = hex bits ++ hex bits' := by
  induction n generalizing bits with
  | zero =>
    obtain rfl := List.length_eq_zero_iff.mp h
    rfl
  | succ n ih =>
    match bits, h with
    | b₃ :: b₂ :: b₁ :: b₀ :: bits, h =>
      rw [List.cons_append, List.cons_append, List.cons_append, List.cons_append, hex, hex,
        ih (by simpa [Nat.mul_succ] using h), List.cons_append]

/-- The first digit of a number. -/
theorem hex_toBits (k n : ℕ) :
    hex (toBits (4 + 4 * k) n) =
      Nat.digitChar (n / 2 ^ (4 * k) % 16) :: hex (toBits (4 * k) n) := by
  have hfour : hex (toBits 4 (n / 2 ^ (4 * k))) = [Nat.digitChar (n / 2 ^ (4 * k) % 16)] := by
    show [Nat.digitChar (ofBits (toBits 4 (n / 2 ^ (4 * k))))] = _
    rw [ofBits_toBits]
    rfl
  rw [toBits_append, hex_append 1 (length_toBits 4 _), hfour, List.singleton_append]

/-- The digits of words, one after the other. -/
theorem hex_flatMap_toBits (words : List Word) :
    hex (words.flatMap fun word => toBits 32 word.toNat) =
      words.flatMap fun word => hex (toBits 32 word.toNat) := by
  induction words with
  | nil => rfl
  | cons word words ih =>
    rw [List.flatMap_cons, hex_append 8 (length_toBits 32 _), ih, List.flatMap_cons]

end Fips180
