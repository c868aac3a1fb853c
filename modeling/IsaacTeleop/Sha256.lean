/-
The SHA-256 of the calibration worker, which is the standard's.

* `Sha256.compress` — the block compression;
* `Sha256.padded` — the message padded to whole blocks;
* `sha256Hex` — the lowercase hexadecimal digest;
* `Sha256.K_eq`, `Sha256.initial_eq` — the tables hold the standard's constants;
* `Sha256.padded_bits` — the padding of bytes is the padding of their bits;
* `Sha256.compress_eq` — the compression of a block;
* `sha256Hex_standard` — the digest.
-/
import IsaacTeleop.ByteText
import IsaacTeleop.Fips180

open ByteText

namespace Sha256

def kRoundConstants : Vector UInt32 64 := #v[
  0x428a2f98, 0x71374491, 0xb5c0fbcf, 0xe9b5dba5, 0x3956c25b, 0x59f111f1, 0x923f82a4, 0xab1c5ed5,
  0xd807aa98, 0x12835b01, 0x243185be, 0x550c7dc3, 0x72be5d74, 0x80deb1fe, 0x9bdc06a7, 0xc19bf174,
  0xe49b69c1, 0xefbe4786, 0x0fc19dc6, 0x240ca1cc, 0x2de92c6f, 0x4a7484aa, 0x5cb0a9dc, 0x76f988da,
  0x983e5152, 0xa831c66d, 0xb00327c8, 0xbf597fc7, 0xc6e00bf3, 0xd5a79147, 0x06ca6351, 0x14292967,
  0x27b70a85, 0x2e1b2138, 0x4d2c6dfc, 0x53380d13, 0x650a7354, 0x766a0abb, 0x81c2c92e, 0x92722c85,
  0xa2bfe8a1, 0xa81a664b, 0xc24b8b70, 0xc76c51a3, 0xd192e819, 0xd6990624, 0xf40e3585, 0x106aa070,
  0x19a4c116, 0x1e376c08, 0x2748774c, 0x34b0bcb5, 0x391c0cb3, 0x4ed8aa4a, 0x5b9cca4f, 0x682e6ff3,
  0x748f82ee, 0x78a5636f, 0x84c87814, 0x8cc70208, 0x90befffa, 0xa4506ceb, 0xbef9a3f7, 0xc67178f2]

def rotr (value bits : UInt32) : UInt32 := (value >>> bits) ||| (value <<< (32 - bits))

/-- The big-endian word at byte `4 * i` of a block. -/
def blockWord (block : List UInt8) (i : ℕ) : UInt32 :=
  ((block.getD (i * 4) 0).toUInt32 <<< 24) ||| ((block.getD (i * 4 + 1) 0).toUInt32 <<< 16) |||
    ((block.getD (i * 4 + 2) 0).toUInt32 <<< 8) ||| (block.getD (i * 4 + 3) 0).toUInt32

/-- The next word of the message schedule, from the words before it. -/
def extendSchedule (w : Array UInt32) (i : ℕ) : Array UInt32 :=
  let s0 := rotr (w.getD (i - 15) 0) 7 ^^^ rotr (w.getD (i - 15) 0) 18 ^^^ (w.getD (i - 15) 0 >>> 3)
  let s1 := rotr (w.getD (i - 2) 0) 17 ^^^ rotr (w.getD (i - 2) 0) 19 ^^^ (w.getD (i - 2) 0 >>> 10)
  w.push (w.getD (i - 16) 0 + s0 + w.getD (i - 7) 0 + s1)

def schedule (block : List UInt8) : Array UInt32 :=
  (List.range' 16 48).foldl extendSchedule ((List.range 16).map (blockWord block)).toArray

/-- One round of the compression. -/
def round (v : Vector UInt32 8) (k w : UInt32) : Vector UInt32 8 :=
  let s1 := rotr v[4] 6 ^^^ rotr v[4] 11 ^^^ rotr v[4] 25
  let ch := (v[4] &&& v[5]) ^^^ (~~~v[4] &&& v[6])
  let t1 := v[7] + s1 + ch + k + w
  let s0 := rotr v[0] 2 ^^^ rotr v[0] 13 ^^^ rotr v[0] 22
  let maj := (v[0] &&& v[1]) ^^^ (v[0] &&& v[2]) ^^^ (v[1] &&& v[2])
  let t2 := s0 + maj
  #v[t1 + t2, v[0], v[1], v[2], v[3] + t1, v[4], v[5], v[6]]

def compress (state : Vector UInt32 8) (block : List UInt8) : Vector UInt32 8 :=
  let w := schedule block
  let v := (List.finRange 64).foldl
    (fun v (i : Fin 64) => round v kRoundConstants[i] (w.getD i 0)) state
  Vector.zipWith (· + ·) state v

/-- The zeros that fill the last block up to its length field. -/
def padZeros (bytes : List UInt8) : List UInt8 :=
  if bytes.length % 64 = 56 then bytes else padZeros (bytes ++ [0])
termination_by (120 - bytes.length % 64) % 64
decreasing_by
  rw [List.length_append, List.length_singleton]
  omega

/-- `0x80`, zeros, then the bit length as a big-endian 64-bit value. -/
def padded (data : List UInt8) : List UInt8 :=
  let bitLength := UInt64.ofNat data.length * 8
  padZeros (data ++ [0x80]) ++
    [56, 48, 40, 32, 24, 16, 8, 0].map fun shift : UInt64 => (bitLength >>> shift).toUInt8

/-- The loop over the blocks. -/
def compressBlocks (state : Vector UInt32 8) (bytes : List UInt8) : Vector UInt32 8 :=
  if bytes = [] then state else compressBlocks (compress state (bytes.take 64)) (bytes.drop 64)
termination_by bytes.length
decreasing_by
  rename_i h
  have hpos : 0 < bytes.length := List.length_pos_of_ne_nil h
  rw [List.length_drop]
  omega

def initialState : Vector UInt32 8 := #v[0x6a09e667, 0xbb67ae85, 0x3c6ef372, 0xa54ff53a,
  0x510e527f, 0x9b05688c, 0x1f83d9ab, 0x5be0cd19]

def kHex : ByteText := lit "0123456789abcdef"

/-- The eight hexadecimal digits of a word. -/
def hexWord (word : UInt32) : ByteText :=
  [28, 24, 20, 16, 12, 8, 4, 0].map fun shift : UInt32 =>
    kHex.getD ((word >>> shift) &&& 0xf).toNat 0

end Sha256

/-- `sha256_hex` -/
def sha256Hex (data : List UInt8) : ByteText :=
  (Sha256.compressBlocks Sha256.initialState (Sha256.padded data)).toList.flatMap Sha256.hexWord

namespace Sha256

/-! ### The constants -/

/-- The primes of the constants. -/
def firstPrimes : List ℕ := [
  2, 3, 5, 7, 11, 13, 17, 19, 23, 29, 31, 37, 41, 43, 47, 53, 59, 61, 67, 71, 73, 79, 83, 89, 97,
  101, 103, 107, 109, 113, 127, 131, 137, 139, 149, 151, 157, 163, 167, 173, 179, 181, 191, 193,
  197, 199, 211, 223, 227, 229, 233, 239, 241, 251, 257, 263, 269, 271, 277, 281, 283, 293, 307,
  311]

/-- Trial division by the numbers below eighteen. -/
def smallPrime (n : ℕ) : Bool :=
  decide (2 ≤ n) && (List.range' 2 16).all fun m => n % m ≠ 0 || m == n

theorem smallPrime_iff {n : ℕ} (hn : n < 18 ^ 2) : smallPrime n = true ↔ n.Prime := by
  have hsqrt : Nat.sqrt n < 18 := Nat.sqrt_lt'.mpr hn
  simp only [smallPrime, Bool.and_eq_true, decide_eq_true_eq, List.all_eq_true, List.mem_range'_1,
    Bool.or_eq_true, beq_iff_eq]
  constructor
  · rintro ⟨htwo, h⟩
    refine Nat.prime_def_le_sqrt.mpr ⟨htwo, fun m hm hle hdvd => ?_⟩
    rcases h m ⟨hm, by omega⟩ with hmod | rfl
    · exact hmod (Nat.mod_eq_zero_of_dvd hdvd)
    · have hself : Nat.sqrt m < m := Nat.sqrt_lt_self (by omega)
      omega
  · intro hprime
    refine ⟨hprime.two_le, fun m hm => ?_⟩
    by_cases hdvd : m ∣ n
    · rcases hprime.eq_one_or_self_of_dvd m hdvd with hone | hself
      · omega
      · exact .inr hself
    · exact .inl fun hmod => hdvd (Nat.dvd_of_mod_eq_zero hmod)

theorem count_smallPrime {n : ℕ} (hn : n ≤ 18 ^ 2) :
    Nat.count Nat.Prime n = Nat.count (fun m => smallPrime m = true) n := by
  induction n with
  | zero => rfl
  | succ n ih =>
    rw [Nat.count_succ, Nat.count_succ, ih (by omega)]
    simp only [smallPrime_iff (show n < 18 ^ 2 by omega)]

set_option maxRecDepth 20000 in
theorem firstPrimes_count : ∀ t : Fin 64, firstPrimes.getD t 0 < 18 ^ 2 ∧
    smallPrime (firstPrimes.getD t 0) = true ∧
    Nat.count (fun n => smallPrime n = true) (firstPrimes.getD t 0) = t := by
  decide

/-- The table holds the first sixty-four primes. -/
theorem nth_prime (t : Fin 64) : Nat.nth Nat.Prime t = firstPrimes.getD t 0 := by
  obtain ⟨hlt, hprime, hcount⟩ := firstPrimes_count t
  rw [← count_smallPrime hlt.le] at hcount
  nth_rewrite 1 [← hcount]
  exact Nat.nth_count ((smallPrime_iff hlt).mp hprime)

/-- The whole part of a root of a small number. -/
def wholeRoot (n p : ℕ) : ℕ := ((List.range 18).filter fun q => (q + 1) ^ n ≤ p).length

theorem cubeRoots_bounds : ∀ t : Fin 64,
    (wholeRoot 3 (firstPrimes.getD t 0) * 2 ^ 32 + (kRoundConstants[t]).toNat) ^ 3 ≤
        firstPrimes.getD t 0 * (2 ^ 32) ^ 3 ∧
      firstPrimes.getD t 0 * (2 ^ 32) ^ 3 <
        (wholeRoot 3 (firstPrimes.getD t 0) * 2 ^ 32 + (kRoundConstants[t]).toNat + 1) ^ 3 := by
  decide

theorem squareRoots_bounds : ∀ i : Fin 8,
    (wholeRoot 2 (firstPrimes.getD i 0) * 2 ^ 32 + (initialState[i]).toNat) ^ 2 ≤
        firstPrimes.getD i 0 * (2 ^ 32) ^ 2 ∧
      firstPrimes.getD i 0 * (2 ^ 32) ^ 2 <
        (wholeRoot 2 (firstPrimes.getD i 0) * 2 ^ 32 + (initialState[i]).toNat + 1) ^ 2 := by
  decide

theorem ofNat_toNat_word (x : UInt32) : BitVec.ofNat 32 x.toNat = x.toBitVec :=
  BitVec.eq_of_toNat_eq (by simp)

/-- **The round constants are the standard's.** -/
theorem K_eq (t : Fin 64) : Fips180.K t = (kRoundConstants[t]).toBitVec := by
  obtain ⟨hle, hlt⟩ := cubeRoots_bounds t
  have hpow : ((firstPrimes.getD t 0 : ℝ) ^ (1 / 3 : ℝ)) ^ 3 = (firstPrimes.getD t 0 : ℕ) := by
    rw [← Real.rpow_natCast, ← Real.rpow_mul (Nat.cast_nonneg _)]
    norm_num
  rw [Fips180.K, nth_prime, Fips180.fractionBits_eq (by positivity) (by norm_num) hpow
    (UInt32.toNat_lt _) hle hlt]
  exact ofNat_toNat_word _

/-- **The initial state is the standard's.** -/
theorem H0_eq (i : Fin 8) : Fips180.H0 i = (initialState[i]).toBitVec := by
  obtain ⟨hle, hlt⟩ := squareRoots_bounds i
  have hi : (i : ℕ) < 64 := by omega
  have hpow : (Real.sqrt (firstPrimes.getD i 0 : ℕ)) ^ 2 = (firstPrimes.getD i 0 : ℕ) :=
    Real.sq_sqrt (Nat.cast_nonneg _)
  rw [Fips180.H0, nth_prime ⟨i, hi⟩, Fips180.fractionBits_eq (Real.sqrt_nonneg _) (by norm_num) hpow
    (UInt32.toNat_lt _) hle hlt]
  exact ofNat_toNat_word _

/-! ### One block -/

/-- The state as the standard's eight words. -/
def toWords (v : Vector UInt32 8) : Fips180.Words :=
  ⟨v[0].toBitVec, v[1].toBitVec, v[2].toBitVec, v[3].toBitVec, v[4].toBitVec, v[5].toBitVec,
    v[6].toBitVec, v[7].toBitVec⟩

theorem initial_eq : toWords initialState = Fips180.initial :=
  Fips180.Words.ext (H0_eq 0).symm (H0_eq 1).symm (H0_eq 2).symm (H0_eq 3).symm (H0_eq 4).symm
    (H0_eq 5).symm (H0_eq 6).symm (H0_eq 7).symm

theorem toWords_round (v : Vector UInt32 8) (k w : UInt32) :
    toWords (round v k w) = Fips180.step (toWords v) k.toBitVec w.toBitVec := rfl

/-- The words of a block. -/
def blockWords (block : List UInt8) (j : ℕ) : Fips180.Word := (blockWord block j).toBitVec

/-- The loop that extends the schedule. -/
theorem extendSchedule_run (block : List UInt8) (n : ℕ) :
    let w := (List.range' 16 n).foldl extendSchedule ((List.range 16).map (blockWord block)).toArray
    w.size = 16 + n ∧
      ∀ t < 16 + n, (w.getD t 0).toBitVec = Fips180.schedule (blockWords block) t := by
  induction n with
  | zero =>
    refine ⟨by simp, fun t ht => ?_⟩
    rw [Fips180.schedule_lt _ (by omega)]
    simp [blockWords, show t < 16 by omega]
  | succ n ih =>
    obtain ⟨hsize, hwords⟩ := ih
    rw [List.range'_concat, List.foldl_append, List.foldl_cons, List.foldl_nil, Nat.one_mul]
    generalize (List.range' 16 n).foldl extendSchedule _ = w at hsize hwords
    dsimp only at hsize hwords ⊢
    refine ⟨by simp [extendSchedule, hsize]; omega, fun t ht => ?_⟩
    rw [extendSchedule, Array.getD_eq_getD_getElem?, Array.getElem?_push, hsize]
    split
    · rename_i heq
      subst heq
      rw [Fips180.schedule_ge _ (by omega), ← hwords (16 + n - 2) (by omega),
        ← hwords (16 + n - 7) (by omega), ← hwords (16 + n - 15) (by omega),
        ← hwords (16 + n - 16) (by omega)]
      -- The same four words are added, in another order.
      show (w.getD (16 + n - 16) 0).toBitVec +
        Fips180.smallSigma0 (w.getD (16 + n - 15) 0).toBitVec +
        (w.getD (16 + n - 7) 0).toBitVec + Fips180.smallSigma1 (w.getD (16 + n - 2) 0).toBitVec = _
      ring
    · rw [← Array.getD_eq_getD_getElem?]
      exact hwords t (by omega)

theorem schedule_eq (block : List UInt8) (t : ℕ) (ht : t < 64) :
    ((schedule block).getD t 0).toBitVec = Fips180.schedule (blockWords block) t :=
  (extendSchedule_run block 48).2 t ht

theorem toWords_add (v v' : Vector UInt32 8) :
    toWords (Vector.zipWith (· + ·) v v') = (toWords v).add (toWords v') := by
  simp [toWords, Fips180.Words.add]

/-- **The compression of a block is the standard's.** -/
theorem compress_eq (state : Vector UInt32 8) (block : List UInt8) :
    toWords (compress state block) = Fips180.compression (toWords state) (blockWords block) := by
  have hrounds : ∀ (l : List (Fin 64)) (v : Vector UInt32 8),
      toWords (l.foldl
          (fun v (i : Fin 64) => round v kRoundConstants[i] ((schedule block).getD i 0)) v) =
        (l.map Fin.val).foldl
          (fun v t => Fips180.step v (Fips180.K t) (Fips180.schedule (blockWords block) t))
          (toWords v) := by
    intro l
    induction l with
    | nil => exact fun _ => rfl
    | cons i l ih =>
      intro v
      rw [List.foldl_cons, ih, toWords_round, List.map_cons, List.foldl_cons, K_eq,
        schedule_eq block i i.isLt]
  rw [Fips180.compression, ← List.map_coe_finRange_eq_range, ← hrounds]
  exact toWords_add _ _

/-! ### Bytes and bits -/

def byteBits (b : UInt8) : Fips180.Bits := Fips180.toBits 8 b.toNat

/-- The bits of a message of bytes. -/
def bits (bytes : List UInt8) : Fips180.Bits := bytes.flatMap byteBits

@[simp]
theorem bits_append (bytes bytes' : List UInt8) :
    bits (bytes ++ bytes') = bits bytes ++ bits bytes' := List.flatMap_append

theorem length_bits (bytes : List UInt8) : (bits bytes).length = 8 * bytes.length := by
  induction bytes with
  | nil => rfl
  | cons b bytes ih =>
    rw [bits, List.flatMap_cons, List.length_append, ← bits, ih, byteBits, Fips180.length_toBits,
      List.length_cons]
    omega

theorem bits_drop (bytes : List UInt8) (n : ℕ) :
    (bits bytes).drop (8 * n) = bits (bytes.drop n) := by
  rcases le_total n bytes.length with hle | hle
  · have hlen : (bits (bytes.take n)).length = 8 * n := by
      rw [length_bits, List.length_take, min_eq_left hle]
    conv_lhs => rw [← List.take_append_drop n bytes, bits_append]
    rw [← hlen, List.drop_left]
  · rw [List.drop_of_length_le (by rw [length_bits]; omega), List.drop_of_length_le hle]
    rfl

theorem bits_take (bytes : List UInt8) (n : ℕ) :
    (bits bytes).take (8 * n) = bits (bytes.take n) := by
  rcases le_total n bytes.length with hle | hle
  · have hlen : (bits (bytes.take n)).length = 8 * n := by
      rw [length_bits, List.length_take, min_eq_left hle]
    conv_lhs => rw [← List.take_append_drop n bytes, bits_append]
    rw [← hlen, List.take_left]
  · rw [List.take_of_length_le (by rw [length_bits]; omega), List.take_of_length_le hle]

theorem ofBits_byteBits (b : UInt8) : Fips180.ofBits (byteBits b) = b.toNat := by
  rw [byteBits, Fips180.ofBits_toBits, Nat.mod_eq_of_lt b.toNat_lt]

theorem ofBits_four (b₀ b₁ b₂ b₃ : UInt8) :
    Fips180.ofBits (bits [b₀, b₁, b₂, b₃]) =
      b₀.toNat * 2 ^ 24 + b₁.toNat * 2 ^ 16 + b₂.toNat * 2 ^ 8 + b₃.toNat := by
  have hsplit : bits [b₀, b₁, b₂, b₃] =
      byteBits b₀ ++ (byteBits b₁ ++ (byteBits b₂ ++ byteBits b₃)) := by
    simp [bits]
  rw [hsplit, Fips180.ofBits_append, Fips180.ofBits_append, Fips180.ofBits_append,
    ofBits_byteBits, ofBits_byteBits, ofBits_byteBits, ofBits_byteBits]
  simp only [byteBits, List.length_append, Fips180.length_toBits]
  ring

/-- Four bytes that are shifted and joined make the word of their bits. -/
theorem joined_toNat (b₀ b₁ b₂ b₃ : UInt8) :
    ((b₀.toUInt32 <<< 24) ||| (b₁.toUInt32 <<< 16) ||| (b₂.toUInt32 <<< 8) ||| b₃.toUInt32).toNat =
      b₀.toNat * 2 ^ 24 + b₁.toNat * 2 ^ 16 + b₂.toNat * 2 ^ 8 + b₃.toNat := by
  have h₀ := b₀.toNat_lt
  have h₁ := b₁.toNat_lt
  have h₂ := b₂.toNat_lt
  have h₃ := b₃.toNat_lt
  -- No byte is shifted out of the word.
  have hshift : ∀ (b : UInt8) (n : ℕ), n ≤ 24 → b.toNat <<< n % 2 ^ 32 = 2 ^ n * b.toNat := by
    intro b n hn
    rw [Nat.shiftLeft_eq, Nat.mul_comm, Nat.mod_eq_of_lt]
    calc 2 ^ n * b.toNat < 2 ^ n * 2 ^ 8 := Nat.mul_lt_mul_of_pos_left b.toNat_lt (by positivity)
      _ ≤ 2 ^ 24 * 2 ^ 8 := Nat.mul_le_mul_right _ (Nat.pow_le_pow_right (by norm_num) hn)
  simp only [UInt32.toNat_or, UInt32.toNat_shiftLeft, UInt8.toNat_toUInt32]
  show b₀.toNat <<< 24 % 2 ^ 32 ||| b₁.toNat <<< 16 % 2 ^ 32 ||| b₂.toNat <<< 8 % 2 ^ 32 |||
    b₃.toNat = _
  rw [hshift b₀ 24 (by norm_num), hshift b₁ 16 (by norm_num), hshift b₂ 8 (by norm_num)]
  -- The bytes do not overlap, so each `or` is a sum.
  have hfirst : 2 ^ 24 * b₀.toNat ||| 2 ^ 16 * b₁.toNat =
      2 ^ 16 * (2 ^ 8 * b₀.toNat + b₁.toNat) := by
    rw [← Nat.two_pow_add_eq_or_of_lt (by omega)]
    ring
  have hsecond : 2 ^ 16 * (2 ^ 8 * b₀.toNat + b₁.toNat) ||| 2 ^ 8 * b₂.toNat =
      2 ^ 8 * (2 ^ 16 * b₀.toNat + 2 ^ 8 * b₁.toNat + b₂.toNat) := by
    rw [← Nat.two_pow_add_eq_or_of_lt (by omega)]
    ring
  rw [hfirst, hsecond, ← Nat.two_pow_add_eq_or_of_lt (by omega)]
  ring

/-- The word at four bytes of a message. -/
theorem blockWord_eq {bytes : List UInt8} {n j : ℕ} (h : n + 64 ≤ bytes.length) (hj : j < 16) :
    blockWord ((bytes.drop n).take 64) j =
      UInt32.ofNat (Fips180.ofBits (bits ((bytes.drop (n + 4 * j)).take 4))) := by
  have hget : ∀ r < 4, ((bytes.drop n).take 64).getD (j * 4 + r) 0 =
      (bytes.drop (n + 4 * j)).getD r 0 := by
    intro r hr
    rw [List.getD_eq_getElem?_getD, List.getD_eq_getElem?_getD, List.getElem?_take_of_lt (by omega),
      List.getElem?_drop, List.getElem?_drop]
    congr 2
    omega
  have hlen : 4 ≤ (bytes.drop (n + 4 * j)).length := by
    rw [List.length_drop]
    omega
  generalize bytes.drop (n + 4 * j) = rest at hget hlen
  match rest, hlen with
  | b₀ :: b₁ :: b₂ :: b₃ :: rest, _ =>
    have h₀ := hget 0 (by norm_num)
    rw [Nat.add_zero] at h₀
    rw [blockWord, h₀, hget 1 (by norm_num), hget 2 (by norm_num), hget 3 (by norm_num)]
    simp only [List.getD_cons_zero, List.getD_cons_succ, List.take_succ_cons, List.take_zero]
    rw [ofBits_four, ← joined_toNat, UInt32.ofNat_toNat]

theorem messageWord_eq {bytes : List UInt8} {i j : ℕ} (h : 64 * i + 64 ≤ bytes.length)
    (hj : j < 16) :
    Fips180.messageWord (bits bytes) i j = blockWords ((bytes.drop (64 * i)).take 64) j := by
  have hbits : ((bits bytes).drop (512 * i + 32 * j)).take 32 =
      bits ((bytes.drop (64 * i + 4 * j)).take 4) := by
    rw [show 512 * i + 32 * j = 8 * (64 * i + 4 * j) by ring, bits_drop, ← bits_take]
  rw [Fips180.messageWord, hbits, blockWords, blockWord_eq h hj]
  rfl

/-! ### The padding -/

/-- The loop fills up with less than a block of zeros. -/
theorem padZeros_spec (bytes : List UInt8) :
    ∃ z < 64, padZeros bytes = bytes ++ List.replicate z 0 ∧ (bytes.length + z) % 64 = 56 := by
  have hrun : ∀ n, ∀ bytes : List UInt8, (bytes.length + n) % 64 = 56 → n < 64 →
      padZeros bytes = bytes ++ List.replicate n 0 := by
    intro n
    induction n with
    | zero =>
      intro bytes h _
      rw [Nat.add_zero] at h
      rw [padZeros, if_pos h]
      simp
    | succ n ih =>
      intro bytes h hn
      rw [padZeros, if_neg (by omega), ih (bytes ++ [0]) (by simp; omega) (by omega),
        List.append_assoc, List.replicate_succ]
      rfl
  refine ⟨(120 - bytes.length % 64) % 64, Nat.mod_lt _ (by norm_num), hrun _ bytes ?_ ?_, ?_⟩
  · omega
  · omega
  · omega

theorem bits_zeros (z : ℕ) : bits (List.replicate z 0) = List.replicate (8 * z) false := by
  induction z with
  | zero => rfl
  | succ z ih =>
    have hzero : byteBits 0 = List.replicate 8 false := by decide
    rw [List.replicate_succ, bits, List.flatMap_cons, ← bits, ih, hzero, ← List.replicate_add]
    congr 1
    omega

/-- The bytes of a length are its bits. -/
theorem lengthBytes_bits (n : UInt64) :
    bits ([56, 48, 40, 32, 24, 16, 8, 0].map fun shift : UInt64 => (n >>> shift).toUInt8) =
      Fips180.toBits 64 n.toNat := by
  have hbyte : ∀ shift : UInt64, shift < 64 →
      byteBits (n >>> shift).toUInt8 = Fips180.toBits 8 (n.toNat / 2 ^ shift.toNat) := by
    intro shift hshift
    have hlt : shift.toNat < 64 := UInt64.lt_iff_toNat_lt.mp hshift
    rw [byteBits, UInt64.toNat_toUInt8, UInt64.toNat_shiftRight, Fips180.toBits_mod,
      Nat.mod_eq_of_lt hlt, Nat.shiftRight_eq_div_pow]
  -- The number is taken apart byte by byte, the highest first.
  have hsplit : ∀ k, Fips180.toBits (8 + 8 * k) n.toNat =
      Fips180.toBits 8 (n.toNat / 2 ^ (8 * k)) ++ Fips180.toBits (8 * k) n.toNat :=
    fun k => Fips180.toBits_append 8 (8 * k) n.toNat
  simp only [bits, List.map_cons, List.map_nil, List.flatMap_cons, List.flatMap_nil]
  rw [hbyte 56 (by decide), hbyte 48 (by decide), hbyte 40 (by decide), hbyte 32 (by decide),
    hbyte 24 (by decide), hbyte 16 (by decide), hbyte 8 (by decide), hbyte 0 (by decide)]
  have h7 := hsplit 7
  have h6 := hsplit 6
  have h5 := hsplit 5
  have h4 := hsplit 4
  have h3 := hsplit 3
  have h2 := hsplit 2
  have h1 := hsplit 1
  have h0 := hsplit 0
  norm_num at h7 h6 h5 h4 h3 h2 h1 h0
  rw [h7, h6, h5, h4, h3, h2, h1]
  simp

/-- **The padding of the bytes is the padding of their bits.** -/
theorem padded_bits {data : List UInt8} (h : data.length < 2 ^ 61) :
    bits (padded data) = Fips180.pad (bits data) ∧ (padded data).length % 64 = 0 := by
  obtain ⟨z, hz, hpad, hmod⟩ := padZeros_spec (data ++ [0x80])
  have hlength : (UInt64.ofNat data.length * 8).toNat = 8 * data.length := by
    rw [UInt64.toNat_mul, UInt64.toNat_ofNat']
    show data.length % 2 ^ 64 * 8 % 2 ^ 64 = 8 * data.length
    omega
  -- The zero bytes and the rest of the marker byte are the zero bits of the standard.
  have hzeros : Fips180.zeros (bits data).length = 7 + 8 * z := by
    rw [List.length_append, List.length_singleton] at hmod
    apply Fips180.zeros_eq
    · rw [length_bits]
      omega
    · omega
  have hmark : byteBits 0x80 = [true] ++ List.replicate 7 false := by decide
  constructor
  · rw [padded, bits_append, lengthBytes_bits, hlength, hpad, bits_append, bits_append, bits_zeros,
      Fips180.pad, hzeros, length_bits]
    have hone : bits [0x80] = byteBits 0x80 := by simp [bits]
    rw [hone, hmark, List.replicate_add]
    simp [List.append_assoc]
  · rw [padded, hpad]
    simp only [List.length_append, List.length_replicate, List.length_map, List.length_cons,
      List.length_nil] at hmod ⊢
    omega

/-! ### The digest -/

theorem compressBlocks_nil (state : Vector UInt32 8) : compressBlocks state [] = state := by
  rw [compressBlocks, if_pos rfl]

theorem compressBlocks_cons (state : Vector UInt32 8) {bytes : List UInt8} (h : bytes ≠ []) :
    compressBlocks state bytes =
      compressBlocks (compress state (bytes.take 64)) (bytes.drop 64) := by
  rw [compressBlocks, if_neg h]

/-- The loop over the blocks, from a state the standard has. -/
theorem compressBlocks_eq {bytes : List UInt8} (n i : ℕ) (state : Vector UInt32 8)
    (h : bytes.length = 64 * (i + n)) :
    toWords (compressBlocks state (bytes.drop (64 * i))) =
      (List.range' i n).foldl
        (fun H i => Fips180.compression H (Fips180.messageWord (bits bytes) i))
        (toWords state) := by
  induction n generalizing i state with
  | zero =>
    rw [List.drop_of_length_le (by omega), compressBlocks_nil]
    rfl
  | succ n ih =>
    have hne : bytes.drop (64 * i) ≠ [] := by
      rw [← List.length_pos_iff, List.length_drop]
      omega
    have hwords : Fips180.compression (toWords state) (Fips180.messageWord (bits bytes) i) =
        toWords (compress state ((bytes.drop (64 * i)).take 64)) := by
      rw [compress_eq]
      exact Fips180.compression_congr _ fun j hj => messageWord_eq (by omega) hj
    have hnext : 64 * i + 64 = 64 * (i + 1) := by ring
    rw [compressBlocks_cons state hne, List.drop_drop, hnext, ih (i + 1) _ (by omega),
      List.range'_succ, List.foldl_cons, hwords]

theorem compressBlocks_padded {data : List UInt8} (h : data.length < 2 ^ 61) :
    toWords (compressBlocks initialState (padded data)) = Fips180.hash (bits data) := by
  obtain ⟨hbits, hmod⟩ := padded_bits h
  have hcount : (Fips180.pad (bits data)).length / 512 = (padded data).length / 64 := by
    rw [← hbits, length_bits]
    omega
  have hlength : (padded data).length = 64 * (0 + (padded data).length / 64) := by omega
  have hrun := compressBlocks_eq ((padded data).length / 64) 0 initialState hlength
  rw [Nat.mul_zero, List.drop_zero] at hrun
  rw [hrun, initial_eq, hbits, Fips180.hash, hcount, List.range_eq_range']

/-- The bytes of a text of hexadecimal digits. -/
def hexBytes (text : List Char) : ByteText := text.map fun c => UInt8.ofNat c.toNat

theorem kHex_digit : ∀ n < 16, kHex.getD n 0 = UInt8.ofNat (Nat.digitChar n).toNat := by
  decide

/-- A word's digits are those of its bits. -/
theorem hexWord_eq (word : UInt32) :
    hexWord word = hexBytes (Fips180.hex (Fips180.toBits 32 word.toNat)) := by
  have hdigit : ∀ shift : UInt32, shift < 32 →
      kHex.getD ((word >>> shift) &&& 0xf).toNat 0 =
        UInt8.ofNat (Nat.digitChar (word.toNat / 2 ^ shift.toNat % 16)).toNat := by
    intro shift hshift
    have hlt : shift.toNat < 32 := UInt32.lt_iff_toNat_lt.mp hshift
    have hnibble : ((word >>> shift) &&& 0xf).toNat = word.toNat / 2 ^ shift.toNat % 16 := by
      rw [UInt32.toNat_and, UInt32.toNat_shiftRight, Nat.mod_eq_of_lt hlt,
        Nat.shiftRight_eq_div_pow]
      exact Nat.and_two_pow_sub_one_eq_mod _ 4
    rw [hnibble, kHex_digit _ (Nat.mod_lt _ (by norm_num))]
  have hhex : Fips180.hex (Fips180.toBits 32 word.toNat) =
      [28, 24, 20, 16, 12, 8, 4, 0].map fun k => Nat.digitChar (word.toNat / 2 ^ k % 16) := by
    rw [Fips180.hex_toBits 7, Fips180.hex_toBits 6, Fips180.hex_toBits 5, Fips180.hex_toBits 4,
      Fips180.hex_toBits 3, Fips180.hex_toBits 2, Fips180.hex_toBits 1, Fips180.hex_toBits 0]
    rfl
  rw [hhex, hexBytes, hexWord]
  simp only [List.map_cons, List.map_nil]
  rw [hdigit 28 (by decide), hdigit 24 (by decide), hdigit 20 (by decide), hdigit 16 (by decide),
    hdigit 12 (by decide), hdigit 8 (by decide), hdigit 4 (by decide), hdigit 0 (by decide)]
  rfl

theorem toList_state (state : Vector UInt32 8) :
    state.toList = [state[0], state[1], state[2], state[3], state[4], state[5], state[6],
      state[7]] := by
  apply List.ext_getElem
  · simp
  · intro i h _
    rw [Vector.length_toList] at h
    interval_cases i <;> simp

end Sha256

open Sha256 in
/-- **The digest is the standard's.** For every message of fewer than 2^61 bytes the text is the
lowercase hexadecimal form of the digest of the message's bits. -/
theorem sha256Hex_standard (data : List UInt8) (h : data.length < 2 ^ 61) :
    sha256Hex data = hexBytes (Fips180.hex (Fips180.digest (bits data))) := by
  rw [sha256Hex, Fips180.digest, ← compressBlocks_padded h, Fips180.hex_flatMap_toBits]
  generalize compressBlocks initialState (padded data) = state
  rw [toList_state, hexBytes, List.map_flatMap]
  simp only [List.flatMap_cons, List.flatMap_nil, hexWord_eq]
  rfl

open Sha256 in
/-- The digest of three letters. -/
theorem sha256Hex_abc : (lit "abc").length < 2 ^ 61 ∧
    sha256Hex (lit "abc") = hexBytes (Fips180.hex (Fips180.digest (bits (lit "abc")))) :=
  ⟨by decide, sha256Hex_standard (lit "abc") (by decide)⟩
