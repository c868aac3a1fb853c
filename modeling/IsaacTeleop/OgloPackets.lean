/-
Packets of the OGLO tactile gloves.

A notification of a glove holds a number of samples, in one of three formats that its flags
select.  `parse` reads the packet through pointers; here a read outside the packet, or a write
outside the taxels of a sample, has no result.

* `parse` — the parser, for a packet of any length;
* `Announced` — what the bytes of a packet say about its samples;
* `unpackTaxels12_packTaxels12` — 12-bit taxels come back from their packed bytes;
* `packet_parsing` — every packet is parsed within its bounds and exactly.
-/
import IsaacTeleop.ByteText

namespace Oglo

/-! ### Little-endian readers -/

def rdU16 (data : ByteText) (p : ℕ) : Option UInt16 := do
  let p₀ ← data[p]?
  let p₁ ← data[p + 1]?
  pure (p₀.toUInt16 ||| (p₁.toUInt16 <<< 8))

def rdI16 (data : ByteText) (p : ℕ) : Option Int16 := do
  let v ← rdU16 data p
  pure v.toInt16

def rdU32 (data : ByteText) (p : ℕ) : Option UInt32 := do
  let p₀ ← data[p]?
  let p₁ ← data[p + 1]?
  let p₂ ← data[p + 2]?
  let p₃ ← data[p + 3]?
  pure (p₀.toUInt32 ||| (p₁.toUInt32 <<< 8) ||| (p₂.toUInt32 <<< 16) ||| (p₃.toUInt32 <<< 24))

/-- Arithmetic of `size_t`. -/
def sizeT (n : ℕ) : ℕ := n % 2 ^ 64

/-- `for (i = 0; i < n; ++i)` -/
def loop {σ : Type} (step : ℕ → σ → Option σ) : ℕ → σ → Option σ
  | 0, s => some s
  | n + 1, s => (loop step n s).bind (step n)

/-! ### Samples -/

def kNumTaxels : ℕ := 80

structure ImuSample where
  ax : Int16 := 0
  ay : Int16 := 0
  az : Int16 := 0
  gx : Int16 := 0
  gy : Int16 := 0
  gz : Int16 := 0
  deriving DecidableEq

abbrev Taxels := Vector UInt16 kNumTaxels

structure GloveSample where
  seq : UInt32 := 0
  deviceTimeUs : UInt32 := 0
  taxels : Taxels := Vector.replicate kNumTaxels 0
  imu : ImuSample := {}
  deriving DecidableEq

/-- `out[i] = v` -/
def put (out : Taxels) (i : ℕ) (v : UInt16) : Option Taxels :=
  if h : i < kNumTaxels then some (out.set i v h) else none

/-- Six values in a row. -/
def rdImu (data : ByteText) (p : ℕ) : Option ImuSample := do
  let ax ← rdI16 data p
  let ay ← rdI16 data (p + 2)
  let az ← rdI16 data (p + 4)
  let gx ← rdI16 data (p + 6)
  let gy ← rdI16 data (p + 8)
  let gz ← rdI16 data (p + 10)
  pure ⟨ax, ay, az, gx, gy, gz⟩

/-! ### Formats -/

inductive PacketFormat
  | unknown
  | packed12V5
  | methodC
  | methodB
  deriving DecidableEq

def kFlagMethodB : UInt8 := 0x01
def kFlagMethodC : UInt8 := 0x02
def kFlagPacked12 : UInt8 := 0x04

def formatFromFlags (flags : UInt8) : PacketFormat :=
  if flags &&& kFlagPacked12 ≠ 0 then .packed12V5
  else if flags &&& kFlagMethodC ≠ 0 then .methodC
  else if flags &&& kFlagMethodB ≠ 0 then .methodB
  else .unknown

/-! ### Packed format, version 5 -/

def kV5HeaderBytes : ℕ := 10
def kV5TaxelBytes : ℕ := 120
def kV5ImuBytes : ℕ := 12
def kV5SampleStride : ℕ := 2 + kV5TaxelBytes + kV5ImuBytes

/-- One triplet of bytes, two taxels. -/
def unpackTriplet (packed : ByteText) (p k : ℕ) (out : Taxels) : Option Taxels := do
  let b₀ ← packed[p + 3 * k]?
  let b₁ ← packed[p + 3 * k + 1]?
  let b₂ ← packed[p + 3 * k + 2]?
  let out ← put out (2 * k) ((b₀.toUInt16 <<< 4) ||| (b₁ >>> 4).toUInt16)
  put out (2 * k + 1) (((b₁ &&& 0x0F).toUInt16 <<< 8) ||| b₂.toUInt16)

/-- `unpack_taxels12` of the bytes from `p` on. -/
def unpackTaxels12 (packed : ByteText) (p : ℕ) (out : Taxels) : Option Taxels :=
  loop (unpackTriplet packed p) (kNumTaxels / 2) out

def v5Sample (data : ByteText) (seqBase tBaseUs : UInt32) (i : ℕ) : Option GloveSample := do
  let slot := kV5HeaderBytes + sizeT (i * kV5SampleStride)
  let dtUs ← rdU16 data slot
  let taxels ← unpackTaxels12 data (slot + 2) (Vector.replicate kNumTaxels 0)
  let imu ← rdImu data (slot + 2 + kV5TaxelBytes)
  pure ⟨seqBase + UInt32.ofNat i, tBaseUs + dtUs.toUInt32, taxels, imu⟩

def pushSample (sample : ℕ → Option GloveSample) (i : ℕ) (out : List GloveSample) :
    Option (List GloveSample) := do
  let s ← sample i
  pure (out ++ [s])

def parsePacked12V5 (data : ByteText) (out : List GloveSample) :
    Option (Bool × List GloveSample) :=
  if data.length < kV5HeaderBytes then some (false, out)
  else do
    let count ← data[0]?
    let seqBase ← rdU32 data 2
    let tBaseUs ← rdU32 data 6
    if data.length < sizeT (kV5HeaderBytes + sizeT (count.toNat * kV5SampleStride)) then
      pure (false, out)
    else
      let out ← loop (pushSample (v5Sample data seqBase tBaseUs)) count.toNat out
      pure (true, out)

/-! ### Schema 4 -/

def kS4HeaderBytes : ℕ := 6
def kS4ImuBytes : ℕ := 17

/-- What the two formats of schema 4 differ in. -/
structure S4Layout where
  valuesPerSample : ℕ
  perSampleImu : Bool
  packetImu : Bool

namespace S4Layout

variable (l : S4Layout)

def taxelBytes : ℕ := sizeT (l.valuesPerSample * 2)
def imuLen : ℕ := if l.perSampleImu then kS4ImuBytes else 0
def stride : ℕ := sizeT (l.taxelBytes + l.imuLen)
def nTaxels : ℕ := if l.valuesPerSample < kNumTaxels then l.valuesPerSample else kNumTaxels

end S4Layout

def s4Taxel (data : ByteText) (base t : ℕ) (taxels : Taxels) : Option Taxels := do
  let v ← rdU16 data (base + t * 2)
  put taxels t v

def s4Sample (l : S4Layout) (data : ByteText) (baseTsUs : UInt32) (i : ℕ) :
    Option GloveSample := do
  let base := kS4HeaderBytes + sizeT (i * l.stride)
  let taxels ← loop (s4Taxel data base) l.nTaxels (Vector.replicate kNumTaxels 0)
  if l.perSampleImu then
    let imu ← rdImu data (base + l.taxelBytes + 4)
    pure ⟨UInt32.ofNat i, baseTsUs, taxels, imu⟩
  else pure ⟨UInt32.ofNat i, baseTsUs, taxels, {}⟩

/-- The one measurement after all samples, for every sample from `start` on. -/
def shareImu (data : ByteText) (start imuOff : ℕ) (out : List GloveSample) :
    Option (List GloveSample) :=
  if sizeT (imuOff + kS4ImuBytes) ≤ data.length then do
    let shared ← rdImu data (imuOff + 4)
    pure (out.take start ++ (out.drop start).map fun s => { s with imu := shared })
  else some out

def parseSchema4 (data : ByteText) (valuesPerSample : Int32) (perSampleImu packetImu : Bool)
    (out : List GloveSample) : Option (Bool × List GloveSample) :=
  if data.length < kS4HeaderBytes ∨ valuesPerSample ≤ 0 then some (false, out)
  else do
    let count ← data[0]?
    let baseTsUs ← rdU32 data 2
    let l : S4Layout := ⟨valuesPerSample.toInt.toNat, perSampleImu, packetImu⟩
    let imuOff := sizeT (kS4HeaderBytes + sizeT (count.toNat * l.stride))
    if data.length < imuOff then pure (false, out)
    else
      let start := out.length
      let out ← loop (pushSample (s4Sample l data baseTsUs)) count.toNat out
      if packetImu then
        let out ← shareImu data start imuOff out
        pure (true, out)
      else pure (true, out)

/-- `PacketParser::parse`; `none` for the data is the null pointer. -/
def parse (data : Option ByteText) (valuesPerSample : Int32) (out : List GloveSample) :
    Option (Bool × List GloveSample) :=
  match data with
  | none => some (false, out)
  | some data =>
    if data.length < 2 then some (false, out)
    else do
      let flags ← data[1]?
      match formatFromFlags flags with
      | .packed12V5 => parsePacked12V5 data out
      | .methodC => parseSchema4 data valuesPerSample false true out
      | .methodB => parseSchema4 data valuesPerSample true false out
      | .unknown => pure (false, out)

/-! ### What a packet says -/

/-- The little-endian number in `n` bytes from `p` on. -/
def le (data : ByteText) : ℕ → ℕ → ℕ
  | _, 0 => 0
  | p, n + 1 => (data.getD p 0).toNat + 256 * le data (p + 1) n

/-- The big-endian number in the three bytes of a pair of taxels. -/
def triplet (data : ByteText) (p : ℕ) : ℕ :=
  (data.getD p 0).toNat * 2 ^ 16 + (data.getD (p + 1) 0).toNat * 2 ^ 8 +
    (data.getD (p + 2) 0).toNat

/-- A taxel in 12 bits, from the upper or the lower half of its triplet. -/
def taxel12 (data : ByteText) (p t : ℕ) : ℕ :=
  if t % 2 = 0 then triplet data (p + 3 * (t / 2)) / 2 ^ 12
  else triplet data (p + 3 * (t / 2)) % 2 ^ 12

/-- A signed number of two bytes. -/
def IsI16 (data : ByteText) (p : ℕ) (v : Int16) : Prop := v.toInt = Int.bmod (le data p 2) (2 ^ 16)

structure IsImu (data : ByteText) (p : ℕ) (imu : ImuSample) : Prop where
  ax : IsI16 data p imu.ax
  ay : IsI16 data (p + 2) imu.ay
  az : IsI16 data (p + 4) imu.az
  gx : IsI16 data (p + 6) imu.gx
  gy : IsI16 data (p + 8) imu.gy
  gz : IsI16 data (p + 10) imu.gz

structure IsV5Sample (data : ByteText) (i : ℕ) (s : GloveSample) : Prop where
  seq : s.seq.toNat = (le data 2 4 + i) % 2 ^ 32
  time : s.deviceTimeUs.toNat = (le data 6 4 + le data (10 + i * 134) 2) % 2 ^ 32
  taxels : ∀ (t : ℕ) (h : t < kNumTaxels), s.taxels[t].toNat = taxel12 data (10 + i * 134 + 2) t
  imu : IsImu data (10 + i * 134 + 122) s.imu

/-- The bytes of a sample of schema 4. -/
def s4Stride (values : ℕ) (perSampleImu : Bool) : ℕ := 2 * values + if perSampleImu then 17 else 0

structure IsS4Sample (data : ByteText) (values : ℕ) (perSampleImu packetImu : Bool) (count i : ℕ)
    (s : GloveSample) : Prop where
  seq : s.seq.toNat = i
  time : s.deviceTimeUs.toNat = le data 2 4
  taxels : ∀ (t : ℕ) (h : t < kNumTaxels), s.taxels[t].toNat =
    if t < values then le data (6 + i * s4Stride values perSampleImu + 2 * t) 2 else 0
  sampleImu : perSampleImu = true →
    IsImu data (6 + i * s4Stride values perSampleImu + 2 * values + 4) s.imu
  sharedImu : packetImu = true →
    if 6 + count * s4Stride values perSampleImu + 17 ≤ data.length then
      IsImu data (6 + count * s4Stride values perSampleImu + 4) s.imu
    else s.imu = {}

/-- What the bytes of a packet say about its sample `i`. -/
def Announced (data : ByteText) (valuesPerSample : Int32) (i : ℕ) (s : GloveSample) : Prop :=
  match formatFromFlags (data.getD 1 0) with
  | .packed12V5 => IsV5Sample data i s
  | .methodC => IsS4Sample data valuesPerSample.toInt.toNat false true (data.getD 0 0).toNat i s
  | .methodB => IsS4Sample data valuesPerSample.toInt.toNat true false (data.getD 0 0).toNat i s
  | .unknown => False

/-! ### Reads and loops -/

theorem read_eq {data : ByteText} {p : ℕ} (h : p < data.length) :
    data[p]? = some (data.getD p 0) := by
  rw [List.getElem?_eq_getElem h, List.getD_eq_getElem _ _ h]

theorem loop_spec {σ : Type} (step : ℕ → σ → Option σ) (n : ℕ) (s : σ) (P : ℕ → σ → Prop)
    (hinit : P 0 s)
    (hstep : ∀ i < n, ∀ s, P i s → ∃ s', step i s = some s' ∧ P (i + 1) s') :
    ∃ s', loop step n s = some s' ∧ P n s' := by
  induction n with
  | zero => exact ⟨s, rfl, hinit⟩
  | succ n ih =>
    obtain ⟨s₁, hloop, h₁⟩ := ih fun i hi => hstep i (Nat.lt_succ_of_lt hi)
    obtain ⟨s₂, hlast, h₂⟩ := hstep n (Nat.lt_succ_self n) s₁ h₁
    refine ⟨s₂, ?_, h₂⟩
    rw [loop, hloop]
    exact hlast

/-- Disjoint bits add up. -/
theorem or_shiftLeft_eq_add {a b k : ℕ} (h : a < 2 ^ k) : a ||| b <<< k = a + b * 2 ^ k := by
  rw [Nat.lor_comm, ← Nat.shiftLeft_add_eq_or_of_lt h, Nat.shiftLeft_eq, Nat.add_comm]

theorem rdU16_spec (data : ByteText) (p : ℕ) (h : p + 2 ≤ data.length) :
    ∃ v, rdU16 data p = some v ∧ v.toNat = le data p 2 := by
  refine ⟨_, by rw [rdU16, read_eq (by omega), read_eq (by omega)]; rfl, ?_⟩
  generalize hp₀ : data.getD p 0 = p₀
  generalize hp₁ : data.getD (p + 1) 0 = p₁
  have h₀ := p₀.toNat_lt
  have h₁ := p₁.toNat_lt
  simp only [le, hp₀, hp₁, UInt16.toNat_or, UInt16.toNat_shiftLeft, UInt8.toNat_toUInt16]
  show p₀.toNat ||| p₁.toNat <<< 8 % 2 ^ 16 = _
  rw [Nat.mod_eq_of_lt (by rw [Nat.shiftLeft_eq]; omega), or_shiftLeft_eq_add (by omega)]
  omega

theorem rdU32_spec (data : ByteText) (p : ℕ) (h : p + 4 ≤ data.length) :
    ∃ v, rdU32 data p = some v ∧ v.toNat = le data p 4 := by
  refine ⟨_, by
    rw [rdU32, read_eq (by omega), read_eq (by omega), read_eq (by omega), read_eq (by omega)]
    rfl, ?_⟩
  generalize hp₀ : data.getD p 0 = p₀
  generalize hp₁ : data.getD (p + 1) 0 = p₁
  generalize hp₂ : data.getD (p + 2) 0 = p₂
  generalize hp₃ : data.getD (p + 3) 0 = p₃
  have h₀ := p₀.toNat_lt
  have h₁ := p₁.toNat_lt
  have h₂ := p₂.toNat_lt
  have h₃ := p₃.toNat_lt
  simp only [le, hp₀, hp₁, hp₂, hp₃, UInt32.toNat_or, UInt32.toNat_shiftLeft,
    UInt8.toNat_toUInt32]
  show p₀.toNat ||| p₁.toNat <<< 8 % 2 ^ 32 ||| p₂.toNat <<< 16 % 2 ^ 32
    ||| p₃.toNat <<< 24 % 2 ^ 32 = _
  rw [Nat.mod_eq_of_lt (a := p₁.toNat <<< 8) (by rw [Nat.shiftLeft_eq]; omega),
    Nat.mod_eq_of_lt (a := p₂.toNat <<< 16) (by rw [Nat.shiftLeft_eq]; omega),
    Nat.mod_eq_of_lt (a := p₃.toNat <<< 24) (by rw [Nat.shiftLeft_eq]; omega),
    or_shiftLeft_eq_add (k := 8) (by omega), or_shiftLeft_eq_add (k := 16) (by omega),
    or_shiftLeft_eq_add (k := 24) (by omega)]
  omega

theorem rdI16_spec (data : ByteText) (p : ℕ) (h : p + 2 ≤ data.length) :
    ∃ v, rdI16 data p = some v ∧ IsI16 data p v := by
  obtain ⟨v, hread, hv⟩ := rdU16_spec data p h
  refine ⟨v.toInt16, by rw [rdI16, hread]; rfl, ?_⟩
  rw [IsI16, ← hv, UInt16.toInt16, Int16.toInt, BitVec.toInt_eq_toNat_bmod]
  rfl

theorem rdImu_spec (data : ByteText) (p : ℕ) (h : p + 12 ≤ data.length) :
    ∃ imu, rdImu data p = some imu ∧ IsImu data p imu := by
  obtain ⟨ax, hax, hax'⟩ := rdI16_spec data p (by omega)
  obtain ⟨ay, hay, hay'⟩ := rdI16_spec data (p + 2) (by omega)
  obtain ⟨az, haz, haz'⟩ := rdI16_spec data (p + 4) (by omega)
  obtain ⟨gx, hgx, hgx'⟩ := rdI16_spec data (p + 6) (by omega)
  obtain ⟨gy, hgy, hgy'⟩ := rdI16_spec data (p + 8) (by omega)
  obtain ⟨gz, hgz, hgz'⟩ := rdI16_spec data (p + 10) (by omega)
  refine ⟨⟨ax, ay, az, gx, gy, gz⟩, ?_, ⟨hax', hay', haz', hgx', hgy', hgz'⟩⟩
  rw [rdImu, hax, hay, haz, hgx, hgy, hgz]
  rfl

/-! ### Taxels -/

theorem put_eq {out : Taxels} {i : ℕ} (h : i < kNumTaxels) (v : UInt16) :
    put out i v = some (out.set i v h) := dif_pos h

theorem upper_toNat (b₀ b₁ : UInt8) :
    ((b₀.toUInt16 <<< 4) ||| (b₁ >>> 4).toUInt16).toNat = b₀.toNat * 16 + b₁.toNat / 16 := by
  have h₀ := b₀.toNat_lt
  have h₁ := b₁.toNat_lt
  simp only [UInt16.toNat_or, UInt16.toNat_shiftLeft, UInt8.toNat_toUInt16, UInt8.toNat_shiftRight]
  show b₀.toNat <<< 4 % 2 ^ 16 ||| b₁.toNat >>> 4 = _
  rw [Nat.shiftRight_eq_div_pow, Nat.mod_eq_of_lt (by rw [Nat.shiftLeft_eq]; omega), Nat.lor_comm,
    or_shiftLeft_eq_add (by omega)]
  omega

theorem lower_toNat (b₁ b₂ : UInt8) :
    (((b₁ &&& 0x0F).toUInt16 <<< 8) ||| b₂.toUInt16).toNat =
      b₁.toNat % 16 * 256 + b₂.toNat := by
  have h₂ := b₂.toNat_lt
  simp only [UInt16.toNat_or, UInt16.toNat_shiftLeft, UInt8.toNat_toUInt16, UInt8.toNat_and]
  show (b₁.toNat &&& (2 ^ 4 - 1)) <<< 8 % 2 ^ 16 ||| b₂.toNat = _
  rw [Nat.and_two_pow_sub_one_eq_mod, Nat.mod_eq_of_lt (by rw [Nat.shiftLeft_eq]; omega),
    Nat.lor_comm, or_shiftLeft_eq_add (by omega)]
  omega

/-- **One triplet** gives its two taxels. -/
theorem unpackTriplet_spec (packed : ByteText) (p : ℕ) (out : Taxels) {k : ℕ}
    (hk : k < kNumTaxels / 2) (h : p + 3 * k + 3 ≤ packed.length) :
    ∃ (a c : UInt16) (h₀ : 2 * k < kNumTaxels) (h₁ : 2 * k + 1 < kNumTaxels),
      unpackTriplet packed p k out = some ((out.set (2 * k) a h₀).set (2 * k + 1) c h₁) ∧
        a.toNat = taxel12 packed p (2 * k) ∧ c.toNat = taxel12 packed p (2 * k + 1) := by
  have hsize : kNumTaxels = 80 := rfl
  refine ⟨_, _, by omega, by omega, by
    rw [unpackTriplet, read_eq (by omega), read_eq (by omega), read_eq (by omega)]
    simp only [Option.bind_eq_bind, Option.bind_some]
    rw [put_eq (by omega), Option.bind_some, put_eq (by omega)], ?_, ?_⟩
  · have h₁ := (packed.getD (p + 3 * k + 1) 0).toNat_lt
    have h₂ := (packed.getD (p + 3 * k + 2) 0).toNat_lt
    rw [upper_toNat, taxel12, if_pos (by omega), triplet, Nat.mul_div_cancel_left k (by omega)]
    omega
  · have h₁ := (packed.getD (p + 3 * k + 1) 0).toNat_lt
    have h₂ := (packed.getD (p + 3 * k + 2) 0).toNat_lt
    rw [lower_toNat, taxel12, if_neg (by omega), triplet,
      show (2 * k + 1) / 2 = k from by omega]
    omega

/-- **Unpacking** reads 120 bytes and sets every taxel. -/
theorem unpackTaxels12_spec (packed : ByteText) (p : ℕ) (out : Taxels)
    (h : p + 120 ≤ packed.length) :
    ∃ taxels : Taxels, unpackTaxels12 packed p out = some taxels ∧
      ∀ (t : ℕ) (ht : t < kNumTaxels), taxels[t].toNat = taxel12 packed p t := by
  have hsize : kNumTaxels = 80 := rfl
  obtain ⟨taxels, hloop, htaxels⟩ := loop_spec (unpackTriplet packed p) (kNumTaxels / 2) out
    (fun k taxels => ∀ (t : ℕ) (ht : t < kNumTaxels), t < 2 * k →
      taxels[t].toNat = taxel12 packed p t) (by omega) (by
    intro k hk taxels htaxels
    obtain ⟨a, c, h₀, h₁, heq, ha, hc⟩ :=
      unpackTriplet_spec packed p taxels hk (by omega)
    refine ⟨_, heq, fun t ht hlt => ?_⟩
    rw [Vector.getElem_set, Vector.getElem_set]
    by_cases hodd : 2 * k + 1 = t
    · rw [if_pos hodd, ← hodd, hc]
    · rw [if_neg hodd]
      by_cases heven : 2 * k = t
      · rw [if_pos heven, ← heven, ha]
      · rw [if_neg heven]
        exact htaxels t ht (by omega))
  exact ⟨taxels, hloop, fun t ht => htaxels t ht (by omega)⟩

/-- One pair in three bytes, as the firmware packs it. -/
def packPair (a c : UInt16) : ByteText :=
  let a := a &&& 0x0FFF
  let c := c &&& 0x0FFF
  [(a >>> 4).toUInt8, (((a &&& 0x0F) <<< 4) ||| (c >>> 8)).toUInt8, (c &&& 0xFF).toUInt8]

/-- `pack_taxels12`, the reference of the firmware that the tests use. -/
def packTaxels12 (taxels : Taxels) : ByteText :=
  (List.range (kNumTaxels / 2)).flatMap fun k =>
    packPair (taxels.toList.getD (2 * k) 0) (taxels.toList.getD (2 * k + 1) 0)

theorem length_flatMap_range {f : ℕ → ByteText} (hf : ∀ k, (f k).length = 3) (n : ℕ) :
    ((List.range n).flatMap f).length = 3 * n := by
  induction n with
  | zero => rfl
  | succ n ih =>
    rw [List.range_succ, List.flatMap_append, List.length_append, ih, List.flatMap_singleton, hf]
    ring

theorem getD_flatMap_range {f : ℕ → ByteText} (hf : ∀ k, (f k).length = 3) {n k j : ℕ}
    (hk : k < n) (hj : j < 3) :
    ((List.range n).flatMap f).getD (3 * k + j) 0 = (f k).getD j 0 := by
  have hlength := length_flatMap_range hf
  induction n with
  | zero => exact absurd hk (Nat.not_lt_zero k)
  | succ n ih =>
    rw [List.range_succ, List.flatMap_append, List.flatMap_singleton]
    rcases Nat.lt_succ_iff_lt_or_eq.mp hk with hlt | rfl
    · rw [List.getD_append _ _ _ _ (by rw [hlength]; omega), ih hlt]
    · rw [List.getD_append_right _ _ _ _ (by rw [hlength]; omega), hlength]
      congr 1
      omega

theorem triplet_flatMap_range {f : ℕ → ByteText} (hf : ∀ k, (f k).length = 3) {n k : ℕ}
    (hk : k < n) : triplet ((List.range n).flatMap f) (3 * k) = triplet (f k) 0 := by
  have h₀ := getD_flatMap_range hf hk (j := 0) (by omega)
  rw [Nat.add_zero] at h₀
  rw [triplet, h₀, getD_flatMap_range hf hk (by omega), getD_flatMap_range hf hk (by omega)]
  rfl

theorem toNat_and_0FFF {a : UInt16} (h : a.toNat < 4096) : a &&& 0x0FFF = a := by
  apply UInt16.toNat_inj.mp
  rw [UInt16.toNat_and]
  show a.toNat &&& (2 ^ 12 - 1) = a.toNat
  rw [Nat.and_two_pow_sub_one_eq_mod, Nat.mod_eq_of_lt h]

/-- The three bytes of a pair are the number with both halves. -/
theorem packPair_triplet {a c : UInt16} (ha : a.toNat < 4096) (hc : c.toNat < 4096) :
    triplet (packPair a c) 0 = a.toNat * 2 ^ 12 + c.toNat := by
  rw [packPair, toNat_and_0FFF ha, toNat_and_0FFF hc]
  show (a >>> 4).toUInt8.toNat * 2 ^ 16
    + (((a &&& 0x0F) <<< 4) ||| (c >>> 8)).toUInt8.toNat * 2 ^ 8 + (c &&& 0xFF).toUInt8.toNat = _
  simp only [UInt16.toNat_toUInt8, UInt16.toNat_or, UInt16.toNat_shiftLeft, UInt16.toNat_and,
    UInt16.toNat_shiftRight]
  show a.toNat >>> 4 % 2 ^ 8 * 2 ^ 16
    + ((a.toNat &&& (2 ^ 4 - 1)) <<< 4 % 2 ^ 16 ||| c.toNat >>> 8) % 2 ^ 8 * 2 ^ 8
    + (c.toNat &&& (2 ^ 8 - 1)) % 2 ^ 8 = _
  rw [Nat.and_two_pow_sub_one_eq_mod, Nat.and_two_pow_sub_one_eq_mod,
    Nat.shiftRight_eq_div_pow, Nat.shiftRight_eq_div_pow,
    Nat.mod_eq_of_lt (a := (a.toNat % 2 ^ 4) <<< 4) (by rw [Nat.shiftLeft_eq]; omega),
    Nat.lor_comm, or_shiftLeft_eq_add (by omega)]
  omega

/-- **Packed taxels come back**: 12-bit taxels, packed as the firmware packs them. -/
theorem unpackTaxels12_packTaxels12 {taxels : Taxels} (out : Taxels)
    (h : ∀ (t : ℕ) (ht : t < kNumTaxels), taxels[t].toNat < 4096) :
    unpackTaxels12 (packTaxels12 taxels) 0 out = some taxels := by
  have hsize : kNumTaxels = 80 := rfl
  have hthree : ∀ k, (packPair (taxels.toList.getD (2 * k) 0)
      (taxels.toList.getD (2 * k + 1) 0)).length = 3 := fun _ => rfl
  obtain ⟨unpacked, heq, hunpacked⟩ := unpackTaxels12_spec (packTaxels12 taxels) 0 out
    (by rw [packTaxels12, length_flatMap_range hthree]; omega)
  rw [heq]
  have hget : ∀ (t : ℕ) (ht : t < kNumTaxels), taxels.toList.getD t 0 = taxels[t] := by
    intro t ht
    rw [List.getD_eq_getElem _ _ (by rw [Vector.length_toList]; exact ht), Vector.getElem_toList]
  congr 1
  refine Vector.ext fun t ht => UInt16.toNat_inj.mp ?_
  rw [hunpacked t ht]
  have hk : t / 2 < kNumTaxels / 2 := by omega
  have htriplet : triplet (packTaxels12 taxels) (3 * (t / 2)) =
      taxels[2 * (t / 2)].toNat * 2 ^ 12 + taxels[2 * (t / 2) + 1].toNat := by
    have hpair := packPair_triplet (h (2 * (t / 2)) (by omega)) (h (2 * (t / 2) + 1) (by omega))
    rw [← hpair, ← hget, ← hget, packTaxels12, triplet_flatMap_range hthree hk]
  have ha := h (2 * (t / 2)) (by omega)
  have hc := h (2 * (t / 2) + 1) (by omega)
  rw [taxel12, Nat.zero_add, htriplet]
  by_cases heven : t % 2 = 0
  · have ht' : 2 * (t / 2) = t := by omega
    rw [if_pos heven]
    simp only [ht'] at ha hc ⊢
    omega
  · have ht' : 2 * (t / 2) + 1 = t := by omega
    rw [if_neg heven]
    simp only [ht'] at hc ⊢
    omega

/-! ### Samples of a packet -/

/-- The outcome of a parser: the output is as it was, or it got `count` new samples. -/
def Appends (out : List GloveSample) (count : ℕ) (P : ℕ → GloveSample → Prop)
    (r : Bool × List GloveSample) : Prop :=
  (r.1 = false → r.2 = out) ∧
    (r.1 = true → ∃ new, r.2 = out ++ new ∧ new.length = count ∧
      ∀ (i : ℕ) (h : i < new.length), P i new[i])

theorem Appends.refused {out : List GloveSample} {count : ℕ} {P : ℕ → GloveSample → Prop} :
    Appends out count P (false, out) := ⟨fun _ => rfl, nofun⟩

/-- **The loop of a parser** appends one sample for each turn. -/
theorem loop_pushSample {sample : ℕ → Option GloveSample} {P : ℕ → GloveSample → Prop} {n : ℕ}
    (out : List GloveSample) (h : ∀ i < n, ∃ s, sample i = some s ∧ P i s) :
    ∃ new, loop (pushSample sample) n out = some (out ++ new) ∧ new.length = n ∧
      ∀ (i : ℕ) (h : i < new.length), P i new[i] := by
  obtain ⟨out', hloop, new, rfl, hlength, hnew⟩ := loop_spec (pushSample sample) n out
    (fun k out' => ∃ new, out' = out ++ new ∧ new.length = k ∧
      ∀ (i : ℕ) (h : i < new.length), P i new[i])
    ⟨[], (List.append_nil _).symm, rfl, nofun⟩ (by
    rintro k hk _ ⟨new, rfl, hlength, hnew⟩
    obtain ⟨s, hsample, hs⟩ := h k hk
    refine ⟨_, by rw [pushSample, hsample]; rfl, new ++ [s], by rw [List.append_assoc], ?_, ?_⟩
    · rw [List.length_append, hlength]
      rfl
    · intro i hi
      rw [List.getElem_append]
      split
      · next hlt => exact hnew i hlt
      · next hge =>
        rw [List.length_append, List.length_singleton] at hi
        have hik : i = k := by omega
        rw [List.getElem_singleton, hik]
        exact hs)
  exact ⟨new, hloop, hlength, hnew⟩

theorem toNat_index {i : ℕ} (h : i < 256) : (UInt32.ofNat i).toNat = i :=
  UInt32.toNat_ofNat_of_lt (show i < 2 ^ 32 by omega)

theorem v5Sample_spec {data : ByteText} {seqBase tBaseUs : UInt32} {i count : ℕ}
    (hseq : seqBase.toNat = le data 2 4) (htime : tBaseUs.toNat = le data 6 4)
    (hi : i < count) (hcount : count < 256) (h : 10 + count * 134 ≤ data.length) :
    ∃ s, v5Sample data seqBase tBaseUs i = some s ∧ IsV5Sample data i s := by
  have hslot : kV5HeaderBytes + sizeT (i * kV5SampleStride) = 10 + i * 134 := by
    show 10 + i * 134 % 2 ^ 64 = _
    omega
  obtain ⟨dtUs, hread, hdt⟩ := rdU16_spec data (10 + i * 134) (by omega)
  obtain ⟨taxels, hunpack, htaxels⟩ := unpackTaxels12_spec data (10 + i * 134 + 2)
    (Vector.replicate kNumTaxels 0) (by omega)
  obtain ⟨imu, hrdImu, himu⟩ := rdImu_spec data (10 + i * 134 + 122) (by omega)
  refine ⟨⟨seqBase + UInt32.ofNat i, tBaseUs + dtUs.toUInt32, taxels, imu⟩, ?_, ?_⟩
  · rw [v5Sample, hslot, hread, hunpack,
      show 10 + i * 134 + 2 + kV5TaxelBytes = 10 + i * 134 + 122 from rfl, hrdImu]
    rfl
  · refine ⟨?_, ?_, htaxels, himu⟩
    · show (seqBase + UInt32.ofNat i).toNat = _
      rw [UInt32.toNat_add, hseq, toNat_index (by omega)]
    · show (tBaseUs + dtUs.toUInt32).toNat = _
      rw [UInt32.toNat_add, htime, UInt16.toNat_toUInt32, hdt]

/-- **The packed format** is read within the packet. -/
theorem parsePacked12V5_spec (data : ByteText) (out : List GloveSample) :
    ∃ r, parsePacked12V5 data out = some r ∧
      Appends out (data.getD 0 0).toNat (IsV5Sample data) r := by
  unfold parsePacked12V5
  by_cases hheader : data.length < kV5HeaderBytes
  · exact ⟨_, if_pos hheader, Appends.refused⟩
  · have hlength : 10 ≤ data.length := not_lt.mp hheader
    obtain ⟨seqBase, hrdSeq, hseq⟩ := rdU32_spec data 2 (by omega)
    obtain ⟨tBaseUs, hrdTime, htime⟩ := rdU32_spec data 6 (by omega)
    rw [if_neg hheader, read_eq (by omega), hrdSeq, hrdTime]
    simp only [Option.bind_eq_bind, Option.bind_some]
    have hcount := (data.getD 0 0).toNat_lt
    -- The size of the packet does not wrap.
    have hneeded : sizeT (kV5HeaderBytes + sizeT ((data.getD 0 0).toNat * kV5SampleStride)) =
        10 + (data.getD 0 0).toNat * 134 := by
      show (10 + (data.getD 0 0).toNat * 134 % 2 ^ 64) % 2 ^ 64 = _
      omega
    rw [hneeded]
    by_cases hshort : data.length < 10 + (data.getD 0 0).toNat * 134
    · exact ⟨_, if_pos hshort, Appends.refused⟩
    · obtain ⟨new, hloop, hnew⟩ := loop_pushSample out
        fun i hi => v5Sample_spec hseq htime hi hcount (not_lt.mp hshort)
      refine ⟨(true, out ++ new), ?_, nofun, fun _ => ⟨new, rfl, hnew⟩⟩
      rw [if_neg hshort, hloop]
      rfl

theorem s4Taxels_spec (data : ByteText) (base values : ℕ) (h : base + 2 * values ≤ data.length) :
    ∃ taxels : Taxels,
      loop (s4Taxel data base) (min values kNumTaxels) (Vector.replicate kNumTaxels 0) =
        some taxels ∧
      ∀ (t : ℕ) (ht : t < kNumTaxels), taxels[t].toNat =
        if t < values then le data (base + 2 * t) 2 else 0 := by
  -- After `k` turns the first `k` taxels are read and the others are zero.
  obtain ⟨taxels, hloop, htaxels⟩ := loop_spec (s4Taxel data base) (min values kNumTaxels)
    (Vector.replicate kNumTaxels 0)
    (fun k taxels => ∀ (t : ℕ) (ht : t < kNumTaxels), taxels[t].toNat =
      if t < k then le data (base + 2 * t) 2 else 0)
    (fun t ht => by simp) (by
    intro k hk taxels htaxels
    obtain ⟨v, hread, hv⟩ := rdU16_spec data (base + k * 2) (by omega)
    have hlt : k < kNumTaxels := by omega
    refine ⟨taxels.set k v hlt, ?_, fun t ht => ?_⟩
    · rw [s4Taxel, hread]
      exact put_eq hlt v
    · rw [Vector.getElem_set]
      by_cases hkt : k = t
      · rw [if_pos hkt, if_pos (by omega), hv, Nat.mul_comm k 2, hkt]
      · rw [if_neg hkt, htaxels t ht]
        by_cases hlt : t < k
        · rw [if_pos hlt, if_pos (by omega)]
        · rw [if_neg hlt, if_neg (by omega)])
  refine ⟨taxels, hloop, fun t ht => ?_⟩
  rw [htaxels t ht]
  by_cases hlt : t < values
  · rw [if_pos hlt, if_pos (lt_min hlt ht)]
  · rw [if_neg hlt, if_neg (by omega)]

/-- What a sample of schema 4 is before a measurement of the whole packet. -/
structure IsS4Slot (data : ByteText) (values : ℕ) (perSampleImu : Bool) (i : ℕ)
    (s : GloveSample) : Prop where
  seq : s.seq.toNat = i
  time : s.deviceTimeUs.toNat = le data 2 4
  taxels : ∀ (t : ℕ) (h : t < kNumTaxels), s.taxels[t].toNat =
    if t < values then le data (6 + i * s4Stride values perSampleImu + 2 * t) 2 else 0
  imu : if perSampleImu then
      IsImu data (6 + i * s4Stride values perSampleImu + 2 * values + 4) s.imu
    else s.imu = {}

section Schema4

variable {data : ByteText} {values : ℕ} {perSampleImu : Bool} (packetImu : Bool)

theorem S4Layout.stride_eq (hvalues : values < 2 ^ 31) :
    (S4Layout.mk values perSampleImu packetImu).stride = s4Stride values perSampleImu := by
  cases perSampleImu with
  | true =>
    show (values * 2 % 2 ^ 64 + 17) % 2 ^ 64 = 2 * values + 17
    omega
  | false =>
    show (values * 2 % 2 ^ 64 + 0) % 2 ^ 64 = 2 * values + 0
    omega

theorem S4Layout.nTaxels_eq :
    (S4Layout.mk values perSampleImu packetImu).nTaxels = min values kNumTaxels := by
  unfold S4Layout.nTaxels
  dsimp only
  split <;> omega

theorem s4Stride_le (hvalues : values < 2 ^ 31) : s4Stride values perSampleImu < 2 ^ 33 := by
  unfold s4Stride
  split <;> omega

theorem s4Sample_spec {baseTsUs : UInt32} {i count : ℕ} (hvalues : values < 2 ^ 31)
    (htime : baseTsUs.toNat = le data 2 4) (hi : i < count) (hcount : count < 256)
    (h : 6 + count * s4Stride values perSampleImu ≤ data.length) :
    ∃ s, s4Sample ⟨values, perSampleImu, packetImu⟩ data baseTsUs i = some s ∧
      IsS4Slot data values perSampleImu i s := by
  have hstride : s4Stride values perSampleImu < 2 ^ 33 := s4Stride_le hvalues
  have hend : i * s4Stride values perSampleImu + s4Stride values perSampleImu ≤
      count * s4Stride values perSampleImu := by
    rw [← Nat.succ_mul]
    exact Nat.mul_le_mul_right _ hi
  -- The offset of the slot, which does not wrap.
  have hbase : kS4HeaderBytes + sizeT (i * (S4Layout.mk values perSampleImu packetImu).stride) =
      6 + i * s4Stride values perSampleImu := by
    rw [S4Layout.stride_eq packetImu hvalues, sizeT, Nat.mod_eq_of_lt]
    · rfl
    · calc i * s4Stride values perSampleImu ≤ 256 * 2 ^ 33 :=
            Nat.mul_le_mul (by omega) (by omega)
        _ < 2 ^ 64 := by norm_num
  have htaxelBytes : (S4Layout.mk values perSampleImu packetImu).taxelBytes = 2 * values := by
    show values * 2 % 2 ^ 64 = _
    omega
  -- The taxels of the slot lie inside the packet.
  have hslot : 2 * values ≤ s4Stride values perSampleImu := Nat.le_add_right _ _
  obtain ⟨taxels, hloop, htaxels⟩ := s4Taxels_spec data (6 + i * s4Stride values perSampleImu)
    values (by omega)
  have hseq : (UInt32.ofNat i).toNat = i := toNat_index (by omega)
  rw [s4Sample, hbase, S4Layout.nTaxels_eq, hloop, htaxelBytes]
  simp only [Option.bind_eq_bind, Option.bind_some]
  cases perSampleImu with
  | true =>
    have h17 : s4Stride values true = 2 * values + 17 := rfl
    obtain ⟨imu, hrdImu, himu⟩ :=
      rdImu_spec data (6 + i * s4Stride values true + 2 * values + 4) (by omega)
    refine ⟨⟨UInt32.ofNat i, baseTsUs, taxels, imu⟩, ?_, ⟨hseq, htime, htaxels, himu⟩⟩
    rw [if_pos rfl, hrdImu]
    rfl
  | false => exact ⟨⟨UInt32.ofNat i, baseTsUs, taxels, {}⟩, rfl, ⟨hseq, htime, htaxels, rfl⟩⟩

/-- **A measurement of the whole packet** goes to the new samples only. -/
theorem shareImu_spec (imuOff : ℕ) (out : List GloveSample) {new : List GloveSample}
    (himuOff : imuOff < 2 ^ 63)
    (hnew : ∀ (i : ℕ) (h : i < new.length), IsS4Slot data values false i new[i]) :
    ∃ shared, shareImu data out.length imuOff (out ++ new) = some (out ++ shared) ∧
      shared.length = new.length ∧ ∀ (i : ℕ) (h : i < shared.length),
        (IsS4Slot data values false i { shared[i] with imu := {} }) ∧
          if imuOff + 17 ≤ data.length then IsImu data (imuOff + 4) shared[i].imu
          else shared[i].imu = {} := by
  have hoff : sizeT (imuOff + kS4ImuBytes) = imuOff + 17 := by
    show (imuOff + 17) % 2 ^ 64 = _
    omega
  rw [shareImu, hoff]
  -- The block is read when it lies inside the packet; otherwise the IMU stays empty.
  by_cases hpresent : imuOff + 17 ≤ data.length
  · obtain ⟨imu, hrdImu, himu⟩ := rdImu_spec data (imuOff + 4) (by omega)
    refine ⟨new.map fun s => { s with imu := imu }, ?_, List.length_map _, fun i hi => ?_⟩
    · rw [if_pos hpresent, hrdImu, List.take_left, List.drop_left]
      rfl
    · rw [List.length_map] at hi
      rw [List.getElem_map, if_pos hpresent]
      obtain ⟨hseq, htime, htaxels, _⟩ := hnew i hi
      exact ⟨⟨hseq, htime, htaxels, rfl⟩, himu⟩
  · refine ⟨new, if_neg hpresent, rfl, fun i hi => ?_⟩
    obtain ⟨hseq, htime, htaxels, himu⟩ := hnew i hi
    rw [if_neg hpresent]
    exact ⟨⟨hseq, htime, htaxels, rfl⟩, himu⟩

theorem toNat_lt_of_int32 (v : Int32) : v.toInt.toNat < 2 ^ 31 := by
  have := v.toInt_lt
  omega

/-- **Schema 4** is read within the packet.  The measurement of the whole packet goes to all of the
new samples, or to none of them when its bytes are missing. -/
theorem parseSchema4_spec (data : ByteText) (valuesPerSample : Int32) (perSampleImu : Bool)
    (out : List GloveSample) :
    ∃ r, parseSchema4 data valuesPerSample perSampleImu (!perSampleImu) out = some r ∧
      Appends out (data.getD 0 0).toNat (IsS4Sample data valuesPerSample.toInt.toNat perSampleImu
        (!perSampleImu) (data.getD 0 0).toNat) r := by
  unfold parseSchema4
  by_cases hheader : data.length < kS4HeaderBytes ∨ valuesPerSample ≤ 0
  · exact ⟨_, if_pos hheader, Appends.refused⟩
  · have hlength : 6 ≤ data.length := not_lt.mp (not_or.mp hheader).1
    obtain ⟨baseTsUs, hrdTime, htime⟩ := rdU32_spec data 2 (by omega)
    rw [if_neg hheader, read_eq (by omega), hrdTime]
    simp only [Option.bind_eq_bind, Option.bind_some]
    have hcount := (data.getD 0 0).toNat_lt
    generalize hcountEq : (data.getD 0 0).toNat = count at hcount ⊢
    have hvalues := toNat_lt_of_int32 valuesPerSample
    generalize hvaluesEq : valuesPerSample.toInt.toNat = values at hvalues ⊢
    -- Count and stride are too small for the product to wrap.
    have hbytes : count * s4Stride values perSampleImu ≤ 256 * 2 ^ 33 :=
      Nat.mul_le_mul (by omega) (s4Stride_le hvalues).le
    have himuOff : sizeT (kS4HeaderBytes
        + sizeT (count * (S4Layout.mk values perSampleImu (!perSampleImu)).stride)) =
        6 + count * s4Stride values perSampleImu := by
      rw [S4Layout.stride_eq _ hvalues]
      show (6 + count * s4Stride values perSampleImu % 2 ^ 64) % 2 ^ 64 = _
      omega
    rw [himuOff]
    by_cases hshort : data.length < 6 + count * s4Stride values perSampleImu
    · exact ⟨_, if_pos hshort, Appends.refused⟩
    · obtain ⟨new, hloop, hnewLength, hnew⟩ := loop_pushSample out fun i hi =>
        s4Sample_spec (!perSampleImu) hvalues htime hi hcount (not_lt.mp hshort)
      rw [if_neg hshort, hloop, Option.bind_some]
      cases perSampleImu with
      | true =>
        refine ⟨(true, out ++ new), rfl, nofun, fun _ => ⟨new, rfl, hnewLength, fun i hi => ?_⟩⟩
        obtain ⟨hseq, htime, htaxels, himu⟩ := hnew i hi
        exact ⟨hseq, htime, htaxels, fun _ => himu, nofun⟩
      | false =>
        -- One IMU block behind the samples is shared by all of them.
        obtain ⟨shared, hshare, hsharedLength, hshared⟩ := shareImu_spec
          (6 + count * s4Stride values false) out (by omega) hnew
        refine ⟨(true, out ++ shared), ?_, nofun, fun _ =>
          ⟨shared, rfl, hsharedLength.trans hnewLength, fun i hi => ?_⟩⟩
        · rw [Bool.not_false, if_pos rfl, hshare]
          rfl
        · obtain ⟨⟨hseq, htime, htaxels, _⟩, himu⟩ := hshared i hi
          exact ⟨hseq, htime, htaxels, nofun, fun _ => himu⟩

end Schema4

/-- **Every packet** is parsed within its bounds. -/
theorem parse_spec (data : Option ByteText) (valuesPerSample : Int32) (out : List GloveSample) :
    ∃ r, parse data valuesPerSample out = some r ∧
      Appends out ((data.getD []).getD 0 0).toNat (Announced (data.getD []) valuesPerSample) r := by
  cases data with
  | none => exact ⟨_, rfl, Appends.refused⟩
  | some data =>
    unfold parse
    by_cases hshort : data.length < 2
    · exact ⟨_, if_pos hshort, Appends.refused⟩
    · dsimp only
      rw [if_neg hshort, read_eq (by omega), Option.getD_some]
      simp only [Option.bind_eq_bind, Option.bind_some]
      unfold Announced
      cases hformat : formatFromFlags (data.getD 1 0) with
      | packed12V5 => exact parsePacked12V5_spec data out
      | methodC => exact parseSchema4_spec data valuesPerSample false out
      | methodB => exact parseSchema4_spec data valuesPerSample true out
      | unknown => exact ⟨_, rfl, Appends.refused⟩

/-- **Packet parsing.**  No read or write is out of bounds; a refused packet leaves the output as it
was; an accepted one adds the announced number of samples, with the values of its bytes; and
12-bit taxels come back from their packed bytes. -/
theorem packet_parsing :
    (∀ (data : Option ByteText) (valuesPerSample : Int32) (out : List GloveSample),
      ∃ accepted result, parse data valuesPerSample out = some (accepted, result) ∧
        (accepted = false → result = out) ∧
        (accepted = true → ∃ packet new, data = some packet ∧ result = out ++ new ∧
          new.length = (packet.getD 0 0).toNat ∧
          ∀ (i : ℕ) (h : i < new.length), Announced packet valuesPerSample i new[i])) ∧
    ∀ taxels out : Taxels, (∀ (t : ℕ) (ht : t < kNumTaxels), taxels[t].toNat < 4096) →
      unpackTaxels12 (packTaxels12 taxels) 0 out = some taxels := by
  refine ⟨fun data valuesPerSample out => ?_, fun taxels out h =>
    unpackTaxels12_packTaxels12 out h⟩
  obtain ⟨⟨accepted, result⟩, hparse, hrefused, haccepted⟩ := parse_spec data valuesPerSample out
  refine ⟨accepted, result, hparse, hrefused, fun h => ?_⟩
  obtain ⟨new, hresult, hlength, hnew⟩ := haccepted h
  cases data with
  | none =>
    -- The null pointer is not accepted.
    have hnull : (false, out) = (accepted, result) := Option.some_inj.mp hparse
    rw [← (Prod.mk.inj hnull).1] at h
    exact absurd h Bool.false_ne_true
  | some packet => exact ⟨packet, new, rfl, hresult, hlength, hnew⟩

/-- One sample with one taxel, of the value 263. -/
theorem one_taxel_packet :
    ∃ new, parse (some [1, 0x02, 5, 0, 0, 0, 7, 1]) 1 [] = some (true, new) ∧ new.length = 1 := by
  have haccepted : (parse (some [1, 0x02, 5, 0, 0, 0, 7, 1]) 1 []).map Prod.fst = some true := by
    decide
  obtain ⟨accepted, result, hparse, _, h⟩ :=
    packet_parsing.1 (some [1, 0x02, 5, 0, 0, 0, 7, 1]) 1 []
  rw [hparse] at haccepted
  obtain rfl : accepted = true := Option.some_inj.mp haccepted
  obtain ⟨packet, new, hpacket, rfl, hlength, _⟩ := h rfl
  rw [← Option.some_inj.mp hpacket] at hlength
  exact ⟨_, hparse, hlength⟩

end Oglo
