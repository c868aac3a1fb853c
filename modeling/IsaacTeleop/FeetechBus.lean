/-
Status packets of the Feetech servo bus.

A servo answers with `FF FF id length error data checksum`.  The bus waits for the two header
bytes, tolerating noise before them, and reads the rest of the packet one byte at a time; a read
that times out ends it.

* `readStatusAny`, `syncReadPositions` — the receiver;
* `StatusPacket` — a packet with its bytes;
* `readStatusAny_packet` — a packet after noise, `readStatusAny_sound` — any line at all;
* `status_reception` — when a packet after noise is received, and what a burst of answers gives.
-/
import IsaacTeleop.ByteText

namespace Feetech

/-! ### The bus -/

def kHeader : UInt8 := 0xFF
def kBroadcastId : UInt8 := 0xFE
def kInstSyncRead : UInt8 := 0x82
def kRegPresentPosition : UInt8 := 56

/-- What the calls of `read_byte` find, in order: a byte, or nothing before the timeout.  Nothing
comes after its end. -/
abbrev Line := List (Option UInt8)

/-- `read_byte` -/
def readByte : Line → Option UInt8 × Line
  | [] => (none, [])
  | answer :: line => (answer, line)

/-- The loop that waits for the header, for at most so many bytes. -/
def syncHeader : ℕ → Option UInt8 → Line → Bool × Line
  | 0, _, line => (false, line)
  | n + 1, prev, line =>
    match readByte line with
    | (none, line) => (false, line)
    | (some b, line) =>
      if prev = some kHeader ∧ b = kHeader then (true, line) else syncHeader n (some b) line

/-- `n` bytes in a row. -/
def readBytes : ℕ → Line → Option ByteText × Line
  | 0, line => (some [], line)
  | n + 1, line =>
    match readByte line with
    | (none, line) => (none, line)
    | (some b, line) =>
      match readBytes n line with
      | (none, line) => (none, line)
      | (some rest, line) => (some (b :: rest), line)

/-- `~checksum & 0xFF`, for the sum over the first bytes of a packet. -/
def checksumByte (id length : UInt8) (bytes : ByteText) : UInt8 :=
  (~~~ bytes.foldl (fun checksum b => checksum + b.toUInt32) (id.toUInt32 + length.toUInt32) &&&
    0xFF).toUInt8

/-- The rest of a packet, after its header. -/
def readBody (expectedDataLen : UInt8) (line : Line) : Option (ByteText × UInt8) × Line :=
  match readByte line with
  | (none, line) => (none, line)
  | (some id, line) =>
    match readByte line with
    | (none, line) => (none, line)
    | (some length, line) =>
      if length < 2 ∨ length > 16 then (none, line)
      else
        match readBytes length.toNat line with
        | (none, line) => (none, line)
        | (some rest, line) =>
          if checksumByte id length (rest.take (length.toNat - 1)) ≠
              rest.getD (length.toNat - 1) 0 then (none, line)
          else if length - 2 ≠ expectedDataLen then (none, line)
          else (some ((rest.drop 1).take expectedDataLen.toNat, id), line)

/-- `read_status_any`: the data and the id of the packet it returns. -/
def readStatusAny (expectedDataLen : UInt8) (line : Line) : Option (ByteText × UInt8) × Line :=
  match syncHeader 64 none line with
  | (false, line) => (none, line)
  | (true, line) => readBody expectedDataLen line

/-! ### Requests -/

/-- `pkt` of `write_packet` -/
def requestBytes (id instruction : UInt8) (params : ByteText) (paramCount : UInt8) : ByteText :=
  let length := paramCount + 2
  let body := instruction :: params.take paramCount.toNat
  [kHeader, kHeader, id, length] ++ body ++ [checksumByte id length body]

/-- What `write` answers: it took so many bytes, it is to be tried again, or it failed. -/
inductive WriteOutcome
  | wrote (n : ℕ)
  | retry
  | failed

/-- The loop of `write_packet` over the bytes still to be written; with no result while it goes
on. -/
def writeLoop : List WriteOutcome → ℕ → Option Bool
  | _, 0 => some true
  | [], _ + 1 => none
  | .wrote n :: outcomes, left + 1 => writeLoop outcomes (left + 1 - n)
  | .retry :: outcomes, left + 1 => writeLoop outcomes (left + 1)
  | .failed :: _, _ + 1 => some false

/-- `write_packet` -/
def writePacket (outcomes : List WriteOutcome) (id instruction : UInt8) (params : ByteText)
    (paramCount : UInt8) : Option Bool :=
  writeLoop outcomes (requestBytes id instruction params paramCount).length

/-- The two vectors that `sync_read_positions` fills. -/
structure Positions where
  positions : List UInt16
  ok : List UInt8
  deriving DecidableEq

/-- The answer of a servo goes to the first slot of its id that has none. -/
def Positions.store (slots : Positions) (ids : List UInt8) (respId : UInt8) (value : UInt16) :
    Positions :=
  match (List.range ids.length).find? fun i => ids[i]? = some respId ∧ slots.ok[i]? = some 0 with
  | none => slots
  | some i => ⟨slots.positions.set i value, slots.ok.set i 1⟩

/-- A position from its two bytes. -/
def position (data : ByteText) : UInt16 :=
  (data.getD 0 0).toUInt16 ||| ((data.getD 1 0).toUInt16 <<< 8)

/-- Up to one reply for each requested servo; the first missing one ends the burst. -/
def readReplies (ids : List UInt8) : ℕ → Positions → Line → Positions × Line
  | 0, slots, line => (slots, line)
  | k + 1, slots, line =>
    match readStatusAny 2 line with
    | (none, line) => (slots, line)
    | (some (data, respId), line) =>
      readReplies ids k (slots.store ids respId (position data)) line

/-- `sync_read_positions`, with the line as it is after the request. -/
def syncReadPositions (outcomes : List WriteOutcome) (ids : List UInt8) (line : Line) :
    Option (Bool × Positions × Line) :=
  let empty : Positions := ⟨List.replicate ids.length 0, List.replicate ids.length 0⟩
  if ids = [] then some (true, empty, line)
  else do
    let params := kRegPresentPosition :: 0x02 :: ids
    let sent ← writePacket outcomes kBroadcastId kInstSyncRead params (UInt8.ofNat params.length)
    if sent then
      let (slots, line) := readReplies ids ids.length empty line
      pure (true, slots, line)
    else pure (false, empty, line)

/-! ### Packets -/

/-- What a servo answers: the data has no more bytes than the receiver takes. -/
structure StatusPacket where
  id : UInt8
  error : UInt8
  data : ByteText
  data_length_le : data.length ≤ 14

namespace StatusPacket

variable (packet : StatusPacket)

def length : UInt8 := UInt8.ofNat (packet.data.length + 2)

def checksum : UInt8 := checksumByte packet.id packet.length (packet.error :: packet.data)

/-- What follows the header. -/
def body : ByteText :=
  packet.id :: packet.length :: packet.error :: (packet.data ++ [packet.checksum])

def bytes : ByteText := kHeader :: kHeader :: packet.body

theorem length_toNat : packet.length.toNat = packet.data.length + 2 := by
  have h := packet.data_length_le
  rw [length, UInt8.toNat_ofNat']
  omega

end StatusPacket

/-- Bytes that arrive before the timeout. -/
def onLine (bytes : ByteText) : Line := bytes.map some

/-- No two header bytes in a row. -/
def NoHeader (noise : ByteText) : Prop :=
  noise.IsChain fun a b => ¬ (a = kHeader ∧ b = kHeader)

/-- The bytes that may come before the header in the sync window. -/
def syncWindow : ℕ := 62

/-! ### Receiving a packet -/

/-- The sync loop passes over noise; it then remembers the last byte. -/
theorem syncHeader_noise {noise : ByteText} (hnoise : NoHeader noise) (n : ℕ) (rest : Line)
    {prev : Option UInt8} (hprev : prev = some kHeader → noise.head? ≠ some kHeader) :
    syncHeader (noise.length + n) prev (onLine noise ++ rest) =
      syncHeader n (noise.getLast?.or prev) rest := by
  induction noise generalizing prev with
  | nil => rw [List.length_nil, Nat.zero_add]; rfl
  | cons b noise ih =>
    -- No two headers follow each other, not even across the byte before.
    have hpass : ¬ (prev = some kHeader ∧ b = kHeader) := by
      rintro ⟨hp, rfl⟩
      exact hprev hp rfl
    have hnext : some b = some kHeader → noise.head? ≠ some kHeader := by
      intro hb hhead
      obtain ⟨c, noise, rfl⟩ : ∃ c tail, noise = c :: tail := by
        cases noise with
        | nil => cases hhead
        | cons c tail => exact ⟨c, tail, rfl⟩
      exact (List.isChain_cons_cons.mp hnoise).1
        ⟨Option.some_inj.mp hb, Option.some_inj.mp hhead⟩
    have hlast : (b :: noise).getLast?.or prev = noise.getLast?.or (some b) := by
      rw [List.getLast?_cons]
      cases noise.getLast? with
      | none => rfl
      | some c => rfl
    rw [hlast, ← ih hnoise.tail hnext, List.length_cons, Nat.add_right_comm]
    exact if_neg hpass

/-- The header after a byte that is none. -/
theorem syncHeader_header {prev : Option UInt8} (h : prev ≠ some kHeader) (n : ℕ) (rest : Line) :
    syncHeader (n + 2) prev (some kHeader :: some kHeader :: rest) = (true, rest) := by
  simp [syncHeader, readByte, h]

/-- After a header byte, the first byte of the header is taken for its second one. -/
theorem syncHeader_early (n : ℕ) (rest : Line) :
    syncHeader (n + 1) (some kHeader) (some kHeader :: rest) = (true, rest) := by
  simp [syncHeader, readByte]

theorem readBytes_onLine (bytes : ByteText) (rest : Line) :
    readBytes bytes.length (onLine bytes ++ rest) = (some bytes, rest) := by
  induction bytes with
  | nil => rfl
  | cons b bytes ih =>
    have htail : readBytes bytes.length (List.map some bytes ++ rest) = (some bytes, rest) := ih
    simp [readBytes, readByte, onLine, htail]

theorem readBody_packet (packet : StatusPacket) (after : Line) :
    readBody (UInt8.ofNat packet.data.length) (onLine packet.body ++ after) =
      (some (packet.data, packet.id), after) := by
  have hlength := packet.length_toNat
  have hbound := packet.data_length_le
  -- The length of a packet lies within what the reader accepts.
  have hguard : ¬ (packet.length < 2 ∨ packet.length > 16) := by
    rw [UInt8.lt_iff_toNat_lt, gt_iff_lt, UInt8.lt_iff_toNat_lt, hlength]
    show ¬ (packet.data.length + 2 < 2 ∨ 16 < packet.data.length + 2)
    omega
  have hrest : readBytes packet.length.toNat
      (onLine (packet.error :: (packet.data ++ [packet.checksum])) ++ after) =
      (some (packet.error :: (packet.data ++ [packet.checksum])), after) := by
    have hcount : packet.length.toNat =
        (packet.error :: (packet.data ++ [packet.checksum])).length := by
      simp [hlength]
    rw [hcount, readBytes_onLine]
  -- The checksum covers the error byte and the data.
  have hsum : packet.length.toNat - 1 = packet.data.length + 1 := by omega
  have hdata : packet.length - 2 = UInt8.ofNat packet.data.length := by
    rw [StatusPacket.length, UInt8.ofNat_add]
    exact UInt8.add_sub_cancel _ _
  have hexpected : (UInt8.ofNat packet.data.length).toNat = packet.data.length := by
    rw [UInt8.toNat_ofNat']
    omega
  have hbody : onLine packet.body ++ after = some packet.id :: some packet.length ::
      (onLine (packet.error :: (packet.data ++ [packet.checksum])) ++ after) := rfl
  rw [hbody, readBody, readByte]
  dsimp only [readByte]
  rw [if_neg hguard, hrest]
  dsimp only
  rw [hsum, List.take_succ_cons, List.take_left, hdata]
  simp [StatusPacket.checksum, hexpected]

/-- The id of a returned packet is the first byte after the header. -/
theorem readBody_id {expectedDataLen b id : UInt8} {line : Line} {data : ByteText}
    (h : (readBody expectedDataLen (some b :: line)).1 = some (data, id)) : id = b := by
  simp only [readBody, readByte] at h
  split at h
  · cases h
  split at h
  · cases h
  split at h
  · cases h
  split at h
  · cases h
  split at h
  · cases h
  · exact (Prod.mk.inj (Option.some_inj.mp h)).2.symm

/-- A length of 255 is refused. -/
theorem readBody_refused (expectedDataLen b : UInt8) (line : Line) :
    (readBody expectedDataLen (some b :: some kHeader :: line)).1 = none := by
  have hguard : kHeader < 2 ∨ kHeader > 16 := by decide
  simp [readBody, readByte, hguard]

/-- Noise in the window leaves room for the header. -/
theorem syncHeader_window {noise : ByteText} (hnoise : NoHeader noise)
    (hwindow : noise.length ≤ syncWindow) :
    ∃ n, ∀ rest, syncHeader 64 none (onLine noise ++ rest) =
      syncHeader (n + 2) noise.getLast? rest := by
  rw [syncWindow] at hwindow
  refine ⟨62 - noise.length, fun rest => ?_⟩
  have hcount : 64 = noise.length + (62 - noise.length + 2) := by omega
  have hstart : (none : Option UInt8) = some kHeader → noise.head? ≠ some kHeader := by
    intro h
    cases h
  rw [hcount, syncHeader_noise hnoise _ _ hstart, Option.or_none]

/-- A packet after noise that does not end in a header byte is taken off the line. -/
theorem readStatusAny_clean (packet : StatusPacket) {noise : ByteText} (hnoise : NoHeader noise)
    (hwindow : noise.length ≤ syncWindow) (hlast : noise.getLast? ≠ some kHeader) (after : Line) :
    readStatusAny (UInt8.ofNat packet.data.length)
        (onLine noise ++ (onLine packet.bytes ++ after)) =
      (some (packet.data, packet.id), after) := by
  obtain ⟨n, hsync⟩ := syncHeader_window hnoise hwindow
  have hbytes : onLine packet.bytes ++ after =
      some kHeader :: some kHeader :: (onLine packet.body ++ after) := rfl
  rw [readStatusAny, hsync, hbytes, syncHeader_header hlast]
  dsimp only
  rw [readBody_packet]

/-- **A packet after noise** is received exactly when the noise does not end in a header byte. -/
theorem readStatusAny_packet (packet : StatusPacket) {noise : ByteText} (hnoise : NoHeader noise)
    (hwindow : noise.length ≤ syncWindow) (after : Line) :
    (readStatusAny (UInt8.ofNat packet.data.length)
        (onLine noise ++ (onLine packet.bytes ++ after))).1 = some (packet.data, packet.id) ↔
      noise.getLast? ≠ some kHeader := by
  constructor
  · intro h hlast
    obtain ⟨n, hsync⟩ := syncHeader_window hnoise hwindow
    have hbytes : onLine packet.bytes ++ after =
        some kHeader :: some kHeader :: (onLine packet.body ++ after) := rfl
    rw [readStatusAny, hsync, hbytes, hlast, syncHeader_early] at h
    dsimp only at h
    -- The id would be a header byte, and then it is taken for the length.
    have hid : packet.id = kHeader := readBody_id h
    have hline : onLine packet.body ++ after =
        some packet.id :: (onLine packet.body.tail ++ after) := rfl
    rw [hline, hid, readBody_refused] at h
    cases h
  · intro hlast
    rw [readStatusAny_clean packet hnoise hwindow hlast]

/-! ### Any line -/

theorem readBytes_sound {n : ℕ} {line rest : Line} {bytes : ByteText}
    (h : readBytes n line = (some bytes, rest)) :
    line = onLine bytes ++ rest ∧ bytes.length = n := by
  induction n generalizing line bytes with
  | zero =>
    obtain ⟨hbytes, rfl⟩ := Prod.mk.inj h
    obtain rfl := Option.some_inj.mp hbytes
    exact ⟨rfl, rfl⟩
  | succ n ih =>
    cases line with
    | nil => cases (Prod.mk.inj h).1
    | cons answer line =>
      cases answer with
      | none => cases (Prod.mk.inj h).1
      | some b =>
        simp only [readBytes, readByte] at h
        split at h
        · cases (Prod.mk.inj h).1
        · rename_i tail line' htail
          obtain ⟨hbytes, rfl⟩ := Prod.mk.inj h
          obtain rfl := Option.some_inj.mp hbytes
          obtain ⟨rfl, rfl⟩ := ih htail
          exact ⟨rfl, rfl⟩

/-- The sync loop ends after two header bytes in a row. -/
theorem syncHeader_sound {n : ℕ} {prev : Option UInt8} {line rest : Line}
    (h : syncHeader n prev line = (true, rest)) :
    ∃ before, onLine prev.toList ++ line = before ++ (onLine [kHeader, kHeader] ++ rest) := by
  induction n generalizing prev line with
  | zero => cases (Prod.mk.inj h).1
  | succ n ih =>
    cases line with
    | nil => cases (Prod.mk.inj h).1
    | cons answer line =>
      cases answer with
      | none => cases (Prod.mk.inj h).1
      | some b =>
        simp only [syncHeader, readByte] at h
        split at h
        · rename_i hheader
          obtain ⟨rfl, rfl⟩ := hheader
          obtain ⟨-, rfl⟩ := Prod.mk.inj h
          exact ⟨[], rfl⟩
        · obtain ⟨before, hbefore⟩ := ih h
          refine ⟨onLine prev.toList ++ before, ?_⟩
          rw [List.append_assoc, ← hbefore]
          rfl

theorem readBody_sound {expectedDataLen id : UInt8} {line rest : Line} {data : ByteText}
    (h : readBody expectedDataLen line = (some (data, id), rest)) :
    ∃ packet : StatusPacket, packet.id = id ∧ packet.data = data ∧
      line = onLine packet.body ++ rest := by
  cases line with
  | nil => cases (Prod.mk.inj h).1
  | cons answer line =>
  cases answer with
  | none => cases (Prod.mk.inj h).1
  | some b =>
  cases line with
  | nil => cases (Prod.mk.inj h).1
  | cons answer line =>
  cases answer with
  | none => cases (Prod.mk.inj h).1
  | some length =>
    simp only [readBody, readByte] at h
    split at h
    · cases (Prod.mk.inj h).1
    rename_i hguard
    split at h
    · cases (Prod.mk.inj h).1
    rename_i bytes line' hbytes
    split at h
    · cases (Prod.mk.inj h).1
    rename_i hchecksum
    split at h
    · cases (Prod.mk.inj h).1
    rename_i hexpected
    obtain ⟨hresult, rfl⟩ := Prod.mk.inj h
    obtain ⟨rfl, rfl⟩ := Prod.mk.inj (Option.some_inj.mp hresult)
    obtain ⟨rfl, hcount⟩ := readBytes_sound hbytes
    -- The bytes are the error, the data and the checksum.
    have hlow : 2 ≤ length.toNat := by
      have : ¬ length < 2 := fun h => hguard (.inl h)
      rw [UInt8.lt_iff_toNat_lt] at this
      exact Nat.le_of_not_lt this
    have hhigh : length.toNat ≤ 16 := by
      have : ¬ length > 16 := fun h => hguard (.inr h)
      rw [gt_iff_lt, UInt8.lt_iff_toNat_lt] at this
      exact Nat.le_of_not_lt this
    obtain ⟨error, tail, rfl⟩ : ∃ error tail, bytes = error :: tail :=
      List.exists_cons_of_length_pos (by omega)
    obtain ⟨data, checksum, rfl⟩ : ∃ data checksum, tail = data ++ [checksum] := by
      refine ⟨tail.dropLast, tail.getLast ?_, (List.dropLast_append_getLast _).symm⟩
      rintro rfl
      rw [List.length_singleton] at hcount
      omega
    have hdata : data.length + 2 = length.toNat := by
      rw [← hcount]
      simp
    have hlength : length = UInt8.ofNat (data.length + 2) := by
      rw [hdata, UInt8.ofNat_toNat]
    have hlen : expectedDataLen.toNat = data.length := by
      rw [← not_not.mp hexpected, hlength, UInt8.ofNat_add]
      rw [show UInt8.ofNat 2 = 2 from rfl, UInt8.add_sub_cancel, UInt8.toNat_ofNat']
      omega
    have hsum : length.toNat - 1 = data.length + 1 := by omega
    rw [not_not, hsum, List.take_succ_cons, List.take_left] at hchecksum
    refine ⟨⟨b, error, data, by omega⟩, rfl, ?_, ?_⟩
    · rw [hlen]
      simp
    · have hlast : (error :: (data ++ [checksum])).getD (data.length + 1) 0 = checksum := by
        simp
      rw [hlast] at hchecksum
      simp [StatusPacket.body, StatusPacket.checksum, StatusPacket.length, onLine, ← hlength,
        hchecksum]

/-- **Whatever the line brings**, a returned packet was there with its checksum. -/
theorem readStatusAny_sound {expectedDataLen id : UInt8} {line rest : Line} {data : ByteText}
    (h : readStatusAny expectedDataLen line = (some (data, id), rest)) :
    ∃ (before : Line) (packet : StatusPacket), packet.id = id ∧ packet.data = data ∧
      line = before ++ (onLine packet.bytes ++ rest) := by
  rw [readStatusAny] at h
  split at h
  · cases (Prod.mk.inj h).1
  · rename_i line' hsync
    obtain ⟨before, hbefore⟩ := syncHeader_sound hsync
    obtain ⟨packet, hid, hdata, rfl⟩ := readBody_sound h
    exact ⟨before, packet, hid, hdata, hbefore⟩

/-! ### A burst of answers -/

/-- The answer of a servo to a request for its position, with the noise before it. -/
structure Reply where
  noise : ByteText
  id : UInt8
  error : UInt8
  value : UInt16

namespace Reply

variable (reply : Reply)

def packet : StatusPacket where
  id := reply.id
  error := reply.error
  data := [reply.value.toUInt8, (reply.value >>> 8).toUInt8]
  data_length_le := by simp

/-- The noise is passed over. -/
structure Clean : Prop where
  no_header : NoHeader reply.noise
  window : reply.noise.length ≤ syncWindow
  last : reply.noise.getLast? ≠ some kHeader

end Reply

/-- The line with these answers, one after the other, and then `tail`. -/
def replyLine (replies : List Reply) (tail : Line) : Line :=
  replies.foldr (fun reply line => onLine reply.noise ++ (onLine reply.packet.bytes ++ line)) tail

theorem position_packet (reply : Reply) : position reply.packet.data = reply.value := by
  apply UInt16.toNat_inj.mp
  have hlt := reply.value.toNat_lt
  have hor : reply.value.toNat % 2 ^ 8 ||| (reply.value.toNat / 2 ^ 8) <<< 8 =
      reply.value.toNat := by
    rw [Nat.lor_comm, ← Nat.shiftLeft_add_eq_or_of_lt (Nat.mod_lt _ (by decide)),
      Nat.shiftLeft_eq]
    omega
  have hhigh : reply.value.toNat >>> 8 % 2 ^ 8 = reply.value.toNat / 2 ^ 8 := by
    rw [Nat.shiftRight_eq_div_pow]
    omega
  have hshift : (reply.value.toNat / 2 ^ 8) <<< 8 % 2 ^ 16 =
      (reply.value.toNat / 2 ^ 8) <<< 8 := by
    rw [Nat.shiftLeft_eq]
    omega
  simp only [position, Reply.packet, List.getD_cons_zero, List.getD_cons_succ, UInt16.toNat_or,
    UInt16.toNat_shiftLeft, UInt8.toNat_toUInt16, UInt16.toNat_toUInt8, UInt16.toNat_shiftRight]
  show reply.value.toNat % 2 ^ 8 ||| (reply.value.toNat >>> 8 % 2 ^ 8) <<< 8 % 2 ^ 16 = _
  rw [hhigh, hshift, hor]

/-- The slots after some answers of different servos: each is in the first slot of its id, and
all other slots are empty. -/
structure Stored (ids : List UInt8) (replies : List Reply) (slots : Positions) : Prop where
  positions_length : slots.positions.length = ids.length
  ok_length : slots.ok.length = ids.length
  answered : ∀ reply ∈ replies, slots.ok[ids.idxOf reply.id]? = some 1 ∧
    slots.positions[ids.idxOf reply.id]? = some reply.value
  silent : ∀ i < ids.length, (∀ reply ∈ replies, i ≠ ids.idxOf reply.id) →
    slots.ok[i]? = some 0 ∧ slots.positions[i]? = some 0

theorem Stored.init (ids : List UInt8) :
    Stored ids [] ⟨List.replicate ids.length 0, List.replicate ids.length 0⟩ := by
  refine ⟨List.length_replicate, List.length_replicate, List.forall_mem_nil _,
    fun i hi _ => ⟨?_, ?_⟩⟩
  · exact List.getElem?_replicate_of_lt hi
  · exact List.getElem?_replicate_of_lt hi

/-- One more answer. -/
theorem Stored.store {ids : List UInt8} {replies : List Reply} {slots : Positions} {reply : Reply}
    (h : Stored ids replies slots) (hmem : reply.id ∈ ids)
    (hnew : ∀ other ∈ replies, other.id ≠ reply.id) :
    Stored ids (replies ++ [reply]) (slots.store ids reply.id reply.value) := by
  have hindex : ids.idxOf reply.id < ids.length := List.idxOf_lt_length_iff.mpr hmem
  have hother : ∀ other ∈ replies, ids.idxOf other.id ≠ ids.idxOf reply.id := by
    intro other hother heq
    exact hnew other hother ((List.idxOf_inj hmem).mp heq.symm).symm
  -- The search ends at the first slot of the id, which is still empty.
  have hfind : (List.range ids.length).find? (fun i => decide
      (ids[i]? = some reply.id ∧ slots.ok[i]? = some 0)) = some (ids.idxOf reply.id) := by
    rw [List.find?_range_eq_some]
    refine ⟨decide_eq_true ⟨List.getElem?_idxOf hmem, ?_⟩, List.mem_range.mpr hindex, ?_⟩
    · exact (h.silent _ hindex fun other ho => (hother other ho).symm).1
    · intro j hj
      rw [Bool.not_eq_true', decide_eq_false_iff_not]
      rintro ⟨hid, -⟩
      obtain ⟨hlt, hid⟩ := List.getElem?_eq_some_iff.mp hid
      have hne := List.not_of_lt_findIdx hj
      rw [hid] at hne
      exact absurd hne (by simp)
  rw [Positions.store, hfind]
  refine ⟨by rw [List.length_set, h.positions_length], by rw [List.length_set, h.ok_length],
    fun other ho => ?_, fun i hi hsilent => ?_⟩
  · rcases List.mem_append.mp ho with ho | ho
    · dsimp only
      rw [List.getElem?_set_ne (hother other ho).symm, List.getElem?_set_ne (hother other ho).symm]
      exact h.answered other ho
    · obtain rfl := List.mem_singleton.mp ho
      refine ⟨List.getElem?_set_self ?_, List.getElem?_set_self ?_⟩
      · rw [h.ok_length]
        exact hindex
      · rw [h.positions_length]
        exact hindex
  · have hlast := hsilent reply (List.mem_append_right _ (List.mem_singleton_self _))
    dsimp only
    rw [List.getElem?_set_ne hlast.symm, List.getElem?_set_ne hlast.symm]
    exact h.silent i hi fun other ho => hsilent other (List.mem_append_left _ ho)

theorem readStatusAny_timeout {tail : Line} (h : (readByte tail).1 = none)
    (expectedDataLen : UInt8) : (readStatusAny expectedDataLen tail).1 = none := by
  cases tail with
  | nil => rfl
  | cons answer tail =>
    obtain rfl : answer = none := h
    rfl

/-- **The burst**: with `k` replies still to be read. -/
theorem readReplies_spec {ids : List UInt8} {tail : Line} (htail : (readByte tail).1 = none)
    {replies : List Reply} (hclean : ∀ reply ∈ replies, reply.Clean)
    (hmem : ∀ reply ∈ replies, reply.id ∈ ids) {k : ℕ} (hk : replies.length ≤ k)
    (earlier : List Reply) (hnodup : ((earlier ++ replies).map Reply.id).Nodup)
    {slots : Positions} (h : Stored ids earlier slots) :
    Stored ids (earlier ++ replies) (readReplies ids k slots (replyLine replies tail)).1 := by
  induction replies generalizing k earlier slots with
  | nil =>
    rw [List.append_nil]
    cases k with
    | zero => exact h
    | succ k =>
      -- The next reply is missing.
      have hnone : (readStatusAny 2 (replyLine [] tail)).1 = none := readStatusAny_timeout htail 2
      rw [readReplies]
      generalize readStatusAny 2 (replyLine [] tail) = status at hnone ⊢
      obtain ⟨result, line⟩ := status
      obtain rfl : result = none := hnone
      exact h
  | cons reply replies ih =>
    obtain ⟨k, rfl⟩ : ∃ k', k = k' + 1 := ⟨k - 1, by rw [List.length_cons] at hk; omega⟩
    obtain ⟨hreply, hclean⟩ := List.forall_mem_cons.mp hclean
    obtain ⟨hid, hmem⟩ := List.forall_mem_cons.mp hmem
    have hread : readStatusAny 2 (replyLine (reply :: replies) tail) =
        (some (reply.packet.data, reply.packet.id), replyLine replies tail) :=
      readStatusAny_clean reply.packet hreply.no_header hreply.window hreply.last _
    have hnew : ∀ other ∈ earlier, other.id ≠ reply.id := by
      intro other hother heq
      rw [List.map_append, List.nodup_append] at hnodup
      exact hnodup.2.2 other.id (List.mem_map_of_mem hother) reply.id
        (List.mem_map_of_mem List.mem_cons_self) heq
    rw [readReplies, hread]
    dsimp only
    rw [position_packet]
    have hrest := ih hclean hmem (k := k) (by rw [List.length_cons] at hk; omega)
      (earlier ++ [reply]) (by rwa [List.append_assoc, List.singleton_append])
      (h.store hid hnew)
    rwa [List.append_assoc, List.singleton_append] at hrest

/-- **Status reception.**  A packet after noise without two header bytes in a row, in the sync
window, is decoded exactly when the noise does not end in a header byte; a packet is returned only
with a matching checksum; and of the servos that answer a sync read, in any order, each one's
position is in the first slot of its id, while the slots of the others report nothing. -/
theorem status_reception (line : Line) (packet : StatusPacket) (noise : ByteText)
    (outcomes : List WriteOutcome) (ids : List UInt8) (replies : List Reply) :
    (NoHeader noise → noise.length ≤ syncWindow →
      ((readStatusAny (UInt8.ofNat packet.data.length)
          (onLine noise ++ (onLine packet.bytes ++ line))).1 = some (packet.data, packet.id) ↔
        noise.getLast? ≠ some kHeader)) ∧
    (∀ (expectedDataLen : UInt8) (rest : Line) (data : ByteText) (id : UInt8),
      readStatusAny expectedDataLen line = (some (data, id), rest) →
      ∃ (before : Line) (packet : StatusPacket), packet.id = id ∧ packet.data = data ∧
        line = before ++ (onLine packet.bytes ++ rest)) ∧
    (writePacket outcomes kBroadcastId kInstSyncRead (kRegPresentPosition :: 0x02 :: ids)
        (UInt8.ofNat (ids.length + 2)) = some true →
      (∀ reply ∈ replies, reply.Clean) → (∀ reply ∈ replies, reply.id ∈ ids) →
      (replies.map Reply.id).Nodup → (readByte line).1 = none →
      ∃ slots rest, syncReadPositions outcomes ids (replyLine replies line) =
          some (true, slots, rest) ∧
        (∀ reply ∈ replies, ids[ids.idxOf reply.id]? = some reply.id ∧
          slots.ok[ids.idxOf reply.id]? = some 1 ∧
          slots.positions[ids.idxOf reply.id]? = some reply.value) ∧
        ∀ i < ids.length, (∀ reply ∈ replies, i ≠ ids.idxOf reply.id) →
          slots.ok[i]? = some 0 ∧ slots.positions[i]? = some 0) := by
  refine ⟨fun hnoise hwindow => readStatusAny_packet packet hnoise hwindow line,
    fun _ _ _ _ h => readStatusAny_sound h, ?_⟩
  intro hsent hclean hmem hnodup htail
  -- The replies have different ids among those asked for.
  have hlength : replies.length ≤ ids.length := by
    have hsubset : replies.map Reply.id ⊆ ids := by
      intro id hid
      obtain ⟨reply, hreply, rfl⟩ := List.mem_map.mp hid
      exact hmem reply hreply
    have hle := (hnodup.subperm hsubset).length_le
    rwa [List.length_map] at hle
  have hstored := readReplies_spec htail hclean hmem hlength [] hnodup
    (Stored.init ids)
  rw [List.nil_append] at hstored
  -- Nothing is sent for no ids.
  by_cases hids : ids = []
  · subst hids
    have hnone : replies = [] := List.eq_nil_of_length_eq_zero (Nat.le_zero.mp hlength)
    subst hnone
    exact ⟨_, _, rfl, List.forall_mem_nil _, fun i hi => absurd hi (Nat.not_lt_zero i)⟩
  · rw [syncReadPositions]
    dsimp only
    rw [if_neg hids]
    simp only [List.length_cons]
    rw [hsent]
    exact ⟨_, _, rfl, fun reply hreply => ⟨List.getElem?_idxOf (hmem reply hreply),
      hstored.answered reply hreply⟩, hstored.silent⟩

/-- Servo 1 at position 2048. -/
def servoPacket : StatusPacket := ⟨1, 0, [0x00, 0x08], Nat.le_of_ble_eq_true rfl⟩

/-- Three servos are asked; the third answers before the first, the second not at all. -/
theorem answers_out_of_order :
    ∃ slots rest, syncReadPositions [.wrote 4, .retry, .wrote 9] [1, 2, 3]
        (replyLine [⟨[0xFF, 0x00], 3, 0, 2048⟩, ⟨[], 1, 0, 100⟩] []) = some (true, slots, rest) ∧
      slots.ok[2]? = some 1 ∧ slots.positions[2]? = some 2048 ∧
      slots.ok[1]? = some 0 ∧ slots.positions[1]? = some 0 := by
  obtain ⟨_, _, hreception⟩ := status_reception [] servoPacket []
    [.wrote 4, .retry, .wrote 9] [1, 2, 3] [⟨[0xFF, 0x00], 3, 0, 2048⟩, ⟨[], 1, 0, 100⟩]
  obtain ⟨slots, rest, hread, hanswered, hsilent⟩ := hreception (by decide) (by
      rintro reply hreply
      rcases List.mem_cons.mp hreply with rfl | hreply
      · exact ⟨by unfold NoHeader; decide, by decide, by decide⟩
      · obtain rfl := List.mem_singleton.mp hreply
        exact ⟨by unfold NoHeader; decide, by decide, by decide⟩)
    (by decide) (by decide) rfl
  have hthird := (hanswered _ List.mem_cons_self).2
  exact ⟨slots, rest, hread, hthird.1, hthird.2, hsilent 1 (by decide) (by decide)⟩

/-- One header byte as noise, and the packet is not decoded. -/
theorem header_byte_as_noise :
    NoHeader [kHeader] ∧ [kHeader].length ≤ syncWindow ∧
      (readStatusAny (UInt8.ofNat servoPacket.data.length)
          (onLine [kHeader] ++ (onLine servoPacket.bytes ++ []))).1 ≠
        some (servoPacket.data, servoPacket.id) :=
  ⟨List.isChain_singleton _, by decide, by decide⟩

end Feetech
