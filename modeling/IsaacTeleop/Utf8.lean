/-
UTF-8.

A sequence of bytes is decoded from its front: a lead byte says how many continuation bytes
follow, six bits each; overlong forms, surrogates and numbers past U+10FFFF are no characters.

* `Utf8.decodeOne_encode` — the encoding of a character is decoded as that character;
* `Utf8.encode_of_decodeOne` — and only an encoding is decoded;
* `Utf8.decode_encode` — a whole text.
-/
import IsaacTeleop.ByteText

namespace Utf8

/-- Read `n` continuation bytes. -/
def tails : ℕ → ℕ → ByteText → Option (ℕ × ByteText)
  | 0, code, rest => some (code, rest)
  | _ + 1, _, [] => none
  | n + 1, code, b :: rest =>
    if 0x80 ≤ b.toNat ∧ b.toNat < 0xC0 then tails n (code * 64 + (b.toNat - 0x80)) rest else none

/-- The rest of a character after its lead byte; `least` rules out overlong forms. -/
def sequence (n code least : ℕ) (rest : ByteText) : Option (ℕ × ByteText) :=
  match tails n code rest with
  | some (code, rest) => if least ≤ code ∧ code.isValidChar then some (code, rest) else none
  | none => none

/-- The first character, with the bytes after it. -/
def decodeOne : ByteText → Option (ℕ × ByteText)
  | [] => none
  | b :: rest =>
    if b.toNat < 0x80 then some (b.toNat, rest)
    else if b.toNat < 0xC0 then none
    else if b.toNat < 0xE0 then sequence 1 (b.toNat - 0xC0) 0x80 rest
    else if b.toNat < 0xF0 then sequence 2 (b.toNat - 0xE0) 0x800 rest
    else if b.toNat < 0xF8 then sequence 3 (b.toNat - 0xF0) 0x10000 rest
    else none

/-- A whole text, in at most the given number of characters. -/
def decodeAll : ℕ → ByteText → Option (List ℕ)
  | _, [] => some []
  | 0, _ :: _ => none
  | turns + 1, b :: bytes =>
    match decodeOne (b :: bytes) with
    | none => none
    | some (code, rest) => (decodeAll turns rest).map (code :: ·)

def decode (bytes : ByteText) : Option (List ℕ) := decodeAll bytes.length bytes

/-! ### Encodings are decoded -/

theorem toNat_ofNat {x : ℕ} (h : x < 256) : (UInt8.ofNat x).toNat = x :=
  UInt8.toNat_ofNat_of_lt' h

theorem tails_cons {n code x : ℕ} (h : x < 64) (rest : ByteText) :
    tails (n + 1) code (UInt8.ofNat (x + 0x80) :: rest) = tails n (code * 64 + x) rest := by
  have hb : (UInt8.ofNat (x + 0x80)).toNat = x + 0x80 := toNat_ofNat (by omega)
  rw [tails, hb, if_pos (by omega), Nat.add_sub_cancel]

/-- **The encoding of a character is decoded as that character.** -/
theorem decodeOne_encode (c : Char) (rest : ByteText) :
    decodeOne (String.utf8EncodeChar c ++ rest) = some (c.toNat, rest) := by
  have hvalid : c.val.toNat.isValidChar := c.valid
  have hlt : c.val.toNat < 0x110000 := by
    rcases hvalid with h | h
    · omega
    · exact h.2
  simp only [String.utf8EncodeChar, Char.toNat]
  generalize c.val.toNat = v at hvalid hlt
  split
  · rename_i h
    have hb : (UInt8.ofNat v).toNat = v := toNat_ofNat (by omega)
    rw [List.singleton_append, decodeOne, hb, if_pos (by omega)]
  split
  · -- Two bytes.
    rename_i h₁ h₂
    have hb : (UInt8.ofNat (v / 64 % 0x20 + 0xC0)).toNat = v / 64 + 0xC0 := by
      rw [toNat_ofNat (by omega)]
      omega
    rw [List.cons_append, List.cons_append, List.nil_append, decodeOne, hb, if_neg (by omega),
      if_neg (by omega), if_pos (by omega), sequence, tails_cons (by omega), tails]
    have hcode : (v / 64 + 0xC0 - 0xC0) * 64 + v % 0x40 = v := by omega
    simp only [hcode]
    rw [if_pos ⟨by omega, hvalid⟩]
  split
  · -- Three bytes.
    rename_i h₁ h₂ h₃
    have hb : (UInt8.ofNat (v / 4096 % 0x10 + 0xE0)).toNat = v / 4096 + 0xE0 := by
      rw [toNat_ofNat (by omega)]
      omega
    rw [List.cons_append, List.cons_append, List.cons_append, List.nil_append, decodeOne, hb,
      if_neg (by omega), if_neg (by omega), if_neg (by omega), if_pos (by omega), sequence,
      tails_cons (by omega), tails_cons (by omega), tails]
    have hcode : ((v / 4096 + 0xE0 - 0xE0) * 64 + v / 64 % 0x40) * 64 + v % 0x40 = v := by omega
    simp only [hcode]
    rw [if_pos ⟨by omega, hvalid⟩]
  · rename_i h₁ h₂ h₃
    -- Four bytes.
    have hb : (UInt8.ofNat (v / 262144 % 0x08 + 0xF0)).toNat = v / 262144 + 0xF0 := by
      rw [toNat_ofNat (by omega)]
      omega
    rw [List.cons_append, List.cons_append, List.cons_append, List.cons_append, List.nil_append,
      decodeOne, hb, if_neg (by omega), if_neg (by omega), if_neg (by omega), if_neg (by omega),
      if_pos (by omega), sequence, tails_cons (by omega), tails_cons (by omega),
      tails_cons (by omega), tails]
    have hcode : (((v / 262144 + 0xF0 - 0xF0) * 64 + v / 4096 % 0x40) * 64 + v / 64 % 0x40) * 64
        + v % 0x40 = v := by omega
    simp only [hcode]
    rw [if_pos ⟨by omega, hvalid⟩]

theorem encode_ne_nil (c : Char) : String.utf8EncodeChar c ≠ [] := by
  simp only [String.utf8EncodeChar]
  split
  · simp
  split
  · simp
  split
  · simp
  · simp

theorem decodeAll_encode (chars : List Char) {turns : ℕ}
    (h : (chars.flatMap String.utf8EncodeChar).length ≤ turns) :
    decodeAll turns (chars.flatMap String.utf8EncodeChar) = some (chars.map Char.toNat) := by
  induction chars generalizing turns with
  | nil => cases turns <;> rfl
  | cons c rest ih =>
    rw [List.flatMap_cons] at h ⊢
    rw [List.length_append] at h
    have hpos : 0 < (String.utf8EncodeChar c).length :=
      List.length_pos_iff.mpr (encode_ne_nil c)
    obtain ⟨b, bytes, hbytes⟩ := List.exists_cons_of_ne_nil (encode_ne_nil c)
    obtain ⟨turns, rfl⟩ : ∃ k, turns = k + 1 := ⟨turns - 1, by omega⟩
    have hone := decodeOne_encode c (rest.flatMap String.utf8EncodeChar)
    rw [hbytes, List.cons_append] at hone ⊢
    rw [decodeAll, hone]
    have hrest := @ih turns (by omega)
    simp only [hrest]
    rfl

/-- **A text is decoded as itself.** -/
theorem decode_encode (chars : List Char) :
    decode (chars.flatMap String.utf8EncodeChar) = some (chars.map Char.toNat) :=
  decodeAll_encode chars le_rfl

/-! ### Only encodings are decoded -/

/-- One continuation byte, by its six bits. -/
theorem tails_succ {n code code' : ℕ} {bytes rest : ByteText}
    (h : tails (n + 1) code bytes = some (code', rest)) :
    ∃ x bytes', x < 64 ∧ bytes = UInt8.ofNat (x + 0x80) :: bytes' ∧
      tails n (code * 64 + x) bytes' = some (code', rest) := by
  cases bytes with
  | nil => cases h
  | cons b bytes =>
    rw [tails] at h
    split at h
    · rename_i hb
      refine ⟨b.toNat - 0x80, bytes, by omega, ?_, h⟩
      have hbyte : b.toNat - 0x80 + 0x80 = b.toNat := by omega
      rw [hbyte, UInt8.ofNat_toNat]
    · cases h

theorem sequence_eq_some {n code least code' : ℕ} {bytes rest : ByteText}
    (h : sequence n code least bytes = some (code', rest)) :
    tails n code bytes = some (code', rest) ∧ least ≤ code' ∧ code'.isValidChar := by
  rw [sequence] at h
  split at h
  · rename_i heq
    split at h
    · rename_i hvalid
      cases h
      exact ⟨heq, hvalid⟩
    · cases h
  · cases h

/-- A lead byte, by its bits under the mark. -/
theorem lead_eq {b : UInt8} {mark x : ℕ} (hmark : mark ≤ b.toNat) (hx : b.toNat - mark = x) :
    b = UInt8.ofNat (x + mark) := by
  have hbyte : x + mark = b.toNat := by omega
  rw [hbyte, UInt8.ofNat_toNat]

/-- **Only the encoding of a character is decoded.** -/
theorem encode_of_decodeOne {bytes rest : ByteText} {code : ℕ}
    (h : decodeOne bytes = some (code, rest)) :
    code.isValidChar ∧ bytes = String.utf8EncodeChar (Char.ofNat code) ++ rest := by
  cases bytes with
  | nil => cases h
  | cons b bytes =>
    have hb := b.toNat_lt
    -- the encoding of a character, by its code point
    have hencode : code.isValidChar →
        (b :: bytes = (if code ≤ 0x7f then [UInt8.ofNat code]
          else if code ≤ 0x7ff then
            [UInt8.ofNat (code / 64 % 0x20 + 0xC0), UInt8.ofNat (code % 0x40 + 0x80)]
          else if code ≤ 0xffff then
            [UInt8.ofNat (code / 4096 % 0x10 + 0xE0), UInt8.ofNat (code / 64 % 0x40 + 0x80),
              UInt8.ofNat (code % 0x40 + 0x80)]
          else
            [UInt8.ofNat (code / 262144 % 0x08 + 0xF0), UInt8.ofNat (code / 4096 % 0x40 + 0x80),
              UInt8.ofNat (code / 64 % 0x40 + 0x80), UInt8.ofNat (code % 0x40 + 0x80)]) ++ rest) →
        code.isValidChar ∧ b :: bytes = String.utf8EncodeChar (Char.ofNat code) ++ rest := by
      intro hvalid heq
      have hchar : (Char.ofNat code).val.toNat = code := by
        show (Char.ofNat code).toNat = code
        rw [Char.toNat_ofNat, if_pos hvalid]
      refine ⟨hvalid, ?_⟩
      simp only [String.utf8EncodeChar, hchar]
      exact heq
    rw [decodeOne] at h
    split at h
    · rename_i hlead
      cases h
      refine hencode (.inl (by omega)) ?_
      rw [if_pos (by omega), UInt8.ofNat_toNat]
      rfl
    split at h
    · cases h
    split at h
    · obtain ⟨htails, hleast, hvalid⟩ := sequence_eq_some h
      obtain ⟨x, bytes₁, hx, rfl, hend⟩ := tails_succ htails
      cases hend
      have hlead : b = UInt8.ofNat (b.toNat - 0xC0 + 0xC0) := lead_eq (by omega) rfl
      refine hencode hvalid ?_
      rw [if_neg (by omega), if_pos (by omega)]
      have h₁ : ((b.toNat - 0xC0) * 64 + x) / 64 % 0x20 = b.toNat - 0xC0 := by omega
      have h₂ : ((b.toNat - 0xC0) * 64 + x) % 0x40 = x := by omega
      rw [h₁, h₂, ← hlead]
      rfl
    split at h
    · obtain ⟨htails, hleast, hvalid⟩ := sequence_eq_some h
      obtain ⟨x, bytes₁, hx, rfl, htails₁⟩ := tails_succ htails
      obtain ⟨y, bytes₂, hy, rfl, hend⟩ := tails_succ htails₁
      cases hend
      have hlead : b = UInt8.ofNat (b.toNat - 0xE0 + 0xE0) := lead_eq (by omega) rfl
      refine hencode hvalid ?_
      rw [if_neg (by omega), if_neg (by omega), if_pos (by omega)]
      have h₁ : (((b.toNat - 0xE0) * 64 + x) * 64 + y) / 4096 % 0x10 = b.toNat - 0xE0 := by omega
      have h₂ : (((b.toNat - 0xE0) * 64 + x) * 64 + y) / 64 % 0x40 = x := by omega
      have h₃ : (((b.toNat - 0xE0) * 64 + x) * 64 + y) % 0x40 = y := by omega
      rw [h₁, h₂, h₃, ← hlead]
      rfl
    split at h
    · obtain ⟨htails, hleast, hvalid⟩ := sequence_eq_some h
      obtain ⟨x, bytes₁, hx, rfl, htails₁⟩ := tails_succ htails
      obtain ⟨y, bytes₂, hy, rfl, htails₂⟩ := tails_succ htails₁
      obtain ⟨z, bytes₃, hz, rfl, hend⟩ := tails_succ htails₂
      cases hend
      have hlead : b = UInt8.ofNat (b.toNat - 0xF0 + 0xF0) := lead_eq (by omega) rfl
      refine hencode hvalid ?_
      rw [if_neg (by omega), if_neg (by omega), if_neg (by omega)]
      have h₁ : ((((b.toNat - 0xF0) * 64 + x) * 64 + y) * 64 + z) / 262144 % 0x08
          = b.toNat - 0xF0 := by omega
      have h₂ : ((((b.toNat - 0xF0) * 64 + x) * 64 + y) * 64 + z) / 4096 % 0x40 = x := by omega
      have h₃ : ((((b.toNat - 0xF0) * 64 + x) * 64 + y) * 64 + z) / 64 % 0x40 = y := by omega
      have h₄ : ((((b.toNat - 0xF0) * 64 + x) * 64 + y) * 64 + z) % 0x40 = z := by omega
      rw [h₁, h₂, h₃, h₄, ← hlead]
      rfl
    · cases h

end Utf8
