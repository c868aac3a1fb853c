/-
The events of the calibration worker on the wire.

`serializeEvent` writes an event as one JSON object.  Texts of the SDK and of the client are
written with `appendString`, which replaces bytes that are not UTF-8.

* `appendString`, `serializeEvent` — the writer;
* `readString_appendString` — what the worker's own reader makes of a string;
* `sanitize_eq` — the bytes replaced are those in no UTF-8 sequence.
-/
import IsaacTeleop.CalibrationEngine
import IsaacTeleop.JsonGrammar
import IsaacTeleop.Utf8

open ByteText

namespace Calibration

open Json PyStr

/-! ### Strings -/

/-- The continuation bytes of a sequence: none when they are not there. -/
def continuation : ℕ → ℕ → ByteText → Option ℕ
  | 0, code, _ => some code
  | _ + 1, _, [] => none
  | n + 1, code, b :: rest =>
    if b &&& 0xC0 ≠ 0x80 then none
    else continuation n (code <<< 6 ||| (b &&& 0x3F).toNat) rest

/-- The end of `utf8_sequence_length`, for a lead byte with `code`. -/
def checkedLength (length minCode code : ℕ) (rest : ByteText) : ℕ :=
  match continuation (length - 1) code rest with
  | none => 0
  | some code =>
    if code < minCode ∨ 0x10FFFF < code ∨ 0xD800 ≤ code ∧ code ≤ 0xDFFF then 0 else length

/-- `utf8_sequence_length` of the text that is left. -/
def utf8SequenceLength : ByteText → ℕ
  | [] => 0
  | lead :: rest =>
    if lead < 0x80 then 1
    else if lead &&& 0xE0 = 0xC0 then checkedLength 2 0x80 (lead &&& 0x1F).toNat rest
    else if lead &&& 0xF0 = 0xE0 then checkedLength 3 0x800 (lead &&& 0x0F).toNat rest
    else if lead &&& 0xF8 = 0xF0 then checkedLength 4 0x10000 (lead &&& 0x07).toNat rest
    else 0

/-- U+FFFD -/
def replacement : ByteText := [0xEF, 0xBF, 0xBD]

/-- One byte of a string. -/
def escapeByte (c : UInt8) : ByteText :=
  if c = byte '"' then lit "\\\""
  else if c = byte '\\' then lit "\\\\"
  else if c = byte '\n' then lit "\\n"
  else if c = byte '\r' then lit "\\r"
  else if c = byte '\t' then lit "\\t"
  else if c < 0x20 then lit "\\u" ++ hex4 c.toNat
  else [c]

/-- The loop of `append_string`; every turn takes at least one byte. -/
def appendChars : ℕ → ByteText → ByteText
  | 0, _ => []
  | _ + 1, [] => []
  | turns + 1, c :: rest =>
    let length := utf8SequenceLength (c :: rest)
    if length = 0 then replacement ++ appendChars turns rest
    else if 1 < length then
      (c :: rest).take length ++ appendChars turns ((c :: rest).drop length)
    else escapeByte c ++ appendChars turns rest

/-- `append_string`: what it appends. -/
def appendString (text : ByteText) : ByteText :=
  byte '"' :: (appendChars text.length text ++ [byte '"'])

/-! ### Objects -/

def kProtocolVersion : ℕ := 1

/-- `ObjectWriter::raw` -/
def raw (key : String) (value : ByteText) : ByteText :=
  byte ',' :: (appendString (lit key) ++ byte ':' :: value)

/-- `ObjectWriter::string` -/
def string (key : String) (value : ByteText) : ByteText := raw key (appendString value)

/-- `ObjectWriter::optional_string` -/
def optionalString (key : String) : Option ByteText → ByteText
  | none => raw key (lit "null")
  | some value => string key value

/-- `ObjectWriter::integer` -/
def integer (key : String) (value : ℕ) : ByteText := raw key (decimal value)

/-- A whole object: the constructor of `ObjectWriter`, the members and `finish`. -/
def objectText (type : String) (members : List ByteText) : ByteText :=
  lit "\x7b\"v\":" ++ decimal kProtocolVersion ++ string "type" (lit type) ++ members.flatten ++
    [byte '}']

/-- Items in brackets, with commas between them. -/
def bracketed (items : List ByteText) : ByteText :=
  byte '[' :: ([byte ','].intercalate items ++ [byte ']'])

/-! ### Events -/

def reasonName : RejectReason → ByteText
  | .invalid => lit "invalid"
  | .unknownAttempt => lit "unknown_attempt"
  | .staleToken => lit "stale_token"
  | .unexpected => lit "unexpected"
  | .busy => lit "busy"

def phaseName : Phase → ByteText
  | .discovering => lit "discovering"
  | .awaitingStep => lit "awaiting_step"
  | .capturingStep => lit "capturing_step"
  | .saving => lit "saving"
  | .stopping => lit "stopping"

def outcomeName : Outcome → ByteText
  | .completed => lit "completed"
  | .cancelled => lit "cancelled"
  | .failed => lit "failed"

def errorCodeName : ErrorCode → ByteText
  | .sdkInitFailed => lit "sdk_init_failed"
  | .noGloves => lit "no_gloves"
  | .gloveMissing => lit "glove_missing"
  | .gloveReplaced => lit "glove_replaced"
  | .sdkError => lit "sdk_error"
  | .stepFailed => lit "step_failed"
  | .exportFailed => lit "export_failed"
  | .protocolError => lit "protocol_error"
  | .internal => lit "internal"

def modeName : StepMode → ByteText
  | .hold => lit "hold"
  | .motion => lit "motion"

def boolText (b : Bool) : ByteText := if b then lit "true" else lit "false"

/-- `gloves_json` -/
def glovesJson (gloves : List GloveRef) : ByteText :=
  bracketed (gloves.map fun g => lit "\x7b\"side\":" ++ appendString (sideName g.side) ++
    lit ",\"glove_id\":" ++ decimal g.gloveId.toNat ++ lit "\x7d")

/-- `files_json` -/
def filesJson (files : List ResultFile) : ByteText :=
  bracketed (files.map fun f => lit "\x7b\"side\":" ++ appendString (sideName f.side) ++
    lit ",\"file\":" ++ appendString f.file ++ lit ",\"bytes\":" ++ decimal f.bytes ++
    lit ",\"sha256\":" ++ appendString f.sha256 ++ lit "\x7d")

/-- `error_json` -/
def errorJson (error : ErrorInfo) : ByteText :=
  lit "\x7b\"code\":" ++ appendString (errorCodeName error.code) ++ lit ",\"message\":" ++
    appendString error.message ++
    (match error.side with
      | some side => lit ",\"side\":" ++ appendString (sideName side)
      | none => []) ++
    (match error.step with
      | some step => lit ",\"step\":" ++ decimal step
      | none => []) ++ lit "\x7d"

section Serialize

variable {τ : Type} [CppDouble τ]

/-- `ObjectWriter::seconds`; `format` is `%.3f`, and the buffer holds 31 characters of it. -/
def seconds (format : τ → ByteText) (key : String) (value : τ) : ByteText :=
  raw key ((format (if CppDouble.isFinite value then value else CppDouble.zero)).take 31)

/-- `serialize_event` -/
def serializeEvent (format : τ → ByteText) : Event τ → ByteText
  | .ready e => objectText "ready"
      [string "worker_version" e.workerVersion, optionalString "sdk_version" e.sdkVersion]
  | .status e => objectText "status"
      [string "attempt" e.attempt, string "phase" (phaseName e.phase),
        raw "gloves" (glovesJson e.gloves)]
  | .prompt e => objectText "prompt"
      [string "attempt" e.attempt, string "token" e.token, string "side" (sideName e.side),
        integer "glove_id" e.gloveId.toNat, integer "index" e.index, integer "count" e.count,
        string "title" e.title, string "instruction" e.instruction,
        string "mode" (modeName e.mode), seconds format "duration_s" e.durationS,
        raw "continuous" (boolText e.continuous), seconds format "estimated_s" e.estimatedS]
  | .stepAccepted e => objectText "step_accepted"
      [string "attempt" e.attempt, string "token" e.token]
  | .stepProgress e => objectText "step_progress"
      [string "attempt" e.attempt, string "token" e.token, seconds format "elapsed_s" e.elapsedS]
  | .rejected e => objectText "rejected"
      ([optionalString "attempt" e.attempt, string "command" e.command,
        string "reason" (reasonName e.reason), string "message" e.message] ++
        (e.token.map (string "token")).toList)
  | .exported e => objectText "exported"
      [string "attempt" e.attempt, string "side" (sideName e.side),
        integer "glove_id" e.gloveId.toNat, string "file" e.file, integer "bytes" e.bytes,
        string "sha256" e.sha256]
  | .result e => objectText "result"
      ([optionalString "attempt" e.attempt, string "outcome" (outcomeName e.outcome)] ++
        (if e.outcome = .completed then [raw "files" (filesJson e.files)] else []) ++
        (e.error.map fun error => raw "error" (errorJson error)).toList ++
        [raw "released" (boolText e.released)])

end Serialize

/-! ### Sequences -/

/-- The first bits of a byte of a sequence, and the ones that carry the code. -/
theorem lead_bits (b : UInt8) :
    ((b &&& 0xE0 = 0xC0 ↔ 0xC0 ≤ b.toNat ∧ b.toNat < 0xE0) ∧
      (b &&& 0xE0 = 0xC0 → (b &&& 0x1F).toNat = b.toNat - 0xC0)) ∧
    ((b &&& 0xF0 = 0xE0 ↔ 0xE0 ≤ b.toNat ∧ b.toNat < 0xF0) ∧
      (b &&& 0xF0 = 0xE0 → (b &&& 0x0F).toNat = b.toNat - 0xE0)) ∧
    ((b &&& 0xF8 = 0xF0 ↔ 0xF0 ≤ b.toNat ∧ b.toNat < 0xF8) ∧
      (b &&& 0xF8 = 0xF0 → (b &&& 0x07).toNat = b.toNat - 0xF0)) ∧
    (b &&& 0xC0 = 0x80 ↔ 0x80 ≤ b.toNat ∧ b.toNat < 0xC0) ∧
      (b &&& 0xC0 = 0x80 → (b &&& 0x3F).toNat = b.toNat - 0x80) := by
  revert b
  exact forall_byte (by decide +kernel)

theorem tail_bits (b : UInt8) : (b &&& 0xC0 = 0x80 ↔ 0x80 ≤ b.toNat ∧ b.toNat < 0xC0) ∧
    (b &&& 0xC0 = 0x80 → (b &&& 0x3F).toNat = b.toNat - 0x80) :=
  (lead_bits b).2.2.2

theorem continuation_eq (n code : ℕ) (rest : ByteText) :
    continuation n code rest = (Utf8.tails n code rest).map Prod.fst := by
  induction n generalizing code rest with
  | zero => rfl
  | succ n ih =>
    cases rest with
    | nil => rfl
    | cons b rest =>
      rw [continuation, Utf8.tails]
      by_cases hb : b &&& 0xC0 = 0x80
      · have hbits := (tail_bits b).2 hb
        have hrange := (tail_bits b).1.mp hb
        rw [if_neg (not_not_intro hb), if_pos hrange, hbits, ih,
          ← Nat.shiftLeft_add_eq_or_of_lt (i := 6) (by omega), Nat.shiftLeft_eq]
      · rw [if_pos hb, if_neg (mt (tail_bits b).1.mpr hb)]
        rfl

theorem checkedLength_of_none {n least code : ℕ} {rest : ByteText}
    (h : Utf8.sequence n code least rest = none) : checkedLength (n + 1) least code rest = 0 := by
  rw [checkedLength, Nat.add_sub_cancel, continuation_eq]
  rw [Utf8.sequence] at h
  cases htails : Utf8.tails n code rest with
  | none => rfl
  | some result =>
    rw [htails] at h
    dsimp only at h
    rw [ite_eq_right_iff] at h
    have hinvalid : ¬ (least ≤ result.1 ∧ result.1.isValidChar) := fun hvalid =>
      Option.some_ne_none _ (h hvalid)
    refine if_pos ?_
    by_contra hnot
    refine hinvalid ⟨by omega, ?_⟩
    by_cases hless : result.1 < 0xD800
    · exact .inl hless
    · exact .inr ⟨by omega, by omega⟩

theorem checkedLength_of_some {n least code code' : ℕ} {rest rest' : ByteText}
    (h : Utf8.sequence n code least rest = some (code', rest')) :
    checkedLength (n + 1) least code rest = n + 1 := by
  obtain ⟨htails, hleast, hvalid⟩ := Utf8.sequence_eq_some h
  rw [checkedLength, Nat.add_sub_cancel, continuation_eq, htails]
  refine if_neg ?_
  rcases hvalid with hless | hmore
  · omega
  · omega

theorem length_of_tails {n code code' : ℕ} {bytes rest : ByteText}
    (h : Utf8.tails n code bytes = some (code', rest)) : bytes.length = n + rest.length := by
  induction n generalizing code bytes with
  | zero =>
    cases h
    exact (Nat.zero_add _).symm
  | succ n ih =>
    obtain ⟨x, bytes', -, rfl, htails⟩ := Utf8.tails_succ h
    rw [List.length_cons, ih htails]
    omega

/-- The lead bytes by their ranges. -/
theorem utf8SequenceLength_cons (b : UInt8) (rest : ByteText) :
    utf8SequenceLength (b :: rest) =
      if b.toNat < 0x80 then 1
      else if b.toNat < 0xC0 then 0
      else if b.toNat < 0xE0 then checkedLength 2 0x80 (b.toNat - 0xC0) rest
      else if b.toNat < 0xF0 then checkedLength 3 0x800 (b.toNat - 0xE0) rest
      else if b.toNat < 0xF8 then checkedLength 4 0x10000 (b.toNat - 0xF0) rest
      else 0 := by
  -- The masks of the source, read as ranges of the first byte.
  obtain ⟨⟨htwo, htwo'⟩, ⟨hthree, hthree'⟩, ⟨hfour, hfour'⟩, -⟩ := lead_bits b
  have hascii : b < 0x80 ↔ b.toNat < 0x80 := UInt8.lt_iff_toNat_lt
  rw [utf8SequenceLength]
  by_cases h₁ : b.toNat < 0x80
  · rw [if_pos h₁, if_pos (hascii.mpr h₁)]
  rw [if_neg h₁, if_neg (mt hascii.mp h₁)]
  by_cases h₂ : b.toNat < 0xC0
  · rw [if_pos h₂, if_neg (mt htwo.mp (by omega)), if_neg (mt hthree.mp (by omega)),
      if_neg (mt hfour.mp (by omega))]
  rw [if_neg h₂]
  by_cases h₃ : b.toNat < 0xE0
  · have hlead := htwo.mpr ⟨by omega, h₃⟩
    rw [if_pos h₃, if_pos hlead, htwo' hlead]
  rw [if_neg h₃, if_neg (mt htwo.mp (by omega))]
  by_cases h₄ : b.toNat < 0xF0
  · have hlead := hthree.mpr ⟨by omega, h₄⟩
    rw [if_pos h₄, if_pos hlead, hthree' hlead]
  rw [if_neg h₄, if_neg (mt hthree.mp (by omega))]
  by_cases h₅ : b.toNat < 0xF8
  · have hlead := hfour.mpr ⟨by omega, h₅⟩
    rw [if_pos h₅, if_pos hlead, hfour' hlead]
  · rw [if_neg h₅, if_neg (mt hfour.mp (by omega))]

theorem utf8SequenceLength_of_none {text : ByteText} (h : Utf8.decodeOne text = none) :
    utf8SequenceLength text = 0 := by
  cases text with
  | nil => rfl
  | cons b rest =>
    rw [utf8SequenceLength_cons]
    rw [Utf8.decodeOne] at h
    split at h
    · cases h
    rename_i h₁
    rw [if_neg h₁]
    split at h
    · rename_i h₂
      rw [if_pos h₂]
    rename_i h₂
    rw [if_neg h₂]
    split at h
    · rename_i h₃
      rw [if_pos h₃]
      exact checkedLength_of_none h
    rename_i h₃
    rw [if_neg h₃]
    split at h
    · rename_i h₄
      rw [if_pos h₄]
      exact checkedLength_of_none h
    rename_i h₄
    rw [if_neg h₄]
    split at h
    · rename_i h₅
      rw [if_pos h₅]
      exact checkedLength_of_none h
    · rename_i h₅
      rw [if_neg h₅]

theorem length_of_sequence {n least code code' : ℕ} {rest rest' : ByteText} (b : UInt8)
    (h : Utf8.sequence n code least rest = some (code', rest')) :
    checkedLength (n + 1) least code rest + rest'.length = (b :: rest).length := by
  have hlength := length_of_tails (Utf8.sequence_eq_some h).1
  rw [checkedLength_of_some h, List.length_cons, hlength]
  omega

/-- **The length is that of the first character.** -/
theorem utf8SequenceLength_of_some {text rest : ByteText} {code : ℕ}
    (h : Utf8.decodeOne text = some (code, rest)) :
    utf8SequenceLength text + rest.length = text.length := by
  cases text with
  | nil => cases h
  | cons b bytes =>
    rw [utf8SequenceLength_cons]
    -- Both read the length off the first byte, by the same ranges.
    rw [Utf8.decodeOne] at h
    split at h
    · rename_i h₁
      cases h
      rw [if_pos h₁, List.length_cons]
      omega
    rename_i h₁
    rw [if_neg h₁]
    split at h
    · cases h
    rename_i h₂
    rw [if_neg h₂]
    split at h
    · rename_i h₃
      rw [if_pos h₃]
      exact length_of_sequence b h
    rename_i h₃
    rw [if_neg h₃]
    split at h
    · rename_i h₄
      rw [if_pos h₄]
      exact length_of_sequence b h
    rename_i h₄
    rw [if_neg h₄]
    split at h
    · rename_i h₅
      rw [if_pos h₅]
      exact length_of_sequence b h
    · cases h

/-! ### What a string is read back as -/

/-- The bytes of a text with U+FFFD for those that begin no character. -/
def clean : ℕ → ByteText → ByteText
  | 0, _ => []
  | _ + 1, [] => []
  | turns + 1, c :: rest =>
    match Utf8.decodeOne (c :: rest) with
    | none => replacement ++ clean turns rest
    | some (code, rest) => String.utf8EncodeChar (Char.ofNat code) ++ clean turns rest

/-- Bytes from 0x80 on stand for themselves. -/
theorem chars_high {bytes text out : ByteText} (hbytes : ∀ b ∈ bytes, 0x80 ≤ b.toNat)
    (h : Chars text out) : Chars (bytes ++ text) (bytes ++ out) := by
  have hplain : ∀ b : UInt8, 0x80 ≤ b.toNat → IsPlain b := by
    intro b hb
    refine ⟨?_, ?_, fun hlt => ?_⟩
    · rintro rfl
      exact absurd hb (by decide)
    · rintro rfl
      exact absurd hb (by decide)
    · have hcontrol : b.toNat < 0x20 := UInt8.lt_iff_toNat_lt.mp hlt
      omega
  induction bytes with
  | nil => exact h
  | cons b bytes ih =>
    refine .plain (hplain b (hbytes b (List.mem_cons_self ..))) (ih ?_)
    exact fun b' hb' => hbytes b' (List.mem_cons_of_mem b hb')

/-- An ASCII character is one byte. -/
theorem encode_ascii {c : UInt8} (hc : c.toNat < 0x80) :
    String.utf8EncodeChar (Char.ofNat c.toNat) = [c] := by
  have hvalid : c.toNat.isValidChar := .inl (by omega)
  have hcode : (Char.ofNat c.toNat).val.toNat = c.toNat := by
    rw [← Char.toNat, Char.toNat_ofNat, if_pos hvalid]
  simp only [String.utf8EncodeChar, hcode]
  rw [if_pos (by omega), UInt8.ofNat_toNat]

/-- The escape of a byte stands for it. -/
theorem chars_escapeByte {c : UInt8} {text out : ByteText} (h : Chars text out) :
    Chars (escapeByte c ++ text) (c :: out) := by
  have hshort : ∀ {e : UInt8}, (e, c) ∈ shortEscapes →
      Chars (byte '\\' :: [e] ++ text) ([c] ++ out) := fun hmem => .escape (.short hmem) h
  rw [escapeByte]
  split
  · rename_i hc
    subst hc
    exact hshort (e := byte '"') (by decide)
  split
  · rename_i hc
    subst hc
    exact hshort (e := byte '\\') (by decide)
  split
  · rename_i hc
    subst hc
    exact hshort (e := byte 'n') (by decide)
  split
  · rename_i hc
    subst hc
    exact hshort (e := byte 'r') (by decide)
  split
  · rename_i hc
    subst hc
    exact hshort (e := byte 't') (by decide)
  split
  · -- Any other control character is written as four hexadecimal digits.
    rename_i hcontrol
    have hlt : c.toNat < 0x20 := UInt8.lt_iff_toNat_lt.mp hcontrol
    have hvalid : c.toNat.isValidChar := .inl (by omega)
    have hbytes := encode_ascii (show c.toNat < 0x80 by omega)
    obtain ⟨digits, hdigits, hhex⟩ :=
      readHex4_iff.mp (readHex4_hex4 (show c.toNat < 0x10000 by omega) [])
    rw [List.append_nil, List.append_nil] at hdigits
    have hescape : Escape (byte 'u' :: hex4 c.toNat) [c] := by
      rw [hdigits, ← hbytes]
      exact .basic hhex hvalid
    exact .escape hescape h
  · rename_i hquote hslash hn hr ht hcontrol
    exact .plain ⟨hquote, hslash, hcontrol⟩ h

/-- A character of more than one byte has none below 0x80. -/
theorem encode_high (c : Char) (h : 1 < (String.utf8EncodeChar c).length) :
    ∀ b ∈ String.utf8EncodeChar c, 0x80 ≤ b.toNat := by
  -- Every byte of a longer sequence has its high bit from the marker added to it.
  have hbyte : ∀ {x y : ℕ}, x < 0x40 → 0x80 ≤ y → y ≤ 0xC0 →
      0x80 ≤ (UInt8.ofNat (x + y)).toNat := by
    intro x y hx hy hy'
    rw [Utf8.toNat_ofNat (by omega)]
    omega
  simp only [String.utf8EncodeChar] at h ⊢
  generalize c.val.toNat = v at h ⊢
  split
  · rename_i h₁
    rw [if_pos h₁] at h
    exact absurd h (by simp)
  split
  · intro b hb
    simp only [List.mem_cons, List.not_mem_nil, or_false] at hb
    rcases hb with rfl | rfl
    · exact hbyte (by omega) (by omega) (by omega)
    · exact hbyte (by omega) (by omega) (by omega)
  split
  · intro b hb
    simp only [List.mem_cons, List.not_mem_nil, or_false] at hb
    rcases hb with rfl | rfl | rfl
    · rw [Utf8.toNat_ofNat (by omega)]
      omega
    · exact hbyte (by omega) (by omega) (by omega)
    · exact hbyte (by omega) (by omega) (by omega)
  · intro b hb
    simp only [List.mem_cons, List.not_mem_nil, or_false] at hb
    rcases hb with rfl | rfl | rfl | rfl
    · rw [Utf8.toNat_ofNat (by omega)]
      omega
    · exact hbyte (by omega) (by omega) (by omega)
    · exact hbyte (by omega) (by omega) (by omega)
    · exact hbyte (by omega) (by omega) (by omega)

/-- **The loop of `append_string`** writes a string that stands for the cleaned text. -/
theorem chars_appendChars (turns : ℕ) (text : ByteText) :
    Chars (appendChars turns text) (clean turns text) := by
  induction turns generalizing text with
  | zero => exact .nil
  | succ turns ih =>
    cases text with
    | nil => exact .nil
    | cons c text =>
      rw [appendChars, clean]
      cases hone : Utf8.decodeOne (c :: text) with
      | none =>
        dsimp only
        rw [if_pos (utf8SequenceLength_of_none hone)]
        have hhigh : ∀ b ∈ replacement, 0x80 ≤ b.toNat := by
          intro b hb
          simp only [replacement, List.mem_cons, List.not_mem_nil, or_false] at hb
          rcases hb with rfl | rfl | rfl
          · decide
          · decide
          · decide
        exact chars_high hhigh (ih text)
      | some result =>
        obtain ⟨code, rest⟩ := result
        obtain ⟨-, hbytes⟩ := Utf8.encode_of_decodeOne hone
        have hlength := utf8SequenceLength_of_some hone
        have hencode : (String.utf8EncodeChar (Char.ofNat code)).length =
            utf8SequenceLength (c :: text) := by
          rw [hbytes, List.length_append] at hlength
          rw [hbytes]
          omega
        have hpos : 0 < (String.utf8EncodeChar (Char.ofNat code)).length :=
          List.length_pos_iff.mpr (Utf8.encode_ne_nil _)
        dsimp only
        rw [if_neg (by omega)]
        by_cases hmany : 1 < utf8SequenceLength (c :: text)
        · rw [if_pos hmany, ← hencode, hbytes, List.take_left, List.drop_left]
          exact chars_high (encode_high _ (hencode ▸ hmany)) (ih rest)
        · -- a character of one byte
          rw [if_neg hmany]
          obtain ⟨b, hb⟩ := List.length_eq_one_iff.mp (show
            (String.utf8EncodeChar (Char.ofNat code)).length = 1 by omega)
          rw [hb] at hbytes ⊢
          obtain ⟨rfl, rfl⟩ := List.cons.inj hbytes
          exact chars_escapeByte (ih _)

/-- **A string is read back** as the cleaned text. -/
theorem readString_appendString (text rest : ByteText) :
    readString (appendString text ++ rest) = .ok (clean text.length text, rest) :=
  readString_iff.mpr ⟨_, rfl, _, rfl, chars_appendChars _ _⟩

/-! ### The bytes that are replaced -/

/-- The byte at `i` is part of a character of the text. -/
def InCharacter (text : ByteText) (i : ℕ) : Prop :=
  ∃ before c after, text = before ++ String.utf8EncodeChar c ++ after ∧ before.length ≤ i ∧
    i < before.length + (String.utf8EncodeChar c).length

open Classical in
/-- A text with U+FFFD for every byte that is part of no character. -/
noncomputable def sanitize (text : ByteText) : ByteText :=
  (List.range text.length).flatMap fun i =>
    if InCharacter text i then [text.getD i 0] else replacement

/-- A lead byte is no continuation byte. -/
theorem encode_head (c : Char) :
    ∃ b tail, String.utf8EncodeChar c = b :: tail ∧ ¬ (0x80 ≤ b.toNat ∧ b.toNat < 0xC0) ∧
      ∀ x ∈ tail, 0x80 ≤ x.toNat ∧ x.toNat < 0xC0 := by
  -- Every byte behind the first one is a continuation byte, whatever the length.
  have htail : ∀ {x : ℕ}, x < 0x40 →
      0x80 ≤ (UInt8.ofNat (x + 0x80)).toNat ∧ (UInt8.ofNat (x + 0x80)).toNat < 0xC0 := by
    intro x hx
    rw [Utf8.toNat_ofNat (by omega)]
    omega
  simp only [String.utf8EncodeChar]
  have hlt : c.val.toNat < 0x110000 := by
    rcases c.valid with h | h
    · exact h.trans (by decide)
    · exact h.2
  generalize c.val.toNat = v at hlt ⊢
  split
  · refine ⟨_, _, rfl, ?_, List.forall_mem_nil _⟩
    rw [Utf8.toNat_ofNat (by omega)]
    omega
  split
  · refine ⟨_, _, rfl, ?_, ?_⟩
    · rw [Utf8.toNat_ofNat (by omega)]
      omega
    · intro x hx
      simp only [List.mem_cons, List.not_mem_nil, or_false] at hx
      rw [hx]
      exact htail (by omega)
  split
  · refine ⟨_, _, rfl, ?_, ?_⟩
    · rw [Utf8.toNat_ofNat (by omega)]
      omega
    · intro x hx
      simp only [List.mem_cons, List.not_mem_nil, or_false] at hx
      rcases hx with rfl | rfl
      · exact htail (by omega)
      · exact htail (by omega)
  · refine ⟨_, _, rfl, ?_, ?_⟩
    · rw [Utf8.toNat_ofNat (by omega)]
      omega
    · intro x hx
      simp only [List.mem_cons, List.not_mem_nil, or_false] at hx
      rcases hx with rfl | rfl | rfl
      · exact htail (by omega)
      · exact htail (by omega)
      · exact htail (by omega)

/-- The characters after the first one are those of the rest: no character begins inside it. -/
theorem inCharacter_append {c : Char} {rest : ByteText} {i : ℕ}
    (hi : (String.utf8EncodeChar c).length ≤ i) :
    InCharacter (String.utf8EncodeChar c ++ rest) i ↔
      InCharacter rest (i - (String.utf8EncodeChar c).length) := by
  constructor
  · rintro ⟨before, d, after, heq, hbefore, hlt⟩
    rw [List.append_assoc, List.append_eq_append_iff] at heq
    rcases heq with ⟨before', rfl, rfl⟩ | ⟨mid, hmid, heq⟩
    · rw [List.length_append] at hbefore hlt
      exact ⟨before', d, after, (List.append_assoc ..).symm, by omega, by omega⟩
    · cases before with
      | nil =>
        -- the first character itself
        rw [List.nil_append] at hmid
        have hsame := Utf8.decodeOne_encode d after
        rw [heq, ← hmid, Utf8.decodeOne_encode c rest] at hsame
        obtain ⟨hcode, -⟩ := Prod.mk.inj (Option.some_inj.mp hsame)
        rw [Char.toNat_inj.mp hcode] at hi
        rw [List.length_nil] at hlt
        omega
      | cons b before =>
        cases mid with
        | nil =>
          have hrest : rest = String.utf8EncodeChar d ++ after := heq.symm
          rw [List.append_nil] at hmid
          rw [hmid] at hi ⊢
          exact ⟨[], d, after, hrest, Nat.zero_le _, by rw [List.length_nil]; omega⟩
        | cons m mid =>
          obtain ⟨b₁, tail₁, hc, -, htail⟩ := encode_head c
          obtain ⟨b₂, tail₂, hd, hlead, -⟩ := encode_head d
          rw [hc] at hmid
          obtain ⟨-, rfl⟩ := List.cons.inj hmid
          rw [hd] at heq
          obtain ⟨rfl, -⟩ := List.cons.inj heq
          exact absurd (htail b₂ (List.mem_append_right _ (List.mem_cons_self ..))) hlead
  · rintro ⟨before, d, after, rfl, hbefore, hlt⟩
    refine ⟨String.utf8EncodeChar c ++ before, d, after, by simp, ?_, ?_⟩
    · rw [List.length_append]
      omega
    · rw [List.length_append]
      omega

/-- No character begins with a byte that begins none. -/
theorem inCharacter_cons {b : UInt8} {rest : ByteText} (h : Utf8.decodeOne (b :: rest) = none)
    (i : ℕ) : InCharacter (b :: rest) i ↔ ∃ j, i = j + 1 ∧ InCharacter rest j := by
  constructor
  · rintro ⟨before, c, after, heq, hbefore, hlt⟩
    cases before with
    | nil =>
      rw [List.nil_append] at heq
      rw [heq, Utf8.decodeOne_encode] at h
      cases h
    | cons x before =>
      obtain ⟨-, rfl⟩ := List.cons.inj heq
      rw [List.length_cons] at hbefore hlt
      exact ⟨i - 1, by omega, before, c, after, rfl, by omega, by omega⟩
  · rintro ⟨j, rfl, before, c, after, rfl, hbefore, hlt⟩
    refine ⟨b :: before, c, after, rfl, ?_, ?_⟩
    · rw [List.length_cons]
      omega
    · rw [List.length_cons]
      omega

/-- The bytes of a text by their positions. -/
theorem flatMap_getD (bytes rest : ByteText) :
    (List.range bytes.length).flatMap (fun i => [(bytes ++ rest).getD i 0]) = bytes := by
  induction bytes with
  | nil => rfl
  | cons b bytes ih =>
    rw [List.length_cons, List.range_succ_eq_map, List.flatMap_cons, List.flatMap_map]
    exact congrArg (b :: ·) ih

/-- One character, and the rest of the text. -/
theorem sanitize_append (c : Char) (rest : ByteText) :
    sanitize (String.utf8EncodeChar c ++ rest) = String.utf8EncodeChar c ++ sanitize rest := by
  rw [sanitize, List.length_append, List.range_add, List.flatMap_append]
  congr 1
  · refine Eq.trans (List.flatMap_congr fun i hi => ?_)
      (flatMap_getD (String.utf8EncodeChar c) rest)
    have hlt := List.mem_range.mp hi
    rw [if_pos ⟨[], c, rest, rfl, Nat.zero_le _, by rw [List.length_nil]; omega⟩]
  · rw [sanitize, List.flatMap_map]
    refine List.flatMap_congr fun i _ => ?_
    have hsame := @inCharacter_append c rest _
      (Nat.le_add_right (String.utf8EncodeChar c).length i)
    rw [Nat.add_sub_cancel_left] at hsame
    rw [List.getD_append_right _ _ _ _ (Nat.le_add_right _ i), Nat.add_sub_cancel_left]
    by_cases hin : InCharacter rest i
    · rw [if_pos hin, if_pos (hsame.mpr hin)]
    · rw [if_neg hin, if_neg (mt hsame.mp hin)]

/-- One byte that begins no character, and the rest of the text. -/
theorem sanitize_cons {b : UInt8} {rest : ByteText} (h : Utf8.decodeOne (b :: rest) = none) :
    sanitize (b :: rest) = replacement ++ sanitize rest := by
  rw [sanitize, List.length_cons, List.range_succ_eq_map, List.flatMap_cons, List.flatMap_map,
    sanitize]
  have hfirst : ¬ InCharacter (b :: rest) 0 := by
    intro hin
    obtain ⟨j, hj, -⟩ := (inCharacter_cons h 0).mp hin
    omega
  rw [if_neg hfirst]
  congr 1
  refine List.flatMap_congr fun i _ => ?_
  have hsame : InCharacter (b :: rest) (i + 1) ↔ InCharacter rest i := by
    rw [inCharacter_cons h]
    constructor
    · rintro ⟨j, hj, hin⟩
      rwa [Nat.succ.inj hj]
    · intro hin
      exact ⟨i, rfl, hin⟩
  rw [Nat.succ_eq_add_one, List.getD_cons_succ]
  by_cases hin : InCharacter rest i
  · rw [if_pos hin, if_pos (hsame.mpr hin)]
  · rw [if_neg hin, if_neg (mt hsame.mp hin)]

/-- **The text is cleaned at each byte that is part of no character.** -/
theorem clean_eq {turns : ℕ} {text : ByteText} (h : text.length ≤ turns) :
    clean turns text = sanitize text := by
  induction turns generalizing text with
  | zero =>
    rw [List.length_eq_zero_iff.mp (Nat.le_zero.mp h)]
    rfl
  | succ turns ih =>
    cases text with
    | nil => rfl
    | cons b text =>
      rw [List.length_cons] at h
      rw [clean]
      cases hone : Utf8.decodeOne (b :: text) with
      | none =>
        dsimp only
        rw [sanitize_cons hone, ih (by omega)]
      | some result =>
        obtain ⟨code, rest⟩ := result
        obtain ⟨-, hbytes⟩ := Utf8.encode_of_decodeOne hone
        -- A character takes at least one byte, so the turns suffice.
        have hpos : 0 < (String.utf8EncodeChar (Char.ofNat code)).length :=
          List.length_pos_iff.mpr (Utf8.encode_ne_nil _)
        have hlength := congrArg List.length hbytes
        rw [List.length_cons, List.length_append] at hlength
        dsimp only
        rw [hbytes, sanitize_append, ih (by omega)]

/-- **A text in UTF-8 is not changed.** -/
theorem sanitize_eq (chars : List Char) :
    sanitize (chars.flatMap String.utf8EncodeChar) = chars.flatMap String.utf8EncodeChar := by
  induction chars with
  | nil => rfl
  | cons c chars ih => rw [List.flatMap_cons, sanitize_append, ih]

end Calibration
