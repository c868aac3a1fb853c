/-
Python strings, their bytes and their JSON text.

A `str` is a sequence of code points, lone surrogates included.  `json.dumps` writes ASCII: it
escapes every other character as `\uXXXX`, and one outside the basic plane as a surrogate
pair.

* `PyStr.utf8` — the UTF-8 encoding of a string without lone surrogates;
* `PyStr.decode`, `PyStr.decodeReplace` — `bytes.decode("utf-8")`, strict and with replacements;
* `PyStr.dumps` — a string as `json.dumps` writes it.
-/
import IsaacTeleop.Utf8

open ByteText

/-- The code points of a `str`. -/
abbrev PyStr := List ℕ

namespace PyStr

instance : LawfulBEq PyStr := inferInstanceAs (LawfulBEq (List ℕ))

def ofString (s : String) : PyStr := s.toList.map Char.toNat

/-- No lone surrogate, so that the string has a UTF-8 encoding. -/
def IsText (s : PyStr) : Prop := ∀ c ∈ s, c.isValidChar

instance (s : PyStr) : Decidable s.IsText :=
  inferInstanceAs (Decidable (∀ c ∈ s, c.isValidChar))

/-- `str.encode("utf-8")` of a string without lone surrogates. -/
def utf8 (s : PyStr) : ByteText := s.flatMap fun c => String.utf8EncodeChar (Char.ofNat c)

theorem utf8_cons (c : ℕ) (s : PyStr) :
    utf8 (c :: s) = String.utf8EncodeChar (Char.ofNat c) ++ utf8 s := rfl

@[simp] theorem utf8_ofString (s : String) : utf8 (ofString s) = lit s := by
  have hchars : utf8 (ofString s) = s.toList.flatMap String.utf8EncodeChar := by
    simp [utf8, ofString, List.flatMap_map]
  rw [hchars, lit, String.toUTF8_eq_toByteArray, ← String.utf8Encode_toList, List.utf8Encode]
  simp

theorem isText_ofString (s : String) : (ofString s).IsText := by
  intro c hc
  obtain ⟨d, -, rfl⟩ := List.mem_map.mp hc
  exact d.valid

/-- The code point of a character. -/
abbrev ch (c : Char) : ℕ := c.toNat

/-! ### Bytes -/

/-- `bytes.decode("utf-8")`, or nothing for a `UnicodeDecodeError`. -/
def decode (bytes : ByteText) : Option PyStr := Utf8.decode bytes

/-- The bytes at the front that `errors="replace"` gives one replacement character for: the
longest part that could start a character, or else a single byte. -/
def malformedPart : ByteText → ℕ
  | lead :: second :: rest =>
    let low := if lead = 0xE0 then 0xA0 else if lead = 0xF0 then 0x90 else 0x80
    let high := if lead = 0xED then 0x9F else if lead = 0xF4 then 0x8F else 0xBF
    if 0xE0 ≤ lead ∧ lead ≤ 0xF4 ∧ low ≤ second ∧ second ≤ high then
      if 0xF0 ≤ lead ∧ rest.head?.any (fun third => 0x80 ≤ third && third ≤ 0xBF) then 3 else 2
    else 1
  | _ => 1

def decodeReplaceLoop : ℕ → ByteText → PyStr
  | 0, _ => []
  | _ + 1, [] => []
  | turns + 1, b :: bytes =>
    match Utf8.decodeOne (b :: bytes) with
    | some (code, rest) => code :: decodeReplaceLoop turns rest
    | none => 0xFFFD :: decodeReplaceLoop turns ((b :: bytes).drop (malformedPart (b :: bytes)))

/-- `bytes.decode("utf-8", errors="replace")`; every character takes at least one byte. -/
def decodeReplace (bytes : ByteText) : PyStr := decodeReplaceLoop bytes.length bytes

-- A truncated character, a stray continuation byte and an encoded surrogate.
example : decodeReplace [0x61, 0xE2, 0x82, 0x62, 0x80, 0xED, 0xA0, 0x80] =
    [0x61, 0xFFFD, 0x62, 0xFFFD, 0xFFFD, 0xFFFD, 0xFFFD] := by decide

/-! ### Digits -/

/-- The value of a hexadecimal digit. -/
def hexDigit (c : ℕ) : Option ℕ :=
  if ch '0' ≤ c ∧ c ≤ ch '9' then some (c - ch '0')
  else if ch 'a' ≤ c ∧ c ≤ ch 'f' then some (c - ch 'a' + 10)
  else if ch 'A' ≤ c ∧ c ≤ ch 'F' then some (c - ch 'A' + 10)
  else none

/-- The number that decimal digits stand for. -/
def digitsValue (digits : PyStr) : ℕ := digits.foldl (fun n d => n * 10 + (d - ch '0')) 0

/-- `sys.get_int_max_str_digits` -/
def maxStrDigits : ℕ := 4300

/-! ### JSON text -/

/-- A lower-case hexadecimal digit. -/
def hexChar (d : ℕ) : UInt8 := UInt8.ofNat (if d < 10 then d + 48 else d + 87)

/-- Four hexadecimal digits. -/
def hex4 (n : ℕ) : ByteText :=
  [hexChar (n / 4096 % 16), hexChar (n / 256 % 16), hexChar (n / 16 % 16), hexChar (n % 16)]

/-- One character in a JSON string of `json.dumps`. -/
def escapeAscii (c : ℕ) : ByteText :=
  if c = 0x22 then [byte '\\', byte '"']
  else if c = 0x5C then [byte '\\', byte '\\']
  else if c = 0x0A then [byte '\\', byte 'n']
  else if c = 0x0D then [byte '\\', byte 'r']
  else if c = 0x09 then [byte '\\', byte 't']
  else if c = 0x0C then [byte '\\', byte 'f']
  else if c = 0x08 then [byte '\\', byte 'b']
  else if 0x20 ≤ c ∧ c ≤ 0x7E then [UInt8.ofNat c]
  else if c < 0x10000 then byte '\\' :: byte 'u' :: hex4 c
  else
    let n := c - 0x10000
    byte '\\' :: byte 'u' :: hex4 (0xD800 ||| n >>> 10 &&& 0x3FF)
      ++ byte '\\' :: byte 'u' :: hex4 (0xDC00 ||| n &&& 0x3FF)

/-- `json.dumps` of a string. -/
def dumps (s : PyStr) : ByteText := byte '"' :: (s.flatMap escapeAscii ++ [byte '"'])

end PyStr
