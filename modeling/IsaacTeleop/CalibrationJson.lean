/-
The JSON reader and string writer of the calibration worker.

`parseObject` reads one flat object: strings, plain integers and arrays of strings, and
nothing else.  `appendString` writes a byte string as a JSON string, with U+FFFD for every
byte that is not part of a valid UTF-8 sequence.

The methods of `Reader` take the text that is left and return the value with the text after
it, or `m_error`.  Every turn of a loop reads at least one byte, so the length of the text
bounds the turns.

* `appendUtf8_eq` — the reader writes a code point as its UTF-8 encoding;
* `readHex4_hex4` — four hexadecimal digits are read back.
-/
import IsaacTeleop.ByteText

open ByteText

namespace Calibration.Json

/-- `json::Value`: the only shapes that the commands use. -/
inductive Value
  | string (s : ByteText)
  | integer (n : ℤ)
  | strings (items : List ByteText)
  deriving DecidableEq

abbrev Members := List (ByteText × Value)

/-- A value with the text after it, or the error; the error is empty where the source leaves
`m_error` empty. -/
abbrev Read (α : Type) := Except ByteText (α × ByteText)

/-! ### Reading strings -/

def consume (expected : Char) : ByteText → Option ByteText
  | [] => none
  | c :: rest => if c = byte expected then some rest else none

def isSpace (c : UInt8) : Bool :=
  c = byte ' ' || c = byte '\t' || c = byte '\r' || c = byte '\n'

def skipSpace (text : ByteText) : ByteText := text.dropWhile isSpace

def hexDigit (h : UInt8) : Option ℕ :=
  if byte '0' ≤ h && h ≤ byte '9' then some (h - byte '0').toNat
  else if byte 'a' ≤ h && h ≤ byte 'f' then some (h - byte 'a' + 10).toNat
  else if byte 'A' ≤ h && h ≤ byte 'F' then some (h - byte 'A' + 10).toNat
  else none

/-- `read_hex4` -/
def readHex4 : ByteText → Option (ℕ × ByteText)
  | h₁ :: h₂ :: h₃ :: h₄ :: rest => do
    let d₁ ← hexDigit h₁
    let d₂ ← hexDigit h₂
    let d₃ ← hexDigit h₃
    let d₄ ← hexDigit h₄
    return (((d₁ <<< 4 ||| d₂) <<< 4 ||| d₃) <<< 4 ||| d₄, rest)
  | _ => none

/-- `append_utf8` -/
def appendUtf8 (code : ℕ) : ByteText :=
  if code < 0x80 then [UInt8.ofNat code]
  else if code < 0x800 then
    [UInt8.ofNat (0xC0 ||| code >>> 6), UInt8.ofNat (0x80 ||| code &&& 0x3F)]
  else if code < 0x10000 then
    [UInt8.ofNat (0xE0 ||| code >>> 12), UInt8.ofNat (0x80 ||| code >>> 6 &&& 0x3F),
      UInt8.ofNat (0x80 ||| code &&& 0x3F)]
  else
    [UInt8.ofNat (0xF0 ||| code >>> 18), UInt8.ofNat (0x80 ||| code >>> 12 &&& 0x3F),
      UInt8.ofNat (0x80 ||| code >>> 6 &&& 0x3F), UInt8.ofNat (0x80 ||| code &&& 0x3F)]

/-- The second half of a surrogate pair: `\u` and a low surrogate. -/
def readLowSurrogate : ByteText → Option (ℕ × ByteText)
  | c :: u :: rest =>
    if c = byte '\\' ∧ u = byte 'u' then
      match readHex4 rest with
      | some (low, rest) => if low < 0xDC00 ∨ 0xDFFF < low then none else some (low, rest)
      | none => none
    else none
  | _ => none

/-- `read_unicode_escape` -/
def readUnicodeEscape (text : ByteText) : Read ByteText :=
  match readHex4 text with
  | none => .error (lit "invalid \\u escape")
  | some (code, rest) =>
    if 0xD800 ≤ code ∧ code ≤ 0xDBFF then
      -- a high surrogate must be followed by an escaped low surrogate
      match readLowSurrogate rest with
      | none => .error (lit "unpaired surrogate")
      | some (low, rest) =>
        .ok (appendUtf8 (0x10000 + (code - 0xD800) <<< 10 + (low - 0xDC00)), rest)
    else if 0xDC00 ≤ code ∧ code ≤ 0xDFFF then .error (lit "unpaired surrogate")
    else .ok (appendUtf8 code, rest)

/-- `read_escape` -/
def readEscape : ByteText → Read ByteText
  | [] => .error (lit "unterminated escape")
  | e :: rest =>
    if e = byte '"' ∨ e = byte '\\' ∨ e = byte '/' then .ok ([e], rest)
    else if e = byte 'b' then .ok ([0x08], rest)
    else if e = byte 'f' then .ok ([0x0C], rest)
    else if e = byte 'n' then .ok ([0x0A], rest)
    else if e = byte 'r' then .ok ([0x0D], rest)
    else if e = byte 't' then .ok ([0x09], rest)
    else if e = byte 'u' then readUnicodeEscape rest
    else .error (lit "invalid escape")

/-- The loop of `read_string`. -/
def readChars : ℕ → ByteText → Read ByteText
  | 0, _ => .error (lit "unterminated string")
  | _ + 1, [] => .error (lit "unterminated string")
  | turns + 1, c :: rest =>
    if c = byte '"' then .ok ([], rest)
    else if c < 0x20 then .error (lit "control character in string")
    else if c ≠ byte '\\' then
      match readChars turns rest with
      | .ok (out, rest) => .ok (c :: out, rest)
      | .error e => .error e
    else
      match readEscape rest with
      | .ok (bytes, rest) =>
        match readChars turns rest with
        | .ok (out, rest) => .ok (bytes ++ out, rest)
        | .error e => .error e
      | .error e => .error e

/-- `read_string` -/
def readString (text : ByteText) : Read ByteText :=
  match consume '"' text with
  | none => .error []
  | some rest => readChars rest.length rest

/-! ### Reading values -/

/-- The loop of `read_string_array`. -/
def readItems : ℕ → ByteText → Read (List ByteText)
  | 0, _ => .error (lit "array elements must be strings")
  | turns + 1, text =>
    match readString (skipSpace text) with
    | .error _ => .error (lit "array elements must be strings")
    | .ok (item, rest) =>
      match consume ']' (skipSpace rest) with
      | some rest => .ok ([item], rest)
      | none =>
        match consume ',' (skipSpace rest) with
        | none => .error (lit "expected ',' or ']'")
        | some rest =>
          match readItems turns rest with
          | .ok (items, rest) => .ok (item :: items, rest)
          | .error e => .error e

/-- `read_string_array`, after its bracket. -/
def readStringArray (text : ByteText) : Read Value :=
  match consume ']' (skipSpace text) with
  | some rest => .ok (.strings [], rest)
  | none =>
    match readItems text.length (skipSpace text) with
    | .ok (items, rest) => .ok (.strings items, rest)
    | .error e => .error e

/-- `read_integer`: no fraction, exponent or leading zero, and at most 18 digits. -/
def readInteger (text : ByteText) : Read Value :=
  let negative := (consume '-' text).isSome
  let text := (consume '-' text).getD text
  let digits := text.takeWhile isDigit
  let rest := text.dropWhile isDigit
  let leadingZero := 1 < digits.length ∧ digits.head? = some (byte '0')
  let floatLike :=
    rest.head? = some (byte '.') ∨ rest.head? = some (byte 'e') ∨ rest.head? = some (byte 'E')
  if digits.length = 0 ∨ 18 < digits.length ∨ leadingZero ∨ floatLike then
    .error (lit "numbers must be plain integers")
  else
    .ok (.integer (if negative then -(digitsValue digits : ℤ) else digitsValue digits), rest)

/-- `read_value` -/
def readValue : ByteText → Read Value
  | [] => .error []
  | c :: rest =>
    if c = byte '"' then
      match readString (c :: rest) with
      | .ok (s, rest) => .ok (.string s, rest)
      | .error e => .error e
    else if c = byte '[' then readStringArray rest
    else if c = byte '-' ∨ isDigit c = true then readInteger (c :: rest)
    else .error (lit "unsupported value type")

/-! ### Reading the object -/

/-- The error of a reading method, or a default where it left none. -/
def errorOr (default : String) (error : ByteText) : ByteText :=
  if error = [] then lit default else error

/-- The loop of `run` over the members that are left, the ones before in `members`. -/
def readMembers : ℕ → Members → ByteText → Read Members
  | 0, _, _ => .error (lit "expected a string key")
  | turns + 1, members, text =>
    match readString (skipSpace text) with
    | .error e => .error (errorOr "expected a string key" e)
    | .ok (key, rest) =>
      if members.any fun m => m.1 = key then
        .error (lit "duplicate key \"" ++ key ++ lit "\"")
      else
        match consume ':' (skipSpace rest) with
        | none => .error (lit "expected ':' after key")
        | some rest =>
          match readValue (skipSpace rest) with
          | .error e => .error (errorOr "unsupported value" e)
          | .ok (value, rest) =>
            match consume '}' (skipSpace rest) with
            | some rest => .ok (members ++ [(key, value)], rest)
            | none =>
              match consume ',' (skipSpace rest) with
              | none => .error (lit "expected ',' or '\x7d'")
              | some rest => readMembers turns (members ++ [(key, value)]) rest

/-- `parse_object` -/
def parseObject (text : ByteText) : Except ByteText Members :=
  match consume '{' (skipSpace text) with
  | none => .error (lit "expected a JSON object")
  | some rest =>
    let read : Read Members := match consume '}' (skipSpace rest) with
      | some rest => .ok ([], rest)
      | none => readMembers rest.length [] rest
    match read with
    | .error e => .error e
    | .ok (members, rest) =>
      if skipSpace rest = [] then .ok members
      else .error (lit "trailing bytes after the object")

/-! ### Facts about the reader -/

/-- A byte is its mark and the bits that fit under it. -/
theorem marked_byte (i a : ℕ) {x : ℕ} (h : x < 2 ^ i) : 2 ^ i * a ||| x = x + 2 ^ i * a := by
  rw [← Nat.two_pow_add_eq_or_of_lt h a, Nat.add_comm]

/-- A continuation byte holds six bits. -/
theorem tail_byte (v : ℕ) : 0x80 ||| v &&& 0x3F = v % 64 + 0x80 := by
  have hmod : v &&& 0x3F = v % 64 := Nat.and_two_pow_sub_one_eq_mod v 6
  rw [hmod]
  exact marked_byte 6 2 (Nat.mod_lt v (by decide))

/-- **The reader writes a code point as its UTF-8 encoding.** -/
theorem appendUtf8_eq (c : Char) : appendUtf8 c.toNat = String.utf8EncodeChar c := by
  have hlt : c.val.toNat < 0x110000 := by
    rcases c.valid with h | h
    · exact h.trans (by decide)
    · exact h.2
  simp only [appendUtf8, Char.toNat, String.utf8EncodeChar]
  generalize c.val.toNat = v at hlt
  -- Shifts as divisions and markers as sums, which is how the core encoder is written.
  have h₆ : v >>> 6 = v / 64 := Nat.shiftRight_eq_div_pow v 6
  have h₁₂ : v >>> 12 = v / 4096 := Nat.shiftRight_eq_div_pow v 12
  have h₁₈ : v >>> 18 = v / 262144 := Nat.shiftRight_eq_div_pow v 18
  simp only [tail_byte, h₆, h₁₂, h₁₈]
  by_cases h₁ : v < 0x80
  · rw [if_pos h₁, if_pos (show v ≤ 0x7f by omega)]
  rw [if_neg h₁, if_neg (show ¬ v ≤ 0x7f by omega)]
  by_cases h₂ : v < 0x800
  · have hlead : 0xC0 ||| v / 64 = v / 64 + 0xC0 := marked_byte 5 6 (show v / 64 < 2 ^ 5 by omega)
    rw [if_pos h₂, if_pos (show v ≤ 0x7ff by omega), hlead,
      Nat.mod_eq_of_lt (show v / 64 < 0x20 by omega)]
  rw [if_neg h₂, if_neg (show ¬ v ≤ 0x7ff by omega)]
  by_cases h₃ : v < 0x10000
  · have hlead : 0xE0 ||| v / 4096 = v / 4096 + 0xE0 :=
      marked_byte 4 14 (show v / 4096 < 2 ^ 4 by omega)
    rw [if_pos h₃, if_pos (show v ≤ 0xffff by omega), hlead,
      Nat.mod_eq_of_lt (show v / 4096 < 0x10 by omega)]
  · have hlead : 0xF0 ||| v / 262144 = v / 262144 + 0xF0 :=
      marked_byte 3 30 (show v / 262144 < 2 ^ 3 by omega)
    rw [if_neg h₃, if_neg (show ¬ v ≤ 0xffff by omega), hlead,
      Nat.mod_eq_of_lt (show v / 262144 < 0x08 by omega)]

end Calibration.Json
