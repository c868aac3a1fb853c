/-
The commands of the calibration worker on the wire.

`encodeStart`, `encodeConfirm` and `encodeCancel` are the supervisor's, in Python, and write
one line with `json.dumps`; `parseCommand` is the worker's, in C++, and reads it with its own
JSON reader.  The two validate a command each in its own way.

* `readChars_dumps` — the reader takes a string of `json.dumps` back as its UTF-8 bytes;
* `parseObject_line` — and a whole line as its members;
* `command_round_trip` — every command the supervisor can encode is read as that command.
-/
import IsaacTeleop.CalibrationJson
import IsaacTeleop.CalibrationProtocol
import IsaacTeleop.PythonText

open ByteText

namespace Calibration

open Json

/-! ### Encoding, in Python -/

/-- The values in a command, as `json.dumps` takes them. -/
inductive Field
  | int (n : ℕ)
  | str (s : PyStr)
  | list (items : List PyStr)

def Field.dumps : Field → ByteText
  | .int n => decimal n
  | .str s => s.dumps
  | .list items => byte '[' :: ([byte ','].intercalate (items.map PyStr.dumps) ++ [byte ']'])

/-- `json.dumps` of a dict with the separators of `_line`. -/
def dumpsDict (fields : List (PyStr × Field)) : ByteText :=
  byte '{' :: ([byte ','].intercalate (fields.map fun f => f.1.dumps ++ byte ':' :: f.2.dumps)
    ++ [byte '}'])

/-- `_line` -/
def line (fields : List (PyStr × Field)) : ByteText := dumpsDict fields ++ [byte '\n']

/-- A character of `[A-Za-z0-9_-]`. -/
def isAttemptChar (c : ℕ) : Bool :=
  (0x41 ≤ c && c ≤ 0x5A) || (0x61 ≤ c && c ≤ 0x7A) || (0x30 ≤ c && c ≤ 0x39) || c = 0x5F
    || c = 0x2D

/-- `_ATTEMPT_RE.fullmatch` -/
def attemptMatches (attempt : PyStr) : Bool :=
  1 ≤ attempt.length && attempt.length ≤ 64 && attempt.all isAttemptChar

/-- `side.value` -/
def sideValue : Side → PyStr
  | .left => PyStr.ofString "left"
  | .right => PyStr.ofString "right"

def commandFields (type : String) (attempt : PyStr) : List (PyStr × Field) :=
  [(PyStr.ofString "v", .int 1), (PyStr.ofString "type", .str (PyStr.ofString type)),
    (PyStr.ofString "attempt", .str attempt)]

/-- The sides in the order of the enumeration. -/
def orderedSides (sides : List Side) : List Side := [Side.left, Side.right].filter (· ∈ sides)

/-- `encode_start` -/
def encodeStart (attempt : PyStr) (sides : List Side) (outDir : PyStr) :
    Except String ByteText :=
  if ¬ attemptMatches attempt then
    .error "attempt must be 1-64 characters of [A-Za-z0-9_-]"
  else if sides = [] ∨ ¬ sides.Nodup then
    .error "sides must be a nonempty set of unique sides"
  else .ok (line (commandFields "start" attempt ++
    [(PyStr.ofString "sides", .list ((orderedSides sides).map sideValue)),
      (PyStr.ofString "out_dir", .str outDir)]))

/-- `encode_confirm` -/
def encodeConfirm (attempt token : PyStr) : ByteText :=
  line (commandFields "confirm" attempt ++ [(PyStr.ofString "token", .str token)])

/-- `encode_cancel` -/
def encodeCancel (attempt : PyStr) : ByteText := line (commandFields "cancel" attempt)

/-! ### Parsing, in C++ -/

def kMaxMessageBytes : ℕ := 65536
def kMaxAttemptChars : ℕ := 64
def kMaxTokenChars : ℕ := 128
def kMaxPathChars : ℕ := 4096

/-- `std::isalnum` in the "C" locale. -/
def isAlnum (c : UInt8) : Bool :=
  (byte '0' ≤ c && c ≤ byte '9') || (byte 'A' ≤ c && c ≤ byte 'Z')
    || (byte 'a' ≤ c && c ≤ byte 'z')

/-- `valid_attempt` -/
def validAttempt (attempt : ByteText) : Bool :=
  attempt ≠ [] && attempt.length ≤ kMaxAttemptChars &&
    attempt.all fun c => isAlnum c || c = byte '_' || c = byte '-'

/-- `valid_token` -/
def validToken (token : ByteText) : Bool :=
  token ≠ [] && token.length ≤ kMaxTokenChars && token.all fun c => 0x20 < c && c < 0x7F

/-- `FieldReader::find` -/
def find (members : Members) (key : String) : Option Value :=
  (members.find? fun m => m.1 = lit key).map Prod.snd

/-- `FieldReader::unknown_key` -/
def unknownKey (members : Members) (allowed : List String) : Option ByteText :=
  (members.find? fun m => m.1 ∉ allowed.map lit).map Prod.fst

/-- `FieldReader::string_field` -/
def stringField (members : Members) (key : String) : Option ByteText :=
  match find members key with
  | some (.string s) => some s
  | _ => none

/-- `invalid` -/
def invalid (command message : ByteText) (attempt : Option ByteText) : RejectedEvent where
  attempt := attempt
  command := command
  reason := .invalid
  message := message
  token := none

/-- The checks on keys and attempt with which every command starts. -/
def parseAttempt (members : Members) (command : String) (allowed : List String) :
    Except RejectedEvent ByteText :=
  match unknownKey members allowed with
  | some unknown =>
    .error (invalid (lit command) (lit "unknown key \"" ++ unknown ++ lit "\"") none)
  | none =>
    match (stringField members "attempt").filter validAttempt with
    | none =>
      .error (invalid (lit command) (lit "attempt must be 1-64 characters of [A-Za-z0-9_-]") none)
    | some attempt => .ok attempt

/-- The loop of `parse_start` over the names of the sides, with what was seen before. -/
def readSides (seenLeft seenRight : Bool) : List ByteText → Except ByteText (Bool × Bool)
  | [] => .ok (seenLeft, seenRight)
  | name :: names =>
    if name = lit "left" then
      if seenLeft then .error (lit "sides must not repeat a side")
      else readSides true seenRight names
    else if name = lit "right" then
      if seenRight then .error (lit "sides must not repeat a side")
      else readSides seenLeft true names
    else .error (lit "sides entries must be \"left\" or \"right\"")

/-- The sides in processing order. -/
def processingOrder (left right : Bool) : List Side :=
  (if left then [Side.left] else []) ++ if right then [Side.right] else []

theorem processingOrder_ordered (left right : Bool) :
    (processingOrder left right).Pairwise fun a b => a = .left ∧ b = .right := by
  cases left <;> cases right <;> simp [processingOrder]

/-- What was seen stays seen. -/
theorem readSides_seen {seenLeft seenRight : Bool} {names : List ByteText} {seen : Bool × Bool}
    (h : readSides seenLeft seenRight names = .ok seen) :
    (seenLeft = true ∨ seenRight = true ∨ names ≠ []) → seen.1 = true ∨ seen.2 = true := by
  induction names generalizing seenLeft seenRight with
  | nil =>
    obtain rfl := Except.ok.inj h
    simp
  | cons name names ih =>
    intro _
    rw [readSides] at h
    split at h
    · split at h
      · cases h
      · exact ih h (.inl rfl)
    · split at h
      · split at h
        · cases h
        · exact ih h (.inr (.inl rfl))
      · cases h

theorem processingOrder_ne_nil {names : List ByteText} {left right : Bool} (hne : names ≠ [])
    (h : readSides false false names = .ok (left, right)) : processingOrder left right ≠ [] := by
  rcases readSides_seen h (.inr (.inr hne)) with hleft | hright
  · simp_all [processingOrder]
  · simp_all [processingOrder]

/-- The path checks of `parse_start`. -/
def validOutDir (outDir : ByteText) : Bool :=
  outDir ≠ [] && outDir.length ≤ kMaxPathChars && outDir.head? = some (byte '/') &&
    !outDir.contains 0

/-- `parse_start` -/
def parseStart (members : Members) : Except RejectedEvent Command :=
  match parseAttempt members "start" ["v", "type", "attempt", "sides", "out_dir"] with
  | .error e => .error e
  | .ok attempt =>
    match find members "sides" with
    | some (.strings names) =>
      if hne : names = [] then
        .error (invalid (lit "start") (lit "sides must be a non-empty array") (some attempt))
      else
        match hread : readSides false false names with
        | .error message => .error (invalid (lit "start") message (some attempt))
        | .ok (left, right) =>
          match (stringField members "out_dir").filter validOutDir with
          | none =>
            .error (invalid (lit "start") (lit "out_dir must be an absolute path") (some attempt))
          | some outDir => .ok (.start
            { attempt := attempt
              sides := processingOrder left right
              outDir := outDir
              sides_ne_nil := processingOrder_ne_nil hne hread
              sides_ordered := processingOrder_ordered left right })
    | _ => .error (invalid (lit "start") (lit "sides must be a non-empty array") (some attempt))

/-- `parse_confirm` -/
def parseConfirm (members : Members) : Except RejectedEvent Command :=
  match parseAttempt members "confirm" ["v", "type", "attempt", "token"] with
  | .error e => .error e
  | .ok attempt =>
    match (stringField members "token").filter validToken with
    | none => .error (invalid (lit "confirm")
        (lit "token must be 1-128 printable ASCII characters") (some attempt))
    | some token => .ok (.confirm { attempt := attempt, token := token })

/-- `parse_cancel` -/
def parseCancel (members : Members) : Except RejectedEvent Command :=
  match parseAttempt members "cancel" ["v", "type", "attempt"] with
  | .error e => .error e
  | .ok attempt => .ok (.cancel { attempt := attempt })

/-- `parse_command` -/
def parseCommand (text : ByteText) : Except RejectedEvent Command :=
  if kMaxMessageBytes < text.length then
    .error (invalid (lit "unknown") (lit "message exceeds the size limit") none)
  else
    match parseObject text with
    | .error e => .error (invalid (lit "unknown") (lit "malformed JSON: " ++ e) none)
    | .ok members =>
      match stringField members "type" with
      | none => .error (invalid (lit "unknown") (lit "missing string field \"type\"") none)
      | some type =>
        if find members "v" ≠ some (.integer 1) then
          .error (invalid
            (if type = lit "start" ∨ type = lit "confirm" ∨ type = lit "cancel" then type
              else lit "unknown") (lit "unsupported or missing protocol version") none)
        else if type = lit "start" then parseStart members
        else if type = lit "confirm" then parseConfirm members
        else if type = lit "cancel" then parseCancel members
        else .error (invalid (lit "unknown") (lit "unknown command type") none)

/-! ### Reading strings of `json.dumps` -/

open PyStr

/-- Shifting in a hexadecimal digit. -/
theorem shift_digit (v : ℕ) {d : ℕ} (h : d < 16) : v <<< 4 ||| d = v * 16 + d := by
  rw [← Nat.shiftLeft_add_eq_or_of_lt (i := 4) h, Nat.shiftLeft_eq]

theorem hexDigit_hexChar : ∀ d < 16, hexDigit (hexChar d) = some d := by
  decide

/-- **Four hexadecimal digits are read back.** -/
theorem readHex4_hex4 {n : ℕ} (h : n < 0x10000) (rest : ByteText) :
    readHex4 (hex4 n ++ rest) = some (n, rest) := by
  have h₁ := hexDigit_hexChar (n / 4096 % 16) (Nat.mod_lt _ (by decide))
  have h₂ := hexDigit_hexChar (n / 256 % 16) (Nat.mod_lt _ (by decide))
  have h₃ := hexDigit_hexChar (n / 16 % 16) (Nat.mod_lt _ (by decide))
  have h₄ := hexDigit_hexChar (n % 16) (Nat.mod_lt _ (by decide))
  have hvalue :
      (((n / 4096 % 16) <<< 4 ||| n / 256 % 16) <<< 4 ||| n / 16 % 16) <<< 4 ||| n % 16 = n := by
    rw [shift_digit _ (Nat.mod_lt _ (by decide)), shift_digit _ (Nat.mod_lt _ (by decide)),
      shift_digit _ (Nat.mod_lt _ (by decide))]
    omega
  simp only [hex4, List.cons_append, List.nil_append, readHex4, h₁, h₂, h₃, h₄]
  simp only [Option.bind_eq_bind, Option.bind_some, hvalue]
  rfl

/-- An escaped code point of the basic plane. -/
theorem readUnicodeEscape_basic {c : ℕ} (hc : c.isValidChar) (h : c < 0x10000)
    (rest : ByteText) :
    readUnicodeEscape (hex4 c ++ rest) = .ok (String.utf8EncodeChar (Char.ofNat c), rest) := by
  have hchar : (Char.ofNat c).toNat = c := by
    rw [Char.toNat_ofNat, if_pos hc]
  simp only [readUnicodeEscape, readHex4_hex4 h]
  have hnot : ¬ (0xD800 ≤ c ∧ c ≤ 0xDBFF) ∧ ¬ (0xDC00 ≤ c ∧ c ≤ 0xDFFF) := by
    rcases hc with hc | hc
    · omega
    · omega
  rw [if_neg hnot.1, if_neg hnot.2, ← appendUtf8_eq, hchar]

/-- A high surrogate and the low one after it. -/
theorem readUnicodeEscape_surrogates {text rest rest' : ByteText} {high low : ℕ}
    (hhex : readHex4 text = some (high, rest)) (hhigh : 0xD800 ≤ high ∧ high ≤ 0xDBFF)
    (hlow : readLowSurrogate rest = some (low, rest')) :
    readUnicodeEscape text =
      .ok (appendUtf8 (0x10000 + (high - 0xD800) <<< 10 + (low - 0xDC00)), rest') := by
  rw [readUnicodeEscape, hhex]
  dsimp only
  rw [if_pos hhigh, hlow]

/-- The two halves of a code point outside the basic plane. -/
theorem surrogates {n : ℕ} (h : n < 0x100000) :
    (0xD800 ||| n >>> 10 &&& 0x3FF) = 0xD800 + n / 1024 ∧
      (0xDC00 ||| n &&& 0x3FF) = 0xDC00 + n % 1024 := by
  have hhigh : n >>> 10 &&& 0x3FF = n / 1024 := by
    have hmask : n >>> 10 &&& 0x3FF = n >>> 10 % 2 ^ 10 := Nat.and_two_pow_sub_one_eq_mod _ 10
    rw [hmask, Nat.shiftRight_eq_div_pow]
    omega
  have hlow : n &&& 0x3FF = n % 1024 := Nat.and_two_pow_sub_one_eq_mod n 10
  rw [hhigh, hlow]
  constructor
  · rw [show 0xD800 = 2 ^ 10 * 54 from rfl,
      marked_byte 10 54 (show n / 1024 < 2 ^ 10 by omega), Nat.add_comm]
  · rw [show 0xDC00 = 2 ^ 10 * 55 from rfl,
      marked_byte 10 55 (show n % 1024 < 2 ^ 10 by omega), Nat.add_comm]

/-- An escaped code point outside the basic plane. -/
theorem readUnicodeEscape_pair {c : ℕ} (hc : c.isValidChar) (h : 0x10000 ≤ c)
    (rest : ByteText) :
    readUnicodeEscape (hex4 (0xD800 ||| (c - 0x10000) >>> 10 &&& 0x3FF) ++
        (byte '\\' :: byte 'u' :: hex4 (0xDC00 ||| c - 0x10000 &&& 0x3FF) ++ rest)) =
      .ok (String.utf8EncodeChar (Char.ofNat c), rest) := by
  have hchar : (Char.ofNat c).toNat = c := by
    rw [Char.toNat_ofNat, if_pos hc]
  have hlt : c < 0x110000 := by
    rcases hc with hc | hc
    · omega
    · exact hc.2
  -- The two surrogates as sums, so that the reader's arithmetic gives the code back.
  obtain ⟨hhigh, hlow⟩ := surrogates (show c - 0x10000 < 0x100000 by omega)
  rw [hhigh, hlow]
  generalize hn : c - 0x10000 = n
  have hread : readLowSurrogate (byte '\\' :: byte 'u' :: hex4 (0xDC00 + n % 1024) ++ rest) =
      some (0xDC00 + n % 1024, rest) := by
    rw [List.cons_append, List.cons_append, readLowSurrogate, if_pos ⟨rfl, rfl⟩,
      readHex4_hex4 (by omega)]
    exact if_neg (by omega)
  have hcode : 0x10000 + (0xD800 + n / 1024 - 0xD800) <<< 10 + (0xDC00 + n % 1024 - 0xDC00)
      = c := by
    rw [Nat.shiftLeft_eq]
    omega
  have hhex := readHex4_hex4 (show 0xD800 + n / 1024 < 0x10000 by omega)
    (byte '\\' :: byte 'u' :: hex4 (0xDC00 + n % 1024) ++ rest)
  rw [readUnicodeEscape_surrogates hhex (by omega) hread, hcode, ← appendUtf8_eq, hchar]

/-- An escape, and what is read after it. -/
theorem readChars_escape {turns : ℕ} {bytes out text rest rest' : ByteText}
    (hescape : readEscape text = .ok (bytes, rest)) (hrest : readChars turns rest = .ok (out, rest')) :
    readChars (turns + 1) (byte '\\' :: text) = .ok (bytes ++ out, rest') := by
  rw [readChars, if_neg (by decide), if_neg (by decide), if_neg (by decide), hescape]
  dsimp only
  rw [hrest]

theorem readEscape_unicode (text : ByteText) :
    readEscape (byte 'u' :: text) = readUnicodeEscape text := rfl

/-- The characters that `json.dumps` leaves as they are. -/
theorem plain_facts : ∀ c < 0x7F, 0x20 ≤ c ∧ c ≠ 0x22 ∧ c ≠ 0x5C →
    UInt8.ofNat c ≠ byte '"' ∧ ¬ UInt8.ofNat c < 0x20 ∧ UInt8.ofNat c ≠ byte '\\' ∧
      String.utf8EncodeChar (Char.ofNat c) = [UInt8.ofNat c] := by
  decide

/-- **One character of `json.dumps` is read as its UTF-8 bytes, in one turn.** -/
theorem readChars_escapeAscii {c turns : ℕ} {out rest rest' : ByteText} (hc : c.isValidChar)
    (h : readChars turns rest = .ok (out, rest')) :
    readChars (turns + 1) (escapeAscii c ++ rest) =
      .ok (String.utf8EncodeChar (Char.ofNat c) ++ out, rest') := by
  rw [escapeAscii]
  -- the short escapes stand for one byte each
  by_cases h₁ : c = 0x22
  · subst h₁
    exact readChars_escape rfl h
  rw [if_neg h₁]
  by_cases h₂ : c = 0x5C
  · subst h₂
    exact readChars_escape rfl h
  rw [if_neg h₂]
  by_cases h₃ : c = 0x0A
  · subst h₃
    exact readChars_escape rfl h
  rw [if_neg h₃]
  by_cases h₄ : c = 0x0D
  · subst h₄
    exact readChars_escape rfl h
  rw [if_neg h₄]
  by_cases h₅ : c = 0x09
  · subst h₅
    exact readChars_escape rfl h
  rw [if_neg h₅]
  by_cases h₆ : c = 0x0C
  · subst h₆
    exact readChars_escape rfl h
  rw [if_neg h₆]
  by_cases h₇ : c = 0x08
  · subst h₇
    exact readChars_escape rfl h
  rw [if_neg h₇]
  by_cases hplain : 0x20 ≤ c ∧ c ≤ 0x7E
  · obtain ⟨hquote, hcontrol, hslash, hutf8⟩ := plain_facts c (by omega) ⟨hplain.1, h₁, h₂⟩
    rw [if_pos hplain, hutf8, List.singleton_append, readChars, if_neg hquote, if_neg hcontrol,
      if_pos hslash, h]
    rfl
  rw [if_neg hplain]
  by_cases hbasic : c < 0x10000
  · rw [if_pos hbasic]
    have hread := readUnicodeEscape_basic hc hbasic rest
    rw [← readEscape_unicode] at hread
    exact readChars_escape hread h
  · rw [if_neg hbasic]
    have hpair := readUnicodeEscape_pair hc (show 0x10000 ≤ c by omega) rest
    simp only [List.cons_append, List.append_assoc] at hpair ⊢
    rw [← readEscape_unicode] at hpair
    exact readChars_escape hpair h

/-- Between one byte and two escapes of six; a character of the basic plane takes one escape. -/
theorem escapeAscii_length (c : ℕ) : 1 ≤ (escapeAscii c).length ∧ (escapeAscii c).length ≤ 12 ∧
    (c < 0x10000 → (escapeAscii c).length ≤ 6) := by
  have htwo : ∀ a b : UInt8, 1 ≤ [a, b].length ∧ [a, b].length ≤ 12 ∧
      (c < 0x10000 → [a, b].length ≤ 6) := by simp
  -- The branches one by one: `split` is slow on a chain of this length.
  rw [escapeAscii]
  by_cases hquote : c = 0x22
  · rw [if_pos hquote]
    exact htwo _ _
  rw [if_neg hquote]
  by_cases hslash : c = 0x5C
  · rw [if_pos hslash]
    exact htwo _ _
  rw [if_neg hslash]
  by_cases hnewline : c = 0x0A
  · rw [if_pos hnewline]
    exact htwo _ _
  rw [if_neg hnewline]
  by_cases hreturn : c = 0x0D
  · rw [if_pos hreturn]
    exact htwo _ _
  rw [if_neg hreturn]
  by_cases htab : c = 0x09
  · rw [if_pos htab]
    exact htwo _ _
  rw [if_neg htab]
  by_cases hfeed : c = 0x0C
  · rw [if_pos hfeed]
    exact htwo _ _
  rw [if_neg hfeed]
  by_cases hback : c = 0x08
  · rw [if_pos hback]
    exact htwo _ _
  rw [if_neg hback]
  by_cases hprintable : 0x20 ≤ c ∧ c ≤ 0x7E
  · rw [if_pos hprintable]
    simp
  rw [if_neg hprintable]
  by_cases hbasic : c < 0x10000
  · rw [if_pos hbasic]
    simp [hex4]
  · rw [if_neg hbasic]
    simp [hex4, hbasic]

theorem length_le_flatMap (s : PyStr) : s.length ≤ (s.flatMap escapeAscii).length := by
  induction s with
  | nil => simp
  | cons c s ih =>
    have hpos := (escapeAscii_length c).1
    simp only [List.length_cons, List.flatMap_cons, List.length_append]
    omega

/-- **A string of `json.dumps` is read back as its UTF-8 bytes.** -/
theorem readChars_dumps {s : PyStr} (hs : s.IsText) {turns : ℕ} (hturns : s.length < turns)
    (rest : ByteText) :
    readChars turns (s.flatMap escapeAscii ++ byte '"' :: rest) = .ok (s.utf8, rest) := by
  induction s generalizing turns with
  | nil =>
    obtain ⟨n, rfl⟩ : ∃ n, turns = n + 1 := ⟨turns - 1, by simp at hturns; omega⟩
    rw [List.flatMap_nil, List.nil_append, readChars, if_pos rfl]
    rfl
  | cons c s ih =>
    obtain ⟨n, rfl⟩ : ∃ n, turns = n + 1 := ⟨turns - 1, by omega⟩
    have hrest : readChars n (s.flatMap escapeAscii ++ byte '"' :: rest) = .ok (utf8 s, rest) := by
      refine ih (fun d hd => hs d (List.mem_cons_of_mem _ hd)) ?_
      simp only [List.length_cons] at hturns
      omega
    rw [List.flatMap_cons, List.append_assoc, utf8_cons]
    exact readChars_escapeAscii (hs c (List.mem_cons_self ..)) hrest

theorem readString_dumps {s : PyStr} (hs : s.IsText) (rest : ByteText) :
    readString (s.dumps ++ rest) = .ok (s.utf8, rest) := by
  have htext : s.dumps ++ rest = byte '"' :: (s.flatMap escapeAscii ++ byte '"' :: rest) := by
    simp [PyStr.dumps]
  have hlength := length_le_flatMap s
  rw [htext, readString, consume, if_pos rfl]
  refine readChars_dumps hs ?_ rest
  simp only [List.length_append, List.length_cons]
  omega

/-! ### Reading the members of a line -/

theorem skipSpace_cons {c : UInt8} (h : isSpace c = false) (rest : ByteText) :
    skipSpace (c :: rest) = c :: rest := by
  rw [skipSpace, List.dropWhile_cons, h]
  rfl

theorem skipSpace_dumps (s : PyStr) (rest : ByteText) :
    skipSpace (s.dumps ++ rest) = s.dumps ++ rest := skipSpace_cons rfl _

theorem intercalate_cons_cons (x y : ByteText) (l : List ByteText) :
    [byte ','].intercalate (x :: y :: l) = x ++ byte ',' :: [byte ','].intercalate (y :: l) := by
  simp [List.intercalate, List.intersperse]

theorem intercalate_singleton (x : ByteText) : [byte ','].intercalate [x] = x := by
  simp [List.intercalate]

/-- The strings of an array, up to its bracket. -/
theorem readItems_dumps {items : List PyStr} (hne : items ≠ []) (hs : ∀ s ∈ items, s.IsText)
    {turns : ℕ} (hturns : items.length ≤ turns) (rest : ByteText) :
    readItems turns ([byte ','].intercalate (items.map PyStr.dumps) ++ byte ']' :: rest) =
      .ok (items.map PyStr.utf8, rest) := by
  induction items generalizing turns with
  | nil => exact absurd rfl hne
  | cons s items ih =>
    obtain ⟨n, rfl⟩ : ∃ n, turns = n + 1 := ⟨turns - 1, by simp at hturns; omega⟩
    have hstring := readString_dumps (hs s (List.mem_cons_self ..))
    cases items with
    | nil =>
      rw [List.map_singleton, intercalate_singleton, readItems, skipSpace_dumps, hstring]
      rfl
    | cons s' items =>
      -- A comma follows, so the array is not closed here.
      have hrest := ih (List.cons_ne_nil _ _) (fun x hx => hs x (List.mem_cons_of_mem _ hx))
        (show (s' :: items).length ≤ n by simp only [List.length_cons] at hturns ⊢; omega)
      rw [List.map_cons, List.map_cons, intercalate_cons_cons, List.append_assoc, readItems,
        skipSpace_dumps, hstring]
      simp only [List.cons_append]
      rw [skipSpace_cons rfl, consume, if_neg (by decide), consume, if_pos rfl]
      dsimp only
      rw [← List.map_cons, hrest]
      rfl

/-- What the worker makes of a value. -/
def Field.value : Field → Value
  | .int n => .integer n
  | .str s => .string (utf8 s)
  | .list items => .strings (items.map utf8)

/-- A number that fits, and strings without lone surrogates. -/
def Field.Ok : Field → Prop
  | .int n => n < 10 ^ 18
  | .str s => s.IsText
  | .list items => ∀ s ∈ items, s.IsText

/-- What may follow a value in an object. -/
def Follows (rest : ByteText) : Prop := ∃ c text, rest = c :: text ∧ (c = byte ',' ∨ c = byte '}')

theorem length_le_intercalate {l : List ByteText} (h : ∀ x ∈ l, x ≠ []) :
    l.length ≤ ([byte ','].intercalate l).length := by
  induction l with
  | nil => simp
  | cons x l ih =>
    have hx : 1 ≤ x.length := List.length_pos_iff.mpr (h x (List.mem_cons_self ..))
    cases l with
    | nil => simpa [intercalate_singleton] using hx
    | cons y l =>
      have hrest := ih fun z hz => h z (List.mem_cons_of_mem _ hz)
      rw [intercalate_cons_cons]
      simp only [List.length_cons, List.length_append] at hrest ⊢
      omega

theorem readInteger_decimal {n : ℕ} (h : n < 10 ^ 18) {rest : ByteText} (hrest : Follows rest) :
    readInteger (decimal n ++ rest) = .ok (.integer n, rest) := by
  obtain ⟨c, text, rfl, hc⟩ := hrest
  -- The character behind the number ends it and does not make it a float.
  have hstop : isDigit c = false ∧ c ≠ byte '.' ∧ c ≠ byte 'e' ∧ c ≠ byte 'E' := by
    rcases hc with rfl | rfl
    · decide
    · decide
  have hminus : consume '-' (decimal n ++ c :: text) = none := by
    obtain ⟨d, digits, hd⟩ := List.exists_cons_of_ne_nil (decimal_ne_nil n)
    have hdigit : isDigit d = true := decimal_isDigit n d (by rw [hd]; exact List.mem_cons_self ..)
    rw [hd, List.cons_append, consume, if_neg]
    rintro rfl
    exact absurd hdigit (by decide)
  have htake : (decimal n ++ c :: text).takeWhile isDigit = decimal n := by
    rw [List.takeWhile_append_of_pos (decimal_isDigit n),
      List.takeWhile_cons_of_neg (by simp [hstop.1]), List.append_nil]
  have hdrop : (decimal n ++ c :: text).dropWhile isDigit = c :: text := by
    rw [List.dropWhile_append_of_pos (decimal_isDigit n),
      List.dropWhile_cons_of_neg (by simp [hstop.1])]
  simp only [readInteger, hminus, Option.getD_none, htake, hdrop]
  rw [if_neg, digitsValue_decimal]
  · rfl
  · have hlength := (decimal_length_le_iff (n := n) (show 0 < 18 by decide)).mpr h
    have hpos := List.length_pos_iff.mpr (decimal_ne_nil n)
    rintro (hzero | hlong | ⟨hlong, hhead⟩ | hfloat)
    · omega
    · omega
    · exact decimal_head hlong hhead
    · simp [hstop] at hfloat

/-- **A value of a command is read back.** -/
theorem readValue_dumps {f : Field} (hf : f.Ok) {rest : ByteText} (hrest : Follows rest) :
    readValue (f.dumps ++ rest) = .ok (f.value, rest) := by
  cases f with
  | int n =>
    -- A number begins with a digit, so neither a string nor a list is tried.
    obtain ⟨d, digits, hd⟩ := List.exists_cons_of_ne_nil (decimal_ne_nil n)
    have hdigit : isDigit d = true := decimal_isDigit n d (by rw [hd]; exact List.mem_cons_self ..)
    have hread := readInteger_decimal hf hrest
    rw [Field.dumps, hd, List.cons_append] at *
    rw [readValue, if_neg, if_neg, if_pos (.inr hdigit)]
    · exact hread
    · rintro rfl
      exact absurd hdigit (by decide)
    · rintro rfl
      exact absurd hdigit (by decide)
  | str s =>
    have hread := readString_dumps hf rest
    rw [Field.dumps]
    rw [PyStr.dumps, List.cons_append] at hread ⊢
    rw [readValue, if_pos rfl, hread]
    rfl
  | list items =>
    rw [Field.dumps, List.cons_append, readValue, if_neg (by decide), if_pos rfl, List.append_assoc,
      List.singleton_append, readStringArray]
    cases items with
    | nil => rfl
    | cons s items =>
      have hlength := length_le_intercalate (l := (s :: items).map PyStr.dumps) (by
        intro x hx
        obtain ⟨s', -, rfl⟩ := List.mem_map.mp hx
        exact List.cons_ne_nil _ _)
      have hturns : (s :: items).length ≤
          ([byte ','].intercalate ((s :: items).map PyStr.dumps) ++ byte ']' :: rest).length := by
        rw [List.length_map] at hlength
        rw [List.length_append]
        omega
      have hitems := readItems_dumps (List.cons_ne_nil s items) hf hturns rest
      -- The first item begins with a quote, so the list is not taken for an empty one.
      have hquote : ∃ text, [byte ','].intercalate ((s :: items).map PyStr.dumps)
          ++ byte ']' :: rest = byte '"' :: text := by
        cases items with
        | nil => exact ⟨_, by rw [List.map_singleton, intercalate_singleton]; rfl⟩
        | cons s' items =>
          exact ⟨_, by rw [List.map_cons, List.map_cons, intercalate_cons_cons]; rfl⟩
      obtain ⟨text, htext⟩ := hquote
      rw [htext] at hitems ⊢
      rw [skipSpace_cons rfl, consume, if_neg (by decide)]
      dsimp only
      rw [hitems]
      rfl

/-- What the worker makes of the members of a line. -/
def membersOf (fields : List (PyStr × Field)) : Members :=
  fields.map fun f => (utf8 f.1, f.2.value)

/-- Fields as they stand in a line. -/
def fieldsText (fields : List (PyStr × Field)) : ByteText :=
  [byte ','].intercalate (fields.map fun f => f.1.dumps ++ byte ':' :: f.2.dumps)

theorem fieldsText_singleton (f : PyStr × Field) :
    fieldsText [f] = f.1.dumps ++ byte ':' :: f.2.dumps := intercalate_singleton _

theorem fieldsText_cons_cons (f f' : PyStr × Field) (fields : List (PyStr × Field)) :
    fieldsText (f :: f' :: fields) =
      f.1.dumps ++ byte ':' :: (f.2.dumps ++ byte ',' :: fieldsText (f' :: fields)) := by
  have h := intercalate_cons_cons (f.1.dumps ++ byte ':' :: f.2.dumps)
    (f'.1.dumps ++ byte ':' :: f'.2.dumps)
    (fields.map fun f => f.1.dumps ++ byte ':' :: f.2.dumps)
  rw [List.append_assoc, List.cons_append] at h
  exact h

theorem skipSpace_field (f : Field) (rest : ByteText) :
    skipSpace (f.dumps ++ rest) = f.dumps ++ rest := by
  cases f with
  | int n =>
    obtain ⟨d, digits, hd⟩ := List.exists_cons_of_ne_nil (decimal_ne_nil n)
    have hdigit : isDigit d = true := decimal_isDigit n d (by rw [hd]; exact List.mem_cons_self ..)
    rw [Field.dumps, hd, List.cons_append]
    refine skipSpace_cons ?_ _
    simp only [isSpace, Bool.or_eq_false_iff, decide_eq_false_iff_not]
    refine ⟨⟨⟨?_, ?_⟩, ?_⟩, ?_⟩
    all_goals
      rintro rfl
      exact absurd hdigit (by decide)
  | str s => exact skipSpace_dumps s rest
  | list items => exact skipSpace_cons rfl _

/-- What the loop over the members does after a member. -/
def readNext (turns : ℕ) (members : Members) (rest : ByteText) : Read Members :=
  match consume '}' (skipSpace rest) with
  | some rest => .ok (members, rest)
  | none =>
    match consume ',' (skipSpace rest) with
    | none => .error (lit "expected ',' or '\x7d'")
    | some rest => readMembers turns members rest

/-- One member of a line, in one turn. -/
theorem readMembers_member {f : PyStr × Field} (hkey : f.1.IsText) (hvalue : f.2.Ok)
    {members : Members} (hnew : (members.any fun m => m.1 = utf8 f.1) = false) (turns : ℕ)
    {rest : ByteText} (hrest : Follows rest) :
    readMembers (turns + 1) members (f.1.dumps ++ byte ':' :: (f.2.dumps ++ rest)) =
      readNext turns (members ++ [(utf8 f.1, f.2.value)]) rest := by
  rw [readMembers, skipSpace_dumps, readString_dumps hkey]
  dsimp only
  rw [hnew, if_neg (by decide), skipSpace_cons rfl, consume, if_pos rfl]
  dsimp only
  rw [skipSpace_field, readValue_dumps hvalue hrest]
  rfl

/-- **The members of a line are read back.** -/
theorem readMembers_dumps {fields : List (PyStr × Field)} (hne : fields ≠ [])
    (hok : ∀ f ∈ fields, f.1.IsText ∧ f.2.Ok) {turns : ℕ} (hturns : fields.length ≤ turns)
    {members : Members} (hkeys : (members ++ membersOf fields).Pairwise fun a b => a.1 ≠ b.1)
    (rest : ByteText) :
    readMembers turns members (fieldsText fields ++ byte '}' :: rest) =
      .ok (members ++ membersOf fields, rest) := by
  induction fields generalizing turns members with
  | nil => exact absurd rfl hne
  | cons f fields ih =>
    obtain ⟨n, rfl⟩ : ∃ n, turns = n + 1 := ⟨turns - 1, by simp at hturns; omega⟩
    obtain ⟨hkey, hvalue⟩ := hok f (List.mem_cons_self ..)
    -- The keys are distinct, so the reader finds no duplicate.
    have hnew : (members.any fun m => m.1 = utf8 f.1) = false := by
      rw [List.any_eq_false]
      intro m hm hsame
      have hpair := (List.pairwise_append.mp hkeys).2.2 m hm _ (List.mem_cons_self ..)
      exact hpair (of_decide_eq_true hsame)
    cases fields with
    | nil =>
      have hturn := readMembers_member hkey hvalue hnew n ⟨_, rest, rfl, .inr rfl⟩
      rw [readNext, skipSpace_cons rfl, consume, if_pos rfl] at hturn
      rw [fieldsText_singleton, List.append_assoc, List.cons_append]
      exact hturn
    | cons f' fields =>
      have hturn := readMembers_member hkey hvalue hnew n
        ⟨_, fieldsText (f' :: fields) ++ byte '}' :: rest, rfl, .inl rfl⟩
      rw [readNext, skipSpace_cons rfl, consume, if_neg (by decide), consume,
        if_pos rfl] at hturn
      have hassoc : members ++ membersOf (f :: f' :: fields) =
          (members ++ [(utf8 f.1, f.2.value)]) ++ membersOf (f' :: fields) := by
        simp [membersOf]
      have hrest := ih (List.cons_ne_nil _ _) (fun x hx => hok x (List.mem_cons_of_mem _ hx))
        (show (f' :: fields).length ≤ n by simp only [List.length_cons] at hturns ⊢; omega)
        (hassoc ▸ hkeys)
      rw [fieldsText_cons_cons]
      simp only [List.append_assoc, List.cons_append]
      rw [hturn, hassoc]
      exact hrest

/-- **A whole line is read as its members.** -/
theorem parseObject_line {fields : List (PyStr × Field)} (hne : fields ≠ [])
    (hok : ∀ f ∈ fields, f.1.IsText ∧ f.2.Ok)
    (hkeys : (membersOf fields).Pairwise fun a b => a.1 ≠ b.1) :
    parseObject (dumpsDict fields) = .ok (membersOf fields) := by
  have hlength : fields.length ≤ (fieldsText fields ++ [byte '}']).length := by
    have hle := length_le_intercalate
      (l := fields.map fun f => f.1.dumps ++ byte ':' :: f.2.dumps) (by
        intro x hx
        obtain ⟨f, -, rfl⟩ := List.mem_map.mp hx
        exact List.cons_ne_nil _ _)
    rw [List.length_map] at hle
    rw [List.length_append]
    exact hle.trans (Nat.le_add_right _ _)
  have hread := @readMembers_dumps fields hne hok _ hlength [] hkeys []
  -- The first key begins with a quote, so the object is not read as empty.
  have hquote : ∃ text, fieldsText fields ++ [byte '}'] = byte '"' :: text := by
    cases fields with
    | nil => exact absurd rfl hne
    | cons f fields =>
      cases fields with
      | nil => exact ⟨_, by rw [fieldsText_singleton]; rfl⟩
      | cons f' fields => exact ⟨_, by rw [fieldsText_cons_cons]; rfl⟩
  obtain ⟨text, htext⟩ := hquote
  rw [dumpsDict, ← fieldsText, parseObject, skipSpace_cons rfl, consume, if_pos rfl]
  dsimp only
  rw [htext] at hread ⊢
  rw [skipSpace_cons rfl, consume, if_neg (by decide)]
  dsimp only
  rw [hread]
  rfl

/-! ### What the two sides accept -/

/-- An ASCII string is its own encoding. -/
theorem utf8_ascii {s : PyStr} (h : ∀ c ∈ s, c < 0x80) : utf8 s = s.map UInt8.ofNat := by
  have hchar : ∀ c < 0x80, String.utf8EncodeChar (Char.ofNat c) = [UInt8.ofNat c] := by decide
  induction s with
  | nil => rfl
  | cons c s ih =>
    rw [utf8_cons, hchar c (h c (List.mem_cons_self ..)),
      ih fun d hd => h d (List.mem_cons_of_mem _ hd)]
    rfl

theorem isText_ascii {s : PyStr} (h : ∀ c ∈ s, c < 0x80) : s.IsText := by
  intro c hc
  have hlt := h c hc
  exact .inl (by omega)

theorem attemptMatches_ascii {attempt : PyStr} (h : attemptMatches attempt = true) :
    ∀ c ∈ attempt, c < 0x80 := by
  intro c hc
  simp only [attemptMatches, Bool.and_eq_true, List.all_eq_true] at h
  have hchar := h.2 c hc
  simp only [isAttemptChar, Bool.or_eq_true, Bool.and_eq_true, decide_eq_true_eq] at hchar
  omega

/-- The two attempt checks agree. -/
theorem validAttempt_utf8 {attempt : PyStr} (h : attemptMatches attempt = true) :
    validAttempt (utf8 attempt) = true := by
  have hbyte : ∀ c < 0x80, isAttemptChar c = true →
      (isAlnum (UInt8.ofNat c) || UInt8.ofNat c = byte '_' || UInt8.ofNat c = byte '-') = true := by
    decide
  have hascii := attemptMatches_ascii h
  rw [utf8_ascii hascii]
  simp only [attemptMatches, Bool.and_eq_true, List.all_eq_true, decide_eq_true_eq] at h
  simp only [validAttempt, Bool.and_eq_true, decide_eq_true_eq, List.length_map, List.all_eq_true]
  refine ⟨⟨?_, h.1.2⟩, ?_⟩
  · intro hnil
    have hzero := congrArg List.length hnil
    simp only [List.length_map, List.length_nil] at hzero
    omega
  · intro b hb
    obtain ⟨c, hc, rfl⟩ := List.mem_map.mp hb
    exact hbyte c (hascii c hc) (h.2 c hc)

/-- A token of 1 to 128 printable ASCII characters other than the space. -/
def IsToken (token : PyStr) : Prop :=
  1 ≤ token.length ∧ token.length ≤ 128 ∧ ∀ c ∈ token, 0x20 < c ∧ c < 0x7F

instance (token : PyStr) : Decidable (IsToken token) :=
  inferInstanceAs (Decidable (1 ≤ token.length ∧ token.length ≤ 128 ∧
    ∀ c ∈ token, 0x20 < c ∧ c < 0x7F))

theorem IsToken.ascii {token : PyStr} (h : IsToken token) : ∀ c ∈ token, c < 0x80 := by
  intro c hc
  have hprintable := h.2.2 c hc
  omega

theorem validToken_utf8 {token : PyStr} (h : IsToken token) : validToken (utf8 token) = true := by
  have hbyte : ∀ c < 0x7F, 0x20 < c → (0x20 : UInt8) < UInt8.ofNat c ∧ UInt8.ofNat c < 0x7F := by
    decide
  rw [utf8_ascii h.ascii]
  simp only [validToken, Bool.and_eq_true, decide_eq_true_eq, List.length_map, List.all_eq_true]
  refine ⟨⟨?_, h.2.1⟩, ?_⟩
  · intro hnil
    have hzero := congrArg List.length hnil
    simp only [List.length_map, List.length_nil] at hzero
    have hpos := h.1
    omega
  · intro b hb
    obtain ⟨c, hc, rfl⟩ := List.mem_map.mp hb
    obtain ⟨hlow, hhigh⟩ := h.2.2 c hc
    exact hbyte c hhigh hlow

/-- An absolute path without NUL or lone surrogates, of at most 4096 UTF-8 bytes. -/
structure IsOutDir (outDir : PyStr) : Prop where
  isText : outDir.IsText
  absolute : outDir.head? = some 0x2F
  noNul : 0 ∉ outDir
  short : (utf8 outDir).length ≤ 4096

/-- Only NUL is encoded with a zero byte. -/
theorem zero_notMem_encode {c : ℕ} (hc : c.isValidChar) (h : c ≠ 0) :
    (0 : UInt8) ∉ String.utf8EncodeChar (Char.ofNat c) := by
  have hchar : (Char.ofNat c).val.toNat = c := by
    have hnat := Char.toNat_ofNat c
    rwa [if_pos hc] at hnat
  have hmod : ∀ x, UInt8.ofNat x = 0 ↔ x % 256 = 0 := by
    intro x
    rw [← UInt8.toNat_inj]
    simp
  simp only [String.utf8EncodeChar, hchar]
  split_ifs with h₁ h₂ h₃
  all_goals
    intro hzero
    simp only [List.mem_cons, List.not_mem_nil, or_false, eq_comm (a := (0 : UInt8)), hmod] at hzero
    omega

theorem validOutDir_utf8 {outDir : PyStr} (h : IsOutDir outDir) :
    validOutDir (utf8 outDir) = true := by
  obtain ⟨rest, rfl⟩ : ∃ rest, outDir = 0x2F :: rest := by
    have habsolute := h.absolute
    cases outDir with
    | nil => simp at habsolute
    | cons c rest => exact ⟨rest, by simpa using habsolute⟩
  have hslash : utf8 (0x2F :: rest) = byte '/' :: utf8 rest := rfl
  have hshort := h.short
  simp only [validOutDir, Bool.and_eq_true, decide_eq_true_eq, Bool.not_eq_true']
  refine ⟨⟨⟨?_, hshort⟩, ?_⟩, ?_⟩
  · rw [hslash]
    exact List.cons_ne_nil _ _
  · rw [hslash]
    rfl
  · rw [List.contains_eq_any_beq, List.any_eq_false]
    intro b hb hzero
    obtain rfl : 0 = b := by simpa using hzero
    obtain ⟨c, hc, hmem⟩ := List.mem_flatMap.mp hb
    refine zero_notMem_encode (h.isText c hc) ?_ hmem
    rintro rfl
    exact h.noNul hc

/-! ### The length of a line -/

/-- A character takes at most six times the bytes of its encoding. -/
theorem escapeAscii_length_le (c : ℕ) (hc : c.isValidChar) :
    (escapeAscii c).length ≤ 6 * (String.utf8EncodeChar (Char.ofNat c)).length := by
  have hpos : 1 ≤ (String.utf8EncodeChar (Char.ofNat c)).length :=
    List.length_pos_iff.mpr String.utf8EncodeChar_ne_nil
  have hchar : (Char.ofNat c).val.toNat = c := by
    have hnat := Char.toNat_ofNat c
    rwa [if_pos hc] at hnat
  by_cases hbasic : c < 0x10000
  · have hsix := (escapeAscii_length c).2.2 hbasic
    omega
  · have hfour : (String.utf8EncodeChar (Char.ofNat c)).length = 4 := by
      simp only [String.utf8EncodeChar, hchar]
      rw [if_neg (by omega), if_neg (by omega), if_neg (by omega)]
      rfl
    have htwelve := (escapeAscii_length c).2.1
    omega

theorem dumps_length_le {s : PyStr} (hs : s.IsText) :
    s.dumps.length ≤ 6 * (utf8 s).length + 2 := by
  have hchars : (s.flatMap escapeAscii).length ≤ 6 * (utf8 s).length := by
    induction s with
    | nil => simp
    | cons c s ih =>
      have hrest := ih fun d hd => hs d (List.mem_cons_of_mem _ hd)
      have hc := escapeAscii_length_le c (hs c (List.mem_cons_self ..))
      rw [utf8_cons, List.flatMap_cons, List.length_append, List.length_append]
      omega
  simp only [PyStr.dumps, List.length_cons, List.length_append, List.length_nil]
  omega

theorem length_intercalate_le (l : List ByteText) :
    ([byte ','].intercalate l).length ≤ (l.map fun x => x.length + 1).sum := by
  induction l with
  | nil => simp
  | cons x l ih =>
    cases l with
    | nil => simp
    | cons y l =>
      rw [intercalate_cons_cons]
      simp only [List.length_append, List.length_cons, List.map_cons, List.sum_cons] at ih ⊢
      omega

theorem dumpsDict_length_le (fields : List (PyStr × Field)) :
    (dumpsDict fields).length ≤
      2 + (fields.map fun f => f.1.dumps.length + f.2.dumps.length + 2).sum := by
  have hle := length_intercalate_le (fields.map fun f => f.1.dumps ++ byte ':' :: f.2.dumps)
  have hsame : ((fields.map fun f => f.1.dumps ++ byte ':' :: f.2.dumps).map
      fun x => x.length + 1) = fields.map fun f => f.1.dumps.length + f.2.dumps.length + 2 := by
    rw [List.map_map]
    refine List.map_congr_left fun f _ => ?_
    simp only [Function.comp_apply, List.length_append, List.length_cons]
    omega
  rw [hsame] at hle
  simp only [dumpsDict, List.length_cons, List.length_append, List.length_nil]
  omega

/-! ### The round trip -/

/-- The fields that every command begins with. -/
theorem commandFields_ok (type : String) {attempt : PyStr} (h : attempt.IsText) :
    ∀ f ∈ commandFields type attempt, f.1.IsText ∧ f.2.Ok := by
  intro f hf
  simp only [commandFields, List.mem_cons, List.not_mem_nil, or_false] at hf
  rcases hf with rfl | rfl | rfl
  · exact ⟨isText_ofString _, show 1 < 10 ^ 18 by decide⟩
  · exact ⟨isText_ofString _, isText_ofString _⟩
  · exact ⟨isText_ofString _, h⟩

theorem decimal_one : decimal 1 = [byte '1'] := by decide

/-- **The line of a command is read as its members.** -/
theorem parseObject_command (type : String) {attempt : PyStr} (hattempt : attempt.IsText)
    {more : List (PyStr × Field)} (hmore : ∀ f ∈ more, f.1.IsText ∧ f.2.Ok)
    (hkeys : (membersOf (commandFields type attempt ++ more)).Pairwise fun a b => a.1 ≠ b.1) :
    parseObject (dumpsDict (commandFields type attempt ++ more)) =
      .ok ([(lit "v", .integer 1), (lit "type", .string (lit type)),
        (lit "attempt", .string (utf8 attempt))] ++ membersOf more) := by
  rw [parseObject_line (by simp [commandFields]) ?_ hkeys]
  · simp [membersOf, commandFields, Field.value]
  · intro f hf
    rcases List.mem_append.mp hf with hf | hf
    · exact commandFields_ok type hattempt f hf
    · exact hmore f hf

theorem command_length_le (type : String) {attempt : PyStr} (hattempt : attemptMatches attempt = true)
    (htype : (lit type).length ≤ 7) (more : List (PyStr × Field)) :
    (dumpsDict (commandFields type attempt ++ more)).length ≤
      600 + (more.map fun f => f.1.dumps.length + f.2.dumps.length + 2).sum := by
  have hle := dumpsDict_length_le (commandFields type attempt ++ more)
  have htypeText := dumps_length_le (isText_ofString type)
  have hattemptText := dumps_length_le (isText_ascii (attemptMatches_ascii hattempt))
  have hlength : (utf8 attempt).length ≤ 64 := by
    have hvalid := validAttempt_utf8 hattempt
    simp only [validAttempt, Bool.and_eq_true, decide_eq_true_eq] at hvalid
    exact hvalid.1.2
  have hkeys : (ofString "v").dumps.length = 3 ∧ (ofString "type").dumps.length = 6 ∧
      (ofString "attempt").dumps.length = 9 := by decide
  have hhead : ((commandFields type attempt).map
      fun f => f.1.dumps.length + f.2.dumps.length + 2).sum ≤ 598 := by
    rw [utf8_ofString] at htypeText
    simp only [commandFields, Field.dumps, decimal_one, List.map_cons, List.map_nil, List.sum_cons,
      List.sum_nil, List.length_cons, List.length_nil, hkeys]
    omega
  rw [List.map_append, List.sum_append] at hle
  omega

/-- The checks on keys and attempt pass. -/
theorem parseAttempt_command {type : String} {attempt : PyStr} {more : Members}
    (hattempt : attemptMatches attempt = true) {allowed : List String}
    (hallowed : ∀ m ∈ [(lit "v", Value.integer 1), (lit "type", .string (lit type)),
      (lit "attempt", .string (utf8 attempt))] ++ more, m.1 ∈ allowed.map lit) (command : String) :
    parseAttempt ([(lit "v", .integer 1), (lit "type", .string (lit type)),
      (lit "attempt", .string (utf8 attempt))] ++ more) command allowed = .ok (utf8 attempt) := by
  have hunknown : unknownKey ([(lit "v", .integer 1), (lit "type", .string (lit type)),
      (lit "attempt", .string (utf8 attempt))] ++ more) allowed = none := by
    rw [unknownKey, Option.map_eq_none_iff, List.find?_eq_none]
    intro m hm
    simpa using hallowed m hm
  rw [parseAttempt, hunknown]
  simp [stringField, find, Option.filter, validAttempt_utf8 hattempt]

/-- The supervisor's side of a command line is taken apart by the worker up to its type. -/
theorem parseCommand_line {type : String} {attempt : PyStr} {more : List (PyStr × Field)}
    (hattempt : attemptMatches attempt = true) (htype : (lit type).length ≤ 7)
    (hmore : ∀ f ∈ more, f.1.IsText ∧ f.2.Ok)
    (hkeys : (membersOf (commandFields type attempt ++ more)).Pairwise fun a b => a.1 ≠ b.1)
    (hlength : (more.map fun f => f.1.dumps.length + f.2.dumps.length + 2).sum ≤ 60000) :
    let members := [(lit "v", Value.integer 1), (lit "type", .string (lit type)),
      (lit "attempt", .string (utf8 attempt))] ++ membersOf more
    parseCommand (dumpsDict (commandFields type attempt ++ more)) =
      if type = "start" then parseStart members
      else if type = "confirm" then parseConfirm members
      else if type = "cancel" then parseCancel members
      else .error (invalid (lit "unknown") (lit "unknown command type") none) := by
  have hle := command_length_le type hattempt htype more
  have hshort : ¬ kMaxMessageBytes < (dumpsDict (commandFields type attempt ++ more)).length := by
    simp only [kMaxMessageBytes]
    omega
  rw [parseCommand, if_neg hshort,
    parseObject_command type (isText_ascii (attemptMatches_ascii hattempt)) hmore hkeys]
  simp [stringField, find]

theorem orderedSides_cases (sides : List Side) (h : sides ≠ []) :
    orderedSides sides = [.left, .right] ∨ orderedSides sides = [.left] ∨
      orderedSides sides = [.right] := by
  by_cases hl : Side.left ∈ sides
  · by_cases hr : Side.right ∈ sides
    · exact .inl (by simp [orderedSides, hl, hr])
    · exact .inr (.inl (by simp [orderedSides, hl, hr]))
  · by_cases hr : Side.right ∈ sides
    · exact .inr (.inr (by simp [orderedSides, hl, hr]))
    · -- a list of sides without either side is empty
      exfalso
      obtain ⟨side, hside⟩ := List.exists_mem_of_ne_nil sides h
      cases side with
      | left => exact hl hside
      | right => exact hr hside

/-- The names of ordered sides, as the worker reads them. -/
theorem readSides_ordered {sides : List Side} (h : sides ≠ []) :
    ∃ left right,
      readSides false false (((orderedSides sides).map sideValue).map utf8) = .ok (left, right) ∧
        processingOrder left right = orderedSides sides := by
  rcases orderedSides_cases sides h with hs | hs | hs
  · exact ⟨true, true, by simp [hs, sideValue, readSides], by simp [hs, processingOrder]⟩
  · exact ⟨true, false, by simp [hs, sideValue, readSides], by simp [hs, processingOrder]⟩
  · exact ⟨false, true, by simp [hs, sideValue, readSides], by simp [hs, processingOrder]⟩

/-- **A start command round trip.** -/
theorem parseCommand_start {attempt outDir : PyStr} {sides : List Side}
    (hattempt : attemptMatches attempt = true) (hne : sides ≠ []) (hdir : IsOutDir outDir) :
    ∃ command, parseCommand (dumpsDict (commandFields "start" attempt ++
        [(ofString "sides", .list ((orderedSides sides).map sideValue)),
          (ofString "out_dir", .str outDir)])) = .ok (.start command) ∧
      command.attempt = utf8 attempt ∧ command.sides = orderedSides sides ∧
        command.outDir = utf8 outDir := by
  have hsides : ∀ s ∈ (orderedSides sides).map sideValue, s.IsText := by
    intro s hs
    obtain ⟨side, -, rfl⟩ := List.mem_map.mp hs
    cases side <;> exact isText_ofString _
  have hmore : ∀ f ∈ [(ofString "sides", Field.list ((orderedSides sides).map sideValue)),
      (ofString "out_dir", .str outDir)], f.1.IsText ∧ f.2.Ok := by
    intro f hf
    simp only [List.mem_cons, List.not_mem_nil, or_false] at hf
    rcases hf with rfl | rfl
    · exact ⟨isText_ofString _, hsides⟩
    · exact ⟨isText_ofString _, hdir.isText⟩
  -- The line is short, as the path is.
  have hlength : ([(ofString "sides", Field.list ((orderedSides sides).map sideValue)),
      (ofString "out_dir", .str outDir)].map
        fun f => f.1.dumps.length + f.2.dumps.length + 2).sum ≤ 60000 := by
    have hkeys : (ofString "sides").dumps.length = 7 ∧ (ofString "out_dir").dumps.length = 9 := by
      decide
    have hpath := dumps_length_le hdir.isText
    have hshort := hdir.short
    have hlist : (Field.list ((orderedSides sides).map sideValue)).dumps.length ≤ 20 := by
      rcases orderedSides_cases sides hne with hs | hs | hs
      all_goals
        rw [hs]
        decide
    simp only [List.map_cons, List.map_nil, List.sum_cons, List.sum_nil, hkeys]
    simp only [show (Field.str outDir).dumps = outDir.dumps from rfl]
    omega
  -- The sides are read back in the order of the command.
  obtain ⟨left, right, hread, horder⟩ := readSides_ordered hne
  have hnames : ((orderedSides sides).map sideValue).map utf8 ≠ [] := by
    rcases orderedSides_cases sides hne with hs | hs | hs
    all_goals simp [hs]
  rw [parseCommand_line hattempt (by decide) hmore ?_ hlength]
  · rw [if_pos rfl, parseStart, parseAttempt_command hattempt]
    · have hfind : find ([(lit "v", .integer 1), (lit "type", .string (lit "start")),
          (lit "attempt", .string (utf8 attempt))] ++ membersOf
            [(ofString "sides", Field.list ((orderedSides sides).map sideValue)),
              (ofString "out_dir", .str outDir)]) "sides" =
          some (.strings (((orderedSides sides).map sideValue).map utf8)) := by
        simp [find, membersOf, Field.value]
      have hpath : stringField ([(lit "v", .integer 1), (lit "type", .string (lit "start")),
          (lit "attempt", .string (utf8 attempt))] ++ membersOf
            [(ofString "sides", Field.list ((orderedSides sides).map sideValue)),
              (ofString "out_dir", .str outDir)]) "out_dir" = some (utf8 outDir) := by
        simp [stringField, find, membersOf, Field.value]
      dsimp only
      rw [hfind]
      dsimp only
      rw [dif_neg hnames, hpath, Option.filter_some_pos (validOutDir_utf8 hdir)]
      split
      · rename_i message herror
        rw [hread] at herror
        cases herror
      · rename_i left' right' hok
        rw [hread] at hok
        cases hok
        exact ⟨_, rfl, rfl, horder, rfl⟩
    · simp [membersOf]
  · simp [membersOf, commandFields]

/-- **A confirm command round trip.** -/
theorem parseCommand_confirm {attempt token : PyStr} (hattempt : attemptMatches attempt = true)
    (htoken : IsToken token) :
    parseCommand (dumpsDict (commandFields "confirm" attempt ++
        [(ofString "token", .str token)])) =
      .ok (.confirm { attempt := utf8 attempt, token := utf8 token }) := by
  have htext : token.IsText := isText_ascii htoken.ascii
  have hmore : ∀ f ∈ [(ofString "token", Field.str token)], f.1.IsText ∧ f.2.Ok := by
    intro f hf
    rw [List.mem_singleton.mp hf]
    exact ⟨isText_ofString _, htext⟩
  -- The line is short, as the token is.
  have hlength : ([(ofString "token", Field.str token)].map
      fun f => f.1.dumps.length + f.2.dumps.length + 2).sum ≤ 60000 := by
    have hkey : (ofString "token").dumps.length = 7 := by decide
    have htokenText := dumps_length_le htext
    have hshort : (utf8 token).length ≤ 128 := by
      rw [utf8_ascii htoken.ascii, List.length_map]
      exact htoken.2.1
    simp only [List.map_cons, List.map_nil, List.sum_cons, List.sum_nil, hkey]
    simp only [show (Field.str token).dumps = token.dumps from rfl]
    omega
  rw [parseCommand_line hattempt (by decide) hmore ?_ hlength]
  · rw [if_neg (by decide), if_pos rfl, parseConfirm, parseAttempt_command hattempt]
    · have hfield : stringField ([(lit "v", .integer 1), (lit "type", .string (lit "confirm")),
          (lit "attempt", .string (utf8 attempt))] ++ membersOf
            [(ofString "token", Field.str token)]) "token" = some (utf8 token) := by
        simp [stringField, find, membersOf, Field.value]
      dsimp only
      rw [hfield, Option.filter_some_pos (validToken_utf8 htoken)]
    · simp [membersOf]
  · simp [membersOf, commandFields]

/-- **A cancel command round trip.** -/
theorem parseCommand_cancel {attempt : PyStr} (hattempt : attemptMatches attempt = true) :
    parseCommand (dumpsDict (commandFields "cancel" attempt)) =
      .ok (.cancel { attempt := utf8 attempt }) := by
  have hline := @parseCommand_line "cancel" attempt [] hattempt (by decide) (by simp)
    (by simp [membersOf, commandFields]) (by simp)
  rw [List.append_nil] at hline
  rw [hline, if_neg (by decide), if_neg (by decide), if_pos rfl, parseCancel,
    parseAttempt_command hattempt]
  simp [membersOf]

/-- **Every command the supervisor can encode is read by the worker as that command.** -/
theorem command_round_trip :
    (∀ attempt sides outDir, attemptMatches attempt = true → sides ≠ [] → sides.Nodup →
      IsOutDir outDir → ∃ text command,
        encodeStart attempt sides outDir = .ok (text ++ [byte '\n']) ∧
        parseCommand text = .ok (.start command) ∧ command.attempt = utf8 attempt ∧
        command.sides = orderedSides sides ∧ command.outDir = utf8 outDir) ∧
    (∀ attempt token, attemptMatches attempt = true → IsToken token → ∃ text,
      encodeConfirm attempt token = text ++ [byte '\n'] ∧
        parseCommand text = .ok (.confirm { attempt := utf8 attempt, token := utf8 token })) ∧
    ∀ attempt, attemptMatches attempt = true → ∃ text,
      encodeCancel attempt = text ++ [byte '\n'] ∧
        parseCommand text = .ok (.cancel { attempt := utf8 attempt }) := by
  refine ⟨?_, ?_, ?_⟩
  · intro attempt sides outDir hattempt hne hnodup hdir
    obtain ⟨command, hparse, hfields⟩ := parseCommand_start hattempt hne hdir
    refine ⟨_, command, ?_, hparse, hfields⟩
    rw [encodeStart, if_neg (by simpa using hattempt), if_neg (by simp [hne, hnodup])]
    rfl
  · intro attempt token hattempt htoken
    exact ⟨_, rfl, parseCommand_confirm hattempt htoken⟩
  · intro attempt hattempt
    exact ⟨_, rfl, parseCommand_cancel hattempt⟩

/-- A start command for both sides with a path outside ASCII. -/
theorem command_round_trip_unicode :
    ∃ text command, encodeStart (ofString "cal-1") [.right, .left] (ofString "/data/é/😀") =
        .ok (text ++ [byte '\n']) ∧
      parseCommand text = .ok (.start command) ∧ command.attempt = lit "cal-1" ∧
      command.sides = [.left, .right] ∧ command.outDir = lit "/data/é/😀" := by
  have hdir : IsOutDir (ofString "/data/é/😀") :=
    ⟨isText_ofString _, by decide, by decide, by decide⟩
  have h := command_round_trip.1 (ofString "cal-1") [.right, .left] (ofString "/data/é/😀")
    (by decide) (by decide) (by decide) hdir
  simp only [utf8_ofString] at h
  exact h

/-- The worker takes no token with a space, which is a printable ASCII character too. -/
theorem spaced_token_rejected :
    ¬ ∀ attempt token : PyStr, attemptMatches attempt = true →
      (1 ≤ token.length ∧ token.length ≤ 128 ∧ ∀ c ∈ token, 0x20 ≤ c ∧ c < 0x7F) → ∃ text,
      encodeConfirm attempt token = text ++ [byte '\n'] ∧
        parseCommand text = .ok (.confirm { attempt := utf8 attempt, token := utf8 token }) := by
  intro h
  obtain ⟨text, hencode, hparse⟩ := h (ofString "cal-1") (ofString "a b") (by decide)
    (by decide)
  have htext : text = dumpsDict (commandFields "confirm" (ofString "cal-1") ++
      [(ofString "token", .str (ofString "a b"))]) := (List.append_cancel_right hencode).symm
  rw [htext] at hparse
  revert hparse
  decide

end Calibration
