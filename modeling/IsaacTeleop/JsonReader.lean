/-
The JSON reader of the calibration worker over positions in its text.

The methods of `Reader` read `m_text` at `m_pos` and compute with `int64_t`.  Here every read and
every arithmetic step is checked: a read outside the text or a value out of range is a fault, and
so is a loop that has not ended in as many turns as there are bytes.

* `Reader.run` — the reader, `none` for a fault;
* `Reader.run_eq` — it never faults, and reads what `parseObject` reads;
* `flat_object_reading` — the texts it accepts, and the strings it reads back.
-/
import IsaacTeleop.CalibrationEvents

open ByteText

namespace Calibration.Json

namespace Reader

/-- What a method returns: a value with the new `m_pos`, or `m_error`. -/
abbrev Result (α : Type) := Except ByteText (α × ℕ)

/-- A signed result that has to fit. -/
def int64 (n : ℤ) : Option ℤ := if -2 ^ 63 ≤ n ∧ n < 2 ^ 63 then some n else none

section Methods

variable (text : ByteText)

/-- `consume`: the new position, where the byte is there. -/
def consume (expected : Char) (pos : ℕ) : Option (Option ℕ) :=
  if pos < text.length then do
    let c ← text[pos]?
    return if c = byte expected then some (pos + 1) else none
  else some none

/-- The loop over the bytes of a kind. -/
def skipWhile (kind : UInt8 → Bool) : ℕ → ℕ → Option ℕ
  | 0, _ => none
  | turns + 1, pos =>
    if pos < text.length then do
      let c ← text[pos]?
      if kind c then skipWhile kind turns (pos + 1) else some pos
    else some pos

/-- More turns than there are bytes left. -/
def turns (pos : ℕ) : ℕ := text.length - pos + 1

/-- `skip_space` -/
def skipSpace (pos : ℕ) : Option ℕ := skipWhile text isSpace (turns text pos) pos

/-- The loop of `read_hex4`. -/
def hexDigits : ℕ → ℕ → ℕ → Option (Option (ℕ × ℕ))
  | 0, value, pos => some (some (value, pos))
  | n + 1, value, pos => do
    let h ← text[pos]?
    match hexDigit h with
    | some d => hexDigits n (value <<< 4 ||| d) (pos + 1)
    | none => some none

/-- `read_hex4` -/
def readHex4 (pos : ℕ) : Option (Option (ℕ × ℕ)) :=
  if text.length < pos + 4 then some none else hexDigits text 4 0 pos

/-- The second half of a surrogate pair. -/
def readLowSurrogate (pos : ℕ) : Option (Option (ℕ × ℕ)) :=
  if text.length < pos + 2 then some none
  else do
    let c ← text[pos]?
    if c ≠ byte '\\' then return none
    let u ← text[pos + 1]?
    if u ≠ byte 'u' then return none
    match ← readHex4 text (pos + 2) with
    | none => return none
    | some (low, pos) => return if low < 0xDC00 ∨ 0xDFFF < low then none else some (low, pos)

/-- `read_unicode_escape` -/
def readUnicodeEscape (pos : ℕ) : Option (Result ByteText) := do
  match ← readHex4 text pos with
  | none => return .error (lit "invalid \\u escape")
  | some (code, pos) =>
    if 0xD800 ≤ code ∧ code ≤ 0xDBFF then
      match ← readLowSurrogate text pos with
      | none => return .error (lit "unpaired surrogate")
      | some (low, pos) =>
        return .ok (appendUtf8 (0x10000 + (code - 0xD800) <<< 10 + (low - 0xDC00)), pos)
    else if 0xDC00 ≤ code ∧ code ≤ 0xDFFF then return .error (lit "unpaired surrogate")
    else return .ok (appendUtf8 code, pos)

/-- `read_escape` -/
def readEscape (pos : ℕ) : Option (Result ByteText) :=
  if text.length ≤ pos then some (.error (lit "unterminated escape"))
  else do
    let e ← text[pos]?
    if e = byte '"' ∨ e = byte '\\' ∨ e = byte '/' then return .ok ([e], pos + 1)
    else if e = byte 'b' then return .ok ([0x08], pos + 1)
    else if e = byte 'f' then return .ok ([0x0C], pos + 1)
    else if e = byte 'n' then return .ok ([0x0A], pos + 1)
    else if e = byte 'r' then return .ok ([0x0D], pos + 1)
    else if e = byte 't' then return .ok ([0x09], pos + 1)
    else if e = byte 'u' then readUnicodeEscape text (pos + 1)
    else return .error (lit "invalid escape")

/-- The loop of `read_string`, with `out` so far. -/
def readChars : ℕ → ByteText → ℕ → Option (Result ByteText)
  | 0, _, _ => none
  | turns + 1, out, pos =>
    if pos < text.length then do
      let c ← text[pos]?
      if c = byte '"' then return .ok (out, pos + 1)
      else if c < 0x20 then return .error (lit "control character in string")
      else if c ≠ byte '\\' then readChars turns (out ++ [c]) (pos + 1)
      else
        match ← readEscape text (pos + 1) with
        | .error e => return .error e
        | .ok (bytes, pos) => readChars turns (out ++ bytes) pos
    else some (.error (lit "unterminated string"))

/-- `read_string` -/
def readString (pos : ℕ) : Option (Result ByteText) := do
  match ← consume text '"' pos with
  | none => return .error []
  | some pos => readChars text (turns text pos) [] pos

/-- The loop of `read_string_array`, with `items` so far. -/
def readItems : ℕ → List ByteText → ℕ → Option (Result (List ByteText))
  | 0, _, _ => none
  | turns + 1, items, pos => do
    match ← readString text (← skipSpace text pos) with
    | .error _ => return .error (lit "array elements must be strings")
    | .ok (item, pos) =>
      let pos ← skipSpace text pos
      match ← consume text ']' pos with
      | some pos => return .ok (items ++ [item], pos)
      | none =>
        match ← consume text ',' pos with
        | none => return .error (lit "expected ',' or ']'")
        | some pos => readItems turns (items ++ [item]) pos

/-- `read_string_array` -/
def readStringArray (bracket : ℕ) : Option (Result Value) := do
  let pos ← skipSpace text (bracket + 1)
  match ← consume text ']' pos with
  | some pos => return .ok (.strings [], pos)
  | none =>
    match ← readItems text (turns text (bracket + 1)) [] pos with
    | .error e => return .error e
    | .ok (items, pos) => return .ok (.strings items, pos)

/-- The value of the digits: `n` of them from position `i` on. -/
def parsed : ℕ → ℕ → ℤ → Option ℤ
  | 0, _, value => some value
  | n + 1, i, value => do
    let c ← text[i]?
    let tens ← int64 (value * 10)
    let value ← int64 (tens + (c.toNat - (byte '0').toNat : ℤ))
    parsed n (i + 1) value

/-- More than one digit, and the first is zero. -/
def leadingZero (digitCount digitsStart : ℕ) : Option Bool :=
  if 1 < digitCount then do
    let c ← text[digitsStart]?
    return c = byte '0'
  else some false

/-- A fraction or an exponent follows. -/
def floatLike (pos : ℕ) : Option Bool :=
  if pos < text.length then do
    let c ← text[pos]?
    return c = byte '.' ∨ c = byte 'e' ∨ c = byte 'E'
  else some false

/-- `read_integer` -/
def readInteger (start : ℕ) : Option (Result Value) := do
  let digitsStart := (← consume text '-' start).getD start
  let pos ← skipWhile text isDigit (turns text digitsStart) digitsStart
  let digitCount := pos - digitsStart
  let leadingZero ← leadingZero text digitCount digitsStart
  let floatLike ← floatLike text pos
  if digitCount = 0 ∨ 18 < digitCount ∨ leadingZero = true ∨ floatLike = true then
    return .error (lit "numbers must be plain integers")
  else
    let value ← parsed text digitCount digitsStart 0
    let c ← text[start]?
    let value ← int64 (if c = byte '-' then -value else value)
    return .ok (.integer value, pos)

/-- `read_value` -/
def readValue (pos : ℕ) : Option (Result Value) :=
  if text.length ≤ pos then some (.error [])
  else do
    let c ← text[pos]?
    if c = byte '"' then
      match ← readString text pos with
      | .error e => return .error e
      | .ok (s, pos) => return .ok (.string s, pos)
    else if c = byte '[' then readStringArray text pos
    else if c = byte '-' ∨ isDigit c = true then readInteger text pos
    else return .error (lit "unsupported value type")

/-- The loop of `run`. -/
def readMembers : ℕ → Members → ℕ → Option (Result Members)
  | 0, _, _ => none
  | turns + 1, members, pos => do
    match ← readString text (← skipSpace text pos) with
    | .error e => return .error (errorOr "expected a string key" e)
    | .ok (key, pos) =>
      if members.any fun m => m.1 = key then
        return .error (lit "duplicate key \"" ++ key ++ lit "\"")
      else
        match ← consume text ':' (← skipSpace text pos) with
        | none => return .error (lit "expected ':' after key")
        | some pos =>
          match ← readValue text (← skipSpace text pos) with
          | .error e => return .error (errorOr "unsupported value" e)
          | .ok (value, pos) =>
            let pos ← skipSpace text pos
            match ← consume text '}' pos with
            | some pos => return .ok (members ++ [(key, value)], pos)
            | none =>
              match ← consume text ',' pos with
              | none => return .error (lit "expected ',' or '\x7d'")
              | some pos => readMembers turns (members ++ [(key, value)]) pos

/-- `run` -/
def run : Option (Except ByteText Members) := do
  match ← consume text '{' (← skipSpace text 0) with
  | none => return .error (lit "expected a JSON object")
  | some start =>
    let pos ← skipSpace text start
    let members : Result Members ← match ← consume text '}' pos with
      | some pos => pure (.ok ([], pos))
      | none => readMembers text (turns text start) [] pos
    match members with
    | .error e => return .error e
    | .ok (members, pos) =>
      let pos ← skipSpace text pos
      return if pos ≠ text.length then .error (lit "trailing bytes after the object")
        else .ok members

end Methods

/-! ### Reading at a position -/

section Refinement

variable {text : ByteText} {α : Type}

/-- The byte at a position, and the text after it. -/
theorem drop_cases {pos : ℕ} (h : pos ≤ text.length) :
    pos = text.length ∧ text.drop pos = [] ∨
    ∃ c, pos < text.length ∧ text[pos]? = some c ∧ text.drop pos = c :: text.drop (pos + 1) := by
  rcases Nat.lt_or_ge pos text.length with hlt | hge
  · exact .inr ⟨text[pos], hlt, List.getElem?_eq_getElem hlt, List.drop_eq_getElem_cons hlt⟩
  · exact .inl ⟨by omega, List.drop_eq_nil_of_le hge⟩

variable (text) in
/-- The same result as on the text that is left, at a position not before `start`. -/
inductive Agrees (start : ℕ) : Option (Result α) → Read α → Prop
  | error (e : ByteText) : Agrees start (some (.error e)) (.error e)
  | ok (value : α) {pos : ℕ} (hstart : start ≤ pos) (hend : pos ≤ text.length) :
      Agrees start (some (.ok (value, pos))) (.ok (value, text.drop pos))

variable (text) in
/-- The same for a method that leaves no error. -/
inductive Matches (start : ℕ) : Option (Option (ℕ × ℕ)) → Option (ℕ × ByteText) → Prop
  | none : Matches start (some none) none
  | some (value : ℕ) {pos : ℕ} (hstart : start ≤ pos) (hend : pos ≤ text.length) :
      Matches start (some (some (value, pos))) (some (value, text.drop pos))

theorem Agrees.mono {start start' : ℕ} {r : Option (Result α)} {read : Read α}
    (h : Agrees text start r read) (hle : start' ≤ start) : Agrees text start' r read := by
  cases h with
  | error e => exact .error e
  | ok value hstart hend => exact .ok value (by omega) hend

theorem consume_cases (c : Char) {pos : ℕ} (h : pos ≤ text.length) :
    consume text c pos = some none ∧ Json.consume c (text.drop pos) = none ∨
    pos < text.length ∧ consume text c pos = some (some (pos + 1)) ∧
      Json.consume c (text.drop pos) = some (text.drop (pos + 1)) := by
  rcases drop_cases h with ⟨hend, hdrop⟩ | ⟨b, hlt, hbyte, hdrop⟩
  · refine .inl ⟨if_neg (by omega), ?_⟩
    rw [hdrop]
    rfl
  · have hconsume : consume text c pos = some (if b = byte c then some (pos + 1) else none) := by
      rw [consume, if_pos hlt, hbyte]
      rfl
    by_cases hb : b = byte c
    · rw [if_pos hb] at hconsume
      exact .inr ⟨hlt, hconsume, by rw [hdrop, Json.consume, if_pos hb]⟩
    · rw [if_neg hb] at hconsume
      exact .inl ⟨hconsume, by rw [hdrop, Json.consume, if_neg hb]⟩

/-- **A run of bytes of a kind is skipped.** -/
theorem skipWhile_eq (kind : UInt8 → Bool) {turns pos : ℕ} (h : pos ≤ text.length)
    (hturns : text.length < turns + pos) :
    skipWhile text kind turns pos = some (pos + ((text.drop pos).takeWhile kind).length) := by
  induction turns generalizing pos with
  | zero => omega
  | succ turns ih =>
    rw [skipWhile]
    rcases drop_cases h with ⟨hend, hdrop⟩ | ⟨b, hlt, hbyte, hdrop⟩
    · rw [if_neg (by omega), hdrop]
      rfl
    · rw [if_pos hlt, hbyte, hdrop, List.takeWhile_cons]
      show (if kind b then skipWhile text kind turns (pos + 1) else some pos) = _
      by_cases hb : kind b
      · rw [if_pos hb, if_pos hb, ih (by omega) (by omega), List.length_cons]
        congr 1
        omega
      · rw [if_neg hb, if_neg hb]
        rfl

/-- Where a run ends. -/
theorem drop_takeWhile (kind : UInt8 → Bool) {pos : ℕ} (h : pos ≤ text.length) :
    pos + ((text.drop pos).takeWhile kind).length ≤ text.length ∧
    text.drop (pos + ((text.drop pos).takeWhile kind).length) =
      (text.drop pos).dropWhile kind := by
  constructor
  · have hle := (List.takeWhile_sublist (l := text.drop pos) kind).length_le
    rw [List.length_drop] at hle
    omega
  · rw [← List.drop_drop]
    nth_rewrite 2 [← List.takeWhile_append_dropWhile (p := kind) (l := text.drop pos)]
    rw [List.drop_left]

theorem skipSpace_eq {pos : ℕ} (h : pos ≤ text.length) :
    ∃ pos', pos ≤ pos' ∧ pos' ≤ text.length ∧ skipSpace text pos = some pos' ∧
      Json.skipSpace (text.drop pos) = text.drop pos' := by
  obtain ⟨hend, hdrop⟩ := drop_takeWhile isSpace h
  refine ⟨_, Nat.le_add_right .., hend, skipWhile_eq isSpace h ?_, hdrop.symm⟩
  rw [turns]
  omega

/-! ### Strings -/

theorem hexDigits_none {n value pos : ℕ} {h : UInt8} (hbyte : text[pos]? = some h)
    (hd : hexDigit h = none) : hexDigits text (n + 1) value pos = some none := by
  simp only [hexDigits, hbyte, hd, Option.bind_eq_bind, Option.bind_some]

theorem hexDigits_some {n value pos d : ℕ} {h : UInt8} (hbyte : text[pos]? = some h)
    (hd : hexDigit h = some d) :
    hexDigits text (n + 1) value pos = hexDigits text n (value <<< 4 ||| d) (pos + 1) := by
  simp only [hexDigits, hbyte, hd, Option.bind_eq_bind, Option.bind_some]

theorem readHex4_short {rest : ByteText} (h : rest.length < 4) : Json.readHex4 rest = none := by
  rw [Json.readHex4.eq_def]
  split
  · simp only [List.length_cons] at h
    omega
  · rfl

theorem readHex4_matches {pos : ℕ} (h : pos ≤ text.length) :
    Matches text pos (readHex4 text pos) (Json.readHex4 (text.drop pos)) := by
  rw [readHex4]
  by_cases hshort : text.length < pos + 4
  · rw [if_pos hshort, readHex4_short (by rw [List.length_drop]; omega)]
    exact .none
  rw [if_neg hshort]
  have hnext : ∀ i, i < text.length →
      ∃ b, text[i]? = some b ∧ text.drop i = b :: text.drop (i + 1) := by
    intro i hi
    exact ⟨text[i], List.getElem?_eq_getElem hi, List.drop_eq_getElem_cons hi⟩
  obtain ⟨h₁, e₁, t₁⟩ := hnext pos (by omega)
  obtain ⟨h₂, e₂, t₂⟩ := hnext (pos + 1) (by omega)
  obtain ⟨h₃, e₃, t₃⟩ := hnext (pos + 1 + 1) (by omega)
  obtain ⟨h₄, e₄, t₄⟩ := hnext (pos + 1 + 1 + 1) (by omega)
  rw [t₁, t₂, t₃, t₄, Json.readHex4]
  -- a digit after the other, as the loop reads them
  cases d₁ : hexDigit h₁ with
  | none =>
    rw [hexDigits_none e₁ d₁]
    exact .none
  | some v₁ =>
    rw [hexDigits_some e₁ d₁]
    cases d₂ : hexDigit h₂ with
    | none =>
      rw [hexDigits_none e₂ d₂]
      exact .none
    | some v₂ =>
      rw [hexDigits_some e₂ d₂]
      cases d₃ : hexDigit h₃ with
      | none =>
        rw [hexDigits_none e₃ d₃]
        exact .none
      | some v₃ =>
        rw [hexDigits_some e₃ d₃]
        cases d₄ : hexDigit h₄ with
        | none =>
          rw [hexDigits_none e₄ d₄]
          exact .none
        | some v₄ =>
          rw [hexDigits_some e₄ d₄, Nat.zero_shiftLeft, Nat.zero_or]
          exact .some _ (by omega) (by omega)

theorem readLowSurrogate_matches {pos : ℕ} (h : pos ≤ text.length) :
    Matches text pos (readLowSurrogate text pos) (Json.readLowSurrogate (text.drop pos)) := by
  rw [readLowSurrogate]
  -- Two characters are needed before the digits.
  rcases drop_cases h with ⟨hend, hdrop⟩ | ⟨c, hlt, hc, hdrop⟩
  · rw [if_pos (by omega), hdrop]
    exact .none
  rcases drop_cases (show pos + 1 ≤ text.length by omega) with
    ⟨hend, hdrop'⟩ | ⟨u, hlt', hu, hdrop'⟩
  · rw [if_pos (by omega), hdrop, hdrop']
    exact .none
  change text.drop (pos + 1) = u :: text.drop (pos + 2) at hdrop'
  rw [if_neg (by omega), hdrop, hdrop', Json.readLowSurrogate, hc, hu]
  simp only [Option.bind_eq_bind, Option.bind_some]
  by_cases hslash : c = byte '\\'
  · by_cases hletter : u = byte 'u'
    · rw [if_neg (not_not_intro hslash), if_neg (not_not_intro hletter), if_pos ⟨hslash, hletter⟩]
      have hhex := readHex4_matches (show pos + 2 ≤ text.length by omega)
      generalize readHex4 text (pos + 2) = r, Json.readHex4 (text.drop (pos + 2)) = l at hhex ⊢
      cases hhex with
      | none => exact .none
      | some low hstart hend =>
        dsimp only [Option.bind_some]
        by_cases hrange : low < 0xDC00 ∨ 0xDFFF < low
        · rw [if_pos hrange, if_pos hrange]
          exact .none
        · rw [if_neg hrange, if_neg hrange]
          exact .some low (by omega) hend
    · rw [if_neg (not_not_intro hslash), if_pos hletter, if_neg (fun hboth => hletter hboth.2)]
      exact .none
  · rw [if_pos hslash, if_neg (fun hboth => hslash hboth.1)]
    exact .none

theorem readUnicodeEscape_agrees {pos : ℕ} (h : pos ≤ text.length) :
    Agrees text pos (readUnicodeEscape text pos) (Json.readUnicodeEscape (text.drop pos)) := by
  rw [readUnicodeEscape, Json.readUnicodeEscape]
  have hhex := readHex4_matches h
  generalize readHex4 text pos = r, Json.readHex4 (text.drop pos) = l at hhex ⊢
  cases hhex with
  | none => exact .error _
  | @some code pos' hstart hend =>
    dsimp only [Option.bind_eq_bind, Option.bind_some]
    by_cases hhigh : 0xD800 ≤ code ∧ code ≤ 0xDBFF
    · rw [if_pos hhigh, if_pos hhigh]
      have hlow := readLowSurrogate_matches hend
      generalize readLowSurrogate text pos' = r, Json.readLowSurrogate (text.drop pos') = l
        at hlow ⊢
      cases hlow with
      | none => exact .error _
      | some low hstart' hend' => exact .ok _ (by omega) hend'
    rw [if_neg hhigh, if_neg hhigh]
    by_cases hlow : 0xDC00 ≤ code ∧ code ≤ 0xDFFF
    · rw [if_pos hlow, if_pos hlow]
      exact .error _
    · rw [if_neg hlow, if_neg hlow]
      exact .ok _ hstart hend

/-- Both sides of a branch. -/
theorem Agrees.ite {start : ℕ} {p : Prop} [Decidable p] {r r' : Option (Result α)}
    {read read' : Read α} (hpos : p → Agrees text start r read)
    (hneg : ¬ p → Agrees text start r' read') :
    Agrees text start (if p then r else r') (if p then read else read') := by
  by_cases hp : p
  · rw [if_pos hp, if_pos hp]
    exact hpos hp
  · rw [if_neg hp, if_neg hp]
    exact hneg hp

theorem readEscape_agrees {pos : ℕ} (h : pos ≤ text.length) :
    Agrees text pos (readEscape text pos) (Json.readEscape (text.drop pos)) := by
  rw [readEscape]
  rcases drop_cases h with ⟨hend, hdrop⟩ | ⟨e, hlt, he, hdrop⟩
  · rw [if_pos (by omega), hdrop]
    exact .error _
  rw [if_neg (by omega), he, hdrop, Json.readEscape]
  have hshort : ∀ bytes : ByteText,
      Agrees text pos (some (.ok (bytes, pos + 1))) (.ok (bytes, text.drop (pos + 1))) :=
    fun bytes => .ok bytes (by omega) (by omega)
  refine .ite (fun _ => hshort _) fun _ => .ite (fun _ => hshort _) fun _ =>
    .ite (fun _ => hshort _) fun _ => .ite (fun _ => hshort _) fun _ =>
    .ite (fun _ => hshort _) fun _ => .ite (fun _ => hshort _) fun _ => .ite (fun _ => ?_)
    fun _ => .error _
  exact (readUnicodeEscape_agrees (by omega)).mono (by omega)

/-- What was read before, in front. -/
def after {β : Type} (before : List β) : Read (List β) → Read (List β)
  | .ok (read, rest) => .ok (before ++ read, rest)
  | .error e => .error e

/-- **The characters of a string**, whatever was read before them. -/
theorem readChars_agrees {turns pos : ℕ} (h : pos ≤ text.length)
    (hturns : text.length ≤ turns + pos) (out : ByteText) :
    Agrees text pos (readChars text (turns + 1) out pos)
      (after out (Json.readChars turns (text.drop pos))) := by
  induction turns generalizing pos out with
  | zero =>
    have hend : pos = text.length := by omega
    rw [readChars, if_neg (by omega)]
    exact .error _
  | succ turns ih =>
    rw [readChars]
    rcases drop_cases h with ⟨hend, hdrop⟩ | ⟨c, hlt, hc, hdrop⟩
    · rw [if_neg (by omega), hdrop]
      exact .error _
    rw [if_pos hlt, hc, hdrop, Json.readChars]
    simp only [Option.bind_eq_bind, Option.bind_some]
    -- The quote, a control character, an escape, or a character that stands for itself.
    by_cases hquote : c = byte '"'
    · rw [if_pos hquote, if_pos hquote, after, List.append_nil]
      exact .ok out (by omega) (by omega)
    rw [if_neg hquote, if_neg hquote]
    by_cases hcontrol : c < 0x20
    · rw [if_pos hcontrol, if_pos hcontrol]
      exact .error _
    rw [if_neg hcontrol, if_neg hcontrol]
    by_cases hslash : c = byte '\\'
    · rw [if_neg (not_not_intro hslash), if_neg (not_not_intro hslash)]
      have hescape := readEscape_agrees (show pos + 1 ≤ text.length by omega)
      generalize readEscape text (pos + 1) = r, Json.readEscape (text.drop (pos + 1)) = l
        at hescape ⊢
      cases hescape with
      | error e => exact .error e
      | @ok bytes pos' hstart hend =>
        have hrest := (ih hend (by omega) (out ++ bytes)).mono (show pos ≤ pos' by omega)
        dsimp only [Option.bind_some]
        generalize Json.readChars turns (text.drop pos') = l at hrest ⊢
        rcases l with e | ⟨more, rest⟩
        · exact hrest
        · rw [after, ← List.append_assoc]
          exact hrest
    · rw [if_pos hslash, if_pos hslash]
      have hrest := (ih (show pos + 1 ≤ text.length by omega) (by omega) (out ++ [c])).mono
        (Nat.le_succ pos)
      generalize Json.readChars turns (text.drop (pos + 1)) = l at hrest ⊢
      rcases l with e | ⟨more, rest⟩
      · exact hrest
      · rw [after] at hrest ⊢
        rwa [List.append_assoc, List.singleton_append] at hrest

theorem after_nil {β : Type} (read : Read (List β)) : after [] read = read := by
  rcases read with e | ⟨bytes, rest⟩
  · rfl
  · rfl

theorem readString_agrees {pos : ℕ} (h : pos ≤ text.length) :
    Agrees text pos (readString text pos) (Json.readString (text.drop pos)) := by
  rw [readString, Json.readString]
  rcases consume_cases '"' h with ⟨hhere, hleft⟩ | ⟨hlt, hhere, hleft⟩
  · rw [hhere, hleft]
    exact .error _
  · rw [hhere, hleft]
    have hchars : Agrees text (pos + 1) (readChars text (turns text (pos + 1)) [] (pos + 1))
        (after [] (Json.readChars (text.length - (pos + 1)) (text.drop (pos + 1)))) :=
      readChars_agrees (by omega) (by omega) []
    rw [after_nil] at hchars
    dsimp only [Option.bind_eq_bind, Option.bind_some]
    rw [List.length_drop]
    exact hchars.mono (Nat.le_succ pos)

/-! ### Values -/

/-- **The items of an array**, whatever was read before them. -/
theorem readItems_agrees {turns pos : ℕ} (h : pos ≤ text.length)
    (hturns : text.length ≤ turns + pos) (items : List ByteText) :
    Agrees text pos (readItems text (turns + 1) items pos)
      (after items (Json.readItems turns (text.drop pos))) := by
  induction turns generalizing pos items with
  | zero =>
    -- No text is left, so there is no quote of an item.
    obtain ⟨pos', hle, hend, hskip, hleft⟩ := skipSpace_eq h
    have hlast : pos' = text.length := by omega
    have hquote : readString text pos' = some (.error []) := by
      rw [readString, consume, if_neg (by omega)]
      rfl
    rw [readItems, hskip]
    dsimp only [Option.bind_eq_bind, Option.bind_some]
    rw [hquote]
    exact .error _
  | succ turns ih =>
    rw [readItems, Json.readItems]
    obtain ⟨pos₁, hle₁, hend₁, hskip₁, hleft₁⟩ := skipSpace_eq h
    rw [hskip₁, hleft₁]
    dsimp only [Option.bind_eq_bind, Option.bind_some]
    have hstring := readString_agrees hend₁
    generalize readString text pos₁ = r, Json.readString (text.drop pos₁) = l at hstring ⊢
    cases hstring with
    | error e => exact .error _
    | @ok item pos₂ hle₂ hend₂ =>
      obtain ⟨pos₃, hle₃, hend₃, hskip₃, hleft₃⟩ := skipSpace_eq hend₂
      dsimp only [Option.bind_some]
      rw [hskip₃, hleft₃]
      dsimp only [Option.bind_some]
      -- The end of the array, or a comma and the next item.
      rcases consume_cases ']' hend₃ with ⟨hhere, hleft⟩ | ⟨hlt, hhere, hleft⟩
      · rw [hhere, hleft]
        dsimp only [Option.bind_some]
        rcases consume_cases ',' hend₃ with ⟨hhere', hleft'⟩ | ⟨hlt', hhere', hleft'⟩
        · rw [hhere', hleft']
          exact .error _
        · rw [hhere', hleft']
          have hrest := (ih (show pos₃ + 1 ≤ text.length by omega) (by omega)
            (items ++ [item])).mono (show pos ≤ pos₃ + 1 by omega)
          dsimp only [Option.bind_some]
          generalize Json.readItems turns (text.drop (pos₃ + 1)) = l at hrest ⊢
          rcases l with e | ⟨more, rest⟩
          · exact hrest
          · rw [after] at hrest ⊢
            rwa [List.append_assoc, List.singleton_append] at hrest
      · rw [hhere, hleft]
        exact .ok _ (by omega) (by omega)

theorem readStringArray_agrees {pos : ℕ} (h : pos < text.length) :
    Agrees text pos (readStringArray text pos) (Json.readStringArray (text.drop (pos + 1))) := by
  rw [readStringArray, Json.readStringArray]
  obtain ⟨pos', hle, hend, hskip, hleft⟩ := skipSpace_eq (show pos + 1 ≤ text.length from h)
  rw [hskip, hleft]
  dsimp only [Option.bind_eq_bind, Option.bind_some]
  rcases consume_cases ']' hend with ⟨hhere, hleft'⟩ | ⟨hlt, hhere, hleft'⟩
  · rw [hhere, hleft', List.length_drop]
    have hitems : Agrees text pos' (readItems text (turns text (pos + 1)) [] pos')
        (after [] (Json.readItems (text.length - (pos + 1)) (text.drop pos'))) :=
      readItems_agrees hend (by omega) []
    rw [after_nil] at hitems
    dsimp only [Option.bind_some]
    generalize readItems text (turns text (pos + 1)) [] pos' = r,
      Json.readItems (text.length - (pos + 1)) (text.drop pos') = l at hitems ⊢
    cases hitems with
    | error e => exact .error e
    | ok items hstart hend' => exact .ok _ (by omega) hend'
  · rw [hhere, hleft']
    exact .ok _ (by omega) (by omega)

theorem int64_some {n : ℤ} (h : -10 ^ 18 < n ∧ n < 10 ^ 18) : int64 n = some n :=
  if_pos ⟨by omega, by omega⟩

theorem digit_value {c : UInt8} (h : isDigit c = true) :
    (c.toNat - (byte '0').toNat : ℤ) = (c - byte '0').toNat ∧ (c - byte '0').toNat < 10 := by
  have hdigit : byte '0' ≤ c ∧ c ≤ byte '9' := by simpa [isDigit] using h
  have hlow := UInt8.le_iff_toNat_le.mp hdigit.1
  have hhigh := UInt8.le_iff_toNat_le.mp hdigit.2
  have hzero : (byte '0').toNat = 48 := rfl
  have hnine : (byte '9').toNat = 57 := rfl
  rw [UInt8.toNat_sub_of_le _ _ hdigit.1]
  omega

/-- One digit. -/
theorem parsed_succ {n i value : ℕ} {c : UInt8} (hc : text[i]? = some c) (hdigit : isDigit c = true)
    (hvalue : value * 10 + (c - byte '0').toNat < 10 ^ 18) :
    parsed text (n + 1) i value =
      parsed text n (i + 1) ((value * 10 + (c - byte '0').toNat : ℕ) : ℤ) := by
  obtain ⟨hint, -⟩ := digit_value hdigit
  have htens : int64 ((value : ℤ) * 10) = some ((value : ℤ) * 10) :=
    int64_some ⟨by omega, by omega⟩
  have hsum : int64 ((value : ℤ) * 10 + ((c - byte '0').toNat : ℤ)) =
      some ((value : ℤ) * 10 + ((c - byte '0').toNat : ℤ)) := int64_some ⟨by omega, by omega⟩
  rw [parsed, hc, Nat.cast_add, Nat.cast_mul, Nat.cast_ofNat]
  simp only [Option.bind_eq_bind, Option.bind_some, hint, htens, hsum]

/-- **At most 18 digits do not overflow.** -/
theorem parsed_eq {n i k value : ℕ} (hi : i + n ≤ text.length)
    (hdigits : ∀ c ∈ (text.drop i).take n, isDigit c = true) (hvalue : value < 10 ^ k)
    (hk : k + n ≤ 18) :
    parsed text n i value = some ((((text.drop i).take n).foldl
      (fun parsed d => parsed * 10 + (d - byte '0').toNat) value : ℕ) : ℤ) := by
  induction n generalizing i k value with
  | zero =>
    rw [List.take_zero]
    rfl
  | succ n ih =>
    rcases drop_cases (show i ≤ text.length by omega) with ⟨hend, -⟩ | ⟨c, hlt, hc, hdrop⟩
    · omega
    rw [hdrop, List.take_succ_cons] at hdigits ⊢
    have hc' := hdigits c (List.mem_cons_self ..)
    obtain ⟨-, hdigit⟩ := digit_value hc'
    have hpow : 10 ^ (k + 1) ≤ 10 ^ 18 := Nat.pow_le_pow_right (by decide) (by omega)
    have hnext : value * 10 + (c - byte '0').toNat < 10 ^ (k + 1) := by
      rw [Nat.pow_succ]
      omega
    rw [parsed_succ hc hc' (hnext.trans_le hpow), List.foldl_cons]
    exact ih (by omega) (fun d hd => hdigits d (List.mem_cons_of_mem c hd)) hnext (by omega)

/-- The value of digits, by their number. -/
theorem foldl_digits_lt {digits : ByteText} (hdigits : ∀ c ∈ digits, isDigit c = true)
    {k value : ℕ} (hvalue : value < 10 ^ k) :
    digits.foldl (fun parsed d => parsed * 10 + (d - byte '0').toNat) value <
      10 ^ (k + digits.length) := by
  induction digits generalizing k value with
  | nil => exact hvalue
  | cons c digits ih =>
    obtain ⟨-, hdigit⟩ := digit_value (hdigits c (List.mem_cons_self ..))
    have hnext : value * 10 + (c - byte '0').toNat < 10 ^ (k + 1) := by
      rw [Nat.pow_succ]
      omega
    rw [List.foldl_cons, List.length_cons, Nat.add_comm digits.length, ← Nat.add_assoc]
    exact ih (fun d hd => hdigits d (List.mem_cons_of_mem c hd)) hnext

theorem leadingZero_eq {start : ℕ} {digits : ByteText}
    (h : digits = (text.drop start).takeWhile isDigit) :
    leadingZero text digits.length start =
      some (decide (1 < digits.length ∧ digits.head? = some (byte '0'))) := by
  rw [leadingZero]
  by_cases hmany : 1 < digits.length
  · have hne : text.drop start ≠ [] := by
      intro hnil
      rw [h, hnil] at hmany
      exact absurd hmany (by decide)
    obtain ⟨c, rest, hdrop⟩ := List.exists_cons_of_ne_nil hne
    have hc : text[start]? = some c := by
      rw [← List.head?_drop, hdrop]
      rfl
    -- The first digit is the character at the start.
    have hhead : digits.head? = some c := by
      rw [h, hdrop, List.takeWhile_cons] at hmany
      split at hmany
      · rename_i hdigit
        rw [h, hdrop, List.takeWhile_cons, if_pos hdigit]
        rfl
      · exact absurd hmany (by decide)
    rw [if_pos hmany, hc, hhead]
    simp [hmany]
  · rw [if_neg hmany]
    simp [hmany]

theorem floatLike_eq {pos : ℕ} (h : pos ≤ text.length) :
    floatLike text pos = some (decide ((text.drop pos).head? = some (byte '.') ∨
      (text.drop pos).head? = some (byte 'e') ∨ (text.drop pos).head? = some (byte 'E'))) := by
  rw [floatLike]
  rcases drop_cases h with ⟨hend, hdrop⟩ | ⟨c, hlt, hc, hdrop⟩
  · rw [if_neg (by omega), hdrop]
    rfl
  · rw [if_pos hlt, hc, hdrop]
    simp

theorem readInteger_agrees {pos : ℕ} (h : pos < text.length) :
    Agrees text pos (readInteger text pos) (Json.readInteger (text.drop pos)) := by
  rw [readInteger, Json.readInteger]
  obtain ⟨first, hfirst⟩ : ∃ c, text[pos]? = some c := ⟨_, List.getElem?_eq_getElem h⟩
  -- where the digits begin, with or without a sign
  obtain ⟨start, hle, hstart, hhere, hleft, hsign⟩ : ∃ start, pos ≤ start ∧ start ≤ text.length ∧
      (∃ sign, consume text '-' pos = some sign ∧ sign.getD pos = start) ∧
      (Json.consume '-' (text.drop pos)).getD (text.drop pos) = text.drop start ∧
      ((Json.consume '-' (text.drop pos)).isSome = true ↔ first = byte '-') := by
    rcases drop_cases h.le with ⟨hend, -⟩ | ⟨c, -, hc, hdrop⟩
    · omega
    obtain rfl : c = first := Option.some_inj.mp (hc.symm.trans hfirst)
    have hminus : (Json.consume '-' (text.drop pos)).isSome = true ↔ c = byte '-' := by
      rw [hdrop, Json.consume]
      by_cases hsign : c = byte '-'
      · rw [if_pos hsign]
        exact iff_of_true rfl hsign
      · rw [if_neg hsign]
        exact iff_of_false Bool.false_ne_true hsign
    rcases consume_cases '-' h.le with ⟨hhere, hleft⟩ | ⟨hlt, hhere, hleft⟩
    · exact ⟨pos, le_rfl, h.le, ⟨none, hhere, rfl⟩, by rw [hleft]; rfl, hminus⟩
    · exact ⟨pos + 1, by omega, by omega, ⟨some (pos + 1), hhere, rfl⟩, by rw [hleft]; rfl, hminus⟩
  obtain ⟨sign, hsome, hgetD⟩ := hhere
  rw [hsome]
  dsimp only [Option.bind_eq_bind, Option.bind_some]
  rw [hgetD, hleft]
  obtain ⟨hend, hrest⟩ := drop_takeWhile isDigit hstart
  rw [skipWhile_eq isDigit hstart (by rw [turns]; omega), ← hrest]
  generalize hdigits : (text.drop start).takeWhile isDigit = digits at hend ⊢
  dsimp only [Option.bind_some]
  rw [Nat.add_sub_cancel_left, leadingZero_eq hdigits.symm, floatLike_eq hend]
  dsimp only [Option.bind_some]
  simp only [decide_eq_true_eq]
  refine .ite (fun _ => .error _) fun hplain => ?_
  have hshort : digits.length ≤ 18 := by omega
  have htake : (text.drop start).take digits.length = digits := by
    rw [← hdigits]
    exact (List.prefix_iff_eq_take.mp (List.takeWhile_prefix isDigit)).symm
  have hall : ∀ c ∈ digits, isDigit c = true := by
    intro c hc
    rw [← hdigits] at hc
    exact List.mem_takeWhile_imp hc
  have hparsed := @parsed_eq text digits.length start 0 0 hend (by rwa [htake]) (by decide)
    (by omega)
  rw [htake] at hparsed
  change parsed text digits.length start 0 = some (digitsValue digits : ℤ) at hparsed
  have hlt : digitsValue digits < 10 ^ 18 := by
    have hdigits := foldl_digits_lt hall (show 0 < 10 ^ 0 by decide)
    rw [Nat.zero_add] at hdigits
    exact hdigits.trans_le (Nat.pow_le_pow_right (by decide) hshort)
  rw [hparsed, hfirst]
  dsimp only [Option.bind_some]
  by_cases hneg : first = byte '-'
  · rw [if_pos hneg, if_pos (hsign.mpr hneg), int64_some ⟨by omega, by omega⟩]
    exact .ok _ (by omega) hend
  · rw [if_neg hneg, if_neg (mt hsign.mp hneg), int64_some ⟨by omega, by omega⟩]
    exact .ok _ (by omega) hend

theorem readValue_agrees {pos : ℕ} (h : pos ≤ text.length) :
    Agrees text pos (readValue text pos) (Json.readValue (text.drop pos)) := by
  rw [readValue]
  rcases drop_cases h with ⟨hend, hdrop⟩ | ⟨c, hlt, hc, hdrop⟩
  · rw [if_pos (by omega), hdrop]
    exact .error _
  rw [if_neg (by omega), hc, hdrop, Json.readValue, ← hdrop]
  refine .ite (fun _ => ?_) fun _ => .ite (fun _ => readStringArray_agrees hlt) fun _ =>
    .ite (fun _ => readInteger_agrees hlt) fun _ => .error _
  have hstring := readString_agrees h
  generalize readString text pos = r, Json.readString (text.drop pos) = l at hstring ⊢
  cases hstring with
  | error e => exact .error e
  | ok value hstart hend => exact .ok _ hstart hend

/-! ### The object -/

theorem readMembers_agrees {turns pos : ℕ} (h : pos ≤ text.length)
    (hturns : text.length ≤ turns + pos) (members : Members) :
    Agrees text pos (readMembers text (turns + 1) members pos)
      (Json.readMembers turns members (text.drop pos)) := by
  induction turns generalizing pos members with
  | zero =>
    -- No text is left, so there is no quote of a key.
    obtain ⟨pos', hle, hend, hskip, hleft⟩ := skipSpace_eq h
    have hquote : readString text pos' = some (.error []) := by
      rw [readString, consume, if_neg (by omega)]
      rfl
    rw [readMembers, hskip]
    dsimp only [Option.bind_eq_bind, Option.bind_some]
    rw [hquote]
    exact .error _
  | succ turns ih =>
    rw [readMembers, Json.readMembers]
    obtain ⟨pos₁, hle₁, hend₁, hskip₁, hleft₁⟩ := skipSpace_eq h
    rw [hskip₁, hleft₁]
    dsimp only [Option.bind_eq_bind, Option.bind_some]
    -- The key, which must be new.
    have hkey := readString_agrees hend₁
    generalize readString text pos₁ = r, Json.readString (text.drop pos₁) = l at hkey ⊢
    cases hkey with
    | error e => exact .error _
    | @ok key pos₂ hle₂ hend₂ =>
      dsimp only [Option.bind_some]
      refine .ite (fun _ => .error _) fun _ => ?_
      obtain ⟨pos₃, hle₃, hend₃, hskip₃, hleft₃⟩ := skipSpace_eq hend₂
      rw [hskip₃, hleft₃]
      dsimp only [Option.bind_some]
      rcases consume_cases ':' hend₃ with ⟨hhere, hleft⟩ | ⟨hlt, hhere, hleft⟩
      · rw [hhere, hleft]
        exact .error _
      rw [hhere, hleft]
      dsimp only [Option.bind_some]
      obtain ⟨pos₄, hle₄, hend₄, hskip₄, hleft₄⟩ :=
        skipSpace_eq (show pos₃ + 1 ≤ text.length from hlt)
      rw [hskip₄, hleft₄]
      dsimp only [Option.bind_some]
      -- The value behind the colon.
      have hvalue := readValue_agrees hend₄
      generalize readValue text pos₄ = r, Json.readValue (text.drop pos₄) = l at hvalue ⊢
      cases hvalue with
      | error e => exact .error _
      | @ok value pos₅ hle₅ hend₅ =>
        dsimp only [Option.bind_some]
        obtain ⟨pos₆, hle₆, hend₆, hskip₆, hleft₆⟩ := skipSpace_eq hend₅
        rw [hskip₆, hleft₆]
        dsimp only [Option.bind_some]
        -- The end of the object, or a comma and the next member.
        rcases consume_cases '}' hend₆ with ⟨hopen, hopen'⟩ | ⟨hlt₆, hclose, hclose'⟩
        · rw [hopen, hopen']
          dsimp only [Option.bind_some]
          rcases consume_cases ',' hend₆ with ⟨hcomma, hcomma'⟩ | ⟨hlt₆, hcomma, hcomma'⟩
          · rw [hcomma, hcomma']
            exact .error _
          · rw [hcomma, hcomma']
            exact (ih (show pos₆ + 1 ≤ text.length from hlt₆) (by omega) _).mono (by omega)
        · rw [hclose, hclose']
          exact .ok _ (by omega) (by omega)

theorem skipSpace_skipSpace (rest : ByteText) :
    Json.skipSpace (Json.skipSpace rest) = Json.skipSpace rest :=
  List.dropWhile_idempotent ..

theorem readMembers_skipSpace (turns : ℕ) (members : Members) (rest : ByteText) :
    Json.readMembers turns members (Json.skipSpace rest) = Json.readMembers turns members rest := by
  cases turns with
  | zero => rfl
  | succ turns => rw [Json.readMembers, Json.readMembers, skipSpace_skipSpace]

/-- **No fault**: the reader over positions reads what the reader over texts reads. -/
theorem run_eq (text : ByteText) : run text = some (parseObject text) := by
  rw [run, parseObject]
  obtain ⟨pos₁, hle₁, hend₁, hskip₁, hleft₁⟩ := skipSpace_eq (Nat.zero_le text.length)
  rw [List.drop_zero] at hleft₁
  rw [hskip₁, hleft₁]
  dsimp only [Option.bind_eq_bind, Option.bind_some]
  rcases consume_cases '{' hend₁ with ⟨hhere, hleft⟩ | ⟨hlt, hhere, hleft⟩
  · rw [hhere, hleft]
    rfl
  rw [hhere, hleft]
  dsimp only [Option.bind_some]
  obtain ⟨pos₂, hle₂, hend₂, hskip₂, hleft₂⟩ :=
    skipSpace_eq (show pos₁ + 1 ≤ text.length from hlt)
  rw [hskip₂, ← readMembers_skipSpace, hleft₂]
  dsimp only [Option.bind_some]
  -- what may follow the closing brace
  have htail : ∀ (members : Members) {pos : ℕ}, pos ≤ text.length →
      ((skipSpace text pos).bind fun pos => pure (if pos ≠ text.length then
        Except.error (lit "trailing bytes after the object") else Except.ok members)) =
      some (if Json.skipSpace (text.drop pos) = [] then Except.ok members
        else Except.error (lit "trailing bytes after the object")) := by
    intro members pos hpos
    obtain ⟨pos', -, hend, hskip, hleft⟩ := skipSpace_eq hpos
    have hiff : text.drop pos' = [] ↔ pos' = text.length := by
      rw [List.drop_eq_nil_iff]
      omega
    rw [hskip, hleft]
    simp only [Option.bind_some, hiff, ite_not]
    rfl
  rcases consume_cases '}' hend₂ with ⟨hopen, hopen'⟩ | ⟨hlt₂, hclose, hclose'⟩
  · have hmembers : Agrees text pos₂ (readMembers text (turns text (pos₁ + 1)) [] pos₂)
        (Json.readMembers (text.length - (pos₁ + 1)) [] (text.drop pos₂)) :=
      readMembers_agrees hend₂ (by omega) []
    rw [hopen, hopen', List.length_drop]
    dsimp only [Option.bind_some]
    generalize readMembers text (turns text (pos₁ + 1)) [] pos₂ = r,
      Json.readMembers (text.length - (pos₁ + 1)) [] (text.drop pos₂) = l at hmembers ⊢
    cases hmembers with
    | error e => rfl
    | ok members _ hend₃ => exact htail members hend₃
  · rw [hclose, hclose']
    exact htail [] hlt₂

end Refinement

end Reader

/-! ### Texts in UTF-8 -/

def IsUtf8 (text : ByteText) : Prop :=
  ∃ chars : List Char, text = chars.flatMap String.utf8EncodeChar

theorem IsUtf8.append {text text' : ByteText} (h : IsUtf8 text) (h' : IsUtf8 text') :
    IsUtf8 (text ++ text') := by
  obtain ⟨chars, rfl⟩ := h
  obtain ⟨chars', rfl⟩ := h'
  exact ⟨chars ++ chars', List.flatMap_append.symm⟩

/-- Digits and spaces are ASCII. -/
theorem ascii_byte (c : UInt8) : ((hexDigit c).isSome = true → c < 0x80) ∧
    (isSpace c = true → c < 0x80) ∧ (isDigit c = true → c < 0x80) := by
  have hbelow {last : UInt8} (hlast : last < 0x80) (h : c ≤ last) : c < 0x80 :=
    UInt8.lt_of_le_of_lt h hlast
  refine ⟨fun h => ?_, fun h => ?_, fun h => ?_⟩
  · unfold hexDigit at h
    simp only [Bool.and_eq_true, decide_eq_true_eq] at h
    split at h
    · rename_i hdigit
      exact hbelow (by decide) hdigit.2
    split at h
    · rename_i hlower
      exact hbelow (by decide) hlower.2
    split at h
    · rename_i hupper
      exact hbelow (by decide) hupper.2
    · cases h
  · simp only [isSpace, Bool.or_eq_true, decide_eq_true_eq] at h
    rcases h with ((rfl | rfl) | rfl) | rfl
    · decide
    · decide
    · decide
    · decide
  · simp only [isDigit, Bool.and_eq_true, decide_eq_true_eq] at h
    exact hbelow (by decide) h.2

theorem isUtf8_ascii {text : ByteText} (h : ∀ c ∈ text, c < 0x80) : IsUtf8 text := by
  induction text with
  | nil => exact ⟨[], rfl⟩
  | cons c text ih =>
    obtain ⟨chars, hchars⟩ := ih fun c' hc' => h c' (List.mem_cons_of_mem c hc')
    refine ⟨Char.ofNat c.toNat :: chars, ?_⟩
    have hc := UInt8.lt_iff_toNat_lt.mp (h c (List.mem_cons_self ..))
    rw [List.flatMap_cons, encode_ascii hc, ← hchars]
    rfl

theorem IsUtf8.cons {c : UInt8} {text : ByteText} (hc : c < 0x80) (h : IsUtf8 text) :
    IsUtf8 (c :: text) :=
  (isUtf8_ascii (fun _ hmem => List.mem_singleton.mp hmem ▸ hc) : IsUtf8 [c]).append h

theorem IsUtf8.decode {text : ByteText} (h : IsUtf8 text) : (Utf8.decode text).isSome = true := by
  obtain ⟨chars, rfl⟩ := h
  rw [Utf8.decode_encode]
  rfl

/-- The strings of JSON: characters in UTF-8, and any code unit as an escape. -/
inductive JsonChars : ByteText → ByteText → Prop
  | nil : JsonChars [] []
  | plain {c : Char} {text out : ByteText} (hc : 0x20 ≤ c.toNat ∧ c ≠ '"' ∧ c ≠ '\\')
      (rest : JsonChars text out) :
      JsonChars (String.utf8EncodeChar c ++ text) (String.utf8EncodeChar c ++ out)
  | escape {e bytes text out : ByteText} (he : Escape e bytes) (rest : JsonChars text out) :
      JsonChars (byte '\\' :: e ++ text) (bytes ++ out)
  | unpaired {digits text out : ByteText} {code : ℕ} (hex : Hex4 digits code)
      (surrogate : 0xD800 ≤ code ∧ code ≤ 0xDFFF) (rest : JsonChars text out) :
      JsonChars (byte '\\' :: byte 'u' :: digits ++ text) (appendUtf8 code ++ out)

theorem Hex4.ascii {digits : ByteText} {code : ℕ} (h : Hex4 digits code) :
    ∀ c ∈ digits, c < 0x80 := by
  obtain ⟨h₁, h₂, h₃, h₄, d₁, d₂, d₃, d₄, rfl, e₁, e₂, e₃, e₄, -⟩ := h
  intro c hc
  simp only [List.mem_cons, List.not_mem_nil, or_false] at hc
  refine (ascii_byte c).1 ?_
  rcases hc with rfl | rfl | rfl | rfl
  · rw [e₁]
    rfl
  · rw [e₂]
    rfl
  · rw [e₃]
    rfl
  · rw [e₄]
    rfl

theorem Escape.isUtf8 {e bytes : ByteText} (h : Escape e bytes) : IsUtf8 e := by
  cases h with
  | short mem =>
    have hascii : (shortEscapes.all fun p => p.1 < 0x80) = true := by decide
    exact .cons (of_decide_eq_true (List.all_eq_true.mp hascii _ mem)) ⟨[], rfl⟩
  | basic hex _ => exact .cons (by decide) (isUtf8_ascii hex.ascii)
  | pair hex hex' _ _ =>
    exact .cons (by decide) ((isUtf8_ascii hex.ascii).append
      (.cons (by decide) (.cons (by decide) (isUtf8_ascii hex'.ascii))))

theorem JsonChars.isUtf8 {body out : ByteText} (h : JsonChars body out) : IsUtf8 body := by
  induction h with
  | nil => exact ⟨[], rfl⟩
  | @plain c _ _ _ _ ih => exact IsUtf8.append ⟨[c], by simp⟩ ih
  | escape he _ ih => exact .append (.cons (by decide) he.isUtf8) ih
  | unpaired hex _ _ ih =>
    exact .append (.cons (by decide) (.cons (by decide) (isUtf8_ascii hex.ascii))) ih

theorem Space.isUtf8 {w : ByteText} (h : Space w) : IsUtf8 w := by
  exact isUtf8_ascii fun c hc => (ascii_byte c).2.1 (h c hc)

theorem IntegerText.isUtf8 {s : ByteText} {n : ℤ} (h : IntegerText s n) : IsUtf8 s := by
  obtain ⟨digits, hs, hdigits, -⟩ := h
  have hutf8 : IsUtf8 digits := isUtf8_ascii fun c hc => (ascii_byte c).2.2 (hdigits c hc)
  rcases hs with ⟨rfl, -⟩ | ⟨rfl, -⟩
  · exact hutf8
  · exact .cons (by decide) hutf8

section Objects

variable {S : ByteText → ByteText → Prop} (hS : ∀ {body out}, S body out → IsUtf8 body)

include hS

theorem StringText.isUtf8 {s value : ByteText} (h : StringText S s value) : IsUtf8 s := by
  obtain ⟨body, rfl, hbody⟩ := h
  exact .cons (by decide) ((hS hbody).append (.cons (by decide) ⟨[], rfl⟩))

theorem ItemsText.isUtf8 {text : ByteText} {items : List ByteText} (h : ItemsText S text items) :
    IsUtf8 text := by
  induction h with
  | last hw hs hw' => exact (hw.isUtf8.append (hs.isUtf8 hS)).append hw'.isUtf8
  | more hw hs hw' _ ih =>
    exact ((hw.isUtf8.append (hs.isUtf8 hS)).append hw'.isUtf8).append (.cons (by decide) ih)

theorem ValueText.isUtf8 {s : ByteText} {value : Value} (h : ValueText S s value) : IsUtf8 s := by
  have hclose : IsUtf8 [byte ']'] := .cons (by decide) ⟨[], rfl⟩
  cases h with
  | string hs => exact hs.isUtf8 hS
  | integer hn => exact hn.isUtf8
  | empty hw => exact .cons (by decide) (hw.isUtf8.append hclose)
  | array hitems => exact .cons (by decide) ((hitems.isUtf8 hS).append hclose)

theorem MemberText.isUtf8 {text : ByteText} {m : ByteText × Value} (h : MemberText S text m) :
    IsUtf8 text := by
  cases h with
  | mk hw hk hw₁ hw₂ hv hw₃ =>
    exact ((hw.isUtf8.append (hk.isUtf8 hS)).append hw₁.isUtf8).append
      (.cons (by decide) ((hw₂.isUtf8.append (hv.isUtf8 hS)).append hw₃.isUtf8))

theorem MembersText.isUtf8 {text : ByteText} {ms : Members} (h : MembersText S text ms) :
    IsUtf8 text := by
  induction h with
  | last hm => exact hm.isUtf8 hS
  | more hm _ ih => exact (hm.isUtf8 hS).append (.cons (by decide) ih)

/-- **A flat object with strings in UTF-8 is a text in UTF-8.** -/
theorem FlatObject.isUtf8 {text : ByteText} {ms : Members} (h : FlatObject S text ms) :
    IsUtf8 text := by
  obtain ⟨w, body, w', rfl, hw, hw', hbody, -⟩ := h
  have hinner : IsUtf8 body := by
    rcases hbody with ⟨hspace, -⟩ | hmembers
    · exact hspace.isUtf8
    · exact hmembers.isUtf8 hS
  exact hw.isUtf8.append (.cons (by decide) (hinner.append (.cons (by decide) hw'.isUtf8)))

end Objects

/-! ### The subset -/

/-- A string that `append_string` wrote is read back to its end. -/
theorem readString_written (t : ByteText) :
    Reader.readString (appendString t) 0 = some (.ok (sanitize t, (appendString t).length)) := by
  have hread := Reader.readString_agrees (Nat.zero_le (appendString t).length)
  have hwritten := readString_appendString t []
  rw [List.append_nil, clean_eq le_rfl] at hwritten
  rw [List.drop_zero, hwritten] at hread
  generalize Reader.readString (appendString t) 0 = r at hread
  generalize hdrop : ([] : ByteText) = rest at hread
  cases hread with
  | @ok _ pos _ hend =>
    have hpos : (appendString t).length ≤ pos := List.drop_eq_nil_iff.mp hdrop.symm
    rw [Nat.le_antisymm hend hpos]

/-- **The subset is parsed exactly.**  The reader never reads outside the text nor overflows; it
accepts the flat objects, with their members, where a byte of a string from 0x80 on stands for
itself and a surrogate stands only in a pair; and a string is read back with U+FFFD for each byte
that is part of no character, a text in UTF-8 as it is. -/
theorem flat_object_reading (text : ByteText) :
    (Reader.run text).isSome = true ∧
    (∀ members, Reader.run text = some (.ok members) ↔ FlatObject Chars text members) ∧
    Reader.readString (appendString text) 0 =
      some (.ok (sanitize text, (appendString text).length)) ∧
    ∀ chars : List Char,
      Reader.readString (appendString (chars.flatMap String.utf8EncodeChar)) 0 =
        some (.ok (chars.flatMap String.utf8EncodeChar,
          (appendString (chars.flatMap String.utf8EncodeChar)).length)) := by
  refine ⟨?_, fun members => ?_, readString_written text, fun chars => ?_⟩
  · rw [Reader.run_eq]
    rfl
  · rw [Reader.run_eq, Option.some_inj]
    exact parseObject_iff
  · rw [readString_written, sanitize_eq]

/-- JSON has a flat object with an escape for a lone surrogate, which is refused, and none with a
byte that is not UTF-8, which is accepted. -/
theorem json_strings_differ :
    (FlatObject JsonChars (lit "\x7b\"k\":\"\\ud800\"\x7d")
        [(lit "k", .string (appendUtf8 0xD800))] ∧
      Reader.run (lit "\x7b\"k\":\"\\ud800\"\x7d") =
        some (.error (lit "unpaired surrogate"))) ∧
    Reader.run (lit "\x7b\"k\":\"" ++ [0xFF] ++ lit "\"\x7d") =
      some (.ok [(lit "k", .string [0xFF])]) ∧
    ∀ members, ¬ FlatObject JsonChars (lit "\x7b\"k\":\"" ++ [0xFF] ++ lit "\"\x7d") members := by
  refine ⟨⟨?_, by decide⟩, by decide, fun members h => ?_⟩
  · have hhex : Hex4 (lit "d800") 0xD800 :=
      ⟨byte 'd', byte '8', byte '0', byte '0', 13, 8, 0, 0, by decide⟩
    have hbody : JsonChars (lit "\\ud800") (appendUtf8 0xD800) :=
      .unpaired hhex (by decide) .nil
    have hkey : StringText JsonChars (lit "\"k\"") (lit "k") :=
      ⟨lit "k", by decide, .plain (c := 'k') (by decide) .nil⟩
    have hvalue : ValueText JsonChars (lit "\"\\ud800\"") (.string (appendUtf8 0xD800)) :=
      .string ⟨_, by decide, hbody⟩
    have hnone : Space [] := List.forall_mem_nil _
    exact ⟨[], lit "\"k\":\"\\ud800\"", [], by decide, hnone, hnone,
      .inr (.last (.mk hnone hkey hnone hnone hvalue hnone)), by decide⟩
  · exact absurd (h.isUtf8 JsonChars.isUtf8).decode (by decide)

end Calibration.Json
