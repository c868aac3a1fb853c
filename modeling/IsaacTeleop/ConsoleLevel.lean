/-
The console threshold of the logs.

Python and C++ both read `ISAACCAPTURE_LOG_LEVEL`: a level's name in any case, a number, or anything
else for info.  Python sees the value as text and strips Unicode's white space, C++ sees bytes and
strips the six ASCII blanks; Python's `int` has a limit on the digits, C++'s `from_chars` saturates.

* `envConsoleLevel`, `consoleLevel` — the two readings;
* `levelOf` — what both make of a stripped text;
* `console_levels_alike_iff` — the values that both read alike.
-/
import IsaacTeleop.EscapedText

open ByteText EscapedText

namespace ConsoleLevel

/-! ### Levels -/

/-- The six standard levels. -/
inductive Level
  | trace
  | debug
  | info
  | warning
  | error
  | critical
  deriving DecidableEq

def Level.all : List Level := [.trace, .debug, .info, .warning, .error, .critical]

def Level.name : Level → String
  | .trace => "trace"
  | .debug => "debug"
  | .info => "info"
  | .warning => "warning"
  | .error => "error"
  | .critical => "critical"

/-- The level's number in Python. -/
def Level.value : Level → ℤ
  | .trace => 5
  | .debug => 10
  | .info => 20
  | .warning => 30
  | .error => 40
  | .critical => 50

/-- The thresholds of spdlog; `none` is `off`. -/
abbrev SpdLevel := Option Level

/-- The place of a level in spdlog's order. -/
def Level.rank : Level → ℕ
  | .trace => 0
  | .debug => 1
  | .info => 2
  | .warning => 3
  | .error => 4
  | .critical => 5

/-- Whether a record passes a Python threshold. -/
def passesPython (threshold : ℤ) (level : Level) : Bool := threshold ≤ level.value

/-- Whether a record passes a threshold of spdlog. -/
def passesSpd (threshold : SpdLevel) (level : Level) : Bool :=
  match threshold with
  | some t => t.rank ≤ level.rank
  | none => false

/-! ### Python -/

/-- What Unicode's rules make of the characters outside ASCII in a text, by their places: other
characters outside ASCII, except for the two below. -/
abbrev LowerRule := PyStr → ℕ → {c : ℕ // 0x80 ≤ c}

/-- `str.lower` of one character; a capital I with a dot keeps the dot, the Kelvin sign is a k. -/
def lowerChar (other : ℕ) (c : ℕ) : PyStr :=
  if 65 ≤ c ∧ c ≤ 90 then [c + 32]
  else if c < 0x80 then [c]
  else if c = 0x130 then [0x69, 0x307]
  else if c = 0x212A then [0x6B]
  else [other]

/-- `str.lower` -/
def lower (rule : LowerRule) (s : PyStr) : PyStr :=
  s.zipIdx.flatMap fun p => lowerChar (rule s p.2) p.1

/-- A text without its sign. -/
def digitsOf : PyStr → PyStr
  | [] => []
  | c :: s => if c = 43 ∨ c = 45 then s else c :: s

/-- `isascii() and isdecimal()` -/
def isDecimal (s : PyStr) : Bool := s ≠ [] && s.all fun c => 48 ≤ c && c ≤ 57

/-- The number of a sign and digits. -/
def signedValue (s : PyStr) : ℤ :=
  let value := PyStr.digitsValue (digitsOf s)
  if s.head? = some 45 then -(value : ℤ) else value

/-- `int` of a sign and digits, which raises `ValueError` for too many digits. -/
def int (s : PyStr) : Option ℤ :=
  if (digitsOf s).length ≤ PyStr.maxStrDigits then some (signedValue s) else none

/-- `_LEVEL_NAMES.get(name, logging.INFO)` -/
def levelByName (name : PyStr) : Level :=
  (Level.all.find? fun level => PyStr.ofString level.name = name).getD .info

/-- `env_console_level`; `none` where it raises. -/
def envConsoleLevel (rule : LowerRule) (raw : Option ByteText) : Option ℤ :=
  match raw with
  | none => some Level.info.value
  | some bytes =>
    if fsdecode bytes = [] then some Level.info.value
    else
      let text := PyStr.strip (fsdecode bytes)
      if isDecimal (digitsOf text) then int text
      else some (levelByName (lower rule text)).value

/-! ### C++ -/

/-- `std::isspace` -/
def isBlank (c : ℕ) : Bool := (9 ≤ c && c ≤ 13) || c = 32

/-- `std::tolower` -/
def toLower (b : UInt8) : UInt8 := if 65 ≤ b ∧ b ≤ 90 then b + 32 else b

def normalizedEnv (text : ByteText) : ByteText := (trim (fun b => isBlank b.toNat) text).map toLower

/-- The threshold for a number. -/
def spdLevelOf (numeric : ℤ) : SpdLevel :=
  if numeric ≤ 5 then some .trace
  else if numeric ≤ 10 then some .debug
  else if numeric ≤ 20 then some .info
  else if numeric ≤ 30 then some .warning
  else if numeric ≤ 40 then some .error
  else if numeric ≤ 50 then some .critical
  else none

/-- The name without a sign. -/
def unsigned : ByteText → ByteText
  | [] => []
  | c :: s => if c = byte '+' ∨ c = byte '-' then s else c :: s

/-- `std::from_chars` of a minus sign and digits into an `int`; `none` is `result_out_of_range`. -/
def fromChars (text : ByteText) : Option ℤ :=
  let value : ℤ :=
    if text.head? = some (byte '-') then -(digitsValue text.tail : ℤ) else digitsValue text
  if -2 ^ 31 ≤ value ∧ value ≤ 2 ^ 31 - 1 then some value else none

/-- `console_level` -/
def consoleLevel (raw : Option ByteText) : SpdLevel :=
  match raw with
  | none => some .info
  | some text =>
    let name := normalizedEnv text
    match Level.all.find? fun level => name = lit level.name with
    | some level => some level
    | none =>
      let digits := unsigned name
      if digits = [] ∨ ¬digits.all isDigit then some .info
      else
        let numericName := if name.head? = some (byte '+') then name.tail else name
        match fromChars numericName with
        | none => if numericName.head? = some (byte '-') then some .trace else none
        | some numeric => spdLevelOf numeric

/-! ### One reading of a stripped text -/

/-- ASCII letters in lower case. -/
def asciiLower (s : PyStr) : PyStr := s.map fun c => if 65 ≤ c ∧ c ≤ 90 then c + 32 else c

/-- The threshold that a stripped text stands for. -/
def levelOf (s : PyStr) : ℤ :=
  if isDecimal (digitsOf s) then signedValue s else (levelByName (asciiLower s)).value

/-- The characters of the names. -/
theorem name_chars : ∀ level : Level, ∀ c ∈ PyStr.ofString level.name,
    c < 0x80 ∧ c ≠ 0x6B ∧ PyStr.isSpace c = false := by
  intro level
  cases level <;> decide

/-- A text with a character that no name has is no name. -/
theorem levelByName_eq_info {name : PyStr}
    (h : ∃ c ∈ name, 0x80 ≤ c ∨ c = 0x6B ∨ PyStr.isSpace c = true) : levelByName name = .info := by
  obtain ⟨c, hc, hother⟩ := h
  have hnone : (Level.all.find? fun level => PyStr.ofString level.name = name) = none := by
    rw [List.find?_eq_none]
    intro level _ heq
    rw [decide_eq_true_eq] at heq
    obtain ⟨hlt, hk, hspace⟩ := name_chars level c (heq ▸ hc)
    rcases hother with h | h | h
    · omega
    · exact hk h
    · rw [hspace] at h
      cases h
  rw [levelByName, hnone]
  rfl

/-- A sign and digits are ASCII and no spaces. -/
theorem digit_chars {s : PyStr} (h : isDecimal (digitsOf s) = true) :
    ∀ c ∈ s, c < 58 ∧ PyStr.isSpace c = false := by
  have hdigit : ∀ c, 48 ≤ c → c ≤ 57 → c < 58 ∧ PyStr.isSpace c = false := by
    intro c hle hge
    interval_cases c <;> decide
  rw [isDecimal, Bool.and_eq_true, List.all_eq_true] at h
  intro c hc
  -- A digit, or the sign before them.
  have hmem : c ∈ digitsOf s ∨ c = 43 ∨ c = 45 := by
    cases s with
    | nil => cases hc
    | cons d s =>
      rw [digitsOf]
      split
      · rename_i hsign
        rcases List.mem_cons.mp hc with rfl | hc
        · exact .inr hsign
        · exact .inl hc
      · exact .inl hc
  rcases hmem with hmem | rfl | rfl
  · have hrange := h.2 c hmem
    simp only [Bool.and_eq_true, decide_eq_true_eq] at hrange
    exact hdigit c hrange.1 hrange.2
  · decide
  · decide

/-- Where a text has a character outside ASCII or a space, both sides fall back to info. -/
theorem levelOf_eq_info {s : PyStr} (h : ∃ c ∈ s, 0x80 ≤ c ∨ PyStr.isSpace c = true) :
    levelOf s = 20 := by
  obtain ⟨c, hc, hother⟩ := h
  have hdecimal : isDecimal (digitsOf s) = false := by
    by_contra hne
    obtain ⟨hlt, hspace⟩ := digit_chars (by simpa using hne) c hc
    rcases hother with h | h
    · omega
    · rw [hspace] at h
      cases h
  -- Lowering keeps such a character, and no name of a level has one.
  have hinfo : levelByName (asciiLower s) = .info := by
    refine levelByName_eq_info ⟨_, List.mem_map_of_mem hc, ?_⟩
    rcases hother with h | h
    · rw [if_neg (by omega)]
      exact .inl h
    · have hnot : ¬(65 ≤ c ∧ c ≤ 90) := by
        rintro ⟨hle, hge⟩
        have hletter : PyStr.isSpace c = false := by interval_cases c <;> decide
        rw [hletter] at h
        cases h
      rw [if_neg hnot]
      exact .inr (.inr h)
  rw [levelOf, hdecimal, if_neg Bool.false_ne_true, hinfo]
  rfl

theorem asciiLower_idem (s : PyStr) : asciiLower (asciiLower s) = asciiLower s := by
  rw [asciiLower, asciiLower, List.map_map]
  refine List.map_congr_left fun c _ => ?_
  dsimp only [Function.comp_apply]
  split_ifs <;> omega

/-- A sign and digits have no letters. -/
theorem asciiLower_of_decimal {s : PyStr} (h : isDecimal (digitsOf s) = true) :
    asciiLower s = s := by
  have hchars := digit_chars h
  conv_rhs => rw [← List.map_id s]
  refine List.map_congr_left fun c hc => ?_
  have hlt := (hchars c hc).1
  exact if_neg (by omega)

/-- Lower case makes no digits. -/
theorem isDecimal_asciiLower (s : PyStr) :
    isDecimal (digitsOf (asciiLower s)) = isDecimal (digitsOf s) := by
  have hall : ∀ t : PyStr, isDecimal (asciiLower t) = isDecimal t := by
    intro t
    rw [isDecimal, isDecimal, asciiLower, List.all_map, Bool.eq_iff_iff, Bool.and_eq_true,
      Bool.and_eq_true, decide_eq_true_eq, decide_eq_true_eq, Ne, List.map_eq_nil_iff,
      List.all_eq_true, List.all_eq_true]
    refine and_congr Iff.rfl (forall₂_congr fun c _ => ?_)
    simp only [Function.comp_apply, Bool.and_eq_true, decide_eq_true_eq]
    split_ifs <;> omega
  have hdigits : digitsOf (asciiLower s) = asciiLower (digitsOf s) := by
    cases s with
    | nil => rfl
    | cons c s =>
      have hsign : ((if 65 ≤ c ∧ c ≤ 90 then c + 32 else c) = 43 ∨
          (if 65 ≤ c ∧ c ≤ 90 then c + 32 else c) = 45) ↔ (c = 43 ∨ c = 45) := by
        split_ifs <;> omega
      show (if _ ∨ _ then asciiLower s else asciiLower (c :: s)) = _
      simp only [hsign, digitsOf]
      split <;> rfl
  rw [hdigits, hall]

theorem levelOf_asciiLower (s : PyStr) : levelOf (asciiLower s) = levelOf s := by
  rw [levelOf, levelOf, isDecimal_asciiLower, asciiLower_idem]
  by_cases h : isDecimal (digitsOf s) = true
  · rw [if_pos h, if_pos h, asciiLower_of_decimal h]
  · rw [if_neg h, if_neg h]

/-! ### Python's reading -/

/-- In ASCII, `str.lower` changes the letters only. -/
theorem lower_of_ascii (rule : LowerRule) {s : PyStr} (h : ∀ c ∈ s, c < 0x80) :
    lower rule s = asciiLower s := by
  have hrun : ∀ (t : PyStr) (n : ℕ), (∀ c ∈ t, c < 0x80) →
      ((t.zipIdx n).flatMap fun p => lowerChar (rule s p.2) p.1) = asciiLower t := by
    intro t
    induction t with
    | nil => exact fun _ _ => rfl
    | cons c t ih =>
      intro n ht
      rw [List.zipIdx_cons, List.flatMap_cons,
        ih (n + 1) fun d hd => ht d (List.mem_cons_of_mem _ hd)]
      have hc := ht c List.mem_cons_self
      by_cases hupper : 65 ≤ c ∧ c ≤ 90
      · simp [lowerChar, asciiLower, hupper]
      · simp [lowerChar, asciiLower, hupper, hc]
  exact hrun s 0 h

/-- Outside ASCII, it leaves no name. -/
theorem lower_of_other (rule : LowerRule) {s : PyStr} (h : ∃ c ∈ s, 0x80 ≤ c) :
    levelByName (lower rule s) = .info := by
  obtain ⟨c, hc, hge⟩ := h
  obtain ⟨i, hi, hget⟩ := List.getElem_of_mem hc
  have hmem : (c, i) ∈ s.zipIdx := by
    rw [List.mem_zipIdx_iff_getElem?, List.getElem?_eq_getElem hi, hget]
  have hsub : ∀ d ∈ lowerChar (rule s i) c, d ∈ lower rule s :=
    fun d hd => List.mem_flatMap.mpr ⟨(c, i), hmem, hd⟩
  apply levelByName_eq_info
  by_cases hdot : c = 0x130
  · exact ⟨0x307, hsub _ (by simp [lowerChar, hdot]), .inl (by norm_num)⟩
  · by_cases hkelvin : c = 0x212A
    · exact ⟨0x6B, hsub _ (by simp [lowerChar, hkelvin]), .inr (.inl rfl)⟩
    · refine ⟨rule s i, hsub _ ?_, .inl (rule s i).2⟩
      rw [lowerChar, if_neg (by omega), if_neg (by omega), if_neg hdot, if_neg hkelvin]
      exact List.mem_singleton_self _

/-- The text that Python looks at. -/
def pythonText (bytes : ByteText) : PyStr := PyStr.strip (fsdecode bytes)

/-- A number that `int` refuses. -/
def TooLong (text : PyStr) : Prop :=
  isDecimal (digitsOf text) = true ∧ PyStr.maxStrDigits < (digitsOf text).length

/-- **Python's reading.** -/
theorem envConsoleLevel_some (rule : LowerRule) (bytes : ByteText) :
    envConsoleLevel rule (some bytes) =
      if isDecimal (digitsOf (pythonText bytes)) ∧
          PyStr.maxStrDigits < (digitsOf (pythonText bytes)).length then none
      else some (levelOf (pythonText bytes)) := by
  rw [envConsoleLevel]
  by_cases hempty : fsdecode bytes = []
  · rw [if_pos hempty, pythonText, hempty]
    rfl
  · rw [if_neg hempty]
    show (if isDecimal (digitsOf (pythonText bytes)) then int (pythonText bytes)
      else some (levelByName (lower rule (pythonText bytes))).value) = _
    generalize pythonText bytes = text
    cases hdecimal : isDecimal (digitsOf text) with
    | true =>
      rw [if_pos rfl, int, levelOf, hdecimal, if_pos rfl]
      by_cases hlong : (digitsOf text).length ≤ PyStr.maxStrDigits
      · rw [if_pos hlong, if_neg (by simp [hlong])]
      · rw [if_neg hlong, if_pos ⟨rfl, not_le.mp hlong⟩]
    | false =>
      rw [if_neg Bool.false_ne_true, if_neg (by simp), levelOf, hdecimal,
        if_neg Bool.false_ne_true]
      -- Lowering a text that is not ASCII may change it, but never into the name of a level.
      by_cases hascii : ∀ c ∈ text, c < 0x80
      · rw [lower_of_ascii rule hascii]
      · push Not at hascii
        obtain ⟨c, hc, hge⟩ := hascii
        have hinfo := levelOf_eq_info ⟨c, hc, .inl hge⟩
        rw [levelOf, hdecimal, if_neg Bool.false_ne_true] at hinfo
        rw [lower_of_other rule ⟨c, hc, hge⟩, hinfo]
        rfl

/-! ### The reading of C++ -/

/-- The text that C++ looks at. -/
def cppText (bytes : ByteText) : PyStr := fsdecode (trim (fun b => isBlank b.toNat) bytes)

/-- A number passes the same records on both sides. -/
theorem passesSpd_spdLevelOf (numeric : ℤ) (level : Level) :
    passesSpd (spdLevelOf numeric) level = passesPython numeric level := by
  rw [Bool.eq_iff_iff, passesPython, decide_eq_true_eq]
  unfold spdLevelOf
  split_ifs <;> cases level <;> simp [passesSpd, Level.rank, Level.value] <;> omega

/-- A level passes the same records as its number. -/
theorem passesSpd_some (threshold level : Level) :
    passesSpd (some threshold) level = passesPython threshold.value level := by
  cases threshold <;> cases level <;> rfl

theorem toNat_toLower (b : UInt8) :
    (toLower b).toNat = if 65 ≤ b.toNat ∧ b.toNat ≤ 90 then b.toNat + 32 else b.toNat := by
  have hle : ∀ n : UInt8, (n ≤ b ↔ n.toNat ≤ b.toNat) ∧ (b ≤ n ↔ b.toNat ≤ n.toNat) :=
    fun n => ⟨UInt8.le_iff_toNat_le, UInt8.le_iff_toNat_le⟩
  rw [toLower]
  by_cases hupper : 65 ≤ b ∧ b ≤ 90
  · have hupper' : 65 ≤ b.toNat ∧ b.toNat ≤ 90 := ⟨(hle 65).1.mp hupper.1, (hle 90).2.mp hupper.2⟩
    have hsmall : b.toNat + (32 : UInt8).toNat < 2 ^ 8 := by
      show b.toNat + 32 < 256
      omega
    rw [if_pos hupper, if_pos hupper', UInt8.toNat_add, Nat.mod_eq_of_lt hsmall]
    rfl
  · have hupper' : ¬(65 ≤ b.toNat ∧ b.toNat ≤ 90) := fun h =>
      hupper ⟨(hle 65).1.mpr h.1, (hle 90).2.mpr h.2⟩
    rw [if_neg hupper, if_neg hupper']

/-- The name in bytes is the text in lower case. -/
theorem map_toLower (bytes : ByteText) :
    (bytes.map toLower).map UInt8.toNat = asciiLower (bytes.map UInt8.toNat) := by
  rw [asciiLower, List.map_map, List.map_map]
  exact List.map_congr_left fun b _ => toNat_toLower b

theorem lit_toNat (level : Level) :
    (lit level.name).map UInt8.toNat = PyStr.ofString level.name := by
  cases level <;> decide

theorem map_toNat_inj {a b : ByteText} : a.map UInt8.toNat = b.map UInt8.toNat ↔ a = b :=
  List.map_inj_right fun _ _ h => UInt8.toNat_inj.mp h

theorem digitsOf_toNat (name : ByteText) :
    digitsOf (name.map UInt8.toNat) = (unsigned name).map UInt8.toNat := by
  cases name with
  | nil => rfl
  | cons b name =>
    have hplus : b.toNat = 43 ↔ b = byte '+' := by
      rw [← UInt8.toNat_inj]
      rfl
    have hminus : b.toNat = 45 ↔ b = byte '-' := by
      rw [← UInt8.toNat_inj]
      rfl
    simp only [List.map_cons, digitsOf, unsigned, hplus, hminus]
    split <;> rfl

theorem isDigit_iff (b : UInt8) : isDigit b = true ↔ 48 ≤ b.toNat ∧ b.toNat ≤ 57 := by
  rw [isDigit, Bool.and_eq_true, decide_eq_true_eq, decide_eq_true_eq, UInt8.le_iff_toNat_le,
    UInt8.le_iff_toNat_le]
  rfl

/-- Digits are digits in bytes and in text. -/
theorem isDecimal_toNat (digits : ByteText) :
    isDecimal (digits.map UInt8.toNat) = true ↔ ¬(digits = [] ∨ ¬digits.all isDigit) := by
  rw [isDecimal, Bool.and_eq_true, decide_eq_true_eq, Ne, List.map_eq_nil_iff, List.all_map,
    List.all_eq_true, not_or, not_not, List.all_eq_true]
  refine and_congr Iff.rfl (forall₂_congr fun b _ => ?_)
  rw [isDigit_iff, Function.comp_apply, Bool.and_eq_true, decide_eq_true_eq, decide_eq_true_eq]

/-- And they stand for the same number. -/
theorem digitsValue_toNat {digits : ByteText} (h : digits.all isDigit = true) :
    PyStr.digitsValue (digits.map UInt8.toNat) = digitsValue digits := by
  have hrun : ∀ (d : ByteText) (n : ℕ), (∀ b ∈ d, isDigit b = true) →
      (d.map UInt8.toNat).foldl (fun n c => n * 10 + (c - 48)) n =
        d.foldl (fun parsed b => parsed * 10 + (b - byte '0').toNat) n := by
    intro d
    induction d with
    | nil => exact fun _ _ => rfl
    | cons b d ih =>
      intro n hd
      obtain ⟨hle, -⟩ := (isDigit_iff b).mp (hd b List.mem_cons_self)
      have hsub : (b - byte '0').toNat = b.toNat - 48 :=
        UInt8.toNat_sub_of_le _ _ (UInt8.le_iff_toNat_le.mpr hle)
      rw [List.map_cons, List.foldl_cons, List.foldl_cons, hsub]
      exact ih _ fun b' hb' => hd b' (List.mem_cons_of_mem _ hb')
  exact hrun digits 0 (List.all_eq_true.mp h)

/-- A byte text begins with a minus where its characters do. -/
theorem head_minus (name : ByteText) :
    (name.map UInt8.toNat).head? = some 45 ↔ name.head? = some (byte '-') := by
  cases name with
  | nil => simp
  | cons b name =>
    rw [List.map_cons, List.head?_cons, List.head?_cons, Option.some_inj, Option.some_inj,
      ← UInt8.toNat_inj]
    rfl

/-- Without its plus sign, a number is read as what it stands for where it fits an `int`. -/
theorem fromChars_numeric {name : ByteText}
    (h : isDecimal (digitsOf (name.map UInt8.toNat)) = true) :
    let numericName := if name.head? = some (byte '+') then name.tail else name
    let value := signedValue (name.map UInt8.toNat)
    (numericName.head? = some (byte '-') ↔ name.head? = some (byte '-')) ∧
      fromChars numericName =
        if -2 ^ 31 ≤ value ∧ value ≤ 2 ^ 31 - 1 then some value else none := by
  intro numericName value
  have hdigits := h
  rw [digitsOf_toNat, isDecimal_toNat, not_or, not_not] at hdigits
  have hvalue : value = if name.head? = some (byte '-') then -(digitsValue (unsigned name) : ℤ)
      else digitsValue (unsigned name) := by
    simp only [value, signedValue, head_minus, digitsOf_toNat, digitsValue_toNat hdigits.2]
  -- A digit is no sign, so that only one sign is taken off.
  have hhead : (unsigned name).head? ≠ some (byte '-') := by
    intro hsome
    have hdigit := List.all_eq_true.mp hdigits.2 _ (List.mem_of_mem_head? hsome)
    exact absurd hdigit (by decide)
  have hparts : (numericName.head? = some (byte '-') ↔ name.head? = some (byte '-')) ∧
      (numericName.head? = some (byte '-') → numericName.tail = unsigned name) ∧
      (numericName.head? ≠ some (byte '-') → numericName = unsigned name) := by
    cases name with
    | nil => exact absurd rfl hdigits.1
    | cons b name =>
      by_cases hplus : b = byte '+'
      · subst hplus
        have hnumeric : numericName = unsigned (byte '+' :: name) := by simp [numericName, unsigned]
        rw [hnumeric]
        exact ⟨⟨fun h => absurd h hhead, fun h => absurd (Option.some.inj h) (by decide)⟩,
          fun h => absurd h hhead, fun _ => rfl⟩
      · have hnumeric : numericName = b :: name := by simp [numericName, hplus]
        rw [hnumeric]
        refine ⟨Iff.rfl, fun h => ?_, fun h => ?_⟩
        · have hb : b = byte '-' := by simpa using h
          simp [unsigned, hb]
        · have hb : b ≠ byte '-' := by simpa using h
          simp [unsigned, hb, hplus]
  obtain ⟨hsign, hminus, hplain⟩ := hparts
  refine ⟨hsign, ?_⟩
  have hread : value = if numericName.head? = some (byte '-') then
      -(digitsValue numericName.tail : ℤ) else digitsValue numericName := by
    rw [hvalue]
    by_cases hneg : numericName.head? = some (byte '-')
    · rw [if_pos hneg, if_pos (hsign.mp hneg), hminus hneg]
    · rw [if_neg hneg, if_neg fun h => hneg (hsign.mpr h), hplain hneg]
  rw [fromChars, hread]

/-- Outside the range of an `int`, the sign decides, as it does for the number. -/
theorem signedValue_sign (s : PyStr) :
    (s.head? = some 45 → signedValue s ≤ 0) ∧ (s.head? ≠ some 45 → 0 ≤ signedValue s) := by
  rw [signedValue]
  constructor
  · intro h
    rw [if_pos h]
    omega
  · intro h
    rw [if_neg h]
    omega


/-- A number of any size passes what its saturated reading passes. -/
theorem passesSpd_numeric {name : ByteText}
    (h : isDecimal (digitsOf (name.map UInt8.toNat)) = true) (level : Level) :
    let numericName := if name.head? = some (byte '+') then name.tail else name
    passesSpd (match fromChars numericName with
      | none => if numericName.head? = some (byte '-') then some .trace else none
      | some numeric => spdLevelOf numeric) level =
        passesPython (signedValue (name.map UInt8.toNat)) level := by
  intro numericName
  obtain ⟨hsign, hread⟩ := fromChars_numeric h
  obtain ⟨hneg, hpos⟩ := signedValue_sign (name.map UInt8.toNat)
  rw [head_minus] at hneg
  rw [Ne, head_minus] at hpos
  have hlevel : 5 ≤ level.value ∧ level.value ≤ 50 := by cases level <;> decide
  rw [hread]
  generalize signedValue (name.map UInt8.toNat) = value at hneg hpos ⊢
  -- A number beyond an `int` lies above or below every level.
  by_cases hfits : -2 ^ 31 ≤ value ∧ value ≤ 2 ^ 31 - 1
  · rw [if_pos hfits]
    exact passesSpd_spdLevelOf value level
  · rw [if_neg hfits]
    dsimp only
    by_cases hminus : name.head? = some (byte '-')
    · rw [if_pos (hsign.mpr hminus)]
      have hle := hneg hminus
      have hpass : value ≤ level.value := by omega
      rw [passesPython, decide_eq_true hpass]
      exact decide_eq_true (Nat.zero_le level.rank)
    · rw [if_neg fun h => hminus (hsign.mp h)]
      have hge := hpos hminus
      have hpass : ¬value ≤ level.value := by omega
      rw [passesPython, decide_eq_false hpass]
      rfl

/-- No sign and digits are a name. -/
theorem find_name_of_decimal {s : PyStr} (h : isDecimal (digitsOf s) = true) :
    (Level.all.find? fun level => PyStr.ofString level.name = s) = none := by
  rw [List.find?_eq_none]
  intro level _ heq
  rw [← of_decide_eq_true heq] at h
  cases level <;> exact absurd h (by decide)

/-- **C++'s reading**, in the bytes of the name. -/
theorem passesSpd_consoleLevel (bytes : ByteText) (level : Level) :
    passesSpd (consoleLevel (some bytes)) level =
      passesPython (levelOf ((normalizedEnv bytes).map UInt8.toNat)) level := by
  have hlower : asciiLower ((normalizedEnv bytes).map UInt8.toNat) =
      (normalizedEnv bytes).map UInt8.toNat := by
    rw [normalizedEnv, map_toLower, asciiLower_idem]
  rw [consoleLevel, levelOf, hlower, levelByName]
  generalize normalizedEnv bytes = name
  -- Both halves look the same name up in the same table.
  have hfind : (Level.all.find? fun level => decide (name = lit level.name)) =
      Level.all.find? fun level => decide (PyStr.ofString level.name = name.map UInt8.toNat) := by
    congr 1
    funext level
    rw [decide_eq_decide, ← lit_toNat level, map_toNat_inj]
    exact eq_comm
  rw [hfind]
  by_cases hdecimal : isDecimal (digitsOf (name.map UInt8.toNat)) = true
  · -- A decimal is the name of no level.
    rw [if_pos hdecimal, find_name_of_decimal hdecimal]
    have hdigits := hdecimal
    rw [digitsOf_toNat, isDecimal_toNat] at hdigits
    dsimp only
    rw [if_neg hdigits]
    exact passesSpd_numeric hdecimal level
  · rw [if_neg hdecimal]
    have hdigits := hdecimal
    rw [digitsOf_toNat, isDecimal_toNat, not_not] at hdigits
    cases Level.all.find? fun level =>
        decide (PyStr.ofString level.name = name.map UInt8.toNat) with
    | some named => exact passesSpd_some named level
    | none =>
      dsimp only
      rw [if_pos hdigits]
      exact passesSpd_some .info level

/-- **C++'s reading**, in the text that it looks at. -/
theorem passesSpd_cppText (bytes : ByteText) (level : Level) :
    passesSpd (consoleLevel (some bytes)) level = passesPython (levelOf (cppText bytes)) level := by
  rw [passesSpd_consoleLevel, normalizedEnv, map_toLower, levelOf_asciiLower, cppText]
  generalize trim (fun b : UInt8 => isBlank b.toNat) bytes = name
  congr 1
  by_cases hascii : ∀ b ∈ name, b.toNat < 0x80
  · rw [fsdecode_of_ascii hascii]
  · push Not at hascii
    obtain ⟨b, hb, hge⟩ := hascii
    obtain ⟨c, hc, hge'⟩ := exists_ge_of_byte ⟨b, hb, hge⟩
    rw [levelOf_eq_info ⟨b.toNat, List.mem_map_of_mem hb, .inl hge⟩,
      levelOf_eq_info ⟨c, hc, .inl hge'⟩]

/-! ### The two texts -/

/-- Python strips what C++ strips, and more. -/
theorem strip_cppText (bytes : ByteText) : PyStr.strip (cppText bytes) = pythonText bytes := by
  have hblank : ∀ c, isBlank c = true → c < 0x80 ∧ PyStr.isSpace c = true := by
    intro c hc
    have hle : c ≤ 32 := by
      simp only [isBlank, Bool.or_eq_true, Bool.and_eq_true, decide_eq_true_eq] at hc
      omega
    interval_cases c <;> revert hc <;> decide
  rw [cppText, fsdecode_trim fun c hc => (hblank c hc).1]
  exact trim_trim (fun c hc => (hblank c hc).2) (fsdecode bytes)

/-- What Python alone strips leaves C++ a text that is no level. -/
theorem levelOf_cppText {bytes : ByteText} (h : cppText bytes ≠ pythonText bytes) :
    levelOf (cppText bytes) = 20 := by
  obtain ⟨a, b, hsplit, ha, hb, -, -⟩ := trim_split PyStr.isSpace (cppText bytes)
  have hstrip : trim PyStr.isSpace (cppText bytes) = pythonText bytes := strip_cppText bytes
  rw [hstrip] at hsplit
  have hspace : ∃ c ∈ a ++ b, True := by
    by_contra hnone
    have hnil : a ++ b = [] := List.eq_nil_iff_forall_not_mem.mpr fun c hc => hnone ⟨c, hc, trivial⟩
    obtain ⟨rfl, rfl⟩ := List.append_eq_nil_iff.mp hnil
    exact h (by simpa using hsplit)
  obtain ⟨c, hc, -⟩ := hspace
  refine levelOf_eq_info ⟨c, ?_, .inr ?_⟩
  · rw [hsplit]
    rcases List.mem_append.mp hc with hc | hc <;> simp [hc]
  · rcases List.mem_append.mp hc with hc | hc
    · exact ha c hc
    · exact hb c hc

/-- A text that stands for info, or for a number that passes the same records. -/
def PlainInfo (text : PyStr) : Prop :=
  (∀ level : Level, asciiLower text = PyStr.ofString level.name → level = .info) ∧
    (isDecimal (digitsOf text) = true → 11 ≤ signedValue text ∧ signedValue text ≤ 20)

/-- A threshold that passes what info passes. -/
theorem passesPython_info_iff (threshold : ℤ) :
    (∀ level, passesPython threshold level = passesPython 20 level) ↔
      11 ≤ threshold ∧ threshold ≤ 20 := by
  constructor
  · intro h
    have hdebug : threshold ≤ 10 ↔ (20 : ℤ) ≤ 10 := decide_eq_decide.mp (h .debug)
    have hinfo : threshold ≤ 20 ↔ (20 : ℤ) ≤ 20 := decide_eq_decide.mp (h .info)
    omega
  · rintro ⟨hlow, hhigh⟩ level
    rw [passesPython, passesPython, decide_eq_decide]
    cases level <;> simp only [Level.value] <;> omega

theorem levelByName_eq_info_iff (name : PyStr) :
    levelByName name = .info ↔
      ∀ level : Level, name = PyStr.ofString level.name → level = .info := by
  constructor
  · rintro h level rfl
    have hself : levelByName (PyStr.ofString level.name) = level := by cases level <;> decide
    rw [← hself, h]
  · intro h
    rw [levelByName]
    cases hfind : Level.all.find? fun level => decide (PyStr.ofString level.name = name) with
    | none => rfl
    | some level =>
      have hname := List.find?_some hfind
      rw [decide_eq_true_eq] at hname
      exact h level hname.symm

theorem levelOf_plain_iff (text : PyStr) :
    (11 ≤ levelOf text ∧ levelOf text ≤ 20) ↔ PlainInfo text := by
  rw [levelOf, PlainInfo]
  by_cases hdecimal : isDecimal (digitsOf text) = true
  · rw [if_pos hdecimal, asciiLower_of_decimal hdecimal]
    have hnone : ∀ level : Level, text = PyStr.ofString level.name → level = .info := by
      rw [← levelByName_eq_info_iff, levelByName, find_name_of_decimal hdecimal]
      rfl
    exact ⟨fun h => ⟨hnone, fun _ => h⟩, fun h => h.2 hdecimal⟩
  · rw [if_neg hdecimal, ← levelByName_eq_info_iff]
    have hvalue : ∀ level : Level, (11 ≤ level.value ∧ level.value ≤ 20) ↔ level = .info := by
      intro level
      cases level <;> decide
    rw [hvalue]
    exact ⟨fun h => ⟨h, fun h' => absurd h' hdecimal⟩, fun h => h.1⟩

/-! ### Both halves -/

/-- The values that both halves read alike: Python can read the number, and where it strips more
than C++ does, nothing but info is left. -/
def ReadAlike : Option ByteText → Prop
  | none => True
  | some bytes => ¬TooLong (pythonText bytes) ∧
      (cppText bytes = pythonText bytes ∨ PlainInfo (pythonText bytes))

/-- **The two thresholds pass the same levels exactly where the values are read alike.** -/
theorem console_levels_alike_iff (rule : LowerRule) (raw : Option ByteText) :
    (∃ threshold, envConsoleLevel rule raw = some threshold ∧
      ∀ level, passesPython threshold level = passesSpd (consoleLevel raw) level) ↔
      ReadAlike raw := by
  cases raw with
  | none =>
    refine ⟨fun _ => trivial, fun _ => ⟨_, rfl, fun level => ?_⟩⟩
    exact (passesSpd_some .info level).symm
  | some bytes =>
    rw [envConsoleLevel_some]
    show _ ↔ ¬TooLong (pythonText bytes) ∧ _
    -- A number with too many digits raises in Python.
    by_cases hlong : TooLong (pythonText bytes)
    · have hcond := hlong
      rw [TooLong] at hcond
      rw [if_pos hcond]
      constructor
      · rintro ⟨threshold, hnone, -⟩
        cases hnone
      · exact fun h => absurd hlong h.1
    · have hcond := hlong
      rw [TooLong] at hcond
      rw [if_neg hcond]
      have hread : (∃ threshold, some (levelOf (pythonText bytes)) = some threshold ∧
          ∀ level, passesPython threshold level = passesSpd (consoleLevel (some bytes)) level) ↔
          ∀ level, passesPython (levelOf (pythonText bytes)) level =
            passesPython (levelOf (cppText bytes)) level := by
        simp only [passesSpd_cppText, Option.some_inj, exists_eq_left']
      rw [hread, and_iff_right hlong]
      -- Where the two texts differ, the C++ half falls back to `info`.
      by_cases hsame : cppText bytes = pythonText bytes
      · rw [hsame]
        exact ⟨fun _ => .inl rfl, fun _ _ => rfl⟩
      · rw [levelOf_cppText hsame, passesPython_info_iff, levelOf_plain_iff, or_iff_right hsame]

/-- A rule that leaves the other characters as they are. -/
def keepOther : LowerRule := fun s n => ⟨max 0x80 (s.getD n 0), le_max_left _ _⟩

/-- A file separator before the name is white space for Python only. -/
theorem separator_before_debug : ¬∃ threshold,
    envConsoleLevel keepOther (some (0x1C :: lit "debug")) = some threshold ∧
      ∀ level, passesPython threshold level =
        passesSpd (consoleLevel (some (0x1C :: lit "debug"))) level := by
  rintro ⟨threshold, hthreshold, hlevels⟩
  have hdebug : envConsoleLevel keepOther (some (0x1C :: lit "debug")) = some 10 := by decide
  rw [hdebug, Option.some_inj] at hthreshold
  subst hthreshold
  exact absurd (hlevels .debug) (by decide)

end ConsoleLevel
