/-
Calibration files of the SO-101 leader arm.

A calibration is an object of joints, each an object of fields.  The reader of the plugin is a
hand-written scanner over the text; it gives up with an empty map on what it cannot read.

* `parseLerobotCalibration` — the scanner;
* `Place`, `walk` — the format, as the places of a text and what may come at each of them;
* `fieldLoop_walk`, `motorLoop_walk` — the two loops of the scanner on a text that follows the
  format as far as it goes;
* `truncated_calibration` — which cuts of a well-formed text give the empty map.
-/
import IsaacTeleop.ByteText

namespace So101

open ByteText

/-! ### The scanner -/

/-- `std::isspace` -/
def isSpace (c : UInt8) : Bool := c = byte ' ' || (9 ≤ c && c ≤ 13)

/-- The text from the position of the scanner on. -/
abbrev Rest := ByteText

def skipWs (s : Rest) : Rest := s.dropWhile isSpace

/-- The loop of `parse_string`: whether the closing quote was found, the string, and the rest. -/
def scanString : Rest → ByteText → Bool × ByteText × Rest
  | [], out => (false, out, [])
  | c :: s, out =>
    if c = byte '"' then (true, out, s)
    else if c = byte '\\' then
      -- The escaped character is taken literally.
      match s with
      | [] => (false, out ++ [c], [])
      | e :: s => scanString s (out ++ [e])
    else scanString s (out ++ [c])

/-- `parse_string` -/
def parseString (s : Rest) : Bool × ByteText × Rest :=
  match skipWs s with
  | [] => (false, [], [])
  | c :: s => if c = byte '"' then scanString s [] else (false, [], c :: s)

/-- `consume` -/
def consume (c : UInt8) (s : Rest) : Option Rest :=
  match skipWs s with
  | [] => none
  | b :: s => if b = c then some s else none

/-- `std::strtol`, of a sign and digits: what is out of range becomes its bound. -/
def strtol (s : Rest) : Int64 :=
  let digits (s : Rest) : ℤ := digitsValue (s.takeWhile isDigit)
  let value : ℤ := match s with
    | [] => 0
    | c :: rest => if c = byte '-' then -digits rest else if c = byte '+' then digits rest
      else digits s
  Int64.ofInt (max (-2 ^ 63) (min value (2 ^ 63 - 1)))

/-- The text after an optional sign. -/
def skipSign : Rest → Rest
  | [] => []
  | c :: s => if c = byte '-' ∨ c = byte '+' then s else c :: s

def startsFraction : Rest → Bool
  | [] => false
  | c :: _ => c = byte '.' || c = byte 'e' || c = byte 'E'

/-- A value that is no integer is skipped shallowly. -/
def skipValue (s : Rest) : Rest :=
  match s with
  | [] => []
  | c :: rest =>
    if c = byte '"' then (scanString rest []).2.2
    else s.dropWhile fun b => b ≠ byte ',' && b ≠ byte '\x7d'

/-- The value of a field: an integer or nothing, and the rest. -/
def parseValue (s : Rest) : Option Int64 × Rest :=
  let digits := (skipSign s).takeWhile isDigit
  let after := (skipSign s).dropWhile isDigit
  if digits ≠ [] ∧ startsFraction after = false then (some (strtol s), after)
  else (none, skipValue s)

abbrev Fields := Finmap fun _ : ByteText => Int64
abbrev Motors := Finmap fun _ : ByteText => Fields

/-- `fields[key] = ...`, for an integer. -/
def storeField (fields : Fields) (key : ByteText) : Option Int64 → Fields
  | none => fields
  | some v => fields.insert key v

/-- The loop over the fields of a motor, for at most `fuel` iterations: the fields and the rest, or
nothing when the map is cleared. -/
def fieldLoop : ℕ → Fields → Rest → Option (Option (Fields × Rest))
  | 0, _, _ => none
  | fuel + 1, fields, s =>
    if s = [] then some (some (fields, []))
    else
      match parseString s with
      | (false, _) => some none
      | (true, key, s) =>
        match consume (byte ':') s with
        | none => some none
        | some s =>
          let (value, s) := parseValue (skipWs s)
          let fields := storeField fields key value
          match skipWs s with
          | [] => some none
          | c :: s =>
            if c = byte ',' then fieldLoop fuel fields s
            else if c = byte '\x7d' then some (some (fields, s))
            else some none

/-- The object of a motor, after its opening brace. -/
def parseFields (s : Rest) : Option (Option (Fields × Rest)) :=
  match skipWs s with
  | [] => fieldLoop 1 ∅ []
  | c :: rest =>
    if c = byte '\x7d' then some (some (∅, rest)) else fieldLoop (s.length + 1) ∅ (c :: rest)

/-- The loop over the motors. -/
def motorLoop : ℕ → Motors → Rest → Option Motors
  | 0, _, _ => none
  | fuel + 1, result, s =>
    if s = [] then some result
    else
      match parseString s with
      | (false, _) => some ∅
      | (true, motor, s) =>
        match (consume (byte ':') s).bind (consume (byte '\x7b')) with
        | none => some ∅
        | some s =>
          match parseFields s with
          | none => none
          | some none => some ∅
          | some (some (fields, s)) =>
            let result := result.insert motor fields
            match skipWs s with
            | [] => some result
            | c :: s => if c = byte ',' then motorLoop fuel result s else some result

/-- `parse_lerobot_calibration`; without a result if a loop does not end. -/
def parseLerobotCalibration (json : ByteText) : Option Motors :=
  match consume (byte '\x7b') json with
  | none => some ∅
  | some s =>
    match skipWs s with
    | [] => some ∅
    | c :: rest =>
      if c = byte '\x7d' then some ∅ else motorLoop (json.length + 1) ∅ (c :: rest)

/-! ### Every text -/

theorem length_skipWs_le (s : Rest) : (skipWs s).length ≤ s.length :=
  (List.dropWhile_sublist _).length_le

theorem scanString_length {s : Rest} (out : ByteText) :
    (scanString s out).2.2.length ≤ s.length ∧
      ((scanString s out).1 = true → (scanString s out).2.2.length < s.length) := by
  fun_induction scanString s out with
  | case1 out => simp
  | case2 => simp
  | case3 => simp
  | case4 out e s hne ih =>
    simp only [List.length_cons]
    exact ⟨by omega, fun h => by have := ih.2 h; omega⟩
  | case5 c s out hquote hescape ih =>
    simp only [List.length_cons]
    exact ⟨by omega, fun h => by have := ih.2 h; omega⟩

theorem parseString_length {s s' : Rest} {out : ByteText}
    (h : parseString s = (true, out, s')) : s'.length < s.length := by
  have hskip := length_skipWs_le s
  rw [parseString] at h
  split at h
  · cases h
  · rename_i c rest hrest
    rw [hrest, List.length_cons] at hskip
    split at h
    · have hlength := (scanString_length (s := rest) []).1
      rw [h] at hlength
      dsimp only at hlength
      omega
    · cases h

theorem consume_length {c : UInt8} {s s' : Rest} (h : consume c s = some s') :
    s'.length < s.length := by
  have hskip := length_skipWs_le s
  rw [consume] at h
  split at h
  · cases h
  · rename_i b rest hrest
    rw [hrest, List.length_cons] at hskip
    split at h
    · obtain rfl := Option.some_inj.mp h
      omega
    · cases h

theorem parseValue_length (s : Rest) : (parseValue s).2.length ≤ s.length := by
  have hsign : (skipSign s).length ≤ s.length := by
    unfold skipSign
    split
    · exact le_rfl
    · split
      · exact Nat.le_succ _
      · exact le_rfl
  have hskip : (skipValue s).length ≤ s.length := by
    unfold skipValue
    split
    · exact le_rfl
    · split
      · exact (scanString_length _).1.trans (Nat.le_succ _)
      · exact (List.dropWhile_sublist _).length_le
  rw [parseValue]
  split
  · exact ((List.dropWhile_sublist _).length_le).trans hsign
  · exact hskip

/-- The loop over fields ends, on any text. -/
theorem fieldLoop_ends {k : ℕ} {s : Rest} (h : s.length < k) (fields : Fields) :
    ∃ o, fieldLoop k fields s = some o ∧ ∀ r ∈ o, r.2.length ≤ s.length := by
  induction k generalizing s fields with
  | zero => omega
  | succ k ih =>
    rw [fieldLoop]
    split
    · exact ⟨_, rfl, by simp⟩
    split
    · exact ⟨_, rfl, by simp⟩
    rename_i key s₁ hkey
    -- Every turn reads past a key and its colon, so the text gets shorter.
    have hlength₁ := parseString_length hkey
    split
    · exact ⟨_, rfl, by simp⟩
    rename_i s₂ hcolon
    have hlength₂ := consume_length hcolon
    have hlength₃ := parseValue_length (skipWs s₂)
    have hskip₂ := length_skipWs_le s₂
    generalize parseValue (skipWs s₂) = value at hlength₃ ⊢
    obtain ⟨value, s₃⟩ := value
    dsimp only at hlength₃ ⊢
    have hskip₃ := length_skipWs_le s₃
    split
    · exact ⟨_, rfl, by simp⟩
    rename_i c s₄ hrest
    rw [hrest, List.length_cons] at hskip₃
    split
    · obtain ⟨o, hloop, hle⟩ := ih (s := s₄) (by omega) (storeField fields key value)
      exact ⟨o, hloop, fun r hr => (hle r hr).trans (by omega)⟩
    split
    · refine ⟨_, rfl, ?_⟩
      intro r hr
      obtain rfl := Option.some_inj.mp hr
      dsimp only
      omega
    · exact ⟨_, rfl, by simp⟩

theorem parseFields_ends (s : Rest) :
    ∃ o, parseFields s = some o ∧ ∀ r ∈ o, r.2.length ≤ s.length := by
  have hskip := length_skipWs_le s
  rw [parseFields]
  split
  · exact ⟨_, rfl, by simp⟩
  · rename_i c rest hrest
    rw [hrest] at hskip
    split
    · refine ⟨_, rfl, ?_⟩
      intro r hr
      obtain rfl := Option.some_inj.mp hr
      rw [List.length_cons] at hskip
      dsimp only
      omega
    · obtain ⟨o, hloop, hle⟩ := fieldLoop_ends (s := c :: rest) (k := s.length + 1) (by omega) ∅
      exact ⟨o, hloop, fun r hr => (hle r hr).trans hskip⟩

/-- The loop over motors ends, on any text. -/
theorem motorLoop_ends {fuel : ℕ} {s : Rest} (h : s.length < fuel) (result : Motors) :
    ∃ motors, motorLoop fuel result s = some motors := by
  induction fuel generalizing s result with
  | zero => omega
  | succ fuel ih =>
    rw [motorLoop]
    split
    · exact ⟨_, rfl⟩
    split
    · exact ⟨_, rfl⟩
    rename_i motor s₁ hmotor
    have hlength₁ := parseString_length hmotor
    split
    · exact ⟨_, rfl⟩
    rename_i s₂ hopen
    obtain ⟨s', hcolon, hbrace⟩ := Option.bind_eq_some_iff.mp hopen
    have hlength₂ := consume_length hcolon
    have hlength₃ := consume_length hbrace
    obtain ⟨o, hfields, hle⟩ := parseFields_ends s₂
    rw [hfields]
    cases o with
    | none => exact ⟨_, rfl⟩
    | some r =>
      -- The fields leave no more text than they were given.
      have hlength₄ := hle r rfl
      have hskip := length_skipWs_le r.2
      dsimp only
      split
      · exact ⟨_, rfl⟩
      rename_i c s₃ hrest
      rw [hrest, List.length_cons] at hskip
      split
      · exact ih (by omega) _
      · exact ⟨_, rfl⟩

/-- **The scanner ends** on every text. -/
theorem parseLerobotCalibration_ends (json : ByteText) :
    ∃ motors, parseLerobotCalibration json = some motors := by
  rw [parseLerobotCalibration]
  split
  · exact ⟨_, rfl⟩
  rename_i s hbrace
  have hlength := consume_length hbrace
  have hskip := length_skipWs_le s
  split
  · exact ⟨_, rfl⟩
  rename_i c rest hrest
  rw [hrest] at hskip
  split
  · exact ⟨_, rfl⟩
  · exact motorLoop_ends (by omega) ∅

/-! ### The format -/

/-- The places of a text. -/
inductive Place
  /-- before the opening brace -/
  | start
  /-- after it, before any motor -/
  | opened
  | motorName
  | motorEscape
  | named
  | motorColon
  /-- after the opening brace of a motor, before any field -/
  | motorOpened
  | key
  | keyEscape
  | keyed
  | keyColon
  | minus
  | digits
  /-- in a number that is no integer, or in a word such as `true` -/
  | word
  | text
  | textEscape
  | valued
  /-- right after a comma between fields -/
  | fieldComma
  | fieldSpace
  /-- after the closing brace of a motor -/
  | motorClosed
  /-- right after a comma between motors -/
  | motorComma
  | motorSpace
  /-- after the final closing brace -/
  | closed
  deriving DecidableEq

def isLetter (c : UInt8) : Bool := (byte 'a' ≤ c && c ≤ byte 'z') || (byte 'A' ≤ c && c ≤ byte 'Z')

def isWord (c : UInt8) : Bool :=
  isLetter c || isDigit c || c = byte '.' || c = byte '+' || c = byte '-'

namespace Place

/-- Space, after which the place is `here`, or one of the given bytes. -/
def expect (here : Place) (others : List (UInt8 × Place)) (c : UInt8) : Option Place :=
  if isSpace c then some here else others.lookup c

/-- Inside a string. -/
def quoted (here escape after : Place) (c : UInt8) : Option Place :=
  if c = byte '"' then some after else if c = byte '\\' then some escape else some here

/-- After a value. -/
def ended (c : UInt8) : Option Place :=
  expect valued [(byte ',', fieldComma), (byte '\x7d', motorClosed)] c

/-- What may come at a place, and where it leads. -/
def next (c : UInt8) : Place → Option Place
  | start => expect start [(byte '\x7b', opened)] c
  | opened => expect opened [(byte '"', motorName), (byte '\x7d', closed)] c
  | motorName => quoted motorName motorEscape named c
  | motorEscape => some motorName
  | named => expect named [(byte ':', motorColon)] c
  | motorColon => expect motorColon [(byte '\x7b', motorOpened)] c
  | motorOpened => expect motorOpened [(byte '"', key), (byte '\x7d', motorClosed)] c
  | key => quoted key keyEscape keyed c
  | keyEscape => some key
  | keyed => expect keyed [(byte ':', keyColon)] c
  | keyColon =>
    if c = byte '-' then some minus
    else if isDigit c then some digits
    else if isLetter c then some word
    else expect keyColon [(byte '"', text)] c
  | minus => if isDigit c then some digits else none
  | digits =>
    if isDigit c then some digits
    else if c = byte '.' ∨ c = byte 'e' ∨ c = byte 'E' then some word
    else ended c
  | word => if isWord c then some word else ended c
  | text => quoted text textEscape valued c
  | textEscape => some text
  | valued => ended c
  | fieldComma | fieldSpace => expect fieldSpace [(byte '"', key)] c
  | motorClosed => expect motorClosed [(byte ',', motorComma), (byte '\x7d', closed)] c
  | motorComma | motorSpace => expect motorSpace [(byte '"', motorName)] c
  | closed => expect closed [] c

/-- The place after some text. -/
def walk (q : Place) (s : ByteText) : Option Place := s.foldlM (fun q c => q.next c) q

/-- Inside a field, from its colon to the comma or the brace after it. -/
def InValue (q : Place) : Prop :=
  q ∈ [keyColon, minus, digits, word, text, textEscape, valued]

/-- The places where the scanner takes the end of the text for the end of an object. -/
def Loose (q : Place) : Prop := q ∈ [motorOpened, fieldComma, motorClosed, motorComma]

instance (q : Place) : Decidable q.InValue := inferInstanceAs (Decidable (q ∈ _))

instance (q : Place) : Decidable q.Loose := inferInstanceAs (Decidable (q ∈ _))

theorem walk_cons (q : Place) (c : UInt8) (s : ByteText) :
    walk q (c :: s) = (q.next c).bind fun q' => walk q' s := List.foldlM_cons

theorem walk_append (q : Place) (s t : ByteText) :
    walk q (s ++ t) = (walk q s).bind fun q' => walk q' t := List.foldlM_append

theorem walk_cons_eq {q r : Place} {c : UInt8} {s : ByteText} (h : walk q (c :: s) = some r) :
    ∃ q', q.next c = some q' ∧ walk q' s = some r := by
  rw [walk_cons] at h
  exact Option.bind_eq_some_iff.mp h

end Place

/-- A well-formed calibration. -/
def WellFormed (text : ByteText) : Prop := Place.walk .start text = some .closed

instance (text : ByteText) : Decidable (WellFormed text) := inferInstanceAs (Decidable (_ = _))

example : WellFormed (lit "\x7b\"gripper\": \x7b\"id\": 6, \"drive_mode\": 0\x7d\x7d\n") := by
  decide

/-! ### The scanner on the format -/

namespace Place

theorem expect_space {here : Place} {others : List (UInt8 × Place)} {c : UInt8}
    (hc : isSpace c = true) : expect here others c = some here := if_pos hc

theorem expect_mem {here q : Place} {others : List (UInt8 × Place)} {c : UInt8}
    (h : expect here others c = some q) (hc : isSpace c = false) : (c, q) ∈ others := by
  rw [expect, hc] at h
  obtain ⟨before, after, rfl, -⟩ := List.lookup_eq_some_iff.mp h
  exact List.mem_append_right _ List.mem_cons_self

theorem skipWs_cons_space {c : UInt8} (hc : isSpace c = true) (s : Rest) :
    skipWs (c :: s) = skipWs s := List.dropWhile_cons_of_pos hc

theorem skipWs_cons {c : UInt8} (hc : isSpace c = false) (s : Rest) :
    skipWs (c :: s) = c :: s := List.dropWhile_cons_of_neg (by rw [hc]; exact Bool.false_ne_true)

/-- Where space or one of some bytes is expected: the text ends in the space, or one of the bytes
comes after it. -/
theorem walk_expect (here : Place) {q r : Place} {others : List (UInt8 × Place)}
    (hq : ∀ c, q.next c = expect here others c) (hhere : ∀ c, here.next c = expect here others c)
    {s : Rest} (h : walk q s = some r) :
    (skipWs s = [] ∧ (s = [] ∧ r = q ∨ s ≠ [] ∧ r = here)) ∨
      ∃ c q' rest, skipWs s = c :: rest ∧ (c, q') ∈ others ∧ walk q' rest = some r := by
  induction s generalizing q with
  | nil =>
    obtain rfl := Option.some_inj.mp h
    exact .inl ⟨rfl, .inl ⟨rfl, rfl⟩⟩
  | cons c s ih =>
    obtain ⟨q', hnext, hwalk⟩ := walk_cons_eq h
    rw [hq] at hnext
    cases hc : isSpace c with
    | true =>
      -- White space leads to the place behind it, where the same may come.
      rw [expect_space hc] at hnext
      obtain rfl := Option.some_inj.mp hnext
      rw [skipWs_cons_space hc]
      rcases ih hhere hwalk with ⟨hskip, hr⟩ | hfound
      · refine .inl ⟨hskip, .inr ⟨List.cons_ne_nil _ _, ?_⟩⟩
        rcases hr with ⟨-, hr⟩ | ⟨-, hr⟩
        · exact hr
        · exact hr
      · exact .inr hfound
    | false => exact .inr ⟨c, q', s, skipWs_cons hc s, expect_mem hnext hc, hwalk⟩

/-- The same where space leads nowhere else. -/
theorem walk_expect_self {q r : Place} {others : List (UInt8 × Place)}
    (hq : ∀ c, q.next c = expect q others c) {s : Rest} (h : walk q s = some r) :
    (skipWs s = [] ∧ r = q) ∨
      ∃ c q' rest, skipWs s = c :: rest ∧ (c, q') ∈ others ∧ walk q' rest = some r := by
  rcases walk_expect q hq hq h with ⟨hskip, ⟨-, hr⟩ | ⟨-, hr⟩⟩ | hfound
  · exact .inl ⟨hskip, hr⟩
  · exact .inl ⟨hskip, hr⟩
  · exact .inr hfound

/-- Space that leads nowhere else may be skipped. -/
theorem walk_skipWs {q : Place} (hq : ∀ c, isSpace c = true → q.next c = some q) (s : Rest) :
    walk q (skipWs s) = walk q s := by
  induction s with
  | nil => rfl
  | cons c s ih =>
    cases hc : isSpace c with
    | true => rw [skipWs_cons_space hc, ih, walk_cons, hq c hc, Option.bind_some]
    | false => rw [skipWs_cons hc]

theorem skipWs_skipWs (s : Rest) : skipWs (skipWs s) = skipWs s := by
  induction s with
  | nil => rfl
  | cons c s ih =>
    cases hc : isSpace c with
    | true => rw [skipWs_cons_space hc, ih]
    | false => rw [skipWs_cons hc, skipWs_cons hc]

/-- Where one byte is expected, `consume` finds it or the text ends. -/
theorem walk_consume (q' : Place) {q r : Place} {c : UInt8} (hq : ∀ b, q.next b = expect q [(c, q')] b)
    {s : Rest} (h : walk q s = some r) :
    (consume c s = none ∧ r = q) ∨ ∃ rest, consume c s = some rest ∧ walk q' rest = some r := by
  rcases walk_expect_self hq h with ⟨hskip, hr⟩ | ⟨b, q₁, rest, hskip, hmem, hwalk⟩
  · exact .inl ⟨by rw [consume, hskip], hr⟩
  · obtain ⟨rfl, rfl⟩ := Prod.mk.inj (List.mem_singleton.mp hmem)
    refine .inr ⟨rest, ?_, hwalk⟩
    rw [consume, hskip]
    exact if_pos rfl

/-- Inside a string: the text ends there, or the closing quote is found. -/
theorem walk_quoted (here escape after : Place) {r : Place}
    (hhere : ∀ c, here.next c = quoted here escape after c)
    (hescape : ∀ c, escape.next c = some here) {s : Rest} (out : ByteText)
    (h : walk here s = some r) :
    ((scanString s out).1 = false ∧ (scanString s out).2.2 = [] ∧ (r = here ∨ r = escape)) ∨
      ∃ out' rest, scanString s out = (true, out', rest) ∧ walk after rest = some r := by
  fun_induction scanString s out with
  | case1 out =>
    obtain rfl := Option.some_inj.mp h
    exact .inl ⟨rfl, rfl, .inl rfl⟩
  | case2 s out =>
    -- The closing quote.
    obtain ⟨q', hnext, hwalk⟩ := walk_cons_eq h
    rw [hhere, quoted, if_pos rfl] at hnext
    obtain rfl := Option.some_inj.mp hnext
    exact .inr ⟨out, s, rfl, hwalk⟩
  | case3 out hne =>
    -- A backslash that ends the text.
    obtain ⟨q', hnext, hwalk⟩ := walk_cons_eq h
    rw [hhere, quoted, if_neg hne, if_pos rfl] at hnext
    obtain rfl := Option.some_inj.mp hnext
    obtain rfl := Option.some_inj.mp hwalk
    exact .inl ⟨rfl, rfl, .inr rfl⟩
  | case4 out e s hne ih =>
    -- A backslash takes the character behind it along.
    obtain ⟨q', hnext, hwalk⟩ := walk_cons_eq h
    rw [hhere, quoted, if_neg hne, if_pos rfl] at hnext
    obtain rfl := Option.some_inj.mp hnext
    obtain ⟨q'', hnext, hwalk⟩ := walk_cons_eq hwalk
    rw [hescape] at hnext
    obtain rfl := Option.some_inj.mp hnext
    exact ih hwalk
  | case5 out c s hquote hback ih =>
    obtain ⟨q', hnext, hwalk⟩ := walk_cons_eq h
    rw [hhere, quoted, if_neg hquote, if_neg hback] at hnext
    obtain rfl := Option.some_inj.mp hnext
    exact ih hwalk

theorem parseString_quote {s rest : Rest} (h : skipWs s = byte '"' :: rest) :
    parseString s = scanString rest [] := by
  rw [parseString, h]
  exact if_pos rfl

theorem parseString_end {s : Rest} (h : skipWs s = []) : (parseString s).1 = false := by
  rw [parseString, h]

/-! ### Values -/

/-- What is left after a value: the text ends in it, or a comma or the brace follows. -/
def Continues (s : Rest) (r : Place) : Prop :=
  (s = [] ∧ r.InValue) ∨ (∃ rest, s = byte ',' :: rest ∧ walk .fieldComma rest = some r) ∨
    ∃ rest, s = byte '\x7d' :: rest ∧ walk .motorClosed rest = some r

theorem Continues.skipWs {s : Rest} {r : Place} (h : Continues s r) : Continues (skipWs s) r := by
  rcases h with ⟨rfl, hr⟩ | ⟨rest, rfl, hwalk⟩ | ⟨rest, rfl, hwalk⟩
  · exact .inl ⟨rfl, hr⟩
  · exact .inr (.inl ⟨rest, rfl, hwalk⟩)
  · exact .inr (.inr ⟨rest, rfl, hwalk⟩)

theorem walk_valued {s : Rest} {r : Place} (h : walk .valued s = some r) :
    Continues (So101.skipWs s) r := by
  rcases walk_expect_self (fun _ => rfl) h with ⟨hskip, rfl⟩ | ⟨c, q, rest, hskip, hmem, hwalk⟩
  · exact .inl ⟨hskip, by decide⟩
  · rw [hskip]
    rcases List.mem_cons.mp hmem with hpair | hmem
    · obtain ⟨rfl, rfl⟩ := Prod.mk.inj hpair
      exact .inr (.inl ⟨rest, rfl, hwalk⟩)
    · obtain ⟨rfl, rfl⟩ := Prod.mk.inj (List.mem_singleton.mp hmem)
      exact .inr (.inr ⟨rest, rfl, hwalk⟩)

/-- The places of a value that is no string. -/
def Bare (q : Place) : Prop := q ∈ [minus, digits, word, valued]

instance (q : Place) : Decidable q.Bare := inferInstanceAs (Decidable (q ∈ _))

theorem Bare.cases {q : Place} (h : q.Bare) : q = minus ∨ q = digits ∨ q = word ∨ q = valued := by
  simpa [Bare] using h

theorem Bare.inValue {q : Place} (h : q.Bare) : q.InValue := by
  rcases h.cases with rfl | rfl | rfl | rfl <;> decide

/-- A byte after a value. -/
theorem ended_bare {c : UInt8} {q : Place} (hcomma : c ≠ byte ',') (hbrace : c ≠ byte '\x7d')
    (h : ended c = some q) : q.Bare := by
  cases hc : isSpace c with
  | true =>
    rw [ended, expect_space hc] at h
    obtain rfl := Option.some_inj.mp h
    decide
  | false =>
    have hmem := expect_mem h hc
    rcases List.mem_cons.mp hmem with hpair | hmem
    · exact absurd (Prod.mk.inj hpair).1 hcomma
    · exact absurd (Prod.mk.inj (List.mem_singleton.mp hmem)).1 hbrace

/-- Inside a value only a comma or a brace leads out of it. -/
theorem Bare.next {q q' : Place} (hq : q.Bare) {c : UInt8} (hcomma : c ≠ byte ',')
    (hbrace : c ≠ byte '\x7d') (h : q.next c = some q') : q'.Bare := by
  have hbare : ∀ {b : Place}, b.Bare → some b = some q' → q'.Bare := by
    intro b hb heq
    rwa [← Option.some_inj.mp heq]
  rcases hq.cases with rfl | rfl | rfl | rfl
  · rw [Place.next] at h
    split at h
    · exact hbare (by decide) h
    · cases h
  · rw [Place.next] at h
    split at h
    · exact hbare (by decide) h
    split at h
    · exact hbare (by decide) h
    · exact ended_bare hcomma hbrace h
  · rw [Place.next] at h
    split at h
    · exact hbare (by decide) h
    · exact ended_bare hcomma hbrace h
  · exact ended_bare hcomma hbrace h

theorem Bare.comma {q q' : Place} (hq : q.Bare) (h : q.next (byte ',') = some q') :
    q' = fieldComma := by
  have hnext : q.next (byte ',') = none ∨ q.next (byte ',') = some fieldComma := by
    rcases hq.cases with rfl | rfl | rfl | rfl <;> decide
  rcases hnext with hnone | hsome
  · rw [hnone] at h
    cases h
  · exact Option.some_inj.mp (h.symm.trans hsome)

theorem Bare.brace {q q' : Place} (hq : q.Bare) (h : q.next (byte '\x7d') = some q') :
    q' = motorClosed := by
  have hnext : q.next (byte '\x7d') = none ∨ q.next (byte '\x7d') = some motorClosed := by
    rcases hq.cases with rfl | rfl | rfl | rfl <;> decide
  rcases hnext with hnone | hsome
  · rw [hnone] at h
    cases h
  · exact Option.some_inj.mp (h.symm.trans hsome)

/-- Skipping to the next comma or brace. -/
theorem Bare.skip {q r : Place} (hq : q.Bare) {s : Rest} (h : walk q s = some r) :
    Continues (s.dropWhile fun b => b ≠ byte ',' && b ≠ byte '\x7d') r := by
  induction s generalizing q with
  | nil =>
    obtain rfl := Option.some_inj.mp h
    exact .inl ⟨rfl, hq.inValue⟩
  | cons c s ih =>
    obtain ⟨q', hnext, hwalk⟩ := walk_cons_eq h
    by_cases hcomma : c = byte ','
    · subst hcomma
      rw [hq.comma hnext] at hwalk
      exact .inr (.inl ⟨s, List.dropWhile_cons_of_neg (by decide), hwalk⟩)
    by_cases hbrace : c = byte '\x7d'
    · subst hbrace
      rw [hq.brace hnext] at hwalk
      exact .inr (.inr ⟨s, List.dropWhile_cons_of_neg (by decide), hwalk⟩)
    rw [List.dropWhile_cons_of_pos (by simp [hcomma, hbrace])]
    exact ih (hq.next hcomma hbrace hnext) hwalk

/-- After the digits of an integer. -/
theorem walk_digits {s : Rest} {r : Place} (h : walk .digits s = some r)
    (hfraction : startsFraction (s.dropWhile isDigit) = false) :
    Continues (So101.skipWs (s.dropWhile isDigit)) r := by
  induction s with
  | nil =>
    obtain rfl := Option.some_inj.mp h
    exact .inl ⟨rfl, by decide⟩
  | cons c s ih =>
    obtain ⟨q', hnext, hwalk⟩ := walk_cons_eq h
    by_cases hdigit : isDigit c = true
    · rw [List.dropWhile_cons_of_pos hdigit] at hfraction ⊢
      rw [Place.next, if_pos hdigit] at hnext
      obtain rfl := Option.some_inj.mp hnext
      exact ih hwalk hfraction
    · rw [List.dropWhile_cons_of_neg hdigit] at hfraction ⊢
      -- The number ends here, so what comes is what may come after a value.
      have hplain : ¬ (c = byte '.' ∨ c = byte 'e' ∨ c = byte 'E') := by
        simpa [startsFraction, and_assoc] using hfraction
      rw [Place.next, if_neg hdigit, if_neg hplain] at hnext
      refine walk_valued ?_
      rw [walk_cons]
      exact Option.bind_eq_some_iff.mpr ⟨q', hnext, hwalk⟩

theorem not_digit_of_letter {c : UInt8} (h : isLetter c = true) :
    isDigit c = false ∧ c ≠ byte '-' ∧ c ≠ byte '+' ∧ c ≠ byte '"' ∧ c ≠ byte ',' ∧
      c ≠ byte '\x7d' := by
  refine ⟨?_, ?_, ?_, ?_, ?_, ?_⟩
  · simp only [isLetter, isDigit, Bool.or_eq_true, Bool.and_eq_true, decide_eq_true_eq,
      Bool.and_eq_false_iff, decide_eq_false_iff_not, UInt8.le_iff_toNat_le] at h ⊢
    right
    have hnine : (byte '9').toNat = 57 := rfl
    have hlow : (byte 'a').toNat = 97 := rfl
    have hhigh : (byte 'A').toNat = 65 := rfl
    omega
  all_goals
    rintro rfl
    exact absurd h (by decide)

theorem not_special_of_digit {c : UInt8} (h : isDigit c = true) :
    c ≠ byte '-' ∧ c ≠ byte '+' ∧ c ≠ byte '"' ∧ c ≠ byte ',' ∧ c ≠ byte '\x7d' := by
  refine ⟨?_, ?_, ?_, ?_, ?_⟩
  all_goals
    rintro rfl
    exact absurd h (by decide)

/-- A value that is no string and is skipped. -/
theorem Bare.skipValue {q r : Place} (hq : q.Bare) {c : UInt8} {s : Rest} (hquote : c ≠ byte '"')
    (hcomma : c ≠ byte ',') (hbrace : c ≠ byte '\x7d') (h : walk q s = some r) :
    Continues (So101.skipWs (So101.skipValue (c :: s))) r := by
  have hskip := hq.skip h
  rw [So101.skipValue, if_neg hquote, List.dropWhile_cons_of_pos (by simp [hcomma, hbrace])]
  exact hskip.skipWs

/-- Space before a value. -/
theorem next_keyColon_space {c : UInt8} (hc : isSpace c = true) :
    Place.next c .keyColon = some .keyColon := by
  have hminus : c ≠ byte '-' := by
    rintro rfl
    exact absurd hc (by decide)
  have hdigit : ¬ isDigit c = true ∧ ¬ isLetter c = true := by
    simp only [isSpace, isDigit, isLetter, Bool.or_eq_true, Bool.and_eq_true, decide_eq_true_eq,
      UInt8.le_iff_toNat_le, ← UInt8.toNat_inj] at hc ⊢
    have hspace : (byte ' ').toNat = 32 := rfl
    have hthirteen : (13 : UInt8).toNat = 13 := rfl
    have hzero : (byte '0').toNat = 48 := rfl
    have hlow : (byte 'a').toNat = 97 := rfl
    have hhigh : (byte 'A').toNat = 65 := rfl
    omega
  rw [Place.next, if_neg hminus, if_neg hdigit.1, if_neg hdigit.2, expect_space hc]

/-- **A value**, from its first byte on. -/
theorem walk_value {s : Rest} {r : Place} (hs : So101.skipWs s = s)
    (h : walk .keyColon s = some r) : Continues (So101.skipWs (parseValue s).2) r := by
  cases s with
  | nil =>
    obtain rfl := Option.some_inj.mp h
    exact .inl ⟨rfl, by decide⟩
  | cons c s =>
    have hspace : isSpace c = false := by
      cases hc : isSpace c with
      | false => rfl
      | true =>
        rw [skipWs_cons_space hc] at hs
        have hlength := length_skipWs_le s
        rw [hs, List.length_cons] at hlength
        omega
    obtain ⟨q, hnext, hwalk⟩ := walk_cons_eq h
    rw [parseValue]
    rw [Place.next] at hnext
    by_cases hminus : c = byte '-'
    · subst hminus
      rw [if_pos rfl] at hnext
      obtain rfl := Option.some_inj.mp hnext
      have hsign : skipSign (byte '-' :: s) = s := by simp [skipSign]
      rw [hsign]
      split
      · rename_i hint
        -- There is a digit after the sign.
        cases s with
        | nil => exact absurd rfl hint.1
        | cons d s =>
          obtain ⟨q', hnext, hrest⟩ := walk_cons_eq hwalk
          rw [Place.next] at hnext
          split at hnext
          · rename_i hdigit
            refine walk_digits ?_ hint.2
            rw [walk_cons, Place.next, if_pos hdigit]
            rw [← Option.some_inj.mp hnext] at hrest
            exact hrest
          · cases hnext
      · show Continues (So101.skipWs (So101.skipValue (byte '-' :: s))) r
        exact Bare.skipValue (q := .minus) (c := byte '-') (by decide) (by decide) (by decide)
          (by decide) hwalk
    rw [if_neg hminus] at hnext
    by_cases hdigit : isDigit c = true
    · obtain ⟨-, hplus, hquote, hcomma, hbrace⟩ := not_special_of_digit hdigit
      rw [if_pos hdigit] at hnext
      obtain rfl := Option.some_inj.mp hnext
      have hsign : skipSign (c :: s) = c :: s := by simp [skipSign, hminus, hplus]
      rw [hsign]
      split
      · rename_i hint
        refine walk_digits ?_ hint.2
        rw [walk_cons, Place.next, if_pos hdigit]
        exact hwalk
      · exact Bare.skipValue (q := .digits) (by decide) hquote hcomma hbrace hwalk
    rw [if_neg hdigit] at hnext
    have hnone : ∀ {b : UInt8}, b ≠ byte '-' → b ≠ byte '+' → isDigit b ≠ true →
        ¬ ((skipSign (b :: s)).takeWhile isDigit ≠ [] ∧
          startsFraction ((skipSign (b :: s)).dropWhile isDigit) = false) := by
      intro b hb hb' hbd hint
      have hsign : skipSign (b :: s) = b :: s := by simp [skipSign, hb, hb']
      rw [hsign, List.takeWhile_cons_of_neg hbd] at hint
      exact hint.1 rfl
    by_cases hletter : isLetter c = true
    · obtain ⟨-, -, hplus, hquote, hcomma, hbrace⟩ := not_digit_of_letter hletter
      rw [if_pos hletter] at hnext
      obtain rfl := Option.some_inj.mp hnext
      rw [if_neg (hnone hminus hplus hdigit)]
      exact Bare.skipValue (q := .word) (by decide) hquote hcomma hbrace hwalk
    · rw [if_neg hletter] at hnext
      obtain ⟨rfl, rfl⟩ := Prod.mk.inj (List.mem_singleton.mp (expect_mem hnext hspace))
      rw [if_neg (hnone (by decide) (by decide) (by decide))]
      have hskip : So101.skipValue (byte '"' :: s) = (scanString s []).2.2 := by
        simp [So101.skipValue]
      rw [hskip]
      rcases walk_quoted .text .textEscape .valued
        (fun _ => rfl) (fun _ => rfl) [] hwalk with ⟨-, hrest, hr⟩ | ⟨out, rest, hscan, hrest⟩
      · rw [hrest]
        refine .inl ⟨rfl, ?_⟩
        rcases hr with rfl | rfl <;> decide
      · rw [hscan]
        exact walk_valued hrest

end Place

/-! ### The loops on the format -/

open Place

theorem InValue.not_loose {q : Place} (h : q.InValue) : ¬ q.Loose := by
  revert h
  cases q <;> decide

/-- What the scanner makes of the fields of a motor when the text is at `r` at its end: the map is
cleared and `r` is inside a field; the fields end with the text; or the brace is found. -/
def FieldsRead (o : Option (Option (Fields × Rest))) (r : Place) : Prop :=
  (o = some none ∧ ¬ r.Loose) ∨ (∃ fields, o = some (some (fields, [])) ∧ r.Loose) ∨
    ∃ fields rest, o = some (some (fields, rest)) ∧ walk .motorClosed rest = some r

/-- The place before a key. -/
def BeforeKey (q : Place) (s : Rest) : Prop :=
  q = .fieldComma ∨ (q = .motorOpened ∧ skipWs s = s ∧ s.head? ≠ some (byte '\x7d'))

theorem BeforeKey.walk {q r : Place} {s : Rest} (hq : BeforeKey q s) (hs : s ≠ [])
    (h : walk q s = some r) :
    ((parseString s).1 = false ∧ r = .fieldSpace) ∨
      ∃ rest, skipWs s = byte '"' :: rest ∧ Place.walk .key rest = some r := by
  rcases hq with rfl | ⟨rfl, hskip, hhead⟩
  · rcases walk_expect .fieldSpace (q := .fieldComma) (fun _ => rfl) (fun _ => rfl) h
      with ⟨hend, ⟨hnil, -⟩ | ⟨-, hr⟩⟩ | ⟨c, q', rest, hrest, hmem, hwalk⟩
    · exact absurd hnil hs
    · exact .inl ⟨parseString_end hend, hr⟩
    · obtain ⟨rfl, rfl⟩ := Prod.mk.inj (List.mem_singleton.mp hmem)
      exact .inr ⟨rest, hrest, hwalk⟩
  · rcases walk_expect_self (q := .motorOpened) (fun _ => rfl) h
      with ⟨hend, -⟩ | ⟨c, q', rest, hrest, hmem, hwalk⟩
    · exact absurd (hskip.symm.trans hend) hs
    · rcases List.mem_cons.mp hmem with hpair | hmem
      · obtain ⟨rfl, rfl⟩ := Prod.mk.inj hpair
        exact .inr ⟨rest, hrest, hwalk⟩
      · obtain ⟨rfl, rfl⟩ := Prod.mk.inj (List.mem_singleton.mp hmem)
        rw [← hskip, hrest] at hhead
        exact absurd rfl hhead

/-- **The fields** of a motor. -/
theorem fieldLoop_walk {fuel : ℕ} {s : Rest} (hfuel : s.length < fuel) (fields : Fields)
    {q r : Place} (hq : BeforeKey q s) (h : walk q s = some r) :
    FieldsRead (fieldLoop fuel fields s) r := by
  induction fuel generalizing s fields q with
  | zero => omega
  | succ fuel ih =>
    rw [fieldLoop]
    by_cases hs : s = []
    · subst hs
      obtain rfl := Option.some_inj.mp h
      refine .inr (.inl ⟨fields, if_pos rfl, ?_⟩)
      rcases hq with rfl | ⟨rfl, -⟩ <;> decide
    rw [if_neg hs]
    rcases hq.walk hs h with ⟨hfailed, rfl⟩ | ⟨rest, hrest, hkey⟩
    · generalize parseString s = parsed at hfailed ⊢
      obtain ⟨found, out, rest⟩ := parsed
      obtain rfl : found = false := hfailed
      exact .inl ⟨rfl, by decide⟩
    have hparse := parseString_quote hrest
    rcases walk_quoted .key .keyEscape .keyed (fun _ => rfl)
      (fun _ => rfl) [] hkey with ⟨hfailed, -, hr⟩ | ⟨key, s₁, hscan, hkeyed⟩
    · rw [hparse]
      generalize scanString rest [] = parsed at hfailed ⊢
      obtain ⟨found, out, rest⟩ := parsed
      obtain rfl : found = false := hfailed
      refine .inl ⟨rfl, ?_⟩
      rcases hr with rfl | rfl <;> decide
    rw [hparse, hscan]
    have hlength₁ := parseString_length (hparse.trans hscan)
    dsimp only
    rcases walk_consume .keyColon (q := .keyed) (fun _ => rfl) hkeyed
      with ⟨hnone, rfl⟩ | ⟨s₂, hcolon, hvalue⟩
    · rw [hnone]
      exact .inl ⟨rfl, by decide⟩
    rw [hcolon]
    have hlength₂ := consume_length hcolon
    have hlength₃ := parseValue_length (skipWs s₂)
    have hskip₂ := length_skipWs_le s₂
    -- Space before the value leads nowhere.
    have hstart : walk .keyColon (skipWs s₂) = some r := by
      rw [← hvalue]
      exact walk_skipWs (fun c hc => next_keyColon_space hc) s₂
    have hcontinues := walk_value (skipWs_skipWs s₂) hstart
    dsimp only
    generalize parseValue (skipWs s₂) = value at hcontinues hlength₃ ⊢
    obtain ⟨value, s₃⟩ := value
    dsimp only at hcontinues hlength₃ ⊢
    have hskip₃ := length_skipWs_le s₃
    rcases hcontinues with ⟨hend, hin⟩ | ⟨s₄, hcomma, hwalk⟩ | ⟨s₄, hbrace, hwalk⟩
    · rw [hend]
      exact .inl ⟨rfl, InValue.not_loose hin⟩
    · rw [hcomma, List.length_cons] at hskip₃
      rw [hcomma]
      dsimp only
      rw [if_pos rfl]
      exact ih (by omega) _ (.inl rfl) hwalk
    · rw [hbrace]
      dsimp only
      rw [if_neg (by decide), if_pos rfl]
      exact .inr (.inr ⟨_, s₄, rfl, hwalk⟩)

/-- The object of a motor, after its opening brace. -/
theorem parseFields_walk {s : Rest} {r : Place} (h : walk .motorOpened s = some r) :
    FieldsRead (parseFields s) r := by
  have hlength := length_skipWs_le s
  rw [parseFields]
  rcases walk_expect_self (q := .motorOpened) (fun _ => rfl) h
    with ⟨hend, rfl⟩ | ⟨c, q, rest, hrest, hmem, hwalk⟩
  · rw [hend]
    exact .inr (.inl ⟨∅, rfl, by decide⟩)
  · rw [hrest] at hlength ⊢
    rcases List.mem_cons.mp hmem with hpair | hmem
    · obtain ⟨rfl, rfl⟩ := Prod.mk.inj hpair
      dsimp only
      rw [if_neg (by decide)]
      refine fieldLoop_walk (q := .motorOpened) (by omega) ∅ (.inr ⟨rfl, rfl, ?_⟩) ?_
      · exact fun h => absurd (Option.some_inj.mp h) (by decide)
      rw [walk_cons]
      exact hwalk
    · obtain ⟨rfl, rfl⟩ := Prod.mk.inj (List.mem_singleton.mp hmem)
      exact .inr (.inr ⟨∅, rest, rfl, hwalk⟩)

/-- After the final brace there is only space. -/
theorem walk_closed {s : Rest} {r : Place} (h : walk .closed s = some r) :
    r = .closed ∧ byte '\x7d' ∉ s := by
  induction s with
  | nil => exact ⟨(Option.some_inj.mp h).symm, List.not_mem_nil⟩
  | cons c s ih =>
    obtain ⟨q, hnext, hwalk⟩ := walk_cons_eq h
    cases hc : isSpace c with
    | false => exact absurd (expect_mem hnext hc) List.not_mem_nil
    | true =>
      have hclosed : q = .closed := (Option.some_inj.mp ((expect_space hc).symm.trans hnext)).symm
      rw [hclosed] at hwalk
      obtain ⟨hr, hmem⟩ := ih hwalk
      refine ⟨hr, fun hbrace => ?_⟩
      rcases List.mem_cons.mp hbrace with rfl | hbrace
      · exact absurd hc (by decide)
      · exact hmem hbrace

theorem insert_ne_empty (result : Motors) (motor : ByteText) (fields : Fields) :
    result.insert motor fields ≠ ∅ := by
  intro h
  have hlookup := Finmap.lookup_insert (a := motor) (b := fields) result
  rw [h, Finmap.lookup_empty] at hlookup
  cases hlookup

/-- The place before a motor: after a comma, with motors in the map, or at the first one. -/
def BeforeMotor (q : Place) (result : Motors) (s : Rest) : Prop :=
  (q = .motorComma ∧ result ≠ ∅) ∨
    (q = .opened ∧ result = ∅ ∧ skipWs s = s ∧ s.head? ≠ some (byte '\x7d'))

theorem BeforeMotor.walk {q r : Place} {result : Motors} {s : Rest} (hq : BeforeMotor q result s)
    (hs : s ≠ []) (h : walk q s = some r) :
    ((parseString s).1 = false ∧ r = .motorSpace) ∨
      ∃ rest, skipWs s = byte '"' :: rest ∧ Place.walk .motorName rest = some r := by
  rcases hq with ⟨rfl, -⟩ | ⟨rfl, -, hskip, hhead⟩
  · rcases walk_expect .motorSpace (q := .motorComma) (fun _ => rfl) (fun _ => rfl) h
      with ⟨hend, ⟨hnil, -⟩ | ⟨-, hr⟩⟩ | ⟨c, q', rest, hrest, hmem, hwalk⟩
    · exact absurd hnil hs
    · exact .inl ⟨parseString_end hend, hr⟩
    · obtain ⟨rfl, rfl⟩ := Prod.mk.inj (List.mem_singleton.mp hmem)
      exact .inr ⟨rest, hrest, hwalk⟩
  · rcases walk_expect_self (q := .opened) (fun _ => rfl) h
      with ⟨hend, -⟩ | ⟨c, q', rest, hrest, hmem, hwalk⟩
    · exact absurd (hskip.symm.trans hend) hs
    · rcases List.mem_cons.mp hmem with hpair | hmem
      · obtain ⟨rfl, rfl⟩ := Prod.mk.inj hpair
        exact .inr ⟨rest, hrest, hwalk⟩
      · obtain ⟨rfl, rfl⟩ := Prod.mk.inj (List.mem_singleton.mp hmem)
        rw [← hskip, hrest] at hhead
        exact absurd rfl hhead

/-- The map that the scanner returns when the text is at `r` at its end. -/
def MotorsRead (o : Option Motors) (r : Place) : Prop :=
  ∃ motors, o = some motors ∧ (motors = ∅ ↔ ¬ r.Loose)

theorem MotorsRead.cleared {r : Place} (h : ¬ r.Loose) : MotorsRead (some ∅) r :=
  ⟨∅, rfl, iff_of_true rfl h⟩

theorem MotorsRead.kept {motors : Motors} (hmotors : motors ≠ ∅) {r : Place} (h : r.Loose) :
    MotorsRead (some motors) r :=
  ⟨motors, rfl, iff_of_false hmotors (not_not.mpr h)⟩

/-- **The motors** of a text that ends before its final brace. -/
theorem motorLoop_walk {fuel : ℕ} {s : Rest} (hfuel : s.length < fuel) {result : Motors}
    {q r : Place} (hq : BeforeMotor q result s) (h : walk q s = some r) (hr : r ≠ .closed) :
    MotorsRead (motorLoop fuel result s) r := by
  induction fuel generalizing s result q with
  | zero => omega
  | succ fuel ih =>
    rw [motorLoop]
    -- The text ends where a motor could stand.
    by_cases hs : s = []
    · subst hs
      obtain rfl := Option.some_inj.mp h
      rw [if_pos rfl]
      rcases hq with ⟨rfl, hresult⟩ | ⟨rfl, rfl, -⟩
      · exact .kept hresult (by decide)
      · exact .cleared (by decide)
    rw [if_neg hs]
    -- The name: no quote, no end of it, or a name.
    rcases hq.walk hs h with ⟨hfailed, rfl⟩ | ⟨rest, hrest, hname⟩
    · generalize parseString s = parsed at hfailed ⊢
      obtain ⟨found, out, rest⟩ := parsed
      obtain rfl : found = false := hfailed
      exact .cleared (by decide)
    have hparse := parseString_quote hrest
    rcases walk_quoted .motorName .motorEscape .named
      (fun _ => rfl) (fun _ => rfl) [] hname with ⟨hfailed, -, hr'⟩ | ⟨motor, s₁, hscan, hnamed⟩
    · rw [hparse]
      generalize scanString rest [] = parsed at hfailed ⊢
      obtain ⟨found, out, rest⟩ := parsed
      obtain rfl : found = false := hfailed
      refine .cleared ?_
      rcases hr' with rfl | rfl <;> decide
    rw [hparse, hscan]
    have hlength₁ := parseString_length (hparse.trans hscan)
    dsimp only
    -- The colon and the brace behind it.
    rcases walk_consume .motorColon (q := .named) (fun _ => rfl) hnamed
      with ⟨hnone, rfl⟩ | ⟨s', hcolon, hafter⟩
    · rw [hnone]
      exact .cleared (by decide)
    rcases walk_consume .motorOpened (q := .motorColon) (fun _ => rfl) hafter
      with ⟨hnone, rfl⟩ | ⟨s₂, hbrace, hopened⟩
    · rw [hcolon, Option.bind_some, hnone]
      exact .cleared (by decide)
    rw [hcolon, Option.bind_some, hbrace]
    have hlength₂ := consume_length hcolon
    have hlength₃ := consume_length hbrace
    obtain ⟨o, hends, hle⟩ := parseFields_ends s₂
    dsimp only
    -- The fields are dropped, end with the text, or are closed.
    rcases parseFields_walk hopened with ⟨hcleared, hloose⟩ | ⟨fields, hread, hloose⟩ |
      ⟨fields, s₃, hread, hclosed⟩
    · rw [hcleared]
      exact .cleared hloose
    · rw [hread]
      exact .kept (insert_ne_empty _ _ _) hloose
    · rw [hread]
      have hlength₄ : s₃.length ≤ s₂.length := by
        obtain rfl := Option.some_inj.mp (hends.symm.trans hread)
        exact hle _ rfl
      have hskip := length_skipWs_le s₃
      dsimp only
      -- A comma brings the next motor; the closing brace would close the object.
      rcases walk_expect_self (q := .motorClosed) (fun _ => rfl) hclosed
        with ⟨hend, rfl⟩ | ⟨c, q', s₄, hnext, hmem, hwalk⟩
      · rw [hend]
        exact .kept (insert_ne_empty _ _ _) (by decide)
      · rw [hnext, List.length_cons] at hskip
        rw [hnext]
        rcases List.mem_cons.mp hmem with hpair | hmem
        · obtain ⟨rfl, rfl⟩ := Prod.mk.inj hpair
          dsimp only
          rw [if_pos rfl]
          exact ih (by omega) (.inl ⟨rfl, insert_ne_empty _ _ _⟩) hwalk
        · obtain ⟨rfl, rfl⟩ := Prod.mk.inj (List.mem_singleton.mp hmem)
          exact absurd (walk_closed hwalk).1 hr

/-- A text that follows the format and stops before its final brace. -/
theorem parseLerobotCalibration_walk {json : ByteText} {r : Place}
    (h : walk .start json = some r) (hr : r ≠ .closed) :
    MotorsRead (parseLerobotCalibration json) r := by
  rw [parseLerobotCalibration]
  rcases walk_consume .opened (q := .start) (fun _ => rfl) h
    with ⟨hnone, rfl⟩ | ⟨s, hbrace, hopened⟩
  · rw [hnone]
    exact .cleared (by decide)
  rw [hbrace]
  have hlength := consume_length hbrace
  have hskip := length_skipWs_le s
  dsimp only
  rcases walk_expect_self (q := .opened) (fun _ => rfl) hopened
    with ⟨hend, rfl⟩ | ⟨c, q, rest, hrest, hmem, hwalk⟩
  · rw [hend]
    exact .cleared (by decide)
  · -- A motor follows, or the object is closed and empty.
    rw [hrest] at hskip ⊢
    rcases List.mem_cons.mp hmem with hpair | hmem
    · obtain ⟨rfl, rfl⟩ := Prod.mk.inj hpair
      dsimp only
      rw [if_neg (by decide)]
      refine motorLoop_walk (q := .opened) (by omega) (.inr ⟨rfl, rfl, rfl, ?_⟩) ?_ hr
      · exact fun h => absurd (Option.some_inj.mp h) (by decide)
      rw [walk_cons]
      exact hwalk
    · obtain ⟨rfl, rfl⟩ := Prod.mk.inj (List.mem_singleton.mp hmem)
      exact absurd (walk_closed hwalk).1 hr

/-- The text stops after the opening or closing brace of a motor, or right after a comma. -/
def StopsLoose (kept : ByteText) : Prop := ∀ q ∈ walk .start kept, q.Loose

/-- **Truncated calibrations.**  The scanner ends on every text; and of a well-formed text that is
cut before its final closing brace, it gives the empty map exactly when the cut is neither after
the opening or the closing brace of a motor, up to space, nor right after a comma. -/
theorem truncated_calibration (text kept cut : ByteText) :
    (∃ motors, parseLerobotCalibration text = some motors) ∧
    (WellFormed text → text = kept ++ cut → byte '\x7d' ∈ cut →
      (parseLerobotCalibration kept = some ∅ ↔ ¬ StopsLoose kept)) := by
  refine ⟨parseLerobotCalibration_ends text, ?_⟩
  rintro htext rfl hcut
  rw [WellFormed, walk_append] at htext
  obtain ⟨r, hkept, hrest⟩ := Option.bind_eq_some_iff.mp htext
  have hr : r ≠ .closed := by
    rintro rfl
    exact (walk_closed hrest).2 hcut
  obtain ⟨motors, hparse, hempty⟩ := parseLerobotCalibration_walk hkept hr
  have hstops : StopsLoose kept ↔ r.Loose := by
    rw [StopsLoose, hkept]
    exact ⟨fun h => h r rfl, fun h q hq => Option.some_inj.mp hq ▸ h⟩
  rw [hparse, Option.some_inj, hempty, hstops]

/-- A motor is cut in the middle of a number. -/
theorem number_cut :
    WellFormed (lit "\x7b\"gripper\":\x7b\"id\":16\x7d\x7d") ∧
      parseLerobotCalibration (lit "\x7b\"gripper\":\x7b\"id\":1") = some ∅ := by
  have htext : WellFormed (lit "\x7b\"gripper\":\x7b\"id\":16\x7d\x7d") := by decide
  refine ⟨htext, ((truncated_calibration _ (lit "\x7b\"gripper\":\x7b\"id\":1")
    (lit "6\x7d\x7d")).2 htext (by decide) (by decide)).mpr ?_⟩
  intro hloose
  exact absurd (hloose _ rfl) (by decide)

/-- The final brace is cut off. -/
theorem final_brace_cut :
    WellFormed (lit "\x7b\"gripper\":\x7b\"id\":6\x7d\x7d") ∧
      lit "\x7b\"gripper\":\x7b\"id\":6\x7d\x7d" =
        lit "\x7b\"gripper\":\x7b\"id\":6\x7d" ++ [byte '\x7d'] ∧
      parseLerobotCalibration (lit "\x7b\"gripper\":\x7b\"id\":6\x7d") ≠ some ∅ := by
  refine ⟨by decide, by decide, fun h => ?_⟩
  have hlookup : (parseLerobotCalibration (lit "\x7b\"gripper\":\x7b\"id\":6\x7d")).map
      (fun motors => (motors.lookup (lit "gripper")).isSome) = some true := by
    decide
  rw [h] at hlookup
  exact absurd hlookup (by decide)

end So101
