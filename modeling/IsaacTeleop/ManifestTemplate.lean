/-
Templates of the tracker manifest.

A value of the manifest is a template: its strings, also those inside of lists and mappings, may
name other keys between percent signs, with a transform of the key's value.

* `matchAt`, `pieces` — the placeholders of a string, as the regular expression finds them;
* `expandValue` — a template with the values of the keys, or the first exception;
* `refs`, `fill` — the keys that a template names, and the template with all of them replaced;
* `expandValue_meets` — a template is expanded exactly where each key that it names has a text.
-/
import IsaacTeleop.PythonStrings

namespace ManifestTemplate

/-! ### Values -/

inductive MomentKind
  | datetime
  | date
  | time

/-- A value of a TOML document; a number by its bits, a moment with its text. -/
inductive Value
  | str (text : PyStr)
  | list (items : List Value)
  | dict (entries : List (PyStr × Value))
  | bool (b : Bool)
  | int (n : ℤ)
  | float (bits : UInt64)
  | moment (kind : MomentKind) (text : PyStr)

/-- `type(value).__name__` -/
def Value.typeName : Value → String
  | .str _ => "str"
  | .list _ => "list"
  | .dict _ => "dict"
  | .bool _ => "bool"
  | .int _ => "int"
  | .float _ => "float"
  | .moment .datetime _ => "datetime"
  | .moment .date _ => "date"
  | .moment .time _ => "time"

/-- `str(value)` of a value that is no list, mapping, boolean or number. -/
def Value.text? : Value → Option PyStr
  | .str text => some text
  | .moment _ text => some text
  | _ => none

/-! ### Transforms -/

/-- Unicode's rules for the characters outside ASCII. -/
structure CharRule where
  isDigit : ℕ → Bool
  upper : ℕ → PyStr

/-- `str.isdigit` of one character. -/
def isDigit (rule : CharRule) (c : ℕ) : Bool :=
  if c < 0x80 then 48 ≤ c && c ≤ 57 else rule.isDigit c

/-- `str.upper` of one character. -/
def upperChar (rule : CharRule) (c : ℕ) : PyStr :=
  if 97 ≤ c ∧ c ≤ 122 then [c - 32] else if c < 0x80 then [c] else rule.upper c

/-- `str.upper` -/
def upper (rule : CharRule) (s : PyStr) : PyStr := s.flatMap (upperChar rule)

/-- One part of a name in camel case. -/
def camelPart (rule : CharRule) : PyStr → PyStr
  | [] => []
  | c :: rest =>
    if isDigit rule c then
      -- The first character after the leading digits is the capital.
      match (c :: rest).dropWhile (isDigit rule) with
      | [] => c :: rest
      | d :: after => (c :: rest).takeWhile (isDigit rule) ++ upperChar rule d ++ after
    else upperChar rule c ++ rest

def snakeToCamel (rule : CharRule) (value : PyStr) : PyStr :=
  ((value.splitOn 95).map (camelPart rule)).flatten

inductive Transform
  | camelCase
  | upper

def applyTransform (rule : CharRule) (value : PyStr) : Option Transform → PyStr
  | some .camelCase => snakeToCamel rule value
  | some .upper => upper rule value
  | none => value

/-! ### Placeholders -/

/-- What the substitution makes of a part of a string: a character, `%%` or a placeholder. -/
inductive Piece
  | char (c : ℕ)
  | percent
  | placeholder (key : PyStr) (transform : Option Transform)

/-- `[a-zA-Z0-9_]` -/
def isWord (c : ℕ) : Bool :=
  (97 ≤ c && c ≤ 122) || (65 ≤ c && c ≤ 90) || (48 ≤ c && c ≤ 57) || c = 95

/-- The end of a placeholder, an optional transform and the percent sign, with its length. -/
def matchEnd (s : PyStr) : Option (Option Transform × ℕ) :=
  if (PyStr.ofString "_CamelCase%").isPrefixOf s then some (some .camelCase, 11)
  else if (PyStr.ofString "_UPPER%").isPrefixOf s then some (some .upper, 7)
  else if s.head? = some 37 then some (none, 1)
  else none

/-- The shortest key after which a placeholder ends. -/
def matchKey (key : PyStr) : PyStr → Option (Piece × ℕ)
  | [] => none
  | c :: s =>
    if isWord c then
      match matchEnd s with
      | some (transform, length) =>
        some (.placeholder (key ++ [c]) transform, key.length + 1 + length)
      | none => matchKey (key ++ [c]) s
    else none

/-- `_PLACEHOLDER` at the beginning of a string, with the length of the match. -/
def matchAt : PyStr → Option (Piece × ℕ)
  | [] => none
  | c :: s =>
    if c = 37 then
      match matchKey [] s with
      | some (piece, length) => some (piece, length + 1)
      | none => if s.head? = some 37 then some (.percent, 2) else none
    else none

/-- The matches of a string and the characters between them, with `skip` characters of a match to
come. -/
def pieces : ℕ → PyStr → List Piece
  | _, [] => []
  | skip + 1, _ :: s => pieces skip s
  | 0, c :: s =>
    match matchAt (c :: s) with
    | some (piece, length) => piece :: pieces (length - 1) s
    | none => .char c :: pieces 0 s

/-! ### Expansion -/

/-- The exceptions of `repl`. -/
inductive Failure
  | keyError (key : PyStr)
  | typeError (key : PyStr) (typeName : String)

section Expand

variable (rule : CharRule) (values : PyStr → Option Value)

def repl : Piece → Except Failure PyStr
  | .char c => .ok [c]
  | .percent => .ok [37]
  | .placeholder key transform =>
    match values key with
    | none => .error (.keyError key)
    | some raw =>
      match raw.text? with
      | none => .error (.typeError key raw.typeName)
      | some text => .ok (applyTransform rule text transform)

def expandPieces : List Piece → Except Failure PyStr
  | [] => .ok []
  | piece :: rest => do
    let text ← repl rule values piece
    let after ← expandPieces rest
    return text ++ after

def expandString (template : PyStr) : Except Failure PyStr :=
  expandPieces rule values (pieces 0 template)

mutual

/-- `_expand_value` -/
def expandValue : Value → Except Failure Value
  | .str text => do return .str (← expandString rule values text)
  | .list items => do return .list (← expandItems items)
  | .dict entries => do return .dict (← expandEntries entries)
  | .bool b => .ok (.bool b)
  | .int n => .ok (.int n)
  | .float bits => .ok (.float bits)
  | .moment kind text => .ok (.moment kind text)

def expandItems : List Value → Except Failure (List Value)
  | [] => .ok []
  | item :: rest => do
    let value ← expandValue item
    let after ← expandItems rest
    return value :: after

def expandEntries : List (PyStr × Value) → Except Failure (List (PyStr × Value))
  | [] => .ok []
  | (key, item) :: rest => do
    let value ← expandValue item
    let after ← expandEntries rest
    return (key, value) :: after

end

end Expand

/-! ### What a template says -/

/-- The keys that a piece names. -/
def Piece.refs : Piece → List PyStr
  | .placeholder key _ => [key]
  | _ => []

mutual

/-- The keys that the placeholders of a template name. -/
def refs : Value → List PyStr
  | .str text => (pieces 0 text).flatMap Piece.refs
  | .list items => refsItems items
  | .dict entries => refsEntries entries
  | _ => []

def refsItems : List Value → List PyStr
  | [] => []
  | item :: rest => refs item ++ refsItems rest

def refsEntries : List (PyStr × Value) → List PyStr
  | [] => []
  | (_, item) :: rest => refs item ++ refsEntries rest

end

section Fill

variable (rule : CharRule) (values : PyStr → Option Value)

/-- The text of a key. -/
def textOf (key : PyStr) : Option PyStr := (values key).bind Value.text?

def Piece.fill : Piece → PyStr
  | .char c => [c]
  | .percent => [37]
  | .placeholder key transform => applyTransform rule ((textOf values key).getD []) transform

mutual

/-- A template with every placeholder replaced by the transformed text of its key. -/
def fill : Value → Value
  | .str text => .str ((pieces 0 text).flatMap (Piece.fill rule values))
  | .list items => .list (fillItems items)
  | .dict entries => .dict (fillEntries entries)
  | .bool b => .bool b
  | .int n => .int n
  | .float bits => .float bits
  | .moment kind text => .moment kind text

def fillItems : List Value → List Value
  | [] => []
  | item :: rest => fill item :: fillItems rest

def fillEntries : List (PyStr × Value) → List (PyStr × Value)
  | [] => []
  | (key, item) :: rest => (key, fill item) :: fillEntries rest

end

end Fill

/-! ### The expansion meets what the template says -/

section Meets

variable {α β γ : Type} (rule : CharRule) (values : PyStr → Option Value)

/-- A result that is the whole value where all keys have a text, and else an exception that tells
which key has none. -/
def Meets (keys : List PyStr) (whole : α) : Except Failure α → Prop
  | .ok value => value = whole ∧ ∀ key ∈ keys, (textOf values key).isSome = true
  | .error (.keyError key) => key ∈ keys ∧ values key = none
  | .error (.typeError key _) => key ∈ keys ∧ ∃ raw, values key = some raw ∧ raw.text? = none

variable {rule values}

theorem Meets.error {keys keys' : List PyStr} {whole : α} {whole' : β} {failure : Failure}
    (h : Meets values keys whole (.error failure)) (hsub : keys ⊆ keys') :
    Meets values keys' whole' (.error failure) := by
  cases failure with
  | keyError key => exact ⟨hsub h.1, h.2⟩
  | typeError key typeName => exact ⟨hsub h.1, h.2⟩

theorem Meets.map {keys : List PyStr} {whole : α} {x : Except Failure α}
    (h : Meets values keys whole x) (f : α → β) :
    Meets values keys (f whole) (do return f (← x)) := by
  cases x with
  | error failure => exact h.error (List.Subset.refl _)
  | ok value => exact ⟨congrArg f h.1, h.2⟩

/-- Two expansions one after the other. -/
theorem Meets.both {keys keys' : List PyStr} {whole : α} {whole' : β} {x : Except Failure α}
    {y : Except Failure β} (hx : Meets values keys whole x) (hy : Meets values keys' whole' y)
    (f : α → β → γ) :
    Meets values (keys ++ keys') (f whole whole') (do
      let a ← x
      let b ← y
      return f a b) := by
  cases x with
  | error failure => exact hx.error (List.subset_append_left _ _)
  | ok a =>
    cases y with
    | error failure => exact hy.error (List.subset_append_right _ _)
    | ok b =>
      obtain ⟨rfl, hkeys⟩ := hx
      obtain ⟨rfl, hkeys'⟩ := hy
      refine ⟨rfl, fun key hkey => ?_⟩
      rcases List.mem_append.mp hkey with hkey | hkey
      · exact hkeys key hkey
      · exact hkeys' key hkey

theorem repl_meets (piece : Piece) :
    Meets values piece.refs (piece.fill rule values) (repl rule values piece) := by
  cases piece with
  | char c => exact ⟨rfl, by simp [Piece.refs]⟩
  | percent => exact ⟨rfl, by simp [Piece.refs]⟩
  | placeholder key transform =>
    rw [repl]
    cases hvalue : values key with
    | none => exact ⟨List.mem_singleton_self key, hvalue⟩
    | some raw =>
      dsimp only
      cases htext : raw.text? with
      | none => exact ⟨List.mem_singleton_self key, raw, hvalue, htext⟩
      | some text =>
        have hof : textOf values key = some text := by rw [textOf, hvalue, Option.bind_some, htext]
        refine ⟨by rw [Piece.fill, hof, Option.getD_some], fun key' hkey' => ?_⟩
        rw [List.mem_singleton.mp hkey', hof]
        rfl

theorem expandPieces_meets (l : List Piece) :
    Meets values (l.flatMap Piece.refs) (l.flatMap (Piece.fill rule values))
      (expandPieces rule values l) := by
  induction l with
  | nil => exact ⟨rfl, by simp⟩
  | cons piece rest ih =>
    rw [List.flatMap_cons, List.flatMap_cons, expandPieces]
    exact (repl_meets piece).both ih (· ++ ·)

mutual

/-- **A template is expanded exactly where each key that it names has a text.** -/
theorem expandValue_meets : ∀ v : Value,
    Meets values (refs v) (fill rule values v) (expandValue rule values v)
  | .str text => by
    rw [refs, fill, expandValue]
    exact (expandPieces_meets (pieces 0 text)).map Value.str
  | .list items => by
    rw [refs, fill, expandValue]
    exact (expandItems_meets items).map Value.list
  | .dict entries => by
    rw [refs, fill, expandValue]
    exact (expandEntries_meets entries).map Value.dict
  | .bool b => ⟨rfl, by simp [refs]⟩
  | .int n => ⟨rfl, by simp [refs]⟩
  | .float bits => ⟨rfl, by simp [refs]⟩
  | .moment kind text => ⟨rfl, by simp [refs]⟩

theorem expandItems_meets : ∀ items : List Value,
    Meets values (refsItems items) (fillItems rule values items) (expandItems rule values items)
  | [] => ⟨rfl, by simp [refsItems]⟩
  | item :: rest => (expandValue_meets item).both (expandItems_meets rest) List.cons

theorem expandEntries_meets : ∀ entries : List (PyStr × Value),
    Meets values (refsEntries entries) (fillEntries rule values entries)
      (expandEntries rule values entries)
  | [] => ⟨rfl, by simp [refsEntries]⟩
  | (key, item) :: rest =>
    (expandValue_meets item).both (expandEntries_meets rest)
      fun value after => (key, value) :: after

end

theorem expandValue_ok {v w : Value} (h : expandValue rule values v = .ok w) :
    w = fill rule values v ∧ ∀ key ∈ refs v, (textOf values key).isSome = true := by
  have hmeets := @expandValue_meets rule values v
  rw [h] at hmeets
  exact hmeets

theorem expandValue_keyError {v : Value} {key : PyStr}
    (h : expandValue rule values v = .error (.keyError key)) :
    key ∈ refs v ∧ values key = none := by
  have hmeets := @expandValue_meets rule values v
  rw [h] at hmeets
  exact hmeets

theorem expandValue_typeError {v : Value} {key : PyStr} {typeName : String}
    (h : expandValue rule values v = .error (.typeError key typeName)) :
    key ∈ refs v ∧ ∃ raw, values key = some raw ∧ raw.text? = none := by
  have hmeets := @expandValue_meets rule values v
  rw [h] at hmeets
  exact hmeets

end Meets

/-! ### What a template reads -/

section Congr

variable {rule : CharRule} {values values' : PyStr → Option Value}

theorem fillPieces_congr {l : List Piece}
    (h : ∀ key ∈ l.flatMap Piece.refs, values key = values' key) :
    l.flatMap (Piece.fill rule values) = l.flatMap (Piece.fill rule values') := by
  refine List.flatMap_congr fun piece hpiece => ?_
  cases piece with
  | char c => rfl
  | percent => rfl
  | placeholder key transform =>
    have hkey := h key (List.mem_flatMap.mpr ⟨_, hpiece, List.mem_singleton_self key⟩)
    rw [Piece.fill, Piece.fill, textOf, textOf, hkey]

mutual

/-- A template reads the keys that it names. -/
theorem fill_congr : ∀ v : Value, (∀ key ∈ refs v, values key = values' key) →
    fill rule values v = fill rule values' v
  | .str text, h => by rw [fill, fill, fillPieces_congr h]
  | .list items, h => by rw [fill, fill, fillItems_congr items h]
  | .dict entries, h => by rw [fill, fill, fillEntries_congr entries h]
  | .bool b, _ => rfl
  | .int n, _ => rfl
  | .float bits, _ => rfl
  | .moment kind text, _ => rfl

theorem fillItems_congr : ∀ items : List Value,
    (∀ key ∈ refsItems items, values key = values' key) →
    fillItems rule values items = fillItems rule values' items
  | [], _ => rfl
  | item :: rest, h => by
    rw [fillItems, fillItems, fill_congr item fun key hkey => h key (List.mem_append_left _ hkey),
      fillItems_congr rest fun key hkey => h key (List.mem_append_right _ hkey)]

theorem fillEntries_congr : ∀ entries : List (PyStr × Value),
    (∀ key ∈ refsEntries entries, values key = values' key) →
    fillEntries rule values entries = fillEntries rule values' entries
  | [], _ => rfl
  | (key, item) :: rest, h => by
    rw [fillEntries, fillEntries,
      fill_congr item fun key hkey => h key (List.mem_append_left _ hkey),
      fillEntries_congr rest fun key hkey => h key (List.mem_append_right _ hkey)]

end

/-- Whether a value has a text does not change with its placeholders. -/
theorem isSome_text?_fill (v : Value) : (fill rule values v).text?.isSome = v.text?.isSome := by
  cases v <;> rfl

end Congr

end ManifestTemplate
