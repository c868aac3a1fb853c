/-
`json.loads` of Python.

A `str` is read from its front: every function takes the text that is left and returns what it
read with the text after it, or nothing where `json` raises a `ValueError`.  Every turn of a
loop reads at least one character, so the length of the text bounds the turns.

* `PyJson` — the values that `json.loads` builds;
* `loads` — one document with nothing after it.
-/
import IsaacTeleop.PythonText

open ByteText

/-- What the supervisor does with `float`.  No law is assumed, so that rounding, infinities and
NaN are covered. -/
class PyFloat (φ : Type) where
  /-- `float` of a decimal numeral: its sign, its digits as a number and its power of ten -/
  ofDecimal : Bool → ℕ → ℤ → φ
  /-- `float` of an `int`, or nothing for an `OverflowError` -/
  ofInt : ℤ → Option φ
  nan : φ
  infinity : φ
  negInfinity : φ
  zero : φ
  add : φ → φ → φ
  lt : φ → φ → Bool
  eq : φ → φ → Bool
  isFinite : φ → Bool

/-- A `float` without rounding. -/
inductive ExactFloat
  | finite (x : ℚ)
  | infinity
  | negInfinity
  | nan
  deriving DecidableEq, Repr

namespace ExactFloat

def add : ExactFloat → ExactFloat → ExactFloat
  | .finite x, .finite y => .finite (x + y)
  | .finite _, y => y
  | x, .finite _ => x
  | .infinity, .infinity => .infinity
  | .negInfinity, .negInfinity => .negInfinity
  | _, _ => .nan

def lt : ExactFloat → ExactFloat → Bool
  | .finite x, .finite y => x < y
  | .finite _, .infinity => true
  | .negInfinity, .finite _ => true
  | .negInfinity, .infinity => true
  | _, _ => false

instance : PyFloat ExactFloat where
  ofDecimal negative digits exponent :=
    .finite ((if negative then -(digits : ℚ) else digits) * 10 ^ exponent)
  ofInt n := some (.finite n)
  nan := .nan
  infinity := .infinity
  negInfinity := .negInfinity
  zero := .finite 0
  add := add
  lt := lt
  eq x y := x = y && x ≠ .nan
  isFinite
    | .finite _ => true
    | _ => false

end ExactFloat

/-- A value that `json.loads` builds; the members of a dict in the order of first insertion. -/
inductive PyJson (φ : Type)
  | null
  | bool (b : Bool)
  | int (n : ℤ)
  | float (x : φ)
  | str (s : PyStr)
  | list (items : List (PyJson φ))
  | dict (members : List (PyStr × PyJson φ))

namespace PythonJson

open PyStr

variable {φ : Type}

def isSpace (c : ℕ) : Bool := c = ch ' ' || c = ch '\t' || c = ch '\n' || c = ch '\r'

def skipSpace (text : PyStr) : PyStr := text.dropWhile isSpace

def expect (expected : ℕ) : PyStr → Option PyStr
  | [] => none
  | c :: rest => if c = expected then some rest else none

def expectText (expected : String) (text : PyStr) : Option PyStr :=
  if PyStr.ofString expected <+: text then some (text.drop expected.length) else none

/-! ### Strings -/

def scanHex4 : PyStr → Option (ℕ × PyStr)
  | h₁ :: h₂ :: h₃ :: h₄ :: rest => do
    let d₁ ← hexDigit h₁
    let d₂ ← hexDigit h₂
    let d₃ ← hexDigit h₃
    let d₄ ← hexDigit h₄
    return (((d₁ * 16 + d₂) * 16 + d₃) * 16 + d₄, rest)
  | _ => none

/-- After `\u`: a high surrogate takes an escaped low surrogate with it, if one follows. -/
def scanUnicode (text : PyStr) : Option (ℕ × PyStr) := do
  let (code, rest) ← scanHex4 text
  if 0xD800 ≤ code ∧ code ≤ 0xDBFF ∧ [ch '\\', ch 'u'] <+: rest then
    let (low, rest') ← scanHex4 (rest.drop 2)
    if 0xDC00 ≤ low ∧ low ≤ 0xDFFF then
      return (0x10000 + (code - 0xD800) * 0x400 + (low - 0xDC00), rest')
    else return (code, rest)
  else return (code, rest)

/-- After a backslash. -/
def scanEscape : PyStr → Option (ℕ × PyStr)
  | [] => none
  | e :: rest =>
    if e = ch '"' ∨ e = ch '\\' ∨ e = ch '/' then some (e, rest)
    else if e = ch 'b' then some (0x08, rest)
    else if e = ch 'f' then some (0x0C, rest)
    else if e = ch 'n' then some (0x0A, rest)
    else if e = ch 'r' then some (0x0D, rest)
    else if e = ch 't' then some (0x09, rest)
    else if e = ch 'u' then scanUnicode rest
    else none

/-- `scanstring`, after the quote; control characters are refused. -/
def scanChars : ℕ → PyStr → Option (PyStr × PyStr)
  | 0, _ => none
  | _ + 1, [] => none
  | turns + 1, c :: rest =>
    if c = ch '"' then some ([], rest)
    else if c ≤ 0x1F then none
    else if c ≠ ch '\\' then do
      let (s, rest) ← scanChars turns rest
      return (c :: s, rest)
    else do
      let (c, rest) ← scanEscape rest
      let (s, rest) ← scanChars turns rest
      return (c :: s, rest)

def scanString (text : PyStr) : Option (PyStr × PyStr) := do
  let rest ← expect (ch '"') text
  scanChars rest.length rest

/-! ### Numbers -/

def isDigit (c : ℕ) : Bool := ch '0' ≤ c && c ≤ ch '9'

/-- The digits after a point, if there are any. -/
def scanFraction (text : PyStr) : PyStr × PyStr :=
  match text with
  | [] => ([], text)
  | c :: rest =>
    if c = ch '.' ∧ rest.takeWhile isDigit ≠ [] then
      (rest.takeWhile isDigit, rest.dropWhile isDigit)
    else ([], text)

/-- An exponent, if there is one. -/
def scanExponent (text : PyStr) : Option ℤ × PyStr :=
  match text with
  | [] => (none, text)
  | e :: rest =>
    let negative := rest.head? = some (ch '-')
    let digits := if negative ∨ rest.head? = some (ch '+') then rest.tail else rest
    if (e = ch 'e' ∨ e = ch 'E') ∧ digits.takeWhile isDigit ≠ [] then
      let value : ℤ := PyStr.digitsValue (digits.takeWhile isDigit)
      (some (if negative then -value else value), digits.dropWhile isDigit)
    else (none, text)

/-- `_match_number`: a leading zero stands alone, and a fraction or an exponent makes a
`float`. -/
def scanNumber [PyFloat φ] (text : PyStr) : Option (PyJson φ × PyStr) :=
  let negative := text.head? = some (ch '-')
  let text := if negative then text.tail else text
  let digits := if text.head? = some (ch '0') then [ch '0'] else text.takeWhile isDigit
  let (fraction, rest) := scanFraction (text.drop digits.length)
  let (exponent, rest) := scanExponent rest
  if digits = [] then none
  else if fraction = [] ∧ exponent = none then
    if maxStrDigits < digits.length then none
    else
      let value : ℤ := PyStr.digitsValue digits
      some (.int (if negative then -value else value), rest)
  else
    some (.float (PyFloat.ofDecimal negative (PyStr.digitsValue (digits ++ fraction))
      (exponent.getD 0 - fraction.length)), rest)

/-! ### Values -/

/-- `d[key] = value` -/
def setItem {α : Type} (members : List (PyStr × α)) (key : PyStr) (value : α) :
    List (PyStr × α) :=
  if key ∈ members.map Prod.fst then
    members.map fun m => if m.1 = key then (key, value) else m
  else members ++ [(key, value)]

mutual

/-- `scan_once` -/
def scanOnce [PyFloat φ] : ℕ → PyStr → Option (PyJson φ × PyStr)
  | 0, _ => none
  | _ + 1, [] => none
  | turns + 1, c :: rest =>
    if c = ch '"' then do
      let (s, rest) ← scanString (c :: rest)
      return (.str s, rest)
    else if c = ch '{' then
      match expect (ch '}') (skipSpace rest) with
      | some rest => some (.dict [], rest)
      | none => scanMembers turns [] (skipSpace rest)
    else if c = ch '[' then
      match expect (ch ']') (skipSpace rest) with
      | some rest => some (.list [], rest)
      | none => scanItems turns [] (skipSpace rest)
    else if c = ch 'n' then (expectText "null" (c :: rest)).map fun rest => (.null, rest)
    else if c = ch 't' then (expectText "true" (c :: rest)).map fun rest => (.bool true, rest)
    else if c = ch 'f' then (expectText "false" (c :: rest)).map fun rest => (.bool false, rest)
    else if c = ch 'N' then
      (expectText "NaN" (c :: rest)).map fun rest => (.float PyFloat.nan, rest)
    else if c = ch 'I' then
      (expectText "Infinity" (c :: rest)).map fun rest => (.float PyFloat.infinity, rest)
    else if c = ch '-' ∧ rest.head? = some (ch 'I') then
      (expectText "-Infinity" (c :: rest)).map fun rest => (.float PyFloat.negInfinity, rest)
    else scanNumber (c :: rest)

/-- `_parse_array`, from an item on, after the items before it. -/
def scanItems [PyFloat φ] : ℕ → List (PyJson φ) → PyStr → Option (PyJson φ × PyStr)
  | 0, _, _ => none
  | turns + 1, items, text => do
    let (item, rest) ← scanOnce turns text
    match expect (ch ']') (skipSpace rest) with
    | some rest => return (.list (items ++ [item]), rest)
    | none =>
      let rest ← expect (ch ',') (skipSpace rest)
      scanItems turns (items ++ [item]) (skipSpace rest)

/-- `_parse_object`, from a key on, after the members before it. -/
def scanMembers [PyFloat φ] :
    ℕ → List (PyStr × PyJson φ) → PyStr → Option (PyJson φ × PyStr)
  | 0, _, _ => none
  | turns + 1, members, text => do
    let (key, rest) ← scanString text
    let rest ← expect (ch ':') (skipSpace rest)
    let (value, rest) ← scanOnce turns (skipSpace rest)
    match expect (ch '}') (skipSpace rest) with
    | some rest => return (.dict (setItem members key value), rest)
    | none =>
      let rest ← expect (ch ',') (skipSpace rest)
      scanMembers turns (setItem members key value) (skipSpace rest)

end

/-- `json.loads`, or nothing for a `ValueError`.  A byte order mark is refused like any other
character that starts no value. -/
def loads [PyFloat φ] (text : PyStr) : Option (PyJson φ) := do
  let (value, rest) ← scanOnce (2 * text.length + 1) (skipSpace text)
  if skipSpace rest = [] then return value else none

end PythonJson
