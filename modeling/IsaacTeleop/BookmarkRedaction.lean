/-
The bookmark of the headset, as it is shown.

The URL for the headset carries the control token.  `build_headset_bookmark_url` encodes it in the
query; the banner appends it as it is to a URL without it.  What is shown goes through
`redact_control_token`, a regular expression that decides by the characters of the token where the
token ends.

* `redactControlToken`, `buildHeadsetBookmarkUrl`, `bookmarkLine` — the code;
* `redact_token` — what the redaction leaves of a token;
* `bookmark_redaction` — when two tokens give the same text.
-/
import IsaacTeleop.PythonStrings
import IsaacTeleop.Utf8

open PyStr

namespace BookmarkRedaction

/-! ### The redaction -/

def isAlnum (c : ℕ) : Bool := (48 ≤ c && c ≤ 57) || (65 ≤ c && c ≤ 90) || (97 ≤ c && c ≤ 122)

/-- The class `\w`; `wide` is the table of the characters that are not ASCII. -/
def isWord (wide : ℕ → Bool) (c : ℕ) : Bool := if c < 128 then isAlnum c || c = 95 else wide c

/-- The letter that `IGNORECASE` compares; `k` and `i` have further forms. -/
def foldCase (c : ℕ) : ℕ :=
  if 65 ≤ c ∧ c ≤ 90 then c + 32
  else if c = 0x212A then 107
  else if c = 0x130 ∨ c = 0x131 then 105
  else c

/-- The class `[^&\s'"#]` -/
def inValue (c : ℕ) : Bool := c ≠ 38 && !isSpace c && c ≠ 39 && c ≠ 34 && c ≠ 35

def keywords : List PyStr :=
  [ofString "controlToken=", ofString "turnCredential=", ofString "token="]

def redacted : PyStr := ofString "<REDACTED>"

def dropKeyword : PyStr → PyStr → Option PyStr
  | [], s => some s
  | _ :: _, [] => none
  | p :: keyword, c :: s => if foldCase c = foldCase p then dropKeyword keyword s else none

def matchKeyword (s keyword : PyStr) : Option (PyStr × ℕ) :=
  match dropKeyword keyword s with
  | none => none
  | some rest =>
    let value := rest.takeWhile inValue
    if value = [] then none
    else some (s.take keyword.length ++ redacted, keyword.length + value.length)

/-- The pattern of `redact_control_token` at a place. -/
def findCredential (wide : ℕ → Bool) (before : Option ℕ) (s : PyStr) : Option (PyStr × ℕ) :=
  if before.any (isWord wide) then none else keywords.findSome? (matchKeyword s)

/-- `redact_control_token` -/
def redactControlToken (wide : ℕ → Bool) (text : PyStr) : PyStr :=
  sub (findCredential wide) none 0 text

/-! ### The URL -/

/-- A value of the stream configuration; `other` is any object that is none of the others, by its
truth, its `str` and its `int`. -/
inductive Value
  | none
  | bool (b : Bool)
  | int (n : ℤ)
  | str (s : PyStr)
  | other (truth : Bool) (text : PyStr) (n : Option ℤ)

namespace Value

def isNone : Value → Bool
  | none => true
  | _ => false

def truth : Value → Bool
  | none => false
  | bool b => b
  | int n => n ≠ 0
  | str s => s ≠ []
  | other truth _ _ => truth

/-- `str` of a number. -/
def decimalText : ℤ → PyStr
  | .ofNat n => (Nat.toDigits 10 n).map Char.toNat
  | .negSucc n => 45 :: (Nat.toDigits 10 (n + 1)).map Char.toNat

/-- `str(v)` -/
def text : Value → PyStr
  | none => ofString "None"
  | bool true => ofString "True"
  | bool false => ofString "False"
  | int n => decimalText n
  | str s => s
  | other _ text _ => text

/-- `int(v)`; `intOfStr` is that of a string. -/
def toInt (intOfStr : PyStr → Option ℤ) : Value → Option ℤ
  | none => .none
  | bool b => some b.toNat
  | int n => some n
  | str s => intOfStr s
  | other _ _ n => n

/-- `str(v).strip()` if there is something left. -/
def stripped? : Value → Option PyStr
  | none => .none
  | v => if strip v.text = [] then .none else some (strip v.text)

end Value

/-- A stream configuration; a missing key is `None`, as `get` gives it. -/
abbrev Config := String → Value

abbrev Params := List (String × PyStr)

def textParam (config : Config) (key : String) : Params :=
  (config key).stripped?.toList.map fun text => (key, text)

def flagParam (config : Config) (key : String) : Params :=
  match config key with
  | .bool b => [(key, ofString (if b then "true" else "false"))]
  | _ => []

def numberParam (config : Config) (key : String) : Params :=
  match config key with
  | .int n => [(key, Value.decimalText n)]
  | _ => []

/-- The parameters after the address. -/
def clientParams (config : Config) : Params :=
  textParam config "codec" ++ flagParam config "panelHiddenAtStart" ++
    ["immersiveMode", "referenceSpace", "replayPacing"].flatMap (textParam config) ++
    flagParam config "showRecordingControls" ++ flagParam config "reconnectEnabled" ++
    ["reconnectMaxAttempts", "reconnectDelayMs", "streamAttachTimeoutMs", "warmupBeginTimeoutMs",
      "warmupEndTimeoutMs"].flatMap (numberParam config) ++
    textParam config "turnServer" ++ textParam config "turnUsername" ++
    textParam config "turnCredential" ++
    (if (config "iceRelayOnly").truth then [("iceRelayOnly", ofString "1")] else [])

def oobParams (oobEnable : Bool) (controlToken : Option PyStr) : Params :=
  if oobEnable then
    ("oobEnable", ofString "1") ::
      (match controlToken with
      | some token => if token = [] then [] else [("controlToken", token)]
      | none => [])
  else []

/-- A hexadecimal digit in upper case. -/
def hexUpper (d : ℕ) : ℕ := if d < 10 then d + 48 else d + 55

/-- A byte in `quote_plus`. -/
def quoteByte (b : UInt8) : PyStr :=
  if isAlnum b.toNat || b.toNat = 95 || b.toNat = 46 || b.toNat = 45 || b.toNat = 126 then [b.toNat]
  else if b.toNat = 32 then [43]
  else [37, hexUpper (b.toNat / 16), hexUpper (b.toNat % 16)]

/-- `quote_plus`; a lone surrogate has no encoding. -/
def quotePlus (s : PyStr) : Option PyStr :=
  if s.IsText then some (s.utf8.flatMap quoteByte) else none

def quoteParam (param : String × PyStr) : Option PyStr := do
  let key ← quotePlus (ofString param.1)
  let value ← quotePlus param.2
  return key ++ 61 :: value

/-- `urlencode` -/
def urlencode (params : Params) : Option PyStr :=
  (params.mapM quoteParam).map (List.intercalate [38])

inductive UrlError
  | valueError (message : String)
  /-- `int(cfg["port"])` raises -/
  | port
  /-- `UnicodeEncodeError` -/
  | encode
  deriving DecidableEq

/-- The URL around its query. -/
def assembleUrl (webClientBase route query : PyStr) : PyStr :=
  let base := webClientBase.rdropWhile (· = 47)
  base ++ (if 63 ∈ base then 38 else 63) :: query ++ (if route = [] then [] else 35 :: route)

/-- `build_headset_bookmark_url` -/
def buildHeadsetBookmarkUrl (intOfStr : PyStr → Option ℤ) (webClientBase route : PyStr)
    (config : Config) (controlToken : Option PyStr) (oobEnable : Bool) : Except UrlError PyStr :=
  if (config "serverIP").truth = false ∨ (config "port").isNone = true then
    .error (.valueError
      "build_headset_bookmark_url requires stream_config with serverIP and port")
  else
    match (config "port").toInt intOfStr with
    | none => .error .port
    | some port =>
      let params := oobParams oobEnable controlToken ++
        ("serverIP", (config "serverIP").text) :: ("port", Value.decimalText port) ::
          clientParams config
      match urlencode params with
      | none => .error .encode
      | some query => .ok (assembleUrl webClientBase route query)

/-- `resolve_control_token` -/
def resolveControlToken (configured : Option PyStr) (generated : PyStr) : PyStr :=
  match configured with
  | some token => if token = [] then generated else token
  | none => generated

/-- The line with the bookmark of `print_oob_hub_startup_banner`. -/
def bookmarkLine (wide : ℕ → Bool) (intOfStr : PyStr → Option ℤ) (webBase route : PyStr)
    (config : Config) (configured : Option PyStr) (generated : PyStr) : Except UrlError PyStr := do
  let token := resolveControlToken configured generated
  let url ← buildHeadsetBookmarkUrl intOfStr webBase route config none true
  let url := if token = [] then url else url ++ ofString "&controlToken=" ++ token
  return ofString "           " ++ redactControlToken wide url

/-! ### What is left of a token -/

theorem foldCase_of_delimiter {c : ℕ} (hc : inValue c = false) : foldCase c = c := by
  simp only [inValue, isSpace, Bool.and_eq_false_iff, Bool.not_eq_false', Bool.or_eq_true,
    Bool.and_eq_true, decide_eq_false_iff_not, decide_eq_true_eq, ne_eq, not_not] at hc
  unfold foldCase
  repeat' split
  all_goals omega

theorem inValue_of_keyword :
    ∀ keyword ∈ keywords, ∀ p ∈ keyword, inValue (foldCase p) = true := by
  decide

theorem keyword_ne_delimiter {c : ℕ} (hc : inValue c = false) {keyword : PyStr}
    (hkeyword : keyword ∈ keywords) : ∀ p ∈ keyword, foldCase c ≠ foldCase p := by
  intro p hp hsame
  have hvalue := inValue_of_keyword keyword hkeyword p hp
  rw [← hsame, foldCase_of_delimiter hc, hc] at hvalue
  cases hvalue

theorem dropKeyword_append {c : ℕ} {keyword : PyStr} (h : ∀ p ∈ keyword, foldCase c ≠ foldCase p)
    (a : PyStr) :
    (∃ a' : PyStr, a.length = keyword.length + a'.length ∧
      ∀ b, dropKeyword keyword (a ++ c :: b) = some (a' ++ c :: b)) ∨
    ∀ b, dropKeyword keyword (a ++ c :: b) = none := by
  induction keyword generalizing a with
  | nil => exact .inl ⟨a, by simp, fun b => rfl⟩
  | cons p keyword ih =>
    cases a with
    | nil => exact .inr fun b => if_neg (h p List.mem_cons_self)
    | cons d a =>
      by_cases hd : foldCase d = foldCase p
      · rcases ih (fun q hq => h q (List.mem_cons_of_mem p hq)) a with ⟨a', hlen, ha'⟩ | hnone
        · refine .inl ⟨a', by simp only [List.length_cons]; omega, fun b => ?_⟩
          exact (if_pos hd).trans (ha' b)
        · exact .inr fun b => (if_pos hd).trans (hnone b)
      · exact .inr fun b => if_neg hd

/-- A match ends before the first delimiter. -/
theorem matchKeyword_append {c : ℕ} (hc : inValue c = false) {keyword : PyStr}
    (hkeyword : keyword ∈ keywords) (a : PyStr) :
    (∀ b, matchKeyword (a ++ c :: b) keyword = none) ∨
    ∃ text length, 0 < length ∧ length ≤ a.length ∧
      ∀ b, matchKeyword (a ++ c :: b) keyword = some (text, length) := by
  rcases dropKeyword_append (keyword_ne_delimiter hc hkeyword) a with ⟨a', hlen, ha'⟩ | hnone
  · -- The value ends at the delimiter at the latest.
    have hvalue : ∀ b, (a' ++ c :: b).takeWhile inValue = a'.takeWhile inValue := by
      intro b
      rw [List.takeWhile_append]
      split
      · simp [hc, (List.takeWhile_prefix inValue).eq_of_length ‹_›]
      · rfl
    by_cases hempty : a'.takeWhile inValue = []
    · refine .inl fun b => ?_
      simp only [matchKeyword, ha', hvalue, hempty, if_true]
    · have htake := (List.takeWhile_prefix inValue (l := a')).length_le
      have hpos := List.length_pos_of_ne_nil hempty
      refine .inr ⟨a.take keyword.length ++ redacted,
        keyword.length + (a'.takeWhile inValue).length, by omega, by omega, fun b => ?_⟩
      simp only [matchKeyword, ha', hvalue, hempty, if_false]
      rw [List.take_append_of_le_length (by omega)]
  · refine .inl fun b => ?_
    simp only [matchKeyword, hnone]

theorem findCredential_stopsAt (wide : ℕ → Bool) {c : ℕ} (hc : inValue c = false) :
    StopsAt (findCredential wide) c where
  same before a b := by
    unfold findCredential
    split
    · rfl
    · -- A value ends at the delimiter, so what stands behind it does not matter.
      have hsame : ∀ keyword ∈ keywords,
          matchKeyword (a ++ c :: b) keyword = matchKeyword (a ++ [c]) keyword := by
        intro keyword hkeyword
        rcases matchKeyword_append hc hkeyword a with hnone | ⟨text, length, _, _, hsome⟩
        · rw [hnone, hnone]
        · rw [hsome, hsome]
      rw [← List.head?_filterMap, ← List.head?_filterMap, List.filterMap_congr hsame]
  short before a text length hfind := by
    unfold findCredential at hfind
    split at hfind
    · cases hfind
    · obtain ⟨keyword, hkeyword, hmatch⟩ := List.exists_of_findSome?_eq_some hfind
      rcases matchKeyword_append hc hkeyword a with hnone | ⟨text', length', hpos, hle, hsome⟩
      · rw [hnone] at hmatch
        cases hmatch
      · rw [hsome] at hmatch
        cases hmatch
        exact ⟨hpos, hle⟩

def tokenKey : PyStr := ofString "controlToken="

theorem tokenKey_eq :
    tokenKey = [99, 111, 110, 116, 114, 111, 108, 84, 111, 107, 101, 110, 61] := by
  decide

theorem keywords_eq : keywords =
    [[99, 111, 110, 116, 114, 111, 108, 84, 111, 107, 101, 110, 61],
      [116, 117, 114, 110, 67, 114, 101, 100, 101, 110, 116, 105, 97, 108, 61],
      [116, 111, 107, 101, 110, 61]] := by
  decide

section Token

variable (wide : ℕ → Bool)

theorem delimiter_of_dropWhile {t rest : PyStr} {c : ℕ} (h : t.dropWhile inValue = c :: rest) :
    inValue c = false := by
  have hhead := List.head_dropWhile_not inValue (l := t) (by simp [h])
  simpa [h] using hhead

/-- The rest from the first delimiter on is redacted by itself. -/
theorem redact_rest (t : PyStr) (before : Option ℕ) :
    sub (findCredential wide) before 0 (t.dropWhile inValue) =
      redactControlToken wide (t.dropWhile inValue) := by
  cases hrest : t.dropWhile inValue with
  | nil => rfl
  | cons c rest =>
    have hstops := findCredential_stopsAt wide (delimiter_of_dropWhile hrest)
    exact sub_before hstops before none rest

/-- The delimiter stays. -/
theorem redact_delimiter {c : ℕ} (hc : inValue c = false) (rest : PyStr) :
    redactControlToken wide (c :: rest) = c :: sub (findCredential wide) (some c) 0 rest :=
  sub_of_none ((findCredential_stopsAt wide hc).none none rest)

theorem dropKeyword_self (keyword t : PyStr) : dropKeyword keyword (keyword ++ t) = some t := by
  induction keyword with
  | nil => rfl
  | cons p keyword ih => exact (if_pos rfl).trans ih

/-- Nothing in the key matches when the token begins with a delimiter. -/
theorem matchKeyword_in_key {t : PyStr} (ht : t.takeWhile inValue = []) :
    ∀ i < tokenKey.length, ∀ keyword ∈ keywords,
      matchKeyword (tokenKey.drop i ++ t) keyword = none := by
  rw [tokenKey_eq, keywords_eq]
  intro i hi keyword hkeyword
  simp only [List.length_cons, List.length_nil] at hi
  simp only [List.mem_cons, List.not_mem_nil, or_false] at hkeyword
  interval_cases i <;> rcases hkeyword with rfl | rfl | rfl <;>
    simp [matchKeyword, dropKeyword, foldCase, ht]

/-- **What is left of a token.** -/
theorem redact_token (t : PyStr) :
    sub (findCredential wide) (some 38) 0 (tokenKey ++ t) =
      tokenKey ++ (if t.takeWhile inValue = [] then redactControlToken wide (t.dropWhile inValue)
        else redacted ++ redactControlToken wide (t.dropWhile inValue)) := by
  split
  · -- The token begins with a delimiter: nothing matches inside the key, and the rest is read on.
    rename_i hempty
    have hdrop : t.dropWhile inValue = t := by
      have hsplit := List.takeWhile_append_dropWhile (p := inValue) (l := t)
      rwa [hempty] at hsplit
    have hnone : ∀ i < tokenKey.length, ∀ before,
        findCredential wide before (tokenKey.drop i ++ t) = none := by
      intro i hi before
      unfold findCredential
      split
      · rfl
      · exact List.findSome?_eq_none_iff.mpr (matchKeyword_in_key hempty i hi)
    obtain ⟨before, hsub⟩ := sub_of_forall_none tokenKey t hnone (some 38)
    have hrest := redact_rest wide t before
    rw [hdrop] at hrest ⊢
    rw [hsub, hrest]
  · -- Otherwise the key matches up to the first delimiter, and the text behind it is read on.
    rename_i hvalue
    have hfind : findCredential wide (some 38) (tokenKey ++ t) =
        some (tokenKey ++ redacted, tokenKey.length + (t.takeWhile inValue).length) := by
      have hmatch : matchKeyword (tokenKey ++ t) tokenKey =
          some (tokenKey ++ redacted, tokenKey.length + (t.takeWhile inValue).length) := by
        simp only [matchKeyword, dropKeyword_self, hvalue, if_false, List.take_left]
      have hfirst : keywords = tokenKey :: keywords.tail := by decide
      have hword : (some 38).any (isWord wide) = false := rfl
      rw [findCredential, hword, hfirst, List.findSome?_cons, hmatch]
      rfl
    have hkey : tokenKey = 99 :: tokenKey.tail := by decide
    have hskip : (tokenKey.tail ++ t.takeWhile inValue).length =
        tokenKey.length + (t.takeWhile inValue).length - 1 := by
      rw [tokenKey_eq]
      simp
      omega
    have hsplit : tokenKey.tail ++ t =
        (tokenKey.tail ++ t.takeWhile inValue) ++ t.dropWhile inValue := by
      rw [List.append_assoc, List.takeWhile_append_dropWhile]
    obtain ⟨before, hsub⟩ := sub_skip (findCredential wide)
      (tokenKey.tail ++ t.takeWhile inValue) (t.dropWhile inValue) (some 99)
    rw [hkey, List.cons_append] at hfind ⊢
    rw [sub_of_some hfind, ← hkey, hsplit, ← hskip, hsub, redact_rest, List.append_assoc]

/-- The tokens begin with a delimiter both or not at all, and read the same from their first
delimiter on when they are redacted. -/
def LeaveSame (t₁ t₂ : PyStr) : Prop :=
  (t₁.takeWhile inValue = [] ↔ t₂.takeWhile inValue = []) ∧
    redactControlToken wide (t₁.dropWhile inValue) = redactControlToken wide (t₂.dropWhile inValue)

theorem leaveSame_iff {t₁ t₂ : PyStr} (h₁ : t₁ ≠ []) (h₂ : t₂ ≠ []) :
    ((if t₁.takeWhile inValue = [] then redactControlToken wide (t₁.dropWhile inValue)
        else redacted ++ redactControlToken wide (t₁.dropWhile inValue)) =
      if t₂.takeWhile inValue = [] then redactControlToken wide (t₂.dropWhile inValue)
        else redacted ++ redactControlToken wide (t₂.dropWhile inValue)) ↔
    LeaveSame wide t₁ t₂ := by
  -- A token that begins with a delimiter is not masked: the first character tells.
  have hhead : ∀ t : PyStr, t ≠ [] → t.takeWhile inValue = [] → ∀ s : PyStr,
      redactControlToken wide (t.dropWhile inValue) ≠ redacted ++ s := by
    intro t ht hempty s hsame
    cases hrest : t.dropWhile inValue with
    | nil =>
      have hsplit := List.takeWhile_append_dropWhile (p := inValue) (l := t)
      rw [hempty, hrest] at hsplit
      exact ht hsplit.symm
    | cons c rest =>
      have hc := delimiter_of_dropWhile hrest
      have hredacted : redacted = 60 :: redacted.tail := by decide
      rw [hrest, redact_delimiter wide hc, hredacted, List.cons_append] at hsame
      rw [(List.cons.inj hsame).1] at hc
      exact absurd hc (by decide)
  unfold LeaveSame
  by_cases hv₁ : t₁.takeWhile inValue = [] <;> by_cases hv₂ : t₂.takeWhile inValue = []
  · simp only [hv₁, hv₂, if_true, true_and]
  · simp only [hv₁, hv₂, if_true, if_false, iff_false, not_true, false_and]
    exact hhead t₁ h₁ hv₁ _
  · simp only [hv₁, hv₂, if_true, if_false, iff_true, false_and, iff_false]
    exact fun h => hhead t₂ h₂ hv₂ _ h.symm
  · simp only [hv₁, hv₂, if_false, List.append_cancel_left_eq, true_and]

theorem redact_rest_eq_nil_iff (t : PyStr) :
    redactControlToken wide (t.dropWhile inValue) = [] ↔ ∀ c ∈ t, inValue c = true := by
  rw [← List.dropWhile_eq_nil_iff]
  cases hrest : t.dropWhile inValue with
  | nil => simp [redactControlToken, sub]
  | cons c rest => simp [redact_delimiter wide (delimiter_of_dropWhile hrest)]

/-- Against a token without a delimiter. -/
theorem leaveSame_iff_of_clean {t₁ t₂ : PyStr} (h₁ : t₁ ≠ []) (h₂ : t₂ ≠ [])
    (hclean : ∀ c ∈ t₁, inValue c = true) :
    LeaveSame wide t₁ t₂ ↔ ∀ c ∈ t₂, inValue c = true := by
  have hne : ∀ t : PyStr, t ≠ [] → (∀ c ∈ t, inValue c = true) → t.takeWhile inValue ≠ [] := by
    intro t ht hall
    rwa [List.takeWhile_eq_self_iff.mpr hall]
  unfold LeaveSame
  rw [(redact_rest_eq_nil_iff wide t₁).mpr hclean, eq_comm (a := []), redact_rest_eq_nil_iff]
  constructor
  · exact fun h => h.2
  · exact fun h => ⟨⟨fun hv => absurd hv (hne t₁ h₁ hclean), fun hv => absurd hv (hne t₂ h₂ h)⟩, h⟩

/-- The tokens begin with a delimiter both or not at all, and are the same from their first
delimiter on. -/
def SameBehind (t₁ t₂ : PyStr) : Prop :=
  (t₁.takeWhile inValue = [] ↔ t₂.takeWhile inValue = []) ∧
    t₁.dropWhile inValue = t₂.dropWhile inValue

theorem dropKeyword_mem {keyword s rest : PyStr} (h : dropKeyword keyword s = some rest) {p : ℕ}
    (hp : p ∈ keyword) : ∃ c ∈ s, foldCase c = foldCase p := by
  induction keyword generalizing s with
  | nil => cases hp
  | cons q keyword ih =>
    cases s with
    | nil => cases h
    | cons c s =>
      obtain ⟨hc, hrest⟩ := Option.ite_none_right_eq_some.mp h
      rcases List.mem_cons.mp hp with rfl | hp
      · exact ⟨c, List.mem_cons_self, hc⟩
      · obtain ⟨d, hd, hfold⟩ := ih hrest hp
        exact ⟨d, List.mem_cons_of_mem c hd, hfold⟩

/-- Without an equals sign nothing is masked. -/
theorem redact_of_not_mem {s : PyStr} (h : 61 ∉ s) : redactControlToken wide s = s := by
  -- Every keyword ends in an equals sign, and folding the case makes none.
  have hequals : ∀ keyword ∈ keywords, 61 ∈ keyword := by decide
  have hmatch : ∀ i, ∀ keyword ∈ keywords, matchKeyword (s.drop i ++ []) keyword = none := by
    intro i keyword hkeyword
    rw [List.append_nil]
    unfold matchKeyword
    split
    · rfl
    · rename_i rest hrest
      obtain ⟨c, hc, hfold⟩ := dropKeyword_mem hrest (hequals keyword hkeyword)
      have h61 : c = 61 := by
        unfold foldCase at hfold
        split_ifs at hfold <;> omega
      exact absurd (List.mem_of_mem_drop (h61 ▸ hc)) h
  have hnone : ∀ i < s.length, ∀ before, findCredential wide before (s.drop i ++ []) = none := by
    intro i _ before
    unfold findCredential
    split
    · rfl
    · exact List.findSome?_eq_none_iff.mpr (hmatch i)
  obtain ⟨before, hsub⟩ := sub_of_forall_none s [] hnone none
  rw [List.append_nil] at hsub
  rw [redactControlToken, hsub, sub, List.append_nil]

theorem leaveSame_of_sameBehind {t₁ t₂ : PyStr} (h : SameBehind t₁ t₂) : LeaveSame wide t₁ t₂ :=
  ⟨h.1, congrArg (redactControlToken wide) h.2⟩

/-- Without an equals sign behind them, what is left is what stands behind the first delimiters. -/
theorem leaveSame_iff_sameBehind {t₁ t₂ : PyStr} (h₁ : 61 ∉ t₁.dropWhile inValue)
    (h₂ : 61 ∉ t₂.dropWhile inValue) : LeaveSame wide t₁ t₂ ↔ SameBehind t₁ t₂ := by
  rw [LeaveSame, SameBehind, redact_of_not_mem wide h₁, redact_of_not_mem wide h₂]

/-- A token that ends in front of `&` is hidden. -/
theorem redact_url {e : PyStr} (hne : e ≠ []) (he : ∀ c ∈ e, inValue c = true) (a r : PyStr) :
    redactControlToken wide (a ++ 38 :: (tokenKey ++ (e ++ 38 :: r))) =
      redactControlToken wide (a ++ [38]) ++ (tokenKey ++ (redacted ++
        redactControlToken wide (38 :: r))) := by
  have hvalue : (e ++ 38 :: r).takeWhile inValue = e := by
    rw [List.takeWhile_append_of_pos he]
    simp [inValue]
  have hrest : (e ++ 38 :: r).dropWhile inValue = 38 :: r := by
    rw [List.dropWhile_append_of_pos he]
    simp [inValue]
  have hstops : StopsAt (findCredential wide) 38 := findCredential_stopsAt wide (by decide)
  unfold redactControlToken
  rw [sub_append hstops _ a none 0 (Nat.zero_le _), redact_token, hvalue, if_neg hne, hrest]
  rfl

end Token

/-! ### Two tokens -/

theorem inValue_of_printable {c : ℕ} (hlow : 37 ≤ c) (hhigh : c ≤ 126) (hamp : c ≠ 38)
    (hquote : c ≠ 39) : inValue c = true := by
  have hspace : isSpace c = false := by
    simp [isSpace]
    omega
  simp [inValue, hspace]
  omega

theorem inValue_quoteByte (b : UInt8) : ∀ c ∈ quoteByte b, inValue c = true := by
  have hhex : ∀ d < 16, inValue (hexUpper d) = true := by decide
  have hbyte := b.toNat_lt
  intro c hc
  unfold quoteByte at hc
  split at hc
  · rename_i hkept
    rw [List.mem_singleton] at hc
    simp only [isAlnum, Bool.or_eq_true, Bool.and_eq_true, decide_eq_true_eq] at hkept
    exact inValue_of_printable (by omega) (by omega) (by omega) (by omega)
  split at hc
  · rw [List.mem_singleton.mp hc]
    rfl
  · simp only [List.mem_cons, List.not_mem_nil, or_false] at hc
    rcases hc with rfl | rfl | rfl
    · rfl
    · exact hhex _ (by omega)
    · exact hhex _ (by omega)

theorem quoteByte_ne_nil (b : UInt8) : quoteByte b ≠ [] := by
  unfold quoteByte
  repeat' split
  all_goals simp

/-- The encoded token. -/
def encoded (t : PyStr) : PyStr := t.utf8.flatMap quoteByte

theorem encoded_ne_nil {t : PyStr} (ht : t ≠ []) : encoded t ≠ [] := by
  obtain ⟨c, t, rfl⟩ := List.exists_cons_of_ne_nil ht
  obtain ⟨b, bytes, hbytes⟩ := List.exists_cons_of_ne_nil (Utf8.encode_ne_nil (Char.ofNat c))
  rw [encoded, utf8_cons, hbytes, List.cons_append, List.flatMap_cons]
  exact List.append_ne_nil_of_left_ne_nil (quoteByte_ne_nil b) _

theorem inValue_encoded (t : PyStr) : ∀ c ∈ encoded t, inValue c = true := by
  intro c hc
  obtain ⟨b, _, hb⟩ := List.mem_flatMap.mp hc
  exact inValue_quoteByte b c hb

theorem quoteParam_token {t : PyStr} (ht : t.IsText) :
    quoteParam ("controlToken", t) = some (tokenKey ++ encoded t) := by
  have hkey : quotePlus (ofString "controlToken") = some (ofString "controlToken") := by
    decide
  have hjoin : tokenKey = ofString "controlToken" ++ [61] := by decide
  have hvalue : quotePlus t = some (encoded t) := if_pos ht
  simp only [quoteParam, hkey, hvalue, hjoin, Option.bind_eq_bind, Option.bind_some,
    Option.pure_def, List.append_assoc, List.cons_append, List.nil_append]

theorem quoteParam_not_text {t : PyStr} (ht : ¬ t.IsText) :
    quoteParam ("controlToken", t) = none := by
  simp only [quoteParam, quotePlus, ht, if_false, Option.bind_eq_bind, Option.bind_none,
    Option.bind_fun_none]

def oobText : PyStr := ofString "oobEnable=1"

/-- The query with a token in it. -/
theorem urlencode_token {t : PyStr} (hne : t ≠ []) (param : String × PyStr) (params : Params) :
    urlencode (oobParams true (some t) ++ param :: params) =
      if t.IsText then (urlencode (param :: params)).map fun query =>
        oobText ++ 38 :: (tokenKey ++ (encoded t ++ 38 :: query))
      else none := by
  -- The flag stands before the token, and the other parameters behind it.
  have hfirst : quoteParam ("oobEnable", ofString "1") = some oobText := by decide
  have hparams : oobParams true (some t) = [("oobEnable", ofString "1"), ("controlToken", t)] := by
    simp [oobParams, hne]
  rw [hparams]
  split
  · rename_i ht
    unfold urlencode
    simp only [List.cons_append, List.nil_append, List.mapM_cons, hfirst, quoteParam_token ht,
      Option.bind_eq_bind, Option.bind_some, Option.pure_def]
    cases quoteParam param with
    | none => rfl
    | some first =>
      cases params.mapM quoteParam with
      | none => rfl
      | some rest =>
        simp [List.intercalate, List.intersperse, List.append_assoc]
  · rename_i ht
    unfold urlencode
    simp only [List.cons_append, List.nil_append, List.mapM_cons, hfirst, quoteParam_not_text ht,
      Option.bind_eq_bind, Option.bind_some, Option.bind_none, Option.map_none]

section Main

variable (wide : ℕ → Bool) (intOfStr : PyStr → Option ℤ) (webBase route : PyStr) (config : Config)

/-- The redacted URL has nothing of the token in it. -/
theorem redact_build {t₁ t₂ : PyStr} (h₁ : t₁ ≠ []) (h₂ : t₂ ≠ []) (htext₁ : t₁.IsText)
    (htext₂ : t₂.IsText) (oobEnable : Bool) :
    (buildHeadsetBookmarkUrl intOfStr webBase route config (some t₁) oobEnable).map
        (redactControlToken wide) =
      (buildHeadsetBookmarkUrl intOfStr webBase route config (some t₂) oobEnable).map
        (redactControlToken wide) := by
  unfold buildHeadsetBookmarkUrl
  split
  · rfl
  split
  · rfl
  rename_i port _
  cases oobEnable with
  | false => rfl
  | true =>
    simp only [urlencode_token h₁, urlencode_token h₂, htext₁, htext₂, if_true]
    cases urlencode (("serverIP", (config "serverIP").text) ::
        ("port", Value.decimalText port) :: clientParams config) with
    | none => rfl
    | some query =>
      -- The encoded token stands between the same texts in both URLs.
      have hsplit : ∀ e : PyStr, assembleUrl webBase route
          (oobText ++ 38 :: (tokenKey ++ (e ++ 38 :: query))) =
          (webBase.rdropWhile (· = 47) ++ (if 63 ∈ webBase.rdropWhile (· = 47) then 38 else 63) ::
            oobText) ++ 38 :: (tokenKey ++ (e ++ 38 :: (query ++
              if route = [] then [] else 35 :: route))) := by
        intro e
        simp only [assembleUrl, List.append_assoc, List.cons_append]
      simp only [Option.map_some, Except.map, hsplit,
        redact_url wide (encoded_ne_nil h₁) (inValue_encoded t₁),
        redact_url wide (encoded_ne_nil h₂) (inValue_encoded t₂)]

theorem isText_of_build {t url : PyStr} (h : t ≠ [])
    (hurl : buildHeadsetBookmarkUrl intOfStr webBase route config (some t) true = .ok url) :
    t.IsText := by
  by_contra htext
  unfold buildHeadsetBookmarkUrl at hurl
  split at hurl
  · cases hurl
  split at hurl
  · cases hurl
  simp only [urlencode_token h, htext, if_false] at hurl
  cases hurl

theorem bookmarkLine_eq {url t : PyStr} (generated : PyStr) (h : t ≠ [])
    (hurl : buildHeadsetBookmarkUrl intOfStr webBase route config none true = .ok url) :
    bookmarkLine wide intOfStr webBase route config (some t) generated =
      .ok (ofString "           " ++ (redactControlToken wide (url ++ [38]) ++ (tokenKey ++
        if t.takeWhile inValue = [] then redactControlToken wide (t.dropWhile inValue)
        else redacted ++ redactControlToken wide (t.dropWhile inValue)))) := by
  have hkey : ofString "&controlToken=" = 38 :: tokenKey := by decide
  have hstops : StopsAt (findCredential wide) 38 := findCredential_stopsAt wide (by decide)
  have hredact : redactControlToken wide (url ++ 38 :: (tokenKey ++ t)) =
      redactControlToken wide (url ++ [38]) ++
        sub (findCredential wide) (some 38) 0 (tokenKey ++ t) :=
    sub_append hstops _ url none 0 (Nat.zero_le _)
  unfold bookmarkLine
  simp only [resolveControlToken, h, if_false, hurl, hkey, List.append_assoc, List.cons_append]
  rw [← redact_token, ← hredact]
  rfl

end Main

/-- **Two tokens on the screen.**  The line of the banner is the same for tokens that are the same
from their first delimiters on, and different for a token without a delimiter and one with, and for
tokens that differ behind their delimiters, unless there is an equals sign behind these.  The
redacted URL is the same for all tokens that can be encoded. -/
theorem bookmark_redaction (wide : ℕ → Bool) (intOfStr : PyStr → Option ℤ) (webBase route : PyStr)
    (config : Config) (oobEnable : Bool) (generated t₁ t₂ : PyStr) (h₁ : t₁ ≠ []) (h₂ : t₂ ≠ []) :
    (∀ url, buildHeadsetBookmarkUrl intOfStr webBase route config none true = .ok url →
      (SameBehind t₁ t₂ → bookmarkLine wide intOfStr webBase route config (some t₁) generated =
          bookmarkLine wide intOfStr webBase route config (some t₂) generated) ∧
      (61 ∉ t₁.dropWhile inValue → 61 ∉ t₂.dropWhile inValue →
        (bookmarkLine wide intOfStr webBase route config (some t₁) generated =
          bookmarkLine wide intOfStr webBase route config (some t₂) generated ↔
        SameBehind t₁ t₂)) ∧
      ((∀ c ∈ t₁, inValue c = true) →
        (bookmarkLine wide intOfStr webBase route config (some t₁) generated =
          bookmarkLine wide intOfStr webBase route config (some t₂) generated ↔
        ∀ c ∈ t₂, inValue c = true))) ∧
    (t₁.IsText → t₂.IsText →
      (buildHeadsetBookmarkUrl intOfStr webBase route config (some t₁) oobEnable).map
          (redactControlToken wide) =
        (buildHeadsetBookmarkUrl intOfStr webBase route config (some t₂) oobEnable).map
          (redactControlToken wide)) ∧
    (∀ url, buildHeadsetBookmarkUrl intOfStr webBase route config (some t₁) true = .ok url →
      t₁.IsText) := by
  refine ⟨fun url hurl => ?_, fun htext₁ htext₂ =>
    redact_build wide intOfStr webBase route config h₁ h₂ htext₁ htext₂ oobEnable,
    fun url hurl => isText_of_build intOfStr webBase route config h₁ hurl⟩
  -- The banner is the same text around what the tokens leave behind.
  have hsame : bookmarkLine wide intOfStr webBase route config (some t₁) generated =
      bookmarkLine wide intOfStr webBase route config (some t₂) generated ↔
        LeaveSame wide t₁ t₂ := by
    rw [bookmarkLine_eq wide intOfStr webBase route config generated h₁ hurl,
      bookmarkLine_eq wide intOfStr webBase route config generated h₂ hurl, Except.ok.injEq,
      List.append_cancel_left_eq, List.append_cancel_left_eq, List.append_cancel_left_eq,
      leaveSame_iff wide h₁ h₂]
  exact ⟨fun hbehind => hsame.mpr (leaveSame_of_sameBehind wide hbehind),
    fun hequals₁ hequals₂ => hsame.trans (leaveSame_iff_sameBehind wide hequals₁ hequals₂),
    fun hclean => hsame.trans (leaveSame_iff_of_clean wide h₁ h₂ hclean)⟩

def lanConfig : Config
  | "serverIP" => .str (ofString "10.0.0.9")
  | "port" => .int 48322
  | _ => .none

/-- Two tokens without a delimiter. -/
theorem plain_tokens :
    bookmarkLine (fun _ => false) (fun _ => none) (ofString "https://x/") [] lanConfig
        (some (ofString "s3cret")) [] =
      bookmarkLine (fun _ => false) (fun _ => none) (ofString "https://x/") [] lanConfig
        (some (ofString "other")) [] := by
  have hurl : buildHeadsetBookmarkUrl (fun _ => none) (ofString "https://x/") [] lanConfig none
      true = .ok (ofString "https://x?oobEnable=1&serverIP=10.0.0.9&port=48322") := by
    decide
  exact ((bookmark_redaction (fun _ => false) (fun _ => none) (ofString "https://x/") [] lanConfig
    true [] (ofString "s3cret") (ofString "other") (by decide) (by decide)).1 _
      hurl).2.2 (by decide) |>.mpr (by decide)

/-- The part of a token behind a blank is shown. -/
theorem token_shown :
    bookmarkLine (fun _ => false) (fun _ => none) (ofString "https://x/") [] lanConfig
        (some (ofString "my s3cret")) [] = .ok (ofString "           " ++ ofString
      "https://x?oobEnable=1&serverIP=10.0.0.9&port=48322&controlToken=<REDACTED> s3cret") ∧
    bookmarkLine (fun _ => false) (fun _ => none) (ofString "https://x/") [] lanConfig
        (some (ofString "my s3cret")) [] ≠
      bookmarkLine (fun _ => false) (fun _ => none) (ofString "https://x/") [] lanConfig
        (some (ofString "other")) [] := by
  decide

end BookmarkRedaction
