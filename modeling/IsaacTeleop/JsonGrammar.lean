/-
The grammar of the objects that the calibration worker reads.

An object is flat: its values are strings, plain integers and arrays of strings.  The grammar
says what a text of that kind is, over any notion of what may stand in a string; `Chars` is the
reader's notion.

* `FlatObject` — the grammar;
* `readChars_of_chars`, `chars_of_readChars` — strings, and in the same way the other parts;
* `parseObject_iff` — the reader accepts the texts of the grammar and no others.
-/
import IsaacTeleop.CalibrationCommands

open ByteText

namespace Calibration.Json

/-! ### Strings -/

/-- What follows the backslash of a short escape, and what it stands for. -/
def shortEscapes : List (UInt8 × UInt8) :=
  [(byte '"', byte '"'), (byte '\\', byte '\\'), (byte '/', byte '/'), (byte 'b', 0x08),
    (byte 'f', 0x0C), (byte 'n', 0x0A), (byte 'r', 0x0D), (byte 't', 0x09)]

/-- Four hexadecimal digits and their value. -/
def Hex4 (digits : ByteText) (code : ℕ) : Prop :=
  ∃ h₁ h₂ h₃ h₄ d₁ d₂ d₃ d₄, digits = [h₁, h₂, h₃, h₄] ∧ hexDigit h₁ = some d₁ ∧
    hexDigit h₂ = some d₂ ∧ hexDigit h₃ = some d₃ ∧ hexDigit h₄ = some d₄ ∧
    code = ((d₁ * 16 + d₂) * 16 + d₃) * 16 + d₄

/-- What follows a backslash, with the bytes it stands for.  A code unit of a surrogate pair
stands only in a pair. -/
inductive Escape : ByteText → ByteText → Prop
  | short {e b : UInt8} (mem : (e, b) ∈ shortEscapes) : Escape [e] [b]
  | basic {digits : ByteText} {code : ℕ} (hex : Hex4 digits code) (valid : code.isValidChar) :
      Escape (byte 'u' :: digits) (String.utf8EncodeChar (Char.ofNat code))
  | pair {digits digits' : ByteText} {high low : ℕ} (hex : Hex4 digits high)
      (hex' : Hex4 digits' low) (isHigh : 0xD800 ≤ high ∧ high ≤ 0xDBFF)
      (isLow : 0xDC00 ≤ low ∧ low ≤ 0xDFFF) :
      Escape (byte 'u' :: (digits ++ byte '\\' :: byte 'u' :: digits'))
        (String.utf8EncodeChar (Char.ofNat (0x10000 + (high - 0xD800) * 1024 + (low - 0xDC00))))

/-- A byte that stands for itself. -/
def IsPlain (c : UInt8) : Prop := c ≠ byte '"' ∧ c ≠ byte '\\' ∧ ¬ c < 0x20

/-- What stands between the quotes of a string, with the bytes it stands for.  Bytes from 0x80 on
stand for themselves, whatever they are. -/
inductive Chars : ByteText → ByteText → Prop
  | nil : Chars [] []
  | plain {c : UInt8} {text out : ByteText} (hc : IsPlain c) (rest : Chars text out) :
      Chars (c :: text) (c :: out)
  | escape {e bytes text out : ByteText} (he : Escape e bytes) (rest : Chars text out) :
      Chars (byte '\\' :: e ++ text) (bytes ++ out)

/-! ### Objects -/

def Space (w : ByteText) : Prop := ∀ c ∈ w, isSpace c = true

/-- An integer of at most 18 digits without leading zeros. -/
def IntegerText (s : ByteText) (n : ℤ) : Prop :=
  ∃ digits,
    (s = digits ∧ n = digitsValue digits ∨ s = byte '-' :: digits ∧ n = -digitsValue digits) ∧
    (∀ c ∈ digits, isDigit c = true) ∧ 1 ≤ digits.length ∧ digits.length ≤ 18 ∧
    (1 < digits.length → digits.head? ≠ some (byte '0'))

section Grammar

variable (S : ByteText → ByteText → Prop)

def StringText (s value : ByteText) : Prop :=
  ∃ body, s = byte '"' :: (body ++ [byte '"']) ∧ S body value

/-- The strings of an array, with commas between them. -/
inductive ItemsText : ByteText → List ByteText → Prop
  | last {w s w' item : ByteText} (space : Space w) (str : StringText S s item)
      (space' : Space w') : ItemsText (w ++ s ++ w') [item]
  | more {w s w' item text : ByteText} {items : List ByteText} (space : Space w)
      (str : StringText S s item) (space' : Space w') (rest : ItemsText text items) :
      ItemsText (w ++ s ++ w' ++ byte ',' :: text) (item :: items)

inductive ValueText : ByteText → Value → Prop
  | string {s value : ByteText} (str : StringText S s value) : ValueText s (.string value)
  | integer {s : ByteText} {n : ℤ} (int : IntegerText s n) : ValueText s (.integer n)
  | empty {w : ByteText} (space : Space w) : ValueText (byte '[' :: (w ++ [byte ']'])) (.strings [])
  | array {text : ByteText} {items : List ByteText} (rest : ItemsText S text items) :
      ValueText (byte '[' :: (text ++ [byte ']'])) (.strings items)

/-- A key and its value. -/
inductive MemberText : ByteText → ByteText × Value → Prop
  | mk {w k w₁ w₂ v w₃ key : ByteText} {value : Value} (space : Space w) (str : StringText S k key)
      (space₁ : Space w₁) (space₂ : Space w₂) (val : ValueText S v value) (space₃ : Space w₃) :
      MemberText (w ++ k ++ w₁ ++ byte ':' :: (w₂ ++ v ++ w₃)) (key, value)

/-- The members of an object, with commas between them. -/
inductive MembersText : ByteText → Members → Prop
  | last {text : ByteText} {m : ByteText × Value} (member : MemberText S text m) :
      MembersText text [m]
  | more {text text' : ByteText} {m : ByteText × Value} {ms : Members}
      (member : MemberText S text m) (rest : MembersText text' ms) :
      MembersText (text ++ byte ',' :: text') (m :: ms)

/-- **One flat object**, with its members. -/
def FlatObject (text : ByteText) (members : Members) : Prop :=
  ∃ w body w', text = w ++ byte '{' :: (body ++ byte '}' :: w') ∧ Space w ∧ Space w' ∧
    (Space body ∧ members = [] ∨ MembersText S body members) ∧ (members.map Prod.fst).Nodup

end Grammar

/-! ### Reading strings -/

theorem hexDigit_lt {h : UInt8} {d : ℕ} (hd : hexDigit h = some d) : d < 16 := by
  have hrange : ∀ {first last : UInt8}, first ≤ h → h ≤ last →
      (h - first).toNat ≤ (last - first).toNat := by
    intro first last hfirst hlast
    rw [UInt8.toNat_sub_of_le _ _ hfirst,
      UInt8.toNat_sub_of_le _ _ (UInt8.le_trans hfirst hlast)]
    exact Nat.sub_le_sub_right (UInt8.le_iff_toNat_le.mp hlast) _
  have hletter : ∀ {first last : UInt8}, first ≤ h → h ≤ last → (last - first).toNat = 5 →
      (h - first + 10).toNat < 16 := by
    intro first last hfirst hlast hfive
    have hle := hrange hfirst hlast
    rw [UInt8.toNat_add]
    show ((h - first).toNat + 10) % 2 ^ 8 < 16
    omega
  unfold hexDigit at hd
  simp only [Bool.and_eq_true, decide_eq_true_eq] at hd
  split at hd
  · rename_i hdigit
    obtain rfl := Option.some.inj hd
    exact (hrange hdigit.1 hdigit.2).trans_lt (by decide)
  split at hd
  · rename_i hlower
    obtain rfl := Option.some.inj hd
    exact hletter hlower.1 hlower.2 (by decide)
  split at hd
  · rename_i hupper
    obtain rfl := Option.some.inj hd
    exact hletter hupper.1 hupper.2 (by decide)
  · cases hd

theorem readHex4_iff {text rest : ByteText} {code : ℕ} :
    readHex4 text = some (code, rest) ↔ ∃ digits, text = digits ++ rest ∧ Hex4 digits code := by
  -- Four digits shifted together are the number they spell.
  have hvalue : ∀ {h₁ h₂ h₃ h₄ : UInt8} {d₁ d₂ d₃ d₄ : ℕ}, hexDigit h₁ = some d₁ →
      hexDigit h₂ = some d₂ → hexDigit h₃ = some d₃ → hexDigit h₄ = some d₄ → ∀ rest : ByteText,
      readHex4 (h₁ :: h₂ :: h₃ :: h₄ :: rest) =
        some (((d₁ * 16 + d₂) * 16 + d₃) * 16 + d₄, rest) := by
    intro h₁ h₂ h₃ h₄ d₁ d₂ d₃ d₄ e₁ e₂ e₃ e₄ rest
    rw [readHex4, e₁, e₂, e₃, e₄, ← shift_digit _ (hexDigit_lt e₂),
      ← shift_digit _ (hexDigit_lt e₃), ← shift_digit _ (hexDigit_lt e₄)]
    rfl
  constructor
  · intro h
    rw [readHex4.eq_def] at h
    split at h
    · rename_i h₁ h₂ h₃ h₄ rest'
      obtain ⟨d₁, e₁, h⟩ := Option.bind_eq_some_iff.mp h
      obtain ⟨d₂, e₂, h⟩ := Option.bind_eq_some_iff.mp h
      obtain ⟨d₃, e₃, h⟩ := Option.bind_eq_some_iff.mp h
      obtain ⟨d₄, e₄, h⟩ := Option.bind_eq_some_iff.mp h
      have hcode := hvalue e₁ e₂ e₃ e₄ rest'
      rw [readHex4, e₁, e₂, e₃, e₄] at hcode
      obtain ⟨rfl, rfl⟩ := Prod.mk.inj (Option.some_inj.mp (hcode.symm.trans h))
      exact ⟨[h₁, h₂, h₃, h₄], rfl, h₁, h₂, h₃, h₄, d₁, d₂, d₃, d₄, rfl, e₁, e₂, e₃, e₄, rfl⟩
    · cases h
  · rintro ⟨_, rfl, h₁, h₂, h₃, h₄, d₁, d₂, d₃, d₄, rfl, e₁, e₂, e₃, e₄, rfl⟩
    exact hvalue e₁ e₂ e₃ e₄ rest

theorem Hex4.lt {digits : ByteText} {code : ℕ} (h : Hex4 digits code) : code < 0x10000 := by
  obtain ⟨h₁, h₂, h₃, h₄, d₁, d₂, d₃, d₄, -, e₁, e₂, e₃, e₄, rfl⟩ := h
  have := hexDigit_lt e₁
  have := hexDigit_lt e₂
  have := hexDigit_lt e₃
  have := hexDigit_lt e₄
  omega

theorem appendUtf8_valid {code : ℕ} (h : code.isValidChar) :
    appendUtf8 code = String.utf8EncodeChar (Char.ofNat code) := by
  rw [← appendUtf8_eq, Char.toNat_ofNat, if_pos h]

theorem readLowSurrogate_iff {text rest : ByteText} {low : ℕ} :
    readLowSurrogate text = some (low, rest) ↔ ∃ digits,
      text = byte '\\' :: byte 'u' :: digits ++ rest ∧ Hex4 digits low ∧
        0xDC00 ≤ low ∧ low ≤ 0xDFFF := by
  constructor
  · intro h
    rw [readLowSurrogate.eq_def] at h
    split at h
    · split at h
      · rename_i hslash
        obtain ⟨rfl, rfl⟩ := hslash
        split at h
        · rename_i hhex
          split at h
          · cases h
          · rename_i hrange
            obtain ⟨rfl, rfl⟩ := Prod.mk.inj (Option.some_inj.mp h)
            obtain ⟨digits, rfl, hdigits⟩ := readHex4_iff.mp hhex
            exact ⟨digits, rfl, hdigits, by omega⟩
        · cases h
      · cases h
    · cases h
  · rintro ⟨digits, rfl, hdigits, hrange⟩
    rw [List.cons_append, List.cons_append, readLowSurrogate, if_pos ⟨rfl, rfl⟩,
      readHex4_iff.mpr ⟨digits, rfl, hdigits⟩]
    exact if_neg (by omega)

theorem pair_valid {high low : ℕ} (hhigh : 0xD800 ≤ high ∧ high ≤ 0xDBFF)
    (hlow : 0xDC00 ≤ low ∧ low ≤ 0xDFFF) :
    (0x10000 + (high - 0xD800) * 1024 + (low - 0xDC00)).isValidChar := by
  right
  omega

/-- **Escapes of code units.** -/
theorem readUnicodeEscape_iff {text rest bytes : ByteText} :
    readUnicodeEscape text = .ok (bytes, rest) ↔
      ∃ e, text = e ++ rest ∧ Escape (byte 'u' :: e) bytes := by
  constructor
  · intro h
    rw [readUnicodeEscape] at h
    split at h
    · cases h
    · rename_i code rest' hhex
      obtain ⟨digits, rfl, hdigits⟩ := readHex4_iff.mp hhex
      have hlt := hdigits.lt
      split at h
      · -- A high surrogate takes the low one behind it.
        rename_i hhigh
        split at h
        · cases h
        · rename_i low rest'' hlow
          obtain ⟨digits', rfl, hdigits', hrange⟩ := readLowSurrogate_iff.mp hlow
          obtain ⟨rfl, rfl⟩ := Prod.mk.inj (Except.ok.inj h)
          refine ⟨digits ++ byte '\\' :: byte 'u' :: digits', by simp, ?_⟩
          rw [Nat.shiftLeft_eq, appendUtf8_valid (pair_valid hhigh hrange)]
          exact .pair hdigits hdigits' hhigh hrange
      · rename_i hhigh
        split at h
        · cases h
        · rename_i hlow
          obtain ⟨rfl, rfl⟩ := Prod.mk.inj (Except.ok.inj h)
          -- Neither half of a pair is left over, so the code is a character.
          have hvalid : code.isValidChar := by
            by_cases hless : code < 0xD800
            · exact .inl hless
            · exact .inr ⟨by omega, by omega⟩
          rw [appendUtf8_valid hvalid]
          exact ⟨digits, rfl, .basic hdigits hvalid⟩
  · rintro ⟨e, rfl, he⟩
    cases he with
    | short hmem =>
      -- `u` is no short escape.
      have hkeys : byte 'u' ∉ shortEscapes.map Prod.fst := by decide
      exact absurd (List.mem_map_of_mem (f := Prod.fst) hmem) hkeys
    | basic hdigits hvalid =>
      have hread : readHex4 (e ++ rest) = some (_, rest) := readHex4_iff.mpr ⟨e, rfl, hdigits⟩
      rw [readUnicodeEscape, hread]
      dsimp only
      rw [if_neg, if_neg, appendUtf8_valid hvalid]
      · rcases hvalid with hless | hmore
        · omega
        · omega
      · rcases hvalid with hless | hmore
        · omega
        · omega
    | pair hdigits hdigits' hhigh hlow =>
      rename_i digits digits' high low
      have hreadLow : readLowSurrogate (byte '\\' :: byte 'u' :: digits' ++ rest) =
          some (low, rest) := readLowSurrogate_iff.mpr ⟨_, rfl, hdigits', hlow⟩
      have hread : readHex4 (digits ++ (byte '\\' :: byte 'u' :: digits' ++ rest)) =
          some (high, byte '\\' :: byte 'u' :: digits' ++ rest) :=
        readHex4_iff.mpr ⟨digits, rfl, hdigits⟩
      rw [List.append_assoc, readUnicodeEscape_surrogates hread hhigh hreadLow, Nat.shiftLeft_eq,
        appendUtf8_valid (pair_valid hhigh hlow)]

/-- **Escapes.** -/
theorem readEscape_iff {text rest bytes : ByteText} :
    readEscape text = .ok (bytes, rest) ↔ ∃ e, text = e ++ rest ∧ Escape e bytes := by
  constructor
  · intro h
    cases text with
    | nil => cases h
    | cons e text =>
      -- The escapes of one letter differ in their table entry only.
      have hshort : ∀ {b : UInt8}, (e, b) ∈ shortEscapes → ([b], text) = (bytes, rest) →
          ∃ e', e :: text = e' ++ rest ∧ Escape e' bytes := by
        intro b hmem heq
        obtain ⟨rfl, rfl⟩ := Prod.mk.inj heq
        exact ⟨[e], rfl, .short hmem⟩
      rw [readEscape] at h
      split at h
      · rename_i hself
        refine hshort ?_ (Except.ok.inj h)
        rcases hself with rfl | rfl | rfl <;> decide
      split at h
      · rename_i hb
        subst hb
        exact hshort (by decide) (Except.ok.inj h)
      split at h
      · rename_i hf
        subst hf
        exact hshort (by decide) (Except.ok.inj h)
      split at h
      · rename_i hn
        subst hn
        exact hshort (by decide) (Except.ok.inj h)
      split at h
      · rename_i hr
        subst hr
        exact hshort (by decide) (Except.ok.inj h)
      split at h
      · rename_i ht
        subst ht
        exact hshort (by decide) (Except.ok.inj h)
      split at h
      · rename_i hu
        subst hu
        obtain ⟨e, rfl, he⟩ := readUnicodeEscape_iff.mp h
        exact ⟨byte 'u' :: e, rfl, he⟩
      · cases h
  · rintro ⟨e, rfl, he⟩
    have hunicode : ∀ {e' : ByteText}, e = byte 'u' :: e' →
        readEscape (e ++ rest) = .ok (bytes, rest) := by
      rintro e' rfl
      exact readUnicodeEscape_iff.mpr ⟨e', rfl, he⟩
    cases he with
    | short hmem =>
      simp only [shortEscapes, List.mem_cons, Prod.mk.injEq, List.not_mem_nil, or_false] at hmem
      rcases hmem with ⟨rfl, rfl⟩ | ⟨rfl, rfl⟩ | ⟨rfl, rfl⟩ | ⟨rfl, rfl⟩ | ⟨rfl, rfl⟩ | ⟨rfl, rfl⟩ |
        ⟨rfl, rfl⟩ | ⟨rfl, rfl⟩ <;> rfl
    | basic hdigits hvalid => exact hunicode rfl
    | pair hdigits hdigits' hhigh hlow => exact hunicode rfl

theorem chars_of_readChars {turns : ℕ} {text out rest : ByteText}
    (h : readChars turns text = .ok (out, rest)) :
    ∃ body, text = body ++ byte '"' :: rest ∧ Chars body out := by
  induction turns generalizing text out with
  | zero => cases h
  | succ turns ih =>
    cases text with
    | nil => cases h
    | cons c text =>
      rw [readChars] at h
      split at h
      · -- Neither the quote nor a control character: a plain one, or an escape.
        rename_i hquote
        obtain ⟨rfl, rfl⟩ := Prod.mk.inj (Except.ok.inj h)
        exact ⟨[], by rw [hquote]; rfl, .nil⟩
      rename_i hquote
      split at h
      · cases h
      rename_i hcontrol
      split at h
      · rename_i hslash
        split at h
        · rename_i out' rest' hread
          obtain ⟨rfl, rfl⟩ := Prod.mk.inj (Except.ok.inj h)
          obtain ⟨body, rfl, hbody⟩ := ih hread
          exact ⟨c :: body, rfl, .plain ⟨hquote, hslash, hcontrol⟩ hbody⟩
        · cases h
      · rename_i hslash
        split at h
        · rename_i bytes rest' hescape
          split at h
          · rename_i out' rest'' hread
            obtain ⟨rfl, rfl⟩ := Prod.mk.inj (Except.ok.inj h)
            obtain ⟨body, rfl, hbody⟩ := ih hread
            obtain ⟨e, rfl, he⟩ := readEscape_iff.mp hescape
            refine ⟨c :: e ++ body, by simp, ?_⟩
            rw [not_not.mp hslash]
            exact .escape he hbody
          · cases h
        · cases h

theorem readChars_of_chars {body out : ByteText} (h : Chars body out) {turns : ℕ}
    (hturns : body.length < turns) (rest : ByteText) :
    readChars turns (body ++ byte '"' :: rest) = .ok (out, rest) := by
  induction h generalizing turns with
  | nil =>
    obtain ⟨turns, rfl⟩ : ∃ n, turns = n + 1 := ⟨turns - 1, by omega⟩
    rfl
  | plain hc hrest ih =>
    obtain ⟨turns, rfl⟩ : ∃ n, turns = n + 1 := ⟨turns - 1, by omega⟩
    obtain ⟨hquote, hslash, hcontrol⟩ := hc
    have hread := @ih turns (by simpa using hturns)
    rw [List.cons_append, readChars, if_neg hquote, if_neg hcontrol, if_pos hslash, hread]
  | escape he hrest ih =>
    obtain ⟨turns, rfl⟩ : ∃ n, turns = n + 1 := ⟨turns - 1, by omega⟩
    rename_i e bytes text out
    have hread := @ih turns (by
      simp only [List.length_cons, List.length_append] at hturns
      omega)
    have hescape : readEscape (e ++ (text ++ byte '"' :: rest)) =
        .ok (bytes, text ++ byte '"' :: rest) := readEscape_iff.mpr ⟨e, rfl, he⟩
    rw [List.cons_append, List.cons_append, List.append_assoc]
    exact readChars_escape hescape hread

/-- **Strings.** -/
theorem readString_iff {text value rest : ByteText} :
    readString text = .ok (value, rest) ↔ ∃ s, text = s ++ rest ∧ StringText Chars s value := by
  constructor
  · intro h
    cases text with
    | nil => cases h
    | cons c text =>
      by_cases hc : c = byte '"'
      · rw [readString, consume, if_pos hc] at h
        obtain ⟨body, rfl, hbody⟩ := chars_of_readChars h
        exact ⟨byte '"' :: (body ++ [byte '"']), by simp [hc], body, rfl, hbody⟩
      · rw [readString, consume, if_neg hc] at h
        cases h
  · rintro ⟨s, rfl, body, rfl, hbody⟩
    rw [List.cons_append, readString, consume, if_pos rfl]
    dsimp only
    rw [List.append_assoc, List.singleton_append]
    refine readChars_of_chars hbody ?_ rest
    rw [List.length_append, List.length_cons]
    omega

/-! ### Reading values -/

theorem space_takeWhile (text : ByteText) : Space (text.takeWhile isSpace) := fun _ hc =>
  List.mem_takeWhile_imp hc

theorem skipSpace_append {w : ByteText} (hw : Space w) (text : ByteText) :
    skipSpace (w ++ text) = skipSpace text := List.dropWhile_append_of_pos hw

/-- **A delimiter after white space.** -/
theorem consume_skipSpace_iff {c : Char} (hc : isSpace (byte c) = false) {text rest : ByteText} :
    consume c (skipSpace text) = some rest ↔ ∃ w, Space w ∧ text = w ++ byte c :: rest := by
  constructor
  · intro h
    refine ⟨text.takeWhile isSpace, space_takeWhile text, ?_⟩
    have hsplit := List.takeWhile_append_dropWhile (p := isSpace) (l := text)
    rw [skipSpace] at h
    cases hdrop : text.dropWhile isSpace with
    | nil =>
      rw [hdrop] at h
      cases h
    | cons d text' =>
      rw [hdrop, consume] at h
      split at h
      · rename_i heq
        rw [← Option.some_inj.mp h, ← heq, ← hdrop, hsplit]
      · cases h
  · rintro ⟨w, hw, rfl⟩
    rw [skipSpace_append hw, skipSpace_cons hc, consume, if_pos rfl]

/-- No delimiter after white space. -/
theorem consume_skipSpace_none {c d : Char} (hd : isSpace (byte d) = false) (hcd : byte d ≠ byte c)
    {w rest : ByteText} (hw : Space w) : consume c (skipSpace (w ++ byte d :: rest)) = none := by
  rw [skipSpace_append hw, skipSpace_cons hd, consume, if_neg hcd]

theorem readString_skipSpace_iff {text value rest : ByteText} :
    readString (skipSpace text) = .ok (value, rest) ↔
      ∃ w s, Space w ∧ StringText Chars s value ∧ text = w ++ s ++ rest := by
  constructor
  · intro h
    obtain ⟨s, heq, hs⟩ := readString_iff.mp h
    refine ⟨text.takeWhile isSpace, s, space_takeWhile text, hs, ?_⟩
    rw [List.append_assoc, ← heq, skipSpace, List.takeWhile_append_dropWhile]
  · rintro ⟨w, s, hw, hs, rfl⟩
    rw [List.append_assoc, skipSpace_append hw]
    have hcons : skipSpace (s ++ rest) = s ++ rest := by
      obtain ⟨body, rfl, -⟩ := hs
      exact skipSpace_cons rfl _
    rw [hcons]
    exact readString_iff.mpr ⟨s, rfl, hs⟩

/-- White space before the first item belongs to it. -/
theorem ItemsText.space {S : ByteText → ByteText → Prop} {text w : ByteText}
    {items : List ByteText} (h : ItemsText S text items) (hw : Space w) :
    ItemsText S (w ++ text) items := by
  have happend : ∀ {w' : ByteText}, Space w' → Space (w ++ w') := by
    intro w' hw' c hc
    rcases List.mem_append.mp hc with hc | hc
    · exact hw c hc
    · exact hw' c hc
  cases h with
  | last hw₁ hs hw₂ =>
    have hlast := ItemsText.last (happend hw₁) hs hw₂
    simpa only [List.append_assoc] using hlast
  | more hw₁ hs hw₂ hrest =>
    have hmore := ItemsText.more (happend hw₁) hs hw₂ hrest
    simpa only [List.append_assoc] using hmore

theorem items_of_readItems {turns : ℕ} {text rest : ByteText} {items : List ByteText}
    (h : readItems turns text = .ok (items, rest)) :
    ∃ body, text = body ++ byte ']' :: rest ∧ ItemsText Chars body items := by
  induction turns generalizing text items with
  | zero => cases h
  | succ turns ih =>
    rw [readItems] at h
    split at h
    · cases h
    · rename_i item rest₁ hstring
      obtain ⟨w, s, hw, hs, rfl⟩ := readString_skipSpace_iff.mp hstring
      split at h
      · -- The last item, or one that a comma follows.
        rename_i rest₂ hclose
        obtain ⟨rfl, rfl⟩ := Prod.mk.inj (Except.ok.inj h)
        obtain ⟨w', hw', rfl⟩ := (consume_skipSpace_iff (by decide)).mp hclose
        exact ⟨w ++ s ++ w', by simp, .last hw hs hw'⟩
      · split at h
        · cases h
        · rename_i rest₂ hcomma
          obtain ⟨w', hw', rfl⟩ := (consume_skipSpace_iff (by decide)).mp hcomma
          split at h
          · rename_i items' rest₃ hread
            obtain ⟨rfl, rfl⟩ := Prod.mk.inj (Except.ok.inj h)
            obtain ⟨body, rfl, hbody⟩ := ih hread
            exact ⟨w ++ s ++ w' ++ byte ',' :: body, by simp, .more hw hs hw' hbody⟩
          · cases h

theorem readItems_of_items {body : ByteText} {items : List ByteText}
    (h : ItemsText Chars body items) {turns : ℕ} (hturns : body.length ≤ turns)
    (rest : ByteText) : readItems turns (body ++ byte ']' :: rest) = .ok (items, rest) := by
  -- A string has at least its quote, so the turns suffice.
  have hpos : ∀ {s item : ByteText}, StringText Chars s item → 1 ≤ s.length := by
    rintro s item ⟨body, rfl, -⟩
    simp
  induction h generalizing turns with
  | last hw hs hw' =>
    rename_i w s w' item
    have hlength := hpos hs
    obtain ⟨turns, rfl⟩ : ∃ n, turns = n + 1 := ⟨turns - 1, by
      simp only [List.length_append] at hturns
      omega⟩
    have hstring : readString (skipSpace (w ++ s ++ w' ++ byte ']' :: rest)) =
        .ok (item, w' ++ byte ']' :: rest) :=
      readString_skipSpace_iff.mpr ⟨w, s, hw, hs, by simp⟩
    have hclose : consume ']' (skipSpace (w' ++ byte ']' :: rest)) = some rest :=
      (consume_skipSpace_iff (by decide)).mpr ⟨w', hw', rfl⟩
    rw [readItems, hstring]
    dsimp only
    rw [hclose]
  | more hw hs hw' hrest ih =>
    rename_i w s w' item text items
    have hlength := hpos hs
    simp only [List.length_append, List.length_cons] at hturns
    obtain ⟨turns, rfl⟩ : ∃ n, turns = n + 1 := ⟨turns - 1, by omega⟩
    have hread := @ih turns (by omega)
    have hstring : readString (skipSpace (w ++ s ++ w' ++ byte ',' :: text ++ byte ']' :: rest)) =
        .ok (item, w' ++ byte ',' :: (text ++ byte ']' :: rest)) :=
      readString_skipSpace_iff.mpr ⟨w, s, hw, hs, by simp⟩
    have hopen : consume ']' (skipSpace (w' ++ byte ',' :: (text ++ byte ']' :: rest))) = none :=
      consume_skipSpace_none (by decide) (by decide) hw'
    have hcomma : consume ',' (skipSpace (w' ++ byte ',' :: (text ++ byte ']' :: rest))) =
        some (text ++ byte ']' :: rest) :=
      (consume_skipSpace_iff (by decide)).mpr ⟨w', hw', rfl⟩
    rw [readItems, hstring]
    dsimp only
    rw [hopen]
    dsimp only
    rw [hcomma]
    dsimp only
    rw [hread]

/-- What ends an integer: no digit, and nothing that would make a fraction or an exponent. -/
def Stops (rest : ByteText) : Prop :=
  ∀ c ∈ rest.head?, isDigit c = false ∧ c ≠ byte '.' ∧ c ≠ byte 'e' ∧ c ≠ byte 'E'

theorem integer_of_readInteger {text rest : ByteText} {value : Value}
    (h : readInteger text = .ok (value, rest)) :
    ∃ s n, text = s ++ rest ∧ IntegerText s n ∧ value = .integer n := by
  unfold readInteger at h
  dsimp only at h
  split at h
  · cases h
  · rename_i hnot
    obtain ⟨rfl, rfl⟩ := Prod.mk.inj (Except.ok.inj h)
    obtain ⟨hnonempty, hshort, hzero, -⟩ := by simpa only [not_or] using hnot
    cases hminus : consume '-' text with
    | none =>
      rw [hminus] at hnonempty hshort hzero
      rw [Option.getD_none] at *
      refine ⟨text.takeWhile isDigit, _, List.takeWhile_append_dropWhile.symm, ?_, rfl⟩
      refine ⟨text.takeWhile isDigit, .inl ⟨rfl, rfl⟩, fun c hc => List.mem_takeWhile_imp hc,
        by omega, by omega, fun hmany hhead => hzero ⟨hmany, hhead⟩⟩
    | some digits =>
      have htext : text = byte '-' :: digits := by
        cases text with
        | nil => cases hminus
        | cons c text =>
          rw [consume] at hminus
          split at hminus
          · rename_i hc
            rw [hc, Option.some_inj.mp hminus]
          · cases hminus
      rw [hminus] at hnonempty hshort hzero
      rw [Option.getD_some] at *
      refine ⟨byte '-' :: digits.takeWhile isDigit, _, ?_, ?_, rfl⟩
      · rw [htext, List.cons_append, List.takeWhile_append_dropWhile]
      · refine ⟨digits.takeWhile isDigit, .inr ⟨rfl, rfl⟩, fun c hc => List.mem_takeWhile_imp hc,
          by omega, by omega, fun hmany hhead => hzero ⟨hmany, hhead⟩⟩

/-- The digits end where the integer does. -/
theorem digits_stop {digits rest : ByteText} (hdigits : ∀ c ∈ digits, isDigit c = true)
    (hstops : Stops rest) :
    (digits ++ rest).takeWhile isDigit = digits ∧ (digits ++ rest).dropWhile isDigit = rest := by
  rw [List.takeWhile_append_of_pos hdigits, List.dropWhile_append_of_pos hdigits]
  cases rest with
  | nil => exact ⟨List.append_nil _, rfl⟩
  | cons c rest =>
    have hc : isDigit c = false := (hstops c rfl).1
    rw [List.takeWhile_cons, List.dropWhile_cons, hc]
    exact ⟨List.append_nil _, rfl⟩

theorem readInteger_of_integer {s rest : ByteText} {n : ℤ} (h : IntegerText s n)
    (hstops : Stops rest) : readInteger (s ++ rest) = .ok (.integer n, rest) := by
  obtain ⟨digits, hsign, hdigits, hpos, hshort, hzero⟩ := h
  obtain ⟨htake, hdrop⟩ := digits_stop hdigits hstops
  -- What follows ends the number, so it is no float.
  have hfloat : ¬ (rest.head? = some (byte '.') ∨ rest.head? = some (byte 'e') ∨
      rest.head? = some (byte 'E')) := by
    rintro (hc | hc | hc)
    · exact (hstops _ hc).2.1 rfl
    · exact (hstops _ hc).2.2.1 rfl
    · exact (hstops _ hc).2.2.2 rfl
  have hplain : ¬ (digits.length = 0 ∨ 18 < digits.length ∨
      (1 < digits.length ∧ digits.head? = some (byte '0')) ∨ rest.head? = some (byte '.') ∨
      rest.head? = some (byte 'e') ∨ rest.head? = some (byte 'E')) := by
    rintro (hc | hc | ⟨hmany, hhead⟩ | hc)
    · omega
    · omega
    · exact hzero hmany hhead
    · exact hfloat hc
  unfold readInteger
  rcases hsign with ⟨rfl, rfl⟩ | ⟨rfl, rfl⟩
  · -- Without a sign the first digit is no minus.
    have hminus : consume '-' (s ++ rest) = none := by
      obtain ⟨c, s, rfl⟩ := List.exists_cons_of_length_pos hpos
      rw [List.cons_append, consume, if_neg]
      rintro rfl
      exact absurd (hdigits _ (List.mem_cons_self ..)) (by decide)
    rw [hminus, Option.getD_none]
    dsimp only
    rw [htake, hdrop, if_neg hplain]
    rfl
  · have hminus : consume '-' (byte '-' :: digits ++ rest) = some (digits ++ rest) := rfl
    rw [hminus, Option.getD_some]
    dsimp only
    rw [htake, hdrop, if_neg hplain]
    rfl

theorem value_of_readValue {text rest : ByteText} {value : Value}
    (h : readValue text = .ok (value, rest)) :
    ∃ s, text = s ++ rest ∧ ValueText Chars s value := by
  cases text with
  | nil => cases h
  | cons c text =>
    rw [readValue] at h
    split at h
    · split at h
      · rename_i s rest' hstring
        obtain ⟨rfl, rfl⟩ := Prod.mk.inj (Except.ok.inj h)
        obtain ⟨s', heq, hs'⟩ := readString_iff.mp hstring
        exact ⟨s', heq, .string hs'⟩
      · cases h
    split at h
    · rename_i hbracket
      rw [readStringArray] at h
      split at h
      · rename_i rest' hclose
        obtain ⟨rfl, rfl⟩ := Prod.mk.inj (Except.ok.inj h)
        obtain ⟨w, hw, rfl⟩ := (consume_skipSpace_iff (by decide)).mp hclose
        exact ⟨byte '[' :: (w ++ [byte ']']), by simp [hbracket], .empty hw⟩
      · split at h
        · rename_i items rest' hread
          obtain ⟨rfl, rfl⟩ := Prod.mk.inj (Except.ok.inj h)
          obtain ⟨body, heq, hbody⟩ := items_of_readItems hread
          -- the white space before the first item
          have htext : text = text.takeWhile isSpace ++ body ++ byte ']' :: rest' := by
            rw [List.append_assoc, ← heq, skipSpace, List.takeWhile_append_dropWhile]
          refine ⟨byte '[' :: (text.takeWhile isSpace ++ body ++ [byte ']']), ?_, .array ?_⟩
          · rw [hbracket, List.cons_append, List.append_assoc, List.singleton_append, ← htext]
          · exact hbody.space (space_takeWhile text)
        · cases h
    split at h
    · obtain ⟨s, n, heq, hs, rfl⟩ := integer_of_readInteger h
      exact ⟨s, heq, .integer hs⟩
    · cases h

/-- The first item without the white space before it. -/
theorem ItemsText.strip {S : ByteText → ByteText → Prop} {text : ByteText}
    {items : List ByteText} (h : ItemsText S text items) :
    ∃ w text', Space w ∧ text = w ++ byte '"' :: text' ∧ ItemsText S (byte '"' :: text') items := by
  have hnil : Space [] := nofun
  cases h with
  | last hw hs hw' =>
    have hlast := ItemsText.last hnil hs hw'
    obtain ⟨body, rfl, -⟩ := hs
    exact ⟨_, _, hw, List.append_assoc .., hlast⟩
  | more hw hs hw' hrest =>
    have hmore := ItemsText.more hnil hs hw' hrest
    obtain ⟨body, rfl, -⟩ := hs
    refine ⟨_, _, hw, ?_, hmore⟩
    rw [List.append_assoc, List.append_assoc, ← List.append_assoc _ _ (_ :: _)]
    rfl

theorem readStringArray_of_items {body rest : ByteText} {items : List ByteText}
    (h : ItemsText Chars body items) :
    readStringArray (body ++ byte ']' :: rest) = .ok (.strings items, rest) := by
  obtain ⟨w, text, hw, rfl, hitems⟩ := h.strip
  have hskip : skipSpace (w ++ byte '"' :: text ++ byte ']' :: rest) =
      byte '"' :: text ++ byte ']' :: rest := by
    rw [List.append_assoc, skipSpace_append hw]
    exact skipSpace_cons rfl _
  have hopen : consume ']' (byte '"' :: text ++ byte ']' :: rest) = none := rfl
  rw [readStringArray, hskip, hopen]
  dsimp only
  rw [readItems_of_items hitems]
  simp only [List.length_append, List.length_cons]
  omega

theorem readValue_of_value {s rest : ByteText} {value : Value} (h : ValueText Chars s value)
    (hstops : Stops rest) : readValue (s ++ rest) = .ok (value, rest) := by
  cases h with
  | string hs =>
    have hread : readString (s ++ rest) = .ok (_, rest) := readString_iff.mpr ⟨s, rfl, hs⟩
    obtain ⟨body, rfl, -⟩ := hs
    rw [List.cons_append] at hread ⊢
    rw [readValue, if_pos rfl, hread]
  | integer hint =>
    have hread := readInteger_of_integer hint hstops
    obtain ⟨digits, hsign, hdigits, hpos, -⟩ := hint
    obtain ⟨c, s', rfl, hc⟩ : ∃ c s', s = c :: s' ∧ (c = byte '-' ∨ isDigit c = true) := by
      rcases hsign with ⟨rfl, -⟩ | ⟨rfl, -⟩
      · obtain ⟨c, s', rfl⟩ := List.exists_cons_of_length_pos hpos
        exact ⟨c, s', rfl, .inr (hdigits c (List.mem_cons_self ..))⟩
      · exact ⟨_, _, rfl, .inl rfl⟩
    -- A number begins with its sign or a digit.
    have hnot : c ≠ byte '"' ∧ c ≠ byte '[' := by
      constructor
      · rintro rfl
        exact absurd hc (by decide)
      · rintro rfl
        exact absurd hc (by decide)
    rw [List.cons_append] at hread ⊢
    rw [readValue, if_neg hnot.1, if_neg hnot.2, if_pos hc, hread]
  | empty hw =>
    rename_i w
    have hclose : consume ']' (skipSpace (w ++ byte ']' :: rest)) = some rest :=
      (consume_skipSpace_iff (by decide)).mpr ⟨w, hw, rfl⟩
    rw [List.cons_append, List.append_assoc, List.singleton_append, readValue, if_neg (by decide),
      if_pos rfl, readStringArray, hclose]
  | array hitems =>
    rw [List.cons_append, List.append_assoc, List.singleton_append, readValue, if_neg (by decide),
      if_pos rfl, readStringArray_of_items hitems]

/-! ### Reading the object -/

/-- White space ends a number. -/
theorem space_stops {x : UInt8} (h : isSpace x = true) :
    isDigit x = false ∧ x ≠ byte '.' ∧ x ≠ byte 'e' ∧ x ≠ byte 'E' := by
  have hcases : x = byte ' ' ∨ x = byte '\t' ∨ x = byte '\r' ∨ x = byte '\n' := by
    simpa [isSpace, or_assoc] using h
  rcases hcases with rfl | rfl | rfl | rfl <;> decide

/-- What follows a value. -/
theorem stops_append {w rest : ByteText} {c : Char} (hw : Space w)
    (hc : isDigit (byte c) = false ∧ byte c ≠ byte '.' ∧ byte c ≠ byte 'e' ∧ byte c ≠ byte 'E') :
    Stops (w ++ byte c :: rest) := by
  cases w with
  | nil =>
    rintro d hd
    obtain rfl := Option.some_inj.mp hd
    exact hc
  | cons x w =>
    rintro d hd
    obtain rfl := Option.some_inj.mp hd
    exact space_stops (hw x (List.mem_cons_self ..))

theorem any_key_iff {members : Members} {key : ByteText} :
    (members.any fun m => m.1 = key) = true ↔ key ∈ members.map Prod.fst := by
  rw [List.any_eq_true, List.mem_map]
  simp only [decide_eq_true_eq]

theorem readValue_skipSpace {text rest : ByteText} {value : Value}
    (h : readValue (skipSpace text) = .ok (value, rest)) :
    ∃ w s, Space w ∧ ValueText Chars s value ∧ text = w ++ s ++ rest := by
  obtain ⟨s, heq, hs⟩ := value_of_readValue h
  refine ⟨text.takeWhile isSpace, s, space_takeWhile text, hs, ?_⟩
  rw [List.append_assoc, ← heq, skipSpace, List.takeWhile_append_dropWhile]

theorem ValueText.head {S : ByteText → ByteText → Prop} {s : ByteText} {value : Value}
    (h : ValueText S s value) : ∃ c s', s = c :: s' ∧ isSpace c = false := by
  cases h with
  | string hs =>
    obtain ⟨body, rfl, -⟩ := hs
    exact ⟨_, _, rfl, rfl⟩
  | integer hint =>
    obtain ⟨digits, ⟨rfl, -⟩ | ⟨rfl, -⟩, hdigits, hpos, -⟩ := hint
    · obtain ⟨c, s', rfl⟩ := List.exists_cons_of_length_pos hpos
      refine ⟨c, s', rfl, ?_⟩
      by_contra hspace
      have hdigit := hdigits c (List.mem_cons_self ..)
      rw [(space_stops (Bool.not_eq_false _ ▸ hspace)).1] at hdigit
      cases hdigit
    · exact ⟨_, _, rfl, rfl⟩
  | empty hw => exact ⟨_, _, rfl, rfl⟩
  | array hitems => exact ⟨_, _, rfl, rfl⟩

theorem members_of_readMembers {turns : ℕ} {members result : Members} {text rest : ByteText}
    (h : readMembers turns members text = .ok (result, rest)) :
    ∃ body ms, text = body ++ byte '}' :: rest ∧ MembersText Chars body ms ∧
      result = members ++ ms ∧
      ((members.map Prod.fst).Nodup → (result.map Prod.fst).Nodup) := by
  induction turns generalizing members text with
  | zero => cases h
  | succ turns ih =>
    rw [readMembers] at h
    split at h
    · cases h
    -- The key, new among the members read so far.
    rename_i key rest₁ hkey
    obtain ⟨w, k, hw, hk, rfl⟩ := readString_skipSpace_iff.mp hkey
    split at h
    · cases h
    rename_i hnew
    rw [any_key_iff] at hnew
    split at h
    · cases h
    -- Its colon and its value.
    rename_i rest₂ hcolon
    obtain ⟨w₁, hw₁, rfl⟩ := (consume_skipSpace_iff (by decide)).mp hcolon
    split at h
    · cases h
    rename_i value rest₃ hvalue
    obtain ⟨w₂, v, hw₂, hv, rfl⟩ := readValue_skipSpace hvalue
    have hnodup : (members.map Prod.fst).Nodup →
          ((members ++ [(key, value)]).map Prod.fst).Nodup := by
      intro hbefore
      rw [List.map_append, List.map_singleton]
      exact hbefore.append (List.nodup_singleton _) (List.disjoint_singleton.mpr hnew)
    split at h
    · -- The last member, or one that a comma follows.
      rename_i rest₄ hclose
      obtain ⟨w₃, hw₃, rfl⟩ := (consume_skipSpace_iff (by decide)).mp hclose
      obtain ⟨rfl, rfl⟩ := Prod.mk.inj (Except.ok.inj h)
      exact ⟨w ++ k ++ w₁ ++ byte ':' :: (w₂ ++ v ++ w₃), [(key, value)], by simp,
        .last (.mk hw hk hw₁ hw₂ hv hw₃), rfl, hnodup⟩
    · split at h
      · cases h
      · rename_i rest₄ hcomma
        obtain ⟨w₃, hw₃, rfl⟩ := (consume_skipSpace_iff (by decide)).mp hcomma
        obtain ⟨body, ms, rfl, hbody, rfl, hrest⟩ := ih h
        refine ⟨w ++ k ++ w₁ ++ byte ':' :: (w₂ ++ v ++ w₃) ++ byte ',' :: body, (key, value) :: ms,
          by simp, .more (.mk hw hk hw₁ hw₂ hv hw₃) hbody, by simp,
          fun hbefore => hrest (hnodup hbefore)⟩

/-- **One member** is read, up to the delimiter after it. -/
theorem readMember_of_member {text : ByteText} {m : ByteText × Value}
    (h : MemberText Chars text m) (c : Char) (rest : ByteText)
    (hstop : isDigit (byte c) = false ∧ byte c ≠ byte '.' ∧ byte c ≠ byte 'e' ∧ byte c ≠ byte 'E') :
    ∃ rest₁ rest₂ w, readString (skipSpace (text ++ byte c :: rest)) = .ok (m.1, rest₁) ∧
      consume ':' (skipSpace rest₁) = some rest₂ ∧
      readValue (skipSpace rest₂) = .ok (m.2, w ++ byte c :: rest) ∧ Space w ∧ 1 ≤ text.length := by
  cases h with
  | mk hw hk hw₁ hw₂ hv hw₃ =>
    rename_i w k w₁ w₂ v w₃ key value
    refine ⟨w₁ ++ byte ':' :: (w₂ ++ v ++ w₃ ++ byte c :: rest),
      w₂ ++ v ++ w₃ ++ byte c :: rest, w₃,
      readString_skipSpace_iff.mpr ⟨w, k, hw, hk, by simp⟩,
      (consume_skipSpace_iff (by decide)).mpr ⟨w₁, hw₁, rfl⟩, ?_, hw₃, ?_⟩
    · have hskip : skipSpace (w₂ ++ v ++ w₃ ++ byte c :: rest) = v ++ (w₃ ++ byte c :: rest) := by
        obtain ⟨d, v', rfl, hd⟩ := hv.head
        rw [List.append_assoc, List.append_assoc, skipSpace_append hw₂]
        exact skipSpace_cons hd _
      rw [hskip]
      exact readValue_of_value hv (stops_append hw₃ hstop)
    · simp only [List.length_append, List.length_cons]
      omega

theorem readMembers_of_members {body : ByteText} {ms : Members} (h : MembersText Chars body ms)
    {turns : ℕ} (hturns : body.length ≤ turns) (members : Members)
    (hnodup : ((members ++ ms).map Prod.fst).Nodup) (rest : ByteText) :
    readMembers turns members (body ++ byte '}' :: rest) = .ok (members ++ ms, rest) := by
  -- No key is read twice, so the check for duplicates passes.
  have hfresh : ∀ {members : Members} {m : ByteText × Value} {ms : Members},
      ((members ++ m :: ms).map Prod.fst).Nodup → ¬ (members.any fun x => x.1 = m.1) = true := by
    intro members m ms hnodup hany
    rw [List.map_append] at hnodup
    exact List.disjoint_of_nodup_append hnodup (any_key_iff.mp hany) (by simp)
  induction h generalizing turns members with
  | last hmember =>
    obtain ⟨rest₁, rest₂, w, hkey, hcolon, hvalue, hw, hlength⟩ :=
      readMember_of_member hmember '}' rest (by decide)
    obtain ⟨turns, rfl⟩ : ∃ n, turns = n + 1 := ⟨turns - 1, by omega⟩
    have hclose : consume '}' (skipSpace (w ++ byte '}' :: rest)) = some rest :=
      (consume_skipSpace_iff (by decide)).mpr ⟨w, hw, rfl⟩
    rw [readMembers, hkey]
    dsimp only
    rw [if_neg (hfresh hnodup), hcolon]
    dsimp only
    rw [hvalue]
    dsimp only
    rw [hclose]
  | more hmember hrest ih =>
    -- A comma stands behind the member, so the object is not closed there.
    rename_i text text' m ms
    rw [List.append_assoc, List.cons_append]
    obtain ⟨rest₁, rest₂, w, hkey, hcolon, hvalue, hw, hlength⟩ :=
      readMember_of_member hmember ',' (text' ++ byte '}' :: rest) (by decide)
    simp only [List.length_append, List.length_cons] at hturns
    obtain ⟨turns, rfl⟩ : ∃ n, turns = n + 1 := ⟨turns - 1, by omega⟩
    have hopen : consume '}' (skipSpace (w ++ byte ',' :: (text' ++ byte '}' :: rest))) = none :=
      consume_skipSpace_none (by decide) (by decide) hw
    have hcomma : consume ',' (skipSpace (w ++ byte ',' :: (text' ++ byte '}' :: rest))) =
        some (text' ++ byte '}' :: rest) :=
      (consume_skipSpace_iff (by decide)).mpr ⟨w, hw, rfl⟩
    have hread := @ih turns (by omega) (members ++ [m]) (by simpa using hnodup)
    rw [readMembers, hkey]
    dsimp only
    rw [if_neg (hfresh hnodup), hcolon]
    dsimp only
    rw [hvalue]
    dsimp only
    rw [hopen]
    dsimp only
    rw [hcomma]
    dsimp only
    rw [hread]
    simp

theorem skipSpace_eq_nil {text : ByteText} : skipSpace text = [] ↔ Space text := by
  rw [skipSpace, List.dropWhile_eq_nil_iff]
  rfl

theorem MembersText.head {S : ByteText → ByteText → Prop} {body : ByteText} {ms : Members}
    (h : MembersText S body ms) : ∃ w text, Space w ∧ body = w ++ byte '"' :: text := by
  have hmember : ∀ {text : ByteText} {m : ByteText × Value}, MemberText S text m →
      ∃ w text', Space w ∧ text = w ++ byte '"' :: text' := by
    rintro text m ⟨hw, ⟨body, rfl, -⟩, -⟩
    exact ⟨_, _, hw, by simp only [List.append_assoc, List.cons_append]; rfl⟩
  cases h with
  | last h => exact hmember h
  | more h hrest =>
    obtain ⟨w, text', hw, rfl⟩ := hmember h
    exact ⟨w, _, hw, List.append_assoc ..⟩

/-- **The reader accepts the flat objects of the grammar, and no other texts.** -/
theorem parseObject_iff {text : ByteText} {members : Members} :
    parseObject text = .ok members ↔ FlatObject Chars text members := by
  constructor
  · intro h
    rw [parseObject] at h
    split at h
    · cases h
    rename_i rest hbrace
    obtain ⟨w, hw, rfl⟩ := (consume_skipSpace_iff (by decide)).mp hbrace
    dsimp only at h
    split at h
    · cases h
    rename_i members' rest' hread
    split at h
    · rename_i htrailing
      obtain rfl := Except.ok.inj h
      have hend : Space rest' := skipSpace_eq_nil.mp htrailing
      -- An empty object, or members up to its brace.
      split at hread
      · rename_i rest'' hclose
        obtain ⟨w', hw', rfl⟩ := (consume_skipSpace_iff (by decide)).mp hclose
        obtain ⟨rfl, rfl⟩ := Prod.mk.inj (Except.ok.inj hread)
        exact ⟨w, w', _, rfl, hw, hend, .inl ⟨hw', rfl⟩, List.nodup_nil⟩
      · obtain ⟨body, ms, rfl, hbody, rfl, hnodup⟩ := members_of_readMembers hread
        exact ⟨w, body, _, rfl, hw, hend, .inr hbody, hnodup List.nodup_nil⟩
    · cases h
  · rintro ⟨w, body, w', rfl, hw, hw', hbody, hnodup⟩
    have hbrace : consume '{' (skipSpace (w ++ byte '{' :: (body ++ byte '}' :: w'))) =
        some (body ++ byte '}' :: w') := (consume_skipSpace_iff (by decide)).mpr ⟨w, hw, rfl⟩
    rw [parseObject, hbrace]
    dsimp only
    rcases hbody with ⟨hspace, rfl⟩ | hmembers
    · have hclose : consume '}' (skipSpace (body ++ byte '}' :: w')) = some w' :=
        (consume_skipSpace_iff (by decide)).mpr ⟨body, hspace, rfl⟩
      rw [hclose]
      exact if_pos (skipSpace_eq_nil.mpr hw')
    · -- Members begin with a quote, so the object is not empty.
      have hopen : consume '}' (skipSpace (body ++ byte '}' :: w')) = none := by
        obtain ⟨x, text, hx, rfl⟩ := hmembers.head
        rw [List.append_assoc, List.cons_append]
        exact consume_skipSpace_none (d := '"') (by decide) (by decide) hx
      rw [hopen]
      dsimp only
      have hread : readMembers (body ++ byte '}' :: w').length [] (body ++ byte '}' :: w') =
          .ok ([] ++ members, w') := by
        refine readMembers_of_members hmembers ?_ [] hnodup w'
        rw [List.length_append]
        exact Nat.le_add_right ..
      rw [hread]
      exact if_pos (skipSpace_eq_nil.mpr hw')

end Calibration.Json
