/-
Byte strings.

A `std::string` is a sequence of bytes, with no promise that it is valid UTF-8.

* `ByteText.decimal_injective` — distinct numbers have distinct decimal texts;
* `ByteText.digitsValue_decimal` — and the text gives the number back.
-/
import Mathlib

abbrev ByteText := List UInt8

namespace ByteText

instance : LawfulBEq ByteText := inferInstanceAs (LawfulBEq (List UInt8))

/-- The bytes of a literal. -/
def lit (s : String) : ByteText := s.toUTF8.data.toList

@[simp] theorem lit_inj {s t : String} : lit s = lit t ↔ s = t := by
  constructor
  · intro h
    exact String.toByteArray_inj.mp (ByteArray.ext (Array.ext' h))
  · rintro rfl
    rfl

/-- The byte of an ASCII character. -/
abbrev byte (c : Char) : UInt8 := c.toUInt8

/-- A fact about all bytes. -/
theorem forall_byte {P : UInt8 → Prop} (h : ∀ n < 256, P (UInt8.ofNat n)) (b : UInt8) : P b := by
  rw [← @UInt8.ofNat_toNat b]
  exact h b.toNat b.toNat_lt

def isDigit (c : UInt8) : Bool := byte '0' ≤ c && c ≤ byte '9'

/-- The value of decimal digits. -/
def digitsValue (digits : ByteText) : ℕ :=
  digits.foldl (fun parsed d => parsed * 10 + (d - byte '0').toNat) 0

/-- `std::to_string` of an unsigned number. -/
def decimal (n : ℕ) : ByteText := (Nat.toDigits 10 n).map fun c => UInt8.ofNat c.toNat

/-- `std::to_string` of a signed number. -/
def signed : ℤ → ByteText
  | .ofNat n => decimal n
  | .negSucc n => lit "-" ++ decimal (n + 1)

theorem digit_of_byte {c : Char} (h : c.isDigit = true) :
    Char.ofNat (UInt8.ofNat c.toNat).toNat = c := by
  have hlt : c.toNat < 256 := by
    simp only [Char.isDigit, Bool.and_eq_true, decide_eq_true_eq] at h
    have hle : c.val.toNat ≤ '9'.val.toNat := UInt32.le_iff_toNat_le.mp h.2
    exact Nat.lt_of_le_of_lt hle (by decide)
  rw [UInt8.toNat_ofNat', Nat.mod_eq_of_lt hlt]
  exact Char.ofNat_toNat c

/-- **Distinct numbers have distinct decimal texts.** -/
theorem decimal_injective {m n : ℕ} (h : decimal m = decimal n) : m = n := by
  have hback : ∀ k, (decimal k).map (fun b => Char.ofNat b.toNat) = Nat.toDigits 10 k := by
    intro k
    rw [decimal, List.map_map]
    conv_rhs => rw [← List.map_id (Nat.toDigits 10 k)]
    refine List.map_congr_left fun c hc => ?_
    exact digit_of_byte (Nat.isDigit_of_mem_toDigits (by decide) (by decide) hc)
  have hdigits : Nat.toDigits 10 m = Nat.toDigits 10 n := by
    rw [← hback m, ← hback n, h]
  rw [← Nat.ofDigitChars_ten_toDigits (n := m), hdigits, Nat.ofDigitChars_ten_toDigits]

theorem decimal_ne_nil (n : ℕ) : decimal n ≠ [] := by
  simp [decimal]

theorem decimal_length_le_iff {n k : ℕ} (h : 0 < k) : (decimal n).length ≤ k ↔ n < 10 ^ k := by
  rw [decimal, List.length_map]
  exact Nat.length_toDigits_le_iff (by decide) h

theorem decimal_digit {n : ℕ} (h : n < 10) : decimal n = [UInt8.ofNat (n + 48)] := by
  have hdigit : ∀ d < 10, UInt8.ofNat (Nat.digitChar d).toNat = UInt8.ofNat (d + 48) := by decide
  rw [decimal, Nat.toDigits_of_lt_base h, List.map_singleton, hdigit n h]

theorem decimal_step {n d : ℕ} (hn : 0 < n) (hd : d < 10) :
    decimal (10 * n + d) = decimal n ++ [UInt8.ofNat (d + 48)] := by
  rw [← decimal_digit hd, decimal, decimal, decimal, ← List.map_append,
    Nat.toDigits_append_toDigits (by decide) hn hd]

theorem digit_facts : ∀ d < 10, isDigit (UInt8.ofNat (d + 48)) = true ∧
    (UInt8.ofNat (d + 48) - byte '0').toNat = d := by
  decide

theorem decimal_isDigit (n : ℕ) : ∀ c ∈ decimal n, isDigit c = true := by
  induction n using Nat.base_induction 10 (by decide) with
  | single n hn =>
    rw [decimal_digit hn]
    simpa using (digit_facts n hn).1
  | digit n d hd hn ih =>
    rw [decimal_step hn hd]
    intro c hc
    rcases List.mem_append.mp hc with hc | hc
    · exact ih c hc
    · rw [List.mem_singleton.mp hc]
      exact (digit_facts d hd).1

/-- **The decimal text gives the number back.** -/
theorem digitsValue_decimal (n : ℕ) : digitsValue (decimal n) = n := by
  induction n using Nat.base_induction 10 (by decide) with
  | single n hn =>
    rw [decimal_digit hn]
    simpa [digitsValue] using (digit_facts n hn).2
  | digit n d hd hn ih =>
    rw [decimal_step hn hd, digitsValue, List.foldl_append]
    rw [digitsValue] at ih
    rw [ih, List.foldl_cons, List.foldl_nil, (digit_facts d hd).2]
    omega

/-- A decimal text of more than one digit does not begin with a zero. -/
theorem decimal_head {n : ℕ} (h : 1 < (decimal n).length) :
    (decimal n).head? ≠ some (byte '0') := by
  have hhead : 0 < n → (decimal n).head? ≠ some (byte '0') := by
    intro hpos
    clear h
    induction n using Nat.base_induction 10 (by decide) with
    | single n hn =>
      have hzero : ∀ d < 10, 0 < d → UInt8.ofNat (d + 48) ≠ byte '0' := by decide
      rw [decimal_digit hn]
      simpa using hzero n hn hpos
    | digit n d hd hn ih =>
      rw [decimal_step hn hd, List.head?_append_of_ne_nil _ (decimal_ne_nil n)]
      exact ih hn
  refine hhead ?_
  rcases Nat.eq_zero_or_pos n with rfl | hpos
  · rw [decimal_digit (by decide)] at h
    simp at h
  · exact hpos

end ByteText
