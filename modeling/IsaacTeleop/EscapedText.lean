/-
Bytes read as text.

The operating system's strings are bytes.  Python decodes them as UTF-8 and keeps each byte that is
no part of a character as a lone surrogate, so that nothing is lost; ASCII bytes are characters of
their own wherever they stand.

* `fsdecode` — `os.fsdecode`, with the error handler `surrogateescape`;
* `fsdecode_append_ascii` — a text is decoded in two parts around an ASCII byte;
* `fsdecode_trim` — ASCII characters are trimmed alike before and after the decoding;
* `trim_trim` — trimming less first changes nothing.
-/
import IsaacTeleop.Utf8
import IsaacTeleop.PythonStrings

namespace EscapedText

/-! ### Trimming -/

section Trim

variable {α : Type} {p q : α → Bool}

/-- A list without what satisfies `p` at its two ends. -/
def trim (p : α → Bool) (l : List α) : List α := (l.dropWhile p).rdropWhile p

/-- What is left of a list whose ends satisfy `p`. -/
theorem trim_append {a m b : List α} (ha : ∀ x ∈ a, p x = true) (hb : ∀ x ∈ b, p x = true)
    (hhead : ∀ x ∈ m.head?, p x = false) (hlast : ∀ x ∈ m.getLast?, p x = false) :
    trim p (a ++ m ++ b) = m := by
  -- The front goes first; without a middle it takes the back along.
  have hdrop : (a ++ m ++ b).dropWhile p = if m = [] then [] else m ++ b := by
    rw [List.append_assoc, List.dropWhile_append_of_pos ha]
    cases m with
    | nil => simpa using List.dropWhile_eq_nil_iff.mpr hb
    | cons x m =>
      have hx := hhead x (by simp)
      simp [hx]
  rw [trim, hdrop]
  split
  · rename_i hm
    rw [hm, List.rdropWhile_nil]
  · rename_i hm
    have hrev : ∀ x ∈ b.reverse, p x = true := fun x hx => hb x (List.mem_reverse.mp hx)
    -- The back goes up to the last character of the middle.
    have hstop : m.reverse.dropWhile p = m.reverse := by
      have hne : m.reverse ≠ [] := by simpa using hm
      obtain ⟨x, rest, hx⟩ := List.exists_cons_of_ne_nil hne
      have hxlast : x ∈ m.getLast? := by
        rw [← List.head?_reverse, hx]
        rfl
      rw [hx, List.dropWhile_cons_of_neg (by simp [hlast x hxlast])]
    rw [List.rdropWhile, List.reverse_append, List.dropWhile_append_of_pos hrev, hstop,
      List.reverse_reverse]

/-- The two ends that are trimmed. -/
theorem trim_split (p : α → Bool) (l : List α) :
    ∃ a b, l = a ++ trim p l ++ b ∧ (∀ x ∈ a, p x = true) ∧ (∀ x ∈ b, p x = true) ∧
      (∀ x ∈ (trim p l).head?, p x = false) ∧ ∀ x ∈ (trim p l).getLast?, p x = false := by
  refine ⟨l.takeWhile p, (l.dropWhile p).rtakeWhile p, ?_, fun x hx => List.mem_takeWhile_imp hx,
    fun x hx => List.mem_rtakeWhile_imp hx, ?_, ?_⟩
  · rw [trim, List.append_assoc, List.rdropWhile_append_rtakeWhile, List.takeWhile_append_dropWhile]
  · intro x hx
    -- Trimming the back leaves the front alone.
    obtain ⟨rest, hrest⟩ := List.rdropWhile_prefix p (l.dropWhile p)
    have hhead : x ∈ (l.dropWhile p).head? := by
      rw [← hrest]
      rw [trim] at hx
      rw [List.head?_append, Option.mem_def.mp hx]
      rfl
    have hne : l.dropWhile p ≠ [] := by
      intro hnil
      simp [hnil] at hhead
    have hnot := List.head_dropWhile_not p hne
    rwa [List.head_of_mem_head? hhead] at hnot
  · intro x hx
    have hne : (l.dropWhile p).rdropWhile p ≠ [] := by
      intro hnil
      simp [trim, hnil] at hx
    have hnot := List.rdropWhile_last_not p _ hne
    obtain rfl : ((l.dropWhile p).rdropWhile p).getLast hne = x := List.getLast_of_mem_getLast? hx
    exact Bool.eq_false_iff.mpr hnot

/-- Trimming less first changes nothing. -/
theorem trim_trim (h : ∀ x, p x = true → q x = true) (l : List α) :
    trim q (trim p l) = trim q l := by
  obtain ⟨a, b, hsplit, ha, hb, -, -⟩ := trim_split p l
  obtain ⟨a', b', hsplit', ha', hb', hhead, hlast⟩ := trim_split q (trim p l)
  have hl : l = (a ++ a') ++ trim q (trim p l) ++ (b' ++ b) := by
    conv_lhs => rw [hsplit, hsplit']
    simp [List.append_assoc]
  conv_rhs => rw [hl]
  refine (trim_append ?_ ?_ hhead hlast).symm
  · intro x hx
    rcases List.mem_append.mp hx with hmem | hmem
    · exact h x (ha x hmem)
    · exact ha' x hmem
  · intro x hx
    rcases List.mem_append.mp hx with hmem | hmem
    · exact hb' x hmem
    · exact h x (hb x hmem)

end Trim

/-! ### Decoding -/

/-- `os.fsdecode`, in at most the given number of characters. -/
def decodeFrom : ℕ → ByteText → PyStr
  | _, [] => []
  | 0, _ :: _ => []
  | turns + 1, b :: bytes =>
    match Utf8.decodeOne (b :: bytes) with
    | some (code, rest) => code :: decodeFrom turns rest
    | none => (0xDC00 + b.toNat) :: decodeFrom turns bytes

/-- The characters of a text, a byte that belongs to none as a lone surrogate. -/
def fsdecode (bytes : ByteText) : PyStr := decodeFrom bytes.length bytes

theorem decodeOne_rest_lt {bytes rest : ByteText} {code : ℕ}
    (h : Utf8.decodeOne bytes = some (code, rest)) : rest.length < bytes.length := by
  obtain ⟨-, heq⟩ := Utf8.encode_of_decodeOne h
  have hpos := List.length_pos_of_ne_nil (Utf8.encode_ne_nil (Char.ofNat code))
  rw [heq, List.length_append]
  omega

/-- Enough turns give the whole text. -/
theorem decodeFrom_eq {turns : ℕ} {bytes : ByteText} (h : bytes.length ≤ turns) :
    decodeFrom turns bytes = fsdecode bytes := by
  rw [fsdecode]
  induction turns using Nat.strongRecOn generalizing bytes with
  | _ turns ih =>
    cases bytes with
    | nil => cases turns <;> rfl
    | cons b bytes =>
      obtain ⟨turns, rfl⟩ : ∃ n, turns = n + 1 := ⟨turns - 1, by simp at h; omega⟩
      rw [List.length_cons] at h
      rw [List.length_cons, decodeFrom, decodeFrom]
      cases hone : Utf8.decodeOne (b :: bytes) with
      | none => rw [ih turns (by omega) (by omega)]
      | some next =>
        obtain ⟨code, rest⟩ := next
        have hlt := decodeOne_rest_lt hone
        rw [List.length_cons] at hlt
        dsimp only
        rw [ih turns (by omega) (by omega)]
        rcases Nat.lt_or_ge bytes.length (turns + 1) with hlt' | hge
        · rw [ih bytes.length hlt' (by omega)]
        · omega

theorem fsdecode_cons (b : UInt8) (bytes : ByteText) :
    fsdecode (b :: bytes) = match Utf8.decodeOne (b :: bytes) with
      | some (code, rest) => code :: fsdecode rest
      | none => (0xDC00 + b.toNat) :: fsdecode bytes := by
  rw [fsdecode, List.length_cons, decodeFrom]
  cases hone : Utf8.decodeOne (b :: bytes) with
  | none => rfl
  | some next =>
    obtain ⟨code, rest⟩ := next
    have hlt := decodeOne_rest_lt hone
    rw [List.length_cons] at hlt
    dsimp only
    rw [decodeFrom_eq (by omega)]

/-! ### ASCII -/

theorem fsdecode_ascii_cons {b : UInt8} (hb : b.toNat < 0x80) (bytes : ByteText) :
    fsdecode (b :: bytes) = b.toNat :: fsdecode bytes := by
  rw [fsdecode_cons, Utf8.decodeOne, if_pos hb]

/-- A character of several bytes is not ASCII. -/
theorem decodeOne_ge {b : UInt8} {bytes rest : ByteText} {code : ℕ} (hb : 0x80 ≤ b.toNat)
    (h : Utf8.decodeOne (b :: bytes) = some (code, rest)) : 0x80 ≤ code := by
  rw [Utf8.decodeOne, if_neg (by omega)] at h
  split at h
  · cases h
  split at h
  · exact (Utf8.sequence_eq_some h).2.1
  split at h
  · exact le_trans (by norm_num) (Utf8.sequence_eq_some h).2.1
  split at h
  · exact le_trans (by norm_num) (Utf8.sequence_eq_some h).2.1
  · cases h

/-- One character of a byte that is not ASCII, and the bytes after it. -/
theorem fsdecode_cons_of_ge {b : UInt8} (hb : 0x80 ≤ b.toNat) (bytes : ByteText) :
    ∃ code rest, 0x80 ≤ code ∧ rest <:+ bytes ∧ fsdecode (b :: bytes) = code :: fsdecode rest := by
  rw [fsdecode_cons]
  cases hone : Utf8.decodeOne (b :: bytes) with
  | none => exact ⟨_, bytes, by omega, List.suffix_refl _, rfl⟩
  | some next =>
    obtain ⟨code, rest⟩ := next
    refine ⟨code, rest, decodeOne_ge hb hone, ?_, rfl⟩
    obtain ⟨-, heq⟩ := Utf8.encode_of_decodeOne hone
    obtain ⟨b', enc, henc⟩ := List.exists_cons_of_ne_nil (Utf8.encode_ne_nil (Char.ofNat code))
    rw [henc, List.cons_append] at heq
    exact ⟨enc, (List.cons.inj heq).2.symm⟩

theorem tails_append {b : UInt8} (hb : b.toNat < 0x80) (rest : ByteText) (n code : ℕ)
    (bytes : ByteText) :
    Utf8.tails n code (bytes ++ b :: rest) =
      (Utf8.tails n code bytes).map fun next => (next.1, next.2 ++ b :: rest) := by
  induction n generalizing code bytes with
  | zero => rfl
  | succ n ih =>
    cases bytes with
    | nil =>
      show (if 0x80 ≤ b.toNat ∧ b.toNat < 0xC0 then _ else none) = none
      rw [if_neg (by omega)]
    | cons c bytes =>
      rw [List.cons_append, Utf8.tails, Utf8.tails]
      split
      · exact ih _ bytes
      · rfl

theorem sequence_append {b : UInt8} (hb : b.toNat < 0x80) (rest : ByteText) (n code least : ℕ)
    (bytes : ByteText) :
    Utf8.sequence n code least (bytes ++ b :: rest) =
      (Utf8.sequence n code least bytes).map fun next => (next.1, next.2 ++ b :: rest) := by
  rw [Utf8.sequence, Utf8.sequence, tails_append hb]
  cases Utf8.tails n code bytes with
  | none => rfl
  | some next =>
    dsimp only [Option.map_some]
    split <;> rfl

/-- An ASCII byte ends whatever character stands before it. -/
theorem decodeOne_append {b : UInt8} (hb : b.toNat < 0x80) (rest : ByteText) (c : UInt8)
    (bytes : ByteText) :
    Utf8.decodeOne (c :: bytes ++ b :: rest) =
      (Utf8.decodeOne (c :: bytes)).map fun next => (next.1, next.2 ++ b :: rest) := by
  rw [List.cons_append, Utf8.decodeOne, Utf8.decodeOne]
  simp only [sequence_append hb]
  split
  · rfl
  split
  · rfl
  split
  · rfl
  split
  · rfl
  split <;> rfl

/-- **A text is decoded in two parts around an ASCII byte.** -/
theorem fsdecode_append_ascii {b : UInt8} (hb : b.toNat < 0x80) (bytes rest : ByteText) :
    fsdecode (bytes ++ b :: rest) = fsdecode bytes ++ b.toNat :: fsdecode rest := by
  induction hn : bytes.length using Nat.strongRecOn generalizing bytes with
  | _ n ih =>
    cases bytes with
    | nil => exact fsdecode_ascii_cons hb rest
    | cons c bytes =>
      rw [List.length_cons] at hn
      rw [fsdecode_cons c bytes]
      rw [List.cons_append, fsdecode_cons, ← List.cons_append, decodeOne_append hb]
      cases hone : Utf8.decodeOne (c :: bytes) with
      | none =>
        dsimp only [Option.map_none]
        rw [ih bytes.length (by omega) bytes rfl, List.cons_append]
      | some next =>
        obtain ⟨code, rest'⟩ := next
        have hlt := decodeOne_rest_lt hone
        rw [List.length_cons] at hlt
        dsimp only [Option.map_some]
        rw [ih rest'.length (by omega) rest' rfl, List.cons_append]

/-- A text of ASCII characters is the bytes themselves. -/
theorem map_toNat_of_ascii {bytes : ByteText} (h : ∀ c ∈ fsdecode bytes, c < 0x80) :
    bytes.map UInt8.toNat = fsdecode bytes := by
  induction bytes with
  | nil => rfl
  | cons b bytes ih =>
    rcases Nat.lt_or_ge b.toNat 0x80 with hb | hb
    · rw [fsdecode_ascii_cons hb] at h ⊢
      rw [List.map_cons, ih fun c hc => h c (List.mem_cons_of_mem _ hc)]
    · obtain ⟨code, rest, hcode, -, heq⟩ := fsdecode_cons_of_ge hb bytes
      rw [heq] at h
      exact absurd (h code List.mem_cons_self) (by omega)

/-- A byte outside ASCII leaves a character outside ASCII. -/
theorem exists_ge_of_byte {bytes : ByteText} (h : ∃ b ∈ bytes, 0x80 ≤ b.toNat) :
    ∃ c ∈ fsdecode bytes, 0x80 ≤ c := by
  by_contra hnone
  push Not at hnone
  obtain ⟨b, hb, hge⟩ := h
  have hmap := map_toNat_of_ascii hnone
  have hmem : b.toNat ∈ fsdecode bytes := hmap ▸ List.mem_map_of_mem hb
  exact absurd (hnone _ hmem) (by omega)

theorem fsdecode_eq_nil {bytes : ByteText} (h : fsdecode bytes = []) : bytes = [] := by
  have hmap : bytes.map UInt8.toNat = fsdecode bytes := map_toNat_of_ascii (by simp [h])
  rw [h] at hmap
  exact List.map_eq_nil_iff.mp hmap

/-- The last character of a text that ends outside ASCII. -/
theorem last_ge {bytes : ByteText} {b : UInt8} (hb : 0x80 ≤ b.toNat) :
    ∀ c ∈ (fsdecode (bytes ++ [b])).getLast?, 0x80 ≤ c := by
  induction hn : bytes.length using Nat.strongRecOn generalizing bytes with
  | _ n ih =>
    cases bytes with
    | nil =>
      obtain ⟨code, rest, hcode, hsuffix, heq⟩ := fsdecode_cons_of_ge hb []
      rw [List.suffix_nil.mp hsuffix] at heq
      rw [List.nil_append, heq]
      intro c hc
      cases hc
      exact hcode
    | cons a bytes =>
      rw [List.length_cons] at hn
      -- The character at the front, and a shorter text with the same end.
      have hstep : ∃ code rest, rest <:+ bytes ++ [b] ∧
          fsdecode (a :: bytes ++ [b]) = code :: fsdecode rest ∧ (rest = [] → 0x80 ≤ code) := by
        rcases Nat.lt_or_ge a.toNat 0x80 with ha | ha
        · exact ⟨a.toNat, bytes ++ [b], List.suffix_refl _, fsdecode_ascii_cons ha _, by simp⟩
        · obtain ⟨code, rest, hcode, hsuffix, heq⟩ := fsdecode_cons_of_ge ha (bytes ++ [b])
          exact ⟨code, rest, hsuffix, heq, fun _ => hcode⟩
      obtain ⟨code, rest, hsuffix, heq, hend⟩ := hstep
      rw [heq]
      rcases List.eq_nil_or_concat' rest with rfl | ⟨bytes', b', rfl⟩
      · intro c hc
        cases hc
        exact hend rfl
      · obtain ⟨front, hfront⟩ := hsuffix
        rw [← List.append_assoc] at hfront
        obtain ⟨hbytes, hlast⟩ := List.append_inj' hfront rfl
        cases hlast
        have hlen := congrArg List.length hbytes
        rw [List.length_append] at hlen
        have hne : fsdecode (bytes' ++ [b]) ≠ [] := fun hnil => by
          simpa using fsdecode_eq_nil hnil
        rw [List.getLast?_cons_of_ne_nil hne]
        exact ih bytes'.length (by omega) rfl

theorem fsdecode_of_ascii {bytes : ByteText} (h : ∀ b ∈ bytes, b.toNat < 0x80) :
    fsdecode bytes = bytes.map UInt8.toNat := by
  induction bytes with
  | nil => rfl
  | cons b bytes ih =>
    rw [fsdecode_ascii_cons (h b List.mem_cons_self), List.map_cons,
      ih fun c hc => h c (List.mem_cons_of_mem _ hc)]

theorem fsdecode_between {a m b : ByteText} (ha : ∀ x ∈ a, x.toNat < 0x80)
    (hb : ∀ x ∈ b, x.toNat < 0x80) :
    fsdecode (a ++ m ++ b) = a.map UInt8.toNat ++ fsdecode m ++ b.map UInt8.toNat := by
  induction a with
  | nil =>
    cases b with
    | nil => simp
    | cons c b =>
      rw [List.nil_append, fsdecode_append_ascii (hb c List.mem_cons_self),
        fsdecode_of_ascii fun x hx => hb x (List.mem_cons_of_mem _ hx)]
      simp
  | cons c a ih =>
    rw [List.cons_append, List.cons_append, fsdecode_ascii_cons (ha c List.mem_cons_self),
      ih fun x hx => ha x (List.mem_cons_of_mem _ hx)]
    simp

/-- **ASCII characters are trimmed alike before and after the decoding.** -/
theorem fsdecode_trim {p : ℕ → Bool} (hp : ∀ c, p c = true → c < 0x80) (bytes : ByteText) :
    fsdecode (trim (fun b => p b.toNat) bytes) = trim p (fsdecode bytes) := by
  obtain ⟨a, b, hsplit, ha, hb, hhead, hlast⟩ := trim_split (fun b : UInt8 => p b.toNat) bytes
  -- The predicate knows ASCII characters only, so a byte that is not ASCII stops the trimming on
  -- both sides.
  have hge : ∀ c, 0x80 ≤ c → p c = false := by
    intro c hc
    by_contra hne
    exact absurd (hp c (by simpa using hne)) (by omega)
  generalize trim (fun b : UInt8 => p b.toNat) bytes = m at hsplit hhead hlast
  rw [hsplit, fsdecode_between (fun x hx => hp _ (ha x hx)) fun x hx => hp _ (hb x hx)]
  refine (trim_append ?_ ?_ ?_ ?_).symm
  · intro x hx
    obtain ⟨y, hy, rfl⟩ := List.mem_map.mp hx
    exact ha y hy
  · intro x hx
    obtain ⟨y, hy, rfl⟩ := List.mem_map.mp hx
    exact hb y hy
  · -- The first character that is left.
    cases m with
    | nil => simp [fsdecode, decodeFrom]
    | cons c m =>
      rcases Nat.lt_or_ge c.toNat 0x80 with hc | hc
      · rw [fsdecode_ascii_cons hc]
        intro x hx
        cases hx
        exact hhead c rfl
      · obtain ⟨code, rest, hcode, -, heq⟩ := fsdecode_cons_of_ge hc m
        rw [heq]
        intro x hx
        cases hx
        exact hge _ hcode
  · -- The last character that is left.
    rcases List.eq_nil_or_concat' m with rfl | ⟨m, c, rfl⟩
    · simp [fsdecode, decodeFrom]
    · rcases Nat.lt_or_ge c.toNat 0x80 with hc | hc
      · rw [fsdecode_append_ascii hc]
        intro x hx
        rw [List.getLast?_append, fsdecode, List.length_nil, decodeFrom] at hx
        cases hx
        exact hlast c (by simp)
      · exact fun x hx => hge x (last_ge hc x hx)

end EscapedText
