/-
Methods of Python strings.

White space is that of Unicode, as `str.strip` and the class `\s` of `re` have it.  `PyStr.sub` is
`re.sub` for a pattern without empty matches: `find` gives the replacement and the length of
the match at a place, and a match is skipped character by character.

* `PyStr.sub_append` — a text is substituted in two parts at a character that no match contains;
* `PyStr.sub_skip` — the rest of a match is passed over.
-/
import IsaacTeleop.PythonText

namespace PyStr

/-! ### White space -/

/-- `str.isspace` of one character. -/
def isSpace (c : ℕ) : Bool :=
  (9 ≤ c && c ≤ 13) || (0x1C ≤ c && c ≤ 0x20) || c = 0x85 || c = 0xA0 || c = 0x1680 ||
    (0x2000 ≤ c && c ≤ 0x200A) || c = 0x2028 || c = 0x2029 || c = 0x202F || c = 0x205F || c = 0x3000

/-- `str.strip()` -/
def strip (s : PyStr) : PyStr := (s.dropWhile isSpace).rdropWhile isSpace

/-! ### Substitution -/

/-- `re.sub`, after `before` and with `skip` characters of a match to come. -/
def sub (find : Option ℕ → PyStr → Option (PyStr × ℕ)) : Option ℕ → ℕ → PyStr → PyStr
  | _, _, [] => []
  | _, skip + 1, c :: s => sub find (some c) skip s
  | before, 0, c :: s =>
    match find before (c :: s) with
    | some (text, length) => text ++ sub find (some c) (length - 1) s
    | none => c :: sub find (some c) 0 s

/-- No match contains `c`, or looks beyond it. -/
structure StopsAt (find : Option ℕ → PyStr → Option (PyStr × ℕ)) (c : ℕ) : Prop where
  same : ∀ before a b, find before (a ++ c :: b) = find before (a ++ [c])
  short : ∀ before a text length, find before (a ++ [c]) = some (text, length) →
    0 < length ∧ length ≤ a.length

section Sub

variable {find : Option ℕ → PyStr → Option (PyStr × ℕ)}

theorem StopsAt.none {c : ℕ} (h : StopsAt find c) (before : Option ℕ) (b : PyStr) :
    find before (c :: b) = none := by
  have hsame : find before (c :: b) = find before [c] := h.same before [] b
  rw [hsame]
  cases hfind : find before [c] with
  | none => rfl
  | some found =>
    obtain ⟨hpos, hlen⟩ := h.short before [] found.1 found.2 hfind
    simp only [List.length_nil] at hlen
    omega

theorem sub_of_none {before : Option ℕ} {c : ℕ} {s : PyStr} (h : find before (c :: s) = none) :
    sub find before 0 (c :: s) = c :: sub find (some c) 0 s := by
  simp only [sub, h]

theorem sub_of_some {before : Option ℕ} {c length : ℕ} {s text : PyStr}
    (h : find before (c :: s) = some (text, length)) :
    sub find before 0 (c :: s) = text ++ sub find (some c) (length - 1) s := by
  simp only [sub, h]

/-- **A text is substituted in two parts.** -/
theorem sub_append {c : ℕ} (h : StopsAt find c) (b : PyStr) (a : PyStr) (before : Option ℕ)
    (skip : ℕ) (hskip : skip ≤ a.length) :
    sub find before skip (a ++ c :: b) =
      sub find before skip (a ++ [c]) ++ sub find (some c) 0 b := by
  induction a generalizing before skip with
  | nil =>
    obtain rfl : skip = 0 := by simpa using hskip
    simp only [List.nil_append, sub_of_none (h.none before b), sub_of_none (h.none before []), sub,
      List.cons_append]
  | cons d a ih =>
    cases skip with
    | succ skip =>
      simp only [List.cons_append, sub]
      exact ih (some d) skip (by simpa using hskip)
    | zero =>
      simp only [List.cons_append, sub]
      rw [← List.cons_append, h.same before (d :: a) b, List.cons_append]
      cases hfind : find before (d :: (a ++ [c])) with
      | none => simp only [ih (some d) 0 (Nat.zero_le _), List.cons_append]
      | some found =>
        -- The match ends before `c`, and so does what is skipped.
        have hlen := (h.short before (d :: a) found.1 found.2 hfind).2
        simp only [List.length_cons] at hlen
        simp only [ih (some d) (found.2 - 1) (by omega), List.append_assoc]

theorem sub_skip (find : Option ℕ → PyStr → Option (PyStr × ℕ)) (a s : PyStr)
    (before : Option ℕ) : ∃ before', sub find before a.length (a ++ s) = sub find before' 0 s := by
  induction a generalizing before with
  | nil => exact ⟨before, rfl⟩
  | cons c a ih => exact ih (some c)

/-- A part in which no match begins stays as it is. -/
theorem sub_of_forall_none (a s : PyStr)
    (h : ∀ i < a.length, ∀ before, find before (a.drop i ++ s) = none) (before : Option ℕ) :
    ∃ before', sub find before 0 (a ++ s) = a ++ sub find before' 0 s := by
  induction a generalizing before with
  | nil => exact ⟨before, rfl⟩
  | cons c a ih =>
    have hrest : ∀ i < a.length, ∀ before, find before (a.drop i ++ s) = none :=
      fun i hi => h (i + 1) (Nat.succ_lt_succ hi)
    obtain ⟨before', hsub⟩ := ih hrest (some c)
    refine ⟨before', ?_⟩
    have hhead : find before (c :: (a ++ s)) = none := h 0 (Nat.succ_pos _) before
    rw [List.cons_append, sub_of_none hhead, hsub, List.cons_append]

/-- What precedes does not matter before a character that no match contains. -/
theorem sub_before {c : ℕ} (h : StopsAt find c) (before before' : Option ℕ) (s : PyStr) :
    sub find before 0 (c :: s) = sub find before' 0 (c :: s) := by
  rw [sub_of_none (h.none before s), sub_of_none (h.none before' s)]

end Sub

end PyStr
