/-
Lines and shell words of Python strings.

`str.splitlines` breaks at more characters than a text file does; `shlex.quote` makes one shell word
of a string, and `shlex.split` reads the words of a line.

* `PyStr.splitlines_lines` — lines that are written are read back;
* `PyStr.shlexSplit_quote` — **and so is a quoted word**;
* `PyStr.shlexSplit_forall` — a word consists of characters of the line.
-/
import IsaacTeleop.PythonStrings

namespace PyStr

/-! ### Stripped strings -/

theorem strip_eq_self {s : PyStr} (hhead : ∀ c ∈ s.head?, isSpace c = false)
    (hlast : ∀ c ∈ s.getLast?, isSpace c = false) : strip s = s := by
  have hdrop : s.dropWhile isSpace = s := by
    cases s with
    | nil => rfl
    | cons c s => simp [hhead c (by simp)]
  rw [strip, hdrop, List.rdropWhile_eq_self_iff]
  intro hne
  simp [hlast (s.getLast hne) (by simp [List.getLast?_eq_some_getLast hne])]

theorem strip_strip (s : PyStr) : strip (strip s) = strip s := by
  refine strip_eq_self (fun c hc => ?_) (fun c hc => ?_)
  · -- The first character of a stripped string is that of the string without its leading spaces.
    obtain ⟨rest, hrest⟩ := List.rdropWhile_prefix isSpace (s.dropWhile isSpace)
    obtain ⟨tail, htail⟩ : ∃ tail, strip s = c :: tail := by
      cases hs : strip s with
      | nil => simp [hs] at hc
      | cons d tail =>
        rw [hs] at hc
        exact ⟨tail, by simpa using hc⟩
    have hsplit : s.dropWhile isSpace = c :: (tail ++ rest) := by
      rw [← hrest, ← List.cons_append, ← htail]
      rfl
    have hhead := List.head_dropWhile_not isSpace (l := s) (by simp [hsplit])
    simpa [hsplit] using hhead
  · have hne : strip s ≠ [] := by
      rintro hs
      simp [hs] at hc
    have hlast := List.rdropWhile_last_not isSpace (s.dropWhile isSpace) hne
    obtain rfl : (strip s).getLast hne = c := by
      simpa [List.getLast?_eq_some_getLast hne] using hc
    exact Bool.eq_false_iff.mpr hlast

theorem mem_of_mem_strip {s : PyStr} {c : ℕ} (h : c ∈ strip s) : c ∈ s :=
  (List.dropWhile_sublist isSpace).subset ((List.rdropWhile_prefix isSpace _).subset h)

/-! ### Lines -/

/-- The line boundaries of `str.splitlines`. -/
def isBreak (c : ℕ) : Bool :=
  (10 ≤ c && c ≤ 13) || (0x1C ≤ c && c ≤ 0x1E) || c = 0x85 || c = 0x2028 || c = 0x2029

/-- No line boundary in the string. -/
def OneLine (s : PyStr) : Prop := ∀ c ∈ s, isBreak c = false

instance (s : PyStr) : Decidable s.OneLine :=
  inferInstanceAs (Decidable (∀ c ∈ s, isBreak c = false))

/-- What a text file gives for its line ends. -/
def universalNewlines : PyStr → PyStr
  | 13 :: 10 :: s => 10 :: universalNewlines s
  | c :: s => (if c = 13 then 10 else c) :: universalNewlines s
  | [] => []

/-- `str.splitlines`, with the beginning of the first line. -/
def splitlinesFrom (line : PyStr) : PyStr → List PyStr
  | 13 :: 10 :: s => line :: splitlinesFrom [] s
  | c :: s => if isBreak c then line :: splitlinesFrom [] s else splitlinesFrom (line ++ [c]) s
  | [] => if line = [] then [] else [line]

def splitlines (s : PyStr) : List PyStr := splitlinesFrom [] s

theorem oneLine_of_mem_splitlinesFrom {s line l : PyStr} (hline : line.OneLine)
    (h : l ∈ splitlinesFrom line s) : l.OneLine := by
  fun_induction splitlinesFrom line s with
  | case1 line s ih =>
    rcases List.mem_cons.mp h with rfl | hrest
    · exact hline
    · exact ih (by simp [OneLine]) hrest
  | case2 line c s hcrlf hc ih =>
    rcases List.mem_cons.mp h with rfl | hrest
    · exact hline
    · exact ih (by simp [OneLine]) hrest
  | case3 line c s hcrlf hc ih =>
    refine ih (fun d hd => ?_) h
    rcases List.mem_append.mp hd with hd | hd
    · exact hline d hd
    · rw [List.mem_singleton.mp hd]
      simpa using hc
  | case4 => cases h
  | case5 line hne =>
    rw [List.mem_singleton.mp h]
    exact hline

theorem oneLine_of_mem_splitlines {s l : PyStr} (h : l ∈ splitlines s) : l.OneLine :=
  oneLine_of_mem_splitlinesFrom (by simp [OneLine]) h

theorem splitlinesFrom_line {l : PyStr} (h : l.OneLine) (line s : PyStr) :
    splitlinesFrom line (l ++ 10 :: s) = (line ++ l) :: splitlinesFrom [] s := by
  induction l generalizing line with
  | nil => simp [splitlinesFrom, isBreak]
  | cons c l ih =>
    have hc : isBreak c = false := h c List.mem_cons_self
    have hne : c ≠ 13 := by
      rintro rfl
      cases hc
    have hstep : splitlinesFrom line (c :: (l ++ 10 :: s)) =
        splitlinesFrom (line ++ [c]) (l ++ 10 :: s) := by
      rw [splitlinesFrom.eq_2 _ _ _ (fun _ hcr _ => hne hcr), hc]
      rfl
    rw [List.cons_append, hstep, ih fun d hd => h d (List.mem_cons_of_mem c hd)]
    simp

/-- **Lines that are written are read back.** -/
theorem splitlines_lines {lines : List PyStr} (h : ∀ l ∈ lines, l.OneLine) :
    splitlines (lines.flatMap fun l => l ++ [10]) = lines := by
  unfold splitlines
  induction lines with
  | nil => rfl
  | cons l lines ih =>
    rw [List.flatMap_cons, List.append_assoc, List.singleton_append,
      splitlinesFrom_line (h l List.mem_cons_self),
      ih fun l hl => h l (List.mem_cons_of_mem _ hl)]
    rfl

theorem universalNewlines_eq_self {s : PyStr} (h : 13 ∉ s) : universalNewlines s = s := by
  fun_induction universalNewlines s with
  | case1 s ih => simp at h
  | case2 c s hcrlf ih =>
    simp only [List.mem_cons, not_or] at h
    rw [ih h.2, if_neg (Ne.symm h.1)]
  | case3 => rfl

/-! ### Shell words -/

/-- The characters that `shlex.quote` leaves alone. -/
def isSafe (c : ℕ) : Bool :=
  (48 ≤ c && c ≤ 57) || (65 ≤ c && c ≤ 90) || (97 ≤ c && c ≤ 122) || c = 95 || c = 64 || c = 37 ||
    c = 43 || c = 61 || c = 58 || c = 44 || c = 46 || c = 47 || c = 45

/-- A single quote leaves the quotes, is quoted by itself, and enters them again. -/
def quoteChar (c : ℕ) : PyStr := if c = 39 then [39, 34, 39, 34, 39] else [c]

/-- `shlex.quote` -/
def quote (s : PyStr) : PyStr :=
  if s = [] then [39, 39]
  else if s.all isSafe then s
  else 39 :: (s.flatMap quoteChar ++ [39])

/-- The states of `shlex` in POSIX mode with `whitespace_split`; `escape` remembers the quotes that
it is in. -/
inductive Lex
  | blank
  | word
  | quoted (q : ℕ)
  | escape (back : Option ℕ)

def isBlank (c : ℕ) : Bool := c = 32 || c = 9 || c = 13 || c = 10

/-- The words, from the state and the word so far; `none` is a `ValueError`. -/
def lex : Lex → PyStr → Bool → PyStr → Option (List PyStr)
  | .blank, _, _, [] => some []
  | .word, token, wasQuoted, [] => some (if token = [] ∧ wasQuoted = false then [] else [token])
  | .quoted _, _, _, [] => none
  | .escape _, _, _, [] => none
  | .blank, token, wasQuoted, c :: s =>
    if isBlank c then lex .blank token wasQuoted s
    else if c = 92 then lex (.escape none) [] false s
    else if c = 39 ∨ c = 34 then lex (.quoted c) [] true s
    else lex .word [c] false s
  | .word, token, wasQuoted, c :: s =>
    if isBlank c then
      if token = [] ∧ wasQuoted = false then lex .blank [] false s
      else (lex .blank [] false s).map (token :: ·)
    else if c = 39 ∨ c = 34 then lex (.quoted c) token true s
    else if c = 92 then lex (.escape none) token wasQuoted s
    else lex .word (token ++ [c]) wasQuoted s
  | .quoted q, token, _, c :: s =>
    if c = q then lex .word token true s
    else if c = 92 ∧ q = 34 then lex (.escape (some q)) token true s
    else lex (.quoted q) (token ++ [c]) true s
  | .escape none, token, wasQuoted, c :: s => lex .word (token ++ [c]) wasQuoted s
  | .escape (some q), token, wasQuoted, c :: s =>
    lex (.quoted q) (token ++ if c ≠ 92 ∧ c ≠ q then [92, c] else [c]) wasQuoted s

/-- `shlex.split` -/
def shlexSplit (s : PyStr) : Option (List PyStr) := lex .blank [] false s

theorem lex_quoteChars (v token : PyStr) :
    lex (.quoted 39) token true (v.flatMap quoteChar ++ [39]) = some [token ++ v] := by
  induction v generalizing token with
  | nil => simp [lex]
  | cons c v ih =>
    rw [List.flatMap_cons, List.append_assoc]
    by_cases hc : c = 39
    · subst hc
      simp only [quoteChar, if_true, List.cons_append, List.nil_append, lex, isBlank]
      have hrest := ih (token ++ [39])
      rw [List.append_assoc, List.singleton_append] at hrest
      simpa using hrest
    · simp only [quoteChar, hc, if_false, List.cons_append, List.nil_append, lex]
      simpa using ih (token ++ [c])

theorem plain_of_safe {c : ℕ} (hc : isSafe c = true) :
    isBlank c = false ∧ c ≠ 39 ∧ c ≠ 34 ∧ c ≠ 92 := by
  simp only [isSafe, Bool.or_eq_true, Bool.and_eq_true, decide_eq_true_eq] at hc
  simp only [isBlank, Bool.or_eq_false_iff, decide_eq_false_iff_not]
  omega

theorem lex_safe {s : PyStr} (h : ∀ c ∈ s, isSafe c = true) (token : PyStr) (hne : token ≠ []) :
    lex .word token false s = some [token ++ s] := by
  induction s generalizing token with
  | nil => simp [lex, hne]
  | cons c s ih =>
    have hplain := plain_of_safe (h c List.mem_cons_self)
    simp only [lex, hplain.1, hplain.2.1, hplain.2.2.1, hplain.2.2.2, or_self, if_false,
      Bool.false_eq_true]
    rw [ih (fun d hd => h d (List.mem_cons_of_mem c hd)) (token ++ [c]) (by simp)]
    simp

/-- **A quoted word is read back.** -/
theorem shlexSplit_quote (v : PyStr) : shlexSplit (quote v) = some [v] := by
  unfold shlexSplit quote
  split
  · rename_i hv
    subst hv
    rfl
  split
  · rename_i hne hsafe
    obtain ⟨c, s, rfl⟩ := List.exists_cons_of_ne_nil hne
    have hall := List.all_eq_true.mp hsafe
    -- The first character begins the word, as it would go on with it.
    have hplain := plain_of_safe (hall c List.mem_cons_self)
    simp only [lex, hplain.1, hplain.2.1, hplain.2.2.1, hplain.2.2.2, or_self, if_false,
      Bool.false_eq_true]
    exact lex_safe (fun d hd => hall d (List.mem_cons_of_mem c hd)) [c] (by simp)
  · simpa [lex, isBlank] using lex_quoteChars v []

/-- A word consists of characters of the line, and of backslashes. -/
theorem lex_forall {P : ℕ → Prop} (hback : P 92) {state : Lex} {token s : PyStr} {wasQuoted : Bool}
    {words : List PyStr} (htoken : ∀ c ∈ token, P c) (hs : ∀ c ∈ s, P c)
    (h : lex state token wasQuoted s = some words) : ∀ w ∈ words, ∀ c ∈ w, P c := by
  induction s generalizing state token wasQuoted words with
  | nil =>
    cases state with
    | word =>
      obtain rfl := Option.some.inj h
      split
      · simp
      · simpa using htoken
    | blank =>
      obtain rfl := Option.some.inj h
      simp
    | quoted q => cases h
    | escape back => cases h
  | cons c s ih =>
    have hc : P c := hs c List.mem_cons_self
    have hrest : ∀ d ∈ s, P d := fun d hd => hs d (List.mem_cons_of_mem c hd)
    -- A turn adds the character it reads, or nothing.
    have hsnoc : ∀ d ∈ token ++ [c], P d := by
      intro d hd
      rcases List.mem_append.mp hd with hd | hd
      · exact htoken d hd
      · exact List.mem_singleton.mp hd ▸ hc
    cases state with
    | blank =>
      simp only [lex] at h
      split_ifs at h
      · exact ih htoken hrest h
      · exact ih (by simp) hrest h
      · exact ih (by simp) hrest h
      · exact ih (by simpa using hc) hrest h
    | word =>
      simp only [lex] at h
      split_ifs at h
      · exact ih (by simp) hrest h
      · -- A blank ends the word, and the token is handed out.
        obtain ⟨words', hwords, rfl⟩ := Option.map_eq_some_iff.mp h
        intro w hw
        rcases List.mem_cons.mp hw with rfl | hw
        · exact htoken
        · exact ih (by simp) hrest hwords w hw
      · exact ih htoken hrest h
      · exact ih htoken hrest h
      · exact ih hsnoc hrest h
    | quoted q =>
      simp only [lex] at h
      split_ifs at h
      · exact ih htoken hrest h
      · exact ih htoken hrest h
      · exact ih hsnoc hrest h
    | escape back =>
      cases back with
      | none => exact ih hsnoc hrest h
      | some q =>
        refine ih (fun d hd => ?_) hrest h
        rcases List.mem_append.mp hd with hd | hd
        · exact htoken d hd
        · -- Inside quotes the backslash stays before most characters.
          split_ifs at hd
          · simp only [List.mem_cons, List.not_mem_nil, or_false] at hd
            rcases hd with rfl | rfl
            · exact hback
            · exact hc
          · exact List.mem_singleton.mp hd ▸ hc

theorem shlexSplit_forall {P : ℕ → Prop} (hback : P 92) {s : PyStr} {words : List PyStr}
    (hs : ∀ c ∈ s, P c) (h : shlexSplit s = some words) : ∀ w ∈ words, ∀ c ∈ w, P c :=
  lex_forall hback (by simp) hs h

end PyStr
