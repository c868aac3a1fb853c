/-
How long the lines of the calibration worker are.

A byte of a text takes at most six bytes of a JSON string, and a text is written byte after byte,
so that what stands around a quoted text can be counted apart from it.

* `appendString_length_le` — the length of a string;
* `appendString_quoted` — a text in quotes, inside a message;
* `serializeEvent_length_le` — an event whose texts are short fits into a message.
-/
import IsaacTeleop.CalibrationEvents

open ByteText

namespace Calibration

/-! ### Strings -/

theorem escapeByte_length_le (c : UInt8) : (escapeByte c).length ≤ 6 := by
  rw [escapeByte]
  split
  · decide
  split
  · decide
  split
  · decide
  split
  · decide
  split
  · decide
  split
  · exact Nat.le_refl 6
  · exact Nat.le_of_ble_eq_true rfl

/-- A sequence is no longer than the text. -/
theorem utf8SequenceLength_le (text : ByteText) : utf8SequenceLength text ≤ text.length := by
  cases hone : Utf8.decodeOne text with
  | none =>
    rw [utf8SequenceLength_of_none hone]
    exact Nat.zero_le _
  | some result =>
    obtain ⟨code, rest⟩ := result
    have hlength := utf8SequenceLength_of_some hone
    omega

theorem appendChars_length_le (turns : ℕ) (text : ByteText) :
    (appendChars turns text).length ≤ 6 * text.length := by
  induction turns generalizing text with
  | zero => exact Nat.zero_le _
  | succ turns ih =>
    cases text with
    | nil => exact Nat.zero_le _
    | cons c text =>
      -- A byte is replaced, copied with its sequence, or escaped, and becomes six at most.
      have hbound := utf8SequenceLength_le (c :: text)
      rw [appendChars]
      generalize utf8SequenceLength (c :: text) = length at hbound ⊢
      rw [List.length_cons] at hbound ⊢
      split
      · have hrest := ih text
        rw [List.length_append, replacement, List.length_cons, List.length_cons,
          List.length_singleton]
        omega
      split
      · have hrest := ih ((c :: text).drop length)
        rw [List.length_drop, List.length_cons] at hrest
        rw [List.length_append, List.length_take, List.length_cons]
        omega
      · have hrest := ih text
        have hc := escapeByte_length_le c
        rw [List.length_append]
        omega

/-- **The length of a string.** -/
theorem appendString_length_le (text : ByteText) :
    (appendString text).length ≤ 6 * text.length + 2 := by
  have hchars := appendChars_length_le text.length text
  rw [appendString, List.length_cons, List.length_append, List.length_singleton]
  omega

theorem utf8SequenceLength_ascii {c : UInt8} (hc : c < 0x80) (rest : ByteText) :
    utf8SequenceLength (c :: rest) = 1 := by
  rw [utf8SequenceLength, if_pos hc]

theorem appendChars_ascii {c : UInt8} (hc : c < 0x80) (turns : ℕ) (rest : ByteText) :
    appendChars (turns + 1) (c :: rest) = escapeByte c ++ appendChars turns rest := by
  rw [appendChars, utf8SequenceLength_ascii hc]
  rfl

/-- ASCII bytes in front are written one by one. -/
theorem appendChars_before {before : ByteText} (hascii : ∀ c ∈ before, c < 0x80) (turns : ℕ)
    (text : ByteText) :
    appendChars (before.length + turns) (before ++ text) =
      before.flatMap escapeByte ++ appendChars turns text := by
  induction before with
  | nil => rw [List.length_nil, Nat.zero_add, List.nil_append, List.flatMap_nil, List.nil_append]
  | cons c before ih =>
    have hlength : (c :: before).length + turns = before.length + turns + 1 := by
      rw [List.length_cons]
      omega
    rw [hlength, List.cons_append, appendChars_ascii (hascii c (List.mem_cons_self ..)),
      ih fun c' hc' => hascii c' (List.mem_cons_of_mem c hc'), List.flatMap_cons,
      List.append_assoc]

/-- An ASCII byte continues no sequence. -/
theorem continuation_snoc {b : UInt8} (hb : b < 0x80) (n code : ℕ) (rest : ByteText) :
    continuation n code (rest ++ [b]) = continuation n code rest := by
  have hnot : b &&& 0xC0 ≠ 0x80 := by
    intro hbits
    have hhigh := (tail_bits b).1.mp hbits
    have hlow : b.toNat < 0x80 := UInt8.lt_iff_toNat_lt.mp hb
    omega
  induction n generalizing code rest with
  | zero =>
    cases rest with
    | nil => rfl
    | cons c rest => rfl
  | succ n ih =>
    cases rest with
    | nil => exact if_pos hnot
    | cons c rest => rw [List.cons_append, continuation, continuation, ih]

theorem checkedLength_snoc {b : UInt8} (hb : b < 0x80) (length least code : ℕ)
    (rest : ByteText) :
    checkedLength length least code (rest ++ [b]) = checkedLength length least code rest := by
  rw [checkedLength, checkedLength, continuation_snoc hb]

theorem utf8SequenceLength_snoc {b : UInt8} (hb : b < 0x80) (c : UInt8) (rest : ByteText) :
    utf8SequenceLength (c :: rest ++ [b]) = utf8SequenceLength (c :: rest) := by
  rw [List.cons_append, utf8SequenceLength, utf8SequenceLength]
  simp only [checkedLength_snoc hb]

/-- An ASCII byte at the end is written after the rest. -/
theorem appendChars_snoc {b : UInt8} (hb : b < 0x80) {turns : ℕ} {text : ByteText}
    (h : text.length ≤ turns) :
    appendChars (turns + 1) (text ++ [b]) = appendChars turns text ++ escapeByte b := by
  have hlast : ∀ turns, appendChars (turns + 1) [b] = escapeByte b := by
    intro turns
    rw [appendChars_ascii hb]
    cases turns with
    | zero => exact List.append_nil _
    | succ turns => exact List.append_nil _
  induction turns generalizing text with
  | zero =>
    rw [List.length_eq_zero_iff.mp (Nat.le_zero.mp h), List.nil_append, hlast]
    rfl
  | succ turns ih =>
    cases text with
    | nil =>
      rw [List.nil_append, hlast]
      rfl
    | cons c text =>
      rw [List.length_cons] at h
      have hbound := utf8SequenceLength_le (c :: text)
      rw [List.cons_append, appendChars.eq_3, appendChars.eq_3, ← List.cons_append,
        utf8SequenceLength_snoc hb]
      generalize utf8SequenceLength (c :: text) = length at hbound ⊢
      split
      · rw [ih (by omega), List.append_assoc]
      split
      · -- a sequence ends before the last byte
        have hdrop : ((c :: text).drop length).length ≤ turns := by
          rw [List.length_drop, List.length_cons]
          omega
        rw [List.take_append_of_le_length hbound, List.drop_append_of_le_length hbound, ih hdrop,
          List.append_assoc]
      · rw [ih (by omega), List.append_assoc]

/-- **A text in quotes**: what stands around it is counted apart. -/
theorem appendString_quoted {before : ByteText} (hascii : ∀ c ∈ before, c < 0x80)
    (text : ByteText) :
    (appendString (before ++ text ++ [byte '"'])).length =
      (before.flatMap escapeByte).length + 2 + (appendString text).length := by
  have hturns : (before ++ text ++ [byte '"']).length = before.length + (text.length + 1) := by
    rw [List.length_append, List.length_append, List.length_singleton]
    omega
  have hquote : (escapeByte (byte '"')).length = 2 := rfl
  rw [appendString, hturns, List.append_assoc, appendChars_before hascii,
    appendChars_snoc (by decide) le_rfl, appendString]
  simp only [List.length_cons, List.length_append, List.length_nil, hquote]
  omega

/-! ### Members -/

section Members

variable {key : String} {value : ByteText} {n : ℕ}

theorem raw_length_le (hkey : (lit key).length ≤ 16) (hvalue : value.length ≤ n) :
    (raw key value).length ≤ n + 100 := by
  have hlit := appendString_length_le (lit key)
  rw [raw, List.length_cons, List.length_append, List.length_cons]
  omega

theorem string_length_le (hkey : (lit key).length ≤ 16) (hvalue : value.length ≤ n) :
    (string key value).length ≤ 6 * n + 102 := by
  have hstring := appendString_length_le value
  exact (raw_length_le hkey (show (appendString value).length ≤ 6 * n + 2 by omega)).trans_eq rfl

theorem optionalString_length_le {value : Option ByteText} (hkey : (lit key).length ≤ 16)
    (hvalue : ∀ v ∈ value, v.length ≤ n) : (optionalString key value).length ≤ 6 * n + 104 := by
  cases value with
  | none =>
    have hnull : (lit "null").length ≤ 4 := by decide
    have hraw := raw_length_le hkey hnull
    rw [optionalString]
    omega
  | some value =>
    have hstring := string_length_le hkey (hvalue value rfl)
    rw [optionalString]
    omega

theorem decimal_length_le_ten {n : ℕ} (h : n < 2 ^ 32) : (decimal n).length ≤ 10 :=
  (decimal_length_le_iff (by decide)).mpr (by omega)

theorem decimal_length_le_twenty {n : ℕ} (h : n < 2 ^ 64) : (decimal n).length ≤ 20 :=
  (decimal_length_le_iff (by decide)).mpr (by omega)

/-- The brackets of at most two items. -/
theorem bracketed_length_le {items : List ByteText} (hlength : items.length ≤ 2)
    (hitems : ∀ item ∈ items, item.length ≤ n) : (bracketed items).length ≤ 2 * n + 3 := by
  match items with
  | [] =>
    have hempty : (bracketed []).length = 2 := by decide
    omega
  | [a] =>
    have ha := hitems a (List.mem_cons_self ..)
    have hone : (bracketed [a]).length = a.length + 2 := by
      simp [bracketed, List.intercalate]
    omega
  | [a, b] =>
    have ha := hitems a (List.mem_cons_self ..)
    have hb := hitems b (List.mem_cons_of_mem _ (List.mem_cons_self ..))
    have htwo : (bracketed [a, b]).length = a.length + b.length + 3 := by
      simp [bracketed, List.intercalate]
      omega
    omega
  | a :: b :: c :: rest =>
    simp only [List.length_cons] at hlength
    omega

theorem objectText_length_le {type : String} {members : List ByteText}
    (htype : (lit type).length ≤ 16) (hmembers : members.flatten.length ≤ n) :
    (objectText type members).length ≤ n + 210 := by
  have hopen : (lit "\x7b\"v\":").length = 5 := rfl
  have hversion : (decimal kProtocolVersion).length = 1 := rfl
  have htype' := string_length_le (show (lit "type").length ≤ 16 by decide) htype
  simp only [objectText, List.length_append, List.length_singleton, hopen, hversion]
  omega

end Members

/-! ### Events -/

def ResultFile.Sized (f : ResultFile) : Prop :=
  f.file.length ≤ 80 ∧ f.bytes < 2 ^ 64 ∧ f.sha256.length ≤ 64

def ErrorInfo.Sized (e : ErrorInfo) : Prop :=
  e.message.length ≤ 6000 ∧ ∀ step ∈ e.step, step < 2 ^ 32

/-- The texts and numbers of an event of the engine are short.  It does not send `ready`. -/
def Event.Sized {τ : Type} : Event τ → Prop
  | .ready _ => False
  | .status e => e.attempt.length ≤ 64 ∧ e.gloves.length ≤ 2
  | .prompt e => e.attempt.length ≤ 64 ∧ e.token.length ≤ 128 ∧ e.index < 2 ^ 32 ∧
      e.count < 2 ^ 32 ∧ e.title.length ≤ 4096 ∧ e.instruction.length ≤ 4096
  | .stepAccepted e => e.attempt.length ≤ 64 ∧ e.token.length ≤ 128
  | .stepProgress e => e.attempt.length ≤ 64 ∧ e.token.length ≤ 128
  | .rejected e => (∀ attempt ∈ e.attempt, attempt.length ≤ 64) ∧ e.command.length ≤ 16 ∧
      e.message.length ≤ 128 ∧ ∀ token ∈ e.token, token.length ≤ 128
  | .exported e => e.attempt.length ≤ 64 ∧ e.file.length ≤ 80 ∧ e.bytes < 2 ^ 64 ∧
      e.sha256.length ≤ 64
  | .result e => (∀ attempt ∈ e.attempt, attempt.length ≤ 64) ∧ e.files.length ≤ 2 ∧
      (∀ f ∈ e.files, f.Sized) ∧ ∀ error ∈ e.error, error.Sized

theorem sideName_length_le (side : Side) : (sideName side).length ≤ 5 := by
  cases side with
  | left => decide
  | right => decide

theorem phaseName_length_le (phase : Phase) : (phaseName phase).length ≤ 16 := by
  cases phase <;> decide

theorem reasonName_length_le (reason : RejectReason) : (reasonName reason).length ≤ 16 := by
  cases reason <;> decide

theorem outcomeName_length_le (outcome : Outcome) : (outcomeName outcome).length ≤ 16 := by
  cases outcome <;> decide

theorem errorCodeName_length_le (code : ErrorCode) : (errorCodeName code).length ≤ 16 := by
  cases code <;> decide

theorem modeName_length_le (mode : StepMode) : (modeName mode).length ≤ 16 := by
  cases mode <;> decide

theorem boolText_length_le (b : Bool) : (boolText b).length ≤ 5 := by
  cases b <;> decide

theorem glovesJson_length_le {gloves : List GloveRef} (h : gloves.length ≤ 2) :
    (glovesJson gloves).length ≤ 200 := by
  refine (bracketed_length_le (n := 80) (by rwa [List.length_map]) ?_).trans (by decide)
  intro item hitem
  obtain ⟨g, -, rfl⟩ := List.mem_map.mp hitem
  have hside := appendString_length_le (sideName g.side)
  have hname := sideName_length_le g.side
  have hid := decimal_length_le_ten g.gloveId.toNat_lt
  have hopen : (lit "\x7b\"side\":").length = 8 := rfl
  have hkey : (lit ",\"glove_id\":").length = 12 := rfl
  have hclose : (lit "\x7d").length = 1 := rfl
  simp only [List.length_append, hopen, hkey, hclose]
  omega

theorem filesJson_length_le {files : List ResultFile} (h : files.length ≤ 2)
    (hfiles : ∀ f ∈ files, f.Sized) : (filesJson files).length ≤ 2003 := by
  refine (bracketed_length_le (n := 1000) (by rwa [List.length_map]) ?_).trans (by decide)
  intro item hitem
  obtain ⟨f, hf, rfl⟩ := List.mem_map.mp hitem
  obtain ⟨hfile, hbytes, hsha⟩ := hfiles f hf
  have hside := appendString_length_le (sideName f.side)
  have hname := sideName_length_le f.side
  have hfile' := appendString_length_le f.file
  have hsha' := appendString_length_le f.sha256
  have hbytes' := decimal_length_le_twenty hbytes
  have hopen : (lit "\x7b\"side\":").length = 8 := rfl
  have hkey₁ : (lit ",\"file\":").length = 8 := rfl
  have hkey₂ : (lit ",\"bytes\":").length = 9 := rfl
  have hkey₃ : (lit ",\"sha256\":").length = 10 := rfl
  have hclose : (lit "\x7d").length = 1 := rfl
  simp only [List.length_append, hopen, hkey₁, hkey₂, hkey₃, hclose]
  omega

theorem errorJson_length_le {error : ErrorInfo} (h : error.Sized) :
    (errorJson error).length ≤ 36300 := by
  obtain ⟨code, message, side, step⟩ := error
  obtain ⟨hmessage, hstep⟩ : message.length ≤ 6000 ∧ ∀ s ∈ step, s < 2 ^ 32 := h
  have hcode := appendString_length_le (errorCodeName code)
  have hname := errorCodeName_length_le code
  have hmessage' := appendString_length_le message
  have hopen : (lit "\x7b\"code\":").length = 8 := rfl
  have hkey : (lit ",\"message\":").length = 11 := rfl
  have hkey₁ : (lit ",\"side\":").length = 8 := rfl
  have hkey₂ : (lit ",\"step\":").length = 8 := rfl
  have hclose : (lit "\x7d").length = 1 := rfl
  rw [errorJson]
  simp only [List.length_append, hopen, hkey, hclose]
  -- the two optional members
  cases side with
  | none =>
    cases step with
    | none =>
      simp only [List.length_nil]
      omega
    | some step =>
      have hdecimal := decimal_length_le_ten (hstep step rfl)
      simp only [List.length_nil, List.length_append, hkey₂]
      omega
  | some side =>
    have hside := appendString_length_le (sideName side)
    have hside' := sideName_length_le side
    cases step with
    | none =>
      simp only [List.length_nil, List.length_append, hkey₁]
      omega
    | some step =>
      have hdecimal := decimal_length_le_ten (hstep step rfl)
      simp only [List.length_append, hkey₁, hkey₂]
      omega

section Serialize

variable {τ : Type} [CppDouble τ] (format : τ → ByteText)

theorem seconds_length_le {key : String} (hkey : (lit key).length ≤ 16) (value : τ) :
    (seconds format key value).length ≤ 131 := by
  refine raw_length_le hkey ?_
  rw [List.length_take]
  exact Nat.min_le_left ..

theorem integer_length_le {key : String} (hkey : (lit key).length ≤ 16) {n : ℕ}
    (h : n < 2 ^ 64) : (integer key n).length ≤ 120 :=
  raw_length_le hkey (decimal_length_le_twenty h)

/-- A line of short members. -/
theorem objectText_fits {type : String} {members : List ByteText}
    (htype : (lit type).length ≤ 16) (hmembers : members.flatten.length ≤ 65000) :
    (objectText type members).length ≤ kMaxMessageBytes := by
  have hobject := objectText_length_le htype hmembers
  rw [kMaxMessageBytes]
  omega

theorem status_fits {e : StatusEvent} (h : (Event.status e : Event τ).Sized) :
    (serializeEvent format (.status e)).length ≤ kMaxMessageBytes := by
  obtain ⟨hattempt, hgloves⟩ := h
  have h₁ := string_length_le (show (lit "attempt").length ≤ 16 by decide) hattempt
  have h₂ := string_length_le (show (lit "phase").length ≤ 16 by decide)
    (phaseName_length_le e.phase)
  have h₃ := raw_length_le (show (lit "gloves").length ≤ 16 by decide)
    (glovesJson_length_le hgloves)
  refine objectText_fits (by decide) ?_
  simp only [List.flatten_cons, List.flatten_nil, List.length_append, List.length_nil]
  omega

theorem prompt_fits {e : PromptEvent τ} (h : (Event.prompt e).Sized) :
    (serializeEvent format (.prompt e)).length ≤ kMaxMessageBytes := by
  obtain ⟨hattempt, htoken, hindex, hcount, htitle, hinstruction⟩ := h
  -- One bound for each field of the event, in the order they are written.
  have hid := e.gloveId.toNat_lt
  have h₁ := string_length_le (show (lit "attempt").length ≤ 16 by decide) hattempt
  have h₂ := string_length_le (show (lit "token").length ≤ 16 by decide) htoken
  have h₃ := string_length_le (show (lit "side").length ≤ 16 by decide)
    (sideName_length_le e.side)
  have h₄ := integer_length_le (show (lit "glove_id").length ≤ 16 by decide)
    (show e.gloveId.toNat < 2 ^ 64 by omega)
  have h₅ := integer_length_le (show (lit "index").length ≤ 16 by decide)
    (show e.index < 2 ^ 64 by omega)
  have h₆ := integer_length_le (show (lit "count").length ≤ 16 by decide)
    (show e.count < 2 ^ 64 by omega)
  have h₇ := string_length_le (show (lit "title").length ≤ 16 by decide) htitle
  have h₈ := string_length_le (show (lit "instruction").length ≤ 16 by decide)
    hinstruction
  have h₉ := string_length_le (show (lit "mode").length ≤ 16 by decide)
    (modeName_length_le e.mode)
  have h₁₀ := seconds_length_le format (show (lit "duration_s").length ≤ 16 by decide)
    e.durationS
  have h₁₁ := raw_length_le (show (lit "continuous").length ≤ 16 by decide)
    (boolText_length_le e.continuous)
  have h₁₂ := seconds_length_le format (show (lit "estimated_s").length ≤ 16 by decide)
    e.estimatedS
  refine objectText_fits (by decide) ?_
  simp only [List.flatten_cons, List.flatten_nil, List.length_append, List.length_nil]
  omega

theorem stepAccepted_fits {e : StepAcceptedEvent} (h : (Event.stepAccepted e : Event τ).Sized) :
    (serializeEvent format (.stepAccepted e)).length ≤ kMaxMessageBytes := by
  obtain ⟨hattempt, htoken⟩ := h
  have h₁ := string_length_le (show (lit "attempt").length ≤ 16 by decide) hattempt
  have h₂ := string_length_le (show (lit "token").length ≤ 16 by decide) htoken
  refine objectText_fits (by decide) ?_
  simp only [List.flatten_cons, List.flatten_nil, List.length_append, List.length_nil]
  omega

theorem stepProgress_fits {e : StepProgressEvent τ} (h : (Event.stepProgress e).Sized) :
    (serializeEvent format (.stepProgress e)).length ≤ kMaxMessageBytes := by
  obtain ⟨hattempt, htoken⟩ := h
  have h₁ := string_length_le (show (lit "attempt").length ≤ 16 by decide) hattempt
  have h₂ := string_length_le (show (lit "token").length ≤ 16 by decide) htoken
  have h₃ := seconds_length_le format (show (lit "elapsed_s").length ≤ 16 by decide)
    e.elapsedS
  refine objectText_fits (by decide) ?_
  simp only [List.flatten_cons, List.flatten_nil, List.length_append, List.length_nil]
  omega

theorem rejected_fits {e : RejectedEvent} (h : (Event.rejected e : Event τ).Sized) :
    (serializeEvent format (.rejected e)).length ≤ kMaxMessageBytes := by
  obtain ⟨hattempt, hcommand, hmessage, htoken⟩ := h
  have h₁ := optionalString_length_le (show (lit "attempt").length ≤ 16 by decide) hattempt
  have h₂ := string_length_le (show (lit "command").length ≤ 16 by decide) hcommand
  have h₃ := string_length_le (show (lit "reason").length ≤ 16 by decide)
    (reasonName_length_le e.reason)
  have h₄ := string_length_le (show (lit "message").length ≤ 16 by decide) hmessage
  have h₅ : (e.token.map (string "token")).toList.flatten.length ≤ 1000 := by
    cases htoken' : e.token with
    | none => exact Nat.zero_le _
    | some token =>
      have hstring := string_length_le (show (lit "token").length ≤ 16 by decide)
        (htoken token htoken')
      simp only [Option.map_some, Option.toList_some, List.flatten_cons, List.flatten_nil,
        List.append_nil]
      omega
  refine objectText_fits (by decide) ?_
  simp only [List.flatten_append, List.flatten_cons, List.flatten_nil, List.length_append,
    List.length_nil]
  omega

theorem exported_fits {e : ExportedEvent} (h : (Event.exported e : Event τ).Sized) :
    (serializeEvent format (.exported e)).length ≤ kMaxMessageBytes := by
  obtain ⟨hattempt, hfile, hbytes, hsha⟩ := h
  have hid := e.gloveId.toNat_lt
  have h₁ := string_length_le (show (lit "attempt").length ≤ 16 by decide) hattempt
  have h₂ := string_length_le (show (lit "side").length ≤ 16 by decide)
    (sideName_length_le e.side)
  have h₃ := integer_length_le (show (lit "glove_id").length ≤ 16 by decide)
    (show e.gloveId.toNat < 2 ^ 64 by omega)
  have h₄ := string_length_le (show (lit "file").length ≤ 16 by decide) hfile
  have h₅ := integer_length_le (show (lit "bytes").length ≤ 16 by decide) hbytes
  have h₆ := string_length_le (show (lit "sha256").length ≤ 16 by decide) hsha
  refine objectText_fits (by decide) ?_
  simp only [List.flatten_cons, List.flatten_nil, List.length_append, List.length_nil]
  omega

theorem result_fits {e : ResultEvent} (h : (Event.result e : Event τ).Sized) :
    (serializeEvent format (.result e)).length ≤ kMaxMessageBytes := by
  obtain ⟨hattempt, hcount, hfiles, herror⟩ := h
  have h₁ := optionalString_length_le (show (lit "attempt").length ≤ 16 by decide) hattempt
  have h₂ := string_length_le (show (lit "outcome").length ≤ 16 by decide)
    (outcomeName_length_le e.outcome)
  -- Only a completed result lists its files.
  have h₃ : (if e.outcome = .completed then [raw "files" (filesJson e.files)]
      else []).flatten.length ≤ 2103 := by
    split
    · have hraw := raw_length_le (show (lit "files").length ≤ 16 by decide)
        (filesJson_length_le hcount hfiles)
      rwa [List.flatten_singleton]
    · exact Nat.zero_le _
  have h₄ : (e.error.map fun error => raw "error" (errorJson error)).toList.flatten.length ≤
      36400 := by
    cases herror' : e.error with
    | none => exact Nat.zero_le _
    | some error =>
      have hraw := raw_length_le (show (lit "error").length ≤ 16 by decide)
        (errorJson_length_le (herror error herror'))
      rwa [Option.map_some, Option.toList_some, List.flatten_singleton]
  have h₅ := raw_length_le (show (lit "released").length ≤ 16 by decide)
    (boolText_length_le e.released)
  refine objectText_fits (by decide) ?_
  simp only [List.flatten_append, List.flatten_cons, List.flatten_nil, List.length_append,
    List.length_nil]
  omega

/-- **An event whose texts are short fits into a message.** -/
theorem serializeEvent_length_le {event : Event τ} (h : event.Sized) :
    (serializeEvent format event).length ≤ kMaxMessageBytes := by
  cases event with
  | ready e => exact h.elim
  | status e => exact status_fits format h
  | prompt e => exact prompt_fits format h
  | stepAccepted e => exact stepAccepted_fits format h
  | stepProgress e => exact stepProgress_fits format h
  | rejected e => exact rejected_fits format h
  | exported e => exact exported_fits format h
  | result e => exact result_fits format h

end Serialize

end Calibration
